import Machbus.Net.FixedQueue
import Machbus.Tp.Delivery
import Machbus.Tp.FixedDrain
import Machbus.Tp.FixedIntegrity
import Machbus.Tp.FixedRefinement
import Machbus.Tp.Integrity
import Machbus.Etp.Delivery
import Machbus.Etp.FixedRefinement
import Machbus.Etp.Integrity
import Machbus.Claim.Agreement
import Machbus.Claim.Discontinued
import Machbus.Claim.OffBus
import Machbus.Claim.SelfConfigured
import Machbus.Network.LocalUniqueness
import Machbus.Network.PortIsolation
import Machbus.Network.Ports
import Machbus.Network.SendOrder
import Machbus.Network.Teardown
import Machbus.Niu.Accounting
import Machbus.Niu.ProtectedRules
import Machbus.Niu.RateLimit
import Machbus.Tc.AutomaticIds
import Machbus.Tc.IsoxmlAgreement
import Machbus.Tc.LiveClients
import Machbus.Tc.PoolAgreement
import Machbus.Tc.RateCap
import Machbus.Fs.DirectoryListing
import Machbus.Fs.HandleAgreement
import Machbus.Fs.References
import Machbus.Fs.SequentialRead
import Machbus.Tim.AssignmentIntegrity
import Machbus.Tim.Handshake
import Machbus.Sc.AbortRecovery
import Machbus.Sc.Attendance
