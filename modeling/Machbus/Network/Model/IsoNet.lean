import Machbus.Claim.Model.Claimer
import Machbus.Tp.Model.Engine
import Machbus.Etp.Model.Engine
import Machbus.Network.Model.FastPacket
/-!
# The network layer

`IsoNet` owns the local control functions with their claimers, the
partners it watches, the three transport engines and the queue of
transmissions that wait for a busy path. It routes received frames, picks
the transport of a message to send, and gives up the transports of an
address that a control function no longer holds. Frames leave through the
endpoint of their port, or into a buffer when the stack runs without
endpoints.
-/

namespace Machbus

/-! ## Partners -/

inductive NameFilterField
  | identityNumber
  | manufacturerCode
  | ecuInstance
  | functionInstance
  | functionCode
  | deviceClass
  | deviceClassInstance
  | industryGroup
  deriving DecidableEq, Repr

structure NameFilter where
  field : NameFilterField
  value : ℕ
  deriving DecidableEq, Repr

def NameFilter.matchesName (f : NameFilter) (name : Name) : Bool :=
  match f.field with
  | .identityNumber => name.identityNumber == f.value
  | .manufacturerCode => name.manufacturerCode == f.value
  | .ecuInstance => name.ecuInstance == f.value
  | .functionInstance => name.functionInstance == f.value
  | .functionCode => name.functionCode == f.value
  | .deviceClass => name.deviceClass == f.value
  | .deviceClassInstance => name.deviceClassInstance == f.value
  | .industryGroup => name.industryGroup == f.value

def partnerAddressClaimResponseTimeoutMs : ℕ := 2000

/-- A remote control function, tracked by its NAME. -/
structure PartnerCf where
  cf : ControlFunction
  filters : List NameFilter
  claimValidationElapsedMs : ℕ := 0
  claimValidationPending : Bool := false
  onPartnerFound : List Address := []
  onPartnerLost : ℕ := 0
  deriving DecidableEq, Repr

namespace PartnerCf

def new (port : UInt8) (filters : List NameFilter) : PartnerCf :=
  { cf := ControlFunction.new (Name.fromRaw 0) port .partnered, filters := filters }

variable (p : PartnerCf)

def matchesName (name : Name) : Bool := p.filters.all (·.matchesName name)

def noteAddressClaimSeen (name : Name) (address : Address) : PartnerCf :=
  { p with
    cf := { p.cf with name := name, address := address, state := .online }
    claimValidationPending := false
    claimValidationElapsedMs := 0
    onPartnerFound := p.onPartnerFound ++ [address] }

def noteCannotClaimSeen (name : Name) : PartnerCf :=
  let wasOnline := p.cf.isOnline || p.cf.addressValid
  { p with
    cf := { p.cf with name := name, address := nullAddress, state := .offline }
    claimValidationPending := false
    claimValidationElapsedMs := 0
    onPartnerLost := if wasOnline then p.onPartnerLost + 1 else p.onPartnerLost }

def beginClaimValidation : PartnerCf :=
  if p.cf.isOnline && p.cf.addressValid then
    { p with claimValidationPending := true, claimValidationElapsedMs := 0 }
  else p

def updateClaimValidation (elapsedMs : ℕ) : PartnerCf :=
  if p.claimValidationPending = false then p
  else
    let elapsed := satAdd32 p.claimValidationElapsedMs elapsedMs
    if elapsed < partnerAddressClaimResponseTimeoutMs then
      { p with claimValidationElapsedMs := elapsed }
    else
      { p with
        cf := { p.cf with address := nullAddress, state := .offline }
        claimValidationPending := false
        claimValidationElapsedMs := 0
        onPartnerLost := p.onPartnerLost + 1 }

end PartnerCf

/-! ## The state -/

/-- An endpoint over some link: it takes a frame or fails with a text, and
hands over the frames received until it has none left. -/
class CanEndpoint (L : Type) where
  sendCan : L → Frame → L × Option String
  recvCan : L → L × List Frame

/-- The endpoint of a build without links: it takes every frame and never
has one. -/
instance : CanEndpoint Unit where
  sendCan _ _ := ((), none)
  recvCan _ := ((), [])

structure NetworkConfig where
  addressClaimTimeoutMs : ℕ := Machbus.addressClaimTimeoutMs
  enableFastPacket : Bool := false
  deriving DecidableEq, Repr

structure NetworkStatistics where
  framesSent : ℕ := 0
  framesReceived : ℕ := 0
  deriving DecidableEq, Repr

inductive PendingTransportKind
  | tp
  | etp
  deriving DecidableEq, Repr

/-- A transmission that waits for its path. -/
structure PendingTransportTx where
  kind : PendingTransportKind
  pgn : ℕ
  data : List UInt8
  source : Address
  destination : Address
  port : UInt8
  priority : Priority
  deriving DecidableEq, Repr

def maxPendingTransportTx : ℕ := 32
def addressViolationResponseIntervalMs : ℕ := 1000

/-- An address violation that has been answered. -/
structure RecentViolation where
  port : UInt8
  source : Address
  ageMs : ℕ
  deriving DecidableEq, Repr

/-- The network layer. Control functions are kept with their claimers, in
the order of their handles. -/
structure IsoNet (L : Type) where
  config : NetworkConfig
  stats : NetworkStatistics := {}
  locals : List LocalCf := []
  recentViolations : List RecentViolation := []
  partnerCfs : List PartnerCf := []
  endpoints : List (UInt8 × L) := []
  tp : TransportProtocol := {}
  etp : ExtendedTransportProtocol := {}
  fastPacket : FastPacketProtocol := {}
  fastPacketPgns : List ℕ := []
  pendingTransportTx : List PendingTransportTx := []
  /-- Completed sessions that have not been dispatched yet. -/
  tpCompletions : List TransportSession := []
  etpCompletions : List TransportSession := []
  outbound : List (UInt8 × Frame) := []
  captureOutbound : Bool := false
  capturedMessages : List Message := []
  captureMessages : Bool := false
  onMessage : List Message := []
  onAddressViolation : List Address := []
  onDuplicateName : List (Name × Address) := []

namespace IsoNet

variable {L : Type}

def new (config : NetworkConfig) : IsoNet L := { config := config }

section

variable (net : IsoNet L)

/-- The TP engine is replaced by its successor; what that has completed
goes to the queue subscribed to it. -/
def setTp (tp : TransportProtocol) : IsoNet L :=
  { net with
    tp := tp
    tpCompletions := net.tpCompletions ++ tp.onComplete.drop net.tp.onComplete.length }

/-- The same for the ETP engine. -/
def setEtp (etp : ExtendedTransportProtocol) : IsoNet L :=
  { net with
    etp := etp
    etpCompletions := net.etpCompletions ++ etp.onComplete.drop net.etp.onComplete.length }

def setFastPacket (fastPacket : FastPacketProtocol) : IsoNet L :=
  { net with fastPacket := fastPacket }

/-! ## Registration -/

def createInternal (name : Name) (port : UInt8) (preferred : Address) : IsoNet L × Except Error ℕ :=
  if net.locals.any (·.cf.name == name) then
    (net, .error (Error.withMessage .addressConflict
      ("duplicate internal NAME 0x" ++ hexUpper 16 name.raw)))
  else
    let claimer := AddressClaimer.withTimeout net.config.addressClaimTimeoutMs
      (Claim.rtxdForName name)
    ({ net with locals := net.locals ++ [LocalCf.new name port preferred claimer] },
      .ok net.locals.length)

def createPartner (port : UInt8) (filters : List NameFilter) : IsoNet L :=
  { net with partnerCfs := net.partnerCfs ++ [PartnerCf.new port filters] }

/-- The endpoints are kept in the order of their ports. -/
def insertEndpoint (port : UInt8) (endpoint : L) : List (UInt8 × L) → List (UInt8 × L)
  | [] => [(port, endpoint)]
  | e :: es =>
    if port < e.1 then (port, endpoint) :: e :: es
    else if port = e.1 then (port, endpoint) :: es
    else e :: insertEndpoint port endpoint es

def setEndpoint (port : UInt8) (endpoint : L) : IsoNet L :=
  { net with endpoints := insertEndpoint port endpoint net.endpoints }

def setCaptureOutbound (enabled : Bool) : IsoNet L :=
  { net with captureOutbound := enabled }

def registerFastPacketPgn (pgn : ℕ) : IsoNet L × Except Error Unit :=
  if pgnIsValid pgn = false then (net, .error (Error.invalidPgn pgn))
  else
    ({ net with
        fastPacketPgns :=
          if pgn ∈ net.fastPacketPgns then net.fastPacketPgns else net.fastPacketPgns ++ [pgn] },
      .ok ())

def isFastPacketPgn (pgn : ℕ) : Bool :=
  net.config.enableFastPacket && net.fastPacketPgns.contains pgn

end

/-! ## Frames out -/

variable [CanEndpoint L] (net : IsoNet L) (frame : Frame) (port : UInt8)

def sendFrame : IsoNet L × Except Error Unit :=
  if net.captureOutbound = true then
    ({ net with
        outbound := net.outbound ++ [(port, frame)]
        stats := { net.stats with framesSent := net.stats.framesSent + 1 } }, .ok ())
  else
    -- without an endpoint on the port the caller is told
    match net.endpoints.find? (·.1 == port) with
    | none => (net, .error Error.notConnected)
    | some (_, endpoint) =>
      let r := CanEndpoint.sendCan endpoint frame
      let net : IsoNet L :=
        { net with
          endpoints := net.endpoints.map fun e => if e.1 = port then (e.1, r.1) else e }
      match r.2 with
      | some text => (net, .error (.withMessage .driverError text))
      | none =>
        ({ net with stats := { net.stats with framesSent := net.stats.framesSent + 1 } }, .ok ())

/-- Sends frames until one is refused. -/
def sendFrames (net : IsoNet L) (port : UInt8) : List Frame → IsoNet L × Except Error Unit
  | [] => (net, .ok ())
  | f :: fs =>
    match net.sendFrame f port with
    | (net, .ok ()) => net.sendFrames port fs
    | (net, .error e) => (net, .error e)

/-- Sends frames, whatever becomes of them. -/
def sendFramesBestEffort (frames : List Frame) (port : UInt8) : IsoNet L :=
  frames.foldl (fun net f => (net.sendFrame f port).1) net

/-- The same for frames that name their ports. -/
def sendEmitted (emitted : List (UInt8 × Frame)) : IsoNet L :=
  emitted.foldl (fun net e => (net.sendFrame e.2 e.1).1) net

def portForAddress (addr : Address) : UInt8 :=
  match net.locals.find? (·.cf.address == addr) with
  | some n => n.cf.canPort
  -- an address nobody stores falls back to port 0
  | none => 0

/-- Frames of the transport engines leave on the port their source address
is found on. -/
def sendRouted (frames : List Frame) : IsoNet L :=
  frames.foldl (fun net f => (net.sendFrame f (net.portForAddress f.source)).1) net

/-! ## Messages out -/

section

variable (tx : PendingTransportTx)

def queueTransportTx : IsoNet L × Except Error Unit :=
  if net.pendingTransportTx.length < maxPendingTransportTx then
    ({ net with pendingTransportTx := net.pendingTransportTx ++ [tx] }, .ok ())
  else
    (net, .error (Error.withMessage .noResources "pending transport transmit queue full"))

/-- Hands a transmission to its engine and sends the first frames. -/
def tryStartPendingTransportTx : IsoNet L × Except Error Unit :=
  match tx.kind with
  | .tp =>
    match net.tp.send tx.pgn tx.data tx.source tx.destination tx.port tx.priority with
    | (tp, .ok frames) => (net.setTp tp).sendFrames tx.port frames
    | (tp, .error e) => (net.setTp tp, .error e)
  | .etp =>
    match net.etp.send tx.pgn tx.data tx.source tx.destination tx.port tx.priority with
    | (etp, .ok frames) => (net.setEtp etp).sendFrames tx.port frames
    | (etp, .error e) => (net.setEtp etp, .error e)

/-- A multi-frame message: it starts at once, or waits behind the session
that has its path. -/
def sendTransport : IsoNet L × Except Error Unit :=
  match tx.kind with
  | .tp =>
    match net.tp.send tx.pgn tx.data tx.source tx.destination tx.port tx.priority with
    | (tp, .ok frames) => (net.setTp tp).sendFrames tx.port frames
    | (tp, .error e) =>
      -- only a taken path makes it wait, other errors are returned
      if e.code = .sessionExists then (net.setTp tp).queueTransportTx tx
      else (net.setTp tp, .error e)
  | .etp =>
    match net.etp.send tx.pgn tx.data tx.source tx.destination tx.port tx.priority with
    | (etp, .ok frames) => (net.setEtp etp).sendFrames tx.port frames
    | (etp, .error e) =>
      if e.code = .sessionExists then (net.setEtp etp).queueTransportTx tx
      else (net.setEtp etp, .error e)

end

/-- Sends a message by the transport its size and PGN call for. -/
def send (pgn : ℕ) (data : List UInt8) (src : ℕ) (dst : Address)
    (priority : Priority) : IsoNet L × Except Error Unit :=
  if pgnIsValid pgn = false then (net, .error (.invalidPgn pgn))
  else
    match net.locals[src]? with
    | none => (net, .error .notConnected)
    | some n =>
      -- nothing is sent before the address is claimed, or once it is lost
      if n.cf.claimState ≠ .claimed ∨ n.cf.isOnline = false then
        (net, .error (.invalidState "control function has not claimed an address"))
      else if n.cf.addressValid = false then (net, .error .notConnected)
      else if data.length ≤ canDataLength then
        net.sendFrame (.new (.encode priority pgn n.cf.address dst)
          (.padded (data.take 8))) n.cf.canPort
      -- registered PGNs go out as Fast Packets as far as these reach
      else if net.isFastPacketPgn pgn = true ∧ data.length ≤ fastPacketMaxData then
        match net.fastPacket.sendTo pgn data n.cf.address dst priority with
        | (fp, .ok frames) => (net.setFastPacket fp).sendFrames n.cf.canPort frames
        | (fp, .error e) => (net.setFastPacket fp, .error e)
      else if data.length ≤ tpMaxDataLength then
        net.sendTransport ⟨.tp, pgn, data, n.cf.address, dst, n.cf.canPort, priority⟩
      -- what is longer than TP allows needs a single receiver
      else if dst = broadcastAddress then
        (net, .error (.invalidState "ETP does not support broadcast"))
      else net.sendTransport ⟨.etp, pgn, data, n.cf.address, dst, n.cf.canPort, priority⟩

/-- One round over the waiting transmissions: those whose path or slot is
still taken go back to the end of the queue. -/
def startReady : ℕ → IsoNet L → IsoNet L
  | 0, net => net
  | attempts + 1, net =>
    match net.pendingTransportTx with
    | [] => net
    | tx :: rest =>
      match tryStartPendingTransportTx { net with pendingTransportTx := rest } tx with
      | (net, .ok ()) => startReady attempts net
      | (net, .error e) =>
        if e.code = .sessionExists ∨ e.code = .noResources then
          startReady attempts
            { net with pendingTransportTx := net.pendingTransportTx ++ [tx] }
        else startReady attempts net

def startReadyPendingTransport : IsoNet L :=
  startReady net.pendingTransportTx.length net

/-! ## Address claiming -/

/-- Every control function makes a call; what they emit leaves on their
own ports. -/
def callAll (op : LocalCf.Op) : IsoNet L × List (UInt8 × Frame) :=
  ({ net with locals := net.locals.map (·.step op) },
    net.locals.flatMap fun n => (n.call op).2.map (Prod.mk n.cf.canPort))

def startAddressClaiming : IsoNet L × Except Error Unit :=
  if net.locals.isEmpty = true then
    (net, .error (Error.invalidState "no control functions registered"))
  else
    let r := net.callAll .start
    (r.1.sendEmitted r.2, .ok ())

/-- Stops using an address on a port: its sessions and what is queued from
it are dropped. -/
def discontinueAddress (address : Address) : IsoNet L × List Frame :=
  if address = nullAddress ∨ address = broadcastAddress then (net, [])
  else
    let tp := net.tp.abortSessionsForAddress port address
    let etp := net.etp.abortSessionsForAddress port address
    let net := (net.setTp tp.1).setEtp etp.1
    ({ net with
        pendingTransportTx :=
          net.pendingTransportTx.filter fun tx => tx.port != port || tx.source != address },
      tp.2 ++ etp.2)

/-- The same for several addresses of one port. -/
def discontinueAll (net : IsoNet L) (port : UInt8) : List Address → IsoNet L × List Frame
  | [] => (net, [])
  | a :: as =>
    let r := net.discontinueAddress port a
    let s := r.1.discontinueAll port as
    (s.1, r.2 ++ s.2)

/-- The address a control function has stopped using in a call, as the
handlers of received frames see it. -/
def surrenderedBy (before after : LocalCf) : List Address :=
  if after.cf.address ≠ before.cf.address ∨ after.cf.isOnline = false then [before.cf.address]
  else []

/-- The local control functions whose NAME a claim has used from another
address. -/
def isDuplicated (claimedName : Name) (claimedAddr : Address) (port : UInt8) (n : LocalCf) : Bool :=
  n.cf.canPort == port && n.cf.name == claimedName && n.claimer.attemptedClaim &&
    n.cf.claimState != .failed && n.cf.address != claimedAddr

/-- Takes the duplicated control functions off the bus, and returns the
addresses they leave. -/
def handleDuplicateInternalName (claimedName : Name) (claimedAddr : Address)
    (port : UInt8) : IsoNet L × List Address :=
  if claimedAddr = nullAddress ∨ claimedAddr = broadcastAddress then (net, [])
  else
    let dup := isDuplicated claimedName claimedAddr port
    let affected := net.locals.filter dup
    let net : IsoNet L :=
      { net with
        locals := net.locals.map fun n => if dup n then n.step .duplicate else n
        onDuplicateName := net.onDuplicateName ++ affected.map fun _ => (claimedName, claimedAddr) }
    (net.sendFramesBestEffort (affected.flatMap fun n => (n.call .duplicate).2) port,
      affected.flatMap fun n => surrenderedBy n (n.step .duplicate))

/-- A claim is shown to the claimers of its port, and the addresses that
are given up are torn down. -/
def handleClaimed (claimedName : Name) (claimedAddr : Address) (port : UInt8) : IsoNet L :=
  let d := net.handleDuplicateInternalName claimedName claimedAddr port
  let net := d.1
  let op : LocalCf.Op := .claim claimedAddr claimedName
  let concerned := net.locals.filter (·.cf.canPort == port)
  let emitted := concerned.flatMap fun n => (n.call op).2
  -- the address before the call, of whoever is off it or off the bus after it
  let surrendered := d.2 ++ concerned.flatMap fun n => surrenderedBy n (n.step op)
  let net : IsoNet L :=
    { net with locals := net.locals.map fun n => if n.cf.canPort == port then n.step op else n }
  let r := net.discontinueAll port surrendered
  r.1.sendFramesBestEffort (emitted ++ r.2) port

def handleAddressClaim : IsoNet L :=
  match Name.fromBytes frame.payload with
  | none => net
  | some claimedName =>
    let claimedAddr := frame.source
    -- nobody can hold the broadcast address
    if claimedAddr = broadcastAddress then net
    else
      let net : IsoNet L :=
        if claimedAddr ≤ maxAddress then net.handleClaimed claimedName claimedAddr port else net
      { net with
        partnerCfs := net.partnerCfs.map fun p =>
          if p.cf.canPort == port && p.matchesName claimedName then
            -- the null address announces that none could be claimed
            if claimedAddr = nullAddress then p.noteCannotClaimSeen claimedName
            else p.noteAddressClaimSeen claimedName claimedAddr
          else p }

/-- The PGN a request asks for: three bytes, or eight with five of
padding. -/
def decodeRequest (data : List UInt8) : Option ℕ :=
  let validLen := data.length == 3 || (data.length == 8 && (data.drop 3).all (· == 0xFF))
  if validLen = false then none
  else
    let pgn := ofLe (data.take 3)
    if pgnIsValid pgn = true then some pgn else none

/-- Answers a request for address claimed; `false` if the frame is not
one. -/
def handleRequestForAddressClaim : IsoNet L × Bool :=
  match decodeRequest frame.payload with
  | none => (net, false)
  | some requestedPgn =>
    if requestedPgn ≠ pgnAddressClaimed then (net, false)
    else
      let dst := frame.destination
      let asked := fun n : LocalCf =>
        n.cf.canPort == port && (dst == broadcastAddress || n.cf.address == dst)
      let emitted := (net.locals.filter asked).flatMap fun n => (n.call .request).2
      let net : IsoNet L :=
        { net with
          locals := net.locals.map fun n => if asked n then n.step .request else n
          partnerCfs := net.partnerCfs.map fun p =>
            if p.cf.canPort == port && p.cf.isOnline &&
                (dst == broadcastAddress || p.cf.address == dst) then
              p.beginClaimValidation
            else p }
      (net.sendFramesBestEffort emitted port, true)

/-! ## Frames in -/

def dispatchMessage (msg : Message) : IsoNet L :=
  { net with
    capturedMessages :=
      if net.captureMessages then net.capturedMessages ++ [msg] else net.capturedMessages
    onMessage := net.onMessage ++ [msg] }

/-- The commanded address is held by a control function other than the
target. -/
def occupiedByOther (targetName : Name) (newAddress : Address) (port : UInt8) : Bool :=
  (net.locals.any fun n =>
    n.cf.canPort == port && n.cf.address == newAddress && n.cf.name != targetName &&
      n.cf.claimState == .claimed) ||
  net.partnerCfs.any fun p =>
    p.cf.canPort == port && p.cf.address == newAddress && p.cf.name != targetName && p.cf.isOnline

/-- What a commanded address does to one control function: the function
itself, the frames and the address it leaves. -/
def obeyCommand (targetName : Name) (newAddress : Address) (port : UInt8) (occupied : Bool)
    (n : LocalCf) : LocalCf × List Frame × List Address :=
  if n.cf.canPort ≠ port ∨ n.cf.name ≠ targetName then (n, [], [])
  else
    let cannotClaim := n.cf.claimState == .failed
    if cannotClaim = false ∧ (n.cf.claimState ≠ .claimed ∨ n.cf.isOnline = false) then (n, [], [])
    else if occupied = true ∧ cannotClaim = true then (n, [], [])
    else if occupied = true then (n, [Claim.makeClaimFrame targetName n.cf.address], [])
    else
      let r := n.applyCommanded newAddress
      (r.1, r.2, if n.cf.address ≠ newAddress then [n.cf.address] else [])

def handleCommandedAddressMessage (msg : Message) (port : UInt8) : IsoNet L :=
  if msg.pgn ≠ pgnCommandedAddress ∨ msg.data.length ≠ 9 then net
  else
    match Name.fromBytes (msg.data.take 8) with
    | none => net
    | some targetName =>
      let newAddress := msg.data.getD 8 0
      if maxAddress < newAddress then net
      else
        let obey := obeyCommand targetName newAddress port
          (net.occupiedByOther targetName newAddress port)
        let emitted := net.locals.flatMap fun n => (obey n).2.1
        let surrendered := net.locals.flatMap fun n => (obey n).2.2
        let net : IsoNet L := { net with locals := net.locals.map fun n => (obey n).1 }
        let r := net.discontinueAll port surrendered
        r.1.sendFramesBestEffort (emitted ++ r.2) port

/-- A completed transfer that was received is dispatched, a commanded
address among them obeyed first. -/
def dispatchCompletion (session : TransportSession) : IsoNet L :=
  if session.direction ≠ .receive then net
  else
    let msg : Message :=
      { pgn := session.pgn
        data := session.data
        source := session.sourceAddress
        destination := session.destinationAddress
        priority := session.priority
        timestampUs := 0 }
    (net.handleCommandedAddressMessage msg session.canPort).dispatchMessage msg

def drainTransportCompletions : IsoNet L :=
  (net.tpCompletions ++ net.etpCompletions).foldl dispatchCompletion
    { net with tpCompletions := [], etpCompletions := [] }

def isAddressedToUs : Bool :=
  frame.destination == broadcastAddress || net.locals.any fun n =>
      n.cf.canPort == port && n.cf.claimState == .claimed && n.cf.address == frame.destination

/-- Another node's use of a claimed address is answered, once in a
while. -/
def checkAddressViolation : IsoNet L :=
  let src := frame.source
  if src = nullAddress ∨ src = broadcastAddress then net
  else if net.recentViolations.any fun v => v.port == port && v.source == src then net
  else
    let violated := fun n : LocalCf =>
      n.cf.canPort == port && n.cf.claimState == .claimed && n.cf.address == src
    if net.locals.any violated then
      let emitted := (net.locals.filter violated).flatMap fun n => (n.call .request).2
      let net : IsoNet L :=
        { net with
          locals := net.locals.map fun n => if violated n then n.step .request else n
          recentViolations := net.recentViolations ++ [⟨port, src, 0⟩]
          onAddressViolation := net.onAddressViolation ++ [src] }
      net.sendFramesBestEffort emitted port
    else net

/-- A frame of the two transport engines, or of neither. -/
def processTransport : IsoNet L :=
  if frame.pgn = pgnTpCm ∨ frame.pgn = pgnTpDt then
    let r := net.tp.processFrame frame port
    ((net.setTp r.1).sendFramesBestEffort r.2 port).drainTransportCompletions
  else if frame.pgn = pgnEtpCm ∨ frame.pgn = pgnEtpDt then
    let r := net.etp.processFrame frame port
    ((net.setEtp r.1).sendFramesBestEffort r.2 port).drainTransportCompletions
  else if net.isFastPacketPgn frame.pgn = true then
    let r := net.fastPacket.processFrame frame
    match r.2 with
    | some msg => (net.setFastPacket r.1).dispatchMessage msg
    | none => net.setFastPacket r.1
  else
    net.dispatchMessage
      { pgn := frame.pgn
        data := frame.payload
        source := frame.source
        destination := frame.destination
        priority := frame.priority
        timestampUs := frame.timestampUs }

def processFrame : IsoNet L :=
  let net : IsoNet L :=
    { net with stats := { net.stats with framesReceived := net.stats.framesReceived + 1 } }
  if frame.pgn = pgnAddressClaimed then
    (net.handleAddressClaim frame port).dispatchMessage
      { pgn := frame.pgn
        data := frame.payload
        source := frame.source
        destination := frame.destination
        priority := frame.priority
        timestampUs := 0 }
  else
    let r := if frame.pgn = pgnRequest then net.handleRequestForAddressClaim frame port
      else (net, false)
    if r.2 = true then r.1
    else
      -- claims and requests may use any source; other traffic from ours is a violation
      let net := r.1.checkAddressViolation frame port
      -- transport traffic between other nodes
      if (frame.pgn = pgnTpCm ∨ frame.pgn = pgnTpDt ∨ frame.pgn = pgnEtpCm ∨
          frame.pgn = pgnEtpDt) ∧ net.isAddressedToUs frame port = false then net
      else net.processTransport frame port

/-- One received frame is handed in. -/
def feed : IsoNet L := net.processFrame frame port

/-! ## The poll loop -/

/-- The frames every endpoint has received, port by port. -/
def receiveAll : IsoNet L × List (UInt8 × Frame) :=
  ({ net with endpoints := net.endpoints.map fun e => (e.1, (CanEndpoint.recvCan e.2).1) },
    net.endpoints.flatMap fun e => (CanEndpoint.recvCan e.2).2.map (Prod.mk e.1))

variable (elapsedMs : ℕ)

/-- The TP engine is driven for a time and sends what it has. -/
def driveTp : IsoNet L :=
  let u := net.tp.update elapsedMs
  let net := (net.setTp u.1).sendRouted u.2
  let d := net.tp.getPendingDataFrames
  (net.setTp d.1).sendRouted d.2

/-- The same for the ETP engine. -/
def driveEtp : IsoNet L :=
  let u := net.etp.update elapsedMs
  let net := (net.setEtp u.1).sendRouted u.2
  let d := net.etp.getPendingDataFrames
  (net.setEtp d.1).sendRouted d.2

/-- The transport engines are driven for a time. -/
def driveTransports : IsoNet L :=
  let net := (net.driveTp elapsedMs).driveEtp elapsedMs
  net.setFastPacket (net.fastPacket.update elapsedMs)

/-- The address a control function has stopped using in an update of its
claimer. -/
def vacatedBy (before after : LocalCf) : List (UInt8 × Address) :=
  if before.cf.address ≠ nullAddress ∧ (after.cf.address ≠ before.cf.address ∨
        before.cf.isOnline = true ∧ after.cf.isOnline = false) then
    [(before.cf.canPort, before.cf.address)]
  else []

/-- Tears down addresses one by one, sending what that leaves to send. -/
def discontinueEach (surrendered : List (UInt8 × Address)) : IsoNet L :=
  surrendered.foldl (fun net e =>
    let r := net.discontinueAddress e.1 e.2
    r.1.sendFramesBestEffort r.2 e.1) net

/-- The claimers are driven for a time, and the addresses they leave are
torn down. -/
def driveClaimers : IsoNet L :=
  let op : LocalCf.Op := .update elapsedMs
  let surrendered := net.locals.flatMap fun n => vacatedBy n (n.step op)
  let r := net.callAll op
  (r.1.discontinueEach surrendered).sendEmitted r.2

def update : IsoNet L :=
  let net : IsoNet L :=
    { net with
      partnerCfs := net.partnerCfs.map (·.updateClaimValidation elapsedMs)
      recentViolations :=
        (net.recentViolations.map fun v => { v with ageMs := satAdd32 v.ageMs elapsedMs }).filter
          fun v => v.ageMs < addressViolationResponseIntervalMs }
  let rx := net.receiveAll
  let net := rx.2.foldl (fun net e => net.processFrame e.2 e.1) rx.1
  (net.driveTransports elapsedMs).drainTransportCompletions.startReadyPendingTransport.driveClaimers
    elapsedMs

/-! ## Calls -/

/-- A call on the network layer. -/
inductive Op (L : Type)
  | createInternal (name : Name) (port : UInt8) (preferred : Address)
  | createPartner (port : UInt8) (filters : List NameFilter)
  | setEndpoint (port : UInt8) (endpoint : L)
  | setCaptureOutbound (enabled : Bool)
  | registerFastPacketPgn (pgn : ℕ)
  | startAddressClaiming
  | send (pgn : ℕ) (data : List UInt8) (src : ℕ) (dst : Address) (priority : Priority)
  | feed (frame : Frame) (port : UInt8)
  | update (elapsedMs : ℕ)

/-- The network layer after a call. -/
def step : Op L → IsoNet L
  | .createInternal name port preferred => (net.createInternal name port preferred).1
  | .createPartner port filters => net.createPartner port filters
  | .setEndpoint port endpoint => net.setEndpoint port endpoint
  | .setCaptureOutbound enabled => net.setCaptureOutbound enabled
  | .registerFastPacketPgn pgn => (net.registerFastPacketPgn pgn).1
  | .startAddressClaiming => net.startAddressClaiming.1
  | .send pgn data src dst priority => (net.send pgn data src dst priority).1
  | .feed frame port => net.feed frame port
  | .update elapsedMs => net.update elapsedMs

end IsoNet

end Machbus
