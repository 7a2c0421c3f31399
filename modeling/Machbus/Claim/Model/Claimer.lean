import Machbus.Net.Model.Frame
/-!
# Address claiming — the state machine

A control function takes part in the address-claim procedure of ISO
11783-5 through its `AddressClaimer`: it listens, claims, defends or
gives up an address, and re-claims another one after a random delay. The
claimer is driven by calls; each returns the new claimer and control
function and the frames to transmit.
-/

namespace Machbus

/-! ## Control functions -/

inductive CfType
  | internal
  | external
  | partnered
  deriving DecidableEq, Repr

inductive CfState
  | online
  | offline
  deriving DecidableEq, Repr

/-- What is tracked of any control function. -/
structure ControlFunction where
  name : Name
  address : Address := nullAddress
  canPort : UInt8
  type : CfType
  state : CfState := .offline
  deriving DecidableEq, Repr

namespace ControlFunction

def new (name : Name) (canPort : UInt8) (type : CfType) : ControlFunction :=
  { name := name, canPort := canPort, type := type }

def addressValid (cf : ControlFunction) : Bool := cf.address ≤ maxAddress

def isOnline (cf : ControlFunction) : Bool := cf.state == .online

end ControlFunction

/-- The states of the address-claim machine. -/
inductive ClaimState
  | none
  | waitForClaim
  | sendRequest
  | waitForContest
  | sendClaim
  | claimed
  | failed
  deriving DecidableEq, Repr

/-- A local control function. The events are the lists of what was emitted
to them. -/
structure InternalCf extends ControlFunction where
  claimState : ClaimState := .none
  preferredAddress : Address
  claimTimerMs : ℕ := 0
  onAddressClaimed : List Address := []
  onAddressLost : ℕ := 0
  deriving DecidableEq, Repr

def InternalCf.new (name : Name) (port : UInt8) (preferred : Address) : InternalCf :=
  { toControlFunction := { ControlFunction.new name port .internal with address := preferred }
    preferredAddress := preferred }

/-! ## Frames -/

namespace Claim

def makeRequestFrame : Frame :=
  Frame.new (Identifier.encode .default pgnRequest nullAddress broadcastAddress)
    ⟨leByte pgnAddressClaimed 0, leByte pgnAddressClaimed 1, leByte pgnAddressClaimed 2,
      0xFF, 0xFF, 0xFF, 0xFF, 0xFF⟩

def makeClaimFrame (name : Name) (addr : Address) : Frame :=
  Frame.new (Identifier.encode .default pgnAddressClaimed addr broadcastAddress) name.toBytes

def selfConfigAddressMin : Address := 128
def selfConfigAddressMax : Address := 247

/-- One round of the FNV-1a hash over byte `i` of a NAME. -/
def fnvRound (raw hash i : ℕ) : ℕ :=
  (hash ^^^ ((raw >>> (i * 8)) &&& 0xFF)) * 0x100000001B3 % 2 ^ 64

/-- A delay derived from the NAME: 0.6 ms per unit of a hashed byte. -/
def rtxdForName (name : Name) : ℕ :=
  let hash := (List.range 8).foldl (fnvRound name.raw) 0xcbf29ce484222325
  min ((hash &&& 0xFF) * 6 / 10) addressClaimRtxdMaxMs

end Claim

/-! ## The claimer -/

/-- The address-claim protocol driver. -/
structure AddressClaimer where
  /-- The guard window after a claim, and the initial listen window. -/
  timeoutMs : ℕ
  /-- The random transmit delay. -/
  rtxdMs : ℕ
  attemptedClaim : Bool := false
  claimGuardTimerMs : ℕ := 0
  cannotClaimPending : Bool := false
  cannotClaimDelayTimerMs : ℕ := 0
  listenPending : Bool := false
  listenTimerMs : ℕ := 0
  reclaimPending : Bool := false
  reclaimDelayTimerMs : ℕ := 0
  reclaimAddress : Address := nullAddress
  /-- The addresses peers have been seen to claim. -/
  occupiedAddresses : Address → Bool := fun _ => false

/-- A control function with its claimer. -/
structure LocalCf where
  claimer : AddressClaimer
  cf : InternalCf

namespace AddressClaimer

open Claim

def withTimeout (baseTimeoutMs rtxdMs : ℕ) : AddressClaimer :=
  let rtxdMs := if addressClaimRtxdMaxMs < rtxdMs then addressClaimRtxdMaxMs else rtxdMs
  { timeoutMs := baseTimeoutMs + rtxdMs, rtxdMs := rtxdMs }

def new (rtxdMs : ℕ) : AddressClaimer := withTimeout addressClaimTimeoutMs rtxdMs

variable (c : AddressClaimer)

def markOccupied (addr : Address) : AddressClaimer :=
  if addr ≤ maxAddress then
    { c with occupiedAddresses := fun a => if a = addr then true else c.occupiedAddresses a }
  else c

def isOccupied (addr : Address) : Bool :=
  decide (addr ≤ maxAddress) && c.occupiedAddresses addr

/-- The address after `next` in the configurable range, which it wraps
around. -/
def successor (next : Address) : Address :=
  if next < selfConfigAddressMax then next + 1 else selfConfigAddressMin

/-- The search loop: at most `tries` addresses from `next` on. -/
def searchFrom (c : AddressClaimer) (cf : InternalCf) : ℕ → Address → Address
  | 0, _ => nullAddress
  | tries + 1, next =>
    if next ≠ cf.preferredAddress ∧ c.isOccupied next = false then next
    else searchFrom c cf tries (successor next)

variable (cf : InternalCf)

/-- A free address other than the preferred one, looked for from the one
after `current`, or the null address when there is none. -/
def findNextAddress (current : Address) : Address :=
  let next :=
    if selfConfigAddressMin ≤ current ∧ current < selfConfigAddressMax then current + 1
    else selfConfigAddressMin
  -- one try for each address of the range
  c.searchFrom cf 120 next

/-- Off the bus: offline, failed and without an address. -/
def offBus : InternalCf :=
  { cf with state := .offline, claimState := .failed, address := nullAddress }

/-- Begins the claim sequence with a request for the addresses in use. -/
def start : LocalCf × List Frame :=
  let c := { c with attemptedClaim := true, occupiedAddresses := fun _ => false }
  -- an unclaimable preferred address is not listened for
  if maxAddress < cf.preferredAddress then
    ({ claimer :=
        { c with
          reclaimPending := false
          reclaimDelayTimerMs := 0
          reclaimAddress := nullAddress
          claimGuardTimerMs := 0 }
       cf := offBus cf }, [makeClaimFrame cf.name nullAddress])
  else
    ({ claimer := { c with listenPending := true, listenTimerMs := 0, claimGuardTimerMs := 0 }
       cf := { cf with claimState := .sendRequest, claimTimerMs := 0 } }, [makeRequestFrame])

/-- The address claimed when the listen window closes. -/
def listenAddress : Address :=
  if c.isOccupied cf.preferredAddress = true ∧ cf.name.selfConfigurable = true then
    c.findNextAddress cf cf.preferredAddress
  else cf.preferredAddress

/-- The initial claim, once the listen window closes. -/
def finishListen : LocalCf × List Frame :=
  let c := { c with listenPending := false, listenTimerMs := 0 }
  let address := c.listenAddress cf
  -- every address the NAME may choose is taken
  if maxAddress < address then
    ({ claimer := c, cf := offBus cf }, [makeClaimFrame cf.name nullAddress])
  else
    ({ claimer := { c with claimGuardTimerMs := 0 }
       cf := { cf with address := address, claimState := .waitForContest, claimTimerMs := 0 } },
      [makeClaimFrame cf.name address])

variable (elapsedMs : ℕ)

/-- The deferred cannot-claim answer, when its delay is over. -/
def tickCannotClaim : AddressClaimer × List Frame :=
  if c.cannotClaimPending = true then
    let timer := satAdd32 c.cannotClaimDelayTimerMs elapsedMs
    if c.rtxdMs ≤ timer then
      ({ c with cannotClaimPending := false, cannotClaimDelayTimerMs := 0 },
        if cf.claimState = .failed then [makeClaimFrame cf.name nullAddress] else [])
    else ({ c with cannotClaimDelayTimerMs := timer }, [])
  else (c, [])

/-- The address taken when a queued re-claim is due. -/
def reclaimTarget : Address :=
  -- the address set aside may have been claimed during the delay
  if maxAddress < c.reclaimAddress ∨ c.reclaimAddress = cf.preferredAddress ∨
      c.isOccupied c.reclaimAddress = true then
    c.findNextAddress cf c.reclaimAddress
  else c.reclaimAddress

/-- The queued re-claim, when its delay is over. -/
def tickReclaim : LocalCf × List Frame :=
  let timer := satAdd32 c.reclaimDelayTimerMs elapsedMs
  let c := { c with reclaimDelayTimerMs := timer }
  if c.rtxdMs ≤ timer then
    let c := { c with reclaimPending := false }
    let addr := c.reclaimTarget cf
    if maxAddress < addr then
      ({ claimer :=
          { c with reclaimAddress := nullAddress, reclaimDelayTimerMs := 0, claimGuardTimerMs := 0 }
         cf := offBus cf }, [makeClaimFrame cf.name nullAddress])
    else
      ({ claimer := { c with reclaimAddress := addr, claimGuardTimerMs := 0 }
         cf := { cf with address := addr, claimTimerMs := 0, claimState := .waitForContest } },
        [makeClaimFrame cf.name addr])
  else ({ claimer := c, cf := cf }, [])

/-- The contention guard, which ends in the address being claimed. -/
def tickContest : LocalCf :=
  if cf.claimState = .waitForContest then
    let c := { c with claimGuardTimerMs := satAdd32 c.claimGuardTimerMs elapsedMs }
    let cf := { cf with claimTimerMs := satAdd32 cf.claimTimerMs elapsedMs }
    if c.timeoutMs ≤ c.claimGuardTimerMs then
      let addr := if cf.address = nullAddress then cf.preferredAddress else cf.address
      { claimer := c
        cf :=
          { cf with
            claimState := .claimed
            address := addr
            state := .online
            onAddressClaimed := cf.onAddressClaimed ++ [addr] } }
    else { claimer := c, cf := cf }
  else { claimer := c, cf := cf }

/-- Drives elapsed time. -/
def update : LocalCf × List Frame :=
  if c.listenPending = true then
    let timer := satAdd32 c.listenTimerMs elapsedMs
    let c := { c with listenTimerMs := timer }
    if c.timeoutMs ≤ timer then c.finishListen cf else ({ claimer := c, cf := cf }, [])
  else
    let r := c.tickCannotClaim cf elapsedMs
    if r.1.reclaimPending = true then
      let q := r.1.tickReclaim cf elapsedMs
      (q.1, r.2 ++ q.2)
    else (r.1.tickContest cf elapsedMs, r.2)

/-- What a control function does that has lost the contest for
`claimedAddress`. -/
def yield (claimedAddress : Address) : LocalCf × List Frame :=
  let cf := { cf with state := .offline, onAddressLost := cf.onAddressLost + 1 }
  if cf.name.selfConfigurable = false then
    ({ claimer := c, cf := offBus cf }, [makeClaimFrame cf.name nullAddress])
  else
    let next := c.findNextAddress cf claimedAddress
    if maxAddress < next then
      ({ claimer := c, cf := offBus cf }, [makeClaimFrame cf.name nullAddress])
    else if 0 < c.rtxdMs then
      -- the lost address stays in the control function until the re-claim
      ({ claimer :=
          { c with reclaimPending := true, reclaimDelayTimerMs := 0, reclaimAddress := next }
         cf :=
          { cf with
            claimState := if cf.claimState = .claimed then .waitForClaim else cf.claimState } }, [])
    else
      ({ claimer := { c with claimGuardTimerMs := 0 }
         cf := { cf with address := next, claimTimerMs := 0, claimState := .waitForContest } },
        [makeClaimFrame cf.name next])

/-- Reacts to another node's address claim. -/
def handleClaim (claimedAddress : Address) (otherName : Name) : LocalCf × List Frame :=
  if maxAddress < claimedAddress then ({ claimer := c, cf := cf }, [])
  else
    let c := if otherName ≠ cf.name then c.markOccupied claimedAddress else c
    if c.attemptedClaim = false then ({ claimer := c, cf := cf }, [])
    else if cf.claimState = .failed then ({ claimer := c, cf := cf }, [])
    -- no address is held while the listen window is open
    else if c.listenPending = true then ({ claimer := c, cf := cf }, [])
    else if claimedAddress ≠ cf.address then ({ claimer := c, cf := cf }, [])
    -- an echo of the own claim, or a duplicate NAME, which is not arbitrated
    else if otherName = cf.name then ({ claimer := c, cf := cf }, [])
    else if cf.name < otherName then
      ({ claimer := c, cf := cf }, [makeClaimFrame cf.name cf.address])
    else c.yield cf claimedAddress

/-- Reacts to another node using the same NAME. -/
def handleDuplicateName : LocalCf × List Frame :=
  if c.attemptedClaim = false ∨ cf.claimState = .failed then ({ claimer := c, cf := cf }, [])
  else
    -- the listen window is not closed here
    ({ claimer :=
        { c with
          reclaimPending := false
          reclaimDelayTimerMs := 0
          reclaimAddress := nullAddress
          claimGuardTimerMs := 0 }
       cf := offBus { cf with onAddressLost := cf.onAddressLost + 1 } },
      [makeClaimFrame cf.name nullAddress])

/-- Reacts to a request for address claimed. -/
def handleRequestForClaim : LocalCf × List Frame :=
  if c.attemptedClaim = false then ({ claimer := c, cf := cf }, [])
  -- the address was lost and the next one is not claimed yet
  else if c.reclaimPending = true then ({ claimer := c, cf := cf }, [])
  else
    match cf.claimState with
    | .claimed => ({ claimer := c, cf := cf }, [makeClaimFrame cf.name cf.address])
    | .waitForContest => ({ claimer := c, cf := cf }, [makeClaimFrame cf.name cf.address])
    | .failed =>
      if c.rtxdMs = 0 then
        ({ claimer := c, cf := cf }, [makeClaimFrame cf.name nullAddress])
      else
        ({ claimer := { c with cannotClaimPending := true, cannotClaimDelayTimerMs := 0 }
           cf := cf }, [])
    | _ => ({ claimer := c, cf := cf }, [])

end AddressClaimer

namespace LocalCf

open Claim

def new (name : Name) (port : UInt8) (preferred : Address) (claimer : AddressClaimer) : LocalCf :=
  { claimer := claimer, cf := InternalCf.new name port preferred }

variable (n : LocalCf)

/-- A commanded address is applied: the network layer writes it straight
into a control function that is off the bus or has claimed an address. -/
def applyCommanded (newAddress : Address) : LocalCf × List Frame :=
  ({ n with
      cf :=
        { n.cf with
          address := newAddress
          state := .online
          claimState := .claimed
          claimTimerMs := 0
          onAddressClaimed := n.cf.onAddressClaimed ++ [newAddress] } },
    [makeClaimFrame n.cf.name newAddress])

/-- A call on a claimer. -/
inductive Op
  | start
  | update (elapsedMs : ℕ)
  | claim (claimedAddress : Address) (otherName : Name)
  | duplicate
  | request
  | commanded (newAddress : Address)
  deriving DecidableEq, Repr

/-- The control function after a call, and the frames to transmit. A
commanded address is applied to a claimable address only, and in the two
states named above. -/
def call : Op → LocalCf × List Frame
  | .start => n.claimer.start n.cf
  | .update elapsedMs => n.claimer.update n.cf elapsedMs
  | .claim claimedAddress otherName => n.claimer.handleClaim n.cf claimedAddress otherName
  | .duplicate => n.claimer.handleDuplicateName n.cf
  | .request => n.claimer.handleRequestForClaim n.cf
  | .commanded newAddress =>
    if newAddress ≤ maxAddress ∧
        (n.cf.claimState = .failed ∨ n.cf.claimState = .claimed ∧ n.cf.isOnline = true) then
      n.applyCommanded newAddress
    else (n, [])

def step (op : Op) : LocalCf := (n.call op).1

/-- The control function right after its construction, whatever it is
built with; the sum of the two times fits its machine word. -/
def Fresh : Prop :=
  ∃ name port preferred baseTimeoutMs rtxdMs, baseTimeoutMs + addressClaimRtxdMaxMs ≤ u32Max ∧
      n = new name port preferred (.withTimeout baseTimeoutMs rtxdMs)

end LocalCf

end Machbus
