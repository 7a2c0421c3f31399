import Machbus.Net.Model.Frame
/-!
# NIU — the filtering bridge and the address-translating router

A network interconnection unit joins a tractor segment and an implement
segment. A frame heard on one side is dropped or handed to the other: the
base unit drops what has no usable source, what it forwarded itself a
moment ago, and what its filter rules or their rate limits refuse. The
observers of `on_forwarded`, `on_blocked` and `on_monitored` are modelled
by the lists of what was emitted to them, and `now_ms` is a number below
`2 ^ 32`.

A router is an NIU between two address spaces. Its database gives a
control function one address on each side, and a frame that crosses has
its source and destination rewritten. The calls that configure a unit
follow: a command message from the bus may add, delete or clear filter
rules, or ask for the counters, and is acknowledged to its sender.
-/

namespace Machbus

/-- Per-frame forwarding decision. -/
inductive ForwardPolicy
  | allow
  | block
  /-- Forward, and report the frame as well. -/
  | monitor
  deriving DecidableEq, Repr

/-- The side of the bridge a frame comes from. -/
inductive Side
  | tractor
  | implement
  deriving DecidableEq, Repr

def Side.other : Side → Side
  | .tractor => .implement
  | .implement => .tractor

/-- What the loop guard remembers of a frame. -/
structure FrameSignature where
  rawId : ℕ
  length : ℕ
  data : List UInt8
  deriving DecidableEq, Repr

/-- The bytes behind the frame's length are zeroed. -/
def FrameSignature.fromFrame (frame : Frame) : FrameSignature where
  rawId := frame.id.raw
  length := min frame.length 8
  data := frame.payload ++ List.replicate (8 - min frame.length 8) 0

structure RecentForward where
  targetSide : Side
  signature : FrameSignature
  forwardedAtMs : ℕ
  deriving DecidableEq, Repr

inductive NiuState
  | inactive
  | active
  | error
  deriving DecidableEq, Repr

inductive NiuFilterMode
  /-- Frames pass unless a rule blocks them. -/
  | blockSpecific
  /-- Frames are blocked unless a rule passes them. -/
  | passSpecific
  deriving DecidableEq, Repr

/-- `u32::wrapping_sub`. -/
def wrappingSub32 (a b : ℕ) : ℕ := (a + 2 ^ 32 - b) % 2 ^ 32

/-! ## Filter rules -/

/-- One forwarding rule. PGN `0` stands for any PGN. -/
structure FilterRule where
  pgn : ℕ
  policy : ForwardPolicy
  /-- A rule for one direction applies to frames from the tractor side. -/
  bidirectional : Bool
  sourceName : Option Name := none
  destinationName : Option Name := none
  /-- Minimum interval between forwards; `0` is no limit. -/
  maxFrequencyMs : ℕ := 0
  lastForwardTimeMs : Option ℕ := none
  persistent : Bool := false
  deriving DecidableEq, Repr

namespace FilterRule

/-- A required NAME is the one observed. -/
def nameMatches (required observed : Option Name) : Bool :=
  match required with
  | none => true
  | some _ => observed == required

/-- The rule speaks of this frame. -/
def applies (rule : FilterRule) (pgn : ℕ) (origin : Side)
    (sourceName destinationName : Option Name) : Bool :=
  (rule.pgn == 0 || rule.pgn == pgn) && (rule.bidirectional || origin == .tractor) &&
    nameMatches rule.sourceName sourceName && nameMatches rule.destinationName destinationName

/-- The rule after a frame it applies to, and whether its rate limit
refuses the frame. -/
def fire (rule : FilterRule) (nowMs : ℕ) : FilterRule × Bool :=
  if 0 < rule.maxFrequencyMs then
    match rule.lastForwardTimeMs with
    | some last =>
      if nowMs - last < rule.maxFrequencyMs then (rule, true)
      else ({ rule with lastForwardTimeMs := some nowMs }, false)
    | none => ({ rule with lastForwardTimeMs := some nowMs }, false)
  else (rule, false)

/-- The first rule that applies decides. -/
def resolve (pgn : ℕ) (origin : Side) (sourceName destinationName : Option Name) (nowMs : ℕ) :
    List FilterRule → Option (List FilterRule × ForwardPolicy × Bool)
  | [] => none
  | rule :: rules =>
    if rule.applies pgn origin sourceName destinationName then
      let r := rule.fire nowMs
      some (r.1 :: rules, rule.policy, r.2)
    else
      (resolve pgn origin sourceName destinationName nowMs rules).map fun r => (rule :: r.1, r.2)

end FilterRule

/-! ## The unit -/

structure NiuConfig where
  forwardGlobalByDefault : Bool := true
  forwardSpecificByDefault : Bool := true
  filterMode : NiuFilterMode := .blockSpecific
  loopGuardMaxRecentForwards : ℕ := 256
  loopGuardWindowMs : ℕ := 250
  deriving DecidableEq, Repr

/-- Base NIU: filter and rate-limit forwarder, no address translation. -/
structure Niu where
  config : NiuConfig
  filters : List FilterRule := []
  observedNames : List ((Side × Address) × Name) := []
  recentForwards : List RecentForward := []
  state : NiuState := .inactive
  forwardedCount : ℕ := 0
  blockedCount : ℕ := 0
  rateLimitedCount : ℕ := 0
  onForwarded : List (Frame × Side) := []
  onBlocked : List (Frame × Side) := []
  onMonitored : List (Frame × Side) := []
  deriving DecidableEq, Repr

namespace Niu

def new (config : NiuConfig) : Niu := { config := config }

variable (n : Niu)

def start : Niu := { n with state := .active }

def observedName (side : Side) (address : Address) : Option Name :=
  n.observedNames.lookup (side, address)

variable (frame : Frame) (origin : Side)

/-- Learns the NAME behind an address from its claim. -/
def observeAddressClaim : Niu :=
  if frame.pgn ≠ pgnAddressClaimed ∨ frame.source = nullAddress then n
  else
    match Name.fromBytes frame.payload with
    | none => n
    | some name =>
      let key := (origin, frame.source)
      { n with observedNames := (key, name) :: n.observedNames.filter fun e => e.1 != key }

variable (nowMs : ℕ)

/-- Forgets what left the loop guard's window. -/
def retainRecent : List RecentForward :=
  n.recentForwards.filter fun e =>
    decide (wrappingSub32 nowMs e.forwardedAtMs ≤ n.config.loopGuardWindowMs)

/-- The frame comes back from the side it was forwarded to. -/
def isLoopEcho : Niu × Bool :=
  if n.config.loopGuardWindowMs = 0 ∨ n.config.loopGuardMaxRecentForwards = 0 then (n, false)
  else
    let n := { n with recentForwards := n.retainRecent nowMs }
    (n, n.recentForwards.any fun e =>
      e.targetSide == origin && e.signature == FrameSignature.fromFrame frame)

/-- Remembers a forwarded frame, the oldest one making room for it. -/
def rememberForwardedFrame (targetSide : Side) (nowMs : ℕ) : Niu :=
  let capacity := n.config.loopGuardMaxRecentForwards
  if n.config.loopGuardWindowMs = 0 ∨ capacity = 0 then n
  else
    let recent := n.retainRecent nowMs
    let signature := FrameSignature.fromFrame frame
    match recent.findIdx? (fun e => e.targetSide == targetSide && e.signature == signature) with
    | some idx =>
      { n with recentForwards := recent.modify idx fun e => { e with forwardedAtMs := nowMs } }
    | none =>
      { n with
        recentForwards :=
          recent.drop (recent.length + 1 - capacity) ++ [⟨targetSide, signature, nowMs⟩] }

/-- The decision on a frame, and whether a rate limit refuses it. -/
def resolvePolicy : Niu × ForwardPolicy × Bool :=
  let sourceName := n.observedName origin frame.source
  let destinationName :=
    if frame.isBroadcast then none else n.observedName origin frame.destination
  match FilterRule.resolve frame.pgn origin sourceName destinationName nowMs n.filters with
  | some (filters, policy, rateLimited) => ({ n with filters := filters }, policy, rateLimited)
  | none =>
    match n.config.filterMode with
    | .passSpecific => (n, .block, false)
    | .blockSpecific =>
      let allow := if frame.isBroadcast then n.config.forwardGlobalByDefault
        else n.config.forwardSpecificByDefault
      (n, if allow then .allow else .block, false)

/-- Counts and reports a frame that is not forwarded. -/
def noteBlocked : Niu :=
  { n with
    blockedCount := satAdd32 n.blockedCount 1
    onBlocked := n.onBlocked ++ [(frame, origin)] }

/-- Counts and reports a frame that is forwarded. -/
def noteForwarded : Niu :=
  { n with
    forwardedCount := satAdd32 n.forwardedCount 1
    onForwarded := n.onForwarded ++ [(frame, origin)] }

/-- No node may send from the broadcast address, and only a claimant from
the null address. -/
def invalidSource : Bool :=
  frame.source == broadcastAddress ||
    (frame.source == nullAddress && frame.pgn != pgnAddressClaimed)

def processFrameInner (rememberOnForward : Bool) : Niu × Option Frame :=
  if n.state ≠ .active then (n, none)
  else if invalidSource frame then (n.noteBlocked frame origin, none)
  else
    let (n, echo) := n.isLoopEcho frame origin nowMs
    if echo then (n.noteBlocked frame origin, none)
    else
      let (n, policy, rateLimited) :=
        (n.observeAddressClaim frame origin).resolvePolicy frame origin nowMs
      if rateLimited then
        ({ n.noteBlocked frame origin with rateLimitedCount := satAdd32 n.rateLimitedCount 1 },
        none)
      else
        let remember (n : Niu) :=
          if rememberOnForward then n.rememberForwardedFrame frame origin.other nowMs else n
        match policy with
        | .allow => (remember (n.noteForwarded frame origin), some frame)
        | .block => (n.noteBlocked frame origin, none)
        | .monitor =>
          let n := n.noteForwarded frame origin
          (remember { n with onMonitored := n.onMonitored ++ [(frame, origin)] }, some frame)

def processFrame : Niu × Option Frame :=
  n.processFrameInner frame origin nowMs true

end Niu

/-! ## The translation database -/

/-- The two addresses of one control function. -/
structure AddressTranslation where
  name : Name
  tractorAddress : Address
  implementAddress : Address
  active : Bool := true
  deriving DecidableEq, Repr

namespace AddressTranslation

instance : Inhabited AddressTranslation := ⟨⟨Name.fromRaw 0, 0, 0, true⟩⟩

/-- The address the entry assigns on one side. -/
def addressOn (t : AddressTranslation) : Side → Address
  | .tractor => t.tractorAddress
  | .implement => t.implementAddress

/-- The other side's address, if this is the entry's address. -/
def translate (t : AddressTranslation) (addr : Address) : Side → Option Address
  | .tractor => if addr = t.tractorAddress then some t.implementAddress else none
  | .implement => if addr = t.implementAddress then some t.tractorAddress else none

end AddressTranslation

def validateTranslationAddress (addr : Address) : Except Error Unit :=
  if addr ≤ maxAddress then .ok () else .error (.invalidAddress addr)

def addressConflict (side : String) (addr : Address) (existing requested : Name) : Error :=
  .withMessage .addressConflict
    (side ++ "-side address 0x" ++ hexUpper 2 addr.toNat ++ " already belongs to NAME 0x" ++
      hexUpper 16 existing.raw ++ ", requested by NAME 0x" ++ hexUpper 16 requested.raw)

structure AddressTranslationDb where
  entries : List AddressTranslation := []
  deriving DecidableEq, Repr

namespace AddressTranslationDb

def new : AddressTranslationDb := {}

/-- What keeps another control function from taking the two addresses. -/
def sideConflict (name : Name) (tractorAddr implementAddr : Address) (entry : AddressTranslation) :
    Option Error :=
  if entry.tractorAddress = tractorAddr then
    some (addressConflict "tractor" tractorAddr entry.name name)
  else if entry.implementAddress = implementAddr then
    some (addressConflict "implement" implementAddr entry.name name)
  else none

variable (db : AddressTranslationDb) (name : Name)

def ensureSideAddressesAvailable (tractorAddr implementAddr : Address) : Except Error Unit :=
  match (db.entries.filter fun e => e.active && e.name != name).findSome?
      (sideConflict name tractorAddr implementAddr) with
  | some e => .error e
  | none => .ok ()

/-- The two checks of the addresses and the one against the other entries. -/
def checkAdd (tractorAddr implementAddr : Address) : Except Error Unit := do
  validateTranslationAddress tractorAddr
  validateTranslationAddress implementAddr
  db.ensureSideAddressesAvailable name tractorAddr implementAddr

/-- Adds or replaces the translation for `name`. -/
def add (tractorAddr implementAddr : Address) : AddressTranslationDb × Except Error Unit :=
  match db.checkAdd name tractorAddr implementAddr with
  | .error e => (db, .error e)
  | .ok () =>
    match db.entries.findIdx? (fun t => t.name == name) with
    | some idx =>
      let t := db.entries.getD idx default
      (⟨db.entries.set idx
        { t with
          tractorAddress := tractorAddr
          implementAddress := implementAddr
          active := true }⟩, .ok ())
    | none => (⟨db.entries ++ [⟨name, tractorAddr, implementAddr, true⟩]⟩, .ok ())

def remove : AddressTranslationDb :=
  ⟨db.entries.eraseP fun t => t.name == name⟩

def clear (_ : AddressTranslationDb) : AddressTranslationDb := ⟨[]⟩

def translate (db : AddressTranslationDb) (addr : Address) (fromSide : Side) : Option Address :=
  (db.entries.filter fun t => t.active).findSome? fun t => t.translate addr fromSide

def lookupByAddress (addr : Address) (side : Side) : Option AddressTranslation :=
  db.entries.find? fun t => t.active && t.addressOn side == addr

def lookupByName : Option AddressTranslation :=
  db.entries.find? fun t => t.active && t.name == name

/-- A call that changes the table. -/
inductive Op
  | add (name : Name) (tractorAddr implementAddr : Address)
  | remove (name : Name)
  | clear
  deriving DecidableEq, Repr

/-- The table after a call, failed ones included. -/
def step : Op → AddressTranslationDb
  | .add name tractorAddr implementAddr => (db.add name tractorAddr implementAddr).1
  | .remove name => db.remove name
  | .clear => db.clear

end AddressTranslationDb

/-! ## The router -/

structure Router where
  niu : Niu
  db : AddressTranslationDb := {}
  /-- Whether address claims cross, for a bridge over one shared address
  space. -/
  forwardAddressClaims : Bool := false
  deriving DecidableEq, Repr

namespace Router

def new (config : NiuConfig) : Router := { niu := Niu.new config }

variable (r : Router)

def addTranslation (name : Name) (tractorAddr implementAddr : Address) :
    Router × Except Error Unit :=
  let a := r.db.add name tractorAddr implementAddr
  ({ r with db := a.1 }, a.2)

def removeTranslation (name : Name) : Router := { r with db := r.db.remove name }

variable (frame : Frame) (origin : Side)

/-- The source an address claim crosses with: `none` blocks the claim,
`some none` leaves its source as it is. -/
def translateAddressClaimSource : Option (Option Address) :=
  -- a claimant without an address has nothing to translate
  if frame.source = nullAddress then some none
  else
    match Name.fromBytes frame.payload with
    | none => none
    | some claimedName =>
      match r.db.lookupByAddress frame.source origin with
      | some entry =>
        if entry.name ≠ claimedName then none else some (entry.translate frame.source origin)
      | none =>
        -- a known NAME at another address than its own
        if (r.db.lookupByName claimedName).isSome then none else some none

/-- The source a frame crosses with, `none` if it does not cross. -/
def translateSource : Option (Option Address) :=
  if frame.pgn = pgnAddressClaimed then
    if r.forwardAddressClaims then r.translateAddressClaimSource frame origin else none
  else some (r.db.translate frame.source origin)

/-- The frame behind its new addresses. The identifier is only packed
again if one of them changed. -/
def readdress (newSource newDest : Address) : Frame :=
  if newSource = frame.source ∧ newDest = frame.destination then frame
  else { frame with id := Identifier.encode frame.priority frame.pgn newSource newDest }

/-- A frame from one side, and the frame to send on the other. -/
def processFrame (nowMs : ℕ) : Router × Option Frame :=
  match r.niu.processFrameInner frame origin nowMs false with
  | (niu, none) => ({ r with niu := niu }, none)
  | (niu, some frame) =>
    let blocked : Router := { r with niu := niu.noteBlocked frame origin }
    match r.translateSource frame origin with
    | none => (blocked, none)
    | some translatedSource =>
      let translatedDest :=
        if frame.isBroadcast then none else r.db.translate frame.destination origin
      if frame.isBroadcast = false ∧ translatedDest = none then (blocked, none)
      else
        let newDest := if frame.isBroadcast then frame.destination
          else translatedDest.getD frame.destination
        let out := readdress frame (translatedSource.getD frame.source) newDest
        ({ r with niu := niu.rememberForwardedFrame out origin.other nowMs }, some out)

end Router

def pgnNiuNetworkMsg : ℕ := 0xED00
def pgnAcknowledgment : ℕ := 0xE800

/-! ## Command messages -/

inductive NiuFunction
  | requestFilterDb
  | filterDbResponse
  | addFilterEntry
  | deleteFilterEntry
  | clearFilterEntry
  | createFilterEntry
  | addNameQualifiedEntries
  | requestSourceAddressList
  | sourceAddressListResponse
  | requestSourceAddressNameList
  | sourceAddressNameListResponse
  | requestGeneralParametrics
  | generalParametricsResponse
  | resetGeneralStatistics
  | requestSpecificParametrics
  | specificParametricsResponse
  | resetSpecificStatistics
  | openConnection
  | openConnectionResponse
  | closeConnection
  | closeConnectionResponse
  deriving DecidableEq, Repr

/-- Code 5 is obsolete and the bands between the codes are reserved. -/
def NiuFunction.tryFromU8 (value : UInt8) : Option NiuFunction :=
  match value.toNat with
  | 0 => some .requestFilterDb
  | 1 => some .filterDbResponse
  | 2 => some .addFilterEntry
  | 3 => some .deleteFilterEntry
  | 4 => some .clearFilterEntry
  | 6 => some .createFilterEntry
  | 7 => some .addNameQualifiedEntries
  | 64 => some .requestSourceAddressList
  | 65 => some .sourceAddressListResponse
  | 66 => some .requestSourceAddressNameList
  | 67 => some .sourceAddressNameListResponse
  | 128 => some .requestGeneralParametrics
  | 129 => some .generalParametricsResponse
  | 130 => some .resetGeneralStatistics
  | 131 => some .requestSpecificParametrics
  | 132 => some .specificParametricsResponse
  | 133 => some .resetSpecificStatistics
  | 192 => some .openConnection
  | 193 => some .openConnectionResponse
  | 194 => some .closeConnection
  | 195 => some .closeConnectionResponse
  | _ => none

structure NiuNetworkMsg where
  function : NiuFunction := .requestFilterDb
  portNumber : UInt8 := 0
  filterPgn : ℕ := 0
  filterMode : NiuFilterMode := .blockSpecific
  msgsForwarded : ℕ := 0
  msgsBlocked : ℕ := 0
  deriving DecidableEq, Repr

/-- What a function does not use is padded with `0xFF`. -/
def NiuNetworkMsg.decode (data : List UInt8) : Option NiuNetworkMsg :=
  if data.length ≠ 8 then none
  else
    match NiuFunction.tryFromU8 (data.getD 0 0) with
    | none => none
    | some function =>
      let msg : NiuNetworkMsg := { function := function, portNumber := data.getD 1 0 }
      match function with
      | .addFilterEntry | .deleteFilterEntry =>
        if data.getD 4 0 &&& 0xFC ≠ 0 ∨ (data.drop 5).any (· != 0xFF) then none
        else some { msg with filterPgn := ofLe ((data.drop 2).take 3) }
      | .generalParametricsResponse =>
        if (data.drop 6).any (· != 0xFF) then none
        else
          some { msg with
            msgsForwarded := ofLe ((data.drop 2).take 2)
            msgsBlocked := ofLe ((data.drop 4).take 2) }
      | _ => if (data.drop 2).any (· != 0xFF) then none else some msg

/-- The acknowledgment of a command, for its sender. -/
def niuAcknowledgment (positive : Bool) (request : Message) : Message :=
  .withAddressing pgnAcknowledgment
    ([if positive then 0 else 1, 0xFF, 0xFF, 0xFF, request.source] ++ leBytes pgnNiuNetworkMsg 3)
    request.destination request.source .default

namespace Niu

/-! ## Calls -/

variable (n : Niu)

def stop : Niu := { n with state := .inactive }

def addFilter (rule : FilterRule) : Niu := { n with filters := n.filters ++ [rule] }

/-- Persistent rules stay. -/
def clearFilters : Niu := { n with filters := n.filters.filter (·.persistent) }

def clearObservedNames : Niu := { n with observedNames := [] }

def clearLoopGuard : Niu := { n with recentForwards := [] }

def setFilterMode (mode : NiuFilterMode) : Niu :=
  let pass := mode == .blockSpecific
  { n with
    config :=
      { n.config with
        filterMode := mode
        forwardGlobalByDefault := pass
        forwardSpecificByDefault := pass } }

/-- What a command does, and what the observers of `on_niu_message` are
told; `none` refuses it. -/
def obeyNiuMessage (niuMsg : NiuNetworkMsg) : Option (Niu × NiuNetworkMsg) :=
  match niuMsg.function with
  | .addFilterEntry =>
    -- any PGN at all is not for a peer to choose
    if niuMsg.filterPgn = 0 then none
    else
      let policy := match n.config.filterMode with
        | .blockSpecific => ForwardPolicy.block
        | .passSpecific => ForwardPolicy.allow
      some (n.addFilter ⟨niuMsg.filterPgn, policy, true, none, none, 0, none, false⟩, niuMsg)
  | .deleteFilterEntry =>
    some ({ n with filters := n.filters.eraseP (·.pgn == niuMsg.filterPgn) }, niuMsg)
  | .clearFilterEntry => some (n.clearFilters, niuMsg)
  | .requestGeneralParametrics =>
    some (n,
      { function := .generalParametricsResponse
        portNumber := niuMsg.portNumber
        msgsForwarded := n.forwardedCount
        msgsBlocked := n.blockedCount })
  | _ => some (n, niuMsg)

/-- A command message: the unit after it, what is told to the observers and
the acknowledgment. -/
def handleNiuMessage (msg : Message) : Niu × Option (NiuNetworkMsg × Address) × Option Message :=
  if msg.pgn ≠ pgnNiuNetworkMsg then (n, none, none)
  -- a command has a sender, and is for this unit alone
  else if msg.hasUsableSource = false ∨ msg.destination = nullAddress ∨
      msg.destination = broadcastAddress then (n, none, none)
  else
    match (NiuNetworkMsg.decode msg.data).bind n.obeyNiuMessage with
    | none => (n, none, some (niuAcknowledgment false msg))
    | some (n, told) => (n, some (told, msg.source), some (niuAcknowledgment true msg))

/-- A call other than `process_frame`. -/
inductive Call
  | start
  | stop
  | addFilter (rule : FilterRule)
  | clearFilters
  | clearObservedNames
  | clearLoopGuard
  | setFilterMode (mode : NiuFilterMode)
  | handleNiuMessage (msg : Message)

def call : Call → Niu
  | .start => n.start
  | .stop => n.stop
  | .addFilter rule => n.addFilter rule
  | .clearFilters => n.clearFilters
  | .clearObservedNames => n.clearObservedNames
  | .clearLoopGuard => n.clearLoopGuard
  | .setFilterMode mode => n.setFilterMode mode
  | .handleNiuMessage msg => (n.handleNiuMessage msg).1

inductive Op
  | processFrame (frame : Frame) (origin : Side) (nowMs : ℕ)
  | call (c : Call)

def step : Op → Niu
  | .processFrame frame origin nowMs => (n.processFrame frame origin nowMs).1
  | .call c => n.call c

end Niu

namespace Router

inductive Op
  | processFrame (frame : Frame) (origin : Side) (nowMs : ℕ)
  | addTranslation (name : Name) (tractorAddr implementAddr : Address)
  | removeTranslation (name : Name)
  /-- A call on the unit inside. -/
  | niu (c : Niu.Call)

def step (r : Router) : Op → Router
  | .processFrame frame origin nowMs => (r.processFrame frame origin nowMs).1
  | .addTranslation name tractorAddr implementAddr =>
    (r.addTranslation name tractorAddr implementAddr).1
  | .removeTranslation name => r.removeTranslation name
  | .niu c => { r with niu := r.niu.call c }

end Router

end Machbus
