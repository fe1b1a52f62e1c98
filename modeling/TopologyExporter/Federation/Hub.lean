import TopologyExporter.Federation.Merge
import TopologyExporter.Foundation.Transition

/-! # The hub

Pushes and evictions run concurrently. Each of them is a sequence of steps, and
the steps of different calls interleave freely; what happens under the lock of
the hub is one step. A call copies the registry, builds a graph from its copy
without the lock, and publishes it only if no later copy was published first.

The state also records, for every call, how far it got, and every publication
with the copy it was built from.
-/

namespace TopologyExporter.Federation

open Go Utf8 Discovery

/-! ## Requests -/

inductive DecodeError where
  | bodyTooLarge
  | decompressedTooLarge
  | malformed
deriving DecidableEq

/-- A payload read from the wire, where times have no monotonic reading. -/
structure WirePayload where
  payload : SpokePayload
  cycleAt_mono : payload.cycleAt.mono = none
deriving DecidableEq

structure Request where
  method : GoString
  contentEncoding : GoString
  /-- Whether the body starts with a gzip header. -/
  gzipHeader : Bool
  /-- What decoding the body gives. -/
  body : Except DecodeError WirePayload
  /-- The common names of the client's certificates; `none` without TLS. -/
  peerCertificates : Option (List GoString)
deriving DecidableEq

inductive Response where
  | methodNotAllowed
  | notLeader
  | malformedGzip
  | unsupportedEncoding (encoding : GoString)
  | undecodable (error : DecodeError)
  | exceedsLimits
  | invalidPayload (error : ValidationError)
  | spokeIDRequired
  | spokeIDTooLong
  | spokeIDInvalid
  | certificateMismatch (spokeID certCN : GoString)
  | cycleAtRequired
  | cycleAtInFuture
  | cycleAtStale
  | tooSoon (retrySecs : Int)
  | rejected (reason : RejectReason) (combinedDevices combinedEdges : Nat)
  | accepted
deriving DecidableEq

def statusForRejectReason (reason : RejectReason) : Nat :=
  match reason with
  | .sizeBudgetExceeded => 413
  | .staleGeneration => 409
  | .invalidLabelKey | .invalidLabelValue | .structuralInvalid => 400

def Response.status (response : Response) : Nat :=
  match response with
  | .methodNotAllowed => 405
  | .notLeader => 503
  | .malformedGzip => 400
  | .unsupportedEncoding _ => 415
  | .undecodable .bodyTooLarge => 413
  | .undecodable .decompressedTooLarge => 413
  | .undecodable .malformed => 400
  | .exceedsLimits => 413
  | .invalidPayload _ => 400
  | .spokeIDRequired | .spokeIDTooLong | .spokeIDInvalid => 400
  | .certificateMismatch _ _ => 403
  | .cycleAtRequired | .cycleAtInFuture | .cycleAtStale => 400
  | .tooSoon _ => 429
  | .rejected reason _ _ => statusForRejectReason reason
  | .accepted => 204

def maxDevicesPerPush : Nat := 10000
def maxEdgesPerPush : Nat := 50000

def checkEncoding (request : Request) : Option Response :=
  if request.contentEncoding = [] ∨ request.contentEncoding = str "identity" then none
  else if request.contentEncoding = str "gzip" then
    if request.gzipHeader then none else some .malformedGzip
  else some (.unsupportedEncoding request.contentEncoding)

def spokeIDChar (rune : Nat) : Bool :=
  (0x61 ≤ rune && rune ≤ 0x7A) || (0x41 ≤ rune && rune ≤ 0x5A) || (0x30 ≤ rune && rune ≤ 0x39) ||
    rune == 0x2D || rune == 0x5F || rune == 0x2E

def checkSpokeID (id : GoString) : Option Response :=
  if id = [] then some .spokeIDRequired
  else if 128 < id.length then some .spokeIDTooLong
  else if (runes id).all spokeIDChar then none
  else some .spokeIDInvalid

/-- The name on the first certificate has to be the spoke's. Without TLS there
is nothing to check. -/
def checkCertificate (request : Request) (id : GoString) : Option Response :=
  match request.peerCertificates with
  | some (certCN :: _) => if certCN ≠ id then some (.certificateMismatch id certCN) else none
  | _ => none

def checkCycleAt (cfg : FederationConfig) (now cycleAt : Time) : Option Response :=
  if cycleAt.isZero then some .cycleAtRequired
  else if cycleAt.after (now.add (5 * Time.minute)) then some .cycleAtInFuture
  else if cfg.spokeTimeout < now.sub cycleAt then some .cycleAtStale
  else none

def checkSize (payload : SpokePayload) : Option Response :=
  if maxDevicesPerPush < payload.devices.length ∨ maxEdgesPerPush < payload.edges.length then
    some .exceedsLimits
  else none

def checkPayload (cfg : FederationConfig) (order : RangeOrder) (now : Time) (request : Request)
    (payload : SpokePayload) : Option Response :=
  (checkSize payload).or <| ((validateSpokePayload order payload).map .invalidPayload).or <|
    (checkSpokeID payload.spokeID).or <| (checkCertificate request payload.spokeID).or <|
      checkCycleAt cfg now payload.cycleAt

/-- Everything a push has to pass before it takes the lock. -/
def checkPush (cfg : FederationConfig) (isLeader : Bool) (order : RangeOrder) (now : Time)
    (request : Request) : Except Response SpokePayload :=
  if request.method ≠ str "POST" then .error .methodNotAllowed
  else if isLeader = false then .error .notLeader
  else
    match checkEncoding request, request.body with
    | some response, _ => .error response
    | none, .error error => .error (.undecodable error)
    | none, .ok wire =>
        match checkPayload cfg order now request wire.payload with
        | some response => .error response
        | none => .ok wire.payload

/-! ## State -/

/-- A copy of the registry and the generation it was taken under. -/
structure Copy where
  gen : Nat
  spokes : Spokes
deriving DecidableEq

/-- A graph to be published. A push brings the entry to be stored with it, an
eviction brings none. -/
structure Job where
  copy : Copy
  accepted : Option (GoString × SpokeEntry)
deriving DecidableEq

structure Publication where
  copy : Copy
  graph : Discovery.Graph
deriving DecidableEq

inductive Phase where
  | admitted (payload : SpokePayload) (now : Time)
  | evicting (now : Time)
  | deleted
  | prepared (job : Job)
  | built (job : Job) (graph : Discovery.Graph) (unmatched : Nat)
  | published (publication : Publication)
  | answered (response : Response)
  | returned
deriving DecidableEq

/-- A push carries its request; an eviction has none, and carries the entries it
has deleted. -/
structure Call where
  request : Option Request
  evicted : List (GoString × SpokeEntry)
  phase : Phase
deriving DecidableEq

structure State where
  spokes : Spokes
  federationSpokeUp : Map GoString Int
  federationSpokeLastPushUnix : Map GoString Int
  graphStale : Int
  hubOOSUnmatched : Nat
  graphUpdatesRejected : Map RejectReason Nat
  topology : Discovery.Graph
  firstLive : Bool
  isLeader : Bool
  leaseEpoch : Nat
  publishGen : Nat
  lastPublishedGen : Nat
  snapshotCh : Option Publication
  /-- The snapshot that is being written. -/
  writing : Option Publication
  snapshotDrops : Nat
  calls : Map CallID Call
  published : List Publication
deriving DecidableEq

/-- The settings of a hub. -/
structure Setup where
  cfg : FederationConfig
  snapshotPath : GoString

namespace State

def setCall (state : State) (id : CallID) (call : Call) : State :=
  { state with calls := state.calls.insert id call }

def countRejection (state : State) (reason : RejectReason) : State :=
  { state with
    graphUpdatesRejected := state.graphUpdatesRejected.insert reason
      ((state.graphUpdatesRejected.lookup reason).getD 0 + 1) }

def isReady (state : State) : Bool := state.firstLive && state.isLeader

end State

/-! ## Steps

A step of a call gives the new record of the call and the new state of the hub
around it. -/

/-- A payload that fails validation is counted under its reason. -/
def countRefusal (state : State) (response : Response) : State :=
  match response with
  | .invalidPayload error => state.countRejection error.reason
  | _ => state

def receive (hub : Setup) (request : Request) (order : RangeOrder) (now : Time)
    (state : State) : Call × State :=
  match checkPush hub.cfg state.isLeader order now request with
  | .error response => (⟨some request, [], .answered response⟩, countRefusal state response)
  | .ok payload => (⟨some request, [], .admitted payload now⟩, state)

/-- The seconds to wait, when the spoke was accepted too recently. -/
def retrySecs (cfg : FederationConfig) (spokes : Spokes) (spokeID : GoString) (now : Time) :
    Option Int :=
  match spokes.lookup spokeID with
  | none => none
  | some previous =>
      let sinceLast := now.sub previous.lastSeen
      if 0 < cfg.hub.minPushInterval ∧ sinceLast < cfg.hub.minPushInterval then
        some (max 1 (((cfg.hub.minPushInterval - sinceLast).bmod (2 ^ 64)).tdiv Time.second))
      else none

/-- The registry as it would be with the new entry, under a new generation. -/
def takeCopy (state : State) (accepted : Option (GoString × SpokeEntry)) : Job :=
  ⟨⟨state.publishGen + 1, match accepted with
    | some (spokeID, entry) => state.spokes.insert spokeID entry
    | none => state.spokes⟩, accepted⟩

/-- Under the lock: the rate check, then the copy with the new entry. -/
def prepare (hub : Setup) (id : CallID) (call : Call) (payload : SpokePayload) (now : Time)
    (state : State) : Call × State :=
  match retrySecs hub.cfg state.spokes payload.spokeID now with
  | some seconds => ({ call with phase := .answered (.tooSoon seconds) }, state)
  | none =>
      let job := takeCopy state (some (payload.spokeID, ⟨payload, now, id⟩))
      ({ call with phase := .prepared job }, { state with publishGen := job.copy.gen })

def build (hub : Setup) (order : RangeOrder) (clock : Nat → Time) (call : Call) (job : Job)
    (state : State) : Call × State :=
  let (graph, unmatched) := buildCombinedGraph hub.cfg order clock job.copy.spokes
  ({ call with phase := .built job graph unmatched }, state)

def overBudget (cfg : FederationConfig) (graph : Discovery.Graph) : Bool :=
  (0 < cfg.hub.maxGraphEdges && cfg.hub.maxGraphEdges < graph.edges.length) ||
    (0 < cfg.hub.maxGraphDevices && cfg.hub.maxGraphDevices < graph.devices.length)

/-- The registration of a spoke and its liveness, committed with the graph. -/
def commitSpoke (state : State) (spokeID : GoString) (entry : SpokeEntry) : State :=
  { state with
    spokes := state.spokes.insert spokeID entry
    federationSpokeUp := state.federationSpokeUp.insert spokeID 1
    federationSpokeLastPushUnix :=
      state.federationSpokeLastPushUnix.insert spokeID entry.lastSeen.unix
    graphStale := if state.firstLive then state.graphStale else 0
    firstLive := true }

def commit (state : State) (job : Job) (graph : Discovery.Graph) (unmatched : Nat) : State :=
  let registered := match job.accepted with
    | some (spokeID, entry) => commitSpoke state spokeID entry
    | none => state
  { registered with
    lastPublishedGen := job.copy.gen
    hubOOSUnmatched := unmatched
    topology := graph
    published := state.published ++ [⟨job.copy, graph⟩] }

/-- Under the lock: a graph is published when it is newer than the last one and
within the budget. The reason is given when it is not. -/
def publishIfWinner (cfg : FederationConfig) (job : Job) (graph : Discovery.Graph)
    (unmatched : Nat) (state : State) : Option RejectReason × State :=
  if job.copy.gen ≤ state.lastPublishedGen then (some .staleGeneration, state)
  else if overBudget cfg graph then
    (some .sizeBudgetExceeded, state.countRejection .sizeBudgetExceeded)
  else (none, commit state job graph unmatched)

/-- A lost push is answered with the reason, a lost eviction just ends. -/
def publishedPhase (call : Call) (job : Job) (graph : Discovery.Graph)
    (lost : Option RejectReason) : Phase :=
  match lost, call.request with
  | none, _ => .published ⟨job.copy, graph⟩
  | some reason, some _ =>
      .answered (.rejected reason graph.devices.length graph.edges.length)
  | some _, none => .returned

def publish (hub : Setup) (call : Call) (job : Job) (graph : Discovery.Graph) (unmatched : Nat)
    (state : State) : Call × State :=
  let (lost, next) := publishIfWinner hub.cfg job graph unmatched state
  ({ call with phase := publishedPhase call job graph lost }, next)

/-- The snapshot is dropped when the queue is full; there is no queue without a
path. -/
def writeSnapshotAsync (hub : Setup) (publication : Publication) (state : State) : State :=
  if hub.snapshotPath = [] then state
  else
    match state.snapshotCh with
    | none => { state with snapshotCh := some publication }
    | some _ => { state with snapshotDrops := state.snapshotDrops + 1 }

def finishedPhase (call : Call) : Phase :=
  match call.request with
  | some _ => .answered .accepted
  | none => .returned

def finish (hub : Setup) (call : Call) (publication : Publication) (state : State) :
    Call × State :=
  ({ call with phase := finishedPhase call }, writeSnapshotAsync hub publication state)

/-! ### Evictions -/

def silent (cfg : FederationConfig) (now : Time) (entry : SpokeEntry) : Bool :=
  cfg.spokeTimeout < now.sub entry.lastSeen

def silentSpokes (cfg : FederationConfig) (now : Time) (spokes : Spokes) :
    List (GoString × SpokeEntry) :=
  (spokes.entries.map (fun entry => (entry.1, entry.2))).filter
    (fun entry => silent cfg now entry.2)

/-- Deletes a spoke and both of its series. -/
def deleteSpoke (state : State) (spokeID : GoString) : State :=
  { state with
    spokes := state.spokes.erase spokeID
    federationSpokeUp := state.federationSpokeUp.erase spokeID
    federationSpokeLastPushUnix := state.federationSpokeLastPushUnix.erase spokeID }

/-- Only a leader evicts. -/
def startEviction (now : Time) (state : State) : Call × State :=
  (⟨none, [], if state.isLeader then .evicting now else .returned⟩, state)

/-- Under the lock: all silent spokes go. The call ends when there are none. -/
def deleteSilent (hub : Setup) (call : Call) (now : Time) (state : State) : Call × State :=
  let evicted := silentSpokes hub.cfg now state.spokes
  ({ call with evicted := evicted, phase := if evicted = [] then .returned else .deleted },
    (evicted.map Prod.fst).foldl deleteSpoke state)

/-- Under the lock again: the copy from which the graph is rebuilt. -/
def prepareEviction (call : Call) (state : State) : Call × State :=
  let job := takeCopy state none
  ({ call with phase := .prepared job }, { state with publishGen := job.copy.gen })

/-! ### The transition function -/

inductive Action where
  | receive (id : CallID) (request : Request) (order : RangeOrder) (now : Time)
  | startEviction (id : CallID) (now : Time)
  | advance (id : CallID) (order : RangeOrder) (clock : Nat → Time)
  | setLeader (leader : Bool)
  | setLeaseEpoch (epoch : Nat)
  | takeSnapshot
  | finishWrite

/-- The next step of a call that has begun. -/
def advance (hub : Setup) (id : CallID) (order : RangeOrder) (clock : Nat → Time) (call : Call)
    (state : State) : Option (Call × State) :=
  match call.phase, call.request with
  | .admitted payload now, some _ => some (prepare hub id call payload now state)
  | .evicting now, none => some (deleteSilent hub call now state)
  | .deleted, none => some (prepareEviction call state)
  | .prepared job, _ => some (build hub order clock call job state)
  | .built job graph unmatched, _ => some (publish hub call job graph unmatched state)
  | .published publication, _ => some (finish hub call publication state)
  | _, _ => none

/-- The writer takes the next snapshot; it is dropped while an earlier one is
still being written. -/
def takeSnapshot (state : State) : Option State :=
  match state.snapshotCh, state.writing with
  | none, _ => none
  | some publication, none => some { state with snapshotCh := none, writing := some publication }
  | some _, some _ =>
      some { state with snapshotCh := none, snapshotDrops := state.snapshotDrops + 1 }

def finishWrite (state : State) : Option State :=
  match state.writing with
  | none => none
  | some _ => some { state with writing := none }

/-- The step of a call that an action stands for. -/
def callStep (hub : Setup) (action : Action) (state : State) : Option (CallID × Call × State) :=
  match action with
  | .receive id request order now =>
      if id ∈ state.calls then none else some (id, receive hub request order now state)
  | .startEviction id now =>
      if id ∈ state.calls then none else some (id, startEviction now state)
  | .advance id order clock =>
      match state.calls.lookup id with
      | none => none
      | some call => (advance hub id order clock call state).map (fun result => (id, result))
  | _ => none

def step (hub : Setup) (action : Action) (state : State) : Option State :=
  match action with
  | .setLeader leader => some { state with isLeader := leader }
  | .setLeaseEpoch epoch => some { state with leaseEpoch := epoch }
  | .takeSnapshot => takeSnapshot state
  | .finishWrite => finishWrite state
  | _ => (callStep hub action state).map (fun (id, call, next) => next.setCall id call)

/-- A hub as it is constructed. It may have restored a graph from a snapshot,
which it then serves as stale. -/
structure Fresh (state : State) : Prop where
  spokes : state.spokes = ∅
  federationSpokeUp : state.federationSpokeUp = ∅
  federationSpokeLastPushUnix : state.federationSpokeLastPushUnix = ∅
  firstLive : state.firstLive = false
  publishGen : state.publishGen = 0
  lastPublishedGen : state.lastPublishedGen = 0
  snapshotCh : state.snapshotCh = none
  writing : state.writing = none
  calls : state.calls = ∅
  published : state.published = []

/-! ## What a step can do -/

section

variable (hub : Setup) (state : State)

/-- The cases of a step of a call, each with what it depends on: the new record
of the call, and the state around it. -/
inductive CallStep (id : CallID) : Action → Call → State → Prop
  | refused {request : Request} {order : RangeOrder} {now : Time} {response : Response}
      (hnew : id ∉ state.calls)
      (hcheck : checkPush hub.cfg state.isLeader order now request = .error response) :
      CallStep id (.receive id request order now) ⟨some request, [], .answered response⟩
        (countRefusal state response)
  | admitted {request : Request} {order : RangeOrder} {now : Time} {payload : SpokePayload}
      (hnew : id ∉ state.calls)
      (hcheck : checkPush hub.cfg state.isLeader order now request = .ok payload) :
      CallStep id (.receive id request order now) ⟨some request, [], .admitted payload now⟩ state
  | evictionStarted {now : Time} (hnew : id ∉ state.calls) :
      CallStep id (.startEviction id now)
        ⟨none, [], if state.isLeader then .evicting now else .returned⟩ state
  | tooSoon {order : RangeOrder} {clock : Nat → Time} {call : Call} {request : Request}
      {payload : SpokePayload} {now : Time} {seconds : Int}
      (hcall : state.calls.lookup id = some call) (hphase : call.phase = .admitted payload now)
      (hrequest : call.request = some request)
      (hretry : retrySecs hub.cfg state.spokes payload.spokeID now = some seconds) :
      CallStep id (.advance id order clock) { call with phase := .answered (.tooSoon seconds) }
        state
  | prepared {order : RangeOrder} {clock : Nat → Time} {call : Call} {request : Request}
      {payload : SpokePayload} {now : Time} {job : Job}
      (hcall : state.calls.lookup id = some call) (hphase : call.phase = .admitted payload now)
      (hrequest : call.request = some request)
      (hretry : retrySecs hub.cfg state.spokes payload.spokeID now = none)
      (hjob : job = takeCopy state (some (payload.spokeID, ⟨payload, now, id⟩))) :
      CallStep id (.advance id order clock) { call with phase := .prepared job }
        { state with publishGen := job.copy.gen }
  | deleted {order : RangeOrder} {clock : Nat → Time} {call : Call} {now : Time}
      {evicted : List (GoString × SpokeEntry)}
      (hcall : state.calls.lookup id = some call) (hphase : call.phase = .evicting now)
      (hrequest : call.request = none)
      (hevicted : evicted = silentSpokes hub.cfg now state.spokes) :
      CallStep id (.advance id order clock)
        { call with evicted := evicted, phase := if evicted = [] then .returned else .deleted }
        ((evicted.map Prod.fst).foldl deleteSpoke state)
  | copied {order : RangeOrder} {clock : Nat → Time} {call : Call} {job : Job}
      (hcall : state.calls.lookup id = some call) (hphase : call.phase = .deleted)
      (hrequest : call.request = none) (hjob : job = takeCopy state none) :
      CallStep id (.advance id order clock) { call with phase := .prepared job }
        { state with publishGen := job.copy.gen }
  | built {order : RangeOrder} {clock : Nat → Time} {call : Call} {job : Job}
      {graph : Discovery.Graph} {unmatched : Nat}
      (hcall : state.calls.lookup id = some call) (hphase : call.phase = .prepared job)
      (hgraph : buildCombinedGraph hub.cfg order clock job.copy.spokes = (graph, unmatched)) :
      CallStep id (.advance id order clock) { call with phase := .built job graph unmatched } state
  | won {order : RangeOrder} {clock : Nat → Time} {call : Call} {job : Job}
      {graph : Discovery.Graph} {unmatched : Nat}
      (hcall : state.calls.lookup id = some call)
      (hphase : call.phase = .built job graph unmatched)
      (hgen : state.lastPublishedGen < job.copy.gen) (hbudget : overBudget hub.cfg graph = false) :
      CallStep id (.advance id order clock)
        { call with phase := .published ⟨job.copy, graph⟩ } (commit state job graph unmatched)
  | stale {order : RangeOrder} {clock : Nat → Time} {call : Call} {job : Job}
      {graph : Discovery.Graph} {unmatched : Nat}
      (hcall : state.calls.lookup id = some call)
      (hphase : call.phase = .built job graph unmatched)
      (hgen : job.copy.gen ≤ state.lastPublishedGen) :
      CallStep id (.advance id order clock)
        { call with phase := publishedPhase call job graph (some .staleGeneration) } state
  | tooLarge {order : RangeOrder} {clock : Nat → Time} {call : Call} {job : Job}
      {graph : Discovery.Graph} {unmatched : Nat}
      (hcall : state.calls.lookup id = some call)
      (hphase : call.phase = .built job graph unmatched)
      (hgen : state.lastPublishedGen < job.copy.gen) (hbudget : overBudget hub.cfg graph = true) :
      CallStep id (.advance id order clock)
        { call with phase := publishedPhase call job graph (some .sizeBudgetExceeded) }
        (state.countRejection .sizeBudgetExceeded)
  | finished {order : RangeOrder} {clock : Nat → Time} {call : Call} {publication : Publication}
      (hcall : state.calls.lookup id = some call)
      (hphase : call.phase = .published publication) :
      CallStep id (.advance id order clock) { call with phase := finishedPhase call }
        (writeSnapshotAsync hub publication state)

/-- A step is a step of one call, or of the hub's surroundings. -/
inductive Stepped : Action → State → Prop
  | call {id : CallID} {action : Action} {updated : Call} {core : State}
      (hstep : CallStep hub state id action updated core) :
      Stepped action (core.setCall id updated)
  | leaderSet {leader : Bool} : Stepped (.setLeader leader) { state with isLeader := leader }
  | leaseEpochSet {epoch : Nat} :
      Stepped (.setLeaseEpoch epoch) { state with leaseEpoch := epoch }
  | snapshotTaken {publication : Publication} (hqueued : state.snapshotCh = some publication)
      (hidle : state.writing = none) :
      Stepped .takeSnapshot { state with snapshotCh := none, writing := some publication }
  | snapshotDropped {publication earlier : Publication}
      (hqueued : state.snapshotCh = some publication) (hbusy : state.writing = some earlier) :
      Stepped .takeSnapshot
        { state with snapshotCh := none, snapshotDrops := state.snapshotDrops + 1 }
  | written {publication : Publication} (hbusy : state.writing = some publication) :
      Stepped .finishWrite { state with writing := none }

end

variable {hub : Setup} {state next : State} {id : CallID} {call : Call} {action : Action}
  {clock : Nat → Time} {order : RangeOrder} {core : State} {updated : Call}

theorem callStep_publish {job : Job} {graph : Discovery.Graph} {unmatched : Nat}
    (hcall : state.calls.lookup id = some call) (hphase : call.phase = .built job graph unmatched) :
    CallStep hub state id (.advance id order clock)
      (publish hub call job graph unmatched state).1
      (publish hub call job graph unmatched state).2 := by
  unfold publish publishIfWinner
  by_cases hgen : job.copy.gen ≤ state.lastPublishedGen
  · rw [if_pos hgen]
    exact .stale hcall hphase hgen
  · rw [if_neg hgen]
    rw [not_le] at hgen
    cases hbudget : overBudget hub.cfg graph with
    | true => exact .tooLarge hcall hphase hgen hbudget
    | false => exact .won hcall hphase hgen hbudget

theorem callStep_of_advance (hcall : state.calls.lookup id = some call)
    (hadvance : advance hub id order clock call state = some (updated, core)) :
    CallStep hub state id (.advance id order clock) updated core := by
  unfold advance at hadvance
  split at hadvance
  · next payload now request hphase hrequest =>
      unfold prepare at hadvance
      cases hretry : retrySecs hub.cfg state.spokes payload.spokeID now with
      | some seconds =>
          rw [hretry] at hadvance
          cases hadvance
          exact .tooSoon hcall hphase hrequest hretry
      | none =>
          rw [hretry] at hadvance
          cases hadvance
          exact .prepared hcall hphase hrequest hretry rfl
  · next now hphase hrequest =>
      cases hadvance
      exact .deleted hcall hphase hrequest rfl
  · next hphase hrequest =>
      cases hadvance
      exact .copied hcall hphase hrequest rfl
  · next job hphase =>
      cases hadvance
      exact .built hcall hphase rfl
  · next job graph unmatched hphase =>
      cases hadvance
      exact callStep_publish hcall hphase
  · next publication hphase =>
      cases hadvance
      exact .finished hcall hphase
  · cases hadvance

theorem callStep_cases (hstep : callStep hub action state = some (id, updated, core)) :
    CallStep hub state id action updated core := by
  unfold callStep at hstep
  split at hstep
  · next found request order now =>
      split_ifs at hstep with hnew
      unfold receive at hstep
      cases hcheck : checkPush hub.cfg state.isLeader order now request with
      | error response =>
          rw [hcheck] at hstep
          cases hstep
          exact .refused hnew hcheck
      | ok payload =>
          rw [hcheck] at hstep
          cases hstep
          exact .admitted hnew hcheck
  · next found now =>
      split_ifs at hstep with hnew
      cases hstep
      exact .evictionStarted hnew
  · next found order clock =>
      split at hstep
      · cases hstep
      · next call hcall =>
          obtain ⟨result, hadvance, heq⟩ := Option.map_eq_some_iff.mp hstep
          cases heq
          exact callStep_of_advance hcall hadvance
  · cases hstep

/-- A step is one of the cases. -/
theorem stepped_of_step (hstep : step hub action state = some next) :
    Stepped hub state action next := by
  unfold step at hstep
  split at hstep
  · cases hstep
    exact .leaderSet
  · cases hstep
    exact .leaseEpochSet
  · unfold takeSnapshot at hstep
    split at hstep
    · cases hstep
    · next hqueued hidle =>
        cases hstep
        exact .snapshotTaken hqueued hidle
    · next hqueued hbusy =>
        cases hstep
        exact .snapshotDropped hqueued hbusy
  · unfold finishWrite at hstep
    split at hstep
    · cases hstep
    · next hbusy =>
        cases hstep
        exact .written hbusy
  · obtain ⟨⟨id, updated, core⟩, hcall, rfl⟩ := Option.map_eq_some_iff.mp hstep
    exact .call (callStep_cases hcall)

/-! ## Runs of small hubs -/

def plainHub : Setup := ⟨plainConfig, str "snapshot.json"⟩

def freshHub : State where
  spokes := ∅
  federationSpokeUp := ∅
  federationSpokeLastPushUnix := ∅
  graphStale := 1
  hubOOSUnmatched := 0
  graphUpdatesRejected := ∅
  topology := ⟨[], [], []⟩
  firstLive := false
  isLeader := true
  leaseEpoch := 0
  publishGen := 0
  lastPublishedGen := 0
  snapshotCh := none
  writing := none
  snapshotDrops := 0
  calls := ∅
  published := []

theorem fresh_freshHub : Fresh freshHub :=
  ⟨rfl, rfl, rfl, rfl, rfl, rfl, rfl, rfl, rfl, rfl⟩

/-- A time by its seconds. -/
def atSecond (seconds : Int) : Time := ⟨seconds * Time.second, none⟩

/-- The request of a spoke that lists one device, over mutual TLS. -/
def pushRequest (name device : GoString) (seconds : Int) : Request where
  method := str "POST"
  contentEncoding := []
  gzipHeader := false
  body := .ok ⟨⟨name, atSecond seconds, [plainDevice device], [], []⟩, rfl⟩
  peerCertificates := some [name]

/-- Some steps of a call that has begun. -/
def advances (id : CallID) (count : Nat) : List Action :=
  List.replicate count (.advance id .insertion (fun _ => Time.zero))

/-- A push from its arrival to its answer: the checks, the copy of the registry,
the graph, the publication and the response. -/
def pushSteps (id : CallID) (request : Request) (seconds : Int) : List Action :=
  .receive id request .insertion (atSecond seconds) :: advances id 4

end TopologyExporter.Federation
