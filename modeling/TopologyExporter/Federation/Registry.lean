import TopologyExporter.Federation.Hub

/-! # The registry of the hub

What holds of the registered spokes, their liveness series and the published
graphs in every state that interleaved pushes and evictions can reach.
-/

namespace TopologyExporter.Federation

open Go Utf8 Discovery Transition

variable {hub : Setup} {action : Action} {state next : State}

/-! ## What a step leaves alone -/

theorem lookup_insert_eq {Value : Type} (table : Map GoString Value) (name found : GoString)
    (value : Value) :
    (table.insert name value).lookup found =
      if found = name then some value else table.lookup found := by
  split_ifs with hname
  · rw [hname, AList.lookup_insert]
  · exact AList.lookup_insert_ne hname

theorem lookup_erase_eq {Value : Type} (table : Map GoString Value) (name found : GoString) :
    (table.erase name).lookup found = if found = name then none else table.lookup found := by
  split_ifs with hname
  · rw [hname, AList.lookup_erase]
  · exact AList.lookup_erase_ne hname

/-- Nothing that a publication or an eviction changes has changed. -/
structure SameRegistry (state next : State) : Prop where
  spokes : next.spokes = state.spokes
  federationSpokeUp : next.federationSpokeUp = state.federationSpokeUp
  federationSpokeLastPushUnix :
    next.federationSpokeLastPushUnix = state.federationSpokeLastPushUnix
  lastPublishedGen : next.lastPublishedGen = state.lastPublishedGen
  firstLive : next.firstLive = state.firstLive
  topology : next.topology = state.topology
  published : next.published = state.published

theorem SameRegistry.rfl : SameRegistry state state :=
  ⟨Eq.refl _, Eq.refl _, Eq.refl _, Eq.refl _, Eq.refl _, Eq.refl _, Eq.refl _⟩

theorem SameRegistry.setCall (hsame : SameRegistry state next) (id : CallID) (call : Call) :
    SameRegistry state (next.setCall id call) :=
  ⟨hsame.spokes, hsame.federationSpokeUp, hsame.federationSpokeLastPushUnix,
    hsame.lastPublishedGen, hsame.firstLive, hsame.topology, hsame.published⟩

theorem countRefusal_eq (state : State) (response : Response) :
    ∃ counters, countRefusal state response =
      { state with graphUpdatesRejected := counters } := by
  unfold countRefusal
  split
  · exact ⟨_, rfl⟩
  · exact ⟨_, rfl⟩

theorem writeSnapshotAsync_eq (hub : Setup) (publication : Publication) (state : State) :
    ∃ queue drops, writeSnapshotAsync hub publication state =
      { state with snapshotCh := queue, snapshotDrops := drops } := by
  unfold writeSnapshotAsync
  split_ifs
  · exact ⟨_, _, rfl⟩
  · split
    · exact ⟨_, _, rfl⟩
    · exact ⟨_, _, rfl⟩

theorem foldl_deleteSpoke_eq (names : List GoString) (state : State) :
    ∃ spokes up lastPush, names.foldl deleteSpoke state =
      { state with
        spokes := spokes, federationSpokeUp := up, federationSpokeLastPushUnix := lastPush } := by
  induction names generalizing state with
  | nil => exact ⟨_, _, _, rfl⟩
  | cons name rest ih =>
      obtain ⟨spokes, up, lastPush, heq⟩ := ih (deleteSpoke state name)
      exact ⟨spokes, up, lastPush, heq⟩

theorem commit_eq (state : State) (job : Job) (graph : Discovery.Graph) (unmatched : Nat) :
    ∃ spokes up lastPush stale live, commit state job graph unmatched =
      { state with
        spokes := spokes, federationSpokeUp := up, federationSpokeLastPushUnix := lastPush
        graphStale := stale, firstLive := live, lastPublishedGen := job.copy.gen
        hubOOSUnmatched := unmatched, topology := graph
        published := state.published ++ [⟨job.copy, graph⟩] } := by
  unfold commit
  cases job.accepted with
  | none => exact ⟨_, _, _, _, _, rfl⟩
  | some accepted => exact ⟨_, _, _, _, _, rfl⟩

/-- What the step of a call leaves to others. -/
structure SameSurroundings (state next : State) : Prop where
  calls : next.calls = state.calls
  isLeader : next.isLeader = state.isLeader
  leaseEpoch : next.leaseEpoch = state.leaseEpoch

variable {core : State} {id : CallID} {updated : Call} {entry : SpokeEntry} {name : GoString}
  {graph : Discovery.Graph}

/-- The records of the calls, leadership and the epoch are not part of what
happens around a call. -/
theorem CallStep.surroundings (hstep : CallStep hub state id action updated core) :
    SameSurroundings state core := by
  cases hstep with
  | refused hnew hcheck =>
      obtain ⟨counters, heq⟩ := countRefusal_eq state _
      rw [heq]
      exact ⟨rfl, rfl, rfl⟩
  | deleted hcall hphase hrequest hevicted =>
      obtain ⟨spokes, up, lastPush, heq⟩ := foldl_deleteSpoke_eq _ state
      rw [heq]
      exact ⟨rfl, rfl, rfl⟩
  | won hcall hphase hgen hbudget =>
      obtain ⟨spokes, up, lastPush, stale, live, heq⟩ := commit_eq state _ _ _
      rw [heq]
      exact ⟨rfl, rfl, rfl⟩
  | finished hcall hphase =>
      obtain ⟨queue, drops, heq⟩ := writeSnapshotAsync_eq hub _ state
      rw [heq]
      exact ⟨rfl, rfl, rfl⟩
  | _ => exact ⟨rfl, rfl, rfl⟩

/-- The registry changes when a call publishes or deletes, and at no other
time. -/
theorem CallStep.registry_cases (hstep : CallStep hub state id action updated core) :
    SameRegistry state core ∨
      (∃ call job graph unmatched, state.calls.lookup id = some call ∧
        call.phase = .built job graph unmatched ∧ state.lastPublishedGen < job.copy.gen ∧
        overBudget hub.cfg graph = false ∧
        updated = { call with phase := .published ⟨job.copy, graph⟩ } ∧
        core = commit state job graph unmatched) ∨
      ∃ call now evicted, state.calls.lookup id = some call ∧ call.phase = .evicting now ∧
        call.request = none ∧ evicted = silentSpokes hub.cfg now state.spokes ∧
        updated = { call with
          evicted := evicted, phase := if evicted = [] then .returned else .deleted } ∧
        core = (evicted.map Prod.fst).foldl deleteSpoke state := by
  cases hstep with
  | refused hnew hcheck =>
      obtain ⟨counters, heq⟩ := countRefusal_eq state _
      rw [heq]
      exact Or.inl ⟨rfl, rfl, rfl, rfl, rfl, rfl, rfl⟩
  | won hcall hphase hgen hbudget =>
      exact Or.inr (Or.inl ⟨_, _, _, _, hcall, hphase, hgen, hbudget, rfl, rfl⟩)
  | deleted hcall hphase hrequest hevicted =>
      exact Or.inr (Or.inr ⟨_, _, _, hcall, hphase, hrequest, hevicted, rfl, rfl⟩)
  | finished hcall hphase =>
      obtain ⟨queue, drops, heq⟩ := writeSnapshotAsync_eq hub _ state
      rw [heq]
      exact Or.inl ⟨rfl, rfl, rfl, rfl, rfl, rfl, rfl⟩
  | _ => exact Or.inl ⟨rfl, rfl, rfl, rfl, rfl, rfl, rfl⟩

theorem lookup_foldl_deleteSpoke {names : List GoString}
    (hentry : (names.foldl deleteSpoke state).spokes.lookup name = some entry) :
    name ∉ names ∧ state.spokes.lookup name = some entry := by
  induction names generalizing state with
  | nil => exact ⟨List.not_mem_nil, hentry⟩
  | cons first rest ih =>
      obtain ⟨hrest, hlookup⟩ := ih hentry
      simp only [deleteSpoke, lookup_erase_eq] at hlookup
      split_ifs at hlookup with hname
      exact ⟨List.not_mem_cons_of_ne_of_not_mem hname hrest, hlookup⟩

/-- After a publication, an entry is the accepted one or that of another spoke,
as it was. -/
theorem lookup_commit {job : Job} {unmatched : Nat}
    (hentry : (commit state job graph unmatched).spokes.lookup name = some entry) :
    job.accepted = some (name, entry) ∨
      job.accepted.map Prod.fst ≠ some name ∧ state.spokes.lookup name = some entry := by
  unfold commit at hentry
  cases haccepted : job.accepted with
  | none =>
      rw [haccepted] at hentry
      exact Or.inr ⟨nofun, hentry⟩
  | some accepted =>
      rw [haccepted] at hentry
      simp only [commitSpoke, lookup_insert_eq] at hentry
      split_ifs at hentry with hname
      · cases hentry
        rw [hname]
        exact Or.inl rfl
      · exact Or.inr ⟨fun hsome => hname (Option.some.inj hsome).symm, hentry⟩

/-- Where an entry of the registry comes from: it was there, or the step has
committed it. -/
theorem Stepped.entry_cases (hstep : Stepped hub state action next)
    (hentry : next.spokes.lookup name = some entry) :
    state.spokes.lookup name = some entry ∨
      ∃ id call job graph unmatched, state.calls.lookup id = some call ∧
        call.phase = .built job graph unmatched ∧ job.accepted = some (name, entry) ∧
        next.calls.lookup id = some { call with phase := .published ⟨job.copy, graph⟩ } ∧
        next.published = state.published ++ [⟨job.copy, graph⟩] := by
  cases hstep with
  | call hcall =>
      rcases hcall.registry_cases with
        hsame | ⟨call, job, graph, unmatched, hlookup, hphase, -, -, rfl, rfl⟩ |
          ⟨call, now, evicted, -, -, -, -, -, rfl⟩
      · rw [(hsame.setCall _ _).spokes] at hentry
        exact Or.inl hentry
      · change (commit state job graph unmatched).spokes.lookup name = some entry at hentry
        rcases lookup_commit hentry with haccepted | ⟨-, hold⟩
        · exact Or.inr ⟨_, call, job, graph, unmatched, hlookup, hphase, haccepted,
            AList.lookup_insert _, rfl⟩
        · exact Or.inl hold
      · exact Or.inl (lookup_foldl_deleteSpoke hentry).2
  | _ => exact Or.inl hentry

/-- A property of the registry that publications and deletions keep is kept by
every step. -/
theorem Stepped.registry_invariant {property : State → Prop}
    (hsame : ∀ {state next}, SameRegistry state next → property state → property next)
    (hcommit : ∀ {state id call job graph unmatched}, property state →
      state.calls.lookup id = some call → call.phase = .built job graph unmatched →
      state.lastPublishedGen < job.copy.gen → overBudget hub.cfg graph = false →
      property (commit state job graph unmatched))
    (hdelete : ∀ {state} name, property state → property (deleteSpoke state name))
    (hstate : property state) (hstep : Stepped hub state action next) : property next := by
  cases hstep with
  | call hcall =>
      have hrecord : ∀ core id updated, property core → property (State.setCall core id updated) :=
        fun core id updated => hsame (SameRegistry.rfl.setCall id updated)
      apply hrecord
      rcases hcall.registry_cases with
        hquiet | ⟨call, job, graph, unmatched, hlookup, hphase, hgen, hbudget, -, rfl⟩ |
          ⟨call, now, evicted, -, -, -, -, -, rfl⟩
      · exact hsame hquiet hstate
      · exact hcommit hstate hlookup hphase hgen hbudget
      · clear hcall
        induction evicted.map Prod.fst generalizing state with
        | nil => exact hstate
        | cons name rest ih => exact ih (hdelete name hstate)
  | _ => exact @hsame state _ ⟨rfl, rfl, rfl, rfl, rfl, rfl, rfl⟩ hstate

/-! ## Liveness series -/

/-- Every registered spoke, and no other, has a liveness series with the value 1
and a series with the time of its last push. -/
structure SeriesMatch (state : State) : Prop where
  up : ∀ name, state.federationSpokeUp.lookup name = (state.spokes.lookup name).map fun _ => 1
  lastPush : ∀ name, state.federationSpokeLastPushUnix.lookup name =
    (state.spokes.lookup name).map fun entry => entry.lastSeen.unix

theorem SeriesMatch.of_same (hmatch : SeriesMatch state) (hsame : SameRegistry state next) :
    SeriesMatch next := by
  refine ⟨fun name => ?_, fun name => ?_⟩
  · rw [hsame.federationSpokeUp, hsame.spokes]
    exact hmatch.up name
  · rw [hsame.federationSpokeLastPushUnix, hsame.spokes]
    exact hmatch.lastPush name

theorem SeriesMatch.commitSpoke (hmatch : SeriesMatch state) (name : GoString)
    (entry : SpokeEntry) : SeriesMatch (commitSpoke state name entry) := by
  refine ⟨fun found => ?_, fun found => ?_⟩
  · simp only [Federation.commitSpoke, lookup_insert_eq, hmatch.up found]
    split_ifs <;> rfl
  · simp only [Federation.commitSpoke, lookup_insert_eq, hmatch.lastPush found]
    split_ifs <;> rfl

theorem SeriesMatch.commit (hmatch : SeriesMatch state) (job : Job) (graph : Discovery.Graph)
    (unmatched : Nat) : SeriesMatch (commit state job graph unmatched) := by
  unfold Federation.commit
  cases job.accepted with
  | none => exact ⟨hmatch.up, hmatch.lastPush⟩
  | some accepted =>
      have hspoke := hmatch.commitSpoke accepted.1 accepted.2
      exact ⟨hspoke.up, hspoke.lastPush⟩

theorem SeriesMatch.deleteSpoke (hmatch : SeriesMatch state) (name : GoString) :
    SeriesMatch (deleteSpoke state name) := by
  refine ⟨fun found => ?_, fun found => ?_⟩
  · simp only [Federation.deleteSpoke, lookup_erase_eq, hmatch.up found]
    split_ifs <;> rfl
  · simp only [Federation.deleteSpoke, lookup_erase_eq, hmatch.lastPush found]
    split_ifs <;> rfl

theorem SeriesMatch.step (hmatch : SeriesMatch state) (hstep : Stepped hub state action next) :
    SeriesMatch next :=
  hstep.registry_invariant (fun hsame hmatch => hmatch.of_same hsame)
    (fun hmatch _ _ _ _ => hmatch.commit _ _ _) (fun name hmatch => hmatch.deleteSpoke name) hmatch

theorem seriesMatch_of_fresh (hfresh : Fresh state) : SeriesMatch state := by
  refine ⟨fun name => ?_, fun name => ?_⟩
  · rw [hfresh.federationSpokeUp, hfresh.spokes]
    rfl
  · rw [hfresh.federationSpokeLastPushUnix, hfresh.spokes]
    rfl

theorem mem_iff_of_lookup_map {First Second : Type} {first : Map GoString First}
    {second : Map GoString Second} {image : Second → First}
    (hlookup : first.lookup name = (second.lookup name).map image) :
    name ∈ first ↔ name ∈ second := by
  rw [← AList.lookup_isSome, ← AList.lookup_isSome, hlookup, Option.isSome_map]

/-- In every reachable state the two series exist for exactly the registered
spokes, and have the values the registry implies. -/
theorem liveness_series_match_registry (hub : Setup) (state : State)
    (hreachable : Reachable (step hub) Fresh state) :
    (∀ name, name ∈ state.federationSpokeUp ↔ name ∈ state.spokes) ∧
      (∀ name, name ∈ state.federationSpokeLastPushUnix ↔ name ∈ state.spokes) ∧
      (∀ name value, state.federationSpokeUp.lookup name = some value → value = 1) ∧
      ∀ name value, state.federationSpokeLastPushUnix.lookup name = some value →
        ∃ entry, state.spokes.lookup name = some entry ∧ value = entry.lastSeen.unix := by
  have hmatch : SeriesMatch state := hreachable.invariant (fun _ => seriesMatch_of_fresh)
    (fun _ _ _ hinvariant hstep => hinvariant.step (stepped_of_step hstep))
  refine ⟨fun name => mem_iff_of_lookup_map (hmatch.up name),
    fun name => mem_iff_of_lookup_map (hmatch.lastPush name), ?_, ?_⟩
  · intro name value hvalue
    rw [hmatch.up name] at hvalue
    obtain ⟨entry, -, hone⟩ := Option.map_eq_some_iff.mp hvalue
    exact hone.symm
  · intro name value hvalue
    rw [hmatch.lastPush name] at hvalue
    obtain ⟨entry, hentry, hunix⟩ := Option.map_eq_some_iff.mp hvalue
    exact ⟨entry, hentry, hunix.symm⟩

theorem liveness_series_after_push :
    ∃ state, Reachable (step plainHub) Fresh state ∧ str "east" ∈ state.spokes ∧
      (∀ name, name ∈ state.federationSpokeUp ↔ name ∈ state.spokes) := by
  have hrun : ((run (step plainHub)
      (pushSteps 1 (pushRequest (str "east") (str "sw1") 63900000000) 63900000001)
      freshHub).map fun state => decide (str "east" ∈ state.spokes)) = some true := by
    decide
  obtain ⟨state, hstate, hmem⟩ := Option.map_eq_some_iff.mp hrun
  have hreachable : Reachable (step plainHub) Fresh state := ⟨freshHub, _, fresh_freshHub, hstate⟩
  exact ⟨state, hreachable, of_decide_eq_true hmem,
    (liveness_series_match_registry plainHub state hreachable).1⟩

/-! ## Calls in progress -/

/-- The call whose step an action is. -/
def Action.call : Action → Option CallID
  | .receive id _ _ _ => some id
  | .startEviction id _ => some id
  | .advance id _ _ => some id
  | _ => none

theorem CallStep.action_call (hstep : CallStep hub state id action updated core) :
    action.call = some id := by
  cases hstep <;> rfl

/-- The push has published its graph. -/
def Committed (call : Call) : Prop :=
  (∃ publication, call.phase = .published publication) ∨ call.phase = .answered .accepted

theorem finishedPhase_of_push {call : Call} {request : Request}
    (hrequest : call.request = some request) : finishedPhase call = .answered .accepted := by
  rw [finishedPhase, hrequest]

/-- A call keeps its request, and a push that was published stays so. -/
theorem CallStep.persists {call : Call} (hstep : CallStep hub state id action updated core)
    (hcall : state.calls.lookup id = some call) :
    updated.request = call.request ∧
      (call.request ≠ none → Committed call → Committed updated) := by
  have hsome : id ∈ state.calls := AList.lookup_isSome.mp (by rw [hcall]; rfl)
  have hsame : ∀ {found}, state.calls.lookup id = some found → found = call := by
    intro found hfound
    rw [hcall] at hfound
    cases hfound
    rfl
  -- before its graph is published a call is not committed
  have hearly : ∀ {phase}, call.phase = phase → (∀ publication, phase ≠ .published publication) →
      phase ≠ .answered .accepted → ¬ Committed call := by
    intro phase hphase hunpublished hunanswered hcommitted
    rcases hcommitted with ⟨publication, hpublished⟩ | hanswered
    · exact hunpublished publication (hphase.symm.trans hpublished)
    · exact hunanswered (hphase.symm.trans hanswered)
  cases hstep with
  | refused hnew _ => exact absurd hsome hnew
  | admitted hnew _ => exact absurd hsome hnew
  | evictionStarted hnew => exact absurd hsome hnew
  | tooSoon hfound hphase _ _ | prepared hfound hphase _ _ _ | built hfound hphase _
  | stale hfound hphase _ | tooLarge hfound hphase _ _ | deleted hfound hphase _ _
  | copied hfound hphase _ _ =>
      obtain rfl := hsame hfound
      exact ⟨rfl, fun _ hcommitted =>
        absurd hcommitted (hearly hphase (fun _ => Phase.noConfusion) Phase.noConfusion)⟩
  | won hfound hphase _ _ =>
      obtain rfl := hsame hfound
      exact ⟨rfl, fun _ _ => Or.inl ⟨_, rfl⟩⟩
  | finished hfound hphase =>
      obtain rfl := hsame hfound
      refine ⟨rfl, fun hpush _ => Or.inr ?_⟩
      obtain ⟨request, hrequest⟩ := Option.ne_none_iff_exists'.mp hpush
      exact finishedPhase_of_push hrequest

theorem lookup_setCall_of_ne {other : CallID} {call : Call} (hne : other ≠ id) :
    (state.setCall id call).calls.lookup other = state.calls.lookup other :=
  AList.lookup_insert_ne hne

@[simp] theorem lookup_setCall {id : CallID} {call : Call} :
    (state.setCall id call).calls.lookup id = some call :=
  AList.lookup_insert _

/-- The record of a call is the one before the step, or the step is its own. -/
theorem Stepped.lookup_cases {call : Call} (hstep : Stepped hub state action next)
    (hcall : next.calls.lookup id = some call) :
    state.calls.lookup id = some call ∨
      ∃ core, CallStep hub state id action call core ∧ next = core.setCall id call := by
  cases hstep with
  | @call stepped _ updated core hstep =>
      by_cases hid : id = stepped
      · subst hid
        rw [lookup_setCall] at hcall
        cases hcall
        exact Or.inr ⟨core, hstep, rfl⟩
      · rw [lookup_setCall_of_ne hid, hstep.surroundings.calls] at hcall
        exact Or.inl hcall
  | _ => exact Or.inl hcall

theorem Stepped.persists {call : Call} (hstep : Stepped hub state action next)
    (hcall : state.calls.lookup id = some call) :
    ∃ later, next.calls.lookup id = some later ∧ later.request = call.request ∧
      (call.request ≠ none → Committed call → Committed later) := by
  cases hstep with
  | @call stepped _ updated core hstep =>
      by_cases hid : id = stepped
      · subst hid
        exact ⟨updated, lookup_setCall, hstep.persists hcall⟩
      · refine ⟨call, ?_, rfl, fun _ hcommitted => hcommitted⟩
        rw [lookup_setCall_of_ne hid, hstep.surroundings.calls]
        exact hcall
  | _ => exact ⟨call, hcall, rfl, fun _ hcommitted => hcommitted⟩

theorem run_persists {call : Call} {final : State} {actions : List Action}
    (hrun : run (step hub) actions state = some final) (hcall : state.calls.lookup id = some call) :
    ∃ later, final.calls.lookup id = some later ∧ later.request = call.request ∧
      (call.request ≠ none → Committed call → Committed later) := by
  induction actions generalizing state call with
  | nil =>
      cases hrun
      exact ⟨call, hcall, rfl, fun _ hcommitted => hcommitted⟩
  | cons action rest ih =>
      obtain ⟨next, hnext, hrest⟩ := run_cons_eq_some.mp hrun
      obtain ⟨middle, hmiddle, hkept, hstays⟩ := (stepped_of_step hnext).persists hcall
      obtain ⟨later, hlater, hrequest, hends⟩ := ih hrest hmiddle
      rw [hkept] at hrequest hends
      exact ⟨later, hlater, hrequest, fun hpush hcommitted => hends hpush (hstays hpush hcommitted)⟩

/-! ## Rejected pushes -/

/-- Neither the registry nor the snapshot queue has changed. -/
structure Untouched (state next : State) : Prop extends SameRegistry state next where
  snapshotCh : next.snapshotCh = state.snapshotCh

theorem CallStep.untouched_or_committed (hstep : CallStep hub state id action updated core)
    (hpush : updated.request ≠ none) :
    Untouched state (core.setCall id updated) ∨ Committed updated := by
  cases hstep with
  | refused hnew hcheck =>
      obtain ⟨counters, heq⟩ := countRefusal_eq state _
      rw [heq]
      exact Or.inl ⟨⟨rfl, rfl, rfl, rfl, rfl, rfl, rfl⟩, rfl⟩
  | deleted hcall hphase hrequest hevicted => exact absurd hrequest hpush
  | won hcall hphase hgen hbudget => exact Or.inr (Or.inl ⟨_, rfl⟩)
  | finished hcall hphase =>
      obtain ⟨request, hrequest⟩ := Option.ne_none_iff_exists'.mp hpush
      exact Or.inr (Or.inr (finishedPhase_of_push hrequest))
  | _ => exact Or.inl ⟨⟨rfl, rfl, rfl, rfl, rfl, rfl, rfl⟩, rfl⟩

/-- The generations of the published graphs increase, up to the last one. -/
structure Ordered (state : State) : Prop where
  increasing : (state.published.map fun publication => publication.copy.gen).Pairwise (· < ·)
  last : ∀ publication ∈ state.published, publication.copy.gen ≤ state.lastPublishedGen

theorem Ordered.commit (hordered : Ordered state) {job : Job} (graph : Discovery.Graph)
    (unmatched : Nat) (hgen : state.lastPublishedGen < job.copy.gen) :
    Ordered (commit state job graph unmatched) := by
  obtain ⟨spokes, up, lastPush, stale, live, heq⟩ := commit_eq state job graph unmatched
  rw [heq]
  constructor
  · simp only [List.map_append, List.map_singleton]
    apply List.pairwise_append.mpr
    refine ⟨hordered.increasing, List.pairwise_singleton .., ?_⟩
    intro earlier hearlier last hlast
    obtain ⟨publication, hmem, rfl⟩ := List.mem_map.mp hearlier
    rw [List.mem_singleton.mp hlast]
    exact (hordered.last publication hmem).trans_lt hgen
  · intro publication hmem
    rcases List.mem_append.mp hmem with hold | hnew
    · exact ((hordered.last publication hold).trans_lt hgen).le
    · rw [List.mem_singleton.mp hnew]

theorem Ordered.step (hordered : Ordered state) (hstep : Stepped hub state action next) :
    Ordered next := by
  refine hstep.registry_invariant ?_ (fun hordered _ _ hgen _ => hordered.commit _ _ hgen)
    (fun _ hordered => ⟨hordered.increasing, hordered.last⟩) hordered
  intro state next hsame hordered
  constructor
  · rw [hsame.published]
    exact hordered.increasing
  · rw [hsame.published, hsame.lastPublishedGen]
    exact hordered.last

theorem ordered_of_fresh (hfresh : Fresh state) : Ordered state := by
  constructor
  · rw [hfresh.published]
    exact List.Pairwise.nil
  · rw [hfresh.published]
    exact fun publication hmem => absurd hmem List.not_mem_nil

/-- A budget of 0 is none. -/
def WithinBudget (cfg : FederationConfig) (graph : Discovery.Graph) : Prop :=
  (0 < cfg.hub.maxGraphDevices → (graph.devices.length : Int) ≤ cfg.hub.maxGraphDevices) ∧
    (0 < cfg.hub.maxGraphEdges → (graph.edges.length : Int) ≤ cfg.hub.maxGraphEdges)

theorem overBudget_eq_false {cfg : FederationConfig} :
    overBudget cfg graph = false ↔ WithinBudget cfg graph := by
  simp only [overBudget, WithinBudget, Bool.or_eq_false_iff, Bool.and_eq_false_imp,
    decide_eq_true_eq, decide_eq_false_iff_not, not_lt]
  exact And.comm

theorem withinBudget_step
    (hbudget : ∀ publication ∈ state.published, WithinBudget hub.cfg publication.graph)
    (hstep : Stepped hub state action next) :
    ∀ publication ∈ next.published, WithinBudget hub.cfg publication.graph := by
  refine @Stepped.registry_invariant hub action state next
    (fun state => ∀ publication ∈ state.published, WithinBudget hub.cfg publication.graph)
    ?_ ?_ (fun _ hbudget => hbudget) hbudget hstep
  · intro state next hsame hbudget
    rw [hsame.published]
    exact hbudget
  · intro state id call job graph unmatched hbudget _ _ _ hfits publication hmem
    obtain ⟨spokes, up, lastPush, stale, live, heq⟩ := commit_eq state job graph unmatched
    rw [heq] at hmem
    rcases List.mem_append.mp hmem with hold | hnew
    · exact hbudget publication hold
    · rw [List.mem_singleton.mp hnew]
      exact overBudget_eq_false.mp hfits

/-- In every run: the steps of a push that is answered with anything but 204
change nothing, published generations increase, and published graphs are within
the budgets. -/
theorem rejected_pushes_change_nothing (hub : Setup) (start final : State)
    (actions : List Action) (hfresh : Fresh start)
    (hrun : run (step hub) actions start = some final) :
    (∀ id call response, final.calls.lookup id = some call → call.request ≠ none →
        call.phase = .answered response → response.status ≠ 204 →
        ∀ front action back before after, actions = front ++ action :: back →
          run (step hub) front start = some before → step hub action before = some after →
          action.call = some id → Untouched before after) ∧
      (final.published.map fun publication => publication.copy.gen).Pairwise (· < ·) ∧
      ∀ publication ∈ final.published, WithinBudget hub.cfg publication.graph := by
  refine ⟨?_, ?_, ?_⟩
  · intro id call response hcall hpush hphase hstatus front action back before after hsplit hfront
      hstep haction
    -- what the step made of the call is still to be seen at the end of the run
    have hback : run (step hub) back after = some final := by
      rw [hsplit, run_append, hfront, Option.bind_some, run, hstep, Option.bind_some] at hrun
      exact hrun
    cases stepped_of_step hstep with
    | @call stepped _ updated core hcore =>
        have hid : stepped = id := Option.some.inj (hcore.action_call.symm.trans haction)
        subst hid
        obtain ⟨later, hlater, hrequest, hstays⟩ := run_persists hback lookup_setCall
        rw [hcall] at hlater
        cases hlater
        rw [hrequest] at hpush
        rcases hcore.untouched_or_committed hpush with huntouched | hcommitted
        · exact huntouched
        · -- a committed push would have been answered 204
          rcases hstays hpush hcommitted with ⟨publication, hpublished⟩ | haccepted
          · rw [hphase] at hpublished
            cases hpublished
          · rw [hphase] at haccepted
            cases haccepted
            exact absurd rfl hstatus
    | _ => cases haction
  · exact (run_invariant (fun _ _ _ hordered hstep => hordered.step (stepped_of_step hstep))
      (ordered_of_fresh hfresh) hrun).increasing
  · refine run_invariant (fun _ _ _ hbudget hstep =>
      withinBudget_step hbudget (stepped_of_step hstep)) ?_ hrun
    rw [hfresh.published]
    exact fun publication hmem => absurd hmem List.not_mem_nil

/-- The first push copies the registry and is overtaken by a second one, which is
answered before the first comes to publish. -/
def losingRun : List Action :=
  [.receive 1 (pushRequest (str "east") (str "sw1") 63900000000) .insertion
      (atSecond 63900000001)] ++ advances 1 1 ++
    pushSteps 2 (pushRequest (str "west") (str "sw2") 63900000000) 63900000002 ++ advances 1 2

theorem losing_push_changes_nothing :
    ∃ final call, run (step plainHub) losingRun freshHub = some final ∧
      final.calls.lookup 1 = some call ∧
      call.phase = .answered (.rejected .staleGeneration 1 0) ∧
      ∀ front action back before after, losingRun = front ++ action :: back →
        run (step plainHub) front freshHub = some before →
        step plainHub action before = some after → action.call = some 1 →
        Untouched before after := by
  have hrun : ((run (step plainHub) losingRun freshHub).bind fun state =>
      (state.calls.lookup 1).map fun call =>
        decide (call.request ≠ none ∧ call.phase = .answered (.rejected .staleGeneration 1 0))) =
      some true := by
    decide
  obtain ⟨final, hfinal, hcall⟩ := Option.bind_eq_some_iff.mp hrun
  obtain ⟨call, hlookup, hphase⟩ := Option.map_eq_some_iff.mp hcall
  obtain ⟨hpush, hphase⟩ := of_decide_eq_true hphase
  refine ⟨final, call, hfinal, hlookup, hphase, ?_⟩
  exact (rejected_pushes_change_nothing plainHub freshHub final losingRun fresh_freshHub hfinal).1
    1 call _ hlookup hpush hphase (by decide)

end TopologyExporter.Federation
