import TopologyExporter.Federation.Provenance

/-! # Generations

A graph is built from a copy of the registry that may be out of date by the time
the graph is published. The generation of the copy decides: a graph is published
only over those of older copies. That is enough to keep deleted entries out of
the published graph. It is not enough to keep accepted entries in it, because an
entry is registered after the copies that it should have been part of were taken.
-/

namespace TopologyExporter.Federation

open Go Utf8 Discovery Transition

variable {hub : Setup} {action : Action} {state next : State}

/-! ## Copies and the graphs built from them -/

variable {call : Call} {graph : Discovery.Graph} {job : Job} {core : State} {id : CallID}
  {cfg : FederationConfig} {entry : SpokeEntry} {name : GoString}

theorem job_publishedPhase {reason : RejectReason} :
    Call.job { call with phase := publishedPhase call job graph (some reason) } = none := by
  unfold publishedPhase
  cases call.request with
  | none => rfl
  | some request => rfl

theorem job_finishedPhase : Call.job { call with phase := finishedPhase call } = none := by
  unfold finishedPhase
  cases call.request with
  | none => rfl
  | some request => rfl

variable {updated : Call}

/-- A call keeps its job, or takes it up from the registry as it is now. -/
theorem CallStep.job_cases (hstep : CallStep hub state id action updated core)
    (hjob : updated.job = some job) :
    (∃ call, state.calls.lookup id = some call ∧ call.job = some job) ∨
      ∃ accepted, job = takeCopy state accepted ∧ core = { state with publishGen := job.copy.gen } ∧
        ∀ name entry, accepted = some (name, entry) → entry.call = id ∧
          retrySecs hub.cfg state.spokes name entry.lastSeen = none ∧
          ∃ call, state.calls.lookup id = some call ∧ ¬ Committed call := by
  cases hstep with
  | refused hnew hcheck => cases hjob
  | admitted hnew hcheck => cases hjob
  | evictionStarted hnew => split_ifs at hjob <;> cases hjob
  | tooSoon hcall hphase hrequest hretry => cases hjob
  | prepared hcall hphase hrequest hretry htaken =>
      cases hjob
      -- the copy of a push has its own entry in it, which the registry has not yet
      refine Or.inr ⟨_, htaken, rfl, ?_⟩
      intro name entry hsome
      cases hsome
      refine ⟨rfl, hretry, _, hcall, ?_⟩
      rintro (⟨publication, hpublished⟩ | hanswered)
      · rw [hphase] at hpublished
        cases hpublished
      · rw [hphase] at hanswered
        cases hanswered
  | deleted hcall hphase hrequest hevicted => split_ifs at hjob <;> cases hjob
  | copied hcall hphase hrequest htaken =>
      cases hjob
      exact Or.inr ⟨none, htaken, rfl, nofun⟩
  | built hcall hphase hgraph =>
      cases hjob
      refine Or.inl ⟨_, hcall, ?_⟩
      rw [Call.job, hphase]
  | won hcall hphase hgen hbudget => cases hjob
  | stale hcall hphase hgen =>
      rw [job_publishedPhase] at hjob
      cases hjob
  | tooLarge hcall hphase hgen hbudget =>
      rw [job_publishedPhase] at hjob
      cases hjob
  | finished hcall hphase =>
      rw [job_finishedPhase] at hjob
      cases hjob

/-- The graph was built from the copy. -/
def BuiltFrom (cfg : FederationConfig) (copy : Copy) (graph : Discovery.Graph) : Prop :=
  ∃ order clock unmatched, buildCombinedGraph cfg order clock copy.spokes = (graph, unmatched)

theorem CallStep.builtFrom {unmatched : Nat} (hstep : CallStep hub state id action updated core)
    (hbuilt : updated.phase = .built job graph unmatched) : BuiltFrom hub.cfg job.copy graph := by
  cases hstep with
  | evictionStarted hnew => split_ifs at hbuilt
  | deleted hcall hphase hrequest hevicted => split_ifs at hbuilt
  | built hcall hphase hgraph =>
      cases hbuilt
      exact ⟨_, _, _, hgraph⟩
  | @stale _ _ call _ _ _ hcall hphase hgen =>
      unfold publishedPhase at hbuilt
      split at hbuilt <;> cases hbuilt
  | @tooLarge _ _ call _ _ _ hcall hphase hgen hbudget =>
      unfold publishedPhase at hbuilt
      split at hbuilt <;> cases hbuilt
  | @finished _ _ call _ hcall hphase =>
      unfold finishedPhase at hbuilt
      split at hbuilt <;> cases hbuilt
  | _ => cases hbuilt

/-- A step publishes the graph of one call, or none. -/
theorem Stepped.published_cases (hstep : Stepped hub state action next) :
    (next.published = state.published ∧ next.topology = state.topology ∧
      next.lastPublishedGen = state.lastPublishedGen) ∨
      ∃ id call job graph unmatched, state.calls.lookup id = some call ∧
        call.phase = .built job graph unmatched ∧ state.lastPublishedGen < job.copy.gen ∧
        next.published = state.published ++ [⟨job.copy, graph⟩] ∧ next.topology = graph ∧
        next.lastPublishedGen = job.copy.gen := by
  cases hstep with
  | call hcall =>
      rcases hcall.registry_cases with
        hsame | ⟨call, job, graph, unmatched, hlookup, hphase, hgen, -, -, rfl⟩ |
          ⟨call, now, evicted, -, -, -, -, -, rfl⟩
      · exact Or.inl ⟨hsame.published, hsame.topology, hsame.lastPublishedGen⟩
      · obtain ⟨spokes, up, lastPush, stale, live, heq⟩ := commit_eq state job graph unmatched
        rw [heq]
        exact Or.inr ⟨_, call, job, graph, unmatched, hlookup, hphase, hgen, rfl, rfl, rfl⟩
      · obtain ⟨spokes, up, lastPush, heq⟩ := foldl_deleteSpoke_eq (evicted.map Prod.fst) state
        rw [heq]
        exact Or.inl ⟨rfl, rfl, rfl⟩
  | _ => exact Or.inl ⟨rfl, rfl, rfl⟩

/-- Jobs hold their own entry, and every graph comes from the copy kept with it. -/
structure Copies (cfg : FederationConfig) (state : State) : Prop where
  own : ∀ id call job name entry, state.calls.lookup id = some call → call.job = some job →
    job.accepted = some (name, entry) → job.copy.spokes.lookup name = some entry
  built : ∀ id call job graph unmatched, state.calls.lookup id = some call →
    call.phase = .built job graph unmatched → BuiltFrom cfg job.copy graph
  last : ∀ publication, state.published.getLast? = some publication →
    BuiltFrom cfg publication.copy publication.graph ∧ state.topology = publication.graph ∧
      state.lastPublishedGen = publication.copy.gen

theorem Copies.step (hcopies : Copies hub.cfg state) (hstep : Stepped hub state action next) :
    Copies hub.cfg next := by
  constructor
  · intro id call job name entry hcall hjob haccepted
    rcases hstep.lookup_cases hcall with hold | ⟨core, hown, -⟩
    · exact hcopies.own id call job name entry hold hjob haccepted
    · rcases hown.job_cases hjob with ⟨earlier, hlookup, hsame⟩ | ⟨accepted, rfl, -, -⟩
      · exact hcopies.own id earlier job name entry hlookup hsame haccepted
      · cases haccepted
        exact AList.lookup_insert _
  · intro id call job graph unmatched hcall hphase
    rcases hstep.lookup_cases hcall with hold | ⟨core, hown, -⟩
    · exact hcopies.built id call job graph unmatched hold hphase
    · exact hown.builtFrom hphase
  · intro publication hlast
    rcases hstep.published_cases with
      ⟨hpublished, htopology, hgen⟩ | ⟨id, call, job, graph, unmatched, hcall, hphase, -,
        hpublished, htopology, hgen⟩
    · rw [hpublished] at hlast
      rw [htopology, hgen]
      exact hcopies.last publication hlast
    · rw [hpublished, List.getLast?_append, List.getLast?_singleton, Option.some_or] at hlast
      cases hlast
      exact ⟨hcopies.built id call job graph unmatched hcall hphase, htopology, hgen⟩

theorem copies_of_fresh (hfresh : Fresh state) : Copies cfg state := by
  constructor
  · intro id call job name entry hcall
    rw [hfresh.calls] at hcall
    cases hcall
  · intro id call job graph unmatched hcall
    rw [hfresh.calls] at hcall
    cases hcall
  · intro publication hlast
    rw [hfresh.published] at hlast
    cases hlast

/-! ## Accepted entries -/

/-- The job whose graph an action publishes. -/
def publishing (hub : Setup) (action : Action) (state : State) : Option Job :=
  match action.call.bind state.calls.lookup with
  | some ⟨_, _, .built job graph _⟩ =>
      if state.lastPublishedGen < job.copy.gen ∧ overBudget hub.cfg graph = false then some job
      else none
  | _ => none

/-- The copy still has the entries of the other spokes. -/
def Job.Current (job : Job) (spokes : Spokes) : Prop :=
  ∀ name ∈ spokes.keys, job.accepted.map Prod.fst ≠ some name →
    job.copy.spokes.lookup name = spokes.lookup name

instance (job : Job) (spokes : Spokes) : Decidable (job.Current spokes) :=
  inferInstanceAs (Decidable (∀ name ∈ spokes.keys, _ → _))

/-- No other spoke was accepted between the copy and the publication of its
graph. -/
def PublishesCurrent (hub : Setup) (action : Action) (state : State) : Prop :=
  ∀ job ∈ publishing hub action state, job.Current state.spokes

instance (hub : Setup) (action : Action) (state : State) :
    Decidable (PublishesCurrent hub action state) :=
  inferInstanceAs (Decidable (∀ job ∈ publishing hub action state, _))

/-- The published graph has all devices of all registered payloads. -/
def DevicesPublished (state : State) : Prop :=
  ∀ name entry, state.spokes.lookup name = some entry → ∀ device ∈ entry.payload.devices,
    device.id ∈ state.topology.devices.map Device.id

theorem publishing_eq_some :
    publishing hub action state = some job ↔
      ∃ id call graph unmatched, action.call = some id ∧ state.calls.lookup id = some call ∧
        call.phase = .built job graph unmatched ∧ state.lastPublishedGen < job.copy.gen ∧
        overBudget hub.cfg graph = false := by
  constructor
  · intro hpublishing
    unfold publishing at hpublishing
    split at hpublishing
    · next request evicted found graph unmatched hlookup =>
        split_ifs at hpublishing with hwins
        cases hpublishing
        obtain ⟨id, hid, hcall⟩ := Option.bind_eq_some_iff.mp hlookup
        exact ⟨id, _, graph, unmatched, hid, hcall, rfl, hwins⟩
    · cases hpublishing
  · intro hwins
    obtain ⟨id, ⟨request, evicted, phase⟩, graph, unmatched, haction, hcall, hphase, hwins⟩ := hwins
    cases hphase
    simp only [publishing, haction, Option.bind_some, hcall, hwins, and_self, if_true]

theorem Job.Current.lookup {spokes : Spokes} (hcurrent : job.Current spokes)
    (hother : job.accepted.map Prod.fst ≠ some name) (hentry : spokes.lookup name = some entry) :
    job.copy.spokes.lookup name = some entry := by
  have hmem : name ∈ spokes := AList.lookup_isSome.mp (by rw [hentry]; rfl)
  rw [hcurrent name (AList.mem_keys.mpr hmem) hother]
  exact hentry

theorem DevicesPublished.step (hpublished : DevicesPublished state) (hcopies : Copies hub.cfg state)
    (hcurrent : PublishesCurrent hub action state) (hstep : Stepped hub state action next) :
    DevicesPublished next := by
  cases hstep with
  | call hcall =>
      rcases hcall.registry_cases with
        hsame | ⟨call, job, graph, unmatched, hlookup, hphase, hgen, hbudget, -, rfl⟩ |
          ⟨call, now, evicted, -, -, -, -, -, rfl⟩
      · intro name entry hentry
        rw [(hsame.setCall _ _).spokes] at hentry
        rw [(hsame.setCall _ _).topology]
        exact hpublished name entry hentry
      · intro name entry hentry device hdevice
        -- the graph that is published has everything in the copy, so the entry has to be in it
        have hcopied : job.copy.spokes.lookup name = some entry := by
          change (commit state job graph unmatched).spokes.lookup name = some entry at hentry
          rcases lookup_commit hentry with haccepted | ⟨hother, hold⟩
          · refine hcopies.own _ call job name entry hlookup ?_ haccepted
            rw [Call.job, hphase]
          · have hjob := publishing_eq_some.mpr
              ⟨_, call, graph, unmatched, hcall.action_call, hlookup, hphase, hgen, hbudget⟩
            exact (hcurrent job hjob).lookup hother hold
        obtain ⟨order, clock, count, hgraph⟩ :=
          hcopies.built _ call job graph unmatched hlookup hphase
        have hmem := device_mem_buildCombinedGraph hub.cfg order clock hcopied hdevice
        rw [hgraph] at hmem
        obtain ⟨spokes, up, lastPush, stale, live, heq⟩ := commit_eq state job graph unmatched
        rw [heq]
        exact hmem
      · intro name entry hentry
        have hold := (lookup_foldl_deleteSpoke hentry).2
        obtain ⟨spokes, up, lastPush, heq⟩ := foldl_deleteSpoke_eq (evicted.map Prod.fst) state
        rw [heq]
        exact hpublished name entry hold
  | _ => exact hpublished

/-- As long as no graph is published from a copy that misses an entry accepted
since, every device of every registered payload is in the published graph, after
every answer and at every other time. -/
theorem registered_devices_published (hub : Setup) (start final : State) (actions : List Action)
    (hfresh : Fresh start)
    (hcurrent : Throughout (step hub) (PublishesCurrent hub) actions start)
    (hrun : run (step hub) actions start = some final) :
    ∀ name entry, final.spokes.lookup name = some entry → ∀ device ∈ entry.payload.devices,
      device.id ∈ final.topology.devices.map Device.id := by
  have hinvariant : Copies hub.cfg final ∧ DevicesPublished final := by
    refine @run_invariant_throughout _ _ (step hub) (PublishesCurrent hub)
      (fun state => Copies hub.cfg state ∧ DevicesPublished state)
      (fun _ _ _ hcurrent hinvariant hstep => ?_) _ _ _ ?_ hcurrent hrun
    · have hcase := stepped_of_step hstep
      exact ⟨hinvariant.1.step hcase, hinvariant.2.step hinvariant.1 hcurrent hcase⟩
    · refine ⟨copies_of_fresh hfresh, ?_⟩
      intro name entry hentry
      rw [hfresh.spokes] at hentry
      cases hentry
  exact hinvariant.2

/-- Two pushes, one after the other. -/
def orderlyRun : List Action :=
  pushSteps 1 (pushRequest (str "east") (str "sw1") 63900000000) 63900000001 ++
    pushSteps 2 (pushRequest (str "west") (str "sw2") 63900000000) 63900000002

theorem orderly_pushes_published :
    ∃ final entry, run (step plainHub) orderlyRun freshHub = some final ∧
      final.spokes.lookup (str "east") = some entry ∧
      ∀ device ∈ entry.payload.devices, device.id ∈ final.topology.devices.map Device.id := by
  have hcurrent : Throughout (step plainHub) (PublishesCurrent plainHub) orderlyRun freshHub := by
    decide
  have hrun : ((run (step plainHub) orderlyRun freshHub).bind fun state =>
      (state.spokes.lookup (str "east")).map fun _ => true) = some true := by
    decide
  obtain ⟨final, hfinal, hentry⟩ := Option.bind_eq_some_iff.mp hrun
  obtain ⟨entry, hlookup, -⟩ := Option.map_eq_some_iff.mp hentry
  exact ⟨final, entry, hfinal, hlookup, registered_devices_published plainHub freshHub final
    orderlyRun fresh_freshHub hcurrent hfinal (str "east") entry hlookup⟩

/-- Two pushes copy the registry before either of them is published. -/
def racingRun : List Action :=
  [.receive 1 (pushRequest (str "east") (str "sw1") 63900000000) .insertion
      (atSecond 63900000001)] ++ advances 1 1 ++
    [.receive 2 (pushRequest (str "west") (str "sw2") 63900000000) .insertion
      (atSecond 63900000002)] ++ advances 2 1 ++ advances 1 3 ++ advances 2 2

/-- Both pushes are answered 204, and when the second is, the device of the first
has just disappeared from the published graph. The hub has no size budgets. -/
theorem racing_push_lost :
    plainHub.cfg.hub.maxGraphDevices = 0 ∧ plainHub.cfg.hub.maxGraphEdges = 0 ∧ Fresh freshHub ∧
      ∃ before after call entry, run (step plainHub) racingRun freshHub = some before ∧
        step plainHub (.advance 2 .insertion fun _ => Time.zero) before = some after ∧
        after.calls.lookup 2 = some call ∧ call.phase = .answered .accepted ∧
        after.spokes.lookup (str "east") = some entry ∧
        ∃ device ∈ entry.payload.devices, device.id ∉ after.topology.devices.map Device.id := by
  refine ⟨rfl, rfl, fresh_freshHub, ?_⟩
  have hrun : ((run (step plainHub) racingRun freshHub).bind fun before =>
      (step plainHub (.advance 2 .insertion fun _ => Time.zero) before).bind fun after =>
        (after.calls.lookup 2).bind fun call =>
          (after.spokes.lookup (str "east")).map fun entry =>
            decide (call.phase = .answered .accepted ∧
              ∃ device ∈ entry.payload.devices,
                device.id ∉ after.topology.devices.map Device.id)) = some true := by
    decide
  obtain ⟨before, hbefore, hrest⟩ := Option.bind_eq_some_iff.mp hrun
  obtain ⟨after, hafter, hrest⟩ := Option.bind_eq_some_iff.mp hrest
  obtain ⟨call, hcall, hrest⟩ := Option.bind_eq_some_iff.mp hrest
  obtain ⟨entry, hentry, hlost⟩ := Option.map_eq_some_iff.mp hrest
  obtain ⟨hphase, hdevice⟩ := of_decide_eq_true hlost
  exact ⟨before, after, call, entry, hbefore, hafter, hcall, hphase, hentry, hdevice⟩

/-! ## Deleted entries -/

/-- The copies that graphs are built from or were published from. -/
def Held (state : State) (copy : Copy) : Prop :=
  (∃ id call job, state.calls.lookup id = some call ∧ call.job = some job ∧ job.copy = copy) ∨
    ∃ publication ∈ state.published, publication.copy = copy

/-- A copy was held before, or is taken in this step, by a call that has not
committed its entry. -/
theorem Stepped.held_cases {copy : Copy} (hstep : Stepped hub state action next)
    (hheld : Held next copy) :
    Held state copy ∨
      ∃ accepted, (takeCopy state accepted).copy = copy ∧ next.publishGen = copy.gen ∧
        ∀ name entry, accepted = some (name, entry) →
          ∃ call, state.calls.lookup entry.call = some call ∧ ¬ Committed call := by
  rcases hheld with ⟨id, call, job, hcall, hjob, rfl⟩ | ⟨publication, hmem, rfl⟩
  · rcases hstep.lookup_cases hcall with hold | ⟨core, hown, rfl⟩
    · exact Or.inl (Or.inl ⟨id, call, job, hold, hjob, rfl⟩)
    · rcases hown.job_cases hjob with ⟨earlier, hlookup, hsame⟩ | ⟨accepted, rfl, rfl, hentry⟩
      · exact Or.inl (Or.inl ⟨id, earlier, job, hlookup, hsame, rfl⟩)
      · refine Or.inr ⟨accepted, rfl, rfl, ?_⟩
        intro name entry hsome
        obtain ⟨rfl, -, hpending⟩ := hentry name entry hsome
        exact hpending
  · rcases hstep.published_cases with
      ⟨hpublished, -, -⟩ | ⟨id, call, job, graph, unmatched, hcall, hphase, -, hpublished, -, -⟩
    · rw [hpublished] at hmem
      exact Or.inl (Or.inr ⟨publication, hmem, rfl⟩)
    · rw [hpublished] at hmem
      rcases List.mem_append.mp hmem with hold | hnew
      · exact Or.inl (Or.inr ⟨publication, hold, rfl⟩)
      · rw [List.mem_singleton.mp hnew]
        refine Or.inl (Or.inl ⟨id, call, job, hcall, ?_, rfl⟩)
        rw [Call.job, hphase]

theorem CallStep.publishGen_le (hstep : CallStep hub state id action updated core) :
    state.publishGen ≤ core.publishGen := by
  cases hstep with
  | refused hnew hcheck =>
      obtain ⟨counters, heq⟩ := countRefusal_eq state _
      rw [heq]
  | prepared hcall hphase hrequest hretry hjob =>
      rw [hjob]
      exact Nat.le_succ _
  | deleted hcall hphase hrequest hevicted =>
      obtain ⟨spokes, up, lastPush, heq⟩ := foldl_deleteSpoke_eq _ state
      rw [heq]
  | copied hcall hphase hrequest hjob =>
      rw [hjob]
      exact Nat.le_succ _
  | won hcall hphase hgen hbudget =>
      obtain ⟨spokes, up, lastPush, stale, live, heq⟩ := commit_eq state _ _ _
      rw [heq]
  | finished hcall hphase =>
      obtain ⟨queue, drops, heq⟩ := writeSnapshotAsync_eq hub _ state
      rw [heq]
  | _ => exact le_rfl

theorem Stepped.publishGen_le (hstep : Stepped hub state action next) :
    state.publishGen ≤ next.publishGen := by
  cases hstep with
  | call hcall => exact hcall.publishGen_le
  | _ => exact le_rfl

theorem Stepped.lastPublishedGen_le (hstep : Stepped hub state action next) :
    state.lastPublishedGen ≤ next.lastPublishedGen := by
  rcases hstep.published_cases with
    ⟨-, -, hgen⟩ | ⟨id, call, job, graph, unmatched, -, -, hnewer, -, -, hgen⟩
  · exact hgen.ge
  · rw [hgen]
    exact hnewer.le

/-- The push that brought the entry has published it. -/
def Settled (state : State) (entry : SpokeEntry) : Prop :=
  state.published ≠ [] ∧
    ∃ call, state.calls.lookup entry.call = some call ∧ call.request ≠ none ∧ Committed call

theorem Settled.step (hsettled : Settled state entry) (hstep : Stepped hub state action next) :
    Settled next entry := by
  obtain ⟨hpublished, call, hcall, hpush, hcommitted⟩ := hsettled
  constructor
  · rcases hstep.published_cases with ⟨hsame, -, -⟩ | ⟨_, _, _, _, _, -, -, -, hadded, -, -⟩
    · rw [hsame]
      exact hpublished
    · rw [hadded]
      exact List.append_ne_nil_of_right_ne_nil _ (List.cons_ne_nil _ _)
  · obtain ⟨later, hlater, hrequest, hstays⟩ := hstep.persists hcall
    refine ⟨later, hlater, ?_, hstays hpush hcommitted⟩
    rw [hrequest]
    exact hpush

/-- A published entry that is not registered any more. -/
def Gone (state : State) (name : GoString) (entry : SpokeEntry) : Prop :=
  Settled state entry ∧ state.spokes.lookup name ≠ some entry

/-- No entry is registered a second time. -/
theorem Gone.step (hgone : Gone state name entry) (hprovenance : Provenance hub.cfg state)
    (hstep : Stepped hub state action next) : Gone next name entry := by
  refine ⟨hgone.1.step hstep, ?_⟩
  intro hentry
  rcases hstep.entry_cases hentry with
    hold | ⟨id, call, job, graph, unmatched, hcall, hphase, haccepted, -, -⟩
  · exact hgone.2 hold
  · have hjob : call.job = some job := by rw [Call.job, hphase]
    obtain ⟨rfl, -⟩ := (hprovenance.calls id call hcall).job job name entry hjob haccepted
    obtain ⟨-, committed, hlookup, -, hcommitted⟩ := hgone.1
    rw [hcall] at hlookup
    cases hlookup
    rcases hcommitted with ⟨publication, hpublished⟩ | hanswered
    · rw [hphase] at hpublished
      cases hpublished
    · rw [hphase] at hanswered
      cases hanswered

/-- New copies do not have the entry. -/
theorem Gone.lookup_takeCopy (hgone : Gone state name entry)
    {accepted : Option (GoString × SpokeEntry)}
    (huncommitted : ∀ name entry, accepted = some (name, entry) →
      ∃ call, state.calls.lookup entry.call = some call ∧ ¬ Committed call) :
    (takeCopy state accepted).copy.spokes.lookup name ≠ some entry := by
  cases accepted with
  | none => exact hgone.2
  | some accepted =>
      intro hlookup
      simp only [takeCopy, lookup_insert_eq] at hlookup
      split_ifs at hlookup with hname
      · cases hlookup
        obtain ⟨call, hcall, hpending⟩ := huncommitted accepted.1 accepted.2 rfl
        obtain ⟨-, committed, hsame, -, hcommitted⟩ := hgone.1
        rw [hcall] at hsame
        cases hsame
        exact hpending hcommitted
      · exact hgone.2 hlookup

def Unlimited (cfg : FederationConfig) : Prop :=
  cfg.hub.maxGraphDevices ≤ 0 ∧ cfg.hub.maxGraphEdges ≤ 0

theorem Unlimited.overBudget (hunlimited : Unlimited cfg) (graph : Discovery.Graph) :
    overBudget cfg graph = false := by
  apply overBudget_eq_false.mpr
  exact ⟨fun hlimit => absurd hlimit hunlimited.1.not_gt,
    fun hlimit => absurd hlimit hunlimited.2.not_gt⟩

/-- The generation from which on no copy has an entry that the eviction has
deleted. While the eviction has not taken its own copy these are the copies still
to be taken; once it is over, those not older than the published graph. -/
def Call.fence (call : Call) (state : State) : Nat :=
  match call.phase with
  | .deleted => state.publishGen + 1
  | .prepared job => job.copy.gen
  | .built job _ _ => job.copy.gen
  | _ => state.lastPublishedGen

theorem Call.fence_le (call : Call) (hgen : state.publishGen ≤ next.publishGen)
    (hlast : state.lastPublishedGen ≤ next.lastPublishedGen) :
    call.fence state ≤ call.fence next := by
  unfold Call.fence
  split
  · exact Nat.succ_le_succ hgen
  · exact le_rfl
  · exact le_rfl
  · exact hlast

/-- The step of a call raises its fence, unless it deletes entries. -/
theorem CallStep.fence_cases (hunlimited : Unlimited hub.cfg)
    (hlast : state.lastPublishedGen ≤ state.publishGen)
    (hstep : CallStep hub state id action updated core) :
    updated.evicted = [] ∨
      (∃ call, state.calls.lookup id = some call ∧ updated.evicted = call.evicted ∧
        call.fence state ≤ updated.fence core) ∨
      ∃ now, updated.evicted = silentSpokes hub.cfg now state.spokes ∧
        updated.phase = (if updated.evicted = [] then .returned else .deleted) ∧
        core = (updated.evicted.map Prod.fst).foldl deleteSpoke state := by
  cases hstep with
  | refused hnew hcheck => exact Or.inl rfl
  | admitted hnew hcheck => exact Or.inl rfl
  | evictionStarted hnew => exact Or.inl rfl
  | tooSoon hcall hphase hrequest hretry =>
      refine Or.inr (Or.inl ⟨_, hcall, rfl, ?_⟩)
      simp only [Call.fence, hphase, le_refl]
  | prepared hcall hphase hrequest hretry hjob =>
      refine Or.inr (Or.inl ⟨_, hcall, rfl, ?_⟩)
      simp only [Call.fence, hphase, hjob, takeCopy]
      exact hlast.trans (Nat.le_succ _)
  | deleted hcall hphase hrequest hevicted => exact Or.inr (Or.inr ⟨_, hevicted, rfl, rfl⟩)
  | copied hcall hphase hrequest hjob =>
      refine Or.inr (Or.inl ⟨_, hcall, rfl, ?_⟩)
      simp only [Call.fence, hphase, hjob, takeCopy, le_refl]
  | built hcall hphase hgraph =>
      refine Or.inr (Or.inl ⟨_, hcall, rfl, ?_⟩)
      simp only [Call.fence, hphase, le_refl]
  | @won _ _ call job graph unmatched hcall hphase hgen hbudget =>
      refine Or.inr (Or.inl ⟨_, hcall, rfl, ?_⟩)
      obtain ⟨spokes, up, lastPush, stale, live, heq⟩ := commit_eq state job graph unmatched
      simp only [Call.fence, hphase, heq, le_refl]
  | @stale _ _ call job graph unmatched hcall hphase hgen =>
      refine Or.inr (Or.inl ⟨_, hcall, rfl, ?_⟩)
      -- whoever was published instead has a later copy
      cases hrequest : call.request with
      | none => simpa only [Call.fence, publishedPhase, hphase, hrequest] using hgen
      | some request => simpa only [Call.fence, publishedPhase, hphase, hrequest] using hgen
  | tooLarge hcall hphase hgen hbudget =>
      rw [hunlimited.overBudget] at hbudget
      cases hbudget
  | @finished _ _ call publication hcall hphase =>
      refine Or.inr (Or.inl ⟨_, hcall, rfl, ?_⟩)
      obtain ⟨queue, drops, heq⟩ := writeSnapshotAsync_eq hub publication state
      cases hrequest : call.request with
      | none => simp only [Call.fence, finishedPhase, hphase, hrequest, heq, le_refl]
      | some request => simp only [Call.fence, finishedPhase, hphase, hrequest, heq, le_refl]

/-- No copy from the fence on has the entry, and none will. -/
structure KeptOut (state : State) (call : Call) (name : GoString) (entry : SpokeEntry) : Prop where
  gone : Gone state name entry
  copies : ∀ copy, Held state copy → call.fence state ≤ copy.gen →
    copy.spokes.lookup name ≠ some entry

theorem KeptOut.step {later : Call} (hkept : KeptOut state call name entry)
    (hprovenance : Provenance hub.cfg state) (hstep : Stepped hub state action next)
    (hfence : call.fence state ≤ later.fence next) : KeptOut next later name entry := by
  refine ⟨hkept.gone.step hprovenance hstep, ?_⟩
  intro copy hheld hgen
  rcases hstep.held_cases hheld with hold | ⟨accepted, rfl, -, huncommitted⟩
  · exact hkept.copies copy hold (hfence.trans hgen)
  · exact hkept.gone.lookup_takeCopy huncommitted

structure Fenced (state : State) : Prop where
  last_le : state.lastPublishedGen ≤ state.publishGen
  held_le : ∀ copy, Held state copy → copy.gen ≤ state.publishGen
  settled : ∀ name entry, state.spokes.lookup name = some entry → Settled state entry
  evicted : ∀ id call name entry, state.calls.lookup id = some call →
    (name, entry) ∈ call.evicted → KeptOut state call name entry

theorem held_le_step (hheld : ∀ copy, Held state copy → copy.gen ≤ state.publishGen)
    (hstep : Stepped hub state action next) :
    ∀ copy, Held next copy → copy.gen ≤ next.publishGen := by
  intro copy hcopy
  rcases hstep.held_cases hcopy with hold | ⟨accepted, -, hgen, -⟩
  · exact (hheld copy hold).trans hstep.publishGen_le
  · exact hgen.ge

theorem last_le_step (hfenced : Fenced state) (hstep : Stepped hub state action next) :
    next.lastPublishedGen ≤ next.publishGen := by
  rcases hstep.published_cases with
    ⟨-, -, hgen⟩ | ⟨id, call, job, graph, unmatched, hcall, hphase, -, -, -, hgen⟩
  · rw [hgen]
    exact hfenced.last_le.trans hstep.publishGen_le
  · rw [hgen]
    have hjob : call.job = some job := by rw [Call.job, hphase]
    have hheld : Held state job.copy := Or.inl ⟨id, call, job, hcall, hjob, rfl⟩
    exact (hfenced.held_le job.copy hheld).trans hstep.publishGen_le

theorem settled_step (hprovenance : Provenance hub.cfg state)
    (hsettled : ∀ name entry, state.spokes.lookup name = some entry → Settled state entry)
    (hstep : Stepped hub state action next) :
    ∀ name entry, next.spokes.lookup name = some entry → Settled next entry := by
  intro name entry hentry
  rcases hstep.entry_cases hentry with
    hold | ⟨id, call, job, graph, unmatched, hcall, hphase, haccepted, hlater,
      hpublished⟩
  · exact (hsettled name entry hold).step hstep
  · have hjob : call.job = some job := by rw [Call.job, hphase]
    obtain ⟨rfl, request, hrequest, -⟩ :=
      (hprovenance.calls id call hcall).job job name entry hjob haccepted
    refine ⟨?_, _, hlater, ?_, Or.inl ⟨_, rfl⟩⟩
    · rw [hpublished]
      exact List.append_ne_nil_of_right_ne_nil _ (List.cons_ne_nil _ _)
    · exact Option.ne_none_iff_exists'.mpr ⟨request, hrequest⟩

theorem mem_silentSpokes {now : Time} {spokes : Spokes}
    (hmem : (name, entry) ∈ silentSpokes cfg now spokes) : spokes.lookup name = some entry := by
  obtain ⟨hentry, -⟩ := List.mem_filter.mp hmem
  obtain ⟨stored, hstored, heq⟩ := List.mem_map.mp hentry
  cases heq
  exact AList.mem_lookup_iff.mpr hstored

/-- What an eviction has just deleted is in no copy still to be taken. -/
theorem keptOut_of_deleted {now : Time} (hfenced : Fenced state)
    (hstep : Stepped hub state action (core.setCall id updated))
    (hevicted : updated.evicted = silentSpokes hub.cfg now state.spokes)
    (hphase : updated.phase = if updated.evicted = [] then .returned else .deleted)
    (hcore : core = (updated.evicted.map Prod.fst).foldl deleteSpoke state)
    (hmem : (name, entry) ∈ updated.evicted) :
    KeptOut (core.setCall id updated) updated name entry := by
  have hregistered : state.spokes.lookup name = some entry := by
    rw [hevicted] at hmem
    exact mem_silentSpokes hmem
  refine ⟨⟨(hfenced.settled name entry hregistered).step hstep, ?_⟩, ?_⟩
  · intro hlookup
    change core.spokes.lookup name = some entry at hlookup
    rw [hcore] at hlookup
    exact (lookup_foldl_deleteSpoke hlookup).1 (List.mem_map_of_mem hmem)
  · intro copy hheld hfence
    have hsome : updated.phase = .deleted := by
      rw [hphase, if_neg (List.ne_nil_of_mem hmem)]
    simp only [Call.fence, hsome] at hfence
    have hgen := held_le_step hfenced.held_le hstep copy hheld
    exact absurd (hfence.trans hgen) (Nat.not_succ_le_self _)

theorem Fenced.step (hfenced : Fenced state) (hprovenance : Provenance hub.cfg state)
    (hunlimited : Unlimited hub.cfg) (hstep : Stepped hub state action next) : Fenced next := by
  refine ⟨last_le_step hfenced hstep, held_le_step hfenced.held_le hstep,
    settled_step hprovenance hfenced.settled hstep, ?_⟩
  intro id call name entry hcall hmem
  rcases hstep.lookup_cases hcall with hold | ⟨core, hown, rfl⟩
  · exact (hfenced.evicted id call name entry hold hmem).step hprovenance hstep
      (call.fence_le hstep.publishGen_le hstep.lastPublishedGen_le)
  · rcases hown.fence_cases hunlimited hfenced.last_le with
      hnone | ⟨earlier, hlookup, hsame, hfence⟩ | ⟨now, hevicted, hphase, hcore⟩
    · rw [hnone] at hmem
      cases hmem
    · rw [hsame] at hmem
      exact (hfenced.evicted id earlier name entry hlookup hmem).step hprovenance hstep hfence
    · exact keptOut_of_deleted hfenced hstep hevicted hphase hcore hmem

theorem fenced_of_fresh (hfresh : Fresh state) : Fenced state := by
  refine ⟨?_, ?_, ?_, ?_⟩
  · rw [hfresh.lastPublishedGen]
    exact Nat.zero_le _
  · rintro copy (⟨id, call, job, hcall, -, -⟩ | ⟨publication, hmem, -⟩)
    · rw [hfresh.calls] at hcall
      cases hcall
    · rw [hfresh.published] at hmem
      cases hmem
  · intro name entry hentry
    rw [hfresh.spokes] at hentry
    cases hentry
  · intro id call name entry hcall
    rw [hfresh.calls] at hcall
    cases hcall

/-- A call that has returned does not change any more. -/
theorem Stepped.returned (hstep : Stepped hub state action next)
    (hcall : state.calls.lookup id = some call) (hphase : call.phase = .returned) :
    next.calls.lookup id = some call := by
  have hsome : id ∈ state.calls := AList.lookup_isSome.mp (by rw [hcall]; rfl)
  obtain ⟨later, hlater, -⟩ := hstep.persists hcall
  rcases hstep.lookup_cases hlater with hold | ⟨core, hown, -⟩
  · rw [hlater, ← hold, hcall]
  · cases hown with
    | refused hnew _ | admitted hnew _ | evictionStarted hnew => exact absurd hsome hnew
    | tooSoon hfound hother _ _ | prepared hfound hother _ _ _ | deleted hfound hother _ _
    | copied hfound hother _ _ | built hfound hother _ | won hfound hother _ _
    | stale hfound hother _ | tooLarge hfound hother _ _ | finished hfound hother =>
        rw [hcall] at hfound
        cases hfound
        rw [hphase] at hother
        cases hother

/-- Without size budgets: from the moment an eviction returns, the published graph
comes from a copy of the registry without the entries that the eviction has
deleted. -/
theorem evicted_entries_stay_out (hub : Setup) (hunlimited : Unlimited hub.cfg) (state : State)
    (hreachable : Reachable (step hub) Fresh state) (id : CallID) (call : Call)
    (hcall : state.calls.lookup id = some call) (hreturned : call.phase = .returned)
    (name : GoString) (entry : SpokeEntry) (hevicted : (name, entry) ∈ call.evicted)
    (actions : List Action) (later : State) (hrun : run (step hub) actions state = some later) :
    ∃ publication, later.published.getLast? = some publication ∧
      later.topology = publication.graph ∧
      BuiltFrom hub.cfg publication.copy publication.graph ∧
      publication.copy.spokes.lookup name ≠ some entry := by
  have hlater : Reachable (step hub) Fresh later := hreachable.run hrun
  have hcopies : Copies hub.cfg later := hlater.invariant (fun _ => copies_of_fresh)
    (fun _ _ _ hinvariant hstep => hinvariant.step (stepped_of_step hstep))
  have hfenced : Provenance hub.cfg later ∧ Fenced later := by
    refine @Reachable.invariant _ _ (step hub) Fresh
      (fun state => Provenance hub.cfg state ∧ Fenced state)
      (fun _ hfresh => ⟨provenance_of_fresh hfresh, fenced_of_fresh hfresh⟩) ?_ _ hlater
    intro action state next hinvariant hstep
    have hcase := stepped_of_step hstep
    exact ⟨hinvariant.1.step hcase, hinvariant.2.step hinvariant.1 hunlimited hcase⟩
  have hstill : later.calls.lookup id = some call :=
    run_invariant (fun _ _ _ hlookup hstep => (stepped_of_step hstep).returned hlookup hreturned)
      hcall hrun
  have hkept := hfenced.2.evicted id call name entry hstill hevicted
  cases hlast : later.published.getLast? with
  | none => exact absurd (List.getLast?_eq_none_iff.mp hlast) hkept.gone.1.1
  | some publication =>
      obtain ⟨hbuilt, htopology, hgen⟩ := hcopies.last publication hlast
      refine ⟨publication, rfl, htopology, hbuilt, ?_⟩
      apply hkept.copies
      · exact Or.inr ⟨publication, List.mem_of_getLast? hlast, rfl⟩
      · simp only [Call.fence, hreturned]
        exact hgen.le

/-- A push, and an eviction when its spoke has been silent for long. -/
def evictingRun : List Action :=
  pushSteps 1 (pushRequest (str "east") (str "sw1") 63900000000) 63900000001 ++
    .startEviction 2 (atSecond 63900002000) :: advances 2 5

theorem silent_spoke_stays_out :
    ∃ (state : State) (call : Call) (entry : SpokeEntry) (publication : Publication),
      run (step plainHub) evictingRun freshHub = some state ∧
      state.calls.lookup 2 = some call ∧ (str "east", entry) ∈ call.evicted ∧
      state.topology = publication.graph ∧
      publication.copy.spokes.lookup (str "east") ≠ some entry := by
  have hrun : ((run (step plainHub) evictingRun freshHub).bind fun state =>
      (state.calls.lookup 2).bind fun call => call.evicted.head?.map fun deleted =>
        decide (call.phase = .returned ∧ deleted.1 = str "east")) = some true := by
    decide
  obtain ⟨state, hstate, hrest⟩ := Option.bind_eq_some_iff.mp hrun
  obtain ⟨call, hcall, hrest⟩ := Option.bind_eq_some_iff.mp hrest
  obtain ⟨deleted, hdeleted, hdecided⟩ := Option.map_eq_some_iff.mp hrest
  obtain ⟨hreturned, hname⟩ := of_decide_eq_true hdecided
  have hmem : (str "east", deleted.2) ∈ call.evicted := by
    rw [← hname]
    exact List.mem_of_head? hdeleted
  obtain ⟨publication, -, htopology, -, hout⟩ := evicted_entries_stay_out plainHub
    ⟨by decide, by decide⟩ state ⟨freshHub, _, fresh_freshHub, hstate⟩ 2 call hcall hreturned
    (str "east") deleted.2 hmem [] state rfl
  exact ⟨state, call, deleted.2, publication, hstate, hcall, hmem, htopology, hout⟩

end TopologyExporter.Federation
