import TopologyExporter.Federation.Generations

/-! # The interval between pushes

A push is compared with the registered entry of its spoke when it takes its copy
of the registry, and replaces that entry when its graph is published. Another
push of the same spoke may be published in between; it is not compared again.
-/

namespace TopologyExporter.Federation

open Go Utf8 Discovery Transition

variable {hub : Setup} {action : Action} {state next : State}

/-! ## The times of pushes -/

/-- The time a push in progress bears. -/
def Call.time (call : Call) : Option Time :=
  match call.phase with
  | .admitted _ now => some now
  | .prepared job => job.accepted.map fun accepted => accepted.2.lastSeen
  | .built job _ _ => job.accepted.map fun accepted => accepted.2.lastSeen
  | _ => none

variable {core final : State} {id : CallID} {updated call : Call} {monotonic : Bool}
  {cfg : FederationConfig} {name : GoString} {now : Time} {entry first : SpokeEntry} {job : Job}
  {graph : Discovery.Graph} {request : Request}

/-- A push keeps its time, which was read when the request arrived. -/
theorem CallStep.time_cases {time : Time} (hstep : CallStep hub state id action updated core)
    (htime : updated.time = some time) :
    (∃ call, state.calls.lookup id = some call ∧ call.time = some time) ∨
      ∃ request order, action = .receive id request order time := by
  cases hstep with
  | refused hnew hcheck => cases htime
  | admitted hnew hcheck =>
      cases htime
      exact Or.inr ⟨_, _, rfl⟩
  | evictionStarted hnew => split_ifs at htime <;> cases htime
  | tooSoon hcall hphase hrequest hretry => cases htime
  | prepared hcall hphase hrequest hretry hjob =>
      rw [Call.time, hjob] at htime
      cases htime
      refine Or.inl ⟨_, hcall, ?_⟩
      rw [Call.time, hphase]
  | deleted hcall hphase hrequest hevicted => split_ifs at htime <;> cases htime
  | copied hcall hphase hrequest hjob =>
      rw [Call.time, hjob] at htime
      cases htime
  | built hcall hphase hgraph =>
      refine Or.inl ⟨_, hcall, ?_⟩
      rw [Call.time, hphase]
      exact htime
  | won hcall hphase hgen hbudget => cases htime
  | @stale _ _ call _ _ _ hcall hphase hgen =>
      unfold publishedPhase at htime
      split at htime <;> cases htime
  | @tooLarge _ _ call _ _ _ hcall hphase hgen hbudget =>
      unfold publishedPhase at htime
      split at htime <;> cases htime
  | @finished _ _ call _ hcall hphase =>
      unfold finishedPhase at htime
      split at htime <;> cases htime

/-- A request arrives at a reading of the hub's clock. The readings of one clock
all have a monotonic part, or none has. -/
def Action.ReadsClock (monotonic : Bool) : Action → Prop
  | .receive _ _ _ now => now.mono.isSome = monotonic
  | _ => True

/-- The times of all pushes and entries are readings of one clock. -/
structure Clocked (monotonic : Bool) (state : State) : Prop where
  calls : ∀ id call time, state.calls.lookup id = some call → call.time = some time →
    time.mono.isSome = monotonic
  spokes : ∀ name entry, state.spokes.lookup name = some entry →
    entry.lastSeen.mono.isSome = monotonic

theorem Clocked.step (hclocked : Clocked monotonic state) (hreads : action.ReadsClock monotonic)
    (hstep : Stepped hub state action next) : Clocked monotonic next := by
  constructor
  · intro id call time hcall htime
    rcases hstep.lookup_cases hcall with hold | ⟨core, hown, -⟩
    · exact hclocked.calls id call time hold htime
    · rcases hown.time_cases htime with ⟨earlier, hlookup, hsame⟩ | ⟨request, order, rfl⟩
      · exact hclocked.calls id earlier time hlookup hsame
      · exact hreads
  · intro name entry hentry
    rcases hstep.entry_cases hentry with
      hold | ⟨id, call, job, graph, unmatched, hcall, hphase, haccepted, -, -⟩
    · exact hclocked.spokes name entry hold
    · refine hclocked.calls id call entry.lastSeen hcall ?_
      rw [Call.time, hphase]
      simp [haccepted]

/-! ## What the check leaves open -/

/-- No younger push of the same spoke has passed the check when a push is
published. -/
def Uncontested (hub : Setup) (action : Action) (state : State) : Prop :=
  ∀ job ∈ publishing hub action state, ∀ accepted ∈ job.accepted,
    ∀ record ∈ state.calls.entries, ∀ other ∈ Call.job record.2, ∀ rival ∈ other.accepted,
      rival.1 = accepted.1 → other.copy.gen ≤ job.copy.gen

instance (hub : Setup) (action : Action) (state : State) :
    Decidable (Uncontested hub action state) :=
  inferInstanceAs (Decidable (∀ job ∈ publishing hub action state, ∀ accepted ∈ job.accepted,
    ∀ record ∈ state.calls.entries, ∀ other ∈ Call.job record.2, ∀ rival ∈ other.accepted, _ → _))

/-- A push that can still be published has kept its distance to the registered
entry of its spoke. -/
def Spaced (hub : Setup) (state : State) : Prop :=
  ∀ id call job name entry held, state.calls.lookup id = some call → call.job = some job →
    job.accepted = some (name, entry) → state.lastPublishedGen < job.copy.gen →
    state.spokes.lookup name = some held →
    hub.cfg.hub.minPushInterval ≤ entry.lastSeen.sub held.lastSeen

variable {held : SpokeEntry} {order : RangeOrder} {start : State}

theorem le_sub_of_retrySecs {spokes : Spokes} (hpositive : 0 < cfg.hub.minPushInterval)
    (hretry : retrySecs cfg spokes name now = none) (hheld : spokes.lookup name = some held) :
    cfg.hub.minPushInterval ≤ now.sub held.lastSeen := by
  unfold retrySecs at hretry
  rw [hheld] at hretry
  by_contra hsoon
  rw [not_le] at hsoon
  simp only [if_pos (And.intro hpositive hsoon)] at hretry
  cases hretry

/-- A job in progress after a step was in progress before it, or has just passed
the check. -/
theorem Stepped.job_cases (hstep : Stepped hub state action next)
    (hcall : next.calls.lookup id = some call) (hjob : call.job = some job)
    (haccepted : job.accepted = some (name, entry)) :
    (∃ earlier, state.calls.lookup id = some earlier ∧ earlier.job = some job) ∨
      (next.spokes = state.spokes ∧
        retrySecs hub.cfg state.spokes name entry.lastSeen = none) := by
  rcases hstep.lookup_cases hcall with hold | ⟨core, hown, rfl⟩
  · exact Or.inl ⟨call, hold, hjob⟩
  · rcases hown.job_cases hjob with hearlier | ⟨accepted, rfl, rfl, hentry⟩
    · exact Or.inl hearlier
    · exact Or.inr ⟨rfl, (hentry name entry haccepted).2.1⟩

theorem Spaced.step (hpositive : 0 < hub.cfg.hub.minPushInterval) (hspaced : Spaced hub state)
    (huncontested : Uncontested hub action state) (hstep : Stepped hub state action next) :
    Spaced hub next := by
  intro id call job name entry held hcall hjob haccepted hgen hheld
  rcases hstep.job_cases hcall hjob haccepted with ⟨earlier, hlookup, hsame⟩ | ⟨hspokes, hretry⟩
  · have hbefore : state.lastPublishedGen < job.copy.gen :=
      hstep.lastPublishedGen_le.trans_lt hgen
    cases hstep with
    | call hown =>
        rcases hown.registry_cases with
          hquiet | ⟨winner, won, graph, unmatched, hwinner, hphase, hnewer, hbudget, -, rfl⟩ |
            ⟨evictor, now, evicted, -, -, -, -, -, rfl⟩
        · rw [(hquiet.setCall _ _).spokes] at hheld
          exact hspaced id earlier job name entry held hlookup hsame haccepted hbefore hheld
        · change (commit state won graph unmatched).spokes.lookup name = some held at hheld
          rcases lookup_commit hheld with hown' | ⟨-, hold⟩
          · -- the entry that was just registered is younger than the check of this job
            have hpublishing := publishing_eq_some.mpr
              ⟨_, winner, graph, unmatched, hown.action_call, hwinner, hphase, hnewer, hbudget⟩
            have hrecord : (⟨id, earlier⟩ : Σ _ : CallID, Call) ∈ state.calls.entries :=
              AList.mem_lookup_iff.mp hlookup
            have hle := huncontested won hpublishing (name, held) hown' ⟨id, earlier⟩ hrecord job
              hsame (name, entry) haccepted rfl
            obtain ⟨spokes, up, lastPush, stale, live, heq⟩ := commit_eq state won graph unmatched
            rw [heq] at hgen
            exact absurd hgen (not_lt.mpr hle)
          · exact hspaced id earlier job name entry held hlookup hsame haccepted hbefore hold
        · exact hspaced id earlier job name entry held hlookup hsame haccepted hbefore
            (lookup_foldl_deleteSpoke hheld).2
    | _ => exact hspaced id earlier job name entry held hlookup hsame haccepted hbefore hheld
  · rw [hspokes] at hheld
    exact le_sub_of_retrySecs hpositive hretry hheld

/-! ## Pushes of one spoke -/

/-- The entry that an action registers, if it publishes a push. -/
def registering (hub : Setup) (action : Action) (state : State) :
    Option (GoString × SpokeEntry) :=
  (publishing hub action state).bind Job.accepted

theorem Spaced.registering (hspaced : Spaced hub state)
    (hregistering : registering hub action state = some (name, entry))
    (hheld : state.spokes.lookup name = some held) :
    hub.cfg.hub.minPushInterval ≤ entry.lastSeen.sub held.lastSeen := by
  obtain ⟨job, hpublishing, haccepted⟩ := Option.bind_eq_some_iff.mp hregistering
  obtain ⟨id, call, graph, unmatched, -, hcall, hphase, hgen, -⟩ :=
    publishing_eq_some.mp hpublishing
  refine hspaced id call job name entry held hcall ?_ haccepted hgen hheld
  rw [Call.job, hphase]

/-- The entry of a spoke changes only when a push of it is published. -/
theorem Stepped.registering_of_changed (hstep : Stepped hub state action next)
    (hentry : next.spokes.lookup name = some entry) :
    state.spokes.lookup name = some entry ∨ registering hub action state = some (name, entry) := by
  cases hstep with
  | call hown =>
      rcases hown.registry_cases with
        hquiet | ⟨call, job, graph, unmatched, hcall, hphase, hnewer, hbudget, -, rfl⟩ |
          ⟨evictor, now, evicted, -, -, -, -, -, rfl⟩
      · rw [(hquiet.setCall _ _).spokes] at hentry
        exact Or.inl hentry
      · change (commit state job graph unmatched).spokes.lookup name = some entry at hentry
        rcases lookup_commit hentry with haccepted | ⟨-, hold⟩
        · have hpublishing := publishing_eq_some.mpr
            ⟨_, call, graph, unmatched, hown.action_call, hcall, hphase, hnewer, hbudget⟩
          refine Or.inr ?_
          rw [Federation.registering, hpublishing, Option.bind_some, haccepted]
        · exact Or.inl hold
      · exact Or.inl (lookup_foldl_deleteSpoke hentry).2
  | _ => exact Or.inl hentry

/-- A call whose graph can be published publishes it. -/
theorem CallStep.core_of_built {unmatched : Nat} (hstep : CallStep hub state id action updated core)
    (hcall : state.calls.lookup id = some call) (hphase : call.phase = .built job graph unmatched)
    (hgen : state.lastPublishedGen < job.copy.gen) (hbudget : overBudget hub.cfg graph = false) :
    core = commit state job graph unmatched := by
  have hsome : id ∈ state.calls := AList.lookup_isSome.mp (by rw [hcall]; rfl)
  have hsame : ∀ {found phase}, state.calls.lookup id = some found → found.phase = phase →
      phase = .built job graph unmatched := by
    intro found phase hfound hother
    rw [hcall] at hfound
    cases hfound
    exact hother.symm.trans hphase
  cases hstep with
  | refused hnew _ | admitted hnew _ | evictionStarted hnew => exact absurd hsome hnew
  | tooSoon hfound hother _ _ | prepared hfound hother _ _ _ | deleted hfound hother _ _
  | copied hfound hother _ _ | built hfound hother _ | finished hfound hother =>
      cases hsame hfound hother
  | won hfound hother _ _ =>
      cases hsame hfound hother
      rfl
  | stale hfound hother hold =>
      cases hsame hfound hother
      exact absurd hgen hold.not_gt
  | tooLarge hfound hother _ hlarge =>
      cases hsame hfound hother
      rw [hbudget] at hlarge
      cases hlarge

/-- The step of a job that can be published is its commit. -/
theorem Stepped.eq_of_publishing (hstep : Stepped hub state action next)
    (hpublishing : publishing hub action state = some job) :
    ∃ id updated graph unmatched, next = (commit state job graph unmatched).setCall id updated := by
  obtain ⟨id, call, graph, unmatched, haction, hcall, hphase, hgen, hbudget⟩ :=
    publishing_eq_some.mp hpublishing
  cases hstep with
  | @call _ _ updated core hown =>
      cases hown.action_call.symm.trans haction
      exact ⟨id, updated, graph, unmatched, by rw [hown.core_of_built hcall hphase hgen hbudget]⟩
  | _ => cases haction

/-- A published push is the registered entry of its spoke after the step. -/
theorem Stepped.lookup_of_registering (hstep : Stepped hub state action next)
    (hregistering : registering hub action state = some (name, entry)) :
    next.spokes.lookup name = some entry := by
  obtain ⟨job, hpublishing, haccepted⟩ := Option.bind_eq_some_iff.mp hregistering
  obtain ⟨id, updated, graph, unmatched, rfl⟩ := hstep.eq_of_publishing hpublishing
  change (commit state job graph unmatched).spokes.lookup name = some entry
  simp only [commit, haccepted, commitSpoke, AList.lookup_insert]

/-- A push that works on a graph has an entry to register. -/
structure PushJobs (state : State) : Prop where
  job : ∀ id call job, state.calls.lookup id = some call → call.job = some job →
    call.request ≠ none → ∃ name entry, job.accepted = some (name, entry) ∧ entry.call = id

theorem CallStep.pushJob (hstep : CallStep hub state id action updated core)
    (hjobs : PushJobs state) (hjob : updated.job = some job) (hpush : updated.request ≠ none) :
    ∃ name entry, job.accepted = some (name, entry) ∧ entry.call = id := by
  cases hstep with
  | refused hnew hcheck => cases hjob
  | admitted hnew hcheck => cases hjob
  | evictionStarted hnew => exact absurd rfl hpush
  | tooSoon hcall hphase hrequest hretry => cases hjob
  | prepared hcall hphase hrequest hretry htaken =>
      cases hjob
      rw [htaken]
      exact ⟨_, _, rfl, rfl⟩
  | deleted hcall hphase hrequest hevicted => exact absurd hrequest hpush
  | copied hcall hphase hrequest htaken => exact absurd hrequest hpush
  | built hcall hphase hgraph =>
      cases hjob
      refine hjobs.job id _ _ hcall ?_ hpush
      rw [Call.job, hphase]
  | won hcall hphase hgen hbudget => cases hjob
  | stale hcall hphase hgen =>
      rw [job_publishedPhase] at hjob
      cases hjob
  | tooLarge hcall hphase hgen hbudget =>
      rw [job_publishedPhase] at hjob
      cases hjob
  | finished hcall hphase =>
      rw [job_finishedPhase] at hjob
      cases hjob

theorem PushJobs.step (hjobs : PushJobs state) (hstep : Stepped hub state action next) :
    PushJobs next := by
  constructor
  intro id call job hcall hjob hpush
  rcases hstep.lookup_cases hcall with hold | ⟨core, hown, -⟩
  · exact hjobs.job id call job hold hjob hpush
  · exact hown.pushJob hjobs hjob hpush

/-! ## Answers -/

theorem Response.status_eq_noContent {response : Response} :
    response.status = 204 ↔ response = .accepted := by
  constructor
  · intro hstatus
    cases response with
    | accepted => rfl
    | undecodable error => cases error <;> cases hstatus
    | rejected reason devices edges => cases reason <;> cases hstatus
    | _ => cases hstatus
  · rintro rfl
    rfl

theorem checkPayload_ne_accepted {payload : SpokePayload} :
    checkPayload cfg order now request payload ≠ some .accepted := by
  intro haccepted
  simp only [checkPayload, Option.or_eq_some_iff, Option.map_eq_some_iff] at haccepted
  rcases haccepted with hsize | ⟨-, ⟨error, -, hvalid⟩ | ⟨-, hid | ⟨-, hcertificate | ⟨-, hcycle⟩⟩⟩⟩
  · unfold checkSize at hsize
    split_ifs at hsize
    cases hsize
  · cases hvalid
  · unfold checkSpokeID at hid
    split_ifs at hid <;> cases hid
  · unfold checkCertificate at hcertificate
    split at hcertificate
    · split_ifs at hcertificate
      cases hcertificate
    · cases hcertificate
  · unfold checkCycleAt at hcycle
    split_ifs at hcycle <;> cases hcycle

/-- No request is answered 204 by the checks. -/
theorem checkPush_ne_accepted {isLeader : Bool} :
    checkPush cfg isLeader order now request ≠ .error .accepted := by
  intro haccepted
  unfold checkPush at haccepted
  split_ifs at haccepted
  · cases haccepted
  · cases haccepted
  split at haccepted
  · next response hencoding =>
      cases haccepted
      unfold checkEncoding at hencoding
      split_ifs at hencoding <;> cases hencoding
  · cases haccepted
  · split at haccepted
    · next hpayload =>
        cases haccepted
        exact checkPayload_ne_accepted hpayload
    · cases haccepted

/-- The push has published its graph. -/
def PushCommitted (id : CallID) (state : State) : Prop :=
  ∃ call, state.calls.lookup id = some call ∧ call.request ≠ none ∧ Committed call

theorem not_committed_publishedPhase {reason : RejectReason} :
    ¬ Committed { call with phase := publishedPhase call job graph (some reason) } := by
  unfold Committed publishedPhase
  cases call.request <;> simp

/-- A push becomes committed when it publishes its graph. -/
theorem CallStep.committed_cases (hstep : CallStep hub state id action updated core)
    (hpush : updated.request ≠ none) (hcommitted : Committed updated) :
    PushCommitted id state ∨ ∃ call job, state.calls.lookup id = some call ∧
      call.request ≠ none ∧ call.job = some job ∧ publishing hub action state = some job := by
  cases hstep with
  | refused hnew hcheck =>
      rcases hcommitted with ⟨publication, hpublished⟩ | hanswered
      · cases hpublished
      · cases hanswered
        exact absurd hcheck checkPush_ne_accepted
  | evictionStarted hnew => exact absurd rfl hpush
  | deleted hcall hphase hrequest hevicted => exact absurd hrequest hpush
  | admitted _ _ | tooSoon _ _ _ _ | prepared _ _ _ _ _ | copied _ _ _ _ | built _ _ _ =>
      rcases hcommitted with ⟨publication, hpublished⟩ | hanswered
      · cases hpublished
      · cases hanswered
  | won hcall hphase hgen hbudget =>
      refine Or.inr ⟨_, _, hcall, hpush, ?_,
        publishing_eq_some.mpr ⟨_, _, _, _, rfl, hcall, hphase, hgen, hbudget⟩⟩
      rw [Call.job, hphase]
  | stale hcall hphase hgen => exact absurd hcommitted not_committed_publishedPhase
  | tooLarge hcall hphase hgen hbudget => exact absurd hcommitted not_committed_publishedPhase
  | finished hcall hphase => exact Or.inl ⟨_, hcall, hpush, Or.inl ⟨_, hphase⟩⟩

/-- A push that is committed in a step registers its entry in that step. -/
theorem Stepped.registering_of_committed (hstep : Stepped hub state action next)
    (hjobs : PushJobs state) (hbefore : ¬ PushCommitted id state) (hafter : PushCommitted id next) :
    ∃ name entry, registering hub action state = some (name, entry) ∧ entry.call = id := by
  obtain ⟨call, hcall, hpush, hcommitted⟩ := hafter
  rcases hstep.lookup_cases hcall with hold | ⟨core, hown, -⟩
  · exact absurd ⟨call, hold, hpush, hcommitted⟩ hbefore
  · rcases hown.committed_cases hpush hcommitted with
      hearlier | ⟨earlier, job, hlookup, hrequest, hjob, hpublishing⟩
    · exact absurd hearlier hbefore
    · obtain ⟨name, entry, haccepted, hid⟩ := hjobs.job id earlier job hlookup hjob hrequest
      refine ⟨name, entry, ?_, hid⟩
      rw [registering, hpublishing, Option.bind_some, haccepted]

/-! ## The interval -/

/-- What holds between the steps of a run with uncontested pushes. -/
structure Paced (hub : Setup) (monotonic : Bool) (state : State) : Prop where
  clocked : Clocked monotonic state
  spaced : Spaced hub state
  jobs : PushJobs state
  provenance : Provenance hub.cfg state

/-- The condition on the steps. -/
def Pacing (hub : Setup) (monotonic : Bool) (action : Action) (state : State) : Prop :=
  Uncontested hub action state ∧ action.ReadsClock monotonic

theorem Paced.step (hpositive : 0 < hub.cfg.hub.minPushInterval)
    (hpaced : Paced hub monotonic state) (hpacing : Pacing hub monotonic action state)
    (hstep : Stepped hub state action next) : Paced hub monotonic next :=
  ⟨hpaced.clocked.step hpacing.2 hstep, hpaced.spaced.step hpositive hpacing.1 hstep,
    hpaced.jobs.step hstep, hpaced.provenance.step hstep⟩

theorem paced_of_fresh (hfresh : Fresh state) : Paced hub monotonic state := by
  have hcalls : ∀ {id : CallID} {call : Call}, state.calls.lookup id ≠ some call := by
    intro id call hcall
    rw [hfresh.calls] at hcall
    cases hcall
  refine ⟨⟨fun _ _ _ hcall => absurd hcall hcalls, ?_⟩,
    fun _ _ _ _ _ _ hcall => absurd hcall hcalls, ⟨fun _ _ _ hcall => absurd hcall hcalls⟩,
    provenance_of_fresh hfresh⟩
  intro name entry hentry
  rw [hfresh.spokes] at hentry
  cases hentry

theorem run_paced {actions : List Action} (hpositive : 0 < hub.cfg.hub.minPushInterval)
    (hpaced : Paced hub monotonic state)
    (hpacing : Throughout (step hub) (Pacing hub monotonic) actions state)
    (hrun : run (step hub) actions state = some final) : Paced hub monotonic final :=
  run_invariant_throughout (fun _ _ _ hpacing hinvariant hstep =>
    hinvariant.step hpositive hpacing (stepped_of_step hstep)) hpaced hpacing hrun

/-- The registered entry of the spoke is the first one, or far enough from it. -/
def Apart (hub : Setup) (name : GoString) (first : SpokeEntry) (state : State) : Prop :=
  ∀ held, state.spokes.lookup name = some held →
    held = first ∨ hub.cfg.hub.minPushInterval ≤ held.lastSeen.sub first.lastSeen

/-- A push of a spoke whose entry is far enough from the first one is far enough
from it as well. -/
theorem Paced.le_sub (hpositive : 0 < hub.cfg.hub.minPushInterval)
    (hpaced : Paced hub monotonic state) (hfirst : first.lastSeen.mono.isSome = monotonic)
    (hapart : Apart hub name first state) (hname : name ∈ state.spokes)
    (hentry : entry.lastSeen.mono.isSome = monotonic)
    (hregistering : registering hub action state = some (name, entry)) :
    hub.cfg.hub.minPushInterval ≤ entry.lastSeen.sub first.lastSeen := by
  obtain ⟨held, hheld⟩ := Option.isSome_iff_exists.mp (AList.lookup_isSome.mpr hname)
  have hspaced := hpaced.spaced.registering hregistering hheld
  rcases hapart held hheld with rfl | hfar
  · exact hspaced
  · have hclock := hpaced.clocked.spokes name held hheld
    exact Time.le_sub_trans hpositive (hclock.trans hfirst.symm) (hentry.trans hfirst.symm) hfar
      hspaced

theorem Apart.step (hpositive : 0 < hub.cfg.hub.minPushInterval)
    (hpaced : Paced hub monotonic state) (hfirst : first.lastSeen.mono.isSome = monotonic)
    (hapart : Apart hub name first state) (hname : name ∈ state.spokes)
    (hnext : Paced hub monotonic next) (hstep : Stepped hub state action next) :
    Apart hub name first next := by
  intro held hheld
  rcases hstep.registering_of_changed hheld with hold | hregistering
  · exact hapart held hold
  · exact Or.inr (hpaced.le_sub hpositive hfirst hapart hname
      (hnext.clocked.spokes name held hheld) hregistering)

/-- From the step that registers an entry on, as long as the spoke stays
registered. -/
theorem run_apart (hpositive : 0 < hub.cfg.hub.minPushInterval) {actions : List Action}
    (hpaced : Paced hub monotonic state) (hentry : state.spokes.lookup name = some first)
    (hpacing : Throughout (step hub) (Pacing hub monotonic) actions state)
    (hname : Throughout (step hub) (fun _ state => name ∈ state.spokes) actions state)
    (hrun : run (step hub) actions state = some final) : Apart hub name first final := by
  have hfirst := hpaced.clocked.spokes name first hentry
  have hinvariant : Paced hub monotonic final ∧ Apart hub name first final := by
    refine @run_invariant_throughout _ _ (step hub) _
      (fun state => Paced hub monotonic state ∧ Apart hub name first state)
      (fun action state next hcondition hinvariant hstep => ?_) _ _ _ ?_ (hpacing.and hname) hrun
    · have hcase := stepped_of_step hstep
      have hnext := hinvariant.1.step hpositive hcondition.1 hcase
      exact ⟨hnext, hinvariant.2.step hpositive hinvariant.1 hfirst hcondition.2 hnext hcase⟩
    · refine ⟨hpaced, ?_⟩
      intro held hheld
      exact Or.inl (Option.some.inj (hheld.symm.trans hentry))
  exact hinvariant.2

/-- A push that was answered 204 was registered in one of the steps of the run,
with the payload of its request. -/
theorem takes_of_accepted {actions : List Action} (hpositive : 0 < hub.cfg.hub.minPushInterval)
    (hfresh : Fresh start) (hpacing : Throughout (step hub) (Pacing hub monotonic) actions start)
    (hrun : run (step hub) actions start = some final) (hcall : final.calls.lookup id = some call)
    (hrequest : call.request = some request) (hphase : call.phase = .answered .accepted) :
    ∃ front action state name entry, Takes (step hub) actions start front action state ∧
      registering hub action state = some (name, entry) ∧ entry.call = id ∧
      ∃ wire, request.body = .ok wire ∧ wire.payload = entry.payload ∧
        entry.payload.spokeID = name := by
  have hstart : ¬ PushCommitted id start := by
    rintro ⟨found, hfound, -⟩
    rw [hfresh.calls] at hfound
    cases hfound
  have hfinal : PushCommitted id final := by
    refine ⟨call, hcall, ?_, Or.inr hphase⟩
    rw [hrequest]
    exact Option.some_ne_none request
  obtain ⟨front, action, state, next, htakes, hnext, hbefore, hafter⟩ :=
    exists_takes hrun hstart hfinal
  obtain ⟨after, back, rfl, hsame, hrest⟩ := htakes.run_after hrun
  cases hnext.symm.trans hsame
  have hpaced : Paced hub monotonic state :=
    run_paced hpositive (paced_of_fresh hfresh) (throughout_append.mp hpacing).1 htakes.2
  have hstep := stepped_of_step hnext
  obtain ⟨name, entry, hregistering, rfl⟩ :=
    hstep.registering_of_committed hpaced.jobs hbefore hafter
  refine ⟨front, action, state, name, entry, htakes, hregistering, rfl, ?_⟩
  obtain ⟨found, hfound, origin, horigin, hname, hadmitted⟩ :=
    (hpaced.provenance.step hstep).spokes name entry (hstep.lookup_of_registering hregistering)
  -- the call that has registered the entry still has its request at the end
  obtain ⟨later, hlater, hkept, -⟩ := run_persists hrest hfound
  cases hlater.symm.trans hcall
  cases hrequest.symm.trans (hkept.trans horigin)
  obtain ⟨wire, hbody, hwire⟩ := hadmitted.body
  exact ⟨wire, hbody, hwire, hname⟩

/-- Two registrations of a spoke that stays registered between them. -/
theorem le_sub_of_takes {actions front middle : List Action} {first second : Action}
    {earlier later : State} {laterEntry : SpokeEntry} (hpositive : 0 < hub.cfg.hub.minPushInterval)
    (hfresh : Fresh start) (hpacing : Throughout (step hub) (Pacing hub monotonic) actions start)
    (hrun : run (step hub) actions start = some final)
    (hfirst : Takes (step hub) actions start front first earlier)
    (hsecond : Takes (step hub) actions start (front ++ first :: middle) second later)
    (hregistering : registering hub first earlier = some (name, entry))
    (hlast : registering hub second later = some (name, laterEntry))
    (hnext : step hub first earlier = some next)
    (hname : Throughout (step hub) (fun _ state => name ∈ state.spokes) (middle ++ [second]) next) :
    hub.cfg.hub.minPushInterval ≤ laterEntry.lastSeen.sub entry.lastSeen := by
  obtain ⟨after, back, hactions, hafter, -⟩ := hsecond.run_after hrun
  rw [hactions, throughout_append] at hpacing
  obtain ⟨hpacing, hpacingLast⟩ := hpacing
  have hmiddle : run (step hub) middle next = some later := by
    have hreached := hsecond.2
    rw [run_append, hfirst.2, Option.bind_some] at hreached
    obtain ⟨found, hfound, hrest⟩ := run_cons_eq_some.mp hreached
    cases hfound.symm.trans hnext
    exact hrest
  have hlater := run_paced hpositive (paced_of_fresh hfresh) hpacing hsecond.2
  have hdone := hlater.step hpositive (hpacingLast later hsecond.2).1 (stepped_of_step hafter)
  have hlaterEntry := hdone.clocked.spokes name laterEntry
    ((stepped_of_step hafter).lookup_of_registering hlast)
  obtain ⟨hpacingFront, hpacingRest⟩ := throughout_append.mp hpacing
  have hearlier := run_paced hpositive (paced_of_fresh hfresh) hpacingFront hfirst.2
  obtain ⟨hpacingFirst, hpacingMiddle⟩ := hpacingRest earlier hfirst.2
  have hpaced := hearlier.step hpositive hpacingFirst (stepped_of_step hnext)
  have hentry := (stepped_of_step hnext).lookup_of_registering hregistering
  obtain ⟨hnameMiddle, hnameLast⟩ := throughout_append.mp hname
  have hapart := run_apart hpositive hpaced hentry (hpacingMiddle next hnext) hnameMiddle hmiddle
  exact hlater.le_sub hpositive (hpaced.clocked.spokes name entry hentry) hapart
    (hnameLast later hmiddle).1 hlaterEntry hlast

/-- With a positive interval, and as long as no push is published while a younger
push of the same spoke has already passed the check: every push answered 204 was
registered in some step, and two pushes registered for one spoke, with the spoke
registered all the time in between, are at least the interval apart. -/
theorem accepted_pushes_spaced (hub : Setup) (hpositive : 0 < hub.cfg.hub.minPushInterval)
    (monotonic : Bool) (start final : State) (actions : List Action) (hfresh : Fresh start)
    (hclock : ∀ action ∈ actions, action.ReadsClock monotonic)
    (huncontested : Throughout (step hub) (Uncontested hub) actions start)
    (hrun : run (step hub) actions start = some final) :
    (∀ id call request response, final.calls.lookup id = some call →
      call.request = some request → call.phase = .answered response → response.status = 204 →
      ∃ front action state name entry, Takes (step hub) actions start front action state ∧
        registering hub action state = some (name, entry) ∧ entry.call = id ∧
        ∃ wire, request.body = .ok wire ∧ wire.payload = entry.payload ∧
          entry.payload.spokeID = name) ∧
    ∀ front middle first second earlier later next name entry laterEntry,
      Takes (step hub) actions start front first earlier →
      Takes (step hub) actions start (front ++ first :: middle) second later →
      registering hub first earlier = some (name, entry) →
      registering hub second later = some (name, laterEntry) →
      step hub first earlier = some next →
      Throughout (step hub) (fun _ state => name ∈ state.spokes) (middle ++ [second]) next →
      hub.cfg.hub.minPushInterval ≤ laterEntry.lastSeen.sub entry.lastSeen := by
  have hpacing : Throughout (step hub) (Pacing hub monotonic) actions start :=
    huncontested.and (throughout_of_forall_mem (fun action hmem _ => hclock action hmem) start)
  constructor
  · intro id call request response hcall hrequest hphase hstatus
    rw [Response.status_eq_noContent] at hstatus
    subst hstatus
    exact takes_of_accepted hpositive hfresh hpacing hrun hcall hrequest hphase
  · intro front middle first second earlier later next name entry laterEntry
    exact le_sub_of_takes hpositive hfresh hpacing hrun

/-- A hub that takes one push a minute. -/
def minuteHub : Setup :=
  ⟨{ plainConfig with hub := { plainConfig.hub with minPushInterval := Time.minute } }, []⟩

/-- A push of the spoke "east" arrives, at a reading of the running clock. -/
def eastArrives (id : CallID) (seconds : Int) : Action :=
  .receive id (pushRequest (str "east") (str "sw1") 63900000000) .insertion
    ⟨seconds * Time.second, some (seconds * Time.second)⟩

/-- The next step of a push. -/
def goOn (id : CallID) : Action := .advance id .insertion fun _ => Time.zero

/-- The steps before the publication of the first push, between the publications
of both, and after that of the second. -/
structure Schedule where
  front : List Action
  middle : List Action
  back : List Action

def Schedule.actions (schedule : Schedule) : List Action :=
  schedule.front ++ goOn 1 :: schedule.middle ++ goOn 2 :: schedule.back

/-- Both pushes are published and answered 204, and the spoke stays registered
in between. -/
structure BothAccepted (schedule : Schedule) (earlier next later final : State)
    (entry laterEntry : SpokeEntry) : Prop where
  takesFirst : Takes (step minuteHub) schedule.actions freshHub schedule.front (goOn 1) earlier
  stepFirst : step minuteHub (goOn 1) earlier = some next
  takesSecond : Takes (step minuteHub) schedule.actions freshHub
    (schedule.front ++ goOn 1 :: schedule.middle) (goOn 2) later
  runs : run (step minuteHub) schedule.actions freshHub = some final
  registersFirst : registering minuteHub (goOn 1) earlier = some (str "east", entry)
  registersSecond : registering minuteHub (goOn 2) later = some (str "east", laterEntry)
  staysRegistered : Throughout (step minuteHub) (fun _ state => str "east" ∈ state.spokes)
    (schedule.middle ++ [goOn 2]) next
  answersFirst : (final.calls.lookup 1).map Call.phase = some (.answered .accepted)
  answersSecond : (final.calls.lookup 2).map Call.phase = some (.answered .accepted)

/-- Runs a schedule, and tests the entries of the two pushes. -/
def Schedule.test (schedule : Schedule) (condition : SpokeEntry → SpokeEntry → Bool) :
    Option Bool :=
  (run (step minuteHub) schedule.front freshHub).bind fun earlier =>
    (step minuteHub (goOn 1) earlier).bind fun next =>
      (run (step minuteHub) schedule.middle next).bind fun later =>
        (run (step minuteHub) (goOn 2 :: schedule.back) later).bind fun final =>
          (registering minuteHub (goOn 1) earlier).bind fun first =>
            (registering minuteHub (goOn 2) later).map fun second =>
              condition first.2 second.2 &&
                decide (first.1 = str "east" ∧ second.1 = str "east" ∧
                  Throughout (step minuteHub) (fun _ state => str "east" ∈ state.spokes)
                    (schedule.middle ++ [goOn 2]) next ∧
                  (final.calls.lookup 1).map Call.phase = some (.answered .accepted) ∧
                  (final.calls.lookup 2).map Call.phase = some (.answered .accepted))

theorem Schedule.bothAccepted_of_test {schedule : Schedule}
    {condition : SpokeEntry → SpokeEntry → Bool} (htest : schedule.test condition = some true) :
    ∃ earlier next later final entry laterEntry,
      BothAccepted schedule earlier next later final entry laterEntry ∧
        condition entry laterEntry = true := by
  obtain ⟨earlier, hearlier, htest⟩ := Option.bind_eq_some_iff.mp htest
  obtain ⟨next, hnext, htest⟩ := Option.bind_eq_some_iff.mp htest
  obtain ⟨later, hlater, htest⟩ := Option.bind_eq_some_iff.mp htest
  obtain ⟨final, hfinal, htest⟩ := Option.bind_eq_some_iff.mp htest
  obtain ⟨⟨name, entry⟩, hentry, htest⟩ := Option.bind_eq_some_iff.mp htest
  obtain ⟨⟨laterName, laterEntry⟩, hlaterEntry, htest⟩ := Option.map_eq_some_iff.mp htest
  obtain ⟨hcondition, hrest⟩ := Bool.and_eq_true_iff.mp htest
  obtain ⟨rfl, rfl, hregistered, hfirst, hsecond⟩ := of_decide_eq_true hrest
  have hmiddle : run (step minuteHub) (schedule.front ++ goOn 1 :: schedule.middle) freshHub =
      some later := by
    rw [run_append, hearlier]
    exact run_cons_eq_some.mpr ⟨next, hnext, hlater⟩
  refine ⟨earlier, next, later, final, entry, laterEntry, ⟨⟨?_, hearlier⟩, hnext,
    ⟨?_, hmiddle⟩, ?_, hentry, hlaterEntry, hregistered, hfirst, hsecond⟩, hcondition⟩
  · exact ⟨schedule.middle ++ goOn 2 :: schedule.back, by simp [Schedule.actions]⟩
  · exact ⟨schedule.back, by simp [Schedule.actions]⟩
  · rw [Schedule.actions, run_append, hmiddle]
    exact hfinal

/-- One push after the other. -/
def orderlyPushes : Schedule where
  front := [eastArrives 1 63900000001, goOn 1, goOn 1]
  middle := [goOn 1, eastArrives 2 63900000100, goOn 2, goOn 2]
  back := [goOn 2]

theorem orderlyPushes_spaced :
    ∃ earlier next later final entry laterEntry,
      BothAccepted orderlyPushes earlier next later final entry laterEntry ∧
        minuteHub.cfg.hub.minPushInterval ≤ laterEntry.lastSeen.sub entry.lastSeen := by
  have htest : orderlyPushes.test (fun _ _ => true) = some true := by decide
  obtain ⟨earlier, next, later, final, entry, laterEntry, hboth, -⟩ :=
    Schedule.bothAccepted_of_test htest
  have huncontested : Throughout (step minuteHub) (Uncontested minuteHub) orderlyPushes.actions
      freshHub := by
    decide
  have hclock : ∀ action ∈ orderlyPushes.actions, action.ReadsClock true := by
    simp [Schedule.actions, orderlyPushes, eastArrives, goOn, Action.ReadsClock]
  refine ⟨earlier, next, later, final, entry, laterEntry, hboth, ?_⟩
  exact (accepted_pushes_spaced minuteHub (by decide) true freshHub final _ fresh_freshHub hclock
    huncontested hboth.runs).2 _ _ _ _ earlier later next _ entry laterEntry hboth.takesFirst
    hboth.takesSecond hboth.registersFirst hboth.registersSecond hboth.stepFirst
    hboth.staysRegistered

/-- The second push passes the check before the first is published. -/
def racingPushes : Schedule where
  front := [eastArrives 1 63900000001, goOn 1, eastArrives 2 63900000002, goOn 2, goOn 1]
  middle := [goOn 1, goOn 2]
  back := [goOn 2]

/-- Two pushes of one spoke arrive a second apart, and both are accepted by a hub
that takes one push a minute. -/
theorem racingPushes_too_close :
    0 < minuteHub.cfg.hub.minPushInterval ∧ Fresh freshHub ∧
      ∃ earlier next later final entry laterEntry,
        BothAccepted racingPushes earlier next later final entry laterEntry ∧
          laterEntry.lastSeen.sub entry.lastSeen = Time.second ∧
          Time.second < minuteHub.cfg.hub.minPushInterval := by
  refine ⟨by decide, fresh_freshHub, ?_⟩
  have htest : racingPushes.test (fun entry laterEntry =>
      decide (laterEntry.lastSeen.sub entry.lastSeen = Time.second)) = some true := by
    decide
  obtain ⟨earlier, next, later, final, entry, laterEntry, hboth, hclose⟩ :=
    Schedule.bothAccepted_of_test htest
  exact ⟨earlier, next, later, final, entry, laterEntry, hboth, of_decide_eq_true hclose,
    by decide⟩

end TopologyExporter.Federation
