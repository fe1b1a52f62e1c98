import TopologyExporter.Federation.RateLimit

/-! # Replaced entries

The pushes of one spoke replace each other in the order of their generations,
that is in the order in which they have copied the registry. Nothing compares
the times of their cycles: each is held against the clock of the hub alone, so a
push can bring an older cycle than the one it replaces, as old as the clock
allows.
-/

namespace TopologyExporter.Federation

open Go Discovery Transition

variable {hub : Setup} {action : Action} {state next : State}

theorem Stepped.lastPublishedGen_of_publishing (hstep : Stepped hub state action next) {job : Job}
    (hpublishing : publishing hub action state = some job) :
    next.lastPublishedGen = job.copy.gen := by
  obtain ⟨id, updated, graph, unmatched, rfl⟩ := hstep.eq_of_publishing hpublishing
  obtain ⟨spokes, up, lastPush, stale, live, heq⟩ := commit_eq state job graph unmatched
  rw [heq]
  rfl

/-- What is registered was published by a job in one of the steps before, under a
generation that is not younger than the last one. -/
theorem takes_of_registered {actions : List Action} {start : State} {name : GoString}
    {entry : SpokeEntry} (hfresh : Fresh start)
    (hrun : run (step hub) actions start = some state)
    (hentry : state.spokes.lookup name = some entry) :
    ∃ front action earlier job, Takes (step hub) actions start front action earlier ∧
      publishing hub action earlier = some job ∧ job.accepted = some (name, entry) ∧
      job.copy.gen ≤ state.lastPublishedGen := by
  have hstart : start.spokes.lookup name ≠ some entry := by
    rw [hfresh.spokes]
    exact Option.some_ne_none entry ∘ Eq.symm
  obtain ⟨front, action, earlier, after, htakes, hafter, hbefore, hregistered⟩ :=
    @exists_takes _ _ (step hub) (fun state => state.spokes.lookup name = some entry) _ _ _ hrun
      hstart hentry
  have hstep := stepped_of_step hafter
  have hregistering : registering hub action earlier = some (name, entry) :=
    (hstep.registering_of_changed hregistered).resolve_left hbefore
  obtain ⟨job, hjob, haccepted⟩ := Option.bind_eq_some_iff.mp hregistering
  refine ⟨front, action, earlier, job, htakes, hjob, haccepted, ?_⟩
  -- from the publication on the last generation only grows
  obtain ⟨found, back, -, hfound, hrest⟩ := htakes.run_after hrun
  cases hafter.symm.trans hfound
  have hgen : job.copy.gen ≤ after.lastPublishedGen :=
    (hstep.lastPublishedGen_of_publishing hjob).ge
  exact @run_invariant _ _ (step hub) (fun state => job.copy.gen ≤ state.lastPublishedGen)
    (fun _ _ _ hle hstep => hle.trans (stepped_of_step hstep).lastPublishedGen_le) _ _ _ hgen
    hrest

/-- The time of a registered entry was checked when its push arrived. -/
theorem Provenance.timely (hprovenance : Provenance hub.cfg state) {name : GoString}
    {entry : SpokeEntry} (hentry : state.spokes.lookup name = some entry) :
    Timely hub.cfg entry.payload entry.lastSeen := by
  obtain ⟨call, -, request, -, -, hadmitted⟩ := hprovenance.spokes name entry hentry
  exact hadmitted.timely

/-- How far back a push can take its spoke. -/
theorem Timely.rollback_le {cfg : FederationConfig} {payload previous : SpokePayload}
    {now lastSeen : Time} (hentry : Timely cfg payload now)
    (hprevious : Timely cfg previous lastSeen) (htimeout : cfg.spokeTimeout < Strconv.maxInt) :
    previous.cycleAt.wall - payload.cycleAt.wall ≤
      cfg.spokeTimeout + 5 * Time.minute + (lastSeen.wall - now.wall) := by
  have hstale := hentry.stale htimeout
  have hfuture := hprevious.future
  omega

/-- In every run, a push that replaces the entry of a registered spoke has a
higher generation than the push that has registered the entry. Its cycle was
neither in the future nor stale when it arrived, and so is older than the
replaced one by no more than the two limits allow. -/
theorem replacing_push_has_higher_generation (hub : Setup) (start final : State)
    (actions : List Action) (hfresh : Fresh start)
    (hrun : run (step hub) actions start = some final) (front : List Action) (action : Action)
    (before : State) (htakes : Takes (step hub) actions start front action before) (job : Job)
    (hjob : publishing hub action before = some job) (name : GoString)
    (entry previous : SpokeEntry) (haccepted : job.accepted = some (name, entry))
    (hprevious : before.spokes.lookup name = some previous) :
    (∃ earlier prior state older, Takes (step hub) front start earlier prior state ∧
        publishing hub prior state = some older ∧ older.accepted = some (name, previous) ∧
        older.copy.gen < job.copy.gen) ∧
      Timely hub.cfg entry.payload entry.lastSeen ∧
      (hub.cfg.spokeTimeout < Strconv.maxInt →
        previous.payload.cycleAt.wall - entry.payload.cycleAt.wall ≤
          hub.cfg.spokeTimeout + 5 * Time.minute +
            (previous.lastSeen.wall - entry.lastSeen.wall)) := by
  obtain ⟨after, back, -, hafter, -⟩ := htakes.run_after hrun
  have hstep := stepped_of_step hafter
  have hprovenance : Provenance hub.cfg before :=
    run_invariant (fun _ _ _ hinvariant hstep => hinvariant.step (stepped_of_step hstep))
      (provenance_of_fresh hfresh) htakes.2
  have hregistering : registering hub action before = some (name, entry) := by
    rw [registering, hjob, Option.bind_some, haccepted]
  have htimely : Timely hub.cfg entry.payload entry.lastSeen :=
    (hprovenance.step hstep).timely (hstep.lookup_of_registering hregistering)
  refine ⟨?_, htimely, htimely.rollback_le (hprovenance.timely hprevious)⟩
  obtain ⟨earlier, prior, state, older, hearlier, holder, hbrought, hle⟩ :=
    takes_of_registered hfresh htakes.2 hprevious
  obtain ⟨-, -, -, -, -, -, -, hgen, -⟩ := publishing_eq_some.mp hjob
  exact ⟨earlier, prior, state, older, hearlier, holder, hbrought, hle.trans_lt hgen⟩

/-- A push of the spoke "east", and after its answer a second one whose cycle is
older by a hundred seconds, up to its publication. -/
def delayedRun : List Action :=
  pushSteps 1 (pushRequest (str "east") (str "sw2") 63900000100) 63900000101 ++
    .receive 2 (pushRequest (str "east") (str "sw1") 63900000000) .insertion
      (atSecond 63900000102) :: advances 2 2

theorem delayed_push_has_higher_generation :
    ∃ final before job entry previous earlier prior state older,
      run (step plainHub) (delayedRun ++ [goOn 2]) freshHub = some final ∧
      publishing plainHub (goOn 2) before = some job ∧
      job.accepted = some (str "east", entry) ∧
      before.spokes.lookup (str "east") = some previous ∧
      Takes (step plainHub) delayedRun freshHub earlier prior state ∧
      publishing plainHub prior state = some older ∧
      older.accepted = some (str "east", previous) ∧ older.copy.gen < job.copy.gen := by
  have hrun : ((run (step plainHub) delayedRun freshHub).bind fun before =>
      (step plainHub (goOn 2) before).bind fun _ =>
        (publishing plainHub (goOn 2) before).bind fun job => job.accepted.bind fun accepted =>
          (before.spokes.lookup (str "east")).map fun _ => decide (accepted.1 = str "east")) =
      some true := by
    decide
  obtain ⟨before, hbefore, hrest⟩ := Option.bind_eq_some_iff.mp hrun
  obtain ⟨final, hfinal, hrest⟩ := Option.bind_eq_some_iff.mp hrest
  obtain ⟨job, hjob, hrest⟩ := Option.bind_eq_some_iff.mp hrest
  obtain ⟨⟨name, entry⟩, haccepted, hrest⟩ := Option.bind_eq_some_iff.mp hrest
  obtain ⟨previous, hprevious, hname⟩ := Option.map_eq_some_iff.mp hrest
  cases of_decide_eq_true hname
  have hwhole : run (step plainHub) (delayedRun ++ [goOn 2]) freshHub = some final := by
    rw [run_append, hbefore]
    exact run_cons_eq_some.mpr ⟨final, hfinal, rfl⟩
  obtain ⟨⟨earlier, prior, state, older, hreplaced⟩, -⟩ :=
    replacing_push_has_higher_generation plainHub freshHub final (delayedRun ++ [goOn 2])
      fresh_freshHub hwhole delayedRun (goOn 2) before ⟨List.prefix_rfl, hbefore⟩ job hjob
      (str "east") entry previous haccepted hprevious
  exact ⟨final, before, job, entry, previous, earlier, prior, state, older, hwhole, hjob, haccepted,
    hprevious, hreplaced⟩

/-- The second push is accepted, and takes the spoke and the published graph back
to the older cycle. -/
theorem delayed_push_rolls_back :
    Fresh freshHub ∧ ∃ before after final previous entry,
      run (step plainHub) delayedRun freshHub = some before ∧
      step plainHub (goOn 2) before = some after ∧ step plainHub (goOn 2) after = some final ∧
      (final.calls.lookup 2).map Call.phase = some (.answered .accepted) ∧
      registering plainHub (goOn 2) before = some (str "east", entry) ∧
      before.spokes.lookup (str "east") = some previous ∧
      before.topology.devices.map Device.id = [str "sw2"] ∧
      after.spokes.lookup (str "east") = some entry ∧
      after.topology.devices.map Device.id = [str "sw1"] ∧
      entry.payload.cycleAt.wall < previous.payload.cycleAt.wall := by
  refine ⟨fresh_freshHub, ?_⟩
  have hrun : ((run (step plainHub) delayedRun freshHub).bind fun before =>
      (step plainHub (goOn 2) before).bind fun after =>
        (step plainHub (goOn 2) after).bind fun final =>
          (before.spokes.lookup (str "east")).bind fun previous =>
            (after.spokes.lookup (str "east")).map fun entry =>
              decide ((final.calls.lookup 2).map Call.phase = some (.answered .accepted) ∧
                registering plainHub (goOn 2) before = some (str "east", entry) ∧
                before.topology.devices.map Device.id = [str "sw2"] ∧
                after.topology.devices.map Device.id = [str "sw1"] ∧
                entry.payload.cycleAt.wall < previous.payload.cycleAt.wall)) = some true := by
    decide
  obtain ⟨before, hbefore, hrest⟩ := Option.bind_eq_some_iff.mp hrun
  obtain ⟨after, hafter, hrest⟩ := Option.bind_eq_some_iff.mp hrest
  obtain ⟨final, hfinal, hrest⟩ := Option.bind_eq_some_iff.mp hrest
  obtain ⟨previous, hprevious, hrest⟩ := Option.bind_eq_some_iff.mp hrest
  obtain ⟨entry, hentry, hrest⟩ := Option.map_eq_some_iff.mp hrest
  obtain ⟨hanswered, hregistering, hold, hnew, hearlier⟩ := of_decide_eq_true hrest
  exact ⟨before, after, final, previous, entry, hbefore, hafter, hfinal, hanswered, hregistering,
    hprevious, hold, hentry, hnew, hearlier⟩

end TopologyExporter.Federation
