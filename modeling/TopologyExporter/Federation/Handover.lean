import TopologyExporter.Federation.Generations
import TopologyExporter.Snapshot.Writers

/-! # Handing graphs to the snapshot writer

A call publishes its graph under the lock and queues it for the writer after the
lock is released. Between the two another call may publish a newer graph and
queue it first. The writer takes what is queued, so the graphs are written in the
order of the queue, which is the order of the generations only if the calls queue
their graphs in the order they published them.
-/

namespace TopologyExporter.Federation

open Go Utf8 Discovery Transition Snapshot

variable {hub : Setup} {action : Action} {state next : State}

/-- The graph that an action hands to the write function. -/
def handing (action : Action) (state : State) : Option Publication :=
  match action, state.snapshotCh, state.writing with
  | .takeSnapshot, some publication, none => some publication
  | _, _, _ => none

/-- The graph that an action queues, when there is room. -/
def enqueuing (action : Action) (state : State) : Option Publication :=
  match action.call.bind state.calls.lookup with
  | some ⟨_, _, .published publication⟩ => some publication
  | _ => none

/-- Newer graphs that were published are not queued yet. -/
def EnqueuesInOrder (action : Action) (state : State) : Prop :=
  ∀ publication ∈ enqueuing action state, ∀ newer ∈ state.published,
    publication.copy.gen < newer.copy.gen →
      ∃ entry ∈ state.calls.entries, entry.2.phase = .published newer

instance decidableEnqueuesInOrder (action : Action) (state : State) :
    Decidable (EnqueuesInOrder action state) :=
  inferInstanceAs (Decidable (∀ publication ∈ enqueuing action state, _))

/-! ## Between the publication and the queue -/

/-- The call has published the graph and not yet queued it. -/
def Pending (state : State) (id : CallID) (publication : Publication) : Prop :=
  ∃ call, state.calls.lookup id = some call ∧ call.phase = .published publication

/-- The graph was published, and no call has still to queue it. -/
def Enqueued (state : State) (publication : Publication) : Prop :=
  publication ∈ state.published ∧
    ∀ id other, Pending state id other → other.copy.gen ≠ publication.copy.gen

variable {call updated : Call} {publication : Publication} {core : State} {id : CallID}
  {history : List Publication}

theorem publishedPhase_ne_published {job : Job} {graph : Discovery.Graph} {reason : RejectReason} :
    publishedPhase call job graph (some reason) ≠ .published publication := by
  unfold publishedPhase
  cases call.request <;> simp

theorem finishedPhase_ne_published : finishedPhase call ≠ .published publication := by
  unfold finishedPhase
  cases call.request <;> simp

theorem CallStep.published_phase (hstep : CallStep hub state id action updated core)
    (hphase : updated.phase = .published publication) :
    state.lastPublishedGen < publication.copy.gen ∧
      core.published = state.published ++ [publication] := by
  cases hstep with
  | evictionStarted hnew => split_ifs at hphase
  | deleted hcall hother hrequest hevicted => split_ifs at hphase
  | @won _ _ _ job graph unmatched hcall hother hgen hbudget =>
      cases hphase
      obtain ⟨spokes, up, lastPush, stale, live, heq⟩ := commit_eq state job graph unmatched
      rw [heq]
      exact ⟨hgen, rfl⟩
  | stale hcall hother hgen => exact absurd hphase publishedPhase_ne_published
  | tooLarge hcall hother hgen hbudget => exact absurd hphase publishedPhase_ne_published
  | finished hcall hother => exact absurd hphase finishedPhase_ne_published
  | _ => cases hphase

/-- A graph was pending before, or is published by this step. -/
theorem Stepped.pending_cases (hstep : Stepped hub state action next)
    (hpending : Pending next id publication) :
    Pending state id publication ∨
      action.call = some id ∧ state.lastPublishedGen < publication.copy.gen ∧
        next.published = state.published ++ [publication] := by
  obtain ⟨call, hcall, hphase⟩ := hpending
  rcases hstep.lookup_cases hcall with hold | ⟨core, hown, rfl⟩
  · exact Or.inl ⟨call, hold, hphase⟩
  · exact Or.inr ⟨hown.action_call, hown.published_phase hphase⟩

theorem Stepped.mem_published (hstep : Stepped hub state action next)
    (hmem : publication ∈ state.published) : publication ∈ next.published := by
  rcases hstep.published_cases with ⟨hsame, -, -⟩ | ⟨_, _, _, _, _, -, -, -, hadded, -, -⟩
  · rw [hsame]
    exact hmem
  · rw [hadded]
    exact List.mem_append_left _ hmem

theorem Enqueued.step (henqueued : Enqueued state publication) (hordered : Ordered state)
    (hstep : Stepped hub state action next) : Enqueued next publication := by
  refine ⟨hstep.mem_published henqueued.1, ?_⟩
  intro id other hpending
  rcases hstep.pending_cases hpending with hold | ⟨-, hgen, -⟩
  · exact henqueued.2 id other hold
  · exact ((hordered.last publication henqueued.1).trans_lt hgen).ne'

theorem writeSnapshotAsync_queue (hub : Setup) (publication : Publication) (state : State) :
    (writeSnapshotAsync hub publication state).snapshotCh = state.snapshotCh ∨
      (writeSnapshotAsync hub publication state).snapshotCh = some publication := by
  unfold writeSnapshotAsync
  split_ifs
  · exact Or.inl rfl
  · split
    · exact Or.inr rfl
    · exact Or.inl rfl

/-- The step of a call changes the queue only by filling it. -/
theorem CallStep.queue_cases (hstep : CallStep hub state id action updated core) :
    core.snapshotCh = state.snapshotCh ∨
      ∃ call publication, state.calls.lookup id = some call ∧
        call.phase = .published publication ∧ updated.phase = finishedPhase call ∧
        core.published = state.published ∧ core.snapshotCh = some publication := by
  cases hstep with
  | refused hnew hcheck =>
      obtain ⟨counters, heq⟩ := countRefusal_eq state _
      rw [heq]
      exact Or.inl rfl
  | deleted hcall hphase hrequest hevicted =>
      obtain ⟨spokes, up, lastPush, heq⟩ := foldl_deleteSpoke_eq _ state
      rw [heq]
      exact Or.inl rfl
  | won hcall hphase hgen hbudget =>
      obtain ⟨spokes, up, lastPush, stale, live, heq⟩ := commit_eq state _ _ _
      rw [heq]
      exact Or.inl rfl
  | @finished _ _ call publication hcall hphase =>
      rcases writeSnapshotAsync_queue hub publication state with hsame | hqueued
      · exact Or.inl hsame
      · obtain ⟨queue, drops, heq⟩ := writeSnapshotAsync_eq hub publication state
        refine Or.inr ⟨call, publication, hcall, hphase, rfl, ?_, hqueued⟩
        rw [heq]
  | _ => exact Or.inl rfl

theorem CallStep.handing_eq (hstep : CallStep hub state id action updated core) :
    handing action state = none := by
  cases hstep <;> rfl

theorem enqueuing_eq (haction : action.call = some id) (hcall : state.calls.lookup id = some call)
    (hphase : call.phase = .published publication) : enqueuing action state = some publication := by
  obtain ⟨request, evicted, phase⟩ := call
  cases hphase
  simp only [enqueuing, haction, Option.bind_some, hcall]

/-- What a step does to the queue: nothing, or a call fills it, or the writer
empties it. -/
theorem Stepped.queue_cases (hstep : Stepped hub state action next) :
    (next.snapshotCh = state.snapshotCh ∧ handing action state = none) ∨
      (∃ id publication, action.call = some id ∧ Pending state id publication ∧
        enqueuing action state = some publication ∧ (∀ other, ¬ Pending next id other) ∧
        next.published = state.published ∧ next.snapshotCh = some publication ∧
        handing action state = none) ∨
      next.snapshotCh = none ∧ action = .takeSnapshot := by
  cases hstep with
  | @call id _ updated core hcall =>
      rcases hcall.queue_cases with hsame | ⟨call, publication, hlookup, hphase, hupdated,
        hpublished, hqueue⟩
      · exact Or.inl ⟨hsame, hcall.handing_eq⟩
      · refine Or.inr (Or.inl ⟨id, publication, hcall.action_call, ⟨call, hlookup, hphase⟩,
          enqueuing_eq hcall.action_call hlookup hphase, ?_, hpublished, hqueue,
          hcall.handing_eq⟩)
        rintro other ⟨found, hfound, hother⟩
        rw [lookup_setCall, Option.some.injEq] at hfound
        rw [← hfound, hupdated] at hother
        exact finishedPhase_ne_published hother
  | snapshotTaken hqueued hidle => exact Or.inr (Or.inr ⟨rfl, rfl⟩)
  | snapshotDropped hqueued hbusy => exact Or.inr (Or.inr ⟨rfl, rfl⟩)
  | _ => exact Or.inl ⟨rfl, rfl⟩

/-! ## The order of the graphs -/

/-- The graphs handed over so far increase, and what is queued comes after them. -/
structure InOrder (history : List Publication) (state : State) : Prop where
  ordered : Ordered state
  pending : ∀ id publication, Pending state id publication → publication ∈ state.published
  unique : ∀ first second publication other, Pending state first publication →
    Pending state second other → publication.copy.gen = other.copy.gen → first = second
  handed : ∀ publication ∈ history, Enqueued state publication
  queued : ∀ publication, state.snapshotCh = some publication → Enqueued state publication ∧
    ∀ earlier ∈ history, earlier.copy.gen < publication.copy.gen
  increasing : history.Pairwise fun earlier later => earlier.copy.gen < later.copy.gen

theorem InOrder.pending_step (horder : InOrder history state)
    (hstep : Stepped hub state action next) :
    ∀ id publication, Pending next id publication → publication ∈ next.published := by
  intro id publication hpending
  rcases hstep.pending_cases hpending with hold | ⟨-, -, hadded⟩
  · exact hstep.mem_published (horder.pending id publication hold)
  · rw [hadded]
    exact List.mem_append_right _ (List.mem_singleton_self publication)

theorem InOrder.unique_step {history : List Publication} (horder : InOrder history state)
    (hstep : Stepped hub state action next) :
    ∀ first second publication other, Pending next first publication →
      Pending next second other → publication.copy.gen = other.copy.gen → first = second := by
  intro first second publication other hfirst hsecond hgen
  -- what is published now is newer than everything that was pending before
  have hnewer : ∀ id earlier, Pending state id earlier →
      earlier.copy.gen ≤ state.lastPublishedGen := by
    intro id earlier hpending
    exact horder.ordered.last earlier (horder.pending id earlier hpending)
  rcases hstep.pending_cases hfirst with hold | ⟨hone, hlater, -⟩
  · rcases hstep.pending_cases hsecond with hother | ⟨-, hlater, -⟩
    · exact horder.unique first second publication other hold hother hgen
    · exact absurd hgen ((hnewer first publication hold).trans_lt hlater).ne
  · rcases hstep.pending_cases hsecond with hother | ⟨htwo, -, -⟩
    · exact absurd hgen ((hnewer second other hother).trans_lt hlater).ne'
    · rw [hone, Option.some.injEq] at htwo
      exact htwo

/-- A graph that is queued in order comes after everything handed over. -/
theorem InOrder.newer (horder : InOrder history state) (henqueues : EnqueuesInOrder action state)
    (henqueuing : enqueuing action state = some publication)
    (hpending : Pending state id publication) :
    ∀ earlier ∈ history, earlier.copy.gen < publication.copy.gen := by
  intro earlier hmem
  obtain ⟨hpublished, hpast⟩ := horder.handed earlier hmem
  rcases lt_trichotomy earlier.copy.gen publication.copy.gen with hlt | heq | hgt
  · exact hlt
  · exact absurd heq.symm (hpast id publication hpending)
  · obtain ⟨entry, hentry, hphase⟩ := henqueues publication henqueuing earlier hpublished hgt
    have hlookup : state.calls.lookup entry.1 = some entry.2 := AList.mem_lookup_iff.mpr hentry
    exact absurd rfl (hpast entry.1 earlier ⟨entry.2, hlookup, hphase⟩)

/-- A graph that a call has just queued is no longer pending anywhere. -/
theorem InOrder.enqueued (horder : InOrder history state) (hstep : Stepped hub state action next)
    (haction : action.call = some id) (hpending : Pending state id publication)
    (hpast : ∀ other, ¬ Pending next id other) : Enqueued next publication := by
  refine ⟨hstep.mem_published (horder.pending id publication hpending), ?_⟩
  intro found other hother hgen
  have hid : found = id := by
    rcases hstep.pending_cases hother with hold | ⟨hfound, -, -⟩
    · exact horder.unique found id other publication hold hpending hgen
    · rw [haction, Option.some.injEq] at hfound
      exact hfound.symm
  exact hpast other (hid ▸ hother)

theorem InOrder.step (horder : InOrder history state) (henqueues : EnqueuesInOrder action state)
    (hstep : Stepped hub state action next) :
    InOrder (history ++ (handing action state).toList) next := by
  have hhanded : ∀ publication ∈ history, Enqueued next publication := fun publication hmem =>
    (horder.handed publication hmem).step horder.ordered hstep
  have hqueued : ∀ publication, state.snapshotCh = some publication →
      Enqueued next publication := fun publication hqueue =>
    (horder.queued publication hqueue).1.step horder.ordered hstep
  -- the queue stays as it is, takes up a publication, or is emptied by the writer
  rcases hstep.queue_cases with ⟨hsame, hnone⟩ |
    ⟨id, publication, haction, hpending, henqueuing, hpast, -, hqueue, hnone⟩ | ⟨hempty, rfl⟩
  · rw [hnone, Option.toList_none, List.append_nil]
    refine ⟨horder.ordered.step hstep, horder.pending_step hstep, horder.unique_step hstep,
      hhanded, ?_, horder.increasing⟩
    intro publication hqueue
    rw [hsame] at hqueue
    exact ⟨hqueued publication hqueue, (horder.queued publication hqueue).2⟩
  · rw [hnone, Option.toList_none, List.append_nil]
    refine ⟨horder.ordered.step hstep, horder.pending_step hstep, horder.unique_step hstep,
      hhanded, ?_, horder.increasing⟩
    intro found hfound
    rw [hqueue, Option.some.injEq] at hfound
    subst hfound
    exact ⟨horder.enqueued hstep haction hpending hpast,
      horder.newer henqueues henqueuing hpending⟩
  · have htaken : ∀ publication ∈ (handing .takeSnapshot state).toList,
        state.snapshotCh = some publication := by
      intro publication hmem
      rw [Option.mem_toList] at hmem
      unfold handing at hmem
      split at hmem
      · next hqueue _ =>
          cases hmem
          exact hqueue
      · cases hmem
    refine ⟨horder.ordered.step hstep, horder.pending_step hstep, horder.unique_step hstep,
      ?_, ?_, ?_⟩
    · intro publication hmem
      rcases List.mem_append.mp hmem with hold | hnew
      · exact hhanded publication hold
      · exact hqueued publication (htaken publication hnew)
    · intro publication hqueue
      rw [hempty] at hqueue
      cases hqueue
    · refine List.pairwise_append.mpr ⟨horder.increasing, ?_, ?_⟩
      · cases handing .takeSnapshot state <;> simp
      · intro earlier hearlier publication hmem
        exact (horder.queued publication (htaken publication hmem)).2 earlier hearlier

theorem inOrder_of_fresh (hfresh : Fresh state) : InOrder [] state := by
  have hnone : ∀ id publication, ¬ Pending state id publication := by
    rintro id publication ⟨call, hcall, -⟩
    rw [hfresh.calls] at hcall
    cases hcall
  refine ⟨ordered_of_fresh hfresh, ?_, ?_, ?_, ?_, List.Pairwise.nil⟩
  · exact fun id publication hpending => absurd hpending (hnone id publication)
  · exact fun first _ publication _ hpending => absurd hpending (hnone first publication)
  · exact fun publication hmem => absurd hmem List.not_mem_nil
  · intro publication hqueue
    rw [hfresh.snapshotCh] at hqueue
    cases hqueue

/-- As long as calls queue their graphs in the order they published them, the
graphs handed to the write function are published ones, in strictly increasing
order of their generations. -/
theorem graphs_handed_in_order (hub : Setup) (start final : State) (actions : List Action)
    (hfresh : Fresh start) (henqueues : Throughout (step hub) EnqueuesInOrder actions start)
    (hrun : run (step hub) actions start = some final) :
    (∀ publication ∈ outputs (step hub) handing actions start,
        publication ∈ final.published) ∧
      (outputs (step hub) handing actions start).Pairwise
        (fun earlier later => earlier.copy.gen < later.copy.gen) := by
  have horder : InOrder ([] ++ outputs (step hub) handing actions start) final :=
    outputs_invariant_throughout
      (fun _ _ _ _ henqueues horder hstep => horder.step henqueues (stepped_of_step hstep))
      (inOrder_of_fresh hfresh) henqueues hrun
  rw [List.nil_append] at horder
  exact ⟨fun publication hmem => (horder.handed publication hmem).1, horder.increasing⟩

/-- Two pushes whose graphs are written one after the other. -/
def writtenRun : List Action :=
  pushSteps 1 (pushRequest (str "east") (str "sw1") 63900000000) 63900000001 ++
    [.takeSnapshot, .finishWrite] ++
    pushSteps 2 (pushRequest (str "west") (str "sw2") 63900000000) 63900000002 ++
    [.takeSnapshot, .finishWrite]

theorem graphs_of_two_pushes_in_order :
    (outputs (step plainHub) handing writtenRun freshHub).length = 2 ∧
      (outputs (step plainHub) handing writtenRun freshHub).Pairwise
        (fun earlier later => earlier.copy.gen < later.copy.gen) := by
  have henqueues : Throughout (step plainHub) EnqueuesInOrder writtenRun freshHub := by
    decide
  have hrun : (run (step plainHub) writtenRun freshHub).isSome = true := by decide
  obtain ⟨final, hfinal⟩ := Option.isSome_iff_exists.mp hrun
  exact ⟨by decide, (graphs_handed_in_order plainHub freshHub final writtenRun
    fresh_freshHub henqueues hfinal).2⟩

/-- A push publishes its graph, and before it queues it another push goes from its
arrival to its answer and has its graph written. -/
def overtakenRun : List Action :=
  .receive 1 (pushRequest (str "east") (str "sw1") 63900000000) .insertion
      (atSecond 63900000001) :: advances 1 3 ++
    pushSteps 2 (pushRequest (str "west") (str "sw2") 63900000000) 63900000002 ++
    [.takeSnapshot, .finishWrite] ++ advances 1 1 ++ [.takeSnapshot, .finishWrite]

/-- The older graph is written over the newer one. -/
theorem older_graph_written_last :
    Fresh freshHub ∧ (run (step plainHub) overtakenRun freshHub).isSome = true ∧
      (outputs (step plainHub) handing overtakenRun freshHub).map
        (fun publication => publication.copy.gen) = [2, 1] := by
  refine ⟨fresh_freshHub, ?_⟩
  decide

/-! ## The writer behind the queue

The hub's own steps for its writer say when a graph is taken and when its write is
over. The writer's goroutines, their channels and the timeouts are behind them. -/

/-- The queue and the write in flight, as the hub's state has them. -/
structure Shows (writer : Snapshot.Writer Publication Unit) (state : State) : Prop where
  queue : writer.queue = ⟨1, state.snapshotCh.toList, false⟩
  writing : ∀ publication, state.writing = some publication ↔
    ∃ (index : Nat) (goroutine : Goroutine Publication Unit),
      writer.goroutines[index]? = some goroutine ∧ goroutine.status = .running ∧
        goroutine.item = publication

variable {writer later : Snapshot.Writer Publication Unit} {writerAction : WriterAction Publication}

theorem Shows.enqueue (hshows : Shows writer state) (hpath : hub.snapshotPath ≠ [])
    (publication : Publication) :
    ∃ later, hubStep (.enqueue publication) writer = some later ∧
      Shows later (writeSnapshotAsync hub publication state) := by
  obtain ⟨hqueue, hwriting⟩ := hshows
  cases hchannel : state.snapshotCh with
  | none =>
      refine ⟨writer.withQueue ⟨1, [publication], false⟩, ?_, ?_⟩
      · simp [hubStep, Writer.enqueue, hqueue, hchannel, Chan.trySend, Writer.withQueue]
      · simp only [writeSnapshotAsync, if_neg hpath, hchannel]
        exact ⟨rfl, hwriting⟩
  | some queued =>
      refine ⟨{ writer with queueFull := writer.queueFull + 1 }, ?_, ?_⟩
      · simp [hubStep, Writer.enqueue, hqueue, hchannel, Chan.trySend]
      · simp only [writeSnapshotAsync, if_neg hpath, hchannel]
        rw [hchannel] at hqueue
        exact ⟨hqueue, hwriting⟩

theorem Shows.writing_eq_none (hshows : Shows writer state) :
    state.writing = none ↔ Writer.Quiet HubMute writer := by
  rw [Option.eq_none_iff_forall_ne_some]
  constructor
  · intro hnone index goroutine hgoroutine hrunning
    exact hnone goroutine.item
      ((hshows.writing goroutine.item).mpr ⟨index, goroutine, hgoroutine, hrunning, rfl⟩)
  · intro hquiet publication hwriting
    obtain ⟨index, goroutine, hgoroutine, hrunning, -⟩ := (hshows.writing publication).mp hwriting
    exact hquiet index goroutine hgoroutine hrunning

/-- Taking a snapshot off the queue, as the hub sees it. -/
theorem Shows.deliver {publication : Publication} {queue : Chan Publication}
    (hshows : Shows writer state) (hwatched : HubWatched writer)
    (hreceive : writer.queue.tryReceive = some (some publication, queue)) :
    ∃ next, step hub .takeSnapshot state = some next ∧
      Shows ((writer.withQueue queue).deliver publication) next ∧
      ((writer.withQueue queue).deliver publication).goroutines.map (·.item) =
        writer.goroutines.map (·.item) ++ (handing .takeSnapshot state).toList := by
  have hempty : state.snapshotCh = some publication ∧ queue = ⟨1, [], false⟩ := by
    rw [hshows.queue] at hreceive
    cases hchannel : state.snapshotCh with
    | none => simp [Chan.tryReceive, hchannel] at hreceive
    | some queued =>
        simp only [Chan.tryReceive, hchannel, Option.toList_some, Option.some.injEq,
          Prod.mk.injEq] at hreceive
        exact ⟨congrArg some hreceive.1, hreceive.2.symm⟩
  obtain ⟨hchannel, rfl⟩ := hempty
  have hqueued : HubWatched (writer.withQueue ⟨1, [], false⟩) :=
    ⟨hwatched.unsent, hwatched.watched.withQueue _⟩
  rcases hqueued.deliver_cases publication with ⟨hquiet, heq⟩ | ⟨⟨index, hrunning⟩, heq⟩
  · have hidle : state.writing = none := hshows.writing_eq_none.mpr hquiet
    refine ⟨{ state with snapshotCh := none, writing := some publication }, ?_, ?_, ?_⟩
    · simp only [step, takeSnapshot, hchannel, hidle]
    · rw [heq]
      refine ⟨rfl, fun other => ?_⟩
      simp only [Option.some.injEq]
      exact (running_start_iff hquiet publication other).symm
    · rw [heq]
      simp [Writer.start, Writer.withQueue, handing, hchannel, hidle]
  · obtain ⟨goroutine, hgoroutine, hstatus⟩ := hrunning
    have hbusy : state.writing = some goroutine.item :=
      (hshows.writing goroutine.item).mpr ⟨index, goroutine, hgoroutine, hstatus, rfl⟩
    refine ⟨{ state with snapshotCh := none, snapshotDrops := state.snapshotDrops + 1 }, ?_, ?_, ?_⟩
    · simp only [step, takeSnapshot, hchannel, hbusy]
    · rw [heq]
      exact ⟨rfl, hshows.writing⟩
    · rw [heq]
      simp [Writer.withQueue, handing, hchannel, hbusy]

/-- What the hub's own state has of an action of the writer. -/
def queueStep (hub : Setup) (writerAction : WriterAction Publication) (state : State) :
    Option State :=
  match writerAction with
  | .enqueue publication => some (writeSnapshotAsync hub publication state)
  | .receive => step hub .takeSnapshot state
  | .finish _ _ | .panic _ => step hub .finishWrite state
  | _ => some state

def queueHanding : WriterAction Publication → State → Option Publication
  | .receive, state => handing .takeSnapshot state
  | _, _ => none

/-- Every step of the writer is a step of the hub's state or leaves it alone, and the
writes it starts are the graphs that the hub hands over. -/
theorem Shows.step (hshows : Shows writer state) (hwatched : HubWatched writer)
    (hpath : hub.snapshotPath ≠ []) (hstep : hubStep writerAction writer = some later) :
    ∃ next, queueStep hub writerAction state = some next ∧ Shows later next ∧
      later.goroutines.map (·.item) =
        writer.goroutines.map (·.item) ++ (queueHanding writerAction state).toList := by
  rcases hubStep_cases hwatched.unsent hstep with ⟨hsame, ⟨hqueue, hhidden⟩ | ⟨publication, rfl⟩⟩ |
    ⟨publication, queue, ⟨rfl, hreceive⟩, rfl⟩ | ⟨index, status, ⟨hstatus, haction⟩, hend⟩
  · have hnone : queueStep hub writerAction state = some state ∧
        queueHanding writerAction state = none := by
      cases writerAction <;> first | exact ⟨rfl, rfl⟩ | exact absurd trivial hhidden
    refine ⟨state, hnone.1, ⟨hqueue ▸ hshows.queue, ?_⟩, ?_⟩
    · rw [hsame.goroutines]
      exact hshows.writing
    · simp [hnone.2, hsame.goroutines]
  · obtain ⟨other, hother, hqueued⟩ := hshows.enqueue hpath publication
    cases hother.symm.trans hstep
    exact ⟨_, rfl, hqueued, by simp [queueHanding, hsame.goroutines]⟩
  · exact @Shows.deliver hub _ _ _ _ hshows hwatched hreceive
  · obtain ⟨goroutine, done, hgoroutine, hrunning, -, rfl⟩ := Writer.endWrite_cases hend
    have hbusy : state.writing = some goroutine.item :=
      (hshows.writing goroutine.item).mpr ⟨index, goroutine, hgoroutine, hrunning, rfl⟩
    have hfinish : queueStep hub writerAction state = some { state with writing := none } ∧
        queueHanding writerAction state = none := by
      rcases haction with ⟨result, rfl⟩ | rfl <;>
        simp only [queueStep, queueHanding, Federation.step, finishWrite, hbusy, and_self]
    refine ⟨{ state with writing := none }, hfinish.1, ⟨hshows.queue, ?_⟩, ?_⟩
    · have hquiet := @HubWatched.quiet_endWrite _ _ _ _ _ done hwatched hgoroutine hrunning hstatus
      intro other
      constructor
      · intro hwriting
        cases hwriting
      · rintro ⟨found, running, hfound, hstill, -⟩
        exact absurd hstill (hquiet found running hfound)
    · -- the write that ended keeps its graph
      have hitem : (writer.goroutines.map (·.item))[index]? = some goroutine.item := by
        rw [List.getElem?_map, hgoroutine, Option.map_some]
      obtain ⟨hlength, hsame⟩ := List.getElem?_eq_some_iff.mp hitem
      rw [hfinish.2, Option.toList_none, List.append_nil, List.map_set, ← hsame,
        List.set_getElem_self]

/-- Whatever the writer does with its channels, goroutines and timeouts, it does what the
hub's own steps say: they are enabled, they have the same queue and the same write in flight,
and the writes are the graphs that they hand over. -/
theorem writer_refines_queue {actions : List (WriterAction Publication)}
    (hpath : hub.snapshotPath ≠ []) (hidle : state.snapshotCh = none ∧ state.writing = none)
    (hrun : run hubStep actions newWriter = some writer) :
    ∃ final, run (queueStep hub) actions state = some final ∧ Shows writer final ∧
      writer.goroutines.map (·.item) = outputs (queueStep hub) queueHanding actions state := by
  have hfrom : ∀ (begin : Snapshot.Writer Publication Unit) (state : State), Shows begin state →
      HubWatched begin → run hubStep actions begin = some writer →
        ∃ final, run (queueStep hub) actions state = some final ∧ Shows writer final ∧
          writer.goroutines.map (·.item) =
            begin.goroutines.map (·.item) ++
              outputs (queueStep hub) queueHanding actions state := by
    clear hrun hidle
    induction actions with
    | nil =>
        intro begin state hshows _ hrun
        cases hrun
        exact ⟨state, rfl, hshows, by simp [outputs]⟩
    | cons action rest ih =>
        intro begin state hshows hwatched hrun
        obtain ⟨middle, hmiddle, hrest⟩ := run_cons_eq_some.mp hrun
        obtain ⟨next, hnext, hlater, hitems⟩ := hshows.step hwatched hpath hmiddle
        obtain ⟨final, hfinal, hlast, hall⟩ := ih middle next hlater (hwatched.step hmiddle) hrest
        refine ⟨final, run_cons_eq_some.mpr ⟨next, hnext, hfinal⟩, hlast, ?_⟩
        rw [hall, hitems, outputs, hnext, Option.elim_some, List.append_assoc]
  refine hfrom newWriter state ⟨?_, ?_⟩ hubWatched_newWriter hrun
  · rw [hidle.1]
    rfl
  · simp [hidle.2, newWriter]

/-- A graph is written after the writer has stopped waiting for it. -/
def slowWrite : List (WriterAction Publication) :=
  [.enqueue ⟨⟨1, ∅⟩, ⟨[], [], []⟩⟩, .receive, .timeout, .finish 0 (.ok ())]

theorem slowWrite_refines : ∃ writer final, run hubStep slowWrite newWriter = some writer ∧
    run (queueStep plainHub) slowWrite freshHub = some final ∧ Shows writer final := by
  obtain ⟨final, hfinal, hshows, -⟩ :=
    @writer_refines_queue plainHub freshHub _ slowWrite (by decide) ⟨rfl, rfl⟩ rfl
  exact ⟨_, final, rfl, hfinal, hshows⟩

end TopologyExporter.Federation
