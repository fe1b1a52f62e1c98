import TopologyExporter.App.Changes
import TopologyExporter.GoLib.Channel
import TopologyExporter.Foundation.Selection
import TopologyExporter.Foundation.Transition
import TopologyExporter.Otlp.Classify

/-! # Pushes to the collector

A published cycle is pushed to the collector by goroutines of their own: one sends
the changes, one makes the graph the snapshot that the gauges report and flushes
them. A semaphore bounds how many are in flight, and a push that finds it full is
dropped. Nothing orders the goroutines. One that has been started but has not
stored its graph can store it after a later cycle has stored its own.
-/

namespace TopologyExporter.App.Publisher

open Go Discovery Transition Selection Otlp

/-- What a goroutine pushes. A graph is marked with the number of its cycle. -/
inductive Job where
  | changes (changes : List Graph.EdgeChange)
  | graph (cycleNum : Nat) (graph : Discovery.Graph)

inductive Phase where
  | started
  | stored
  | finished
deriving DecidableEq

structure Goroutine where
  job : Job
  phase : Phase

/-- How a push ends. -/
inductive Outcome where
  | returned (flushError : Option PushError)
  | panicked

/-- The rows of the counter of pushes. -/
inductive PushStatus where
  | ok
  | dropped
  | error (reason : Option PushReason)
deriving DecidableEq

/-- The discovery loop, which still has the pushes in `todo` to make, and the
publisher. The snapshot is marked with the cycle it comes from. -/
structure State where
  cycleNum : Nat
  current : CycleState
  todo : List Job
  sem : Chan Unit
  goroutines : List Goroutine
  latest : Option (Nat × Discovery.Graph)
  pushTotal : List PushStatus
  panics : Nat

/-- The result of a cycle as it comes to be published. -/
structure Publication where
  order : RangeOrder
  cycle : CycleResult
  now : Time

/-- A cycle that ends early publishes nothing. -/
inductive Action where
  | cycle (publication : Option Publication)
  | push
  | store (index : Nat)
  | finish (index : Nat) (outcome : Outcome)

def maxOTLPPushConcurrency : Nat := 4

/-- The loop before its first cycle, with a new publisher. -/
def newState (capacity : Nat) (startup : CycleState) : State :=
  ⟨0, startup, [], Chan.make capacity, [], none, [], 0⟩

/-! ## Steps -/

/-- The pushes of a published cycle. A graph without changes is pushed only in every
`heartbeatCycles`-th cycle. -/
def pushJobs (cfg : Config) (heartbeatCycles : Nat) (publication : Publication)
    (state : CycleState) (cycleNum : Nat) : List Job :=
  let cycle := publication.cycle
  if (0 < cfg.maxGraphDevices ∧ cfg.maxGraphDevices < cycle.graph.devices.length) ∨
      (0 < cfg.maxGraphEdges ∧ cfg.maxGraphEdges < cycle.graph.edges.length) then []
  else
    let changes := publishedChanges cfg publication.order state cycle
    (if 0 < changes.length then [.changes changes] else []) ++
      (if 0 < changes.length ∨ cycleNum % heartbeatCycles = 0
        then [.graph cycleNum cycle.graph] else [])

def cycleStep (cfg : Config) (heartbeatCycles : Nat) (publication : Option Publication)
    (state : State) : Option State :=
  if state.todo.isEmpty then
    match publication with
    | none => some { state with cycleNum := state.cycleNum + 1 }
    | some publication =>
        some { state with
          cycleNum := state.cycleNum + 1
          current := (publish cfg state.current publication.cycle publication.now).1
          todo := pushJobs cfg heartbeatCycles publication state.current (state.cycleNum + 1) }
  else none

/-- Starts a goroutine for the next push, or drops the push. -/
def pushStep (state : State) : Option State :=
  match state.todo with
  | [] => none
  | job :: rest =>
      match state.sem.trySend () with
      | some sem => some { state with
          todo := rest
          sem := sem
          goroutines := state.goroutines ++ [⟨job, .started⟩] }
      | none => some { state with
          todo := rest
          pushTotal := state.pushTotal ++ [.dropped] }

/-- The cycle of the graph that a goroutine has still to store. -/
def Goroutine.waits (goroutine : Goroutine) : Option (Nat × Discovery.Graph) :=
  match goroutine.job, goroutine.phase with
  | .graph cycleNum graph, .started => some (cycleNum, graph)
  | _, _ => none

def storeStep (index : Nat) (state : State) : Option State :=
  state.goroutines[index]?.bind (fun goroutine => goroutine.waits.map (fun snapshot =>
    { state with
      goroutines := state.goroutines.set index { goroutine with phase := .stored }
      latest := some snapshot }))

/-- The error of a push as its goroutine sees it. -/
def Job.wrapError (job : Job) (err : PushError) : PushError :=
  match job with
  | .changes _ => { err with text := str "otlp: flush logs: " ++ err.text }
  | .graph _ _ => { err with text := str "otlp: flush metrics: " ++ err.text }

def Job.status (job : Job) (flushError : Option PushError) : PushStatus :=
  match flushError with
  | none => .ok
  | some err => .error (classifyPushError (some (job.wrapError err)))

/-- All that is left to a goroutine is to flush. -/
def Goroutine.Flushes (goroutine : Goroutine) : Bool :=
  match goroutine.job, goroutine.phase with
  | .changes _, .started => true
  | .graph _ _, .stored => true
  | _, _ => false

def State.counted (state : State) (job : Job) (outcome : Outcome) : State :=
  match outcome with
  | .returned flushError => { state with
      pushTotal := state.pushTotal ++ [job.status flushError] }
  | .panicked => { state with panics := state.panics + 1 }

/-- The slot in the semaphore is given back however the push ends. -/
def finishStep (index : Nat) (outcome : Outcome) (state : State) : Option State :=
  state.goroutines[index]?.bind (fun goroutine =>
    if goroutine.Flushes then
      state.sem.tryReceive.map (fun received =>
        { state.counted goroutine.job outcome with
          sem := received.2
          goroutines := state.goroutines.set index { goroutine with phase := .finished } })
    else none)

variable (cfg : Config) (heartbeatCycles : Nat)

def step (action : Action) (state : State) : Option State :=
  match action with
  | .cycle publication => cycleStep cfg heartbeatCycles publication state
  | .push => pushStep state
  | .store index => storeStep index state
  | .finish index outcome => finishStep index outcome state

/-! ## The way of a snapshot

A snapshot is planned by the loop, waits in a goroutine, and is the latest one from
when it is stored until the next is.
-/

def Job.snapshot : Job → Option (Nat × Discovery.Graph)
  | .graph cycleNum pushed => some (cycleNum, pushed)
  | .changes _ => none

def State.planned (state : State) : List (Nat × Discovery.Graph) :=
  state.todo.filterMap Job.snapshot

def State.waiting (state : State) : List (Nat × Discovery.Graph) :=
  state.goroutines.filterMap Goroutine.waits

/-- What a step does to the snapshots. -/
inductive Moves (action : Action) (state next : State) : Prop where
  | plan (publication : Option Publication) (haction : action = .cycle publication)
      (hbefore : state.planned = []) (hnumber : next.cycleNum = state.cycleNum + 1)
      (hlength : next.planned.length ≤ 1)
      (hplanned : ∀ snapshot ∈ next.planned, snapshot.1 = next.cycleNum)
      (hwaiting : next.waiting = state.waiting) (hlatest : next.latest = state.latest)
  | start (haction : action = .push) (hfree : (state.sem.trySend ()).isSome = true)
      (snapshot : Nat × Discovery.Graph)
      (hhead : state.todo.head?.bind Job.snapshot = some snapshot)
      (hplanned : state.planned = snapshot :: next.planned)
      (hnumber : next.cycleNum = state.cycleNum)
      (hwaiting : next.waiting = state.waiting ++ [snapshot]) (hlatest : next.latest = state.latest)
  | store (index : Nat) (haction : action = .store index)
      (before after : List (Nat × Discovery.Graph)) (snapshot : Nat × Discovery.Graph)
      (hplanned : next.planned = state.planned) (hnumber : next.cycleNum = state.cycleNum)
      (hbefore : state.waiting = before ++ snapshot :: after)
      (hafter : next.waiting = before ++ after) (hlatest : next.latest = some snapshot)
  | none (hplanned : next.planned <:+ state.planned) (hnumber : next.cycleNum = state.cycleNum)
      (hwaiting : next.waiting = state.waiting) (hlatest : next.latest = state.latest)

theorem waits_started (job : Job) : (⟨job, .started⟩ : Goroutine).waits = job.snapshot := by
  cases job <;> rfl

theorem pushJobs_planned (publication : Publication) (current : CycleState) (cycleNum : Nat) :
    ((pushJobs cfg heartbeatCycles publication current cycleNum).filterMap
        Job.snapshot).length ≤ 1 ∧
      ∀ snapshot ∈ (pushJobs cfg heartbeatCycles publication current cycleNum).filterMap
          Job.snapshot,
        snapshot.1 = cycleNum := by
  unfold pushJobs
  simp only
  split_ifs <;> simp [filterMap_cons_toList, Job.snapshot]

variable {cfg heartbeatCycles} {action : Action} {next state : State} {goroutine : Goroutine}

theorem step_moves (hstep : step cfg heartbeatCycles action state = some next) :
    Moves action state next := by
  cases action with
  | cycle publication =>
      simp only [step, cycleStep] at hstep
      split at hstep
      next hempty =>
        -- a cycle begins only when all jobs of the last one were handed out
        have hbefore : state.planned = [] := by
          rw [State.planned, List.isEmpty_iff.mp hempty, List.filterMap_nil]
        cases publication with
        | none =>
            cases hstep
            exact .plan none rfl hbefore rfl (by simp [State.planned, List.isEmpty_iff.mp hempty])
              (by simp [State.planned, List.isEmpty_iff.mp hempty]) rfl rfl
        | some publication =>
            cases hstep
            have hjobs := pushJobs_planned cfg heartbeatCycles publication state.current
              (state.cycleNum + 1)
            exact .plan (some publication) rfl hbefore rfl hjobs.1 hjobs.2 rfl rfl
      next => cases hstep
  | push =>
      simp only [step, pushStep] at hstep
      split at hstep
      next => cases hstep
      next job rest htodo =>
        have hplanned : state.planned = job.snapshot.toList ++ rest.filterMap Job.snapshot := by
          rw [State.planned, htodo, filterMap_cons_toList]
        split at hstep
        next sem hsem =>
          cases hstep
          -- the new goroutine is the last to wait, if its job has a snapshot at all
          have hwaiting :
              (state.goroutines ++ [(⟨job, .started⟩ : Goroutine)]).filterMap Goroutine.waits =
              state.waiting ++ job.snapshot.toList := by
            rw [List.filterMap_append, filterMap_cons_toList, List.filterMap_nil, List.append_nil,
              waits_started]
            rfl
          cases hjob : job.snapshot with
          | none =>
              rw [hjob] at hplanned hwaiting
              refine .none ?_ rfl ?_ rfl
              · rw [hplanned]
                exact List.suffix_refl _
              · exact hwaiting.trans (List.append_nil _)
          | some snapshot =>
              rw [hjob] at hplanned hwaiting
              refine .start rfl (by rw [hsem]; rfl) snapshot ?_ hplanned rfl hwaiting rfl
              rw [htodo]
              exact hjob
        next =>
          cases hstep
          refine .none ?_ rfl rfl rfl
          rw [hplanned]
          exact List.suffix_append _ _
  | store index =>
      simp only [step, storeStep, Option.bind_eq_some_iff, Option.map_eq_some_iff] at hstep
      obtain ⟨goroutine, hgoroutine, snapshot, hwaits, rfl⟩ := hstep
      obtain ⟨before, after, hbefore, hafter⟩ :=
        filterMap_set Goroutine.waits hgoroutine { goroutine with phase := .stored }
      rw [hwaits] at hbefore
      have hdone : ({ goroutine with phase := .stored } : Goroutine).waits = none := by
        cases goroutine.job <;> rfl
      rw [hdone] at hafter
      exact .store index rfl before after snapshot rfl rfl hbefore hafter rfl
  | finish index outcome =>
      simp only [step, finishStep, Option.bind_eq_some_iff, Option.ite_none_right_eq_some,
        Option.map_eq_some_iff] at hstep
      obtain ⟨goroutine, hgoroutine, hflushes, received, -, rfl⟩ := hstep
      obtain ⟨before, after, hbefore, hafter⟩ :=
        filterMap_set Goroutine.waits hgoroutine { goroutine with phase := .finished }
      -- a goroutine that flushes has stored its snapshot, or never had one
      have hflushing : goroutine.waits = none := by
        obtain ⟨job, phase⟩ := goroutine
        cases job <;> cases phase <;> first | rfl | cases hflushes
      have hdone : ({ goroutine with phase := .finished } : Goroutine).waits = none := by
        cases goroutine.job <;> rfl
      have hwaiting : (state.goroutines.set index { goroutine with phase := .finished }).filterMap
          Goroutine.waits = state.waiting := by
        rw [hafter, State.waiting, hbefore, hdone, hflushing]
      cases outcome with
      | returned flushError => exact .none (List.suffix_refl _) rfl hwaiting rfl
      | panicked => exact .none (List.suffix_refl _) rfl hwaiting rfl

/-! ## Snapshots in order -/

/-- The numbers of the snapshots follow the cycles, as far as the loop decides them. -/
structure Numbered (state : State) : Prop where
  planned : ∀ snapshot ∈ state.planned, snapshot.1 = state.cycleNum
  single : state.planned.length ≤ 1
  held : ∀ snapshot ∈ state.waiting ++ state.latest.toList,
    snapshot.1 ≤ state.cycleNum ∧ ∀ later ∈ state.planned, snapshot.1 < later.1

theorem numbered_newState (capacity : Nat) (startup : CycleState) :
    Numbered (newState capacity startup) := by
  constructor <;> simp [newState, State.planned, State.waiting]

theorem Numbered.step (hnumbered : Numbered state)
    (hstep : step cfg heartbeatCycles action state = some next) : Numbered next := by
  obtain ⟨hplanned, hsingle, hheld⟩ := hnumbered
  cases step_moves hstep with
  | plan publication haction hbefore hnumber hlength hnew hwaiting hlatest =>
      refine ⟨hnew, hlength, ?_⟩
      rw [hwaiting, hlatest]
      intro snapshot hsnapshot
      have hle := (hheld snapshot hsnapshot).1
      refine ⟨by omega, fun later hlater => ?_⟩
      rw [hnew later hlater]
      omega
  | start haction hfree snapshot hhead hbefore hnumber hwaiting hlatest =>
      -- the loop plans one snapshot at a time, so none is left when it is started
      have hrest : next.planned = [] := by
        rw [hbefore, List.length_cons] at hsingle
        exact List.length_eq_zero_iff.mp (by omega)
      have hown := hplanned snapshot (by rw [hbefore]; exact List.mem_cons_self)
      refine ⟨by simp [hrest], by simp [hrest], ?_⟩
      rw [hwaiting, hlatest, hrest, hnumber]
      intro held hmem
      refine ⟨?_, by simp⟩
      simp only [List.mem_append, List.mem_singleton] at hmem
      rcases hmem with (hmem | rfl) | hmem
      · exact (hheld held (List.mem_append_left _ hmem)).1
      · exact hown.le
      · exact (hheld held (List.mem_append_right _ hmem)).1
  | store index haction before after snapshot hsame hnumber hbefore hafter hlatest =>
      rw [← hsame, ← hnumber] at hheld
      refine ⟨by rwa [hsame, hnumber], by rwa [hsame], ?_⟩
      rw [hafter, hlatest]
      intro held hmem
      apply hheld held
      rw [hbefore]
      simp only [List.mem_append, List.mem_cons, Option.toList_some, List.not_mem_nil,
        or_false] at hmem ⊢
      tauto
  | none hsuffix hnumber hwaiting hlatest =>
      refine ⟨fun snapshot hsnapshot => ?_, hsuffix.length_le.trans hsingle, ?_⟩
      · rw [hnumber]
        exact hplanned snapshot (hsuffix.subset hsnapshot)
      · rw [hwaiting, hlatest, hnumber]
        intro snapshot hsnapshot
        obtain ⟨hle, hlater⟩ := hheld snapshot hsnapshot
        exact ⟨hle, fun later hmem => hlater later (hsuffix.subset hmem)⟩

/-- A goroutine for a graph is started only when no other has still to store one. -/
def StartsAlone (action : Action) (state : State) : Prop :=
  action = .push → (state.sem.trySend ()).isSome = true →
    (state.todo.head?.bind Job.snapshot).isSome = true → state.waiting = []

/-- At most one snapshot waits, and it is newer than the latest. -/
structure Ordered (state : State) : Prop extends Numbered state where
  alone : state.waiting.length ≤ 1
  newer : ∀ snapshot ∈ state.waiting, ∀ latest ∈ state.latest, latest.1 < snapshot.1

theorem ordered_newState (capacity : Nat) (startup : CycleState) :
    Ordered (newState capacity startup) where
  toNumbered := numbered_newState capacity startup
  alone := by simp [newState, State.waiting]
  newer := by simp [newState, State.waiting]

/-- Where goroutines start alone a step keeps the order, and what is reported
only gets newer. -/
theorem Ordered.step (hordered : Ordered state) (halone : StartsAlone action state)
    (hstep : step cfg heartbeatCycles action state = some next) :
    Ordered next ∧ ∀ before ∈ state.latest, ∃ after ∈ next.latest, before.1 ≤ after.1 := by
  have hnumbered := hordered.toNumbered.step hstep
  obtain ⟨hnumbers, hlength, hnewer⟩ := hordered
  cases step_moves hstep with
  | plan publication haction hbefore hnumber hcount hnew hwaiting hlatest =>
      refine ⟨⟨hnumbered, ?_, ?_⟩, fun before hmem => ⟨before, ?_, le_rfl⟩⟩
      · rwa [hwaiting]
      · rwa [hwaiting, hlatest]
      · rwa [hlatest]
  | start haction hfree snapshot hhead hplanned hnumber hwaiting hlatest =>
      have hnone : state.waiting = [] := halone haction hfree (by rw [hhead]; rfl)
      rw [hnone, List.nil_append] at hwaiting
      refine ⟨⟨hnumbered, ?_, ?_⟩, fun before hmem => ⟨before, ?_, le_rfl⟩⟩
      · rw [hwaiting]
        exact le_rfl
      · rw [hwaiting, hlatest, List.forall_mem_singleton]
        intro latest hmem
        have hheld := hnumbers.held latest (List.mem_append_right _ (Option.mem_toList.mpr hmem))
        exact hheld.2 snapshot (by rw [hplanned]; exact List.mem_cons_self)
      · rwa [hlatest]
  | store index haction before after snapshot hplanned hnumber hbefore hafter hlatest =>
      have hnone : before ++ after = [] := by
        rw [hbefore, List.length_append, List.length_cons] at hlength
        apply List.length_eq_zero_iff.mp
        rw [List.length_append]
        omega
      refine ⟨⟨hnumbered, ?_, ?_⟩, fun held hmem => ⟨snapshot, hlatest, ?_⟩⟩
      · simp [hafter, hnone]
      · simp [hafter, hnone]
      · exact (hnewer snapshot (by rw [hbefore]; simp) held hmem).le
  | none hsuffix hnumber hwaiting hlatest =>
      refine ⟨⟨hnumbered, ?_, ?_⟩, fun before hmem => ⟨before, ?_, le_rfl⟩⟩
      · rwa [hwaiting]
      · rwa [hwaiting, hlatest]
      · rwa [hlatest]

variable (cfg heartbeatCycles)

/-- Once the snapshot of a cycle has been reported, none of an earlier cycle is. -/
def NeverGoesBack (actions : List Action) (start : State) : Prop :=
  ∀ front back middle final, front ++ back = actions →
    run (step cfg heartbeatCycles) front start = some middle →
    run (step cfg heartbeatCycles) back middle = some final →
    ∀ before ∈ middle.latest, ∀ after ∈ final.latest, before.1 ≤ after.1

/-- The steps that goroutines take on their own. -/
def Action.OfGoroutine : Action → Prop
  | .store _ => True
  | .finish _ _ => True
  | _ => False

variable {cfg heartbeatCycles} {actions : List Action} {index capacity : Nat}

theorem neverGoesBack_of_startsAlone {start : State} (hstart : Ordered start)
    (halone : Throughout (step cfg heartbeatCycles) StartsAlone actions start) :
    NeverGoesBack cfg heartbeatCycles actions start := by
  intro front back middle final hsplit hfront hback before hbefore after hafter
  subst hsplit
  obtain ⟨hfirst, hrest⟩ := throughout_append.mp halone
  have hmiddle : Ordered middle := by
    refine run_invariant_throughout ?_ hstart hfirst hfront
    exact fun action state next halone hordered hnext => (hordered.step halone hnext).1
  -- From here on something at least as new as `before` is reported.
  have hfinal : Ordered final ∧ ∃ latest ∈ final.latest, before.1 ≤ latest.1 := by
    refine @run_invariant_throughout _ _ (step cfg heartbeatCycles) StartsAlone
      (fun state => Ordered state ∧ ∃ latest ∈ state.latest, before.1 ≤ latest.1) ?_ back middle
      final ⟨hmiddle, before, hbefore, le_rfl⟩ (hrest middle hfront) hback
    intro action state next halone ⟨hordered, latest, hlatest, hle⟩ hnext
    obtain ⟨hnextOrdered, hnewer⟩ := hordered.step halone hnext
    obtain ⟨newest, hnewest, hlater⟩ := hnewer latest hlatest
    exact ⟨hnextOrdered, newest, hnewest, hle.trans hlater⟩
  obtain ⟨-, latest, hlatest, hle⟩ := hfinal
  rw [Option.mem_unique hafter hlatest]
  exact hle

theorem exists_step_store (cfg : Config) (heartbeatCycles : Nat) {snapshot : Nat × Discovery.Graph}
    (hgoroutine : state.goroutines[index]? = some goroutine)
    (hwaits : goroutine.waits = some snapshot) :
    ∃ next, step cfg heartbeatCycles (.store index) state = some next ∧
      next.goroutines = state.goroutines.set index { goroutine with phase := .stored } ∧
      next.latest = some snapshot := by
  simp [step, storeStep, hgoroutine, hwaits]

/-- A goroutine that was started first can store last. -/
theorem exists_overtaking (hnumbered : Numbered state)
    (hfree : (state.sem.trySend ()).isSome = true)
    (hhead : (state.todo.head?.bind Job.snapshot).isSome = true) (hwaiting : state.waiting ≠ []) :
    ∃ index newer older middle final,
      run (step cfg heartbeatCycles) [.push, .store state.goroutines.length] state = some middle ∧
      run (step cfg heartbeatCycles) [.store index] middle = some final ∧
      middle.latest = some newer ∧ final.latest = some older ∧ older.1 < newer.1 := by
  obtain ⟨older, holder⟩ := List.exists_mem_of_ne_nil _ hwaiting
  obtain ⟨goroutine, hgoroutine, hwaits⟩ := List.mem_filterMap.mp holder
  obtain ⟨index, hindex⟩ := List.mem_iff_getElem?.mp hgoroutine
  obtain ⟨newer, hnewer⟩ := Option.isSome_iff_exists.mp hhead
  obtain ⟨job, hjob, hsnapshot⟩ := Option.bind_eq_some_iff.mp hnewer
  obtain ⟨rest, htodo⟩ : ∃ rest, state.todo = job :: rest := by
    rw [List.head?_eq_some_iff] at hjob
    exact hjob
  obtain ⟨sem, hsem⟩ := Option.isSome_iff_exists.mp hfree
  have hlt : older.1 < newer.1 := by
    apply (hnumbered.held older (List.mem_append_left _ holder)).2
    rw [State.planned, htodo, filterMap_cons_toList, hsnapshot]
    exact List.mem_cons_self
  have hbound : index < state.goroutines.length := (List.getElem?_eq_some_iff.mp hindex).1
  obtain ⟨started, hpush, hgoroutines⟩ : ∃ started,
      step cfg heartbeatCycles .push state = some started ∧
        started.goroutines = state.goroutines ++ [⟨job, .started⟩] := by
    simp [step, pushStep, htodo, hsem]
  have hnewest : started.goroutines[state.goroutines.length]? = some ⟨job, .started⟩ := by
    rw [hgoroutines]
    simp
  obtain ⟨middle, hstore, hset, hmiddle⟩ :=
    exists_step_store cfg heartbeatCycles hnewest
      ((waits_started job).trans hsnapshot)
  have holdest : middle.goroutines[index]? = some goroutine := by
    rw [hset, hgoroutines, List.getElem?_set_ne (by omega), List.getElem?_append_left hbound]
    exact hindex
  obtain ⟨final, hlast, -, hfinal⟩ :=
    exists_step_store cfg heartbeatCycles holdest hwaits
  refine ⟨index, newer, older, middle, final, ?_, ?_, hmiddle, hfinal, hlt⟩
  · exact run_cons_eq_some.mpr ⟨started, hpush, run_cons_eq_some.mpr ⟨middle, hstore, rfl⟩⟩
  · exact run_cons_eq_some.mpr ⟨final, hlast, rfl⟩

/-- Whatever the goroutines do from any point of a run on, the gauges never go back
to the graph of an earlier cycle, exactly when every graph that was pushed in the run
found the graphs before it stored. -/
theorem snapshots_in_order_iff (cfg : Config) (heartbeatCycles capacity : Nat)
    (startup : CycleState) (actions : List Action) :
    (∀ front schedule, front <+: actions → (∀ action ∈ schedule, action.OfGoroutine) →
      NeverGoesBack cfg heartbeatCycles (front ++ schedule) (newState capacity startup)) ↔
    Throughout (step cfg heartbeatCycles) StartsAlone actions (newState capacity startup) := by
  constructor
  · intro hnever
    rw [throughout_iff_forall_takes]
    intro front action state ⟨hfront, hreached⟩ haction hfree hhead
    subst haction
    by_contra hwaiting
    have hnumbered : Numbered state :=
      run_invariant (fun action state next hnumbered hnext => hnumbered.step hnext)
        (numbered_newState capacity startup) hreached
    obtain ⟨index, newer, older, middle, final, hmiddle, hfinal, hnewer, holder, hlt⟩ :=
      exists_overtaking hnumbered hfree hhead hwaiting
    have hsofar : run (step cfg heartbeatCycles) (front ++ [.push, .store state.goroutines.length])
        (newState capacity startup) = some middle := by
      rw [run_append, hreached]
      exact hmiddle
    have hle := hnever (front ++ [.push]) [.store state.goroutines.length, .store index] hfront
      (by simp [Action.OfGoroutine]) _ [.store index] middle final (by simp) hsofar hfinal
      newer hnewer older holder
    omega
  · intro halone front schedule hfront hschedule
    apply neverGoesBack_of_startsAlone (ordered_newState capacity startup)
    obtain ⟨back, rfl⟩ := hfront
    refine throughout_append.mpr ⟨(throughout_append.mp halone).1, fun middle _ => ?_⟩
    apply throughout_of_forall_mem
    intro action haction state hpush
    have hown := hschedule action haction
    rw [hpush] at hown
    exact hown.elim

/-- The cycle found the given cables. -/
def cabled (ports : List String) : Publication where
  order := .insertion
  cycle := ⟨⟨[], ports.map (Graph.cable · directionBidirectional), []⟩, some ∅, [], 0⟩
  now := Time.zero

/-- In the second cycle a cable has been moved. The four pushes of both cycles are in
flight, and the graph of the first is stored last. -/
def movedCable : List Action :=
  [.cycle (some (cabled ["Gi1"])), .push, .push, .cycle (some (cabled ["Gi2"])), .push, .push,
    .store 3, .store 1]

/-- The cycle and the ports of the snapshot that is reported after a run. -/
def reported (actions : List Action) : Option (Nat × List GoString) :=
  ((run (step labConfig 10) actions (newState maxOTLPPushConcurrency firstCycle)).bind
    State.latest).map (fun snapshot => (snapshot.1, snapshot.2.edges.map Edge.srcPort))

theorem exists_latest_of_reported {cycleNum : Nat} {ports : List GoString}
    (hreported : reported actions = some (cycleNum, ports)) :
    ∃ state snapshot, run (step labConfig 10) actions
        (newState maxOTLPPushConcurrency firstCycle) = some state ∧
      state.latest = some snapshot ∧ snapshot.1 = cycleNum := by
  obtain ⟨snapshot, hsnapshot, hvalues⟩ := Option.map_eq_some_iff.mp hreported
  obtain ⟨state, hstate, hlatest⟩ := Option.bind_eq_some_iff.mp hsnapshot
  exact ⟨state, snapshot, hstate, hlatest, congrArg Prod.fst hvalues⟩

/-- The gauges report the new place of the cable, and then the old one again. -/
theorem moved_cable_reported_back :
    reported (movedCable.take 7) = some (2, [str "Gi2"]) ∧
      reported movedCable = some (1, [str "Gi1"]) ∧
      ¬ NeverGoesBack labConfig 10 movedCable (newState maxOTLPPushConcurrency firstCycle) := by
  have hbefore : reported (movedCable.take 7) = some (2, [str "Gi2"]) := by decide
  have hafter : reported movedCable = some (1, [str "Gi1"]) := by decide
  refine ⟨hbefore, hafter, fun hnever => ?_⟩
  obtain ⟨middle, newer, hmiddle, hnewer, htwo⟩ := exists_latest_of_reported hbefore
  obtain ⟨final, older, hfinal, holder, hone⟩ := exists_latest_of_reported hafter
  have hlast : run (step labConfig 10) (movedCable.drop 7) middle = some final := by
    rw [← List.take_append_drop 7 movedCable, run_append, hmiddle] at hfinal
    exact hfinal
  have hle := hnever _ _ middle final (List.take_append_drop 7 movedCable) hmiddle hlast
    newer hnewer older holder
  omega

/-! ## The slots of the semaphore -/

def Goroutine.Runs (goroutine : Goroutine) : Bool := goroutine.phase ≠ .finished

abbrev State.inFlight (state : State) : Nat := state.goroutines.countP Goroutine.Runs

/-- Every goroutine that has not finished has a slot in the semaphore, and one that has is
counted. -/
structure Slots (capacity : Nat) (state : State) : Prop where
  bounded : state.sem.capacity = capacity
  taken : state.sem.buffer.length = state.inFlight
  room : state.inFlight ≤ capacity
  counted : state.goroutines.length =
    state.inFlight + state.pushTotal.countP (· ≠ .dropped) + state.panics

theorem runs_of_unfinished (hphase : goroutine.waits.isSome = true ∨ goroutine.Flushes = true) :
    goroutine.Runs = true := by
  obtain ⟨job, phase⟩ := goroutine
  cases phase with
  | started => rfl
  | stored => rfl
  | finished => cases job <;> rcases hphase with hphase | hphase <;> cases hphase

/-- A goroutine that goes on keeps its slot; one that finishes gives it back. -/
theorem countP_runs_set {goroutines : List Goroutine}
    (hgoroutine : goroutines[index]? = some goroutine) (hruns : goroutine.Runs = true)
    (other : Goroutine) :
    (goroutines.set index other).countP Goroutine.Runs + 1 =
      goroutines.countP Goroutine.Runs + (if other.Runs then 1 else 0) := by
  obtain ⟨hindex, hget⟩ := List.getElem?_eq_some_iff.mp hgoroutine
  have hpos : 0 < goroutines.countP Goroutine.Runs :=
    List.countP_pos_iff.mpr ⟨goroutine, List.mem_of_getElem? hgoroutine, hruns⟩
  rw [List.countP_set hindex, hget, if_pos hruns]
  omega

theorem counted_outcome (state : State) (job : Job) (outcome : Outcome) :
    (state.counted job outcome).pushTotal.countP (· ≠ .dropped) +
        (state.counted job outcome).panics =
      state.pushTotal.countP (· ≠ .dropped) + state.panics + 1 := by
  cases outcome with
  | returned flushError =>
      have hstatus : job.status flushError ≠ .dropped := by cases flushError <;> nofun
      simp only [State.counted, List.countP_append, List.countP_singleton, hstatus, ne_eq,
        not_false_eq_true, decide_true, if_true]
      omega
  | panicked => rfl

/-- A goroutine gives back its slot without waiting. -/
theorem Slots.exists_receive (hslots : Slots capacity state)
    (hgoroutine : state.goroutines[index]? = some goroutine) (hflushes : goroutine.Flushes = true) :
    ∃ rest, state.sem.tryReceive = some (some (), rest) ∧ rest.capacity = state.sem.capacity ∧
      rest.buffer.length + 1 = state.sem.buffer.length := by
  have hpos : 0 < state.inFlight := List.countP_pos_iff.mpr
    ⟨goroutine, List.mem_of_getElem? hgoroutine, runs_of_unfinished (Or.inr hflushes)⟩
  rw [← hslots.taken] at hpos
  obtain ⟨slot, rest, hbuffer⟩ := List.exists_cons_of_length_pos hpos
  simp [Chan.tryReceive, hbuffer]

theorem Slots.step (hslots : Slots capacity state)
    (hstep : step cfg heartbeatCycles action state = some next) : Slots capacity next := by
  obtain ⟨hbounded, htaken, hroom, hcounted⟩ := id hslots
  cases action with
  | cycle publication =>
      simp only [Publisher.step, cycleStep] at hstep
      split at hstep
      next => cases publication <;> cases hstep <;> exact ⟨hbounded, htaken, hroom, hcounted⟩
      next => cases hstep
  | push =>
      simp only [Publisher.step, pushStep] at hstep
      split at hstep
      next => cases hstep
      next job rest htodo =>
        split at hstep
        next sem hsem =>
          cases hstep
          unfold Chan.trySend at hsem
          split_ifs at hsem with hfree
          cases hsem
          have hstarted : (state.goroutines ++ [(⟨job, .started⟩ : Goroutine)]).countP
              Goroutine.Runs = state.inFlight + 1 := by
            rw [List.countP_append]
            rfl
          constructor <;> simp only [hstarted, List.length_append, List.length_singleton] <;> omega
        next =>
          cases hstep
          exact ⟨hbounded, htaken, hroom, by simpa using hcounted⟩
  | store index =>
      simp only [Publisher.step, storeStep, Option.bind_eq_some_iff,
        Option.map_eq_some_iff] at hstep
      obtain ⟨goroutine, hgoroutine, snapshot, hwaits, rfl⟩ := hstep
      -- a goroutine that stores is in flight before and after
      have hsame : (state.goroutines.set index { goroutine with phase := .stored }).countP
          Goroutine.Runs = state.inFlight :=
        Nat.succ_injective (countP_runs_set hgoroutine
          (runs_of_unfinished (Or.inl (by rw [hwaits]; rfl))) { goroutine with phase := .stored })
      constructor <;> simp only [hsame, List.length_set] <;> assumption
  | finish index outcome =>
      simp only [Publisher.step, finishStep, Option.bind_eq_some_iff, Option.ite_none_right_eq_some,
        Option.map_eq_some_iff] at hstep
      obtain ⟨goroutine, hgoroutine, hflushes, received, hreceived, rfl⟩ := hstep
      obtain ⟨rest, hrest, hcapacity, hlength⟩ := hslots.exists_receive hgoroutine hflushes
      cases hrest.symm.trans hreceived
      -- one that is done has left the count and gives back one slot
      have hcount : (state.goroutines.set index { goroutine with phase := .finished }).countP
          Goroutine.Runs + 1 = state.inFlight :=
        countP_runs_set hgoroutine (runs_of_unfinished (Or.inr hflushes))
          { goroutine with phase := .finished }
      have houtcome := counted_outcome state goroutine.job outcome
      constructor <;> simp only [State.inFlight, List.length_set] <;> omega

theorem slots_newState (capacity : Nat) (startup : CycleState) :
    Slots capacity (newState capacity startup) :=
  ⟨rfl, rfl, Nat.zero_le _, rfl⟩

theorem Slots.isSome_trySend (hslots : Slots capacity state) :
    (state.sem.trySend ()).isSome = true ↔ state.inFlight < capacity := by
  rw [Chan.trySend, hslots.taken, hslots.bounded]
  split_ifs with hfree <;> simpa using hfree

/-- A goroutine is started for the next push if fewer are in flight than there are slots;
otherwise the push is dropped. -/
theorem Slots.push (hslots : Slots capacity state) {job : Job} {rest : List Job}
    (htodo : state.todo = job :: rest) :
    ∃ next, Publisher.step cfg heartbeatCycles .push state = some next ∧
      (next.goroutines = state.goroutines ++ [⟨job, .started⟩] ↔ state.inFlight < capacity) ∧
      (next.pushTotal = state.pushTotal ++ [.dropped] ↔ capacity ≤ state.inFlight) := by
  have hfree := hslots.isSome_trySend
  cases hsem : state.sem.trySend () with
  | some sem =>
      have hroom : state.inFlight < capacity := hfree.mp (by rw [hsem]; rfl)
      simp [Publisher.step, pushStep, htodo, hsem, hroom, Nat.not_le.mpr hroom]
  | none =>
      have hfull : ¬state.inFlight < capacity := by
        intro hroom
        have hsome := hfree.mpr hroom
        rw [hsem] at hsome
        cases hsome
      simp [Publisher.step, pushStep, htodo, hsem, hfull, Nat.not_lt.mp hfull]

/-- No more pushes are in flight than the semaphore has slots. A goroutine is started for
a push exactly when there are fewer, and the push is dropped otherwise. Every push that was
started is in flight or counted once, as a success, an error or a panic, and none waits to
give back its slot. -/
theorem pushes_accounted {startup : CycleState}
    (hrun : run (step cfg heartbeatCycles) actions (newState capacity startup) = some state) :
    state.inFlight ≤ capacity ∧
      (∀ job rest, state.todo = job :: rest →
        ∃ next, step cfg heartbeatCycles .push state = some next ∧
          (next.goroutines = state.goroutines ++ [⟨job, .started⟩] ↔ state.inFlight < capacity) ∧
          (next.pushTotal = state.pushTotal ++ [.dropped] ↔ capacity ≤ state.inFlight)) ∧
      state.goroutines.length =
        state.inFlight + state.pushTotal.countP (· ≠ .dropped) + state.panics ∧
      ∀ index goroutine outcome, state.goroutines[index]? = some goroutine →
        goroutine.Flushes = true →
        (step cfg heartbeatCycles (.finish index outcome) state).isSome = true := by
  have hslots := run_invariant (fun _ _ _ (hslots : Slots capacity _) hnext => hslots.step hnext)
    (slots_newState capacity startup) hrun
  refine ⟨hslots.room, fun _ _ => hslots.push, hslots.counted, ?_⟩
  intro index goroutine outcome hgoroutine hflushes
  obtain ⟨rest, hrest, -⟩ := hslots.exists_receive hgoroutine hflushes
  simp [step, finishStep, hgoroutine, hflushes, hrest]

theorem moved_cable_pushes : ∃ state,
    run (step labConfig 10) movedCable (newState maxOTLPPushConcurrency firstCycle) = some state ∧
      state.inFlight ≤ maxOTLPPushConcurrency := by
  have hreported : reported movedCable = some (1, [str "Gi1"]) := by decide
  obtain ⟨state, _, hstate, -⟩ := exists_latest_of_reported hreported
  exact ⟨state, hstate, (pushes_accounted hstate).1⟩

/-- A publisher that makes one push at a time reports the graphs in order. -/
theorem neverGoesBack_of_capacity_le_one (hcapacity : capacity ≤ 1) (startup : CycleState)
    (actions : List Action) :
    NeverGoesBack cfg heartbeatCycles actions (newState capacity startup) := by
  apply neverGoesBack_of_startsAlone (ordered_newState capacity startup)
  refine @throughout_of_invariant _ _ (step cfg heartbeatCycles) StartsAlone (Slots capacity)
    (fun action state next hslots hnext => hslots.step hnext) ?_ actions _ (slots_newState _ _)
  intro action state hslots haction hfree hhead
  have hroom := hslots.isSome_trySend.mp hfree
  have hnone := List.countP_eq_zero.mp (show state.inFlight = 0 by omega)
  rw [State.waiting, List.filterMap_eq_nil_iff]
  intro goroutine hgoroutine
  by_contra hwaits
  exact hnone goroutine hgoroutine
    (runs_of_unfinished (Or.inl (Option.isSome_iff_ne_none.mpr hwaits)))

end TopologyExporter.App.Publisher
