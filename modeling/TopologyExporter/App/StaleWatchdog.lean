import TopologyExporter.App.Publish
import TopologyExporter.Foundation.Transition
import TopologyExporter.GoLib.Clock

/-! # The stale watchdog

The discovery loop stores the status of a cycle, publishes the graph and clears the
gauge that says the graph is stale. A watchdog loads the status from time to time
and sets the gauge when the cycle it read about is too old. The two do not wait for
each other: the watchdog may hold a status that has been replaced since, and set the
gauge for it after the loop has cleared it.
-/

namespace TopologyExporter.App.Watchdog

open Go Discovery Transition

structure CycleStatus where
  lastCycleAt : Time
  deviceErrors : Int
deriving DecidableEq

/-- Whether a cycle that completed at `last` is older than the threshold. -/
def isStale (now last : Time) (threshold : Duration) : Bool :=
  if threshold ≤ 0 then false else decide (threshold < now.sub last)

inductive LoopPhase where
  | between
  | walking
  | stored
deriving DecidableEq

inductive WatchdogPhase where
  | idle
  | loaded (status : CycleStatus)
  | stale (status : CycleStatus)
deriving DecidableEq

/-- The last reading of the clock, what the loop and the watchdog share, and where
they are. `published` says that the most recent cycle has cleared the gauge. -/
structure State where
  clock : Time
  status : Option CycleStatus
  graphStale : Nat
  loop : LoopPhase
  published : Bool
  watchdog : WatchdogPhase
deriving DecidableEq

/-- The loop starts a cycle, stores its status, publishes its graph, or ends it early.
The watchdog loads the status, tests it, and sets the gauge. -/
inductive Action where
  | beginCycle
  | storeStatus (now : Time) (deviceErrors : Int)
  | publish (cycle : CycleResult)
  | abort
  | load
  | test (now : Time)
  | setStale
  | wait (now : Time)

/-- The loop has been started and serves the snapshot on disk. -/
def startup (clock : Time) : State := ⟨clock, none, 1, .between, false, .idle⟩

/-! ## Steps -/

/-- A reading of the clock. -/
def State.read (state : State) (now : Time) : Option State :=
  if state.clock.Follows now then some { state with clock := now } else none

/-- A graph over its size budget is not published, and the gauge stays as it is. -/
def State.publish (cfg : Config) (state : State) (cycle : CycleResult) : State :=
  if (0 < cfg.maxGraphDevices ∧ cfg.maxGraphDevices < cycle.graph.devices.length) ∨
      (0 < cfg.maxGraphEdges ∧ cfg.maxGraphEdges < cycle.graph.edges.length) then
    { state with loop := .between }
  else
    { state with loop := .between, graphStale := 0, published := true }

variable (cfg : Config) (maxStale : Duration)

def step (action : Action) (state : State) : Option State :=
  match action with
  | .beginCycle =>
      if state.loop = .between then some { state with loop := .walking, published := false }
      else none
  | .storeStatus now deviceErrors =>
      if state.loop = .walking then
        (state.read now).map (fun state => { state with
          status := some ⟨now, deviceErrors⟩
          loop := .stored })
      else none
  | .publish cycle => if state.loop = .stored then some (state.publish cfg cycle) else none
  | .abort => if state.loop = .between then none else some { state with loop := .between }
  | .load =>
      if state.watchdog = .idle then
        some { state with watchdog := state.status.elim .idle .loaded }
      else none
  | .test now =>
      match state.watchdog with
      | .loaded status => (state.read now).map (fun state => { state with
          watchdog := if isStale now status.lastCycleAt maxStale then .stale status else .idle })
      | _ => none
  | .setStale =>
      match state.watchdog with
      | .stale _ => some { state with graphStale := 1, watchdog := .idle }
      | _ => none
  | .wait now => state.read now

/-! ## Late alarms -/

/-- The status that the watchdog goes by. -/
def WatchdogPhase.status : WatchdogPhase → Option CycleStatus
  | .idle => none
  | .loaded status => some status
  | .stale status => some status

/-- The cycle completed no longer ago than the threshold. -/
def Fresh (maxStale : Duration) (clock : Time) (status : CycleStatus) : Prop :=
  clock.sub status.lastCycleAt ≤ maxStale

/-- The most recent cycle has been published, is fresh, and the loop waits for the next. -/
def Settled (state : State) : Prop :=
  state.loop = .between ∧ state.published = true ∧
    ∃ status ∈ state.status, Fresh maxStale state.clock status

/-- When a fresh cycle has been published, the watchdog does not set the gauge for an
earlier one. -/
def NotLate (action : Action) (state : State) : Prop :=
  action = .setStale → state.published = true →
    ∀ status ∈ state.status, Fresh maxStale state.clock status →
      ∀ loaded, state.watchdog = .stale loaded → loaded = status

/-- What the clock and the two goroutines guarantee on their own. -/
structure Consistent (state : State) : Prop where
  between : state.published = true → state.loop = .between
  known : state.published = true ∨ state.loop = .stored → state.status.isSome = true
  stored : ∀ status ∈ state.status, status.lastCycleAt.Follows state.clock
  loaded : ∀ status ∈ state.watchdog.status, status.lastCycleAt.Follows state.clock
  stale : ∀ status, state.watchdog = .stale status → ¬ Fresh maxStale state.clock status

variable {cfg maxStale}

theorem consistent_startup (clock : Time) : Consistent maxStale (startup clock) := by
  constructor <;> simp [startup, WatchdogPhase.status]

/-- What is fresh now was fresh before. -/
theorem Fresh.of_follows {clock now : Time} {status : CycleStatus}
    (hfresh : Fresh maxStale now status) (hread : status.lastCycleAt.Follows clock)
    (hfollows : clock.Follows now) : Fresh maxStale clock status := by
  unfold Fresh at hfresh ⊢
  have hgap := Time.gap_add hread.1 (hread.trans hfollows).1
  have hle : Time.gap status.lastCycleAt clock ≤ Time.gap status.lastCycleAt now := by
    have := hfollows.2
    omega
  rw [Time.sub_eq_saturate_gap] at hfresh ⊢
  exact le_trans (max_le_max le_rfl (min_le_min le_rfl hle)) hfresh

theorem not_fresh_of_isStale {now : Time} {status : CycleStatus}
    (hstale : isStale now status.lastCycleAt maxStale = true) : ¬ Fresh maxStale now status := by
  unfold isStale at hstale
  split at hstale
  next => cases hstale
  next => exact not_le.mpr (of_decide_eq_true hstale)

theorem exists_of_read {state next : State} {now : Time} (hread : state.read now = some next) :
    state.clock.Follows now ∧ next = { state with clock := now } := by
  unfold State.read at hread
  split at hread
  next hfollows => exact ⟨hfollows, (Option.some.inj hread).symm⟩
  next => cases hread

theorem Consistent.read {state : State} (hconsistent : Consistent maxStale state) {now : Time}
    (hfollows : state.clock.Follows now) : Consistent maxStale { state with clock := now } where
  between := hconsistent.between
  known := hconsistent.known
  stored := fun status hstatus => (hconsistent.stored status hstatus).trans hfollows
  loaded := fun status hstatus => (hconsistent.loaded status hstatus).trans hfollows
  stale := by
    intro status hwatchdog hfresh
    have hloaded : status ∈ state.watchdog.status := by
      rw [show state.watchdog = .stale status from hwatchdog]
      rfl
    exact hconsistent.stale status hwatchdog
      (hfresh.of_follows (hconsistent.loaded status hloaded) hfollows)

theorem follows_self (time : Time) : time.Follows time := ⟨rfl, (Time.gap_self time).ge⟩

theorem Consistent.step {action : Action} {state next : State}
    (hconsistent : Consistent maxStale state)
    (hstep : step cfg maxStale action state = some next) : Consistent maxStale next := by
  cases action with
  | beginCycle =>
      simp only [Watchdog.step, Option.ite_none_right_eq_some, Option.some.injEq] at hstep
      obtain ⟨-, rfl⟩ := hstep
      refine ⟨fun hpublished => absurd hpublished Bool.false_ne_true, ?_, hconsistent.stored,
        hconsistent.loaded, hconsistent.stale⟩
      simp
  | storeStatus now deviceErrors =>
      simp only [Watchdog.step, Option.ite_none_right_eq_some, Option.map_eq_some_iff] at hstep
      obtain ⟨hwalking, read, hread, rfl⟩ := hstep
      obtain ⟨hfollows, rfl⟩ := exists_of_read hread
      have hlater := hconsistent.read hfollows
      refine ⟨fun hpublished => ?_, fun _ => rfl, ?_, hlater.loaded, hlater.stale⟩
      · -- a status is only stored by a cycle that is still walking, which has published nothing
        have hbetween := hconsistent.between hpublished
        rw [hwalking] at hbetween
        cases hbetween
      · intro status hstatus
        cases hstatus
        exact follows_self now
  | publish cycle =>
      simp only [Watchdog.step, Option.ite_none_right_eq_some, Option.some.injEq] at hstep
      obtain ⟨hstored, rfl⟩ := hstep
      have hknown := hconsistent.known (Or.inr hstored)
      unfold State.publish
      split
      · exact ⟨fun _ => rfl, fun _ => hknown, hconsistent.stored, hconsistent.loaded,
          hconsistent.stale⟩
      · exact ⟨fun _ => rfl, fun _ => hknown, hconsistent.stored, hconsistent.loaded,
          hconsistent.stale⟩
  | abort =>
      simp only [Watchdog.step, Option.ite_none_left_eq_some, Option.some.injEq] at hstep
      obtain ⟨hbusy, rfl⟩ := hstep
      refine ⟨fun _ => rfl, fun hpublished => ?_, hconsistent.stored, hconsistent.loaded,
        hconsistent.stale⟩
      -- what was published before stays published, so its status is known
      exact hconsistent.known (Or.inl (hpublished.resolve_right (by simp)))
  | load =>
      simp only [Watchdog.step, Option.ite_none_right_eq_some, Option.some.injEq] at hstep
      obtain ⟨-, rfl⟩ := hstep
      refine ⟨hconsistent.between, hconsistent.known, hconsistent.stored, ?_, ?_⟩
      · cases hstatus : state.status with
        | none => simp [WatchdogPhase.status]
        | some status =>
            intro loaded hloaded
            cases hloaded
            exact hconsistent.stored status hstatus
      · cases state.status <;> simp
  | test now =>
      simp only [Watchdog.step] at hstep
      split at hstep
      next status hwatchdog =>
        obtain ⟨read, hread, rfl⟩ := Option.map_eq_some_iff.mp hstep
        obtain ⟨hfollows, rfl⟩ := exists_of_read hread
        have hlater := hconsistent.read hfollows
        -- the status that is tested is the one that was loaded, whatever was stored since
        have hread := hlater.loaded status (by simp [hwatchdog, WatchdogPhase.status])
        refine ⟨hlater.between, hlater.known, hlater.stored, ?_, ?_⟩
        · intro tested htested
          split at htested
          next =>
            cases htested
            exact hread
          next => cases htested
        · intro tested htested
          simp only at htested
          split at htested
          next hstale =>
            cases htested
            exact not_fresh_of_isStale hstale
          next => cases htested
      next => cases hstep
  | setStale =>
      simp only [Watchdog.step] at hstep
      split at hstep
      next status hwatchdog =>
        cases hstep
        exact ⟨hconsistent.between, hconsistent.known, hconsistent.stored,
          by simp [WatchdogPhase.status], by simp⟩
      next => cases hstep
  | wait now =>
      obtain ⟨hfollows, rfl⟩ := exists_of_read hstep
      exact hconsistent.read hfollows

/-- A published cycle that is fresh is not reported as stale. -/
def Quiet (maxStale : Duration) (state : State) : Prop :=
  state.published = true → ∀ status ∈ state.status, Fresh maxStale state.clock status →
    state.graphStale = 0

theorem Quiet.read {state : State} (hconsistent : Consistent maxStale state)
    (hquiet : Quiet maxStale state) {now : Time} (hfollows : state.clock.Follows now) :
    Quiet maxStale { state with clock := now } := by
  intro hpublished status hstatus hfresh
  exact hquiet hpublished status hstatus
    (hfresh.of_follows (hconsistent.stored status hstatus) hfollows)

theorem Quiet.step {action : Action} {state next : State}
    (hconsistent : Consistent maxStale state) (hnotLate : NotLate maxStale action state)
    (hquiet : Quiet maxStale state) (hstep : step cfg maxStale action state = some next) :
    Quiet maxStale next := by
  cases action with
  | beginCycle =>
      simp only [Watchdog.step, Option.ite_none_right_eq_some, Option.some.injEq] at hstep
      obtain ⟨-, rfl⟩ := hstep
      exact fun hpublished => absurd hpublished Bool.false_ne_true
  | storeStatus now deviceErrors =>
      simp only [Watchdog.step, Option.ite_none_right_eq_some, Option.map_eq_some_iff] at hstep
      obtain ⟨hwalking, read, hread, rfl⟩ := hstep
      obtain ⟨hfollows, rfl⟩ := exists_of_read hread
      intro hpublished
      have hbetween := hconsistent.between hpublished
      rw [hwalking] at hbetween
      cases hbetween
  | publish cycle =>
      simp only [Watchdog.step, Option.ite_none_right_eq_some, Option.some.injEq] at hstep
      obtain ⟨hstored, rfl⟩ := hstep
      unfold State.publish
      split
      · exact hquiet
      · exact fun _ _ _ _ => rfl
  | abort =>
      simp only [Watchdog.step, Option.ite_none_left_eq_some, Option.some.injEq] at hstep
      obtain ⟨-, rfl⟩ := hstep
      exact hquiet
  | load =>
      simp only [Watchdog.step, Option.ite_none_right_eq_some, Option.some.injEq] at hstep
      obtain ⟨-, rfl⟩ := hstep
      exact hquiet
  | test now =>
      simp only [Watchdog.step] at hstep
      split at hstep
      next status hwatchdog =>
        obtain ⟨read, hread, rfl⟩ := Option.map_eq_some_iff.mp hstep
        obtain ⟨hfollows, rfl⟩ := exists_of_read hread
        exact hquiet.read hconsistent hfollows
      next => cases hstep
  | setStale =>
      simp only [Watchdog.step] at hstep
      split at hstep
      next loaded hwatchdog =>
        cases hstep
        intro hpublished status hstatus hfresh
        -- The watchdog goes by this very status, and found it stale.
        have hsame := hnotLate rfl hpublished status hstatus hfresh loaded hwatchdog
        subst hsame
        exact absurd hfresh (hconsistent.stale loaded hwatchdog)
      next => cases hstep
  | wait now =>
      obtain ⟨hfollows, rfl⟩ := exists_of_read hstep
      exact hquiet.read hconsistent hfollows

/-- Along a run the gauge is clear whenever the most recent cycle has been published,
is fresh and the loop waits, exactly when the watchdog never sets it for an earlier
cycle after a fresh one has been published. -/
theorem gauge_clear_iff_never_late (cfg : Config) (maxStale : Duration) (clock : Time)
    (actions : List Action) :
    (∀ front state, front <+: actions →
      run (step cfg maxStale) front (startup clock) = some state →
      Settled maxStale state → state.graphStale = 0) ↔
    Throughout (step cfg maxStale) (NotLate maxStale) actions (startup clock) := by
  constructor
  · intro hclear
    rw [throughout_iff_forall_takes]
    intro front action state ⟨hfront, hreached⟩ haction hpublished status hstatus hfresh loaded
      hwatchdog
    subst haction
    have hconsistent : Consistent maxStale state :=
      run_invariant (fun action state next hconsistent hnext => hconsistent.step hnext)
        (consistent_startup clock) hreached
    -- If it is late all the same, the next state is settled and has the gauge set.
    have hnext : step cfg maxStale .setStale state =
        some { state with graphStale := 1, watchdog := .idle } := by
      simp only [step, hwatchdog]
    have hrun : run (step cfg maxStale) (front ++ [.setStale]) (startup clock) =
        some { state with graphStale := 1, watchdog := .idle } := by
      rw [run_append, hreached]
      exact run_cons_eq_some.mpr ⟨_, hnext, rfl⟩
    have hset := hclear _ _ hfront hrun
      ⟨hconsistent.between hpublished, hpublished, status, hstatus, hfresh⟩
    cases hset
  · intro hnotLate front state ⟨back, hactions⟩ hrun ⟨hbetween, hpublished, status, hstatus, hfresh⟩
    subst hactions
    have hquiet : Consistent maxStale state ∧ Quiet maxStale state := by
      refine @run_invariant_throughout _ _ (step cfg maxStale) (NotLate maxStale)
        (fun state => Consistent maxStale state ∧ Quiet maxStale state) ?_ front (startup clock)
        state ⟨consistent_startup clock, ?_⟩ (throughout_append.mp hnotLate).1 hrun
      · intro action state next hnotLate ⟨hconsistent, hquiet⟩ hnext
        exact ⟨hconsistent.step hnext, hquiet.step hconsistent hnotLate hnext⟩
      · exact fun hpublished => absurd hpublished Bool.false_ne_true
    exact hquiet.2 hpublished status hstatus hfresh

/-- A reading of the clock some seconds after the start of the process. -/
def seconds (count : Int) : Time := ⟨count * Time.second, some (count * Time.second)⟩

def emptyCycle : CycleResult := ⟨⟨[], [], []⟩, some ∅, [], 0⟩

/-- The second cycle takes four minutes. The watchdog finds the first one stale just
before the second is done, and sets the gauge just after. -/
def slowCycle : List Action :=
  [.beginCycle, .storeStatus (seconds 1) 0, .publish emptyCycle, .wait (seconds 60),
    .beginCycle, .load, .test (seconds 300), .storeStatus (seconds 300) 0, .publish emptyCycle,
    .setStale]

/-- The state after it: the second cycle has just been stored and published. -/
def slowCycleEnd : State :=
  ⟨seconds 300, some ⟨seconds 300, 0⟩, 1, .between, true, .idle⟩

theorem slow_cycle_reported_stale :
    run (step labConfig (3 * Time.minute)) slowCycle (startup (seconds 0)) = some slowCycleEnd ∧
      Settled (3 * Time.minute) slowCycleEnd ∧ slowCycleEnd.graphStale = 1 := by
  refine ⟨by decide, ⟨rfl, rfl, ⟨seconds 300, 0⟩, rfl, ?_⟩, rfl⟩
  rw [Fresh]
  decide

end TopologyExporter.App.Watchdog
