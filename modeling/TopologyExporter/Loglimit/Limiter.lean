import TopologyExporter.GoLib.Maps
import TopologyExporter.GoLib.Clock
import TopologyExporter.Foundation.Projection

/-! # Rate-limited warnings

A limiter lets a warning through if none with the same key was let through within a
cooldown. A call reads the clock first and then decides under a lock, so that the
order of the decisions need not be that of the clock readings. The number of keys
is bounded: where it is exceeded, the key that was let through the longest ago is
forgotten.
-/

namespace TopologyExporter.Loglimit

open Go Transition

open Go.Time (gap Follows gap_add gap_self sub_eq_saturate_gap)

/-! ## The limiter -/

def defaultCooldown : Int64 := 3600000000000

def defaultMaxKeys : Nat := 4096

/-- A limiter and the time of the last emission for each key. -/
structure Limiter where
  cooldown : Int64
  cooldown_pos : 0 < cooldown.toInt
  maxKeys : Nat
  seen : Map GoString Time

def newWithClock (cooldown : Int64) : Limiter :=
  if hpos : 0 < cooldown.toInt then ⟨cooldown, hpos, defaultMaxKeys, ∅⟩
  else ⟨defaultCooldown, by decide, defaultMaxKeys, ∅⟩

/-- A call with the default cooldown or with one of its own. -/
inductive Call where
  | warn (key : GoString)
  | warnEvery (key : GoString) (cooldown : Int64)
deriving DecidableEq

def Call.key : Call → GoString
  | .warn key => key
  | .warnEvery key _ => key

namespace Limiter

/-- The cooldown of a call. -/
def window (limiter : Limiter) : Call → Duration
  | .warn _ => limiter.cooldown.toInt
  | .warnEvery _ cooldown =>
      if cooldown.toInt ≤ 0 then limiter.cooldown.toInt else cooldown.toInt

def older (best : Option (GoString × Time)) (entry : GoString × Time) :
    Option (GoString × Time) :=
  match best with
  | none => some entry
  | some held => if held.2.after entry.2 then some entry else best

def evictOldestLocked (order : RangeOrder) (seen : Map GoString Time) : Map GoString Time :=
  match (seen.range order 0).foldl older none with
  | none => seen
  | some oldest => seen.erase oldest.1

/-- Whether a call that read `now` off the clock lets its warning through. -/
def allowed (limiter : Limiter) (call : Call) (now : Time) : Bool :=
  match limiter.seen.lookup call.key with
  | none => true
  | some lastEmit => limiter.window call ≤ now.sub lastEmit

/-- The critical section of a call. -/
def warnEvery (limiter : Limiter) (order : RangeOrder) (call : Call) (now : Time) : Limiter :=
  if limiter.allowed call now then
    let seen :=
      if limiter.seen.lookup call.key = none ∧ limiter.maxKeys ≤ limiter.seen.entries.length then
        evictOldestLocked order limiter.seen
      else limiter.seen
    { limiter with seen := seen.insert call.key now }
  else limiter

end Limiter

/-! ## Concurrent calls -/

/-- The calls in `pending` have read the clock and wait for the lock. -/
structure State where
  limiter : Limiter
  clock : Time
  pending : List (Call × Time)

inductive Action where
  | read (call : Call) (now : Time)
  | enter (call : Call) (now : Time) (order : RangeOrder)

def Action.key : Action → GoString
  | .read call _ => call.key
  | .enter call _ _ => call.key

/-- Calls with the given keys, in any interleaving. -/
def step (keys : Finset GoString) : Action → State → Option State
  | .read call now, state =>
      if call.key ∈ keys ∧ Follows state.clock now then
        some { state with clock := now, pending := state.pending ++ [(call, now)] }
      else none
  | .enter call now order, state =>
      if (call, now) ∈ state.pending then
        some { state with
          limiter := state.limiter.warnEvery order call now
          pending := state.pending.erase (call, now) }
      else none

/-- What became of a call. -/
structure Decision where
  call : Call
  time : Time
  emitted : Bool
deriving DecidableEq

def observe : Action → State → Option Decision
  | .read _ _, _ => none
  | .enter call now _, state => some ⟨call, now, state.limiter.allowed call now⟩

/-- A limiter that no call has used yet. -/
def start (limiter : Limiter) (clock : Time) : State := ⟨limiter, clock, []⟩

/-! ## Calls -/

namespace Limiter

variable {limiter : Limiter}

theorem window_pos (call : Call) : 0 < limiter.window call := by
  cases call with
  | warn key => exact limiter.cooldown_pos
  | warnEvery key cooldown =>
      rw [window]
      split
      next => exact limiter.cooldown_pos
      next hpos => exact not_le.mp hpos

theorem window_le (call : Call) : limiter.window call ≤ Strconv.maxInt := by
  have hmax : ∀ value : Int64, value.toInt ≤ Strconv.maxInt := by
    intro value
    have hlt := Int64.toInt_lt value
    unfold Strconv.maxInt
    omega
  cases call with
  | warn key => exact hmax _
  | warnEvery key cooldown =>
      rw [window]
      split
      · exact hmax _
      · exact hmax _

/-- The saturation of long gaps does not show: no cooldown is that long. -/
theorem window_le_sub_iff (call : Call) (earlier later : Time) :
    limiter.window call ≤ later.sub earlier ↔ limiter.window call ≤ gap earlier later := by
  rw [sub_eq_saturate_gap, Time.le_saturate_iff (window_pos call),
    and_iff_right (window_le call)]

/-! ## The critical section

Among at most `maxKeys` keys there is room for a key that is not yet there. -/

variable {keys : Finset GoString}

theorem evicts_nothing (hkeys : keys.card ≤ limiter.maxKeys)
    (hseen : ∀ key ∈ limiter.seen, key ∈ keys) {call : Call} (hcall : call.key ∈ keys)
    (hnew : limiter.seen.lookup call.key = none) :
    ¬ limiter.maxKeys ≤ limiter.seen.entries.length := by
  have hnodup : (call.key :: limiter.seen.keys).Nodup :=
    List.nodup_cons.mpr ⟨AList.lookup_eq_none.mp hnew, limiter.seen.nodupKeys⟩
  have hsubset : call.key :: limiter.seen.keys ⊆ keys.toList := by
    intro key hkey
    rw [Finset.mem_toList]
    rcases List.mem_cons.mp hkey with rfl | hheld
    · exact hcall
    · exact hseen key hheld
  have hlength := (List.subperm_of_subset hnodup hsubset).length_le
  rw [Finset.length_toList, List.length_cons, AList.keys, List.keys, List.length_map] at hlength
  omega

/-- What the critical section does to the table when the keys are few. -/
theorem warnEvery_eq (hkeys : keys.card ≤ limiter.maxKeys)
    (hseen : ∀ key ∈ limiter.seen, key ∈ keys) {call : Call} (hcall : call.key ∈ keys)
    (order : RangeOrder) (now : Time) :
    limiter.warnEvery order call now =
      if limiter.allowed call now then
        { limiter with seen := limiter.seen.insert call.key now }
      else limiter := by
  have hroom : ¬ (limiter.seen.lookup call.key = none ∧
      limiter.maxKeys ≤ limiter.seen.entries.length) :=
    fun hfull => evicts_nothing hkeys hseen hcall hfull.1 hfull.2
  rw [warnEvery, if_neg hroom]

end Limiter

/-! ## The law of the decisions -/

/-- The time of the last decision that let a warning with the key through. -/
def lastEmission (key : GoString) (history : List Decision) : Option Time :=
  ((history.filter (fun decision => decision.call.key = key ∧ decision.emitted)).getLast?).map
    Decision.time

theorem lastEmission_concat (key : GoString) (history : List Decision) (decision : Decision) :
    lastEmission key (history ++ [decision]) =
      if decision.call.key = key ∧ decision.emitted then some decision.time
      else lastEmission key history := by
  unfold lastEmission
  rw [List.filter_append]
  by_cases hemitted : decision.call.key = key ∧ decision.emitted
  · simp [hemitted]
  · have hnone : [decision].filter (fun decision => decide (decision.call.key = key ∧
        decision.emitted)) = [] :=
      List.filter_cons_of_neg (by simpa using hemitted)
    rw [hnone, List.append_nil, if_neg hemitted]

/-- A decision after others lets the warning through unless the last one for its key
was let through less than a cooldown before. -/
def Decides (limiter : Limiter) (history : List Decision) (decision : Decision) : Prop :=
  decision.emitted = true ↔ ∀ last, lastEmission decision.call.key history = some last →
    limiter.window decision.call ≤ gap last decision.time

def Lawful (limiter : Limiter) (history : List Decision) : Prop :=
  ∀ front decision back, history = front ++ decision :: back → Decides limiter front decision

theorem lawful_concat {limiter : Limiter} {history : List Decision} {decision : Decision} :
    Lawful limiter (history ++ [decision]) ↔
      Lawful limiter history ∧ Decides limiter history decision := by
  constructor
  · intro hlawful
    refine ⟨?_, hlawful history decision [] rfl⟩
    intro front earlier back hhistory
    apply hlawful front earlier (back ++ [decision])
    rw [hhistory, List.append_assoc, List.cons_append]
  · intro hlawful front earlier back hhistory
    rcases List.eq_nil_or_concat back with rfl | ⟨rest, last, rfl⟩
    · obtain ⟨rfl, rfl⟩ := List.append_singleton_inj.mp hhistory
      exact hlawful.2
    · rw [List.concat_eq_append, ← List.cons_append, ← List.append_assoc] at hhistory
      exact hlawful.1 front earlier rest (List.append_singleton_inj.mp hhistory).1

section Spacing

variable {limiter : Limiter} {monotonic : Bool} {history : List Decision}

/-- The last emission for a key is not before any other. -/
theorem exists_lastEmission (hlawful : Lawful limiter history)
    (hkind : ∀ decision ∈ history, decision.time.mono.isSome = monotonic) {decision : Decision}
    (hmem : decision ∈ history) (hemitted : decision.emitted = true) :
    ∃ last, lastEmission decision.call.key history = some last ∧
      last.mono.isSome = monotonic ∧ 0 ≤ gap decision.time last := by
  induction history using List.reverseRecOn with
  | nil => cases hmem
  | append_singleton front latest ih =>
      obtain ⟨hfront, hlatest⟩ := lawful_concat.mp hlawful
      rw [List.forall_mem_append, List.forall_mem_singleton] at hkind
      obtain ⟨hkinds, hlast⟩ := hkind
      rw [lastEmission_concat]
      by_cases hnew : latest.call.key = decision.call.key ∧ latest.emitted = true
      · rw [if_pos hnew]
        refine ⟨latest.time, rfl, hlast, ?_⟩
        rcases List.mem_append.mp hmem with hearlier | hsame
        · obtain ⟨last, hfound, hmono, hgap⟩ := ih hfront hkinds hearlier
          have hwindow := hlatest.mp hnew.2 last (hnew.1 ▸ hfound)
          have hpos := limiter.window_pos latest.call
          have htime := hkinds decision hearlier
          rw [gap_add (hmono.trans htime.symm) (hlast.trans htime.symm)]
          exact add_nonneg hgap (hpos.le.trans hwindow)
        · rw [List.mem_singleton.mp hsame, gap_self]
      · rw [if_neg hnew]
        rcases List.mem_append.mp hmem with hearlier | hsame
        · exact ih hfront hkinds hearlier
        · rw [List.mem_singleton.mp hsame] at hemitted hnew
          exact absurd ⟨rfl, hemitted⟩ hnew

/-- Emissions for a key are apart by the cooldown of the later one. -/
theorem emissions_apart (hlawful : Lawful limiter history)
    (hkind : ∀ decision ∈ history, decision.time.mono.isSome = monotonic) :
    history.Pairwise (fun first second => first.emitted = true → second.emitted = true →
      first.call.key = second.call.key →
      limiter.window second.call ≤ gap first.time second.time) := by
  induction history using List.reverseRecOn with
  | nil => exact List.Pairwise.nil
  | append_singleton front latest ih =>
      obtain ⟨hfront, hlatest⟩ := lawful_concat.mp hlawful
      rw [List.forall_mem_append, List.forall_mem_singleton] at hkind
      obtain ⟨hkinds, hlast⟩ := hkind
      rw [List.pairwise_append]
      refine ⟨ih hfront hkinds, List.pairwise_singleton _ _, ?_⟩
      intro first hfirst second hsecond hemitted hagain hkey
      rw [List.mem_singleton.mp hsecond] at hagain hkey ⊢
      obtain ⟨last, hfound, hmono, hgap⟩ := exists_lastEmission hfront hkinds hfirst hemitted
      have hwindow := hlatest.mp hagain last (hkey ▸ hfound)
      have htime := hkinds first hfirst
      rw [gap_add (hmono.trans htime.symm) (hlast.trans htime.symm)]
      linarith

/-- The last emission is that of the last decision that let a warning through. -/
theorem lastEmission_append {front between : List Decision} {last : Decision}
    (hemitted : last.emitted = true)
    (hbetween : ∀ decision ∈ between, decision.call.key = last.call.key →
      decision.emitted = false) :
    lastEmission last.call.key (front ++ last :: between) = some last.time := by
  have hnone : between.filter (fun decision => decide (decision.call.key = last.call.key ∧
      decision.emitted)) = [] := by
    rw [List.filter_eq_nil_iff]
    intro decision hdecision hboth
    obtain ⟨hkey, hagain⟩ := of_decide_eq_true hboth
    rw [hbetween decision hdecision hkey] at hagain
    cases hagain
  rw [lastEmission, List.filter_append, List.filter_cons_of_pos (by simp [hemitted]), hnone,
    List.getLast?_append]
  rfl

theorem lastEmission_eq_none {key : GoString}
    (hnone : ∀ decision ∈ history, decision.call.key ≠ key) : lastEmission key history = none := by
  have hfilter : history.filter (fun decision => decide (decision.call.key = key ∧
      decision.emitted)) = [] := by
    rw [List.filter_eq_nil_iff]
    intro decision hdecision hboth
    exact hnone decision hdecision (of_decide_eq_true hboth).1
  rw [lastEmission, hfilter]
  rfl

end Spacing

/-! ## Runs -/

theorem Limiter.window_congr {limiter other : Limiter}
    (hcooldown : limiter.cooldown = other.cooldown) :
    limiter.window = other.window := by
  funext call
  cases call with
  | warn key => simp only [window, hcooldown]
  | warnEvery key cooldown => simp only [window, hcooldown]

/-- The settings are those of `limiter`, and only the given keys are in use. -/
structure Settled (limiter : Limiter) (keys : Finset GoString) (state : State) : Prop where
  cooldown : state.limiter.cooldown = limiter.cooldown
  maxKeys : state.limiter.maxKeys = limiter.maxKeys
  seen : ∀ key ∈ state.limiter.seen, key ∈ keys
  pending : ∀ request ∈ state.pending, request.1.key ∈ keys

section Runs

variable {limiter : Limiter} {keys : Finset GoString} (hkeys : keys.card ≤ limiter.maxKeys)
  {call : Call} {state next view : State} {action : Action} {key : GoString}

include hkeys in
/-- The critical section sets the time of its own key, and that only if the warning
is let through. -/
theorem Settled.warnEvery_eq (hsettled : Settled limiter keys state) (hcall : call.key ∈ keys)
    (order : RangeOrder) (now : Time) :
    state.limiter.warnEvery order call now =
      if state.limiter.allowed call now then
        { state.limiter with seen := state.limiter.seen.insert call.key now }
      else state.limiter :=
  Limiter.warnEvery_eq (hsettled.maxKeys ▸ hkeys) hsettled.seen hcall order now

include hkeys in
theorem Settled.lookup_warnEvery (hsettled : Settled limiter keys state) (hcall : call.key ∈ keys)
    (order : RangeOrder) (now : Time) (key : GoString) :
    (state.limiter.warnEvery order call now).seen.lookup key =
      if call.key = key ∧ state.limiter.allowed call now = true then some now
      else state.limiter.seen.lookup key := by
  rw [hsettled.warnEvery_eq hkeys hcall]
  by_cases hallowed : state.limiter.allowed call now = true
  · rw [if_pos hallowed]
    by_cases hkey : call.key = key
    · simp [hkey, hallowed]
    · rw [if_neg (fun hboth => hkey hboth.1)]
      exact AList.lookup_insert_ne (Ne.symm hkey)
  · rw [if_neg hallowed, if_neg (fun hboth => hallowed hboth.2)]

include hkeys in
theorem Settled.step (hsettled : Settled limiter keys state)
    (hstep : step keys action state = some next) : Settled limiter keys next := by
  cases action with
  | read call now =>
      rw [Loglimit.step] at hstep
      split_ifs at hstep with hread
      cases hstep
      refine { hsettled with pending := ?_ }
      intro request hrequest
      rcases List.mem_append.mp hrequest with hheld | hnew
      · exact hsettled.pending request hheld
      · rw [List.mem_singleton.mp hnew]
        exact hread.1
  | enter call now order =>
      rw [Loglimit.step] at hstep
      split_ifs at hstep with hpending
      cases hstep
      have hcall := hsettled.pending _ hpending
      have hlimiter := hsettled.warnEvery_eq hkeys hcall order now
      refine ⟨?_, ?_, ?_, fun request hrequest =>
        hsettled.pending request (List.mem_of_mem_erase hrequest)⟩
      · simp only [hlimiter]
        split <;> exact hsettled.cooldown
      · simp only [hlimiter]
        split <;> exact hsettled.maxKeys
      · simp only [hlimiter]
        split
        · intro key hkey
          rcases (AList.mem_insert _).mp hkey with rfl | hheld
          · exact hcall
          · exact hsettled.seen key hheld
        · exact hsettled.seen

/-- The table holds the last emissions of a lawful history. -/
structure Consistent (limiter : Limiter) (keys : Finset GoString) (monotonic : Bool)
    (history : List Decision) (state : State) : Prop where
  settled : Settled limiter keys state
  seen : ∀ key, state.limiter.seen.lookup key = lastEmission key history
  lawful : Lawful limiter history
  kind : ∀ decision ∈ history, decision.time.mono.isSome = monotonic
  pendingKind : ∀ request ∈ state.pending, request.2.mono.isSome = monotonic
  clockKind : state.clock.mono.isSome = monotonic

theorem decides_allowed {history : List Decision}
    (hcooldown : state.limiter.cooldown = limiter.cooldown)
    (hseen : ∀ key, state.limiter.seen.lookup key = lastEmission key history) (call : Call)
    (now : Time) : Decides limiter history ⟨call, now, state.limiter.allowed call now⟩ := by
  unfold Decides Limiter.allowed
  simp only [hseen, Limiter.window_congr hcooldown]
  cases lastEmission call.key history with
  | none => simp
  | some last => simp [Limiter.window_le_sub_iff]

include hkeys in
theorem Consistent.step {monotonic : Bool} {history : List Decision}
    (hconsistent : Consistent limiter keys monotonic history state)
    (hstep : step keys action state = some next) :
    Consistent limiter keys monotonic (history ++ (observe action state).toList) next := by
  have hsettled := hconsistent.settled.step hkeys hstep
  cases action with
  | read call now =>
      rw [Loglimit.step] at hstep
      split_ifs at hstep with hread
      cases hstep
      have hnow := hread.2.1.trans hconsistent.clockKind
      rw [observe, Option.toList_none, List.append_nil]
      refine { hconsistent with settled := hsettled, pendingKind := ?_, clockKind := hnow }
      intro request hrequest
      rcases List.mem_append.mp hrequest with hheld | hnew
      · exact hconsistent.pendingKind request hheld
      · rw [List.mem_singleton.mp hnew]
        exact hnow
  | enter call now order =>
      rw [Loglimit.step] at hstep
      split_ifs at hstep with hpending
      cases hstep
      have hcall := hconsistent.settled.pending _ hpending
      rw [observe, Option.toList_some]
      refine ⟨hsettled, ?_, ?_, ?_, ?_, hconsistent.clockKind⟩
      · intro key
        rw [lastEmission_concat, hconsistent.settled.lookup_warnEvery hkeys hcall,
          hconsistent.seen]
      · exact lawful_concat.mpr ⟨hconsistent.lawful,
          decides_allowed hconsistent.settled.cooldown hconsistent.seen call now⟩
      · intro decision hdecision
        rcases List.mem_append.mp hdecision with hearlier | hnew
        · exact hconsistent.kind decision hearlier
        · rw [List.mem_singleton.mp hnew]
          exact hconsistent.pendingKind _ hpending
      · intro request hrequest
        exact hconsistent.pendingKind request (List.mem_of_mem_erase hrequest)

theorem settled_start (hfresh : limiter.seen = ∅) (clock : Time) :
    Settled limiter keys (start limiter clock) := by
  refine ⟨rfl, rfl, ?_, fun _ hrequest => absurd hrequest List.not_mem_nil⟩
  intro key hkey
  rw [start, hfresh] at hkey
  exact absurd hkey (AList.notMem_empty key)

include hkeys in
theorem run_consistent (hfresh : limiter.seen = ∅) {clock : Time} {actions : List Action}
    {final : State} (hrun : run (step keys) actions (start limiter clock) = some final) :
    Consistent limiter keys clock.mono.isSome
      (outputs (step keys) observe actions (start limiter clock)) final := by
  have hstart : Consistent limiter keys clock.mono.isSome [] (start limiter clock) := by
    refine ⟨settled_start hfresh clock, ?_, ?_, fun _ hmem => absurd hmem List.not_mem_nil,
      fun _ hmem => absurd hmem List.not_mem_nil, rfl⟩
    · intro key
      rw [start, hfresh, AList.lookup_empty]
      rfl
    · intro front decision back hnil
      exact absurd hnil.symm (by simp)
  have hall : Throughout (step keys) (fun _ _ => True) actions (start limiter clock) :=
    throughout_of_forall_mem (fun _ _ _ => trivial) _
  refine outputs_invariant_throughout ?_ hstart hall hrun
  intro history action state next _ hconsistent hstep
  exact hconsistent.step hkeys hstep

/-- Another limiter state that the calls for a key cannot tell from the first. -/
structure SameView (limiter : Limiter) (keys : Finset GoString) (key : GoString)
    (state view : State) : Prop where
  settled : Settled limiter keys state
  settledView : Settled limiter keys view
  lookup : view.limiter.seen.lookup key = state.limiter.seen.lookup key
  pending : view.pending = state.pending.filter (fun request => decide (request.1.key = key))
  clock : Follows view.clock state.clock

theorem SameView.allowed_eq (hview : SameView limiter keys key state view) (hkey : call.key = key)
    (now : Time) : view.limiter.allowed call now = state.limiter.allowed call now := by
  unfold Limiter.allowed
  rw [hkey, hview.lookup, Limiter.window_congr hview.settled.cooldown,
    Limiter.window_congr hview.settledView.cooldown]

include hkeys in
theorem SameView.step_other (hview : SameView limiter keys key state view)
    (hother : action.key ≠ key) (hstep : step keys action state = some next) :
    SameView limiter keys key next view := by
  have hsettled := hview.settled.step hkeys hstep
  cases action with
  | read call now =>
      rw [step] at hstep
      split_ifs at hstep with hread
      cases hstep
      refine { hview with settled := hsettled, pending := ?_, clock := hview.clock.trans hread.2 }
      have hkey : call.key ≠ key := hother
      rw [List.filter_append, ← hview.pending]
      simp [hkey]
  | enter call now order =>
      rw [step] at hstep
      split_ifs at hstep with hpending
      cases hstep
      have hcall := hview.settled.pending _ hpending
      refine { hview with settled := hsettled, lookup := ?_, pending := ?_ }
      · rw [hview.settled.lookup_warnEvery hkeys hcall, if_neg (fun hboth => hother hboth.1),
          hview.lookup]
      · have habsent : (call, now) ∉ view.pending := by
          rw [hview.pending]
          intro hmem
          exact hother (of_decide_eq_true (List.mem_filter.mp hmem).2)
        rw [← List.erase_filter, ← hview.pending, List.erase_of_not_mem habsent]

include hkeys in
theorem SameView.step_own (hview : SameView limiter keys key state view) (hown : action.key = key)
    (hstep : step keys action state = some next) :
    ∃ after, step keys action view = some after ∧ SameView limiter keys key next after := by
  have hsettled := hview.settled.step hkeys hstep
  cases action with
  | read call now =>
      rw [step] at hstep
      split_ifs at hstep with hread
      cases hstep
      have hafter : step keys (.read call now) view =
          some { view with clock := now, pending := view.pending ++ [(call, now)] } :=
        if_pos ⟨hread.1, hview.clock.trans hread.2⟩
      refine ⟨_, hafter, hsettled, hview.settledView.step hkeys hafter, hview.lookup, ?_, ?_⟩
      · have hkey : call.key = key := hown
        rw [List.filter_append, ← hview.pending]
        simp [hkey]
      · refine ⟨rfl, ?_⟩
        unfold gap
        cases now.mono <;> simp
  | enter call now order =>
      rw [step] at hstep
      split_ifs at hstep with hpending
      cases hstep
      have hmem : (call, now) ∈ view.pending := by
        rw [hview.pending]
        exact List.mem_filter.mpr ⟨hpending, decide_eq_true hown⟩
      have hcall := hview.settled.pending _ hpending
      have hafter : step keys (.enter call now order) view =
          some { view with
            limiter := view.limiter.warnEvery order call now
            pending := view.pending.erase (call, now) } :=
        if_pos hmem
      refine ⟨_, hafter, hsettled, hview.settledView.step hkeys hafter, ?_, ?_, hview.clock⟩
      · rw [hview.settled.lookup_warnEvery hkeys hcall,
          hview.settledView.lookup_warnEvery hkeys hcall, hview.allowed_eq hown, hview.lookup]
      · simp only [hview.pending, List.erase_filter]

/-- The calls for one key. -/
def callsFor (limiter : Limiter) (keys : Finset GoString) (hkeys : keys.card ≤ limiter.maxKeys)
    (key : GoString) : Projection (step keys) observe where
  own action := action.key = key
  keep decision := decision.call.key = key
  agree := SameView limiter keys key
  keep_observe := by
    intro action state output hobserve
    cases action with
    | read call now => cases hobserve
    | enter call now order =>
        cases hobserve
        rfl
  agree_other := by
    intro action state next view hother hview hstep
    exact hview.step_other hkeys (of_decide_eq_false hother) hstep
  agree_own := by
    intro action state next view hown hview hstep
    have hkey := of_decide_eq_true hown
    refine ⟨?_, hview.step_own hkeys hkey hstep⟩
    cases action with
    | read call now => rfl
    | enter call now order => rw [observe, observe, hview.allowed_eq hkey]

end Runs

/-- Whatever the interleaving of calls with at most `maxKeys` keys: emissions for a
key with one cooldown are at least that far apart; the first call for a key is let
through, and so is a call that comes a cooldown after the last emission for its key;
and the calls for a key fare as they do when there are no others. Calls are taken in
the order in which they hold the lock. -/
theorem warnings_limited (limiter : Limiter) (hfresh : limiter.seen = ∅) (keys : Finset GoString)
    (hkeys : keys.card ≤ limiter.maxKeys) (clock : Time) (actions : List Action) (final : State)
    (hrun : run (step keys) actions (start limiter clock) = some final) :
    (outputs (step keys) observe actions (start limiter clock)).Pairwise (fun first second =>
      first.emitted = true → second.emitted = true → first.call.key = second.call.key →
      limiter.window first.call = limiter.window second.call →
      limiter.window first.call ≤ gap first.time second.time) ∧
    (∀ (front : List Decision) (decision : Decision) (back : List Decision),
      outputs (step keys) observe actions (start limiter clock) = front ++ decision :: back →
      (∀ earlier ∈ front, earlier.call.key ≠ decision.call.key) → decision.emitted = true) ∧
    (∀ (front : List Decision) (last : Decision) (between : List Decision) (decision : Decision)
        (back : List Decision),
      outputs (step keys) observe actions (start limiter clock) =
        front ++ last :: between ++ decision :: back →
      last.emitted = true → last.call.key = decision.call.key →
      (∀ earlier ∈ between, earlier.call.key = decision.call.key → earlier.emitted = false) →
      limiter.window decision.call ≤ gap last.time decision.time → decision.emitted = true) ∧
    ∀ key, (∃ last, run (step keys) (actions.filter (fun action => action.key = key))
        (start limiter clock) = some last) ∧
      outputs (step keys) observe (actions.filter (fun action => action.key = key))
          (start limiter clock) =
        (outputs (step keys) observe actions (start limiter clock)).filter
          (fun decision => decision.call.key = key) := by
  have hconsistent := run_consistent hkeys hfresh hrun
  refine ⟨?_, ?_, ?_, ?_⟩
  · apply (emissions_apart hconsistent.lawful hconsistent.kind).imp
    intro first second hapart hfirst hsecond hkey hwindow
    rw [hwindow]
    exact hapart hfirst hsecond hkey
  · intro front decision back hhistory hnone
    -- a call is let through exactly if no emission for its key is within the cooldown
    apply (hconsistent.lawful front decision back hhistory).mpr
    intro last hlast
    rw [lastEmission_eq_none hnone] at hlast
    cases hlast
  · intro front last between decision back hhistory hemitted hkey hbetween hwindow
    apply (hconsistent.lawful (front ++ last :: between) decision back hhistory).mpr
    intro latest hlatest
    rw [← hkey, lastEmission_append hemitted (fun earlier hearlier hsame =>
      hbetween earlier hearlier (hsame.trans hkey))] at hlatest
    cases hlatest
    exact hwindow
  · intro key
    -- without the calls for other keys the table is smaller, but the same for this key
    refine (callsFor limiter keys hkeys key).run_filter ?_ hrun
    refine ⟨settled_start hfresh clock, settled_start hfresh clock, rfl, rfl, rfl, ?_⟩
    unfold gap
    simp only [start]
    cases clock.mono <;> simp

/-! ## Two callers that overtake each other -/

/-- A reading of the running clock, in seconds. -/
def reading (seconds : Int) : Time := ⟨seconds * Time.second, some (seconds * Time.second)⟩

/-- Two calls for `push` read the clock one after the other and enter in the other
order, with a call for `walk` between them; later `push` is tried twice more. -/
def overtaking : List Action :=
  [.read (.warn (str "push")) (reading 1), .read (.warn (str "push")) (reading 2),
    .enter (.warn (str "push")) (reading 2) .insertion,
    .read (.warnEvery (str "walk") 5) (reading 3),
    .enter (.warnEvery (str "walk") 5) (reading 3) .insertion,
    .enter (.warn (str "push")) (reading 1) .insertion,
    .read (.warn (str "push")) (reading 3601),
    .enter (.warn (str "push")) (reading 3601) .insertion,
    .read (.warn (str "push")) (reading 3602),
    .enter (.warn (str "push")) (reading 3602) .insertion]

/-- The second of the overtaking calls comes too early, and so does the one an hour
after the reading of the first; the call an hour after the emission does not. -/
theorem overtaking_limited :
    (outputs (step {str "push", str "walk"}) observe overtaking
        (start (newWithClock 0) (reading 0))).map Decision.emitted =
      [true, true, false, false, true] ∧
    (outputs (step {str "push", str "walk"}) observe overtaking
        (start (newWithClock 0) (reading 0))).Pairwise (fun first second =>
      first.emitted = true → second.emitted = true → first.call.key = second.call.key →
      (newWithClock 0).window first.call = (newWithClock 0).window second.call →
      (newWithClock 0).window first.call ≤ gap first.time second.time) := by
  have hsome : (run (step {str "push", str "walk"}) overtaking
      (start (newWithClock 0) (reading 0))).isSome := by
    decide
  obtain ⟨final, hrun⟩ := Option.isSome_iff_exists.mp hsome
  have hkeys : ({str "push", str "walk"} : Finset GoString).card ≤ (newWithClock 0).maxKeys := by
    decide
  refine ⟨by decide, ?_⟩
  exact (warnings_limited (newWithClock 0) rfl {str "push", str "walk"} hkeys (reading 0)
    overtaking final hrun).1

end TopologyExporter.Loglimit
