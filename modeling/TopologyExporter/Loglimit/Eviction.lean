import TopologyExporter.Loglimit.Limiter

/-! # Which key is forgotten

A new key that finds the table full takes the place of another one. Times are only
recorded for warnings that were let through, so it is the key whose last emission is
the oldest that has to go. A suppressed warning is a use of its key all the same, and
the key that has to go may be the one that was used last.
-/

namespace TopologyExporter.Loglimit

open Go Transition

/-! ## Calls one after the other -/

/-- A call, what it reads off the clock, and the order in which it would go through the
table. -/
structure Turn where
  call : Call
  now : Time
  order : RangeOrder

def callStep (turn : Turn) (limiter : Limiter) : Option Limiter :=
  some (limiter.warnEvery turn.order turn.call turn.now)

def verdict (turn : Turn) (limiter : Limiter) : Option Decision :=
  some ⟨turn.call, turn.now, limiter.allowed turn.call turn.now⟩

/-- The clock shows a later time at every call. -/
def Ticking (turns : List Turn) : Prop :=
  turns.Pairwise (fun earlier later => later.now.after earlier.now = true)

/-- The call has a new key, and there is no room for it. -/
def Overflows (limiter : Limiter) (turn : Turn) : Prop :=
  turn.call.key ∉ limiter.seen ∧ limiter.maxKeys ≤ limiter.seen.entries.length

/-- The call makes the limiter forget the key. -/
def Evicts (limiter : Limiter) (turn : Turn) (key : GoString) : Prop :=
  key ∈ limiter.seen ∧ key ∉ (limiter.warnEvery turn.order turn.call turn.now).seen

/-- The time of the last call with the key, whether its warning was let through or not. -/
def lastCall (key : GoString) (history : List Decision) : Option Time :=
  ((history.filter (fun decision => decision.call.key = key)).getLast?).map Decision.time

/-- Every other key in the table was used after the given one was. -/
def LeastRecentlySeen (history : List Decision) (limiter : Limiter) (key : GoString) : Prop :=
  ∀ other ∈ limiter.seen, other ≠ key → ∀ last otherLast,
    lastCall key history = some last → lastCall other history = some otherLast →
      otherLast.after last = true

/-- Every other key in the table has a later emission than the given one. -/
def LeastRecentlyEmitted (limiter : Limiter) (key : GoString) : Prop :=
  ∃ emission, limiter.seen.lookup key = some emission ∧
    ∀ other otherEmission, other ≠ key → limiter.seen.lookup other = some otherEmission →
      otherEmission.after emission = true

/-! ## Histories -/

section History

variable {history : List Decision}
  (hticking : (history.map Decision.time).Pairwise
    (fun earlier later => later.after earlier = true))

include hticking

/-- Of the decisions of a kind, the last one is later than any other. -/
theorem exists_last_of_kind {kind : Decision → Bool} {last : Time}
    (hlast : ((history.filter kind).getLast?).map Decision.time = some last) :
    ∃ final ∈ history, kind final = true ∧ final.time = last ∧
      ∀ decision ∈ history, kind decision = true →
        decision = final ∨ last.after decision.time = true := by
  obtain ⟨final, hfinal, rfl⟩ := Option.map_eq_some_iff.mp hlast
  obtain ⟨front, hfront⟩ := List.getLast?_eq_some_iff.mp hfinal
  have hmem : final ∈ history.filter kind := by simp [hfront]
  have hpairwise := (List.pairwise_map.mp hticking).sublist
    (List.filter_sublist (l := history) (p := kind))
  rw [hfront, List.pairwise_append] at hpairwise
  refine ⟨final, (List.mem_filter.mp hmem).1, (List.mem_filter.mp hmem).2, rfl, ?_⟩
  intro decision hdecision hkind
  have hfiltered := List.mem_filter.mpr ⟨hdecision, hkind⟩
  rw [hfront, List.mem_append, List.mem_singleton] at hfiltered
  rcases hfiltered with hearlier | hsame
  · exact Or.inr (hpairwise.2.2 decision hearlier final (List.mem_singleton_self _))
  · exact Or.inl hsame

/-- What is after one time of the history is after the times before that one. -/
theorem after_trans {first second third : Decision} (hfirst : first ∈ history)
    (hsecond : second ∈ history) (hthird : third ∈ history)
    (hlater : second.time.after first.time = true)
    (hlatest : third.time.after second.time = true) : third.time.after first.time = true := by
  have hplace : ∀ earlier ∈ history, ∀ later ∈ history,
      (later.time.after earlier.time = true ↔ (history.map Decision.time).idxOf earlier.time <
        (history.map Decision.time).idxOf later.time) := fun earlier hearlier later hmem =>
    Time.after_iff_idxOf_lt hticking (List.mem_map_of_mem hearlier) (List.mem_map_of_mem hmem)
  rw [hplace first hfirst second hsecond] at hlater
  rw [hplace second hsecond third hthird] at hlatest
  exact (hplace first hfirst third hthird).mpr (hlater.trans hlatest)

/-- Decisions at one time are one decision. -/
theorem eq_of_time_eq {first second : Decision} (hfirst : first ∈ history)
    (hsecond : second ∈ history) (htime : first.time = second.time) : first = second := by
  have hnodup : (history.map Decision.time).Nodup := by
    refine hticking.imp ?_
    intro earlier later hafter heq
    rw [heq, Time.after_self] at hafter
    cases hafter
  exact List.inj_on_of_nodup_map hnodup hfirst hsecond htime

theorem exists_lastCall {decision : Decision} (hmem : decision ∈ history) :
    ∃ final ∈ history, final.call.key = decision.call.key ∧
      lastCall decision.call.key history = some final.time ∧
      (decision = final ∨ final.time.after decision.time = true) := by
  have hne : history.filter (fun other => other.call.key = decision.call.key) ≠ [] :=
    List.ne_nil_of_mem (List.mem_filter.mpr ⟨hmem, decide_eq_true rfl⟩)
  have hsome : lastCall decision.call.key history = some
      ((history.filter (fun other => other.call.key = decision.call.key)).getLast hne).time := by
    rw [lastCall, List.getLast?_eq_some_getLast hne, Option.map_some]
  obtain ⟨final, hfinal, hkey, htime, hothers⟩ := exists_last_of_kind hticking hsome
  refine ⟨final, hfinal, of_decide_eq_true hkey, htime ▸ hsome, ?_⟩
  rw [htime]
  exact hothers decision hmem (decide_eq_true rfl)

end History

/-! ## The table -/

/-- The times in the table are those of the last emissions. -/
def Recorded (history : List Decision) (limiter : Limiter) : Prop :=
  ∀ key emission, limiter.seen.lookup key = some emission →
    lastEmission key history = some emission

theorem lookup_evictOldestLocked {order : RangeOrder} {seen : Map GoString Time} {key : GoString}
    {emission : Time}
    (hlookup : (Limiter.evictOldestLocked order seen).lookup key = some emission) :
    seen.lookup key = some emission := by
  unfold Limiter.evictOldestLocked at hlookup
  split at hlookup
  next => exact hlookup
  next oldest holdest =>
    by_cases hkey : key = oldest.1
    · rw [hkey, AList.lookup_erase] at hlookup
      cases hlookup
    · rwa [AList.lookup_erase_ne hkey] at hlookup

variable {limiter held : Limiter} {count : Nat}

theorem Recorded.step {history : List Decision} {next : Limiter} {turn : Turn}
    (hrecorded : Recorded history limiter) (hstep : callStep turn limiter = some next) :
    Recorded (history ++ (verdict turn limiter).toList) next := by
  cases hstep
  intro key emission hlookup
  rw [verdict, Option.toList_some, lastEmission_concat]
  unfold Limiter.warnEvery at hlookup
  split at hlookup
  next hallowed =>
    by_cases hkey : turn.call.key = key
    · subst hkey
      rw [AList.lookup_insert] at hlookup
      rw [if_pos ⟨rfl, hallowed⟩]
      exact hlookup
    · rw [AList.lookup_insert_ne (Ne.symm hkey)] at hlookup
      rw [if_neg (fun hboth => hkey hboth.1)]
      apply hrecorded
      split at hlookup
      next => exact lookup_evictOldestLocked hlookup
      next => exact hlookup
  next hsuppressed =>
    rw [if_neg (fun hboth => hsuppressed hboth.2)]
    exact hrecorded key emission hlookup

theorem recorded_run {turns : List Turn} (hfresh : limiter.seen = ∅)
    (hrun : run callStep turns limiter = some held) :
    Recorded (outputs callStep verdict turns limiter) held := by
  have hstart : Recorded [] limiter := by
    intro key emission hlookup
    rw [hfresh, AList.lookup_empty] at hlookup
    cases hlookup
  exact outputs_invariant_throughout
    (fun history turn state next (_ : True) hrecorded hstep => Recorded.step hrecorded hstep)
    hstart (throughout_of_forall_mem (fun _ _ _ => trivial) limiter) hrun

/-- There is a decision for every call, with its time. -/
theorem outputs_calls (turns : List Turn) (limiter : Limiter) :
    (outputs callStep verdict turns limiter).map (fun decision => (decision.call, decision.time)) =
      turns.map (fun turn => (turn.call, turn.now)) := by
  induction turns generalizing limiter with
  | nil => rfl
  | cons turn rest ih =>
      rw [outputs, List.map_append, List.map_cons]
      exact congrArg ((turn.call, turn.now) :: ·) (ih _)

theorem outputs_times (turns : List Turn) (limiter : Limiter) :
    (outputs callStep verdict turns limiter).map Decision.time = turns.map Turn.now := by
  have hcalls := congrArg (List.map Prod.snd) (outputs_calls turns limiter)
  rwa [List.map_map, List.map_map] at hcalls

theorem Ticking.outputs {turns : List Turn} (hticking : Ticking turns) (limiter : Limiter) :
    ((outputs callStep verdict turns limiter).map Decision.time).Pairwise
      (fun earlier later => later.after earlier = true) := by
  rw [outputs_times, List.pairwise_map]
  exact hticking

/-! ## Evictions -/

/-- The entry that is found is the oldest, if the times can be put in order. -/
theorem foldl_older {place : Time → Nat} {entries : List (GoString × Time)}
    (hplace : ∀ first ∈ entries, ∀ second ∈ entries,
      (second.2.after first.2 = true ↔ place first.2 < place second.2)) :
    entries.foldl Limiter.older none = entries.argmin (fun entry => place entry.2) := by
  have hloop : ∀ (rest : List (GoString × Time)) (best : Option (GoString × Time)),
      (∀ entry ∈ rest, entry ∈ entries) → (∀ held, best = some held → held ∈ entries) →
      rest.foldl Limiter.older best =
        rest.foldl (List.argAux fun entry held => place entry.2 < place held.2) best := by
    intro rest
    induction rest with
    | nil => exact fun _ _ _ => rfl
    | cons entry rest ih =>
        intro best hrest hbest
        have hentry := hrest entry List.mem_cons_self
        have hsame : Limiter.older best entry =
            List.argAux (fun entry held => place entry.2 < place held.2) best entry := by
          cases best with
          | none => rfl
          | some held =>
              simp only [Limiter.older, List.argAux, hplace entry hentry held (hbest held rfl)]
        rw [List.foldl_cons, List.foldl_cons, hsame]
        apply ih
        · exact fun other hother => hrest other (List.mem_cons_of_mem _ hother)
        · intro held hheld
          rw [← hsame] at hheld
          cases best with
          | none =>
              cases hheld
              exact hentry
          | some earlier =>
              rw [Limiter.older] at hheld
              split at hheld
              next =>
                cases hheld
                exact hentry
              next => exact hbest held hheld
  exact hloop entries none (fun _ hentry => hentry) (fun _ hnone => by cases hnone)

section Table

variable {history : List Decision} {limiter : Limiter}
  (hticking : (history.map Decision.time).Pairwise
    (fun earlier later => later.after earlier = true))
  (hrecorded : Recorded history limiter) {key : GoString}

include hrecorded in
theorem exists_emission {emission : Time} (hlookup : limiter.seen.lookup key = some emission) :
    ∃ decision ∈ history, decision.call.key = key ∧ decision.emitted = true ∧
      decision.time = emission := by
  obtain ⟨decision, hlast, htime⟩ := Option.map_eq_some_iff.mp (hrecorded key emission hlookup)
  obtain ⟨hmem, hkind⟩ := List.mem_filter.mp (List.mem_of_getLast? hlast)
  obtain ⟨hkey, hemitted⟩ := of_decide_eq_true hkind
  exact ⟨decision, hmem, hkey, hemitted, htime⟩

include hticking hrecorded

/-- Unless the table is empty, the key with the oldest emission is removed. -/
theorem evictOldestLocked_eq_erase (order : RangeOrder) (hkey : key ∈ limiter.seen) :
    ∃ oldest, LeastRecentlyEmitted limiter oldest ∧
      Limiter.evictOldestLocked order limiter.seen = limiter.seen.erase oldest := by
  let place : Time → Nat := (history.map Decision.time).idxOf
  have hplace : ∀ first ∈ limiter.seen.range order 0, ∀ second ∈ limiter.seen.range order 0,
      (second.2.after first.2 = true ↔ place first.2 < place second.2) := by
    intro first hfirst second hsecond
    obtain ⟨decision, hmem, -, -, htime⟩ := exists_emission hrecorded (Map.mem_range.mp hfirst)
    obtain ⟨other, hother, -, -, hotherTime⟩ :=
      exists_emission hrecorded (Map.mem_range.mp hsecond)
    exact Time.after_iff_idxOf_lt hticking (htime ▸ List.mem_map_of_mem hmem)
      (hotherTime ▸ List.mem_map_of_mem hother)
  have hfold := foldl_older hplace
  obtain ⟨emission, hemission⟩ := Option.isSome_iff_exists.mp (AList.lookup_isSome.mpr hkey)
  cases hbest : (limiter.seen.range order 0).argmin (fun entry => place entry.2) with
  | none =>
      have hempty := List.argmin_eq_none.mp hbest
      have hentry : (key, emission) ∈ limiter.seen.range order 0 := Map.mem_range.mpr hemission
      rw [hempty] at hentry
      cases hentry
  | some best =>
      rw [hbest] at hfold
      have hmem : best ∈ limiter.seen.range order 0 := List.argmin_mem hbest
      refine ⟨best.1, ⟨best.2, Map.mem_range.mp hmem, ?_⟩, ?_⟩
      · intro other otherEmission hne hother
        have hentry : (other, otherEmission) ∈ limiter.seen.range order 0 :=
          Map.mem_range.mpr hother
        apply (hplace best hmem _ hentry).mpr
        have hle : place best.2 ≤ place otherEmission :=
          List.le_of_mem_argmin (f := fun entry => place entry.2) hentry hbest
        refine lt_of_le_of_ne hle ?_
        -- two keys do not have their last emissions at one time
        intro hsame
        obtain ⟨decision, hdecision, hkey, -, htime⟩ :=
          exists_emission hrecorded (Map.mem_range.mp hmem)
        obtain ⟨later, hlater, hotherKey, -, hotherTime⟩ := exists_emission hrecorded hother
        have htimes : best.2 = otherEmission :=
          (List.idxOf_inj (htime ▸ List.mem_map_of_mem hdecision)).mp hsame
        have heq := eq_of_time_eq hticking hdecision hlater
          (htime.trans (htimes.trans hotherTime.symm))
        rw [← hotherKey, ← heq] at hne
        exact hne hkey
      · rw [Limiter.evictOldestLocked, hfold]

/-- A call that finds the table full makes the limiter forget the key with the oldest
emission. -/
theorem evicts_iff {turn : Turn} (hoverflows : Overflows limiter turn) (key : GoString) :
    Evicts limiter turn key ↔ LeastRecentlyEmitted limiter key := by
  obtain ⟨hnew, hfull⟩ := hoverflows
  have hlookup : limiter.seen.lookup turn.call.key = none := AList.lookup_eq_none.mpr hnew
  have hallowed : limiter.allowed turn.call turn.now = true := by
    rw [Limiter.allowed, hlookup]
  have hseen : (limiter.warnEvery turn.order turn.call turn.now).seen =
      (Limiter.evictOldestLocked turn.order limiter.seen).insert turn.call.key turn.now := by
    rw [Limiter.warnEvery, if_pos hallowed, if_pos ⟨hlookup, hfull⟩]
  constructor
  · intro hevicts
    obtain ⟨oldest, holdest, herase⟩ :=
      evictOldestLocked_eq_erase hticking hrecorded turn.order hevicts.1
    have hgone := hevicts.2
    rw [hseen, herase, AList.mem_insert, not_or, AList.mem_erase, not_and] at hgone
    by_cases hsame : key = oldest
    · rwa [hsame]
    · exact absurd hevicts.1 (hgone.2 hsame)
  · intro hleast
    obtain ⟨emission, hemission, hothers⟩ := hleast
    have hheld : key ∈ limiter.seen :=
      AList.lookup_isSome.mp (Option.isSome_iff_exists.mpr ⟨emission, hemission⟩)
    obtain ⟨oldest, ⟨oldestEmission, holdest, hlater⟩, herase⟩ :=
      evictOldestLocked_eq_erase hticking hrecorded turn.order hheld
    have hsame : key = oldest := by
      by_contra hne
      have hafter := hothers oldest oldestEmission (Ne.symm hne) holdest
      rw [Time.after_asymm (hlater key emission hne hemission)] at hafter
      cases hafter
    refine ⟨hheld, ?_⟩
    rw [hseen, herase, AList.mem_insert, not_or, AList.mem_erase, not_and]
    exact ⟨fun heq => hnew (heq ▸ hheld), fun hne => absurd hsame hne⟩

/-- The key with the oldest emission is the one used least recently, unless one of its
warnings was suppressed after the last use of another key. -/
theorem leastRecentlySeen_iff (hleast : LeastRecentlyEmitted limiter key) :
    LeastRecentlySeen history limiter key ↔
      ∀ suppressed ∈ history, suppressed.call.key = key → suppressed.emitted = false →
        ∀ other ∈ limiter.seen, other ≠ key →
          ∃ later ∈ history, later.call.key = other ∧
            later.time.after suppressed.time = true := by
  obtain ⟨emission, hemission, hothers⟩ := hleast
  constructor
  · intro hseen suppressed hsuppressed hkey _ other hother hne
    obtain ⟨final, hfinal, -, hlast, hbefore⟩ := exists_lastCall hticking hsuppressed
    obtain ⟨otherEmission, hotherEmission⟩ :=
      Option.isSome_iff_exists.mp (AList.lookup_isSome.mpr hother)
    obtain ⟨emitted, hemitted, rfl, -⟩ := exists_emission hrecorded hotherEmission
    obtain ⟨later, hlater, hlaterKey, hotherLast, -⟩ := exists_lastCall hticking hemitted
    rw [hkey] at hlast
    have hafter := hseen _ hother hne _ _ hlast hotherLast
    refine ⟨later, hlater, hlaterKey, ?_⟩
    rcases hbefore with rfl | hbefore
    · exact hafter
    · exact after_trans hticking hsuppressed hfinal hlater hbefore hafter
  · intro hlater other hother hne last otherLast hlast hotherLast
    obtain ⟨final, hfinal, hkey, rfl, hfinalLast⟩ := exists_last_of_kind hticking hlast
    obtain ⟨otherFinal, hotherFinal, -, rfl, hotherOthers⟩ :=
      exists_last_of_kind hticking hotherLast
    -- it is enough that the other key was used at all after that
    have hused : ∀ later ∈ history, later.call.key = other →
        later.time.after final.time = true → otherFinal.time.after final.time = true := by
      intro later hmem hlaterKey hafter
      rcases hotherOthers later hmem (decide_eq_true hlaterKey) with rfl | hlast
      · exact hafter
      · exact after_trans hticking hfinal hmem hotherFinal hafter hlast
    cases hkind : final.emitted with
    | false =>
        obtain ⟨later, hmem, hlaterKey, hafter⟩ :=
          hlater final hfinal (of_decide_eq_true hkey) hkind other hother hne
        exact hused later hmem hlaterKey hafter
    | true =>
        obtain ⟨emitted, hemitted, hemittedKind, rfl, hemissions⟩ :=
          exists_last_of_kind hticking (hrecorded key emission hemission)
        obtain ⟨otherEmission, hotherEmission⟩ :=
          Option.isSome_iff_exists.mp (AList.lookup_isSome.mpr hother)
        have hafter := hothers other otherEmission hne hotherEmission
        obtain ⟨later, hmem, hlaterKey, -, rfl⟩ := exists_emission hrecorded hotherEmission
        have hsame : final = emitted := by
          rcases hfinalLast emitted hemitted
            (decide_eq_true (of_decide_eq_true hemittedKind).1) with heq | hfirst
          · exact heq.symm
          · rcases hemissions final hfinal
              (decide_eq_true ⟨of_decide_eq_true hkey, hkind⟩) with heq | hsecond
            · exact heq
            · rw [Time.after_asymm hfirst] at hsecond
              cases hsecond
        exact hused later hmem hlaterKey (hsame ▸ hafter)

end Table

/-- A call that finds the table full makes the limiter forget the key used least recently,
provided that no warning of the key with the oldest emission was suppressed after the
last use of another key in the table. -/
theorem forgotten_key_least_recent_iff (limiter : Limiter) (hfresh : limiter.seen = ∅)
    (turns : List Turn) (next : Turn) (held : Limiter) (hticking : Ticking (turns ++ [next]))
    (hrun : run callStep turns limiter = some held) (hoverflows : Overflows held next) :
    (∀ key, Evicts held next key →
      LeastRecentlySeen (outputs callStep verdict turns limiter) held key) ↔
    ∀ key, LeastRecentlyEmitted held key →
      ∀ suppressed ∈ outputs callStep verdict turns limiter,
        suppressed.call.key = key → suppressed.emitted = false →
          ∀ other ∈ held.seen, other ≠ key →
            ∃ later ∈ outputs callStep verdict turns limiter, later.call.key = other ∧
              later.time.after suppressed.time = true := by
  have hturns : Ticking turns := (List.pairwise_append.mp hticking).1
  have htimes := hturns.outputs limiter
  have hrecorded := recorded_run hfresh hrun
  refine forall_congr' fun key => ?_
  rw [evicts_iff htimes hrecorded hoverflows key]
  exact imp_congr_right fun hleast => leastRecentlySeen_iff htimes hrecorded hleast

/-! ### A table that is full -/

/-- One key for each index. -/
def deviceKey (index : Nat) : GoString := List.replicate index 0x61

def keyUse (index time : Nat) : Turn := ⟨.warn (deviceKey index), ⟨time, none⟩, .insertion⟩

/-- Each of the first keys is used once, in turn. -/
def firstUses (count : Nat) : List Turn := (List.range count).map (fun index => keyUse index index)

theorem ticking_of_times {turns : List Turn} {count : Nat}
    (htimes : turns.map Turn.now = (List.range count).map (fun time => ⟨time, none⟩)) :
    Ticking turns := by
  have hincreasing : (turns.map Turn.now).Pairwise
      (fun earlier later => later.after earlier = true) := by
    rw [htimes, List.pairwise_map]
    exact List.pairwise_lt_range.imp fun hlt => decide_eq_true (Int.ofNat_lt.mpr hlt)
  exact List.pairwise_map.mp hincreasing

theorem firstUses_times (count : Nat) :
    (firstUses count).map Turn.now = (List.range count).map (fun time => ⟨time, none⟩) := by
  rw [firstUses, List.map_map]
  rfl

/-- A limiter with room for two keys. -/
def smallLimiter : Limiter := { newWithClock 0 with maxKeys := 2 }

/-- Without suppressed warnings, the key that was used first is forgotten. -/
theorem first_key_forgotten :
    ∃ held, run callStep (firstUses 2) smallLimiter = some held ∧ Overflows held (keyUse 2 2) ∧
      Evicts held (keyUse 2 2) (deviceKey 0) ∧
      LeastRecentlySeen (outputs callStep verdict (firstUses 2) smallLimiter) held
        (deviceKey 0) := by
  have hoverflows : ∀ held, run callStep (firstUses 2) smallLimiter = some held →
      Overflows held (keyUse 2 2) := by
    intro held hrun
    cases hrun
    exact ⟨by decide, by decide⟩
  refine ⟨_, rfl, hoverflows _ rfl, ⟨by decide, by decide⟩, ?_⟩
  refine (forgotten_key_least_recent_iff smallLimiter rfl (firstUses 2) (keyUse 2 2) _
    (@ticking_of_times _ 3 rfl) rfl (hoverflows _ rfl)).mpr ?_ _ ⟨by decide, by decide⟩
  intro key _ suppressed hsuppressed _ hkind
  have hemitted : ∀ decision ∈ outputs callStep verdict (firstUses 2) smallLimiter,
      decision.emitted = true := by decide
  rw [hemitted suppressed hsuppressed] at hkind
  cases hkind

/-- The table holds the first keys, each with the time of its only use. -/
structure Filled (limiter : Limiter) (count : Nat) (held : Limiter) : Prop where
  cooldown : held.cooldown = limiter.cooldown
  maxKeys : held.maxKeys = limiter.maxKeys
  length : held.seen.entries.length = count
  seen : ∀ key emission, held.seen.lookup key = some emission ↔
    ∃ index < count, key = deviceKey index ∧ emission = ⟨index, none⟩

theorem deviceKey_inj {first second : Nat} (heq : deviceKey first = deviceKey second) :
    first = second := by
  have hlength := congrArg List.length heq
  rwa [deviceKey, deviceKey, List.length_replicate, List.length_replicate] at hlength

theorem Filled.notMem (hfilled : Filled limiter count held) : deviceKey count ∉ held.seen := by
  intro hmem
  obtain ⟨emission, hemission⟩ := Option.isSome_iff_exists.mp (AList.lookup_isSome.mpr hmem)
  obtain ⟨index, hindex, hkey, -⟩ := (hfilled.seen _ _).mp hemission
  exact absurd (deviceKey_inj hkey) hindex.ne'

theorem run_firstUses (hfresh : limiter.seen = ∅) (hcount : count ≤ limiter.maxKeys) :
    ∃ held, run callStep (firstUses count) limiter = some held ∧ Filled limiter count held := by
  induction count with
  | zero =>
      refine ⟨limiter, rfl, rfl, rfl, by rw [hfresh]; rfl, ?_⟩
      intro key emission
      simp [hfresh]
  | succ count ih =>
      obtain ⟨held, hrun, hfilled⟩ := ih (Nat.le_of_succ_le hcount)
      have hnew := hfilled.notMem
      have hlookup := AList.lookup_eq_none.mpr hnew
      -- the table is not full yet, so the new key takes no other one's place
      have hroom : ¬ (held.seen.lookup (keyUse count count).call.key = none ∧
          held.maxKeys ≤ held.seen.entries.length) := by
        rw [hfilled.maxKeys, hfilled.length]
        omega
      have hallowed : held.allowed (keyUse count count).call (keyUse count count).now = true := by
        rw [Limiter.allowed]
        exact hlookup ▸ rfl
      refine ⟨{ held with seen := held.seen.insert (deviceKey count) ⟨count, none⟩ }, ?_,
        hfilled.cooldown, hfilled.maxKeys, ?_, ?_⟩
      · rw [firstUses, List.range_succ, List.map_append, run_append, ← firstUses, hrun,
          Option.bind_some, List.map_singleton, run_cons_eq_some]
        refine ⟨_, ?_, rfl⟩
        rw [callStep, Limiter.warnEvery, if_pos hallowed, if_neg hroom]
        rfl
      · rw [AList.entries_insert_of_notMem hnew, List.length_cons, hfilled.length]
      · intro key emission
        by_cases hkey : key = deviceKey count
        · rw [hkey, AList.lookup_insert, Option.some.injEq]
          constructor
          · rintro rfl
            exact ⟨count, Nat.lt_succ_self _, rfl, rfl⟩
          · rintro ⟨index, -, hsame, rfl⟩
            rw [deviceKey_inj hsame]
        · rw [AList.lookup_insert_ne hkey, hfilled.seen]
          constructor
          · rintro ⟨index, hindex, hsame⟩
            exact ⟨index, Nat.lt_succ_of_lt hindex, hsame⟩
          · rintro ⟨index, hindex, rfl, hsame⟩
            refine ⟨index, lt_of_le_of_ne (Nat.le_of_lt_succ hindex) ?_, rfl, hsame⟩
            rintro rfl
            exact hkey rfl

/-- Every key has been used once, the first one then a second time. -/
def busyUses (count : Nat) : List Turn := firstUses count ++ [keyUse 0 count]

theorem busyUses_times (count : Nat) :
    (busyUses count).map Turn.now = (List.range (count + 1)).map (fun time => ⟨time, none⟩) := by
  rw [busyUses, List.map_append, firstUses_times, List.range_succ, List.map_append]
  rfl

/-- No time is after that of the last use. -/
theorem not_after_busyUses {decision : Decision}
    (hdecision : decision ∈ outputs callStep verdict (busyUses count) limiter) :
    decision.time.after ⟨count, none⟩ = false := by
  have htime := List.mem_map_of_mem (f := Decision.time) hdecision
  rw [outputs_times, busyUses_times] at htime
  obtain ⟨time, hrange, htime⟩ := List.mem_map.mp htime
  have hle := Nat.le_of_lt_succ (List.mem_range.mp hrange)
  rw [← htime]
  exact decide_eq_false (not_lt.mpr (Int.ofNat_le.mpr hle))

/-- The second use comes too soon for its warning to be let through. -/
theorem run_busyUses (hfilled : Filled limiter limiter.maxKeys held) (hroom : 2 ≤ limiter.maxKeys)
    (hcooldown : (limiter.maxKeys : Int) < limiter.cooldown.toInt)
    (hrun : run callStep (firstUses limiter.maxKeys) limiter = some held) :
    run callStep (busyUses limiter.maxKeys) limiter = some held := by
  have hfirst : held.seen.lookup (keyUse 0 limiter.maxKeys).call.key = some ⟨0, none⟩ :=
    (hfilled.seen _ _).mpr ⟨0, by omega, rfl, rfl⟩
  have hsub : (keyUse 0 limiter.maxKeys).now.sub ⟨0, none⟩ ≤ (limiter.maxKeys : Int) := by
    have hgap : Time.gap ⟨0, none⟩ (keyUse 0 limiter.maxKeys).now = (limiter.maxKeys : Int) :=
      sub_zero _
    have hmax := Int64.toInt_lt limiter.cooldown
    rw [Time.sub_eq_gap (hgap ▸ Int.natCast_nonneg _) (by rw [hgap, Strconv.maxInt]; omega), hgap]
  have hsuppressed : held.allowed (keyUse 0 limiter.maxKeys).call (keyUse 0 limiter.maxKeys).now =
      false := by
    have hwindow : held.window (keyUse 0 limiter.maxKeys).call = limiter.cooldown.toInt :=
      congrArg Int64.toInt hfilled.cooldown
    simp only [Limiter.allowed, hfirst, hwindow]
    exact decide_eq_false (not_le.mpr (lt_of_le_of_lt hsub hcooldown))
  rw [busyUses, run_append, hrun, Option.bind_some, run_cons_eq_some]
  refine ⟨held, ?_, rfl⟩
  rw [callStep, Limiter.warnEvery, hsuppressed]
  rfl

/-- The key that was used last is forgotten, while all the others stay. -/
theorem busy_key_forgotten {limiter : Limiter} (hfresh : limiter.seen = ∅)
    (hroom : 2 ≤ limiter.maxKeys) (hcooldown : (limiter.maxKeys : Int) < limiter.cooldown.toInt) :
    ∃ held next, Ticking (busyUses limiter.maxKeys ++ [next]) ∧
      run callStep (busyUses limiter.maxKeys) limiter = some held ∧ Overflows held next ∧
      Evicts held next (deviceKey 0) ∧
      ¬ LeastRecentlySeen (outputs callStep verdict (busyUses limiter.maxKeys) limiter) held
        (deviceKey 0) := by
  obtain ⟨held, hrun, hfilled⟩ := run_firstUses hfresh (le_refl limiter.maxKeys)
  have hbusy := run_busyUses hfilled hroom hcooldown hrun
  have hticking : Ticking
      (busyUses limiter.maxKeys ++ [keyUse limiter.maxKeys (limiter.maxKeys + 1)]) := by
    apply @ticking_of_times _ (limiter.maxKeys + 2)
    rw [List.map_append, busyUses_times, List.range_succ (n := limiter.maxKeys + 1),
      List.map_append]
    rfl
  have hincreasing := Ticking.outputs (List.pairwise_append.mp hticking).1 limiter
  have hrecorded := recorded_run hfresh hbusy
  have hoverflows : Overflows held (keyUse limiter.maxKeys (limiter.maxKeys + 1)) :=
    ⟨hfilled.notMem, hfilled.maxKeys.trans_le hfilled.length.ge⟩
  refine ⟨held, _, hticking, hbusy, hoverflows, ?_, ?_⟩
  · -- its second use was suppressed, so its emission is still the oldest one
    refine (evicts_iff hincreasing hrecorded hoverflows _).mpr
      ⟨_, (hfilled.seen _ _).mpr ⟨0, by omega, rfl, rfl⟩, ?_⟩
    intro other otherEmission hne hother
    obtain ⟨index, -, rfl, rfl⟩ := (hfilled.seen _ _).mp hother
    have hpos : 0 < index := Nat.pos_of_ne_zero fun hzero => hne (hzero ▸ rfl)
    exact decide_eq_true (Int.ofNat_lt.mpr hpos)
  · intro hleast
    -- but that use is later than the only use of the second key
    have hlastUse : (Call.warn (deviceKey 0), (⟨limiter.maxKeys, none⟩ : Time)) ∈
        (outputs callStep verdict (busyUses limiter.maxKeys) limiter).map
          (fun decision => (decision.call, decision.time)) := by
      rw [outputs_calls]
      exact List.mem_map_of_mem (f := fun turn : Turn => (turn.call, turn.now))
        (List.mem_append_right _ (List.mem_singleton_self _))
    obtain ⟨last, hlast, heq⟩ := List.mem_map.mp hlastUse
    obtain ⟨hcall, htime⟩ := Prod.mk.inj heq
    obtain ⟨final, hfinal, -, hlastCall, hbefore⟩ := exists_lastCall hincreasing hlast
    obtain ⟨emitted, hemitted, hkey, -⟩ := exists_emission hrecorded
      ((hfilled.seen (deviceKey 1) _).mpr ⟨1, hroom, rfl, rfl⟩)
    obtain ⟨other, hother, -, hotherCall, -⟩ := exists_lastCall hincreasing hemitted
    have hheld : deviceKey 1 ∈ held.seen := AList.lookup_isSome.mp (Option.isSome_iff_exists.mpr
      ⟨_, (hfilled.seen (deviceKey 1) _).mpr ⟨1, hroom, rfl, rfl⟩⟩)
    rw [hcall] at hlastCall
    have hafter := hleast (deviceKey 1) hheld (fun heq => absurd (deviceKey_inj heq) (by decide))
      _ _ hlastCall (hkey ▸ hotherCall)
    rcases hbefore with rfl | hbefore
    · rw [htime, not_after_busyUses hother] at hafter
      cases hafter
    · rw [htime, not_after_busyUses hfinal] at hbefore
      cases hbefore

/-- So it is with the default settings: a table of 4096 keys and a cooldown of an hour. -/
theorem last_used_key_forgotten :
    ∃ held next, Ticking (busyUses defaultMaxKeys ++ [next]) ∧
      run callStep (busyUses defaultMaxKeys) (newWithClock 0) = some held ∧ Overflows held next ∧
      Evicts held next (deviceKey 0) ∧
      ¬ LeastRecentlySeen (outputs callStep verdict (busyUses defaultMaxKeys) (newWithClock 0)) held
        (deviceKey 0) :=
  @busy_key_forgotten (newWithClock 0) rfl (by decide) (by decide)

end TopologyExporter.Loglimit
