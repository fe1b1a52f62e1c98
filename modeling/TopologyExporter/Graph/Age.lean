import TopologyExporter.GoLib.Strconv
import TopologyExporter.Graph.Reconcile

/-! # Ageing of unconfirmed links

A link that only one side reports has a counter of the cycles it has gone
unconfirmed. The link expires when the counter reaches its limit; a report from
both sides removes the counter.
-/

namespace TopologyExporter.Graph

open Go Strconv Discovery

/-- Machine addition of one. -/
def increment (age : Int) : Int := if age = maxInt then minInt else age + 1

structure Ageing where
  ages : Map EdgeKey Int
  expired : List EdgeKey

/-- One more cycle for an unconfirmed link. -/
def Ageing.advance (ttl : Int) (link : EdgeKey) (age : Int) (state : Ageing) : Ageing :=
  if ttl ≤ increment age then
    { ages := state.ages.erase link, expired := state.expired ++ [link] }
  else { state with ages := state.ages.insert link (increment age) }

def ageSeen (ttl : Int) (state : Ageing) (edge : Edge) : Ageing :=
  let link := key edge
  if edge.direction = directionBidirectional then { state with ages := state.ages.erase link }
  else match state.ages.lookup link with
    -- a link seen for the first time gets a full cycle before it can expire
    | none => { state with ages := state.ages.insert link 0 }
    | some age => state.advance ttl link age

def ageAbsent (ttl : Int) (seen : List EdgeKey) (state : Ageing) (entry : EdgeKey × Int) :
    Ageing :=
  if entry.1 ∈ seen then state else state.advance ttl entry.1 entry.2

/-- The expired links and the advanced counters. Without counters there is
nothing to age. -/
def ageUnconfirmed (order : RangeOrder) (current : List Edge) (ages : Option (Map EdgeKey Int))
    (ttl : Int) : List EdgeKey × Option (Map EdgeKey Int) :=
  match ages with
  | none => ([], none)
  | some held =>
      let afterSeen := current.foldl (ageSeen ttl) ⟨held, []⟩
      let final := (afterSeen.ages.range order 0).foldl (ageAbsent ttl (current.map key)) afterSeen
      (final.expired, some final.ages)

/-! ## Which of the current links expire -/

/-- A link seen unconfirmed whose counter reaches the limit. -/
def Expires (ttl : Int) (ages : Map EdgeKey Int) (edge : Edge) : Prop :=
  edge.direction ≠ directionBidirectional ∧
    ∃ age, ages.lookup (key edge) = some age ∧ ttl ≤ increment age

variable {link other : EdgeKey} {state : Ageing} {ttl : Int} {edge : Edge} {current : List Edge}
  {entries : List (EdgeKey × Int)} {seen : List EdgeKey} {ages : Map EdgeKey Int}

theorem Ageing.lookup_advance {age : Int} (hother : other ≠ link) :
    (state.advance ttl link age).ages.lookup other = state.ages.lookup other := by
  unfold Ageing.advance
  split
  · exact AList.lookup_erase_ne hother
  · exact AList.lookup_insert_ne hother

theorem Ageing.mem_expired_advance {age : Int} :
    other ∈ (state.advance ttl link age).expired ↔
      other ∈ state.expired ∨ (other = link ∧ ttl ≤ increment age) := by
  unfold Ageing.advance
  split
  next hexpires => simp [hexpires]
  next hstays => simp [hstays]

/-- Ageing one link leaves the counters of the others alone. -/
theorem lookup_ageSeen (hother : other ≠ key edge) :
    (ageSeen ttl state edge).ages.lookup other = state.ages.lookup other := by
  unfold ageSeen
  simp only
  split
  · exact AList.lookup_erase_ne hother
  · split
    · exact AList.lookup_insert_ne hother
    · exact Ageing.lookup_advance hother

theorem mem_expired_ageSeen :
    other ∈ (ageSeen ttl state edge).expired ↔
      other ∈ state.expired ∨ (other = key edge ∧ Expires ttl state.ages edge) := by
  unfold ageSeen Expires
  simp only
  split
  next hconfirmed => simp [hconfirmed]
  next hunconfirmed =>
      split
      next hnew => simp [hnew]
      next age hage =>
          rw [Ageing.mem_expired_advance]
          simp [hunconfirmed, hage]

/-- With one edge per link, each link is aged by its counter before the cycle. -/
theorem mem_expired_foldl_ageSeen (hnodup : (current.map key).Nodup) :
    link ∈ (current.foldl (ageSeen ttl) state).expired ↔
      link ∈ state.expired ∨ ∃ edge ∈ current, key edge = link ∧ Expires ttl state.ages edge := by
  induction current generalizing state with
  | nil => simp
  | cons edge rest ih =>
      rw [List.map_cons, List.nodup_cons] at hnodup
      obtain ⟨hfresh, hrest⟩ := hnodup
      have hsame : ∀ other ∈ rest,
          (Expires ttl (ageSeen ttl state edge).ages other ↔ Expires ttl state.ages other) := by
        intro other hother
        have hne : key other ≠ key edge := fun heq =>
          hfresh (heq ▸ List.mem_map_of_mem hother)
        unfold Expires
        rw [lookup_ageSeen hne]
      rw [List.foldl_cons, ih hrest, mem_expired_ageSeen]
      constructor
      · rintro ((hheld | ⟨rfl, hexpires⟩) | ⟨other, hother, hkey, hexpires⟩)
        · exact Or.inl hheld
        · exact Or.inr ⟨edge, List.mem_cons_self .., rfl, hexpires⟩
        · exact Or.inr ⟨other, List.mem_cons_of_mem edge hother, hkey,
            (hsame other hother).mp hexpires⟩
      · rintro (hheld | ⟨other, hother, hkey, hexpires⟩)
        · exact Or.inl (Or.inl hheld)
        · rcases List.mem_cons.mp hother with rfl | hrest
          · exact Or.inl (Or.inr ⟨hkey.symm, hexpires⟩)
          · exact Or.inr ⟨other, hrest, hkey, (hsame other hrest).mpr hexpires⟩

/-- The second pass only expires links that were not seen. -/
theorem mem_expired_foldl_ageAbsent :
    link ∈ (entries.foldl (ageAbsent ttl seen) state).expired ↔
      link ∈ state.expired ∨
        (link ∉ seen ∧ ∃ age, (link, age) ∈ entries ∧ ttl ≤ increment age) := by
  induction entries generalizing state with
  | nil => simp
  | cons entry rest ih =>
      obtain ⟨other, age⟩ := entry
      rw [List.foldl_cons, ih]
      simp only [List.mem_cons, Prod.mk.injEq]
      unfold ageAbsent
      split
      next hseen =>
          constructor
          · rintro (hheld | ⟨hunseen, found, hfound, hlimit⟩)
            · exact Or.inl hheld
            · exact Or.inr ⟨hunseen, found, Or.inr hfound, hlimit⟩
          · rintro (hheld | ⟨hunseen, found, ⟨rfl, -⟩ | hfound, hlimit⟩)
            · exact Or.inl hheld
            · exact absurd hseen hunseen
            · exact Or.inr ⟨hunseen, found, hfound, hlimit⟩
      next hunseen =>
          rw [Ageing.mem_expired_advance]
          constructor
          · rintro ((hheld | ⟨rfl, hlimit⟩) | ⟨hown, found, hfound, hlimit⟩)
            · exact Or.inl hheld
            · exact Or.inr ⟨hunseen, age, Or.inl ⟨rfl, rfl⟩, hlimit⟩
            · exact Or.inr ⟨hown, found, Or.inr hfound, hlimit⟩
          · rintro (hheld | ⟨hown, found, ⟨rfl, rfl⟩ | hfound, hlimit⟩)
            · exact Or.inl (Or.inl hheld)
            · exact Or.inl (Or.inr ⟨rfl, hlimit⟩)
            · exact Or.inr ⟨hown, found, hfound, hlimit⟩

theorem mem_expired_ageUnconfirmed {order : RangeOrder} {ages : Option (Map EdgeKey Int)}
    (hnodup : (current.map key).Nodup) (hedge : edge ∈ current) :
    key edge ∈ (ageUnconfirmed order current ages ttl).1 ↔
      ∃ held, ages = some held ∧ Expires ttl held edge := by
  cases ages with
  | none => simp [ageUnconfirmed]
  | some held =>
      have hseen : key edge ∈ current.map key := List.mem_map_of_mem hedge
      simp only [ageUnconfirmed, mem_expired_foldl_ageAbsent, hseen, not_true_eq_false, false_and,
        or_false, mem_expired_foldl_ageSeen hnodup, List.not_mem_nil, false_or]
      constructor
      · rintro ⟨other, hother, hkey, hexpires⟩
        have hsame : other = edge := List.inj_on_of_nodup_map hnodup hother hedge hkey
        exact ⟨held, rfl, hsame ▸ hexpires⟩
      · rintro ⟨found, hfound, hexpires⟩
        cases hfound
        exact ⟨edge, hedge, rfl, hexpires⟩

/-! ## The counter of one link -/

/-- The counter of a link after a cycle that sees it unconfirmed, and whether
the link stays in the graph. -/
def tick (ttl : Int) : Option Int → Option Int × Bool
  | none => (some 0, true)
  | some age => if ttl ≤ increment age then (none, false) else (some (increment age), true)

/-- How a cycle sees a link. -/
inductive Sighting where
  | absent
  | unconfirmed
  | confirmed

/-- The counter of a link after a cycle, and whether the link does not expire.
An absent link is as good as one that only one side reports, unless it has no
counter. -/
def Sighting.age (ttl : Int) : Sighting → Option Int → Option Int × Bool
  | .absent, none => (none, true)
  | .absent, some age => tick ttl (some age)
  | .unconfirmed, held => tick ttl held
  | .confirmed, _ => (none, true)

/-- What an edge says about its link. -/
def sightingOf (edge : Edge) : Sighting :=
  if edge.direction = directionBidirectional then .confirmed else .unconfirmed

theorem sightingOf_unconfirmed (hone : edge.direction ≠ directionBidirectional) :
    sightingOf edge = .unconfirmed := if_neg hone

theorem tick_some_expires {age : Int} : (tick ttl (some age)).2 = false ↔ ttl ≤ increment age := by
  simp only [tick]
  split_ifs with hlimit <;> simp [hlimit]

theorem expires_iff_age :
    Expires ttl ages edge ↔
      ((sightingOf edge).age ttl (ages.lookup (key edge))).2 = false := by
  unfold Expires sightingOf
  split_ifs with hboth
  · simp [hboth, Sighting.age]
  · cases ages.lookup (key edge) with
    | none => simp [Sighting.age, tick]
    | some age => simp [Sighting.age, hboth, tick_some_expires]

theorem expires_iff_tick (hone : edge.direction ≠ directionBidirectional) :
    Expires ttl ages edge ↔ (tick ttl (ages.lookup (key edge))).2 = false := by
  rw [expires_iff_age, sightingOf_unconfirmed hone]
  rfl

theorem Ageing.lookup_advance_self {age : Int} :
    (state.advance ttl link age).ages.lookup link = (tick ttl (some age)).1 := by
  simp only [Ageing.advance, tick]
  split_ifs
  · exact AList.lookup_erase _ _
  · exact AList.lookup_insert _

theorem lookup_ageSeen_self :
    (ageSeen ttl state edge).ages.lookup (key edge) =
      ((sightingOf edge).age ttl (state.ages.lookup (key edge))).1 := by
  unfold ageSeen sightingOf
  simp only
  split_ifs with hboth
  · exact AList.lookup_erase _ _
  · cases state.ages.lookup (key edge) with
    | none => exact AList.lookup_insert _
    | some age => exact Ageing.lookup_advance_self

theorem lookup_foldl_ageSeen_of_notMem (hlink : link ∉ current.map key) :
    (current.foldl (ageSeen ttl) state).ages.lookup link = state.ages.lookup link := by
  induction current generalizing state with
  | nil => rfl
  | cons edge rest ih =>
      rw [List.map_cons, List.mem_cons, not_or] at hlink
      rw [List.foldl_cons, ih hlink.2, lookup_ageSeen hlink.1]

/-- With one edge per link, the counter of a link advances once. -/
theorem lookup_foldl_ageSeen (hnodup : (current.map key).Nodup) (hedge : edge ∈ current) :
    (current.foldl (ageSeen ttl) state).ages.lookup (key edge) =
      ((sightingOf edge).age ttl (state.ages.lookup (key edge))).1 := by
  induction current generalizing state with
  | nil => cases hedge
  | cons first rest ih =>
      rw [List.map_cons, List.nodup_cons] at hnodup
      rw [List.foldl_cons]
      rcases List.mem_cons.mp hedge with rfl | hrest
      · rw [lookup_foldl_ageSeen_of_notMem hnodup.1, lookup_ageSeen_self]
      · have hne : key edge ≠ key first := fun heq =>
          hnodup.1 (heq ▸ List.mem_map_of_mem hrest)
        rw [ih hnodup.2 hrest, lookup_ageSeen hne]

theorem lookup_foldl_ageAbsent (hskip : link ∈ seen ∨ link ∉ entries.map Prod.fst) :
    (entries.foldl (ageAbsent ttl seen) state).ages.lookup link = state.ages.lookup link := by
  induction entries generalizing state with
  | nil => rfl
  | cons entry rest ih =>
      rw [List.map_cons, List.mem_cons, not_or] at hskip
      rw [List.foldl_cons, ih (hskip.imp_right And.right)]
      unfold ageAbsent
      split
      · rfl
      next hunseen =>
          apply Ageing.lookup_advance
          rcases hskip with hseen | ⟨hne, -⟩
          · exact fun heq => hunseen (heq ▸ hseen)
          · exact hne

/-- The counter of an absent link advances once as well. -/
theorem lookup_foldl_ageAbsent_of_mem {age : Int} (hnodup : (entries.map Prod.fst).Nodup)
    (hentry : (link, age) ∈ entries) (hunseen : link ∉ seen) :
    (entries.foldl (ageAbsent ttl seen) state).ages.lookup link = (tick ttl (some age)).1 := by
  induction entries generalizing state with
  | nil => cases hentry
  | cons entry rest ih =>
      rw [List.map_cons, List.nodup_cons] at hnodup
      rw [List.foldl_cons]
      rcases List.mem_cons.mp hentry with rfl | hrest
      · rw [lookup_foldl_ageAbsent (Or.inr hnodup.1), ageAbsent, if_neg hunseen,
          Ageing.lookup_advance_self]
      · exact ih hnodup.2 hrest

/-- How the edges of a cycle see a link. -/
def sighting (current : List Edge) (link : EdgeKey) : Sighting :=
  ((current.find? (fun edge => key edge = link)).map sightingOf).getD .absent

theorem sighting_of_mem (hnodup : (current.map key).Nodup) (hedge : edge ∈ current) :
    sighting current (key edge) = sightingOf edge := by
  unfold sighting
  cases hfind : current.find? (fun other => key other = key edge) with
  | none => simpa using List.find?_eq_none.mp hfind edge hedge
  | some found =>
      have hkey : key found = key edge := by simpa using List.find?_some hfind
      have hsame : found = edge :=
        List.inj_on_of_nodup_map hnodup (List.mem_of_find?_eq_some hfind) hedge hkey
      rw [hsame, Option.map_some, Option.getD_some]

theorem sighting_of_notMem (hlink : link ∉ current.map key) : sighting current link = .absent := by
  have hnone : current.find? (fun edge => key edge = link) = none := by
    rw [List.find?_eq_none]
    intro edge hedge hkey
    exact hlink (of_decide_eq_true hkey ▸ List.mem_map_of_mem hedge)
  rw [sighting, hnone]
  rfl

section Cycle

variable {order : RangeOrder} {current : List Edge} {held : Map EdgeKey Int} {ttl : Int}

/-- What a cycle does to a link depends on its counter and on how it was seen. -/
theorem ageUnconfirmed_link (hnodup : (current.map key).Nodup) (link : EdgeKey) :
    (∃ next, (ageUnconfirmed order current (some held) ttl).2 = some next ∧
        next.lookup link = ((sighting current link).age ttl (held.lookup link)).1) ∧
      (link ∈ (ageUnconfirmed order current (some held) ttl).1 ↔
        ((sighting current link).age ttl (held.lookup link)).2 = false) := by
  by_cases hlink : link ∈ current.map key
  · obtain ⟨edge, hedge, rfl⟩ := List.mem_map.mp hlink
    rw [sighting_of_mem hnodup hedge]
    refine ⟨⟨_, rfl, ?_⟩, ?_⟩
    · rw [lookup_foldl_ageAbsent (Or.inl hlink), lookup_foldl_ageSeen hnodup hedge]
    · rw [mem_expired_ageUnconfirmed hnodup hedge, ← expires_iff_age]
      simp
  · -- the second pass finds the link's counter as it was before the cycle
    have hcounter : (current.foldl (ageSeen ttl) ⟨held, []⟩).ages.lookup link = held.lookup link :=
      lookup_foldl_ageSeen_of_notMem hlink
    have hnone : ∀ edge ∈ current, ¬key edge = link := by
      intro edge hedge hkey
      exact hlink (hkey ▸ List.mem_map_of_mem hedge)
    rw [sighting_of_notMem hlink]
    simp only [ageUnconfirmed, mem_expired_foldl_ageAbsent, mem_expired_foldl_ageSeen hnodup,
      Map.mem_range, hcounter, hlink, not_false_eq_true, true_and, List.not_mem_nil, false_or,
      Option.some.injEq, exists_eq_left']
    cases hheld : held.lookup link with
    | none =>
        have habsent : link ∉ (((current.foldl (ageSeen ttl) ⟨held, []⟩).ages.range order 0).map
            Prod.fst) := by
          intro hmem
          obtain ⟨⟨found, age⟩, hentry, rfl⟩ := List.mem_map.mp hmem
          rw [Map.mem_range, hcounter, hheld] at hentry
          cases hentry
        rw [lookup_foldl_ageAbsent (Or.inr habsent), hcounter, hheld]
        simp only [Sighting.age, reduceCtorEq, false_and, exists_false, or_false, true_and,
          Bool.true_eq_false, iff_false, not_exists, not_and]
        intro edge hedge hkey
        exact absurd hkey (hnone edge hedge)
    | some age =>
        have hentry : (link, age) ∈ (current.foldl (ageSeen ttl) ⟨held, []⟩).ages.range order 0 :=
          Map.mem_range.mpr (hcounter.trans hheld)
        rw [lookup_foldl_ageAbsent_of_mem (Map.range_nodup _ order 0) hentry hlink]
        refine ⟨rfl, ?_⟩
        simp only [Sighting.age, tick_some_expires, Option.some.injEq, exists_eq_left']
        constructor
        · rintro (⟨edge, hedge, hkey, -⟩ | hlimit)
          · exact absurd hkey (hnone edge hedge)
          · exact hlimit
        · exact Or.inr

/-- A cycle that sees a link unconfirmed ticks its counter. -/
theorem lookup_ageUnconfirmed (hnodup : (current.map key).Nodup) {edge : Edge}
    (hedge : edge ∈ current) (hone : edge.direction ≠ directionBidirectional) :
    ∃ next, (ageUnconfirmed order current (some held) ttl).2 = some next ∧
      next.lookup (key edge) = (tick ttl (held.lookup (key edge))).1 := by
  have hlink := (@ageUnconfirmed_link order _ held ttl hnodup (key edge)).1
  rwa [sighting_of_mem hnodup hedge, sightingOf_unconfirmed hone] at hlink

end Cycle

/-- Whether a link that stays unconfirmed is in the graph, cycle by cycle. -/
def presence (ttl : Int) : Nat → Option Int → List Bool
  | 0, _ => []
  | count + 1, age => (tick ttl age).2 :: presence ttl count (tick ttl age).1

/-- The number of cycles up to the first in which the link expires. The counter
of a link starts at zero after a first cycle without one; a counter at the
machine's maximum wraps around. -/
def cyclesLeft (ttl : Int) : Option Int → Nat
  | none => ttl.toNat + 1
  | some age => if age = maxInt then (ttl - minInt).toNat + 1 else max 1 (ttl - age).toNat

/-- A counter that reaches its limit did not wrap: the minimum is far below. -/
theorem cyclesLeft_of_limit {age : Int} (hpositive : 1 ≤ ttl) (hlimit : ttl ≤ increment age) :
    cyclesLeft ttl (some age) = 1 := by
  have hnegative : minInt < 0 := by decide
  by_cases hmax : age = maxInt
  · rw [increment, if_pos hmax] at hlimit
    omega
  · rw [increment, if_neg hmax] at hlimit
    rw [cyclesLeft, if_neg hmax]
    omega

theorem cyclesLeft_of_below {age : Int} (hpositive : 1 ≤ ttl) (hmachine : ttl ≤ maxInt)
    (hbelow : ¬ttl ≤ increment age) :
    cyclesLeft ttl (some age) = cyclesLeft ttl (some (increment age)) + 1 := by
  have hmin : minInt ≠ maxInt := by decide
  have hnegative : minInt < 0 := by decide
  by_cases hmax : age = maxInt
  · rw [increment, if_pos hmax, cyclesLeft, if_pos hmax, cyclesLeft, if_neg hmin]
    omega
  · rw [increment, if_neg hmax] at hbelow ⊢
    rw [cyclesLeft, if_neg hmax, cyclesLeft, if_neg (by omega)]
    omega

/-- A link that stays unconfirmed comes back in the cycle after it expired. So
it never comes back exactly if there is no such cycle. -/
theorem pairwise_presence (hpositive : 1 ≤ ttl) (hmachine : ttl ≤ maxInt) (count : Nat)
    (age : Option Int) :
    (presence ttl count age).Pairwise (fun earlier later => earlier = false → later = false) ↔
      count ≤ cyclesLeft ttl age := by
  induction count generalizing age with
  | zero => simp [presence]
  | succ count ih =>
      rw [presence, List.pairwise_cons, ih]
      cases age with
      | none =>
          -- the link is new: it stays, with a counter at zero
          have hzero : (0 : Int) ≠ maxInt := by decide
          simp only [tick, Bool.true_eq_false, false_implies, implies_true, true_and, cyclesLeft,
            if_neg hzero]
          omega
      | some age =>
          by_cases hlimit : ttl ≤ increment age
          · rw [cyclesLeft_of_limit hpositive hlimit]
            cases count with
            | zero => simp [tick, presence]
            | succ count => simp [tick, presence, hlimit]
          · rw [cyclesLeft_of_below hpositive hmachine hlimit]
            simp [tick, hlimit]

end TopologyExporter.Graph
