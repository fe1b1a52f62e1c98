import TopologyExporter.Graph.Age

/-! # The lifetime of an unconfirmed link

The counters are handed from one cycle to the next. Followed over a run, the
counter of a link is the number of cycles since the link was recorded: whether
the link is absent or seen from one side makes no difference, and only a report
from both sides ends the count before its limit.
-/

namespace TopologyExporter.Graph

open Go Strconv Discovery

/-- A cycle's edges, and the order its loop over the counters happens to take. -/
structure AgeingCall where
  order : RangeOrder
  current : List Edge

/-- The link is reported by both sides. -/
def AgeingCall.Confirms (call : AgeingCall) (link : EdgeKey) : Prop :=
  ∃ edge ∈ call.current, key edge = link ∧ edge.direction = directionBidirectional

instance (call : AgeingCall) (link : EdgeKey) : Decidable (call.Confirms link) :=
  inferInstanceAs (Decidable (∃ edge ∈ call.current, _))

/-- The counters after a number of calls. The first one is given an empty map. -/
def agesAfter (ttl : Int) (calls : List AgeingCall) : Option (Map EdgeKey Int) :=
  calls.foldl (fun ages call => (ageUnconfirmed call.order call.current ages ttl).2) (some ∅)

/-- The links that expire in a call that comes after others. -/
def expiredIn (ttl : Int) (earlier : List AgeingCall) (call : AgeingCall) : List EdgeKey :=
  (ageUnconfirmed call.order call.current (agesAfter ttl earlier) ttl).1

def counterAfter (ttl : Int) (calls : List AgeingCall) (link : EdgeKey) : Option Int :=
  (agesAfter ttl calls).bind (fun ages => ages.lookup link)

/-- The call gives the link a counter that it did not have before. -/
def Records (ttl : Int) (earlier : List AgeingCall) (call : AgeingCall) (link : EdgeKey) : Prop :=
  counterAfter ttl earlier link = none ∧
    ∃ age, counterAfter ttl (earlier ++ [call]) link = some age

/-! ## One cycle -/

theorem Sighting.age_expired {ttl : Int} {seen : Sighting} {held : Option Int}
    (hexpired : (seen.age ttl held).2 = false) : (seen.age ttl held).1 = none := by
  have htick : (tick ttl held).2 = false → (tick ttl held).1 = none := by
    cases held with
    | none => simp [tick]
    | some age =>
        simp only [tick]
        split_ifs <;> simp
  cases seen with
  | absent =>
      cases held with
      | none => rfl
      | some age => exact htick hexpired
  | unconfirmed => exact htick hexpired
  | confirmed => rfl

/-- A link with a counter is counted on unless it is confirmed. -/
theorem Sighting.age_some {ttl : Int} {seen : Sighting} (hseen : seen ≠ .confirmed) (age : Int) :
    seen.age ttl (some age) = tick ttl (some age) := by
  cases seen with
  | absent => rfl
  | unconfirmed => rfl
  | confirmed => exact absurd rfl hseen

theorem sighting_eq_confirmed {call : AgeingCall} (hnodup : (call.current.map key).Nodup)
    {link : EdgeKey} : sighting call.current link = .confirmed ↔ call.Confirms link := by
  have hof : ∀ edge, sightingOf edge = .confirmed ↔ edge.direction = directionBidirectional := by
    intro edge
    unfold sightingOf
    split_ifs with hboth <;> simp [hboth]
  constructor
  · intro hseen
    by_cases hlink : link ∈ call.current.map key
    · obtain ⟨edge, hedge, rfl⟩ := List.mem_map.mp hlink
      rw [sighting_of_mem hnodup hedge, hof] at hseen
      exact ⟨edge, hedge, rfl, hseen⟩
    · rw [sighting_of_notMem hlink] at hseen
      cases hseen
  · intro hconfirms
    obtain ⟨edge, hedge, rfl, hboth⟩ := hconfirms
    rw [sighting_of_mem hnodup hedge, hof]
    exact hboth

/-- The first pass expires links of the current edges, each at most once. -/
theorem expired_foldl_ageSeen (ttl : Int) (current : List Edge) (state : Ageing) :
    ∃ added, (current.foldl (ageSeen ttl) state).expired = state.expired ++ added ∧
      added.Sublist (current.map key) := by
  induction current generalizing state with
  | nil => exact ⟨[], by simp⟩
  | cons edge rest ih =>
      obtain ⟨added, hadded, hsublist⟩ := ih (ageSeen ttl state edge)
      -- one edge expires its own link or none
      have hstep : (ageSeen ttl state edge).expired = state.expired ∨
          (ageSeen ttl state edge).expired = state.expired ++ [key edge] := by
        simp only [ageSeen]
        split
        · exact Or.inl rfl
        · split
          · exact Or.inl rfl
          · simp only [Ageing.advance]
            split
            · exact Or.inr rfl
            · exact Or.inl rfl
      rw [List.foldl_cons, hadded, List.map_cons]
      rcases hstep with hsame | hexpires
      · exact ⟨added, by rw [hsame], hsublist.cons _⟩
      · exact ⟨key edge :: added, by rw [hexpires, List.append_assoc]; rfl, hsublist.cons_cons _⟩

/-- The second pass expires links of its entries that were not seen. -/
theorem expired_foldl_ageAbsent (ttl : Int) (seen : List EdgeKey)
    (entries : List (EdgeKey × Int)) (state : Ageing) :
    ∃ added, (entries.foldl (ageAbsent ttl seen) state).expired = state.expired ++ added ∧
      added.Sublist ((entries.map Prod.fst).filter (fun link => link ∉ seen)) := by
  induction entries generalizing state with
  | nil => exact ⟨[], by simp⟩
  | cons entry rest ih =>
      obtain ⟨added, hadded, hsublist⟩ := ih (ageAbsent ttl seen state entry)
      rw [List.foldl_cons, hadded, List.map_cons]
      by_cases hseen : entry.1 ∈ seen
      · rw [List.filter_cons_of_neg (by simpa using hseen), ageAbsent, if_pos hseen]
        exact ⟨added, rfl, hsublist⟩
      · rw [List.filter_cons_of_pos (by simpa using hseen), ageAbsent, if_neg hseen,
          Ageing.advance]
        split
        · exact ⟨entry.1 :: added, List.append_assoc .., hsublist.cons_cons _⟩
        · exact ⟨added, rfl, hsublist.cons _⟩

/-- No link expires twice in one cycle: the passes have no link in common. -/
theorem nodup_expired {order : RangeOrder} {current : List Edge}
    (hnodup : (current.map key).Nodup) (ages : Option (Map EdgeKey Int)) (ttl : Int) :
    (ageUnconfirmed order current ages ttl).1.Nodup := by
  cases ages with
  | none => exact List.nodup_nil
  | some held =>
      let afterSeen := current.foldl (ageSeen ttl) ⟨held, []⟩
      obtain ⟨seen, hseen, hseenSublist⟩ := expired_foldl_ageSeen ttl current ⟨held, []⟩
      obtain ⟨absent, habsent, habsentSublist⟩ := expired_foldl_ageAbsent ttl (current.map key)
        (afterSeen.ages.range order 0) afterSeen
      have hexpired : (ageUnconfirmed order current (some held) ttl).1 = seen ++ absent := by
        simp only [ageUnconfirmed]
        rw [habsent, hseen, List.nil_append]
      rw [hexpired, List.nodup_append]
      refine ⟨hnodup.sublist hseenSublist,
        ((Map.range_nodup afterSeen.ages order 0).filter _).sublist habsentSublist, ?_⟩
      rintro link hlink other hother rfl
      have hunseen := (List.mem_filter.mp (habsentSublist.subset hother)).2
      exact of_decide_eq_true hunseen (hseenSublist.subset hlink)

/-! ## A run of cycles -/

section Run

variable {ttl : Int} {earlier : List AgeingCall} {call : AgeingCall} {link : EdgeKey}

theorem agesAfter_append :
    agesAfter ttl (earlier ++ [call]) =
      (ageUnconfirmed call.order call.current (agesAfter ttl earlier) ttl).2 := by
  rw [agesAfter, List.foldl_append]
  rfl

theorem exists_agesAfter (ttl : Int) (calls : List AgeingCall) :
    ∃ ages, agesAfter ttl calls = some ages := by
  induction calls using List.reverseRecOn with
  | nil => exact ⟨∅, rfl⟩
  | append_singleton calls call ih =>
      obtain ⟨ages, hages⟩ := ih
      rw [agesAfter_append, hages]
      exact ⟨_, rfl⟩

theorem counterAfter_append (hnodup : (call.current.map key).Nodup) :
    counterAfter ttl (earlier ++ [call]) link =
      ((sighting call.current link).age ttl (counterAfter ttl earlier link)).1 := by
  obtain ⟨held, hheld⟩ := exists_agesAfter ttl earlier
  obtain ⟨next, hnext, hlookup⟩ :=
    (@ageUnconfirmed_link call.order call.current held ttl hnodup link).1
  rw [counterAfter, counterAfter, agesAfter_append, hheld, hnext]
  exact hlookup

theorem mem_expiredIn (hnodup : (call.current.map key).Nodup) :
    link ∈ expiredIn ttl earlier call ↔
      ((sighting call.current link).age ttl (counterAfter ttl earlier link)).2 = false := by
  obtain ⟨held, hheld⟩ := exists_agesAfter ttl earlier
  rw [expiredIn, counterAfter, hheld]
  exact (ageUnconfirmed_link hnodup link).2

variable {age : Int}

/-- A counter below the limit does not wrap around. -/
theorem increment_of_lt (hmachine : ttl ≤ maxInt) (hage : age < ttl) : increment age = age + 1 :=
  if_neg (by omega)

theorem tick_of_lt (hmachine : ttl ≤ maxInt) (hage : age + 1 < ttl) :
    tick ttl (some age) = (some (age + 1), true) := by
  have hnext := increment_of_lt hmachine (show age < ttl by omega)
  rw [tick, hnext, if_neg (by omega)]

/-- Every counter is below the limit. -/
theorem counterAfter_bounds (hpositive : 1 ≤ ttl) (hmachine : ttl ≤ maxInt)
    {calls : List AgeingCall} (hnodup : ∀ made ∈ calls, (made.current.map key).Nodup)
    (hage : counterAfter ttl calls link = some age) : 0 ≤ age ∧ age < ttl := by
  induction calls using List.reverseRecOn generalizing age with
  | nil =>
      simp only [counterAfter, agesAfter, List.foldl_nil, Option.bind_some,
        AList.lookup_empty] at hage
      cases hage
  | append_singleton calls call ih =>
      rw [counterAfter_append (hnodup call (by simp))] at hage
      have hbefore : ∀ held, counterAfter ttl calls link = some held → 0 ≤ held ∧ held < ttl :=
        fun held => ih (fun made hmade => hnodup made (by simp [hmade]))
      cases hheld : counterAfter ttl calls link with
      | none =>
          rw [hheld] at hage
          cases hseen : sighting call.current link with
          | unconfirmed =>
              rw [hseen] at hage
              cases hage
              omega
          | absent =>
              rw [hseen] at hage
              cases hage
          | confirmed =>
              rw [hseen] at hage
              cases hage
      | some held =>
          obtain ⟨hnonneg, hlt⟩ := hbefore held hheld
          rw [hheld] at hage
          by_cases hseen : sighting call.current link = .confirmed
          · rw [hseen] at hage
            cases hage
          · rw [Sighting.age_some hseen] at hage
            simp only [tick, increment_of_lt hmachine hlt] at hage
            split_ifs at hage with hlimit
            cases hage
            omega

/-- A recorded link starts at zero. -/
theorem Records.counter_eq (hrecords : Records ttl earlier call link)
    (hnodup : (call.current.map key).Nodup) :
    counterAfter ttl (earlier ++ [call]) link = some 0 := by
  obtain ⟨hnone, age, hage⟩ := hrecords
  rw [counterAfter_append hnodup, hnone] at hage ⊢
  cases hseen : sighting call.current link with
  | unconfirmed => rfl
  | absent =>
      rw [hseen] at hage
      cases hage
  | confirmed =>
      rw [hseen] at hage
      cases hage

/-- The counter of a link is the number of cycles since it was recorded. -/
theorem counterAfter_following (hmachine : ttl ≤ maxInt)
    (hrecords : Records ttl earlier call link) {following : List AgeingCall}
    (hnodup : ∀ made ∈ call :: following, (made.current.map key).Nodup)
    (hquiet : ∀ made ∈ following, ¬made.Confirms link) (hlength : following.length < ttl) :
    counterAfter ttl (earlier ++ call :: following) link = some (following.length : Int) := by
  induction following using List.reverseRecOn with
  | nil => exact hrecords.counter_eq (hnodup call (by simp))
  | append_singleton following last ih =>
      simp only [List.length_append, List.length_cons, List.length_nil, Nat.cast_add] at hlength
      have hlast : (last.current.map key).Nodup := hnodup last (by simp)
      have hseen : sighting last.current link ≠ .confirmed :=
        (sighting_eq_confirmed hlast).not.mpr (hquiet last (by simp))
      have hcount : counterAfter ttl (earlier ++ call :: following) link =
          some (following.length : Int) := by
        apply ih
        · exact fun made hmade => hnodup made (by
            rcases List.mem_cons.mp hmade with rfl | hmade <;> simp [*])
        · exact fun made hmade => hquiet made (by simp [hmade])
        · omega
      rw [← List.cons_append, ← List.append_assoc, counterAfter_append hlast, hcount,
        Sighting.age_some hseen, tick_of_lt hmachine (by omega)]
      simp

/-- The lifetime of unconfirmed links, in a run of calls up to `call`. A recorded
link expires in the cycle whose number after it is the limit, unless a cycle in
between confirms it; a confirmed link loses its counter without expiring; every
counter stays below the limit; and the expired links are listed once and have no
counter left. -/
theorem unconfirmed_link_lifetime (hpositive : 1 ≤ ttl) (hmachine : ttl ≤ maxInt)
    (hnodup : ∀ made ∈ earlier ++ [call], (made.current.map key).Nodup) :
    (∀ link front recording following, earlier = front ++ recording :: following →
        Records ttl front recording link →
        (∀ made ∈ following ++ [call], ¬made.Confirms link) → following.length + 1 ≤ ttl →
        (link ∈ expiredIn ttl earlier call ↔ following.length + 1 = ttl)) ∧
      (∀ link, call.Confirms link →
        counterAfter ttl (earlier ++ [call]) link = none ∧ link ∉ expiredIn ttl earlier call) ∧
      (∀ link age, counterAfter ttl (earlier ++ [call]) link = some age → 0 ≤ age ∧ age < ttl) ∧
      (expiredIn ttl earlier call).Nodup ∧
      ∀ link ∈ expiredIn ttl earlier call, counterAfter ttl (earlier ++ [call]) link = none := by
  have hcall : (call.current.map key).Nodup := hnodup call (by simp)
  refine ⟨?_, ?_, ?_, nodup_expired hcall _ _, ?_⟩
  · rintro link front recording following rfl hrecords hquiet hlength
    have hcount : counterAfter ttl (front ++ recording :: following) link =
        some (following.length : Int) := by
      apply counterAfter_following hmachine hrecords
      · exact fun made hmade => hnodup made (by
          rcases List.mem_cons.mp hmade with rfl | hmade <;> simp [*])
      · exact fun made hmade => hquiet made (by simp [hmade])
      · omega
    have hseen : sighting call.current link ≠ .confirmed :=
      (sighting_eq_confirmed hcall).not.mpr (hquiet call (by simp))
    rw [mem_expiredIn hcall, hcount, Sighting.age_some hseen, tick_some_expires,
      increment_of_lt hmachine (by omega)]
    omega
  · intro link hconfirms
    have hseen := (sighting_eq_confirmed hcall).mpr hconfirms
    rw [counterAfter_append hcall, mem_expiredIn hcall, hseen]
    simp [Sighting.age]
  · exact fun link age => counterAfter_bounds hpositive hmachine hnodup
  · intro link hexpired
    rw [mem_expiredIn hcall] at hexpired
    rw [counterAfter_append hcall]
    exact Sighting.age_expired hexpired

end Run

/-- A link that only one of its switches reports. -/
def oneSidedReport : Edge where
  srcDevice := str "sw1"
  srcPort := str "Gi0/1"
  dstDevice := str "sw2"
  dstPort := str "Gi0/2"
  discoveryProto := discoveryProtocolLLDP
  direction := directionUnidirectional
  confidence := confidenceHigh
  adjacency := adjacencyDirect
  precedenceRank := 1
  linkKind := linkKindEthernet
  observedAt := Time.zero
  metadata := ∅

/-- With a limit of three the link expires three cycles after the first report,
although it is reported in between. -/
theorem reported_link_expires_in_third_cycle :
    Records 3 [] ⟨.insertion, [oneSidedReport]⟩ (key oneSidedReport) ∧
      key oneSidedReport ∈ expiredIn 3
        [⟨.insertion, [oneSidedReport]⟩, ⟨.insertion, []⟩, ⟨.insertion, [oneSidedReport]⟩]
        ⟨.insertion, []⟩ := by
  have hrecords : Records 3 [] ⟨.insertion, [oneSidedReport]⟩ (key oneSidedReport) :=
    ⟨by decide, 0, by decide⟩
  refine ⟨hrecords, ?_⟩
  exact ((unconfirmed_link_lifetime (by decide) (by decide) (by decide)).1 _ [] _
    [⟨.insertion, []⟩, ⟨.insertion, [oneSidedReport]⟩] rfl hrecords (by decide)
    (by decide)).mpr rfl

end TopologyExporter.Graph
