import TopologyExporter.App.Publish

/-! # Expiry over runs of cycles

Every cycle hands its counters of unconfirmed links to the next one. A link that
one side keeps reporting expires when its counter reaches the limit. The counter
is removed with it, so the next report starts a new one and the link is back.
-/

namespace TopologyExporter.App

open Go Strconv Discovery

/-- What one cycle of a run is given. -/
structure Round where
  order : RangeOrder
  arrivals : List Arrival

/-- The results of consecutive cycles. -/
def runCycles (cfg : Config) :
    List Round → Option (Map Graph.EdgeKey Int) → List CycleResult
  | [], _ => []
  | round :: rest, ages =>
      let result := runCycle cfg round.order round.arrivals ages
      result :: runCycles cfg rest result.ages

/-- The edges of a round after reconciliation, before any link is dropped. -/
def reconciledEdges (cfg : Config) (round : Round) : List Edge :=
  (Graph.reconcile round.order (observations cfg round.order round.arrivals)).1

/-- The round reports the link, and as unidirectional. -/
def SeenUnconfirmed (cfg : Config) (link : Graph.EdgeKey) (round : Round) : Prop :=
  ∃ edge ∈ reconciledEdges cfg round,
    Graph.key edge = link ∧ edge.direction = directionUnidirectional

instance (cfg : Config) (link : Graph.EdgeKey) (round : Round) :
    Decidable (SeenUnconfirmed cfg link round) :=
  inferInstanceAs (Decidable (∃ edge ∈ reconciledEdges cfg round, _))

/-- The link is in the graph that a cycle returns. -/
def InGraph (link : Graph.EdgeKey) (result : CycleResult) : Prop :=
  link ∈ result.graph.edges.map Graph.key

instance (link : Graph.EdgeKey) (result : CycleResult) : Decidable (InGraph link result) :=
  inferInstanceAs (Decidable (_ ∈ _))

theorem runCycle_ages (cfg : Config) (order : RangeOrder) (arrivals : List Arrival)
    (ages : Option (Map Graph.EdgeKey Int)) :
    (runCycle cfg order arrivals ages).ages =
      (Graph.ageUnconfirmed order (Graph.reconcile order (observations cfg order arrivals)).1 ages
        cfg.unconfirmedLinkTTLCycles).2 := by
  simp only [runCycle, synthesizeEdges_eq]
  rfl

/-- A reported link is missing from the graph exactly if it expires. -/
theorem inGraph_iff {cfg : Config} {round : Round} {ages : Option (Map Graph.EdgeKey Int)}
    {edge : Edge} (hedge : edge ∈ reconciledEdges cfg round) :
    InGraph (Graph.key edge) (runCycle cfg round.order round.arrivals ages) ↔
      ¬∃ held, ages = some held ∧ Graph.Expires cfg.unconfirmedLinkTTLCycles held edge := by
  have hnodup := Graph.reconcile_nodup_keys round.order
    (observations cfg round.order round.arrivals)
  rw [← Graph.mem_expired_ageUnconfirmed hnodup hedge, InGraph, runCycle_edges, List.mem_map]
  constructor
  · rintro ⟨other, hother, hkey⟩
    rw [List.mem_filter, decide_eq_true_iff, hkey] at hother
    exact hother.2
  · intro hstays
    exact ⟨edge, List.mem_filter.mpr ⟨hedge, decide_eq_true hstays⟩, rfl⟩

section Counter

variable {cfg : Config} {link : Graph.EdgeKey} {round : Round}

/-- A round that sees the link unconfirmed ticks its counter. -/
theorem runCycle_ticks (hseen : SeenUnconfirmed cfg link round) (held : Map Graph.EdgeKey Int) :
    (∃ next, (runCycle cfg round.order round.arrivals (some held)).ages = some next ∧
        next.lookup link = (Graph.tick cfg.unconfirmedLinkTTLCycles (held.lookup link)).1) ∧
      (InGraph link (runCycle cfg round.order round.arrivals (some held)) ↔
        (Graph.tick cfg.unconfirmedLinkTTLCycles (held.lookup link)).2 = true) := by
  obtain ⟨edge, hedge, rfl, hdirection⟩ := hseen
  have hone : edge.direction ≠ directionBidirectional := by
    rw [hdirection]
    exact directionUnidirectional_ne
  have hnodup := Graph.reconcile_nodup_keys round.order
    (observations cfg round.order round.arrivals)
  refine ⟨?_, ?_⟩
  · rw [runCycle_ages]
    exact Graph.lookup_ageUnconfirmed hnodup hedge hone
  · rw [inGraph_iff hedge, ← Bool.not_eq_false]
    apply not_congr
    constructor
    · rintro ⟨found, hfound, hexpires⟩
      cases hfound
      exact (Graph.expires_iff_tick hone).mp hexpires
    · intro hdropped
      exact ⟨held, rfl, (Graph.expires_iff_tick hone).mpr hdropped⟩

/-- Over a run the link comes and goes as its counter says. -/
theorem map_inGraph_runCycles {rounds : List Round}
    (hseen : ∀ round ∈ rounds, SeenUnconfirmed cfg link round) (held : Map Graph.EdgeKey Int) :
    (runCycles cfg rounds (some held)).map (fun result => decide (InGraph link result)) =
      Graph.presence cfg.unconfirmedLinkTTLCycles rounds.length (held.lookup link) := by
  induction rounds generalizing held with
  | nil => rfl
  | cons round rest ih =>
      rw [List.forall_mem_cons] at hseen
      obtain ⟨⟨next, hnext, hlookup⟩, hkept⟩ := runCycle_ticks hseen.1 held
      rw [runCycles, List.map_cons, hnext, ih hseen.2 next, hlookup, List.length_cons,
        Graph.presence, Bool.decide_congr hkept, Bool.decide_eq_true]

/-- Without counters no link expires. -/
theorem inGraph_runCycles_none {rounds : List Round}
    (hseen : ∀ round ∈ rounds, SeenUnconfirmed cfg link round) :
    ∀ result ∈ runCycles cfg rounds none, InGraph link result := by
  induction rounds with
  | nil => simp [runCycles]
  | cons round rest ih =>
      rw [List.forall_mem_cons] at hseen
      obtain ⟨edge, hedge, rfl, -⟩ := hseen.1
      have hages : (runCycle cfg round.order round.arrivals none).ages = none := runCycle_ages ..
      rw [runCycles, hages, List.forall_mem_cons]
      refine ⟨(inGraph_iff hedge).mpr ?_, ih hseen.2⟩
      rintro ⟨held, hheld, -⟩
      cases hheld

/-- A link that one side reports in every cycle stays out of the graph after it
expired exactly if the run ends with that cycle at the latest. -/
theorem expired_link_stays_out_iff {rounds : List Round}
    (hpositive : 1 ≤ cfg.unconfirmedLinkTTLCycles)
    (hmachine : cfg.unconfirmedLinkTTLCycles ≤ maxInt)
    (hseen : ∀ round ∈ rounds, SeenUnconfirmed cfg link round)
    (ages : Option (Map Graph.EdgeKey Int)) :
    (runCycles cfg rounds ages).Pairwise (fun earlier later =>
        ¬InGraph link earlier → ¬InGraph link later) ↔
      ∀ held, ages = some held →
        rounds.length ≤ Graph.cyclesLeft cfg.unconfirmedLinkTTLCycles (held.lookup link) := by
  cases ages with
  | none =>
      have hall := inGraph_runCycles_none hseen
      refine iff_of_true ?_ (by simp)
      rw [List.pairwise_iff_forall_sublist]
      intro earlier later hsublist hout
      exact absurd (hall earlier (hsublist.subset (by simp))) hout
  | some held =>
      have hpresence := map_inGraph_runCycles hseen held
      simp only [Option.some.injEq, forall_eq']
      rw [← Graph.pairwise_presence hpositive hmachine, ← hpresence, List.pairwise_map]
      simp only [decide_eq_false_iff_not]

end Counter

/-! ### A switch that one router reports -/

/-- A number of cycles that all see the same router. -/
def steadyRounds (count : Nat) : List Round :=
  List.replicate count ⟨.insertion, [⟨0, some cdpRouter⟩]⟩

/-- The link that the router reports and the switch does not. -/
def oneSidedLink : Graph.EdgeKey := ⟨str "r1", str "if1", str "sw1", str "Gi0/2"⟩

/-- What four and five cycles do with the link. -/
theorem steadyRounds_evaluated :
    SeenUnconfirmed labConfig oneSidedLink ⟨.insertion, [⟨0, some cdpRouter⟩]⟩ ∧
    (runCycles labConfig (steadyRounds 4) (some ∅)).map (fun result =>
      decide (InGraph oneSidedLink result)) = [true, true, true, false] ∧
    (runCycles labConfig (steadyRounds 5) (some ∅)).map (fun result =>
      decide (InGraph oneSidedLink result)) = [true, true, true, false, true] := by
  decide +kernel

theorem steadyRounds_unconfirmed (count : Nat) :
    ∀ round ∈ steadyRounds count, SeenUnconfirmed labConfig oneSidedLink round := by
  intro round hround
  rw [List.eq_of_mem_replicate hround]
  exact steadyRounds_evaluated.1

/-- With a limit of three the link expires in the fourth cycle, and a run of
four cycles ends there. -/
theorem fourth_cycle_stays_out :
    (runCycles labConfig (steadyRounds 4) (some ∅)).map (fun result =>
        decide (InGraph oneSidedLink result)) = [true, true, true, false] ∧
      (runCycles labConfig (steadyRounds 4) (some ∅)).Pairwise (fun earlier later =>
        ¬InGraph oneSidedLink earlier → ¬InGraph oneSidedLink later) := by
  refine ⟨steadyRounds_evaluated.2.1, ?_⟩
  apply (expired_link_stays_out_iff (by decide) (by decide) (steadyRounds_unconfirmed 4)
    (some ∅)).mpr
  intro held hheld
  cases hheld
  decide +kernel

/-- One cycle later it is back, although nothing but the router reported it. -/
theorem fifth_cycle_brings_back :
    (∀ round ∈ steadyRounds 5, SeenUnconfirmed labConfig oneSidedLink round) ∧
      (runCycles labConfig (steadyRounds 5) (some ∅)).map (fun result =>
        decide (InGraph oneSidedLink result)) = [true, true, true, false, true] :=
  ⟨steadyRounds_unconfirmed 5, steadyRounds_evaluated.2.2⟩

end TopologyExporter.App
