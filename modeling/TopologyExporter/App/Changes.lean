import TopologyExporter.App.Expiry
import TopologyExporter.Graph.Diff

/-! # The stream of changes

Every published graph is announced as the changes against the graph published
before. Over any run of the loop the announced changes, applied in order to the
edges the loop started from, give the edges that are published now.
-/

namespace TopologyExporter.App

open Go Discovery

/-- The changes that are announced when a cycle is published. A graph over its
size budget announces nothing. -/
def publishedChanges (cfg : Config) (order : RangeOrder) (state : CycleState)
    (cycle : CycleResult) : List Graph.EdgeChange :=
  if (0 < cfg.maxGraphDevices ∧ cfg.maxGraphDevices < cycle.graph.devices.length) ∨
      (0 < cfg.maxGraphEdges ∧ cfg.maxGraphEdges < cycle.graph.edges.length) then []
  else Graph.diff order state.prevGraph.edges cycle.graph.edges

/-- What one iteration of the loop is given. A cycle during which the loop is
told to stop publishes nothing. -/
structure LoopRound extends Round where
  now : Time
  cancelled : Bool

/-- The state of the loop and everything it has announced. -/
structure LoopState where
  current : CycleState
  announced : List Graph.EdgeChange

def loopStep (cfg : Config) (state : LoopState) (round : LoopRound) : LoopState :=
  if round.cancelled then state
  else
    { current := (discoveryStep cfg round.order round.arrivals state.current round.now).1
      announced := state.announced ++ publishedChanges cfg round.order state.current
        (completedCycle cfg round.order round.arrivals state.current) }

def runLoop (cfg : Config) (startup : CycleState) (rounds : List LoopRound) : LoopState :=
  rounds.foldl (loopStep cfg) ⟨startup, []⟩

/-- A copy of the given edges that has followed the announcements. -/
def follow (edges : List Edge) (changes : List Graph.EdgeChange) : Map Graph.EdgeKey Edge :=
  changes.foldl Graph.applyChange (Graph.byKey edges)

/-- What holds all along the loop: one edge per key, and followers of the
announcements hold the published edges. -/
structure Followed (startup : List Edge) (state : LoopState) : Prop where
  nodup : (state.current.prevGraph.edges.map Graph.key).Nodup
  mirrors : Graph.Mirrors (follow startup state.announced) state.current.prevGraph.edges

theorem nodup_keys_completedCycle (cfg : Config) (order : RangeOrder) (arrivals : List Arrival)
    (state : CycleState) :
    ((completedCycle cfg order arrivals state).graph.edges.map Graph.key).Nodup := by
  change ((runCycle cfg order arrivals state.ages).graph.edges.map Graph.key).Nodup
  rw [runCycle_edges]
  exact (Graph.reconcile_nodup_keys order _).sublist (List.filter_sublist.map Graph.key)

/-- Publishing replaces the graph and announces the difference, or does
neither. -/
theorem publish_cases (cfg : Config) (order : RangeOrder) (state : CycleState)
    (cycle : CycleResult) (now : Time) :
    ((publish cfg state cycle now).1.prevGraph = state.prevGraph ∧
        publishedChanges cfg order state cycle = []) ∨
      ((publish cfg state cycle now).1.prevGraph = cycle.graph ∧
        publishedChanges cfg order state cycle =
          Graph.diff order state.prevGraph.edges cycle.graph.edges) := by
  unfold publish publishedChanges
  split
  · exact Or.inl ⟨rfl, rfl⟩
  · exact Or.inr ⟨rfl, rfl⟩

theorem Followed.step {startup : List Edge} {state : LoopState} (hfollowed : Followed startup state)
    (cfg : Config) (round : LoopRound) : Followed startup (loopStep cfg state round) := by
  unfold loopStep
  split
  · exact hfollowed
  · have hnew := nodup_keys_completedCycle cfg round.order round.arrivals state.current
    rcases publish_cases cfg round.order state.current
      (completedCycle cfg round.order round.arrivals state.current) round.now with
      ⟨hgraph, hchanges⟩ | ⟨hgraph, hchanges⟩
    · constructor
      · simp only [discoveryStep, hgraph]
        exact hfollowed.nodup
      · simp only [discoveryStep, hgraph, hchanges, List.append_nil]
        exact hfollowed.mirrors
    · constructor
      · simp only [discoveryStep, hgraph]
        exact hnew
      · simp only [discoveryStep, hgraph, hchanges, follow, List.foldl_append]
        exact hfollowed.mirrors.diff hfollowed.nodup hnew

/-- Followers of the announcements hold the published edges after any run. -/
theorem announcements_reproduce_graph (cfg : Config) (startup : CycleState)
    (hstartup : (startup.prevGraph.edges.map Graph.key).Nodup) (rounds : List LoopRound) :
    Graph.Mirrors (follow startup.prevGraph.edges (runLoop cfg startup rounds).announced)
      (runLoop cfg startup rounds).current.prevGraph.edges := by
  have hstart : Followed startup.prevGraph.edges ⟨startup, []⟩ :=
    ⟨hstartup, Graph.mirrors_byKey hstartup⟩
  have hrun : Followed startup.prevGraph.edges (runLoop cfg startup rounds) := by
    unfold runLoop
    induction rounds using List.reverseRecOn with
    | nil => exact hstart
    | append_singleton rest round ih =>
        rw [List.foldl_append, List.foldl_cons, List.foldl_nil]
        exact ih.step cfg round
  exact hrun.mirrors

/-! ### The one-sided link again -/

/-- The loop polls the same router again and again. -/
def steadyLoop (count : Nat) : List LoopRound :=
  (steadyRounds count).map (fun round => { round with now := Time.zero, cancelled := false })

/-- The link is announced, withdrawn when it expires and announced again; after
that the follower holds one edge, as the graph does. -/
theorem oneSidedLink_followed :
    (runLoop labConfig firstCycle (steadyLoop 5)).announced.map (fun change =>
        (change.row.1, change.row.2.isSome)) =
        [(oneSidedLink, true), (oneSidedLink, false), (oneSidedLink, true)] ∧
      Graph.Mirrors
        (follow firstCycle.prevGraph.edges (runLoop labConfig firstCycle (steadyLoop 5)).announced)
        (runLoop labConfig firstCycle (steadyLoop 5)).current.prevGraph.edges :=
  ⟨by decide +kernel,
    announcements_reproduce_graph labConfig firstCycle List.nodup_nil (steadyLoop 5)⟩

end TopologyExporter.App
