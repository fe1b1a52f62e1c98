import TopologyExporter.Federation.Generations
import TopologyExporter.Federation.Persist

/-! # Hubs that share a lease

Several hubs run side by side. A lease decides which of them leads; the number
of times it changed hands is the epoch under which its holder writes snapshots.
All hubs write to the same path. Leading, reading the epoch and writing are
separate steps, so a hub can lose the lease between any two of them.
-/

namespace TopologyExporter.Federation

open Go Utf8 Discovery Transition Snapshot

variable {HubID : Type} [DecidableEq HubID]

/-- A lease that was released has no holder. -/
structure Lease (HubID : Type) where
  holderIdentity : Option HubID
  leaderTransitions : Nat

/-- How far the elector has got in making its hub the leader. -/
inductive Elector where
  | waiting
  | acquired
  | started
  | leading
deriving DecidableEq

structure Deployment (HubID : Type) where
  hubs : HubID → State
  electors : HubID → Elector
  /-- The document that a hub's writer is about to write. -/
  files : HubID → Option File
  lease : Option (Lease HubID)
  disk : Disk

/-- The first holder creates the lease; every change of the holder counts. -/
def acquireLease (id : HubID) (lease : Option (Lease HubID)) : Lease HubID :=
  match lease with
  | none => ⟨some id, 0⟩
  | some lease =>
      if lease.holderIdentity = some id then lease else ⟨some id, lease.leaderTransitions + 1⟩

inductive Move (HubID : Type) where
  | hub (id : HubID) (action : Action)
  | acquire (id : HubID)
  | startLeading (id : HubID)
  | readEpoch (id : HubID)
  | stopLeading (id : HubID)
  | release (id : HubID)
  | writeSnapshot (id : HubID)
  | write (id : HubID) (order : RangeOrder) (now : Time)

/-- What a hub does by itself. Its elector sets leadership and epoch, and its
writer ends with the write to the disk. -/
def Action.own : Action → Bool
  | .setLeader _ => false
  | .setLeaseEpoch _ => false
  | .finishWrite => false
  | _ => true

namespace Deployment

def setHub (deployment : Deployment HubID) (id : HubID) (state : State) : Deployment HubID :=
  { deployment with hubs := Function.update deployment.hubs id state }

def setElector (deployment : Deployment HubID) (id : HubID) (elector : Elector) :
    Deployment HubID :=
  { deployment with electors := Function.update deployment.electors id elector }

def setFile (deployment : Deployment HubID) (id : HubID) (file : Option File) :
    Deployment HubID :=
  { deployment with files := Function.update deployment.files id file }

def step (hub : Setup) (move : Move HubID) (deployment : Deployment HubID) :
    Option (Deployment HubID) :=
  match move with
  | .hub id action =>
      if action.own then
        (Federation.step hub action (deployment.hubs id)).map (deployment.setHub id)
      else none
  | .acquire id =>
      if deployment.electors id = .waiting then
        some ({ deployment with lease := some (acquireLease id deployment.lease) }.setElector id
          .acquired)
      else none
  | .startLeading id =>
      if deployment.electors id = .acquired then
        some ((deployment.setHub id { deployment.hubs id with isLeader := true }).setElector id
          .started)
      else none
  | .readEpoch id =>
      match deployment.electors id, deployment.lease with
      | .started, some lease =>
          some ((deployment.setHub id
            { deployment.hubs id with leaseEpoch := lease.leaderTransitions }).setElector id
            .leading)
      | _, _ => none
  | .stopLeading id =>
      some ((deployment.setHub id { deployment.hubs id with isLeader := false }).setElector id
        .waiting)
  | .release id =>
      match deployment.lease with
      | some lease =>
          if lease.holderIdentity = some id then
            some { deployment with lease := some ⟨none, lease.leaderTransitions⟩ }
          else none
      | none => none
  | .writeSnapshot id =>
      match (deployment.hubs id).writing, deployment.files id with
      | some publication, none =>
          some (deployment.setFile id
            (some (snapshotFile (deployment.hubs id).leaseEpoch publication.graph)))
      | _, _ => none
  | .write id order now =>
      match deployment.files id with
      | some file =>
          some (({ deployment with
              disk := (Snapshot.write order now file deployment.disk).2 }.setFile id none).setHub id
            { deployment.hubs id with writing := none })
      | none => none

/-- All hubs are as they are constructed, and wait for the lease. The disk may
hold a snapshot of an earlier deployment. -/
structure Initial (deployment : Deployment HubID) : Prop where
  fresh : ∀ id, Fresh (deployment.hubs id)
  isLeader : ∀ id, (deployment.hubs id).isLeader = false
  leaseEpoch : ∀ id, (deployment.hubs id).leaseEpoch = 0
  electors : ∀ id, deployment.electors id = .waiting
  files : ∀ id, deployment.files id = none
  lease : deployment.lease = none

/-! ## What a move can do -/

/-- The cases of a move. -/
inductive Moved (hub : Setup) (deployment : Deployment HubID) :
    Move HubID → Deployment HubID → Prop
  | hub {id : HubID} {action : Action} {next : State} (hown : action.own = true)
      (hstep : Stepped hub (deployment.hubs id) action next) :
      Moved hub deployment (.hub id action) (deployment.setHub id next)
  | acquired {id : HubID} (hwaiting : deployment.electors id = .waiting) :
      Moved hub deployment (.acquire id)
        ({ deployment with lease := some (acquireLease id deployment.lease) }.setElector id
          .acquired)
  | started {id : HubID} (hacquired : deployment.electors id = .acquired) :
      Moved hub deployment (.startLeading id)
        ((deployment.setHub id { deployment.hubs id with isLeader := true }).setElector id .started)
  | epochRead {id : HubID} {lease : Lease HubID} (hstarted : deployment.electors id = .started)
      (hlease : deployment.lease = some lease) :
      Moved hub deployment (.readEpoch id)
        ((deployment.setHub id
          { deployment.hubs id with leaseEpoch := lease.leaderTransitions }).setElector id .leading)
  | stopped {id : HubID} :
      Moved hub deployment (.stopLeading id)
        ((deployment.setHub id { deployment.hubs id with isLeader := false }).setElector id
          .waiting)
  | released {id : HubID} {lease : Lease HubID} (hlease : deployment.lease = some lease)
      (hholder : lease.holderIdentity = some id) :
      Moved hub deployment (.release id)
        { deployment with lease := some ⟨none, lease.leaderTransitions⟩ }
  | filed {id : HubID} {publication : Publication}
      (hwriting : (deployment.hubs id).writing = some publication)
      (hnone : deployment.files id = none) :
      Moved hub deployment (.writeSnapshot id)
        (deployment.setFile id
          (some (snapshotFile (deployment.hubs id).leaseEpoch publication.graph)))
  | written {id : HubID} {order : RangeOrder} {now : Time} {file : File}
      (hfile : deployment.files id = some file) :
      Moved hub deployment (.write id order now)
        (({ deployment with disk := (Snapshot.write order now file deployment.disk).2 }.setFile
          id none).setHub id { deployment.hubs id with writing := none })

theorem moved_of_step {hub : Setup} {move : Move HubID} {deployment next : Deployment HubID}
    (hstep : deployment.step hub move = some next) : Moved hub deployment move next := by
  unfold step at hstep
  split at hstep
  · split_ifs at hstep with hown
    obtain ⟨state, hstate, rfl⟩ := Option.map_eq_some_iff.mp hstep
    exact .hub hown (stepped_of_step hstate)
  · split_ifs at hstep with hwaiting
    cases hstep
    exact .acquired hwaiting
  · split_ifs at hstep with hacquired
    cases hstep
    exact .started hacquired
  · split at hstep
    · next hstarted hlease =>
        cases hstep
        exact .epochRead hstarted hlease
    · cases hstep
  · cases hstep
    exact .stopped
  · split at hstep
    · next hlease =>
        split_ifs at hstep with hholder
        cases hstep
        exact .released hlease hholder
    · cases hstep
  · split at hstep
    · next hwriting hnone =>
        cases hstep
        exact .filed hwriting hnone
    · cases hstep
  · split at hstep
    · next hfile =>
        cases hstep
        exact .written hfile
    · cases hstep

/-! ## Epochs -/

variable {hub : Setup} {move : Move HubID} {deployment next : Deployment HubID}

/-- How often the lease has changed hands. -/
def transitions (deployment : Deployment HubID) : Nat :=
  deployment.lease.elim 0 Lease.leaderTransitions

/-- No hub is ahead of the lease, and no document ahead of its hub. -/
structure Epochs (deployment : Deployment HubID) : Prop where
  hubs : ∀ id, (deployment.hubs id).leaseEpoch ≤ deployment.transitions
  files : ∀ id file, deployment.files id = some file →
    file.leaseEpoch ≤ (deployment.hubs id).leaseEpoch

theorem transitions_le_acquireLease (id : HubID) (lease : Option (Lease HubID)) :
    lease.elim 0 Lease.leaderTransitions ≤ (acquireLease id lease).leaderTransitions := by
  cases lease with
  | none => exact Nat.zero_le _
  | some lease =>
      unfold acquireLease
      dsimp only
      split_ifs
      · exact le_rfl
      · exact Nat.le_succ _

theorem leaseEpoch_eq_of_own {action : Action} {state next : State} (hown : action.own = true)
    (hstep : Stepped hub state action next) : next.leaseEpoch = state.leaseEpoch := by
  cases hstep with
  | call hcall => exact hcall.surroundings.leaseEpoch
  | leaseEpochSet => cases hown
  | _ => rfl

theorem setHub_hubs (deployment : Deployment HubID) (id other : HubID) (state : State) :
    (deployment.setHub id state).hubs other = if other = id then state else deployment.hubs other :=
  Function.update_apply ..

theorem setFile_files (deployment : Deployment HubID) (id other : HubID) (file : Option File) :
    (deployment.setFile id file).files other =
      if other = id then file else deployment.files other :=
  Function.update_apply ..

/-- A hub may change in any way that does not lower its epoch or put it ahead of
the lease. -/
theorem Epochs.setHub (hepochs : Epochs deployment) (id : HubID) (state : State)
    (hle : (deployment.hubs id).leaseEpoch ≤ state.leaseEpoch)
    (hlease : state.leaseEpoch ≤ deployment.transitions) :
    Epochs (deployment.setHub id state) := by
  constructor
  · intro other
    rw [setHub_hubs]
    split_ifs
    · exact hlease
    · exact hepochs.hubs other
  · intro other file hfile
    rw [setHub_hubs]
    split_ifs with hother
    · subst hother
      exact (hepochs.files other file hfile).trans hle
    · exact hepochs.files other file hfile

theorem Epochs.setFile (hepochs : Epochs deployment) (id : HubID) (file : Option File)
    (hle : ∀ opened, file = some opened → opened.leaseEpoch ≤ (deployment.hubs id).leaseEpoch) :
    Epochs (deployment.setFile id file) := by
  refine ⟨hepochs.hubs, ?_⟩
  intro other opened hopened
  rw [setFile_files] at hopened
  split_ifs at hopened with hother
  · subst hother
    exact hle opened hopened
  · exact hepochs.files other opened hopened

theorem Epochs.step (hepochs : Epochs deployment) (hmoved : Moved hub deployment move next) :
    Epochs next := by
  cases hmoved with
  | hub hown hstep =>
      have heq := leaseEpoch_eq_of_own hown hstep
      exact hepochs.setHub _ _ heq.ge (heq.le.trans (hepochs.hubs _))
  | acquired hwaiting =>
      refine ⟨fun id => (hepochs.hubs id).trans ?_, hepochs.files⟩
      exact transitions_le_acquireLease _ deployment.lease
  | @started id hacquired =>
      have hset := hepochs.setHub id { deployment.hubs id with isLeader := true } le_rfl
        (hepochs.hubs id)
      exact ⟨hset.hubs, hset.files⟩
  | @epochRead id lease hstarted hlease =>
      have htransitions : deployment.transitions = lease.leaderTransitions := by
        rw [transitions, hlease]
        rfl
      have hset := hepochs.setHub id
        { deployment.hubs id with leaseEpoch := lease.leaderTransitions }
        (htransitions ▸ hepochs.hubs id) htransitions.ge
      exact ⟨hset.hubs, hset.files⟩
  | @stopped id =>
      have hset := hepochs.setHub id { deployment.hubs id with isLeader := false } le_rfl
        (hepochs.hubs id)
      exact ⟨hset.hubs, hset.files⟩
  | released hlease hholder =>
      refine ⟨fun id => (hepochs.hubs id).trans ?_, hepochs.files⟩
      rw [transitions, hlease]
      exact le_rfl
  | filed hwriting hnone =>
      apply hepochs.setFile
      intro opened hopened
      cases hopened
      exact le_rfl
  | @written id order now file hfile =>
      have hdisk : Epochs { deployment with
          disk := (Snapshot.write order now file deployment.disk).2 } :=
        ⟨hepochs.hubs, hepochs.files⟩
      exact (hdisk.setFile id none nofun).setHub id _ le_rfl (hepochs.hubs id)

omit [DecidableEq HubID] in
theorem epochs_of_initial (hinitial : Initial deployment) : Epochs deployment := by
  constructor
  · intro id
    rw [hinitial.leaseEpoch]
    exact Nat.zero_le _
  · intro id file hfile
    rw [hinitial.files] at hfile
    cases hfile

/-! ## The fence -/

/-- A document that would replace one of a higher epoch has an epoch itself, and
the other one passes the checks of the loader. -/
def WellFenced (move : Move HubID) (deployment : Deployment HubID) : Prop :=
  match move with
  | .write id order _ => ∀ file ∈ deployment.files id, ∀ existing ∈ document deployment.disk,
      file.leaseEpoch < existing.leaseEpoch → 0 < file.leaseEpoch ∧ Loads order existing
  | _ => True

instance (move : Move HubID) (deployment : Deployment HubID) :
    Decidable (WellFenced move deployment) :=
  match move with
  | .write id order _ => inferInstanceAs (Decidable (∀ file ∈ deployment.files id,
      ∀ existing ∈ document deployment.disk,
        file.leaseEpoch < existing.leaseEpoch → 0 < file.leaseEpoch ∧ Loads order existing))
  | .hub _ _ | .acquire _ | .startLeading _ | .readEpoch _ | .stopLeading _ | .release _
  | .writeSnapshot _ => isTrue trivial

/-- What the fence is there for: a hub with a lower epoch than the document does
not replace it, and the epoch of the document does not decrease. -/
def FenceHolds (hub : Setup) (move : Move HubID) (deployment : Deployment HubID) : Prop :=
  ∀ next, deployment.step hub move = some next → ∀ existing ∈ document deployment.disk,
    (∀ id order now, move = .write id order now →
      (deployment.hubs id).leaseEpoch < existing.leaseEpoch → next.disk = deployment.disk) ∧
    ∃ found ∈ document next.disk, existing.leaseEpoch ≤ found.leaseEpoch

theorem Moved.disk_eq (hmoved : Moved hub deployment move next)
    (hother : ∀ id order now, move ≠ .write id order now) : next.disk = deployment.disk := by
  cases hmoved with
  | written hfile => exact absurd rfl (hother _ _ _)
  | _ => rfl

theorem WellFenced.fenceHolds (hepochs : Epochs deployment) (hfenced : WellFenced move deployment) :
    FenceHolds hub move deployment := by
  intro next hnext existing hexisting
  have hmoved := moved_of_step hnext
  by_cases hwrite : ∃ id order now, move = .write id order now
  · obtain ⟨id, order, now, rfl⟩ := hwrite
    cases hmoved with
    | @written _ _ _ file hfile =>
        rcases write_cases order now file deployment.disk with
          ⟨hkept, -⟩ | ⟨hreplaced, hbound⟩
        · exact ⟨fun _ _ _ _ _ => hkept, existing, by rwa [Deployment.setHub, hkept], le_rfl⟩
        · have hle : existing.leaseEpoch ≤ file.leaseEpoch := by
            by_contra hlower
            obtain ⟨hepoch, hloads⟩ :=
              hfenced file hfile existing hexisting (not_le.mp hlower)
            exact hlower (hbound existing hexisting hepoch hloads)
          constructor
          · intro writer _ _ heq hlower
            cases heq
            exact absurd (hle.trans (hepochs.files id file hfile)) (not_le.mpr hlower)
          · refine ⟨stamped now file, ?_, hle⟩
            rw [Deployment.setHub, hreplaced]
            rfl
  · have hdisk := hmoved.disk_eq (fun id order now heq => hwrite ⟨id, order, now, heq⟩)
    exact ⟨fun _ _ _ _ _ => hdisk, existing, by rwa [hdisk], le_rfl⟩

theorem FenceHolds.wellFenced (hholds : FenceHolds hub move deployment) :
    WellFenced move deployment := by
  cases move with
  | write id order now =>
      intro file hfile existing hexisting hlower
      have hnext : deployment.step hub (.write id order now) =
          some (({ deployment with
            disk := (Snapshot.write order now file deployment.disk).2 }.setFile id none).setHub id
            { deployment.hubs id with writing := none }) := by
        simp only [Deployment.step, Option.mem_def.mp hfile]
      obtain ⟨-, found, hfound, hle⟩ := hholds _ hnext existing hexisting
      rcases write_cases order now file deployment.disk with
        ⟨-, loaded, hloaded, hepoch, hloads, -⟩ | ⟨hreplaced, -⟩
      · rw [Option.mem_def, hloaded] at hexisting
        cases hexisting
        exact ⟨hepoch, hloads⟩
      · -- the lower epoch has replaced the higher one
        rw [Deployment.setHub, Deployment.setFile, hreplaced] at hfound
        cases hfound
        exact absurd hle (not_le.mpr hlower)
  | _ => trivial

end Deployment

open Deployment

/-- In a run the fence holds at every move exactly if every write meets the
condition: no document without an epoch meets one with an epoch, and no document
that does not load is replaced by one of a lower epoch. -/
theorem snapshot_fence_holds_iff (hub : Setup) (start : Deployment HubID)
    (moves : List (Move HubID)) (hinitial : Initial start) :
    Throughout (Deployment.step hub) WellFenced moves start ↔
      Throughout (Deployment.step hub) (FenceHolds hub) moves start := by
  refine throughout_congr (fun _ _ _ hepochs hstep => Epochs.step hepochs (moved_of_step hstep))
    (fun move deployment hepochs => ?_) (epochs_of_initial hinitial)
  exact ⟨fun hfenced => hfenced.fenceHolds hepochs, fun hholds => hholds.wellFenced⟩

/-! Two hubs, the second of which takes the lease from the first. -/

def standby : State := { freshHub with isLeader := false }

def twoHubs : Deployment Bool :=
  ⟨fun _ => standby, fun _ => .waiting, fun _ => none, none, none⟩

theorem initial_twoHubs : Initial twoHubs :=
  ⟨fun _ => ⟨rfl, rfl, rfl, rfl, rfl, rfl, rfl, rfl, rfl, rfl⟩, fun _ => rfl, fun _ => rfl,
    fun _ => rfl, fun _ => rfl, rfl⟩

/-- A hub becomes the leader. -/
def lead (id : Bool) : List (Move Bool) := [.acquire id, .startLeading id, .readEpoch id]

/-- A hub accepts a push and comes to write the snapshot. -/
def acceptPush (id : Bool) (request : Request) (seconds : Int) : List (Move Bool) :=
  (pushSteps 1 request seconds).map (.hub id) ++ [.hub id .takeSnapshot, .writeSnapshot id]

def writeNow (id : Bool) : Move Bool := .write id .insertion (atSecond 63900000009)

/-- The first leader writes before it loses the lease. -/
def orderlyHandOver : List (Move Bool) :=
  lead false ++ acceptPush false (pushRequest (str "east") (str "sw1") 63900000000) 63900000001 ++
    [writeNow false] ++ lead true ++
    acceptPush true (pushRequest (str "west") (str "sw2") 63900000000) 63900000002 ++
    [writeNow true]

theorem orderlyHandOver_fenced :
    (run (Deployment.step plainHub) orderlyHandOver twoHubs).isSome = true ∧
      Throughout (Deployment.step plainHub) (FenceHolds plainHub) orderlyHandOver twoHubs := by
  refine ⟨by decide, ?_⟩
  apply (snapshot_fence_holds_iff plainHub twoHubs orderlyHandOver initial_twoHubs).mp
  decide

/-- The first leader is still about to write when the second one has. -/
def lateWrite : List (Move Bool) :=
  lead false ++ acceptPush false (pushRequest (str "east") (str "sw1") 63900000000) 63900000001 ++
    lead true ++ acceptPush true (pushRequest (str "west") (str "sw2") 63900000000) 63900000002 ++
    [writeNow true]

/-- The first leader has epoch 0, which is not fenced: it replaces the document of
the second one, which has epoch 1. -/
theorem first_leader_not_fenced :
    Initial twoHubs ∧
      ∃ before after existing found,
        run (Deployment.step plainHub) lateWrite twoHubs = some before ∧
        Deployment.step plainHub (writeNow false) before = some after ∧
        document before.disk = some existing ∧ document after.disk = some found ∧
        (before.hubs false).leaseEpoch < existing.leaseEpoch ∧ after.disk ≠ before.disk ∧
        found.leaseEpoch < existing.leaseEpoch := by
  refine ⟨initial_twoHubs, ?_⟩
  have hrun : ((run (Deployment.step plainHub) lateWrite twoHubs).bind fun before =>
      (Deployment.step plainHub (writeNow false) before).bind fun after =>
        (document before.disk).bind fun existing => (document after.disk).map fun found =>
          decide ((before.hubs false).leaseEpoch < existing.leaseEpoch ∧
            after.disk ≠ before.disk ∧ found.leaseEpoch < existing.leaseEpoch)) = some true := by
    decide
  obtain ⟨before, hbefore, hrest⟩ := Option.bind_eq_some_iff.mp hrun
  obtain ⟨after, hafter, hrest⟩ := Option.bind_eq_some_iff.mp hrest
  obtain ⟨existing, hexisting, hrest⟩ := Option.bind_eq_some_iff.mp hrest
  obtain ⟨found, hfound, hlower⟩ := Option.map_eq_some_iff.mp hrest
  exact ⟨before, after, existing, found, hbefore, hafter, hexisting, hfound,
    of_decide_eq_true hlower⟩

/-! ## Routing by readiness

Pushes reach a hub through a service that only routes to hubs that are ready. A
hub is ready once it has accepted a push. -/

namespace Deployment

variable {hub : Setup} {move : Move HubID} {deployment next : Deployment HubID}

/-- Whether the service lets a move happen. -/
def routed (move : Move HubID) (deployment : Deployment HubID) : Bool :=
  match move with
  | .hub id (.receive _ _ _ _) => (deployment.hubs id).isReady
  | _ => true

def routedStep (hub : Setup) (move : Move HubID) (deployment : Deployment HubID) :
    Option (Deployment HubID) :=
  if routed move deployment then deployment.step hub move else none

/-- A hub that no push has reached: there is nothing to evict either. -/
structure Unreached (state : State) : Prop where
  spokes : state.spokes = ∅
  firstLive : state.firstLive = false
  calls : ∀ id call, state.calls.lookup id = some call →
    call.request = none ∧ ((∃ now, call.phase = .evicting now) ∨ call.phase = .returned)

theorem silentSpokes_empty (cfg : FederationConfig) (now : Time) : silentSpokes cfg now ∅ = [] :=
  rfl

variable {state : State}

/-- The evictions of such a hub end without having deleted anything. -/
theorem unreached_callStep {core : State} {id : CallID} {action : Action} {updated : Call}
    (hunreached : Unreached state) (hstep : CallStep hub state id action updated core)
    (hpush : ∀ id request order now, action ≠ .receive id request order now) :
    core = state ∧ updated.request = none ∧
      ((∃ now, updated.phase = .evicting now) ∨ updated.phase = .returned) := by
  -- a call that has begun is an eviction before its first step
  have hearly : ∀ {call}, state.calls.lookup id = some call →
      (∀ now, call.phase ≠ .evicting now) → call.phase ≠ .returned → False := by
    intro call hcall hevicting hreturned
    rcases (hunreached.calls id call hcall).2 with ⟨now, hphase⟩ | hphase
    · exact hevicting now hphase
    · exact hreturned hphase
  cases hstep with
  | refused hnew hcheck => exact absurd rfl (hpush _ _ _ _)
  | admitted hnew hcheck => exact absurd rfl (hpush _ _ _ _)
  | evictionStarted hnew =>
      refine ⟨rfl, rfl, ?_⟩
      split_ifs
      · exact Or.inl ⟨_, rfl⟩
      · exact Or.inr rfl
  | deleted hcall hphase hrequest hevicted =>
      rw [hunreached.spokes, silentSpokes_empty] at hevicted
      subst hevicted
      exact ⟨rfl, hrequest, Or.inr rfl⟩
  | tooSoon hcall hphase _ _ | prepared hcall hphase _ _ _ | copied hcall hphase _ _
  | built hcall hphase _ | won hcall hphase _ _ | stale hcall hphase _
  | tooLarge hcall hphase _ _ | finished hcall hphase =>
      refine (hearly hcall ?_ ?_).elim
      · intro now
        rw [hphase]
        exact Phase.noConfusion
      · rw [hphase]
        exact Phase.noConfusion

theorem Unreached.step {next : State} {action : Action} (hunreached : Unreached state)
    (hstep : Stepped hub state action next)
    (hpush : ∀ id request order now, action ≠ .receive id request order now) : Unreached next := by
  cases hstep with
  | @call id _ updated core hcall =>
      obtain ⟨rfl, hrequest, hphase⟩ := unreached_callStep hunreached hcall hpush
      refine ⟨hunreached.spokes, hunreached.firstLive, ?_⟩
      intro other found hfound
      by_cases hother : other = id
      · subst hother
        rw [lookup_setCall] at hfound
        cases hfound
        exact ⟨hrequest, hphase⟩
      · rw [lookup_setCall_of_ne hother] at hfound
        exact hunreached.calls other found hfound
  | _ => exact ⟨hunreached.spokes, hunreached.firstLive, hunreached.calls⟩

theorem unreached_of_fresh (hfresh : Fresh state) : Unreached state := by
  refine ⟨hfresh.spokes, hfresh.firstLive, ?_⟩
  intro id call hcall
  rw [hfresh.calls] at hcall
  cases hcall

theorem unreached_setHub {id : HubID} (hunreached : ∀ id, Unreached (deployment.hubs id))
    (hstate : Unreached state) : ∀ other, Unreached ((deployment.setHub id state).hubs other) := by
  intro other
  rw [setHub_hubs]
  split_ifs
  · exact hstate
  · exact hunreached other

/-- The service never lets a first push through. -/
theorem unreached_step (hunreached : ∀ id, Unreached (deployment.hubs id))
    (hstep : deployment.routedStep hub move = some next) : ∀ id, Unreached (next.hubs id) := by
  unfold routedStep at hstep
  split_ifs at hstep with hrouted
  have hsame : ∀ {id : HubID} {state : State}, state.spokes = (deployment.hubs id).spokes →
      state.firstLive = (deployment.hubs id).firstLive →
      state.calls = (deployment.hubs id).calls → Unreached state := by
    intro id state hspokes hlive hcalls
    refine ⟨hspokes.trans (hunreached id).spokes, hlive.trans (hunreached id).firstLive, ?_⟩
    rw [hcalls]
    exact (hunreached id).calls
  cases moved_of_step hstep with
  | @hub id action state hown hstate =>
      refine unreached_setHub hunreached ((hunreached id).step hstate ?_)
      rintro call request order now rfl
      -- a push needs a hub that is ready, and that needs a push
      have hready : (deployment.hubs id).isReady = true := hrouted
      rw [State.isReady, (hunreached id).firstLive] at hready
      cases hready
  | @started id _ => exact unreached_setHub hunreached (@hsame id _ rfl rfl rfl)
  | @epochRead id _ _ _ => exact unreached_setHub hunreached (@hsame id _ rfl rfl rfl)
  | @stopped id => exact unreached_setHub hunreached (@hsame id _ rfl rfl rfl)
  | @written id _ _ _ _ => exact unreached_setHub hunreached (@hsame id _ rfl rfl rfl)
  | _ => exact hunreached

theorem unreached_of_reachable (hreachable : Reachable (routedStep hub) Initial deployment) :
    ∀ id, Unreached (deployment.hubs id) :=
  hreachable.invariant (fun _ hinitial id => unreached_of_fresh (hinitial.fresh id))
    (fun _ _ _ hinvariant hstep => unreached_step hinvariant hstep)

theorem Unreached.not_accepted (hunreached : Unreached state) {id : CallID} {call : Call}
    (hcall : state.calls.lookup id = some call) : call.phase ≠ .answered .accepted := by
  intro haccepted
  rcases (hunreached.calls id call hcall).2 with ⟨now, hphase⟩ | hphase
  · rw [haccepted] at hphase
    cases hphase
  · rw [haccepted] at hphase
    cases hphase

end Deployment

/-- A deployment whose pushes are routed by readiness never accepts one, whoever
leads: no run leads from a reachable state to a state in which some hub has
answered a push with 204. -/
theorem leader_never_accepts (hub : Setup) (deployment : Deployment HubID)
    (hreachable : Reachable (routedStep hub) Initial deployment) (id : HubID) :
    ¬ ∃ moves later call record, run (routedStep hub) moves deployment = some later ∧
      (later.hubs id).calls.lookup call = some record ∧ record.phase = .answered .accepted := by
  rintro ⟨moves, later, call, record, hrun, hrecord, haccepted⟩
  exact (unreached_of_reachable (hreachable.run hrun) id).not_accepted hrecord haccepted

/-- After a failover. -/
theorem new_leader_never_accepts :
    ∃ deployment, run (routedStep plainHub) (lead false ++ .stopLeading false :: lead true)
        twoHubs = some deployment ∧
      (deployment.hubs true).isLeader = true ∧
      ¬ ∃ moves later call record, run (routedStep plainHub) moves deployment = some later ∧
        (later.hubs true).calls.lookup call = some record ∧
        record.phase = .answered .accepted := by
  have hrun : ((run (routedStep plainHub) (lead false ++ .stopLeading false :: lead true)
      twoHubs).map fun deployment => (deployment.hubs true).isLeader) = some true := by
    decide
  obtain ⟨deployment, hdeployment, hleader⟩ := Option.map_eq_some_iff.mp hrun
  exact ⟨deployment, hdeployment, hleader, leader_never_accepts plainHub deployment
    ⟨twoHubs, _, initial_twoHubs, hdeployment⟩ true⟩

/-- At the first start the elected hub is not ready, and stays so. -/
theorem first_leader_stuck :
    ∃ deployment, run (routedStep plainHub) (lead false) twoHubs = some deployment ∧
      (deployment.hubs false).isLeader = true ∧ (deployment.hubs false).isReady = false ∧
      ∀ moves later call record, run (routedStep plainHub) moves deployment = some later →
        (later.hubs false).calls.lookup call = some record →
        record.phase ≠ .answered .accepted := by
  have hrun : ((run (routedStep plainHub) (lead false) twoHubs).map fun deployment =>
      decide ((deployment.hubs false).isLeader = true ∧
        (deployment.hubs false).isReady = false)) = some true := by
    decide
  obtain ⟨deployment, hdeployment, hleader⟩ := Option.map_eq_some_iff.mp hrun
  obtain ⟨hleader, hready⟩ := of_decide_eq_true hleader
  refine ⟨deployment, hdeployment, hleader, hready, ?_⟩
  intro moves later call record hlater hrecord
  have hreachable : Reachable (routedStep plainHub) Initial deployment :=
    ⟨twoHubs, _, initial_twoHubs, hdeployment⟩
  exact (unreached_of_reachable (hreachable.run hlater) false).not_accepted hrecord

end TopologyExporter.Federation
