import TopologyExporter.App.Publish
import TopologyExporter.App.Secrets
import TopologyExporter.Foundation.Mutex
import TopologyExporter.Foundation.Selection

/-! # Forced walks

An operator can ask for a walk of single addresses outside the regular cycle.
The batch is gone through twice: every target is first checked against the
allow-list, then those that passed are walked one by one, each under the mutex
that the regular cycle holds while it walks. The results are kept in the order
of the targets, and the second pass fills in what the first left open.
-/

namespace TopologyExporter.App.Rediscovery

open Go Discovery Selection

/-- The end of one walk. A result that is not filled in yet is `unset`. -/
inductive RediscoverOutcome where
  | unset
  | success
  | timeout
  | authFailure
  | outOfScope
  | error
deriving DecidableEq

/-- The value of the outcome label. -/
def RediscoverOutcome.label : RediscoverOutcome → GoString
  | .unset => []
  | .success => str "success"
  | .timeout => str "timeout"
  | .authFailure => str "auth_failure"
  | .outOfScope => str "out_of_scope"
  | .error => str "error"

/-- What the text of a result's error is about. -/
inductive RediscoverError where
  | notAnAddress
  | outsideAllowList
  | context (error : Probing.ContextError)
  | probe (error : Probing.ProbeError)

structure RediscoverResult where
  target : GoString
  outcome : RediscoverOutcome
  edges : Nat
  error : Option RediscoverError

structure TargetConfig where
  host : GoString
  port : Int

structure Rediscoverer where
  cfg : Config
  targets : List TargetConfig
  probing : Probing.ProbeConfig
  environment : Map GoString GoString
  targetPortOverride : Map GoString UInt16

/-- What one walk meets: the error of the context before it, the resolver and the
memory as the walks and cycles before it left them, the trials of credentials,
the device, and the times at which the clock is read. -/
structure Encounter where
  context : Option Probing.ContextError
  resolver : Credentials.Resolver
  memory : Probing.Secrets
  attempts : Nat → Probing.Attempt
  device : Probe
  triedAt : Time
  recordedAt : Time

/-- What a batch does outside, with the position of the target it is done for. -/
inductive Act where
  | record (index : Nat) (outcome : RediscoverOutcome)
  | readContext (index : Nat) (error : Option Probing.ContextError)
  | lock
  | walkOne (index : Nat) (ip : Net.IP)
  | unlock

/-! ## One walk -/

/-- The error comes from the context: it ran out or was cancelled. -/
def isContextError : Probing.ProbeError → Bool
  | .failed (some (.context _)) => true
  | .failed _ => false
  | .noCandidates _ => false

structure Walked where
  outcome : RediscoverOutcome
  edges : Nat
  error : Option Probing.ProbeError
  resolver : Credentials.Resolver
  memory : Probing.Secrets

def targetPort (rd : Rediscoverer) (host : GoString) : Int :=
  match rd.targetPortOverride.lookup host with
  | some port => port.toNat
  | none => ((rd.targets.find? (fun target => target.host = host)).map TargetConfig.port).getD 0

/-- The device as its modules are walked, with the credentials that won. -/
def Encounter.probe (met : Encounter) (ip : Net.IP) (memory : Probing.Secrets)
    (params : Probing.Params) : Probe :=
  { met.device with
    ip := some ip
    community := (params.community.bind (fun place => memory[place]?)).getD []
    v3 := params.v3 }

def walkOne (rd : Rediscoverer) (met : Encounter) (ip : Net.IP) : Walked :=
  let host := Net.ipString ip
  let tried := Probing.walkSystemWithCredentials met.attempts met.resolver ip rd.environment
    rd.probing (targetPort rd host) met.triedAt met.memory
  match tried.result with
  | .error error =>
      { outcome := if isContextError error then .timeout else .authFailure
        edges := 0
        error := some error
        resolver := tried.resolver
        memory := tried.memory }
  | .ok (device, params, profileName) =>
      let probe := met.probe ip tried.memory params
      let walks := walkModules rd.cfg probe (walkParams rd.cfg probe device) device ip
      { outcome := .success
        edges := (walks.flatMap (fun walk => walk.2.edges)).length
        error := none
        resolver := tried.resolver.recordSuccess host profileName met.recordedAt
        memory := (params.zeroize tried.memory).1 }

/-! ## A batch -/

structure Batch where
  results : List RediscoverResult
  toWalk : List (Nat × Net.IP)
  acts : List Act

/-- Adds a result that no walk is needed for. -/
def Batch.refuse (batch : Batch) (target : GoString) (outcome : RediscoverOutcome)
    (error : RediscoverError) : Batch :=
  { batch with
    results := batch.results ++ [⟨target, outcome, 0, some error⟩]
    acts := batch.acts ++ [.record batch.results.length outcome] }

/-- The first pass over one target. -/
def checkScope (rd : Rediscoverer) (batch : Batch) (raw : GoString) : Batch :=
  match Net.parseIP raw with
  | none => batch.refuse raw .error .notAnAddress
  | some ip =>
      if rd.cfg.allowedNets = [] ∨ ipInNets ip rd.cfg.allowedNets = false then
        batch.refuse raw .outOfScope .outsideAllowList
      else
        { batch with
          results := batch.results ++ [⟨raw, .unset, 0, none⟩]
          toWalk := batch.toWalk ++ [(batch.results.length, ip)] }

/-- What the second pass makes of a result that the first left open. -/
def fillIn (rd : Rediscoverer) (met : Encounter) (ip : Net.IP) (result : RediscoverResult) :
    RediscoverResult :=
  match met.context with
  | some error => { result with outcome := .timeout, error := some (.context error) }
  | none =>
      let walked := walkOne rd met ip
      { result with
        outcome := walked.outcome
        edges := walked.edges
        error := (walked.error.map .probe).or result.error }

/-- What it does outside meanwhile. The mutex is held for one walk at a time. -/
def walkActs (rd : Rediscoverer) (met : Encounter) (index : Nat) (ip : Net.IP) : List Act :=
  match met.context with
  | some error => [.readContext index (some error), .record index .timeout]
  | none => [.readContext index none, .lock, .walkOne index ip, .unlock,
      .record index (walkOne rd met ip).outcome]

/-- The second pass over one target that passed the first. -/
def walkPending (rd : Rediscoverer) (met : Nat → Encounter) (batch : Batch)
    (pending : Nat × Net.IP) : Batch :=
  let (index, ip) := pending
  { batch with
    results := batch.results.modify index (fillIn rd (met index) ip)
    acts := batch.acts ++ walkActs rd (met index) index ip }

def rediscover (rd : Rediscoverer) (met : Nat → Encounter) (targets : List GoString) : Batch :=
  let checked := targets.foldl (checkScope rd) ⟨[], [], []⟩
  -- with nothing to walk this is the early return
  checked.toWalk.foldl (walkPending rd met) checked

/-! ## What becomes of each target -/

section Targets

variable (rd : Rediscoverer)

/-- The address to be walked: the target is one, and it is in the allow-list. -/
def inScope (raw : GoString) : Option Net.IP :=
  (Net.parseIP raw).filter (fun ip => rd.cfg.allowedNets ≠ [] ∧ ipInNets ip rd.cfg.allowedNets)

/-- The result after the first pass. -/
def checkedResult (raw : GoString) : RediscoverResult :=
  if Net.parseIP raw = none then ⟨raw, .error, 0, some .notAnAddress⟩
  else if inScope rd raw = none then ⟨raw, .outOfScope, 0, some .outsideAllowList⟩
  else ⟨raw, .unset, 0, none⟩

/-- What the first pass does outside. -/
def checkActs (index : Nat) (raw : GoString) : List Act :=
  if inScope rd raw = none then [.record index (checkedResult rd raw).outcome] else []

/-- The result for a target at a position of the batch. -/
def finalResult (met : Nat → Encounter) (index : Nat) (raw : GoString) : RediscoverResult :=
  (inScope rd raw).elim (checkedResult rd raw)
    (fun ip => fillIn rd (met index) ip (checkedResult rd raw))

variable {rd} {ip : Net.IP} {index : Nat} {pending : List (Nat × Net.IP)} {act : Act}
  {outcome : RediscoverOutcome}

theorem inScope_eq_some {raw : GoString} :
    inScope rd raw = some ip ↔
      Net.parseIP raw = some ip ∧ rd.cfg.allowedNets ≠ [] ∧
        ipInNets ip rd.cfg.allowedNets = true := by
  simp [inScope, Option.filter_eq_some_iff]

theorem checkScope_eq (batch : Batch) (raw : GoString) :
    checkScope rd batch raw =
      { results := batch.results ++ [checkedResult rd raw]
        toWalk := batch.toWalk ++ (inScope rd raw).toList.map (Prod.mk batch.results.length)
        acts := batch.acts ++ checkActs rd batch.results.length raw } := by
  unfold checkScope checkedResult checkActs checkedResult
  cases hparse : Net.parseIP raw with
  | none =>
      have hscope : inScope rd raw = none := by rw [inScope, hparse, Option.filter_none]
      simp [Batch.refuse, hscope]
  | some ip =>
      by_cases hrefused : rd.cfg.allowedNets = [] ∨ ipInNets ip rd.cfg.allowedNets = false
      · have hscope : inScope rd raw = none := by
          rw [inScope, hparse, Option.filter_some, if_neg]
          simpa [imp_iff_not_or] using hrefused
        simp [Batch.refuse, hscope, hrefused]
      · have hscope : inScope rd raw = some ip := by
          obtain ⟨hlisted, hinside⟩ := not_or.mp hrefused
          exact inScope_eq_some.mpr ⟨hparse, hlisted, eq_true_of_ne_false hinside⟩
        simp [hscope, hrefused]

/-- The targets that passed the first pass, with their positions. -/
def pendingTargets (rd : Rediscoverer) (targets : List GoString) : List (Nat × Net.IP) :=
  targets.zipIdx.flatMap (fun (raw, index) => (inScope rd raw).toList.map (Prod.mk index))

theorem foldl_checkScope (targets : List GoString) :
    targets.foldl (checkScope rd) ⟨[], [], []⟩ =
      { results := targets.map (checkedResult rd)
        toWalk := pendingTargets rd targets
        acts := targets.zipIdx.flatMap (fun (raw, index) => checkActs rd index raw) } := by
  induction targets using List.reverseRecOn with
  | nil => rfl
  | append_singleton front raw ih =>
      rw [List.foldl_append, List.foldl_cons, List.foldl_nil, ih, checkScope_eq]
      simp [pendingTargets, List.zipIdx_append]

theorem mem_pendingTargets {targets : List GoString} :
    (index, ip) ∈ pendingTargets rd targets ↔
      ∃ raw, targets[index]? = some raw ∧ inScope rd raw = some ip := by
  simp [pendingTargets, List.mem_flatMap, List.mk_mem_zipIdx_iff_getElem?]

/-- No position is walked twice. -/
theorem nodup_pendingTargets (targets : List GoString) :
    ((pendingTargets rd targets).map Prod.fst).Nodup := by
  have hsublist : ((pendingTargets rd targets).map Prod.fst).Sublist
      (targets.zipIdx.map Prod.snd) := by
    unfold pendingTargets
    induction targets using List.reverseRecOn with
    | nil => exact List.Sublist.slnil
    | append_singleton front raw ih =>
        have hlast : ∀ found : Option Net.IP,
            ((found.toList.map (Prod.mk front.length)).map Prod.fst).Sublist [front.length] := by
          intro found
          cases found with
          | none => exact List.nil_sublist [front.length]
          | some ip => exact List.Sublist.refl [front.length]
        simp only [List.zipIdx_append, List.flatMap_append, List.map_append]
        apply ih.append
        simpa using hlast (inScope rd raw)
  refine hsublist.nodup ?_
  rw [List.zipIdx_map_snd]
  exact List.nodup_range'

theorem results_walkPending (met : Nat → Encounter) (batch : Batch) (pending : Nat × Net.IP) :
    (walkPending rd met batch pending).results =
      batch.results.modify pending.1 (fillIn rd (met pending.1) pending.2) := rfl

theorem acts_foldl_walkPending (met : Nat → Encounter) (pending : List (Nat × Net.IP))
    (batch : Batch) :
    (pending.foldl (walkPending rd met) batch).acts =
      batch.acts ++ pending.flatMap (fun (index, ip) => walkActs rd (met index) index ip) := by
  induction pending generalizing batch with
  | nil => simp
  | cons first rest ih =>
      rw [List.foldl_cons, ih, List.flatMap_cons, ← List.append_assoc]
      rfl

/-- A position without a pending walk keeps its result. -/
theorem getElem?_foldl_of_notMem (met : Nat → Encounter) (hindex : index ∉ pending.map Prod.fst)
    (batch : Batch) :
    (pending.foldl (walkPending rd met) batch).results[index]? = batch.results[index]? := by
  induction pending generalizing batch with
  | nil => rfl
  | cons first rest ih =>
      rw [List.map_cons, List.mem_cons, not_or] at hindex
      rw [List.foldl_cons, ih hindex.2, results_walkPending,
        List.getElem?_modify_ne _ _ (Ne.symm hindex.1)]

/-- A position with one is filled in once. -/
theorem getElem?_foldl_of_mem (met : Nat → Encounter) (hnodup : (pending.map Prod.fst).Nodup)
    (hmem : (index, ip) ∈ pending) (batch : Batch) :
    (pending.foldl (walkPending rd met) batch).results[index]? =
      batch.results[index]?.map (fillIn rd (met index) ip) := by
  induction pending generalizing batch with
  | nil => cases hmem
  | cons first rest ih =>
      rw [List.map_cons, List.nodup_cons] at hnodup
      rw [List.foldl_cons]
      rcases List.mem_cons.mp hmem with rfl | hlater
      · rw [getElem?_foldl_of_notMem met hnodup.1, results_walkPending, List.getElem?_modify_eq]
        rfl
      · have hother : first.1 ≠ index := by
          intro hsame
          exact hnodup.1 (hsame ▸ List.mem_map_of_mem hlater)
        rw [ih hnodup.2 hlater, results_walkPending, List.getElem?_modify_ne _ _ hother]

/-- The result of every position depends on its own target alone. -/
theorem results_rediscover (met : Nat → Encounter) (targets : List GoString) :
    (rediscover rd met targets).results = targets.mapIdx (finalResult rd met) := by
  apply List.ext_getElem?
  intro index
  rw [rediscover, foldl_checkScope, List.getElem?_mapIdx]
  cases hraw : targets[index]? with
  | none =>
      have hindex : index ∉ (pendingTargets rd targets).map Prod.fst := by
        intro hmem
        obtain ⟨⟨found, ip⟩, hpending, rfl⟩ := List.mem_map.mp hmem
        obtain ⟨raw, hsome, -⟩ := mem_pendingTargets.mp hpending
        rw [hraw] at hsome
        cases hsome
      rw [getElem?_foldl_of_notMem met hindex, List.getElem?_map, hraw]
      rfl
  | some raw =>
      cases hscope : inScope rd raw with
      | none =>
          have hindex : index ∉ (pendingTargets rd targets).map Prod.fst := by
            intro hmem
            obtain ⟨⟨found, ip⟩, hpending, rfl⟩ := List.mem_map.mp hmem
            obtain ⟨other, hsome, hother⟩ := mem_pendingTargets.mp hpending
            rw [hraw] at hsome
            cases hsome
            rw [hscope] at hother
            cases hother
          rw [getElem?_foldl_of_notMem met hindex, List.getElem?_map, hraw, Option.map_some,
            Option.map_some, finalResult, hscope]
          rfl
      | some ip =>
          have hpending : (index, ip) ∈ pendingTargets rd targets :=
            mem_pendingTargets.mpr ⟨raw, hraw, hscope⟩
          rw [getElem?_foldl_of_mem met (nodup_pendingTargets targets) hpending,
            List.getElem?_map, hraw, Option.map_some, Option.map_some, Option.map_some, finalResult,
            hscope]
          rfl

theorem acts_rediscover (met : Nat → Encounter) (targets : List GoString) :
    (rediscover rd met targets).acts =
      targets.zipIdx.flatMap (fun (raw, index) => checkActs rd index raw) ++
        targets.zipIdx.flatMap (fun (raw, index) =>
          (inScope rd raw).toList.flatMap (walkActs rd (met index) index)) := by
  rw [rediscover, foldl_checkScope, acts_foldl_walkPending, pendingTargets, List.flatMap_assoc]
  simp only [List.flatMap_map]

/-! ## Records and walks -/

/-- What is recorded for the target at a position. -/
def Act.recordedAt (index : Nat) : Act → Option RediscoverOutcome
  | .record found outcome => if found = index then some outcome else none
  | _ => none

/-- What is walked for the target at a position. -/
def Act.walkedAt (index : Nat) : Act → Option Net.IP
  | .walkOne found ip => if found = index then some ip else none
  | _ => none

/-- The position an act is done for. -/
def Act.position : Act → Option Nat
  | .record index _ => some index
  | .readContext index _ => some index
  | .lock => none
  | .walkOne index _ => some index
  | .unlock => none

theorem position_of_recordedAt (hrecorded : Act.recordedAt index act = some outcome) :
    act.position = some index := by
  cases act with
  | record found outcome =>
      rw [Act.recordedAt, Option.ite_none_right_eq_some] at hrecorded
      exact congrArg some hrecorded.1
  | readContext | lock | walkOne | unlock => cases hrecorded

theorem position_of_walkedAt (hwalked : Act.walkedAt index act = some ip) :
    act.position = some index := by
  cases act with
  | walkOne found ip =>
      rw [Act.walkedAt, Option.ite_none_right_eq_some] at hwalked
      exact congrArg some hwalked.1
  | record | readContext | lock | unlock => cases hwalked

theorem position_of_mem_checkActs {found : Nat} {raw : GoString}
    (hact : act ∈ checkActs rd index raw) (hfound : act.position = some found) : found = index := by
  unfold checkActs at hact
  split_ifs at hact
  · cases List.mem_singleton.mp hact
    cases hfound
    rfl
  · cases hact

theorem position_of_mem_walkActs {met : Encounter} {found : Nat}
    (hact : act ∈ walkActs rd met index ip) (hfound : act.position = some found) :
    found = index := by
  unfold walkActs at hact
  split at hact
  all_goals simp only [List.mem_cons, List.not_mem_nil, or_false] at hact
  · rcases hact with rfl | rfl
    all_goals exact (Option.some.inj hfound).symm
  · rcases hact with rfl | rfl | rfl | rfl | rfl
    all_goals cases hfound
    all_goals rfl

/-- The acts of a position come from its own target. -/
theorem filterMap_acts {Value : Type} {select : Act → Option Value}
    (hselect : ∀ act value, select act = some value → act.position = some index)
    (met : Nat → Encounter) (targets : List GoString) :
    (rediscover rd met targets).acts.filterMap select =
      targets[index]?.elim [] (fun raw => (checkActs rd index raw ++
        (inScope rd raw).toList.flatMap (walkActs rd (met index) index)).filterMap select) := by
  have hnone : ∀ acts : List Act,
      (∀ act ∈ acts, act.position ≠ some index) → acts.filterMap select = [] := by
    intro acts hacts
    refine List.filterMap_eq_nil_iff.mpr fun act hact => ?_
    by_contra hsome
    obtain ⟨value, hvalue⟩ := Option.ne_none_iff_exists'.mp hsome
    exact hacts act hact (hselect act value hvalue)
  rw [acts_rediscover, List.filterMap_append, List.filterMap_flatMap, List.filterMap_flatMap,
    @flatMap_zipIdx_of_others _ _ targets _ index, @flatMap_zipIdx_of_others _ _ targets _ index]
  · cases targets[index]? with
    | none => rfl
    | some raw => simp [List.filterMap_append]
  · intro raw other hother
    refine hnone _ fun act hact hposition => hother ?_
    obtain ⟨ip, -, hwalk⟩ := List.mem_flatMap.mp hact
    exact (position_of_mem_walkActs hwalk hposition).symm
  · intro raw other hother
    refine hnone _ fun act hact hposition => hother ?_
    exact (position_of_mem_checkActs hact hposition).symm

theorem target_finalResult (met : Nat → Encounter) (index : Nat) (raw : GoString) :
    (finalResult rd met index raw).target = raw := by
  have hchecked : (checkedResult rd raw).target = raw := by
    unfold checkedResult
    split_ifs <;> rfl
  unfold finalResult
  cases inScope rd raw with
  | none => exact hchecked
  | some ip =>
      rw [Option.elim_some, fillIn]
      split
      · exact hchecked
      · exact hchecked

theorem outcome_walkOne (met : Encounter) (ip : Net.IP) :
    (walkOne rd met ip).outcome ≠ .unset := by
  unfold walkOne
  dsimp only
  split
  · split_ifs
    · exact RediscoverOutcome.noConfusion
    · exact RediscoverOutcome.noConfusion
  · exact RediscoverOutcome.noConfusion

theorem outcome_finalResult (met : Nat → Encounter) (index : Nat) (raw : GoString) :
    (finalResult rd met index raw).outcome ≠ .unset := by
  unfold finalResult
  cases hscope : inScope rd raw with
  | none =>
      rw [Option.elim_none, checkedResult, if_pos hscope]
      split_ifs
      · exact RediscoverOutcome.noConfusion
      · exact RediscoverOutcome.noConfusion
  | some ip =>
      rw [Option.elim_some, fillIn]
      split
      · simp
      · exact outcome_walkOne (met index) ip

/-- The outcome of every target is recorded once, when it is settled. -/
theorem recorded_acts (met : Nat → Encounter) (index : Nat) (raw : GoString) :
    (checkActs rd index raw ++
        (inScope rd raw).toList.flatMap (walkActs rd (met index) index)).filterMap
        (Act.recordedAt index) = [(finalResult rd met index raw).outcome] := by
  unfold checkActs finalResult
  cases hscope : inScope rd raw with
  | none => simp [Act.recordedAt]
  | some ip =>
      rw [if_neg (by simp), List.nil_append, Option.toList_some, List.flatMap_singleton,
        Option.elim_some, walkActs, fillIn]
      split
      · simp [List.filterMap_cons, Act.recordedAt]
      · simp [List.filterMap_cons, Act.recordedAt]

theorem walked_acts (met : Nat → Encounter) (index : Nat) (raw : GoString) :
    ((checkActs rd index raw ++
        (inScope rd raw).toList.flatMap (walkActs rd (met index) index)).filterMap
        (Act.walkedAt index)).Sublist (inScope rd raw).toList := by
  unfold checkActs
  cases hscope : inScope rd raw with
  | none => simp [Act.walkedAt]
  | some ip =>
      rw [if_neg (by simp), List.nil_append, Option.toList_some, List.flatMap_singleton, walkActs]
      split
      · simp [List.filterMap_cons, Act.walkedAt]
      · simp [List.filterMap_cons, Act.walkedAt]

/-! ## The mutex of the cycle -/

/-- How an act stands to the mutex: a device is walked by its holder only. -/
def Act.kind : Act → Mutex.Kind
  | .record _ _ => .free
  | .readContext _ _ => .free
  | .lock => .lock
  | .walkOne _ _ => .guarded
  | .unlock => .unlock

theorem disciplined_checkActs (index : Nat) (raw : GoString) :
    Mutex.Disciplined Act.kind false (checkActs rd index raw) := by
  unfold checkActs
  split_ifs
  · exact rfl
  · exact rfl

theorem disciplined_walkActs (met : Encounter) (index : Nat) (ip : Net.IP) :
    Mutex.Disciplined Act.kind false (walkActs rd met index ip) := by
  unfold walkActs
  split
  · exact rfl
  · exact ⟨rfl, rfl, rfl, rfl⟩

theorem disciplined_acts (met : Nat → Encounter) (targets : List GoString) :
    Mutex.Disciplined Act.kind false (rediscover rd met targets).acts := by
  rw [acts_rediscover]
  apply Mutex.Disciplined.append
  · exact Mutex.disciplined_flatMap fun target _ => disciplined_checkActs target.2 target.1
  · apply Mutex.disciplined_flatMap
    intro target _
    exact Mutex.disciplined_flatMap fun ip _ => disciplined_walkActs (met target.2) target.2 ip

theorem label_ne_nil (houtcome : outcome ≠ .unset) : outcome.label ≠ [] := by
  cases outcome with
  | unset => exact absurd rfl houtcome
  | success => decide
  | timeout => decide
  | authFailure => decide
  | outOfScope => decide
  | error => decide

end Targets

/-- A batch has one result for each target, in the order of the targets and with
an outcome. For every position that outcome is recorded once, and nothing else
is. A position is walked at most once, under the address that its target spells
and only if the allow-list has it, and the mutex of the cycle is held then. -/
theorem rediscover_accounts_for_targets (rd : Rediscoverer) (met : Nat → Encounter)
    (targets : List GoString) :
    (rediscover rd met targets).results.map RediscoverResult.target = targets ∧
      (∀ result ∈ (rediscover rd met targets).results, result.outcome.label ≠ []) ∧
      (∀ index, (rediscover rd met targets).acts.filterMap (Act.recordedAt index) =
        ((rediscover rd met targets).results[index]?.map RediscoverResult.outcome).toList) ∧
      (∀ index ip, .walkOne index ip ∈ (rediscover rd met targets).acts →
        ∃ raw, targets[index]? = some raw ∧ Net.parseIP raw = some ip ∧
          rd.cfg.allowedNets ≠ [] ∧ ipInNets ip rd.cfg.allowedNets = true) ∧
      (∀ index,
        ((rediscover rd met targets).acts.filterMap (Act.walkedAt index)).length ≤ 1) ∧
      Mutex.Disciplined Act.kind false (rediscover rd met targets).acts := by
  -- a position is walked if its target is in scope, and then no more than once
  have hsublist : ∀ index,
      ((rediscover rd met targets).acts.filterMap (Act.walkedAt index)).Sublist
        (targets[index]?.bind (inScope rd)).toList := by
    intro index
    rw [filterMap_acts (fun act ip => position_of_walkedAt)]
    cases targets[index]? with
    | none => exact List.Sublist.slnil
    | some raw => exact walked_acts met index raw
  refine ⟨?_, ?_, ?_, ?_, ?_, disciplined_acts met targets⟩
  · apply List.ext_getElem?
    intro index
    rw [results_rediscover, List.getElem?_map, List.getElem?_mapIdx]
    cases targets[index]? with
    | none => rfl
    | some raw => exact congrArg some (target_finalResult met index raw)
  · intro result hresult
    rw [results_rediscover] at hresult
    obtain ⟨index, hindex, rfl⟩ := List.mem_mapIdx.mp hresult
    exact label_ne_nil (outcome_finalResult met index _)
  · intro index
    rw [filterMap_acts (fun act outcome => position_of_recordedAt), results_rediscover,
      List.getElem?_mapIdx]
    cases targets[index]? with
    | none => rfl
    | some raw => exact recorded_acts met index raw
  · intro index ip hact
    have hmem : ip ∈ (rediscover rd met targets).acts.filterMap (Act.walkedAt index) :=
      List.mem_filterMap.mpr ⟨.walkOne index ip, hact, if_pos rfl⟩
    have hscope := (hsublist index).subset hmem
    rw [Option.mem_toList, Option.bind_eq_some_iff] at hscope
    obtain ⟨raw, hraw, hinside⟩ := hscope
    exact ⟨raw, hraw, inScope_eq_some.mp hinside⟩
  · intro index
    refine (hsublist index).length_le.trans ?_
    cases targets[index]?.bind (inScope rd) with
    | none => exact Nat.zero_le 1
    | some ip => exact Nat.le_refl 1

/-! ## Batches and regular cycles -/

/-- What a caller of the walkers does: a request of the operator goes through its
batch, the loop runs one cycle after the other. -/
inductive CallerAct where
  | batch (act : Act)
  | lockCycle
  | runCycle
  | unlockCycle

def CallerAct.kind : CallerAct → Mutex.Kind
  | .batch act => act.kind
  | .lockCycle => .lock
  | .runCycle => .guarded
  | .unlockCycle => .unlock

inductive IsCaller : List CallerAct → Prop where
  | request (rd : Rediscoverer) (met : Nat → Encounter) (targets : List GoString) :
      IsCaller ((rediscover rd met targets).acts.map .batch)
  | loop (cycles : Nat) :
      IsCaller ((List.range cycles).flatMap (fun _ => [.lockCycle, .runCycle, .unlockCycle]))

theorem disciplined_map_batch {held : Bool} {acts : List Act}
    (hacts : Mutex.Disciplined Act.kind held acts) :
    Mutex.Disciplined CallerAct.kind held (acts.map .batch) := by
  induction acts generalizing held with
  | nil => exact hacts
  | cons act rest ih =>
      cases act with
      | record _ _ => exact ih hacts
      | readContext _ _ => exact ih hacts
      | lock => exact ⟨hacts.1, ih hacts.2⟩
      | walkOne _ _ => exact ⟨hacts.1, ih hacts.2⟩
      | unlock => exact ⟨hacts.1, ih hacts.2⟩

theorem IsCaller.disciplined {acts : List CallerAct} (hcaller : IsCaller acts) :
    Mutex.Disciplined CallerAct.kind false acts := by
  cases hcaller with
  | request rd met targets => exact disciplined_map_batch (disciplined_acts met targets)
  | loop cycles => exact Mutex.disciplined_flatMap (fun _ _ => ⟨rfl, rfl, rfl, rfl⟩)

/-- The next act of the caller walks devices. -/
def AboutToWalk {Caller : Type} (state : Mutex.Shared Caller CallerAct) (caller : Caller) : Prop :=
  ∃ act rest, state.left caller = act :: rest ∧ act.kind = .guarded

/-- However requests and the loop are interleaved, whoever is about to walk devices
holds the mutex of the cycle, so no two of them are at the same time. -/
theorem walks_never_overlap {Caller : Type} [DecidableEq Caller] {left : Caller → List CallerAct}
    (hcallers : ∀ caller, IsCaller (left caller)) {order : List Caller}
    {state : Mutex.Shared Caller CallerAct}
    (hrun : Transition.run (Mutex.step CallerAct.kind) order ⟨none, left⟩ = some state) :
    (∀ caller, AboutToWalk state caller → state.holder = some caller) ∧
      ∀ first second, AboutToWalk state first → AboutToWalk state second → first = second := by
  have hholder : ∀ caller, AboutToWalk state caller → state.holder = some caller := by
    intro caller ⟨act, rest, hleft, hact⟩
    exact Mutex.holder_of_guarded (fun caller => (hcallers caller).disciplined) hrun hleft hact
  refine ⟨hholder, ?_⟩
  intro first second hfirst hsecond
  exact Option.some.inj ((hholder first hfirst).symm.trans (hholder second hsecond))

/-- A lab whose routers may be walked on request. -/
def labRediscoverer : Rediscoverer where
  cfg := { labConfig with allowedNets := [⟨[10, 0, 0, 0], [255, 0, 0, 0]⟩] }
  targets := []
  probing := Probing.officeProbe
  environment := Probing.officeEnvironment
  targetPortOverride := ∅

/-- A router that does not answer. -/
def labEncounter : Encounter where
  context := none
  resolver := ⟨∅, ∅, [], [], Credentials.Trials.newTokenBucket 10 Time.zero, ∅⟩
  memory := []
  attempts := fun _ => ⟨none, .error (.walk (str "timeout")), none⟩
  device := labRouter []
  triedAt := Time.zero
  recordedAt := Time.zero

/-- A request for one router, and beside it the loop with its next cycle. -/
def labCallers : Bool → List CallerAct
  | true => (rediscover labRediscoverer (fun _ => labEncounter) [str "10.0.0.1"]).acts.map .batch
  | false => (List.range 1).flatMap fun _ => [.lockCycle, .runCycle, .unlockCycle]

/-- The request has locked the mutex and is about to walk; the loop waits for it. -/
theorem request_walks_before_loop : ∃ state,
    Transition.run (Mutex.step CallerAct.kind) [true, true] ⟨none, labCallers⟩ = some state ∧
      AboutToWalk state true ∧ Mutex.step CallerAct.kind false state = none ∧
      (∀ caller, AboutToWalk state caller → state.holder = some caller) ∧
      ∀ first second, AboutToWalk state first → AboutToWalk state second → first = second := by
  have hcallers : ∀ caller, IsCaller (labCallers caller) := by
    intro caller
    cases caller with
    | true => exact .request labRediscoverer (fun _ => labEncounter) [str "10.0.0.1"]
    | false => exact .loop 1
  exact ⟨_, rfl, ⟨_, _, rfl, rfl⟩, rfl,
    @walks_never_overlap Bool _ _ hcallers [true, true] _ rfl⟩

end TopologyExporter.App.Rediscovery
