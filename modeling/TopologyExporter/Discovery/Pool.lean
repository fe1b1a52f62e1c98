import TopologyExporter.Config.Targets
import TopologyExporter.Foundation.Transition
import TopologyExporter.GoLib.Time

/-! # The session pool

Walks of one target share a session. The pool files a session under the address
it was opened to and the credential profile, but not under the port. Opening
takes place outside the lock, so the pool is looked at twice by an acquire that
does not find a session.
-/

namespace TopologyExporter.Discovery.Pool

open Go Transition

abbrev CheckoutID := Nat

/-- The parameters of a walk that decide on its session. -/
structure SessionParams where
  ip : Net.IP
  port : Nat
  credentialProfile : GoString
deriving DecidableEq

structure PoolKey where
  ip : GoString
  profile : GoString
deriving DecidableEq

/-- A session: the acquire that opened it, which tells sessions apart, and where
it was opened to. -/
structure Session where
  opener : CheckoutID
  target : GoString
  port : Nat
deriving DecidableEq

structure PoolEntry where
  session : Session
  lastUsed : Time
  inUse : Bool
deriving DecidableEq

def SessionParams.key (params : SessionParams) : PoolKey :=
  ⟨Net.ipString params.ip, params.credentialProfile⟩

def buildClient (opener : CheckoutID) (params : SessionParams) : Session :=
  ⟨opener, Net.ipString params.ip, if params.port = 0 then 161 else params.port⟩

/-- How far a caller of acquire is. A session that is not pooled is closed when
it is released. -/
inductive Checkout where
  | opening (params : SessionParams) (pooling : Bool)
  | holding (params : SessionParams) (session : Session) (pooled : Bool)
  | failed
  | released
deriving DecidableEq

structure SessionPool where
  sessions : Map PoolKey PoolEntry
  closed : Bool
  checkouts : Map CheckoutID Checkout
deriving DecidableEq

def newSessionPool : SessionPool := ⟨∅, false, ∅⟩

namespace SessionPool

def setCheckout (pool : SessionPool) (id : CheckoutID) (checkout : Checkout) : SessionPool :=
  { pool with checkouts := pool.checkouts.insert id checkout }

def setEntry (pool : SessionPool) (key : PoolKey) (entry : PoolEntry) : SessionPool :=
  { pool with sessions := pool.sessions.insert key entry }

def delete (pool : SessionPool) (keys : List PoolKey) : SessionPool :=
  { pool with sessions := keys.foldl (fun sessions key => sessions.erase key) pool.sessions }

/-- The keys of the entries that meet a condition. -/
def keysWhere (pool : SessionPool) (condition : PoolKey → PoolEntry → Bool) : List PoolKey :=
  (pool.sessions.entries.filter (fun entry => condition entry.1 entry.2)).map Sigma.fst

/-- An idle session is handed out. -/
def checkOut (pool : SessionPool) (id : CheckoutID) (params : SessionParams) (entry : PoolEntry)
    (now : Time) : SessionPool :=
  (pool.setEntry params.key { entry with lastUsed := now, inUse := true }).setCheckout id
    (.holding params entry.session true)

@[simp] theorem lookup_setCheckout (pool : SessionPool) (id : CheckoutID) (checkout : Checkout) :
    (pool.setCheckout id checkout).checkouts.lookup id = some checkout :=
  AList.lookup_insert _

/-! ## Acquire and release -/

/-- Under the lock, before a session is opened. -/
def acquire (pool : SessionPool) (id : CheckoutID) (params : SessionParams) (now : Time) :
    SessionPool :=
  if pool.closed then pool.setCheckout id (.opening params false)
  else
    match pool.sessions.lookup params.key with
    | none => pool.setCheckout id (.opening params true)
    | some entry =>
        if entry.inUse then pool.setCheckout id (.opening params false)
        else pool.checkOut id params entry now

/-- Under the lock again, with the session that was opened. -/
def storeOpened (pool : SessionPool) (id : CheckoutID) (params : SessionParams) (now : Time) :
    SessionPool :=
  if pool.closed then pool.setCheckout id (.holding params (buildClient id params) false)
  else
    match pool.sessions.lookup params.key with
    | some existing =>
        if existing.inUse then pool.setCheckout id (.holding params (buildClient id params) false)
        else pool.checkOut id params existing now
    | none => (pool.setEntry params.key ⟨buildClient id params, now, true⟩).setCheckout id
        (.holding params (buildClient id params) true)

def opened (pool : SessionPool) (id : CheckoutID) (now : Time) : Option SessionPool :=
  match pool.checkouts.lookup id with
  | some (.opening params true) => some (pool.storeOpened id params now)
  | some (.opening params false) =>
      some (pool.setCheckout id (.holding params (buildClient id params) false))
  | _ => none

def openFailed (pool : SessionPool) (id : CheckoutID) : Option SessionPool :=
  match pool.checkouts.lookup id with
  | some (.opening _ _) => some (pool.setCheckout id .failed)
  | _ => none

def returnKey (pool : SessionPool) (key : PoolKey) (now : Time) : SessionPool :=
  match pool.sessions.lookup key with
  | some entry => pool.setEntry key { entry with lastUsed := now, inUse := false }
  | none => pool

def evictKey (pool : SessionPool) (key : PoolKey) : SessionPool := pool.delete [key]

def release (pool : SessionPool) (id : CheckoutID) (connectionError : Bool) (now : Time) :
    Option SessionPool :=
  match pool.checkouts.lookup id with
  | some (.holding params _ true) =>
      let next :=
        if connectionError then pool.evictKey params.key else pool.returnKey params.key now
      some (next.setCheckout id .released)
  | some (.holding _ _ false) => some (pool.setCheckout id .released)
  | _ => none

/-! ## Evictions -/

def invalidateProfile (pool : SessionPool) (name : GoString) : SessionPool :=
  pool.delete (pool.keysWhere (fun key _ => key.profile = name))

/-- Sessions that were not used for longer than `maxIdle` go, unless they are in
use. -/
def evict (pool : SessionPool) (maxIdle : Duration) (now : Time) : SessionPool :=
  if maxIdle ≤ 0 then pool
  else
    let cutoff := now.add (-maxIdle)
    pool.delete (pool.keysWhere (fun _ entry => !entry.inUse && cutoff.after entry.lastUsed))

def close (pool : SessionPool) : SessionPool :=
  if pool.closed then pool else { pool with sessions := ∅, closed := true }

end SessionPool

/-! ## The transition function -/

inductive Action where
  | acquire (id : CheckoutID) (params : SessionParams) (now : Time)
  | opened (id : CheckoutID) (now : Time)
  | openFailed (id : CheckoutID)
  | release (id : CheckoutID) (connectionError : Bool) (now : Time)
  | invalidateProfile (name : GoString)
  | evict (now : Time)
  | close

def step (maxIdle : Duration) (action : Action) (pool : SessionPool) : Option SessionPool :=
  match action with
  | .acquire id params now =>
      if id ∈ pool.checkouts then none else some (pool.acquire id params now)
  | .opened id now => pool.opened id now
  | .openFailed id => pool.openFailed id
  | .release id connectionError now => pool.release id connectionError now
  | .invalidateProfile name => some (pool.invalidateProfile name)
  | .evict now => some (pool.evict maxIdle now)
  | .close => some pool.close

/-! ## Where sessions come from -/

section Provenance

variable {used : Set SessionParams} {pool next : SessionPool}

/-- The session was opened for parameters with the given key. -/
def OpenedFor (used : Set SessionParams) (key : PoolKey) (session : Session) : Prop :=
  ∃ params ∈ used, params.key = key ∧ ∃ opener, session = buildClient opener params

def Checkout.Sound (used : Set SessionParams) : Checkout → Prop
  | .opening params _ => params ∈ used
  | .holding params session _ => params ∈ used ∧ OpenedFor used params.key session
  | _ => True

/-- Every session was opened for some of the parameters that were used, with the
key that it is filed or asked for under. -/
structure Sound (used : Set SessionParams) (pool : SessionPool) : Prop where
  sessions : ∀ key entry, pool.sessions.lookup key = some entry →
    OpenedFor used key entry.session
  checkouts : ∀ id checkout, pool.checkouts.lookup id = some checkout → checkout.Sound used

theorem Sound.setCheckout (hsound : Sound used pool) (id : CheckoutID) {checkout : Checkout}
    (hcheckout : checkout.Sound used) : Sound used (pool.setCheckout id checkout) := by
  refine ⟨hsound.sessions, ?_⟩
  intro found held hheld
  by_cases hsame : found = id
  · subst hsame
    rw [SessionPool.setCheckout, AList.lookup_insert] at hheld
    cases hheld
    exact hcheckout
  · rw [SessionPool.setCheckout, AList.lookup_insert_ne hsame] at hheld
    exact hsound.checkouts found held hheld

variable {entry : PoolEntry} {id : CheckoutID} {now : Time} {maxIdle : Duration}

theorem Sound.setEntry (hsound : Sound used pool) (key : PoolKey)
    (hentry : OpenedFor used key entry.session) : Sound used (pool.setEntry key entry) := by
  refine ⟨?_, hsound.checkouts⟩
  intro found held hheld
  by_cases hsame : found = key
  · subst hsame
    rw [SessionPool.setEntry, AList.lookup_insert] at hheld
    cases hheld
    exact hentry
  · rw [SessionPool.setEntry, AList.lookup_insert_ne hsame] at hheld
    exact hsound.sessions found held hheld

theorem Sound.delete (hsound : Sound used pool) (keys : List PoolKey) :
    Sound used (pool.delete keys) := by
  refine ⟨?_, hsound.checkouts⟩
  intro found held hheld
  rw [SessionPool.delete, Map.lookup_foldl_erase] at hheld
  split_ifs at hheld
  exact hsound.sessions found held hheld

variable {params : SessionParams}

/-- An entry that is handed out keeps the session it has. -/
theorem Sound.checkOut (hsound : Sound used pool) (id : CheckoutID) (hparams : params ∈ used)
    (now : Time) (hentry : pool.sessions.lookup params.key = some entry) :
    Sound used (pool.checkOut id params entry now) := by
  have hopened := hsound.sessions params.key entry hentry
  apply Sound.setCheckout
  · exact hsound.setEntry params.key hopened
  · exact ⟨hparams, hopened⟩

theorem openedFor_buildClient (opener : CheckoutID) (hparams : params ∈ used) :
    OpenedFor used params.key (buildClient opener params) :=
  ⟨params, hparams, rfl, opener, rfl⟩

theorem Sound.acquire (hsound : Sound used pool) (id : CheckoutID) (hparams : params ∈ used)
    (now : Time) : Sound used (pool.acquire id params now) := by
  unfold SessionPool.acquire
  split_ifs
  · exact hsound.setCheckout id hparams
  · split
    · exact hsound.setCheckout id hparams
    next entry hentry =>
        split_ifs
        · exact hsound.setCheckout id hparams
        · exact hsound.checkOut id hparams now hentry

theorem Sound.storeOpened (hsound : Sound used pool) (id : CheckoutID) (hparams : params ∈ used)
    (now : Time) : Sound used (pool.storeOpened id params now) := by
  have hopened := openedFor_buildClient id hparams
  unfold SessionPool.storeOpened
  split_ifs
  · exact hsound.setCheckout id ⟨hparams, hopened⟩
  · split
    next entry hentry =>
        split_ifs
        · exact hsound.setCheckout id ⟨hparams, hopened⟩
        · exact hsound.checkOut id hparams now hentry
    · exact (hsound.setEntry params.key hopened).setCheckout id ⟨hparams, hopened⟩

theorem Sound.opened (hsound : Sound used pool) (hopened : pool.opened id now = some next) :
    Sound used next := by
  unfold SessionPool.opened at hopened
  split at hopened
  next params hcheckout =>
      cases hopened
      exact hsound.storeOpened id (hsound.checkouts id _ hcheckout) now
  next params hcheckout =>
      cases hopened
      have hparams : params ∈ used := hsound.checkouts id _ hcheckout
      exact hsound.setCheckout id ⟨hparams, openedFor_buildClient id hparams⟩
  · cases hopened

theorem Sound.returnKey (hsound : Sound used pool) (key : PoolKey) (now : Time) :
    Sound used (pool.returnKey key now) := by
  unfold SessionPool.returnKey
  split
  next entry hentry => exact hsound.setEntry key (hsound.sessions key entry hentry)
  · exact hsound

theorem Sound.release (hsound : Sound used pool) {connectionError : Bool}
    (hrelease : pool.release id connectionError now = some next) : Sound used next := by
  unfold SessionPool.release at hrelease
  split at hrelease
  next params session hcheckout =>
      cases hrelease
      apply Sound.setCheckout
      · split_ifs
        · exact hsound.delete [params.key]
        · exact hsound.returnKey params.key now
      · trivial
  · cases hrelease
    exact hsound.setCheckout id trivial
  · cases hrelease

/-- The parameters an action brings in. -/
def Action.Uses (used : Set SessionParams) : Action → Prop
  | .acquire _ params _ => params ∈ used
  | _ => True

theorem Sound.step {action : Action} (hsound : Sound used pool) (huses : action.Uses used)
    (hstep : step maxIdle action pool = some next) : Sound used next := by
  cases action with
  | acquire id params now =>
      simp only [Pool.step] at hstep
      split_ifs at hstep
      cases hstep
      exact hsound.acquire id huses now
  | opened id now => exact hsound.opened hstep
  | openFailed id =>
      simp only [Pool.step, SessionPool.openFailed] at hstep
      split at hstep
      · cases hstep
        exact hsound.setCheckout id trivial
      · cases hstep
  | release id connectionError now => exact hsound.release hstep
  | invalidateProfile name =>
      cases hstep
      exact hsound.delete _
  | evict now =>
      cases hstep
      unfold SessionPool.evict
      split_ifs
      · exact hsound
      · exact hsound.delete _
  | close =>
      cases hstep
      unfold SessionPool.close
      split_ifs
      · exact hsound
      · exact ⟨fun key entry hentry => (by cases hentry), hsound.checkouts⟩

theorem sound_newSessionPool : Sound used newSessionPool :=
  ⟨fun _ _ hentry => (by cases hentry), fun _ _ hcheckout => (by cases hcheckout)⟩

theorem run_sound {actions : List Action} (huses : ∀ action ∈ actions, action.Uses used)
    (hrun : run (step maxIdle) actions newSessionPool = some pool) : Sound used pool :=
  run_invariant_throughout (fun _ _ _ huses hsound hstep => hsound.step huses hstep)
    sound_newSessionPool (throughout_of_forall_mem (fun action hmem _ => huses action hmem) _) hrun

end Provenance

/-! ## The right agent -/

/-- The parameters for a walk of one of the targets, at an address it resolves
to. The port is converted to 16 bits. -/
def BuiltFor (targets : List Config.Target) (params : SessionParams) : Prop :=
  ∃ target ∈ targets, ∃ lookupHost, target.address lookupHost = some params.ip ∧
    params.port = target.port.toNat % 65536

/-- Every session in use was opened to the address and port asked for. -/
def RightAgent (pool : SessionPool) : Prop :=
  ∀ id params session pooled, pool.checkouts.lookup id = some (.holding params session pooled) →
    session.target = Net.ipString params.ip ∧
      session.port = if params.port = 0 then 161 else params.port

/-- No two parameters with the same key differ in the port. -/
def OnePortPerKey (used : Set SessionParams) : Prop :=
  ∀ first ∈ used, ∀ second ∈ used, first.key = second.key → first.port = second.port

theorem BuiltFor.port_ne {targets : List Config.Target}
    (hvalid : Config.validateTargets targets = none)
    {params : SessionParams} (hbuilt : BuiltFor targets params) : params.port ≠ 0 := by
  obtain ⟨target, htarget, -, -, hport⟩ := hbuilt
  have htarget := (Config.validateTargets_eq_none.mp hvalid).1 target htarget
  have hlow := htarget.port_pos
  have hhigh := htarget.port_le
  omega

theorem Sound.rightAgent {used : Set SessionParams} {pool : SessionPool} (hsound : Sound used pool)
    (hport : OnePortPerKey used) : RightAgent pool := by
  intro id params session pooled hcheckout
  obtain ⟨hparams, opener, hopener, hkey, -, rfl⟩ := hsound.checkouts id _ hcheckout
  refine ⟨congrArg PoolKey.ip hkey, ?_⟩
  rw [buildClient, hport opener hopener params hparams hkey]

/-- A session is opened and released, and asked for again. -/
def reuse (first second : SessionParams) : List Action :=
  [.acquire 1 first Time.zero, .opened 1 Time.zero, .release 1 false Time.zero,
    .acquire 2 second Time.zero]

/-- With the same key the second caller gets the session of the first. -/
theorem run_reuse (maxIdle : Duration) {first second : SessionParams}
    (hkey : first.key = second.key) :
    ∃ pool, run (step maxIdle) (reuse first second) newSessionPool = some pool ∧
      pool.checkouts.lookup 2 = some (.holding second (buildClient 1 first) true) := by
  let opening := newSessionPool.setCheckout 1 (.opening first true)
  let stored := (opening.setEntry first.key ⟨buildClient 1 first, Time.zero, true⟩).setCheckout 1
    (.holding first (buildClient 1 first) true)
  let idle := (stored.setEntry first.key ⟨buildClient 1 first, Time.zero, false⟩).setCheckout 1
    .released
  have hopened : opening.opened 1 Time.zero = some stored := by
    rw [SessionPool.opened, SessionPool.lookup_setCheckout]
    rfl
  have hreleased : stored.release 1 false Time.zero = some idle := by
    rw [SessionPool.release, SessionPool.lookup_setCheckout]
    have hentry : stored.sessions.lookup first.key = some ⟨buildClient 1 first, Time.zero, true⟩ :=
      AList.lookup_insert _
    simp only [SessionPool.returnKey, hentry]
    rfl
  have hidle : idle.sessions.lookup second.key = some ⟨buildClient 1 first, Time.zero, false⟩ := by
    rw [← hkey]
    exact AList.lookup_insert _
  have hagain : idle.acquire 2 second Time.zero =
      idle.checkOut 2 second ⟨buildClient 1 first, Time.zero, false⟩ Time.zero := by
    have hopen : idle.closed = false := rfl
    simp only [SessionPool.acquire, hopen, hidle]
    rfl
  have hnew : 2 ∉ idle.checkouts := by
    simp only [idle, stored, opening, SessionPool.setCheckout, SessionPool.setEntry,
      AList.mem_insert]
    decide
  refine ⟨idle.checkOut 2 second ⟨buildClient 1 first, Time.zero, false⟩ Time.zero, ?_,
    SessionPool.lookup_setCheckout ..⟩
  apply run_cons_eq_some.mpr
  refine ⟨opening, rfl, run_cons_eq_some.mpr ⟨stored, hopened, ?_⟩⟩
  refine run_cons_eq_some.mpr ⟨idle, hreleased, run_cons_eq_some.mpr ⟨_, ?_, rfl⟩⟩
  simp only [step, if_neg hnew, hagain]

/-- Whatever the interleaving, callers with parameters for the configured targets
get sessions to the right agent exactly if no two of the parameters have the same
address and profile but different ports. -/
theorem sessions_reach_right_agent_iff (maxIdle : Duration) (targets : List Config.Target)
    (hvalid : Config.validateTargets targets = none) (used : Set SessionParams)
    (hbuilt : ∀ params ∈ used, BuiltFor targets params) :
    (∀ actions pool, (∀ action ∈ actions, action.Uses used) →
      run (step maxIdle) actions newSessionPool = some pool → RightAgent pool) ↔
      OnePortPerKey used := by
  constructor
  · intro hright first hfirst second hsecond hkey
    obtain ⟨pool, hrun, hheld⟩ := run_reuse maxIdle hkey
    have huses : ∀ action ∈ reuse first second, action.Uses used := by
      simp [reuse, Action.Uses, hfirst, hsecond]
    have hport := (hright _ pool huses hrun 2 second _ true hheld).2
    rw [buildClient, if_neg ((hbuilt first hfirst).port_ne hvalid),
      if_neg ((hbuilt second hsecond).port_ne hvalid)] at hport
    exact hport
  · intro hport actions pool huses hrun
    exact (run_sound huses hrun).rightAgent hport

/-- Two agents on one host, or on two hosts. -/
def twoTargets (host : GoString) : List Config.Target :=
  [⟨str "10.0.0.1", 161, [], ∅⟩, ⟨host, 1161, [], ∅⟩]

def labParams (last : UInt8) (port : Nat) : SessionParams :=
  ⟨[0, 0, 0, 0, 0, 0, 0, 0, 0, 0, 0xFF, 0xFF, 10, 0, 0, last], port, str "public"⟩

theorem builtFor_twoTargets {host : GoString} {last : UInt8}
    (hparse : Net.parseIP host = some (labParams last 1161).ip) :
    ∀ params ∈ ({labParams 1 161, labParams last 1161} : Set SessionParams),
      BuiltFor (twoTargets host) params := by
  rintro params (rfl | rfl)
  · exact ⟨⟨str "10.0.0.1", 161, [], ∅⟩, by simp [twoTargets], none, by decide +kernel, rfl⟩
  · refine ⟨⟨host, 1161, [], ∅⟩, by simp [twoTargets], none, ?_, rfl⟩
    simp only [Config.Target.address, hparse]

theorem onePortPerKey_twoHosts :
    OnePortPerKey ({labParams 1 161, labParams 2 1161} : Set SessionParams) := by
  have hdistinct : (labParams 1 161).key ≠ (labParams 2 1161).key := by decide +kernel
  rintro first (rfl | rfl) second (rfl | rfl) hkey
  · rfl
  · exact absurd hkey hdistinct
  · exact absurd hkey.symm hdistinct
  · rfl

theorem two_hosts_right_agent :
    Config.validateTargets (twoTargets (str "10.0.0.2")) = none ∧
      ∃ pool, run (step 0) (reuse (labParams 1 161) (labParams 2 1161) ++ [.opened 2 Time.zero])
          newSessionPool = some pool ∧
        pool.checkouts.lookup 2 =
          some (.holding (labParams 2 1161) ⟨2, str "10.0.0.2", 1161⟩ true) ∧ RightAgent pool := by
  have hvalid : Config.validateTargets (twoTargets (str "10.0.0.2")) = none := by decide +kernel
  have hrun : ((run (step 0) (reuse (labParams 1 161) (labParams 2 1161) ++ [.opened 2 Time.zero])
      newSessionPool).map fun pool => pool.checkouts.lookup 2) =
      some (some (.holding (labParams 2 1161) ⟨2, str "10.0.0.2", 1161⟩ true)) := by
    decide +kernel
  obtain ⟨pool, hpool, hheld⟩ := Option.map_eq_some_iff.mp hrun
  refine ⟨hvalid, pool, hpool, hheld, ?_⟩
  refine (sessions_reach_right_agent_iff 0 _ hvalid _ (builtFor_twoTargets (by decide +kernel))).mpr
    onePortPerKey_twoHosts _ pool ?_ hpool
  simp [reuse, Action.Uses]

/-- Two agents behind one address: the walk of the second target reads the tables
of the first agent. -/
theorem one_host_wrong_agent :
    Config.validateTargets (twoTargets (str "10.0.0.1")) = none ∧
      (∀ params ∈ ({labParams 1 161, labParams 1 1161} : Set SessionParams),
        BuiltFor (twoTargets (str "10.0.0.1")) params) ∧
      ∃ pool, run (step 0) (reuse (labParams 1 161) (labParams 1 1161)) newSessionPool =
          some pool ∧
        pool.checkouts.lookup 2 =
          some (.holding (labParams 1 1161) ⟨1, str "10.0.0.1", 161⟩ true) ∧ ¬ RightAgent pool := by
  refine ⟨by decide +kernel, builtFor_twoTargets (by decide +kernel), ?_⟩
  have hrun : ((run (step 0) (reuse (labParams 1 161) (labParams 1 1161)) newSessionPool).map
      fun pool => pool.checkouts.lookup 2) =
      some (some (.holding (labParams 1 1161) ⟨1, str "10.0.0.1", 161⟩ true)) := by
    decide +kernel
  obtain ⟨pool, hpool, hheld⟩ := Option.map_eq_some_iff.mp hrun
  refine ⟨pool, hpool, hheld, ?_⟩
  intro hright
  have hport := (hright 2 _ _ true hheld).2
  revert hport
  decide

end TopologyExporter.Discovery.Pool
