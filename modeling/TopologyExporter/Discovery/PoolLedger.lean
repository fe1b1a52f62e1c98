import TopologyExporter.Discovery.PoolHolders

/-! # Every session is closed

A session that was opened belongs to the pool's map, to a caller that closes it
on release, or it is closed. The owner changes when a session is filed, when it
loses the race for its key, and when its entry is deleted. The ledger adds to the
pool the sessions that were opened and closed so far.
-/

namespace TopologyExporter.Discovery.Pool

open Go Transition

/-- The sessions filed under the keys. -/
def SessionPool.sessionsAt (pool : SessionPool) (keys : List PoolKey) : List Session :=
  keys.filterMap (fun key => (pool.sessions.lookup key).map PoolEntry.session)

/-- The session that an action opens. -/
def opens (action : Action) (pool : SessionPool) : List Session :=
  match action with
  | .opened id _ =>
      match pool.checkouts.lookup id with
      | some (.opening params _) => [buildClient id params]
      | _ => []
  | _ => []

/-- The sessions that an action closes. -/
def closes (maxIdle : Duration) (action : Action) (pool : SessionPool) : List Session :=
  match action with
  | .opened id _ =>
      match pool.checkouts.lookup id with
      | some (.opening params true) =>
          if pool.closed then []
          else
            match pool.sessions.lookup params.key with
            -- another caller has filed a session meanwhile, which is handed out
            | some existing => if existing.inUse then [] else [buildClient id params]
            | none => []
      | _ => []
  | .release id connectionError _ =>
      match pool.checkouts.lookup id with
      | some (.holding params _ true) =>
          if connectionError then pool.sessionsAt [params.key] else []
      | some (.holding _ session false) => [session]
      | _ => []
  | .invalidateProfile name =>
      pool.sessionsAt (pool.keysWhere (fun key _ => key.profile = name))
  | .evict now =>
      if maxIdle ≤ 0 then []
      else
        let cutoff := now.add (-maxIdle)
        pool.sessionsAt
          (pool.keysWhere (fun _ entry => !entry.inUse && cutoff.after entry.lastUsed))
  | .close => if pool.closed then [] else pool.sessionsAt (pool.keysWhere (fun _ _ => true))
  | _ => []

structure Ledger where
  pool : SessionPool
  opened : List Session
  closed : List Session

def newLedger : Ledger := ⟨newSessionPool, [], []⟩

def ledgerStep (maxIdle : Duration) (action : Action) (ledger : Ledger) : Option Ledger :=
  (step maxIdle action ledger.pool).map (fun next =>
    { pool := next
      opened := ledger.opened ++ opens action ledger.pool
      closed := ledger.closed ++ closes maxIdle action ledger.pool })

/-! ## Owners -/

/-- The session is closed, filed, or with a caller that will close it. -/
def Owned (pool : SessionPool) (closed : List Session) (session : Session) : Prop :=
  session ∈ closed ∨ (∃ key entry, pool.sessions.lookup key = some entry ∧
    entry.session = session) ∨
    ∃ id params, pool.checkouts.lookup id = some (.holding params session false)

section Owners

variable {pool next : SessionPool} {closed : List Session} {session : Session}

theorem Owned.append (howned : Owned pool closed session) (more : List Session) :
    Owned pool (closed ++ more) session :=
  howned.imp_left (List.mem_append_left more)

theorem owned_of_closed {more : List Session} (hclosed : session ∈ more) :
    Owned pool (closed ++ more) session :=
  Or.inl (List.mem_append_right closed hclosed)

variable {id : CheckoutID} {entry : PoolEntry} {maxIdle : Duration}

/-- A caller moves on that did not have to close the session. -/
theorem Owned.setCheckout (howned : Owned pool closed session)
    (hid : ∀ params, pool.checkouts.lookup id ≠ some (.holding params session false))
    (checkout : Checkout) : Owned (pool.setCheckout id checkout) closed session := by
  rcases howned with hclosed | hfiled | ⟨other, params, hheld⟩
  · exact Or.inl hclosed
  · exact Or.inr (Or.inl hfiled)
  · refine Or.inr (Or.inr ⟨other, params, ?_⟩)
    have hother : other ≠ id := by
      intro hsame
      exact hid params (hsame ▸ hheld)
    rwa [lookup_setCheckout_ne hother]

variable {key : PoolKey} {params : SessionParams} {now : Time}

/-- An entry is written that has the session of the one before, if there was one. -/
theorem Owned.setEntry (howned : Owned pool closed session)
    (hkey : ∀ held, pool.sessions.lookup key = some held → held.session = entry.session) :
    Owned (pool.setEntry key entry) closed session := by
  rcases howned with hclosed | ⟨found, held, hheld, hsession⟩ | hheld
  · exact Or.inl hclosed
  · apply Or.inr
    apply Or.inl
    by_cases hsame : found = key
    · subst hsame
      exact ⟨found, entry, AList.lookup_insert _, (hkey held hheld).symm.trans hsession⟩
    · exact ⟨found, held, (AList.lookup_insert_ne hsame).trans hheld, hsession⟩
  · exact Or.inr (Or.inr hheld)

/-- Deleted entries have their sessions closed. -/
theorem Owned.delete (howned : Owned pool closed session) (keys : List PoolKey) :
    Owned (pool.delete keys) (closed ++ pool.sessionsAt keys) session := by
  rcases howned with hclosed | ⟨key, entry, hentry, hsession⟩ | hheld
  · exact Or.inl (List.mem_append_left _ hclosed)
  · by_cases hkey : key ∈ keys
    · apply owned_of_closed
      refine List.mem_filterMap.mpr ⟨key, hkey, ?_⟩
      rw [hentry, Option.map_some, hsession]
    · refine Or.inr (Or.inl ⟨key, entry, ?_, hsession⟩)
      rw [SessionPool.delete, Map.lookup_foldl_erase, if_neg hkey, hentry]
  · exact Or.inr (Or.inr hheld)

theorem Owned.checkOut (howned : Owned pool closed session)
    (hid : ∀ params, pool.checkouts.lookup id ≠ some (.holding params session false))
    (hentry : pool.sessions.lookup params.key = some entry) (now : Time) :
    Owned (pool.checkOut id params entry now) closed session := by
  refine Owned.setCheckout (howned.setEntry ?_) hid _
  intro held hheld
  rw [hentry] at hheld
  cases hheld
  rfl

theorem mem_keysWhere {condition : PoolKey → PoolEntry → Bool}
    (hentry : pool.sessions.lookup key = some entry) (hcondition : condition key entry = true) :
    key ∈ pool.keysWhere condition := by
  refine List.mem_map.mpr ⟨⟨key, entry⟩, ?_, rfl⟩
  exact List.mem_filter.mpr ⟨AList.mem_lookup_iff.mp hentry, hcondition⟩

/-! ## Steps -/

theorem Owned.acquire (howned : Owned pool closed session) (hnew : id ∉ pool.checkouts)
    (params : SessionParams) (now : Time) : Owned (pool.acquire id params now) closed session := by
  have hid : ∀ params, pool.checkouts.lookup id ≠ some (.holding params session false) := by
    intro held
    simp [AList.lookup_eq_none.mpr hnew]
  unfold SessionPool.acquire
  split_ifs
  · exact howned.setCheckout hid _
  · split
    · exact howned.setCheckout hid _
    next entry hentry =>
        split_ifs
        · exact howned.setCheckout hid _
        · exact howned.checkOut hid hentry now

/-- A session that has been opened is filed, handed to a caller that closes it, or
closed at once; nothing else changes its owner. -/
theorem Owned.storeOpened (hopening : pool.checkouts.lookup id = some (.opening params true))
    (now : Time) (howned : Owned pool closed session ∨ session = buildClient id params) :
    Owned (pool.storeOpened id params now) (closed ++ closes maxIdle (.opened id now) pool)
      session := by
  have hid : ∀ params, pool.checkouts.lookup id ≠ some (.holding params session false) := by
    intro held
    simp [hopening]
  simp only [closes, hopening]
  unfold SessionPool.storeOpened
  split_ifs with hclosed
  · rcases howned with hown | rfl
    · exact (hown.append _).setCheckout hid _
    · exact Or.inr (Or.inr ⟨id, params, SessionPool.lookup_setCheckout ..⟩)
  · cases hentry : pool.sessions.lookup params.key with
    | none =>
        simp only
        rcases howned with hown | rfl
        · refine Owned.setCheckout ((hown.append _).setEntry ?_) hid _
          intro held hheld
          rw [hentry] at hheld
          cases hheld
        · exact Or.inr (Or.inl ⟨params.key, _, AList.lookup_insert _, rfl⟩)
    | some existing =>
        simp only
        split_ifs with huse
        · rcases howned with hown | rfl
          · exact (hown.append _).setCheckout hid _
          · exact Or.inr (Or.inr ⟨id, params, SessionPool.lookup_setCheckout ..⟩)
        · rcases howned with hown | rfl
          · exact (hown.append _).checkOut hid hentry now
          · exact owned_of_closed (List.mem_singleton.mpr rfl)

theorem Owned.opened (hopened : pool.opened id now = some next)
    (howned : Owned pool closed session ∨ session ∈ opens (.opened id now) pool) :
    Owned next (closed ++ closes maxIdle (.opened id now) pool) session := by
  unfold SessionPool.opened at hopened
  split at hopened
  next params hopening =>
      cases hopened
      simp only [opens, hopening, List.mem_singleton] at howned
      exact Owned.storeOpened hopening now howned
  next params hopening =>
      cases hopened
      simp only [opens, hopening, List.mem_singleton] at howned
      rcases howned with hown | rfl
      · apply (hown.append _).setCheckout
        intro held
        simp [hopening]
      · exact Or.inr (Or.inr ⟨id, params, SessionPool.lookup_setCheckout ..⟩)
  · cases hopened

theorem Owned.release (howned : Owned pool closed session) {connectionError : Bool}
    (hrelease : pool.release id connectionError now = some next) :
    Owned next (closed ++ closes maxIdle (.release id connectionError now) pool) session := by
  unfold SessionPool.release at hrelease
  split at hrelease
  next params held hheld =>
      cases hrelease
      have hid : ∀ other : SessionPool, other.checkouts = pool.checkouts → ∀ params,
          other.checkouts.lookup id ≠ some (.holding params session false) := by
        intro other hother found
        simp [hother, hheld]
      simp only [closes, hheld]
      split_ifs
      · exact (howned.delete [params.key]).setCheckout (hid _ rfl) _
      · unfold SessionPool.returnKey
        split
        next entry hentry =>
            refine Owned.setCheckout ((howned.append _).setEntry ?_) (hid _ rfl) _
            intro found hfound
            rw [hentry] at hfound
            cases hfound
            rfl
        · exact (howned.append _).setCheckout (hid _ rfl) _
  next params held hheld =>
      cases hrelease
      simp only [closes, hheld]
      by_cases hsame : session = held
      · exact owned_of_closed (List.mem_singleton.mpr hsame)
      · apply (howned.append _).setCheckout
        intro found hfound
        rw [hheld] at hfound
        cases hfound
        exact hsame rfl
  · cases hrelease

theorem Owned.step {action : Action} (hstep : step maxIdle action pool = some next)
    (howned : Owned pool closed session ∨ session ∈ opens action pool) :
    Owned next (closed ++ closes maxIdle action pool) session := by
  cases action with
  | opened id now => exact Owned.opened hstep howned
  | acquire id params now =>
      have hown := howned.resolve_right List.not_mem_nil
      simp only [Pool.step] at hstep
      split_ifs at hstep with hnew
      cases hstep
      exact (hown.append _).acquire hnew params now
  | openFailed id =>
      have hown := howned.resolve_right List.not_mem_nil
      simp only [Pool.step, SessionPool.openFailed] at hstep
      split at hstep
      next hopening =>
          cases hstep
          apply (hown.append _).setCheckout
          intro held
          simp [hopening]
      · cases hstep
  | release id connectionError now => exact (howned.resolve_right List.not_mem_nil).release hstep
  | invalidateProfile name =>
      cases hstep
      exact (howned.resolve_right List.not_mem_nil).delete _
  | evict now =>
      have hown := howned.resolve_right List.not_mem_nil
      cases hstep
      simp only [closes, SessionPool.evict]
      split_ifs
      · exact hown.append _
      · exact hown.delete _
  | close =>
      have hown := howned.resolve_right List.not_mem_nil
      cases hstep
      simp only [closes, SessionPool.close]
      split_ifs
      · exact hown.append _
      -- what is filed is closed with the pool, what is held stays with its holder
      · rcases hown with hclosed | ⟨key, entry, hentry, hsession⟩ | hheld
        · exact Or.inl (List.mem_append_left _ hclosed)
        · apply owned_of_closed
          refine List.mem_filterMap.mpr ⟨key, mem_keysWhere hentry rfl, ?_⟩
          rw [hentry, Option.map_some, hsession]
        · exact Or.inr (Or.inr hheld)

end Owners

/-! ## A closed pool -/

/-- The pool is closed if it was before, and if it was, nothing is filed in it. -/
structure KeepsClosed (pool next : SessionPool) : Prop where
  closed : next.closed = pool.closed
  empty : pool.closed = true → pool.sessions = ∅ → next.sessions = ∅

section Closed

variable {pool next : SessionPool} {id : CheckoutID} {now : Time}

theorem KeepsClosed.rfl : KeepsClosed pool pool := ⟨Eq.refl _, fun _ hempty => hempty⟩

theorem keepsClosed_setCheckout (checkout : Checkout) :
    KeepsClosed pool (pool.setCheckout id checkout) :=
  ⟨rfl, fun _ hempty => hempty⟩

theorem keepsClosed_delete (keys : List PoolKey) : KeepsClosed pool (pool.delete keys) := by
  refine ⟨rfl, fun _ hempty => ?_⟩
  rw [SessionPool.delete, hempty]
  induction keys with
  | nil => rfl
  | cons key rest ih => exact ih

theorem keepsClosed_of_open (hopen : ¬pool.closed = true) (hsame : next.closed = pool.closed) :
    KeepsClosed pool next :=
  ⟨hsame, fun hclosed => absurd hclosed hopen⟩

theorem keepsClosed_acquire (params : SessionParams) :
    KeepsClosed pool (pool.acquire id params now) := by
  unfold SessionPool.acquire
  split_ifs with hclosed
  · exact keepsClosed_setCheckout _
  · apply keepsClosed_of_open hclosed
    split
    · rfl
    · split_ifs <;> rfl

theorem keepsClosed_opened (hopened : pool.opened id now = some next) : KeepsClosed pool next := by
  unfold SessionPool.opened SessionPool.storeOpened at hopened
  split at hopened
  · cases hopened
    split_ifs with hclosed
    · exact keepsClosed_setCheckout _
    · apply keepsClosed_of_open hclosed
      split
      · split_ifs <;> rfl
      · rfl
  · cases hopened
    exact keepsClosed_setCheckout _
  · cases hopened

theorem keepsClosed_release {connectionError : Bool}
    (hrelease : pool.release id connectionError now = some next) : KeepsClosed pool next := by
  unfold SessionPool.release at hrelease
  split at hrelease
  · cases hrelease
    split_ifs
    · exact ⟨rfl, (keepsClosed_delete _).empty⟩
    · unfold SessionPool.returnKey
      split
      next entry hentry =>
          -- a closed pool has no entry to be returned
          refine ⟨rfl, fun _ hempty => ?_⟩
          rw [hempty, AList.lookup_empty] at hentry
          cases hentry
      · exact keepsClosed_setCheckout _
  · cases hrelease
    exact keepsClosed_setCheckout _
  · cases hrelease

/-- Only closing closes a pool, and no step files a session in a closed one. -/
theorem step_closed {maxIdle : Duration} {action : Action}
    (hstep : step maxIdle action pool = some next) :
    KeepsClosed pool next ∨ (next.closed = true ∧ next.sessions = ∅) := by
  cases action with
  | acquire id params now =>
      simp only [step] at hstep
      split_ifs at hstep
      cases hstep
      exact Or.inl (keepsClosed_acquire params)
  | opened id now => exact Or.inl (keepsClosed_opened hstep)
  | openFailed id =>
      simp only [step, SessionPool.openFailed] at hstep
      split at hstep
      · cases hstep
        exact Or.inl (keepsClosed_setCheckout _)
      · cases hstep
  | release id connectionError now => exact Or.inl (keepsClosed_release hstep)
  | invalidateProfile name =>
      cases hstep
      exact Or.inl (keepsClosed_delete _)
  | evict now =>
      cases hstep
      apply Or.inl
      unfold SessionPool.evict
      split_ifs
      · exact KeepsClosed.rfl
      · exact keepsClosed_delete _
  | close =>
      cases hstep
      unfold SessionPool.close
      split_ifs
      · exact Or.inl KeepsClosed.rfl
      · exact Or.inr ⟨rfl, rfl⟩

end Closed

/-- Every session that was opened has an owner, and a closed pool has none. -/
structure Balanced (ledger : Ledger) : Prop where
  owned : ∀ session ∈ ledger.opened, Owned ledger.pool ledger.closed session
  empty : ledger.pool.closed = true → ledger.pool.sessions = ∅

theorem balanced_newLedger : Balanced newLedger :=
  ⟨fun _ hsession => absurd hsession List.not_mem_nil, fun hclosed => by cases hclosed⟩

variable {ledger : Ledger} {maxIdle : Duration}

theorem Balanced.ledgerStep {action : Action} {next : Ledger} (hbalanced : Balanced ledger)
    (hstep : ledgerStep maxIdle action ledger = some next) : Balanced next := by
  obtain ⟨pool, hpool, rfl⟩ := Option.map_eq_some_iff.mp hstep
  constructor
  · intro session hsession
    apply Owned.step hpool
    exact (List.mem_append.mp hsession).imp_left (hbalanced.owned session)
  · intro hclosed
    rcases step_closed hpool with hkeeps | ⟨-, hempty⟩
    · rw [hkeeps.closed] at hclosed
      exact hkeeps.empty hclosed (hbalanced.empty hclosed)
    · exact hempty

theorem closed_of_close_mem {actions : List Action}
    (hrun : run (ledgerStep maxIdle) actions newLedger = some ledger)
    (hclose : Action.close ∈ actions) : ledger.pool.closed = true := by
  refine @run_establishes _ _ _ (fun ledger : Ledger => ledger.pool.closed = true) _ ?_ ?_ _
    hclose _ _ hrun
  · intro state next hstep
    obtain ⟨pool, hpool, rfl⟩ := Option.map_eq_some_iff.mp hstep
    cases hpool
    unfold SessionPool.close
    split_ifs with hclosed
    · exact hclosed
    · rfl
  · intro action state next hclosed hstep
    obtain ⟨pool, hpool, rfl⟩ := Option.map_eq_some_iff.mp hstep
    rcases step_closed hpool with hkeeps | ⟨hclosed', -⟩
    · exact hkeeps.closed.trans hclosed
    · exact hclosed'

/-- The caller has given its session back, or never got one. -/
def Checkout.Done (checkout : Checkout) : Prop := checkout = .failed ∨ checkout = .released

instance decidableDone (checkout : Checkout) : Decidable checkout.Done :=
  inferInstanceAs (Decidable (_ ∨ _))

/-- Whatever the interleaving: when the pool was closed and every caller is done,
all sessions that were ever opened are closed, and the pool is empty. -/
theorem closed_pool_leaks_nothing {maxIdle : Duration} {actions : List Action} {ledger : Ledger}
    (hrun : run (ledgerStep maxIdle) actions newLedger = some ledger)
    (hclose : Action.close ∈ actions)
    (hdone : ∀ id checkout, ledger.pool.checkouts.lookup id = some checkout → checkout.Done) :
    (∀ session ∈ ledger.opened, session ∈ ledger.closed) ∧ ledger.pool.sessions = ∅ := by
  have hbalanced : Balanced ledger := run_invariant
    (fun _ _ _ hbalanced hstep => hbalanced.ledgerStep hstep) balanced_newLedger hrun
  have hempty := hbalanced.empty (closed_of_close_mem hrun hclose)
  refine ⟨?_, hempty⟩
  intro session hsession
  rcases hbalanced.owned session hsession with
    hclosed | ⟨key, entry, hentry, -⟩ | ⟨id, params, hheld⟩
  · exact hclosed
  · rw [hempty, AList.lookup_empty] at hentry
    cases hentry
  · rcases hdone id _ hheld with hfailed | hreleased
    · cases hfailed
    · cases hreleased

/-- Two callers open sessions for one key. One of them comes second, and the
pool is closed while a third one is still opening its session. -/
def shutdownRace : List Action :=
  [.acquire 1 (labParams 1 161) Time.zero, .acquire 2 (labParams 1 161) Time.zero,
    .opened 1 Time.zero, .release 1 false Time.zero, .opened 2 Time.zero,
    .acquire 3 (labParams 2 161) Time.zero, .close, .opened 3 Time.zero,
    .release 3 false Time.zero, .release 2 false Time.zero]

/-- All three sessions are closed. -/
theorem shutdownRace_closes_all :
    ∃ ledger, run (ledgerStep 0) shutdownRace newLedger = some ledger ∧
      ledger.opened.length = 3 ∧ ∀ session ∈ ledger.opened, session ∈ ledger.closed := by
  have hrun : ((run (ledgerStep 0) shutdownRace newLedger).map fun ledger =>
      (ledger.opened.length, ledger.pool.checkouts.entries.all (fun entry =>
        decide entry.2.Done))) = some (3, true) := by
    decide
  obtain ⟨ledger, hledger, hresult⟩ := Option.map_eq_some_iff.mp hrun
  obtain ⟨hlength, hdone⟩ := Prod.mk.inj hresult
  refine ⟨ledger, hledger, hlength, (closed_pool_leaks_nothing hledger (by simp [shutdownRace])
    ?_).1⟩
  intro id checkout hcheckout
  exact of_decide_eq_true
    (List.all_eq_true.mp hdone ⟨id, checkout⟩ (AList.mem_lookup_iff.mp hcheckout))

end TopologyExporter.Discovery.Pool
