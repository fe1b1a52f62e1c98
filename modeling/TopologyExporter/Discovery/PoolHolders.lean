import TopologyExporter.Discovery.Pool

/-! # Who holds a session

A session is released by its key, not by itself. As long as no session is filed
under a key while a caller still holds one that was handed out under it, what a
release finds under the key is the caller's own session, and no session has two
holders. A session that was taken out of the pool in the middle of a walk, by an
invalidated profile, leaves its holder behind with a key that somebody else may
fill again.
-/

namespace TopologyExporter.Discovery.Pool

open Go Transition

/-- The caller was given the session and has not released it. -/
def SessionPool.Holds (pool : SessionPool) (id : CheckoutID) (session : Session) : Prop :=
  ∃ params pooled, pool.checkouts.lookup id = some (.holding params session pooled)

/-- The caller was given the session by the pool, for parameters with the key. -/
def SessionPool.HoldsUnder (pool : SessionPool) (id : CheckoutID) (key : PoolKey)
    (session : Session) : Prop :=
  ∃ params, pool.checkouts.lookup id = some (.holding params session true) ∧ params.key = key

/-- No session has two holders. -/
def Exclusive (pool : SessionPool) : Prop :=
  ∀ first second session, pool.Holds first session → pool.Holds second session → first = second

/-- The entries of the sessions that callers other than `id` hold are as before:
they are neither freed nor closed nor removed. -/
def LeavesOthers (id : CheckoutID) (pool next : SessionPool) : Prop :=
  ∀ other session, other ≠ id → pool.Holds other session →
    ∀ key entry, pool.sessions.lookup key = some entry → entry.session = session →
      next.sessions.lookup key = some entry

/-! ## Filing without a previous holder -/

def Checkout.holdsUnder (key : PoolKey) : Checkout → Bool
  | .holding params _ true => params.key = key
  | _ => false

/-- Somebody holds a session that was handed out under the key. -/
def SessionPool.heldUnder (pool : SessionPool) (key : PoolKey) : Bool :=
  pool.checkouts.entries.any (fun entry => entry.2.holdsUnder key)

/-- If the action files a session under a key, nobody holds one that was handed
out under this key. -/
def filesAlone (action : Action) (pool : SessionPool) : Bool :=
  match action with
  | .opened id _ =>
      match pool.checkouts.lookup id with
      | some (.opening params true) =>
          pool.closed || (pool.sessions.lookup params.key).isSome || !pool.heldUnder params.key
      | _ => true
  | _ => true

theorem heldUnder_iff {pool : SessionPool} {key : PoolKey} :
    pool.heldUnder key = true ↔ ∃ id session, pool.HoldsUnder id key session := by
  rw [SessionPool.heldUnder, List.any_eq_true]
  constructor
  · rintro ⟨⟨id, checkout⟩, hmem, hholds⟩
    unfold Checkout.holdsUnder at hholds
    split at hholds
    next params session hcheckout =>
        cases hcheckout
        exact ⟨id, session, params, AList.mem_lookup_iff.mpr hmem, of_decide_eq_true hholds⟩
    · cases hholds
  · rintro ⟨id, session, params, hlookup, rfl⟩
    exact ⟨⟨id, .holding params session true⟩, AList.mem_lookup_iff.mp hlookup,
      decide_eq_true rfl⟩

/-! ## Sessions are kept apart -/

/-- The caller is past the opening of its session. -/
def SessionPool.Past (pool : SessionPool) (id : CheckoutID) : Prop :=
  ∃ checkout, pool.checkouts.lookup id = some checkout ∧ ∀ params pooling,
    checkout ≠ .opening params pooling

/-- Every session is in one place. A session that was handed out under a key is
still what the key leads to, unless the key leads nowhere. -/
structure Apart (pool : SessionPool) : Prop where
  stored : ∀ key entry, pool.sessions.lookup key = some entry → pool.Past entry.session.opener
  held : ∀ id session, pool.Holds id session → pool.Past session.opener
  distinct : ∀ first second here there, pool.sessions.lookup first = some here →
    pool.sessions.lookup second = some there → here.session.opener = there.session.opener →
    first = second
  exclusive : ∀ first second here there, pool.Holds first here → pool.Holds second there →
    here.opener = there.opener → first = second
  filed : ∀ id session key entry, pool.Holds id session → pool.sessions.lookup key = some entry →
    entry.session.opener = session.opener → pool.HoldsUnder id key session
  alone : ∀ first second key here there, pool.HoldsUnder first key here →
    pool.HoldsUnder second key there → first = second
  own : ∀ id key session entry, pool.HoldsUnder id key session →
    pool.sessions.lookup key = some entry → entry.session = session ∧ entry.inUse = true

section Apart

variable {pool next : SessionPool} {id other : CheckoutID} {key : PoolKey} {session : Session}
  {checkout : Checkout} {params : SessionParams} {pooled pooling connectionError : Bool}
  {now : Time}

theorem SessionPool.HoldsUnder.holds (hheld : pool.HoldsUnder id key session) :
    pool.Holds id session := by
  obtain ⟨params, hlookup, -⟩ := hheld
  exact ⟨params, true, hlookup⟩

theorem apart_newSessionPool : Apart newSessionPool where
  stored _ _ hentry := by cases hentry
  held _ _ hheld := by
    obtain ⟨_, _, hlookup⟩ := hheld
    cases hlookup
  distinct _ _ _ _ hentry := by cases hentry
  exclusive _ _ _ _ hheld := by
    obtain ⟨_, _, hlookup⟩ := hheld
    cases hlookup
  filed _ _ _ _ hheld := by
    obtain ⟨_, _, hlookup⟩ := hheld
    cases hlookup
  alone _ _ _ _ _ hheld := by
    obtain ⟨_, hlookup, -⟩ := hheld
    cases hlookup
  own _ _ _ _ hheld := by
    obtain ⟨_, hlookup, -⟩ := hheld
    cases hlookup

/-- Nothing comes together when entries go. -/
theorem Apart.shrink (hapart : Apart pool) (hcheckouts : next.checkouts = pool.checkouts)
    (hsessions : ∀ key entry, next.sessions.lookup key = some entry →
      pool.sessions.lookup key = some entry) : Apart next := by
  have hpast : ∀ id, next.Past id ↔ pool.Past id := by
    intro id
    rw [SessionPool.Past, SessionPool.Past, hcheckouts]
  have hholds : ∀ id session, next.Holds id session ↔ pool.Holds id session := by
    intro id session
    rw [SessionPool.Holds, SessionPool.Holds, hcheckouts]
  have hunder : ∀ id key session,
      next.HoldsUnder id key session ↔ pool.HoldsUnder id key session := by
    intro id key session
    rw [SessionPool.HoldsUnder, SessionPool.HoldsUnder, hcheckouts]
  constructor
  · intro key entry hentry
    exact (hpast _).mpr (hapart.stored key entry (hsessions key entry hentry))
  · intro id session hheld
    exact (hpast _).mpr (hapart.held id session ((hholds id session).mp hheld))
  · intro first second here there hhere hthere
    exact hapart.distinct first second here there (hsessions _ _ hhere) (hsessions _ _ hthere)
  · intro first second here there hhere hthere
    exact hapart.exclusive first second here there ((hholds _ _).mp hhere)
      ((hholds _ _).mp hthere)
  · intro id session key entry hheld hentry hsame
    exact (hunder _ _ _).mpr (hapart.filed id session key entry ((hholds _ _).mp hheld)
      (hsessions _ _ hentry) hsame)
  · intro first second key here there hhere hthere
    exact hapart.alone first second key here there ((hunder _ _ _).mp hhere)
      ((hunder _ _ _).mp hthere)
  · intro id key session entry hheld hentry
    exact hapart.own id key session entry ((hunder _ _ _).mp hheld) (hsessions _ _ hentry)

theorem Apart.delete (hapart : Apart pool) (keys : List PoolKey) : Apart (pool.delete keys) := by
  refine hapart.shrink rfl ?_
  intro key entry hentry
  rw [SessionPool.delete, Map.lookup_foldl_erase] at hentry
  split_ifs at hentry
  exact hentry

theorem lookup_setCheckout_ne (hother : other ≠ id) (checkout : Checkout) :
    (pool.setCheckout id checkout).checkouts.lookup other = pool.checkouts.lookup other :=
  AList.lookup_insert_ne hother

/-- The record that is found is the one just set or one from before. -/
theorem lookup_setCheckout_cases {found : Checkout}
    (hlookup : (pool.setCheckout id checkout).checkouts.lookup other = some found) :
    (other = id ∧ checkout = found) ∨
      (other ≠ id ∧ pool.checkouts.lookup other = some found) := by
  by_cases hsame : other = id
  · rw [hsame, SessionPool.lookup_setCheckout, Option.some.injEq] at hlookup
    exact Or.inl ⟨hsame, hlookup⟩
  · rw [lookup_setCheckout_ne hsame] at hlookup
    exact Or.inr ⟨hsame, hlookup⟩

/-- Whoever has a session after a caller moved on without one had it before. -/
theorem holds_of_setCheckout
    (hcheckout : ∀ params session pooled, checkout ≠ .holding params session pooled)
    (hheld : (pool.setCheckout id checkout).Holds other session) :
    other ≠ id ∧ pool.Holds other session := by
  obtain ⟨params, pooled, hlookup⟩ := hheld
  rcases lookup_setCheckout_cases hlookup with ⟨-, hown⟩ | ⟨hother, hbefore⟩
  · exact absurd hown (hcheckout params session pooled)
  · exact ⟨hother, params, pooled, hbefore⟩

theorem holdsUnder_of_setCheckout
    (hcheckout : ∀ params session pooled, checkout ≠ .holding params session pooled)
    (hheld : (pool.setCheckout id checkout).HoldsUnder other key session) :
    other ≠ id ∧ pool.HoldsUnder other key session := by
  obtain ⟨params, hlookup, hkey⟩ := hheld
  rcases lookup_setCheckout_cases hlookup with ⟨-, hown⟩ | ⟨hother, hbefore⟩
  · exact absurd hown (hcheckout params session true)
  · exact ⟨hother, params, hbefore, hkey⟩

theorem holdsUnder_setCheckout_ne {id other : CheckoutID} (hother : other ≠ id)
    {checkout : Checkout} {key : PoolKey} {session : Session}
    (hheld : pool.HoldsUnder other key session) :
    (pool.setCheckout id checkout).HoldsUnder other key session := by
  obtain ⟨params, hlookup, hkey⟩ := hheld
  exact ⟨params, (lookup_setCheckout_ne hother checkout).trans hlookup, hkey⟩

/-- Only an acquire that starts is before its opening. -/
theorem past_setCheckout
    (hmoves : pool.checkouts.lookup id = none ∨
      ∀ params pooling, checkout ≠ .opening params pooling) (hpast : pool.Past other) :
    (pool.setCheckout id checkout).Past other := by
  obtain ⟨held, hlookup, hopened⟩ := hpast
  by_cases hsame : other = id
  · rcases hmoves with hnew | hmoves
    · rw [hsame, hnew] at hlookup
      cases hlookup
    · rw [hsame]
      exact ⟨checkout, SessionPool.lookup_setCheckout .., hmoves⟩
  · exact ⟨held, (lookup_setCheckout_ne hsame checkout).trans hlookup, hopened⟩

/-- A caller starts, fails or lets go of its session. -/
theorem Apart.moveOn (hapart : Apart pool)
    (hcheckout : ∀ params session pooled, checkout ≠ .holding params session pooled)
    (hmoves : pool.checkouts.lookup id = none ∨
      ∀ params pooling, checkout ≠ .opening params pooling) :
    Apart (pool.setCheckout id checkout) where
  stored key entry hentry := past_setCheckout hmoves (hapart.stored key entry hentry)
  held other session hheld :=
    past_setCheckout hmoves (hapart.held other session (holds_of_setCheckout hcheckout hheld).2)
  distinct := hapart.distinct
  exclusive first second here there hhere hthere :=
    hapart.exclusive first second here there (holds_of_setCheckout hcheckout hhere).2
      (holds_of_setCheckout hcheckout hthere).2
  filed other session key entry hheld hentry hsame := by
    obtain ⟨hother, hbefore⟩ := holds_of_setCheckout hcheckout hheld
    exact holdsUnder_setCheckout_ne hother
      (hapart.filed other session key entry hbefore hentry hsame)
  alone first second key here there hhere hthere :=
    hapart.alone first second key here there (holdsUnder_of_setCheckout hcheckout hhere).2
      (holdsUnder_of_setCheckout hcheckout hthere).2
  own other key session entry hheld hentry :=
    hapart.own other key session entry (holdsUnder_of_setCheckout hcheckout hheld).2 hentry

/-- An entry keeps its session when it is marked, and it is marked free only when
nobody has a session under its key. -/
theorem Apart.mark (hapart : Apart pool) {entry : PoolEntry}
    (hentry : pool.sessions.lookup key = some entry) (lastUsed : Time) (inUse : Bool)
    (hfree : inUse = false → ∀ id session, ¬ pool.HoldsUnder id key session) :
    Apart (pool.setEntry key { entry with lastUsed := lastUsed, inUse := inUse }) := by
  -- every entry was there before, up to the mark
  have hbefore : ∀ found marked,
      (pool.setEntry key { entry with lastUsed := lastUsed, inUse := inUse }).sessions.lookup
        found = some marked →
      ∃ held, pool.sessions.lookup found = some held ∧ marked.session = held.session ∧
        (found = key ∧ marked.inUse = inUse ∨ marked = held) := by
    intro found marked hmarked
    by_cases hsame : found = key
    · subst hsame
      rw [SessionPool.setEntry, AList.lookup_insert, Option.some.injEq] at hmarked
      subst hmarked
      exact ⟨entry, hentry, rfl, Or.inl ⟨rfl, rfl⟩⟩
    · rw [SessionPool.setEntry, AList.lookup_insert_ne hsame] at hmarked
      exact ⟨marked, hmarked, rfl, Or.inr rfl⟩
  constructor
  · intro found marked hmarked
    obtain ⟨held, hheld, hsession, -⟩ := hbefore found marked hmarked
    rw [hsession]
    exact hapart.stored found held hheld
  · exact hapart.held
  · intro first second here there hhere hthere hsame
    obtain ⟨heldHere, hheldHere, hhere, -⟩ := hbefore first here hhere
    obtain ⟨heldThere, hheldThere, hthere, -⟩ := hbefore second there hthere
    rw [hhere, hthere] at hsame
    exact hapart.distinct first second heldHere heldThere hheldHere hheldThere hsame
  · exact hapart.exclusive
  · intro id session found marked hholds hmarked hsame
    obtain ⟨held, hheld, hsession, -⟩ := hbefore found marked hmarked
    rw [hsession] at hsame
    exact hapart.filed id session found held hholds hheld hsame
  · exact hapart.alone
  · intro id found session marked hholds hmarked
    obtain ⟨held, hheld, hsession, hmark⟩ := hbefore found marked hmarked
    obtain ⟨hown, huse⟩ := hapart.own id found session held hholds hheld
    refine ⟨hsession.trans hown, ?_⟩
    rcases hmark with ⟨rfl, hmark⟩ | rfl
    · rw [hmark]
      cases inUse with
      | false => exact absurd hholds (hfree rfl id session)
      | true => rfl
    · exact huse

/-! ## Handing out -/

theorem holds_of_setHolding {held : Session}
    (hheld : (pool.setCheckout id (.holding params session pooled)).Holds other held) :
    (other = id ∧ held = session) ∨ (other ≠ id ∧ pool.Holds other held) := by
  obtain ⟨own, poolings, hlookup⟩ := hheld
  rcases lookup_setCheckout_cases hlookup with ⟨hsame, hown⟩ | ⟨hother, hbefore⟩
  · cases hown
    exact Or.inl ⟨hsame, rfl⟩
  · exact Or.inr ⟨hother, own, poolings, hbefore⟩

theorem holdsUnder_of_setHolding {held : Session}
    (hheld : (pool.setCheckout id (.holding params session pooled)).HoldsUnder other key held) :
    (other = id ∧ held = session ∧ pooled = true ∧ params.key = key) ∨
      (other ≠ id ∧ pool.HoldsUnder other key held) := by
  obtain ⟨own, hlookup, hkey⟩ := hheld
  rcases lookup_setCheckout_cases hlookup with ⟨hsame, hown⟩ | ⟨hother, hbefore⟩
  · cases hown
    exact Or.inl ⟨hsame, rfl, rfl, hkey⟩
  · exact Or.inr ⟨hother, own, hbefore, hkey⟩

/-- A caller gets a session that nobody holds: its own new one, or one that is
filed under its key, where nobody else has one from. -/
theorem Apart.handOut (hapart : Apart pool) (hpast : session.opener = id ∨ pool.Past session.opener)
    (hunheld : ∀ other held, pool.Holds other held → held.opener ≠ session.opener)
    (hfiled : ∀ key entry, pool.sessions.lookup key = some entry →
      entry.session.opener = session.opener → pooled = true ∧ params.key = key)
    (hkey : pooled = true → (∀ other held, ¬ pool.HoldsUnder other params.key held) ∧
      ∀ entry, pool.sessions.lookup params.key = some entry →
        entry.session = session ∧ entry.inUse = true) :
    Apart (pool.setCheckout id (.holding params session pooled)) := by
  have hmoves : pool.checkouts.lookup id = none ∨ ∀ started pooling,
      Checkout.holding params session pooled ≠ .opening started pooling :=
    Or.inr (fun _ _ heq => by cases heq)
  -- whoever opened the session has got past opening it, be it this caller or another
  have hown : (pool.setCheckout id (.holding params session pooled)).Past session.opener := by
    rcases hpast with rfl | hpast
    · exact ⟨_, SessionPool.lookup_setCheckout .., fun _ _ heq => by cases heq⟩
    · exact past_setCheckout hmoves hpast
  constructor
  · intro key entry hentry
    exact past_setCheckout hmoves (hapart.stored key entry hentry)
  · intro other held hheld
    rcases holds_of_setHolding hheld with ⟨-, rfl⟩ | ⟨-, hbefore⟩
    · exact hown
    · exact past_setCheckout hmoves (hapart.held other held hbefore)
  · exact hapart.distinct
  · -- two holders of one session: at most one of them is the new one, and nobody held it before
    intro first second here there hhere hthere hsame
    rcases holds_of_setHolding hhere with ⟨rfl, rfl⟩ | ⟨-, hfirst⟩
    · rcases holds_of_setHolding hthere with ⟨rfl, -⟩ | ⟨-, hsecond⟩
      · rfl
      · exact absurd hsame.symm (hunheld second there hsecond)
    · rcases holds_of_setHolding hthere with ⟨rfl, rfl⟩ | ⟨-, hsecond⟩
      · exact absurd hsame (hunheld first here hfirst)
      · exact hapart.exclusive first second here there hfirst hsecond hsame
  · intro other held key entry hheld hentry hsame
    rcases holds_of_setHolding hheld with ⟨rfl, rfl⟩ | ⟨hother, hbefore⟩
    · obtain ⟨rfl, hsameKey⟩ := hfiled key entry hentry hsame
      exact ⟨params, SessionPool.lookup_setCheckout .., hsameKey⟩
    · exact holdsUnder_setCheckout_ne hother
        (hapart.filed other held key entry hbefore hentry hsame)
  · intro first second key here there hhere hthere
    rcases holdsUnder_of_setHolding hhere with ⟨rfl, rfl, hpooled, rfl⟩ | ⟨-, hfirst⟩
    · rcases holdsUnder_of_setHolding hthere with ⟨rfl, -⟩ | ⟨-, hsecond⟩
      · rfl
      · exact absurd hsecond ((hkey hpooled).1 second there)
    · rcases holdsUnder_of_setHolding hthere with ⟨rfl, rfl, hpooled, rfl⟩ | ⟨-, hsecond⟩
      · exact absurd hfirst ((hkey hpooled).1 first here)
      · exact hapart.alone first second key here there hfirst hsecond
  · intro other key held entry hheld hentry
    rcases holdsUnder_of_setHolding hheld with ⟨rfl, rfl, hpooled, rfl⟩ | ⟨-, hbefore⟩
    · exact (hkey hpooled).2 entry hentry
    · exact hapart.own other key held entry hbefore hentry

/-- A free entry has no holder under its key, and neither has its session. -/
theorem Apart.checkOut (hapart : Apart pool) (id : CheckoutID) (params : SessionParams)
    {entry : PoolEntry} (hentry : pool.sessions.lookup params.key = some entry)
    (hfree : entry.inUse = false) (now : Time) : Apart (pool.checkOut id params entry now) := by
  have hnobody : ∀ other held, ¬ pool.HoldsUnder other params.key held := by
    intro other held hheld
    have huse := (hapart.own other params.key held entry hheld hentry).2
    rw [hfree] at huse
    cases huse
  have hmarked := hapart.mark hentry now true (fun hfalse => by cases hfalse)
  have hlookup : (pool.setEntry params.key { entry with lastUsed := now, inUse := true }
      ).sessions.lookup params.key = some { entry with lastUsed := now, inUse := true } :=
    AList.lookup_insert _
  apply hmarked.handOut
  · exact Or.inr (hapart.stored params.key entry hentry)
  · intro other held hheld hsame
    exact hnobody other held (hapart.filed other held params.key entry hheld hentry hsame.symm)
  · intro key found hfound hsame
    exact ⟨rfl, (hmarked.distinct key params.key found _ hfound hlookup hsame).symm⟩
  · intro _
    refine ⟨hnobody, ?_⟩
    intro found hfound
    rw [hlookup, Option.some.injEq] at hfound
    subst hfound
    exact ⟨rfl, rfl⟩

/-- Nobody has seen the session that an acquire has just opened. -/
theorem Apart.fresh (hapart : Apart pool)
    (hopening : pool.checkouts.lookup id = some (.opening params pooling)) :
    (∀ other held, pool.Holds other held → held.opener ≠ id) ∧
      ∀ key entry, pool.sessions.lookup key = some entry → entry.session.opener ≠ id := by
  have hbefore : ¬ pool.Past id := by
    rintro ⟨checkout, hlookup, hopened⟩
    rw [hopening, Option.some.injEq] at hlookup
    exact hopened params pooling hlookup.symm
  constructor
  · rintro other held hheld rfl
    exact hbefore (hapart.held other held hheld)
  · rintro key entry hentry rfl
    exact hbefore (hapart.stored key entry hentry)

/-- The caller keeps its session to itself. -/
theorem Apart.transient (hapart : Apart pool)
    (hopening : pool.checkouts.lookup id = some (.opening params pooling)) :
    Apart (pool.setCheckout id (.holding params (buildClient id params) false)) := by
  obtain ⟨hunheld, hunfiled⟩ := hapart.fresh hopening
  apply hapart.handOut
  · exact Or.inl rfl
  · exact hunheld
  · exact fun key entry hentry hsame => absurd hsame (hunfiled key entry hentry)
  · exact fun hfalse => by cases hfalse

theorem SessionPool.Holds.unique {first second : Session} (hfirst : pool.Holds id first)
    (hsecond : pool.Holds id second) : first = second := by
  obtain ⟨_, _, hfirst⟩ := hfirst
  obtain ⟨_, _, hsecond⟩ := hsecond
  rw [hfirst] at hsecond
  cases hsecond
  rfl

/-- A session is filed under the key for which its holder has it. -/
theorem Apart.store (hapart : Apart pool) (hheld : pool.HoldsUnder id key session) (now : Time) :
    Apart (pool.setEntry key ⟨session, now, true⟩) := by
  have hnew : ∀ found entry,
      (pool.setEntry key ⟨session, now, true⟩).sessions.lookup found = some entry →
      (found = key ∧ entry = ⟨session, now, true⟩) ∨
        (found ≠ key ∧ pool.sessions.lookup found = some entry) := by
    intro found entry hentry
    by_cases hsame : found = key
    · subst hsame
      rw [SessionPool.setEntry, AList.lookup_insert, Option.some.injEq] at hentry
      exact Or.inl ⟨rfl, hentry.symm⟩
    · rw [SessionPool.setEntry, AList.lookup_insert_ne hsame] at hentry
      exact Or.inr ⟨hsame, hentry⟩
  -- no other entry has the session, for its holder has it under this key
  have hother : ∀ found entry, found ≠ key → pool.sessions.lookup found = some entry →
      entry.session.opener ≠ session.opener := by
    intro found entry hfound hentry hsame
    obtain ⟨params, hlookup, hkey⟩ := hapart.filed id session found entry hheld.holds hentry hsame
    obtain ⟨own, hown, hownKey⟩ := hheld
    rw [hown] at hlookup
    cases hlookup
    exact hfound (hkey.symm.trans hownKey)
  constructor
  · intro found entry hentry
    rcases hnew found entry hentry with ⟨-, rfl⟩ | ⟨-, hbefore⟩
    · exact hapart.held id session hheld.holds
    · exact hapart.stored found entry hbefore
  · exact hapart.held
  · intro first second here there hhere hthere hsame
    rcases hnew first here hhere with ⟨rfl, rfl⟩ | ⟨hfirst, hold⟩
    · rcases hnew second there hthere with ⟨rfl, -⟩ | ⟨hsecond, hold⟩
      · rfl
      · exact absurd hsame.symm (hother second there hsecond hold)
    · rcases hnew second there hthere with ⟨rfl, rfl⟩ | ⟨-, hsecond⟩
      · exact absurd hsame (hother first here hfirst hold)
      · exact hapart.distinct first second here there hold hsecond hsame
  · exact hapart.exclusive
  · intro other held found entry hholds hentry hsame
    rcases hnew found entry hentry with ⟨rfl, rfl⟩ | ⟨-, hbefore⟩
    · obtain rfl := hapart.exclusive id other session held hheld.holds hholds hsame
      rwa [← hheld.holds.unique hholds]
    · exact hapart.filed other held found entry hholds hbefore hsame
  · exact hapart.alone
  · intro other found held entry hholds hentry
    rcases hnew found entry hentry with ⟨rfl, rfl⟩ | ⟨-, hbefore⟩
    · obtain rfl := hapart.alone id other _ session held hheld hholds
      exact ⟨hheld.holds.unique hholds.holds, rfl⟩
    · exact hapart.own other found held entry hholds hbefore

/-- A new session is filed under a key that leads nowhere and has no holder. -/
theorem Apart.file (hapart : Apart pool)
    (hopening : pool.checkouts.lookup id = some (.opening params pooling))
    (hentry : pool.sessions.lookup params.key = none)
    (hnobody : ∀ other held, ¬ pool.HoldsUnder other params.key held) (now : Time) :
    Apart ((pool.setEntry params.key ⟨buildClient id params, now, true⟩).setCheckout id
      (.holding params (buildClient id params) true)) := by
  obtain ⟨hunheld, hunfiled⟩ := hapart.fresh hopening
  have hgiven : Apart (pool.setCheckout id (.holding params (buildClient id params) true)) := by
    apply hapart.handOut
    · exact Or.inl rfl
    · exact hunheld
    · exact fun key entry hfound hsame => absurd hsame (hunfiled key entry hfound)
    · intro _
      refine ⟨hnobody, ?_⟩
      intro entry hfound
      rw [hentry] at hfound
      cases hfound
  exact hgiven.store ⟨params, SessionPool.lookup_setCheckout .., rfl⟩ now

/-! ## Steps -/

theorem Apart.acquire (hapart : Apart pool) (hnew : id ∉ pool.checkouts) (params : SessionParams)
    (now : Time) : Apart (pool.acquire id params now) := by
  have hstart : ∀ pooling, Apart (pool.setCheckout id (.opening params pooling)) := by
    intro pooling
    refine hapart.moveOn (fun _ _ _ heq => by cases heq) (Or.inl ?_)
    exact AList.lookup_eq_none.mpr hnew
  unfold SessionPool.acquire
  split_ifs
  · exact hstart false
  · split
    · exact hstart true
    next entry hentry =>
        split_ifs with huse
        · exact hstart false
        · exact hapart.checkOut id params hentry (Bool.eq_false_iff.mpr huse) now

theorem Apart.opened (hapart : Apart pool) (hfiles : filesAlone (.opened id now) pool = true)
    (hopened : pool.opened id now = some next) : Apart next := by
  unfold SessionPool.opened at hopened
  split at hopened
  next params hopening =>
      cases hopened
      unfold SessionPool.storeOpened
      by_cases hclosed : pool.closed
      · rw [if_pos hclosed]
        exact hapart.transient hopening
      · rw [if_neg hclosed]
        split
        next existing hexisting =>
            split_ifs with huse
            · exact hapart.transient hopening
            · exact hapart.checkOut id params hexisting (Bool.eq_false_iff.mpr huse) now
        next hnone =>
            apply hapart.file hopening hnone
            intro other held hheld
            have hunder := heldUnder_iff.mpr ⟨other, held, hheld⟩
            simp [filesAlone, hopening, hclosed, hnone, hunder] at hfiles
  next params hopening =>
      cases hopened
      exact hapart.transient hopening
  · cases hopened

theorem setCheckout_returnKey (pool : SessionPool) (id : CheckoutID) (checkout : Checkout)
    (key : PoolKey) (now : Time) :
    (pool.returnKey key now).setCheckout id checkout =
      (pool.setCheckout id checkout).returnKey key now := by
  have hsame : (pool.setCheckout id checkout).sessions = pool.sessions := rfl
  unfold SessionPool.returnKey
  rw [hsame]
  split <;> rfl

/-- A caller lets go of its session first; then the entry under the key has no
holder. -/
theorem Apart.release (hapart : Apart pool)
    (hrelease : pool.release id connectionError now = some next) : Apart next := by
  have hgone : Apart (pool.setCheckout id .released) :=
    hapart.moveOn (fun _ _ _ heq => by cases heq) (Or.inr (fun _ _ heq => by cases heq))
  unfold SessionPool.release at hrelease
  split at hrelease
  next params session hholding =>
      cases hrelease
      cases connectionError with
      | true => exact hgone.delete [params.key]
      | false =>
          rw [if_neg Bool.false_ne_true, setCheckout_returnKey]
          unfold SessionPool.returnKey
          split
          next entry hentry =>
              apply hgone.mark hentry
              intro _ other held hheld
              obtain ⟨hother, hbefore⟩ :=
                holdsUnder_of_setCheckout (fun _ _ _ heq => by cases heq) hheld
              exact hother (hapart.alone other id params.key held session hbefore
                ⟨params, hholding, rfl⟩)
          · exact hgone
  · cases hrelease
    exact hgone
  · cases hrelease

theorem Apart.step {maxIdle : Duration} {action : Action} (hapart : Apart pool)
    (hfiles : filesAlone action pool = true) (hstep : step maxIdle action pool = some next) :
    Apart next := by
  cases action with
  | acquire id params now =>
      simp only [Pool.step] at hstep
      split_ifs at hstep with hnew
      cases hstep
      exact hapart.acquire hnew params now
  | opened id now => exact hapart.opened hfiles hstep
  | openFailed id =>
      simp only [Pool.step, SessionPool.openFailed] at hstep
      split at hstep
      · cases hstep
        exact hapart.moveOn (fun _ _ _ heq => by cases heq) (Or.inr (fun _ _ heq => by cases heq))
      · cases hstep
  | release id connectionError now => exact hapart.release hstep
  | invalidateProfile name =>
      cases hstep
      exact hapart.delete _
  | evict now =>
      cases hstep
      unfold SessionPool.evict
      split_ifs
      · exact hapart
      · exact hapart.delete _
  | close =>
      cases hstep
      unfold SessionPool.close
      split_ifs
      · exact hapart
      · exact hapart.shrink rfl (fun _ _ hentry => by cases hentry)

/-- A release touches the entry under its own key only. -/
theorem lookup_release (hrelease : pool.release id connectionError now = some next)
    (hkey : ∀ session, ¬ pool.HoldsUnder id key session) :
    next.sessions.lookup key = pool.sessions.lookup key := by
  unfold SessionPool.release at hrelease
  split at hrelease
  next params session hholding =>
      cases hrelease
      have hother : key ≠ params.key := by
        rintro rfl
        exact hkey session ⟨params, hholding, rfl⟩
      cases connectionError with
      | true =>
          simp only [if_true, SessionPool.evictKey, SessionPool.setCheckout, SessionPool.delete,
            Map.lookup_foldl_erase, List.mem_singleton, hother, if_false]
      | false =>
          simp only [Bool.false_eq_true, if_false, SessionPool.setCheckout, SessionPool.returnKey]
          split
          · exact AList.lookup_insert_ne hother
          · rfl
  · cases hrelease
    rfl
  · cases hrelease

theorem Apart.leavesOthers (hapart : Apart pool)
    (hrelease : pool.release id connectionError now = some next) : LeavesOthers id pool next := by
  intro other session hother hheld key entry hentry hsession
  rw [lookup_release hrelease, hentry]
  intro own hown
  -- the entry under the caller's key is the caller's
  have hsame := (hapart.own id key own entry hown hentry).1
  rw [hsession] at hsame
  rw [hsame] at hheld
  exact hother (hapart.exclusive other id own own hheld hown.holds rfl)

end Apart

/-- In every interleaving in which no session is filed under a key while a caller
holds one that was handed out under it, no session has two holders, and a release
leaves the sessions of the other callers alone. -/
theorem sessions_not_shared {maxIdle : Duration} {actions : List Action} {pool : SessionPool}
    (hfiles : Throughout (step maxIdle) (fun action pool => filesAlone action pool = true) actions
      newSessionPool)
    (hrun : run (step maxIdle) actions newSessionPool = some pool) :
    Exclusive pool ∧ ∀ id connectionError now next,
      step maxIdle (.release id connectionError now) pool = some next →
        LeavesOthers id pool next := by
  have hapart : Apart pool :=
    run_invariant_throughout (fun _ _ _ hfiles hapart hstep => hapart.step hfiles hstep)
      apart_newSessionPool hfiles hrun
  constructor
  · intro first second session hfirst hsecond
    exact hapart.exclusive first second session session hfirst hsecond rfl
  · intro id connectionError now next hstep
    exact hapart.leavesOthers hstep

/-- The first caller's session is taken out of the pool in the middle of its walk,
either before or after it is released, and a second caller opens one. -/
def rotation (late : Bool) : List Action :=
  [.acquire 1 (labParams 1 161) Time.zero, .opened 1 Time.zero] ++
    (if late then [.release 1 false Time.zero, .invalidateProfile (str "public")]
      else [.invalidateProfile (str "public")]) ++
    [.acquire 2 (labParams 1 161) Time.zero, .opened 2 Time.zero]

theorem late_rotation_not_shared :
    ∃ pool, run (step 0) (rotation true) newSessionPool = some pool ∧
      pool.Holds 2 (buildClient 2 (labParams 1 161)) ∧ Exclusive pool := by
  have hrun : ((run (step 0) (rotation true) newSessionPool).map
      fun pool => pool.checkouts.lookup 2) =
      some (some (.holding (labParams 1 161) (buildClient 2 (labParams 1 161)) true)) := by
    decide
  obtain ⟨pool, hpool, hheld⟩ := Option.map_eq_some_iff.mp hrun
  refine ⟨pool, hpool, ⟨_, _, hheld⟩, ?_⟩
  exact (sessions_not_shared (by decide) hpool).1

/-- The first caller's release frees the session of the second, and a third caller
gets it as well. -/
theorem early_rotation_shared :
    ∃ pool, run (step 0)
        (rotation false ++ [.release 1 false Time.zero, .acquire 3 (labParams 1 161) Time.zero])
        newSessionPool = some pool ∧
      pool.Holds 2 (buildClient 2 (labParams 1 161)) ∧
      pool.Holds 3 (buildClient 2 (labParams 1 161)) ∧ ¬ Exclusive pool := by
  have hrun : ((run (step 0)
      (rotation false ++ [.release 1 false Time.zero, .acquire 3 (labParams 1 161) Time.zero])
      newSessionPool).map fun pool => (pool.checkouts.lookup 2, pool.checkouts.lookup 3)) =
      some (some (.holding (labParams 1 161) (buildClient 2 (labParams 1 161)) true),
        some (.holding (labParams 1 161) (buildClient 2 (labParams 1 161)) true)) := by
    decide
  obtain ⟨pool, hpool, hheld⟩ := Option.map_eq_some_iff.mp hrun
  rw [Prod.mk.injEq] at hheld
  have hsecond : pool.Holds 2 (buildClient 2 (labParams 1 161)) := ⟨_, _, hheld.1⟩
  have hthird : pool.Holds 3 (buildClient 2 (labParams 1 161)) := ⟨_, _, hheld.2⟩
  refine ⟨pool, hpool, hsecond, hthird, ?_⟩
  intro hexclusive
  exact absurd (hexclusive 2 3 _ hsecond hthird) (by decide)

end TopologyExporter.Discovery.Pool
