import TopologyExporter.GoLib.Clock
import TopologyExporter.Foundation.Transition

/-! # The limit on credential trials

A bucket holds at most as many tokens as are added in one second, and a trial takes
one. Tokens are added when somebody asks for one: as many whole tokens as have come
due since the last refill, and the last refill is moved on by the time that they
took, so that the rest of the time counts for the next one. That time is a product
of 64-bit integers and a quotient of it; all is well as long as the product fits.
-/

namespace TopologyExporter.Credentials.Trials

open Go Transition

open Go.Time (gap Follows gap_add gap_self gap_add_duration isSome_mono_add sub_eq_gap)

/-! ## The bucket -/

structure TokenBucket where
  rate : Int
  tokens : Int
  lastRefill : Time
  rate_pos : 1 ≤ rate
  rate_le : rate ≤ 1000000

/-- The rate of a new bucket. -/
def clampRate (rate : Int) : Int :=
  if rate < 1 then 1 else if 1000000 < rate then 1000000 else rate

theorem clampRate_pos (rate : Int) : 1 ≤ clampRate rate := by
  unfold clampRate
  split_ifs <;> omega

theorem clampRate_le (rate : Int) : clampRate rate ≤ 1000000 := by
  unfold clampRate
  split_ifs <;> omega

variable {rate : Int}

theorem clampRate_of_le (hpos : 1 ≤ rate) (hle : rate ≤ 1000000) : clampRate rate = rate := by
  rw [clampRate, if_neg (not_lt.mpr hpos), if_neg (not_lt.mpr hle)]

def newTokenBucket (rate : Int) (now : Time) : TokenBucket where
  rate := clampRate rate
  tokens := clampRate rate
  lastRefill := now
  rate_pos := clampRate_pos rate
  rate_le := clampRate_le rate

namespace TokenBucket

/-- The whole tokens that have come due since the last refill. -/
def due (bucket : TokenBucket) (now : Time) : Int :=
  now.sub bucket.lastRefill * bucket.rate / Time.second

/-- The time that a number of tokens takes. The product wraps around. -/
def consumed (bucket : TokenBucket) (add : Int) : Duration :=
  ((add * Time.second).bmod (2 ^ 64)).tdiv bucket.rate

def refillLocked (bucket : TokenBucket) (now : Time) : TokenBucket :=
  if now.sub bucket.lastRefill ≤ 0 then bucket
  else if bucket.due now ≤ 0 then bucket
  else
    { bucket with
      tokens :=
        if bucket.rate < bucket.tokens + bucket.due now then bucket.rate
        else bucket.tokens + bucket.due now
      lastRefill := bucket.lastRefill.add (bucket.consumed (bucket.due now)) }

/-- Takes a token if there is one. -/
def take (bucket : TokenBucket) : TokenBucket × Bool :=
  if 0 < bucket.tokens then ({ bucket with tokens := bucket.tokens - 1 }, true)
  else (bucket, false)

/-- A pass through the loop of `acquire`, under the lock. -/
def acquire (bucket : TokenBucket) (now : Time) : TokenBucket × Bool :=
  (bucket.refillLocked now).take

end TokenBucket

/-! ## Trials

The clock is read under the lock, so its readings come in the order of the passes,
whoever makes them. -/

structure State where
  bucket : TokenBucket
  clock : Time

def fresh (rate : Int) (now : Time) : State := ⟨newTokenBucket rate now, now⟩

def step (now : Time) (state : State) : Option State :=
  if Follows state.clock now then some ⟨(state.bucket.acquire now).1, now⟩ else none

/-- A pass through the loop: whether it added tokens, and whether it was granted one. -/
structure Trial where
  time : Time
  refilled : Bool
  granted : Bool
deriving DecidableEq

def observe (now : Time) (state : State) : Option Trial :=
  some ⟨now, decide (0 < state.bucket.due now), (state.bucket.acquire now).2⟩

/-- The time since the last refill is a duration, and so is the product from which
the time that the tokens took is computed. -/
def Fits (now : Time) (state : State) : Prop :=
  gap state.bucket.lastRefill now ≤ Strconv.maxInt ∧
    gap state.bucket.lastRefill now * state.bucket.rate / Time.second * Time.second ≤
      Strconv.maxInt

instance decidableFits (now : Time) (state : State) : Decidable (Fits now state) :=
  inferInstanceAs (Decidable (_ ∧ _))

/-! ## One refill -/

/-- The tokens are within bounds, and the last refill is not after `clock`. -/
structure Sound (bucket : TokenBucket) (clock : Time) : Prop where
  tokens_nonneg : 0 ≤ bucket.tokens
  tokens_le : bucket.tokens ≤ bucket.rate
  follows : Follows bucket.lastRefill clock

/-- What a refill does: the tokens that it adds took the time by which it moves the
last refill on, but for less than a nanosecond, and less than a whole token's time is
left over. -/
structure Refill (bucket next : TokenBucket) (now : Time) (refilled : Bool) : Prop where
  rate : next.rate = bucket.rate
  sound : Sound next now
  forward : Follows bucket.lastRefill next.lastRefill
  paid : Time.second * next.tokens ≤ Time.second * bucket.tokens +
    bucket.rate * (gap bucket.lastRefill next.lastRefill + refilled.toNat)
  remainder : bucket.rate * gap next.lastRefill now ≤ Time.second + bucket.rate * refilled.toNat

section Refill

variable {bucket : TokenBucket} {clock now : Time}

/-- Nothing is added while less than a token has come due. -/
theorem refill_self (hsound : Sound bucket now)
    (hless : bucket.rate * gap bucket.lastRefill now ≤ Time.second) :
    Refill bucket bucket now false where
  rate := rfl
  sound := hsound
  forward := ⟨rfl, (gap_self _).ge⟩
  paid := by simp [gap_self]
  remainder := by simpa using hless

theorem consumed_eq {add : Int} (hadd : 0 ≤ add) (hfits : add * Time.second ≤ Strconv.maxInt) :
    bucket.consumed add = add * Time.second / bucket.rate := by
  have hnonneg : 0 ≤ add * Time.second := mul_nonneg hadd (by decide)
  have hbmod : (add * Time.second).bmod (2 ^ 64) = add * Time.second := by
    apply Int.bmod_eq_of_le
    · omega
    · unfold Strconv.maxInt at hfits
      omega
  rw [TokenBucket.consumed, hbmod, Int.tdiv_eq_ediv_of_nonneg hnonneg]

/-- Tokens are added up to the rate, and the last refill moves on by an advance that
is their time rounded down to a nanosecond. -/
theorem refill_add (hsound : Sound bucket now) {add advance : Int} (hadd : 0 < add)
    (hlower : add * Time.second ≤ gap bucket.lastRefill now * bucket.rate)
    (hupper : gap bucket.lastRefill now * bucket.rate < (add + 1) * Time.second)
    (hadvance : advance * bucket.rate ≤ add * Time.second)
    (hrounded : add * Time.second < (advance + 1) * bucket.rate) :
    Refill bucket
      { bucket with
        tokens := if bucket.rate < bucket.tokens + add then bucket.rate else bucket.tokens + add
        lastRefill := bucket.lastRefill.add advance } now true := by
  have hrate := bucket.rate_pos
  have htokens := hsound.tokens_nonneg
  have hkind := isSome_mono_add bucket.lastRefill advance
  have hmoved := gap_add_duration bucket.lastRefill advance
  have hrest := gap_add hkind hsound.follows.1
  rw [hmoved] at hrest
  -- the advance is the time of the added tokens, so it is neither negative nor past now
  have hnonneg : 0 ≤ advance := by
    have hpos : 0 < (advance + 1) * bucket.rate :=
      lt_trans (mul_pos hadd (by decide)) hrounded
    have hsucc := (pos_iff_pos_of_mul_pos hpos).mpr (by omega)
    omega
  have hle : advance ≤ gap bucket.lastRefill now :=
    le_of_mul_le_mul_right (hadvance.trans hlower) (by omega)
  refine ⟨rfl, ⟨?_, ?_, hsound.follows.1.trans hkind.symm, ?_⟩, ⟨hkind, ?_⟩, ?_, ?_⟩
  · dsimp only
    split_ifs <;> omega
  · dsimp only
    split_ifs <;> omega
  · dsimp only
    omega
  · dsimp only
    omega
  · rw [hmoved]
    have hcapped : (if bucket.rate < bucket.tokens + add then bucket.rate
        else bucket.tokens + add) ≤ bucket.tokens + add := by
      split_ifs <;> omega
    have hscaled := mul_le_mul_of_nonneg_left hcapped (show 0 ≤ Time.second by decide)
    simp only [Bool.toNat_true, Nat.cast_one]
    linarith
  · simp only [Bool.toNat_true, Nat.cast_one]
    linarith [congrArg (bucket.rate * ·) hrest]

theorem refillLocked_spec (hsound : Sound bucket now)
    (hfits : gap bucket.lastRefill now ≤ Strconv.maxInt ∧
      gap bucket.lastRefill now * bucket.rate / Time.second * Time.second ≤ Strconv.maxInt) :
    Refill bucket (bucket.refillLocked now) now (decide (0 < bucket.due now)) := by
  have hrate := bucket.rate_pos
  have hsub := sub_eq_gap hsound.follows.2 hfits.1
  have hdue : bucket.due now = gap bucket.lastRefill now * bucket.rate / Time.second := by
    rw [TokenBucket.due, hsub]
  have hlower := Int.ediv_mul_le (gap bucket.lastRefill now * bucket.rate)
    (show Time.second ≠ 0 by decide)
  have hupper := Int.lt_ediv_add_one_mul_self (gap bucket.lastRefill now * bucket.rate)
    (show 0 < Time.second by decide)
  rw [← hdue] at hlower hupper hfits
  by_cases hnone : bucket.due now ≤ 0
  · have hself : bucket.refillLocked now = bucket := by
      rw [TokenBucket.refillLocked, if_pos hnone, ite_self]
    rw [hself, decide_eq_false (not_lt.mpr hnone)]
    apply refill_self hsound
    nlinarith [show 0 < Time.second by decide]
  · have hadd : 0 < bucket.due now := not_le.mp hnone
    have helapsed : ¬ now.sub bucket.lastRefill ≤ 0 := by
      intro hzero
      rw [hsub] at hzero
      nlinarith [show 0 < Time.second by decide]
    have hconsumed := @consumed_eq bucket _ hadd.le hfits.2
    rw [TokenBucket.refillLocked, if_neg helapsed, if_neg hnone, decide_eq_true hadd]
    apply refill_add hsound hadd hlower hupper
    · rw [hconsumed]
      exact Int.ediv_mul_le _ (by omega)
    · rw [hconsumed]
      exact Int.lt_ediv_add_one_mul_self _ (by omega)

theorem take_eq (bucket : TokenBucket) :
    bucket.take.1 = { bucket with tokens := bucket.tokens - bucket.take.2.toNat } := by
  unfold TokenBucket.take
  split
  next => rfl
  next => simp

theorem Sound.take (hsound : Sound bucket now) : Sound bucket.take.1 now := by
  obtain ⟨hnonneg, hle, hfollows⟩ := hsound
  unfold TokenBucket.take
  split
  next hsome => exact ⟨by dsimp only; omega, by dsimp only; omega, hfollows⟩
  next => exact ⟨hnonneg, hle, hfollows⟩

end Refill

/-! ## Windows of time -/

def Within (opens : Time) (width : Nat) (trial : Trial) : Bool :=
  0 ≤ gap opens trial.time ∧ gap opens trial.time ≤ width

/-- The trials of a window that begins at `opens` and is `width` nanoseconds long. -/
def inside (opens : Time) (width : Nat) (history : List Trial) : List Trial :=
  history.filter (Within opens width)

def grants (trials : List Trial) : Int := trials.countP Trial.granted

def refills (trials : List Trial) : Int := trials.countP Trial.refilled

@[simp] theorem grants_nil : grants [] = 0 := rfl

@[simp] theorem refills_nil : refills [] = 0 := rfl

theorem grants_concat (trials : List Trial) (trial : Trial) :
    grants (trials ++ [trial]) = grants trials + trial.granted.toNat := by
  unfold grants
  cases hgranted : trial.granted <;> simp [hgranted]

theorem refills_concat (trials : List Trial) (trial : Trial) :
    refills (trials ++ [trial]) = refills trials + trial.refilled.toNat := by
  unfold refills
  cases hrefilled : trial.refilled <;> simp [hrefilled]

theorem inside_concat (opens : Time) (width : Nat) (history : List Trial) (trial : Trial) :
    inside opens width (history ++ [trial]) =
      if Within opens width trial then inside opens width history ++ [trial]
      else inside opens width history := by
  unfold inside
  rw [List.filter_append]
  split
  next hwithin => rw [List.filter_cons_of_pos hwithin, List.filter_nil]
  next hwithout => rw [List.filter_cons_of_neg hwithout, List.filter_nil, List.append_nil]

/-- In a window, what was granted and what is left was there after the first refill
or has come due since. Before it, nothing counts; after it, nothing is added. -/
structure Metered (opens : Time) (width : Nat) (rate : Int) (history : List Trial)
    (state : State) : Prop where
  steady : state.bucket.rate = rate
  kind : state.clock.mono.isSome = opens.mono.isSome
  sound : Sound state.bucket state.clock
  early : gap opens state.clock < 0 → inside opens width history = []
  spending : gap opens state.clock ≤ width → inside opens width history = [] ∨
    Time.second * (grants (inside opens width history) + state.bucket.tokens) ≤
      Time.second * (rate + 1) +
        rate * (gap opens state.bucket.lastRefill + refills (inside opens width history))
  bound : Time.second * grants (inside opens width history) ≤
    Time.second * (rate + 1) + rate * (width + refills (inside opens width history))

section Step

variable {opens : Time} {width : Nat} {rate : Int} {history : List Trial} {now : Time}
  {state : State}

/-- A pass outside the window changes nothing that counts. -/
theorem Metered.outside (hmetered : Metered opens width rate history state)
    (hfollows : Follows state.clock now) {trial : Trial} (htime : trial.time = now)
    (hrefill : Refill state.bucket (state.bucket.refillLocked now) now trial.refilled)
    (hwithout : ¬ Within opens width trial) :
    Metered opens width rate (history ++ [trial]) ⟨(state.bucket.acquire now).1, now⟩ := by
  have hkind := hfollows.1.trans hmetered.kind
  have hearly : gap opens now < 0 → inside opens width history = [] := by
    intro hbefore
    apply hmetered.early
    linarith [hfollows.2, gap_add hmetered.kind hkind]
  have hinside : inside opens width (history ++ [trial]) = inside opens width history := by
    rw [inside_concat, if_neg hwithout]
  refine ⟨?_, hkind, hrefill.sound.take, ?_, ?_, ?_⟩
  · rw [TokenBucket.acquire, take_eq]
    exact hrefill.rate.trans hmetered.steady
  · rw [hinside]
    exact hearly
  · intro hopen
    rw [hinside]
    left
    apply hearly
    rw [Within, decide_eq_true_eq, htime, not_and] at hwithout
    exact not_le.mp fun hafter => hwithout hafter hopen
  · rw [hinside]
    exact hmetered.bound

/-- A pass inside the window is paid for by the tokens at its first refill, and by the
time since. -/
theorem Metered.within (hmetered : Metered opens width rate history state)
    (hfollows : Follows state.clock now) {trial : Trial} (htime : trial.time = now)
    (hgranted : trial.granted = (state.bucket.acquire now).2)
    (hrefill : Refill state.bucket (state.bucket.refillLocked now) now trial.refilled)
    (hwithin : Within opens width trial) :
    Metered opens width rate (history ++ [trial]) ⟨(state.bucket.acquire now).1, now⟩ := by
  obtain ⟨hrate, hsound, hforward, hpaid, hremainder⟩ := hrefill
  have hkind := hfollows.1.trans hmetered.kind
  have hlastKind := hmetered.sound.follows.1.symm.trans hmetered.kind
  have hinside : inside opens width (history ++ [trial]) =
      inside opens width history ++ [trial] := by
    rw [inside_concat, if_pos hwithin]
  rw [Within, decide_eq_true_eq, htime] at hwithin
  have hpos : 0 ≤ rate := by linarith [hmetered.steady, state.bucket.rate_pos]
  -- the last refill moves from its old to its new place, and is not after `now`
  have hmoved := gap_add hlastKind (hforward.1.trans hlastKind)
  have hrest := gap_add (hforward.1.trans hlastKind) hkind
  have hspending : Time.second * (grants (inside opens width (history ++ [trial])) +
      ((state.bucket.refillLocked now).tokens - trial.granted.toNat)) ≤
      Time.second * (rate + 1) + rate * (gap opens (state.bucket.refillLocked now).lastRefill +
        refills (inside opens width (history ++ [trial]))) := by
    rw [hinside, grants_concat, refills_concat]
    rw [hmetered.steady] at hpaid hremainder
    rcases hmetered.spending (by linarith [hfollows.2, gap_add hmetered.kind hkind]) with
      hempty | hspent
    · rw [hempty, grants_nil, refills_nil]
      have htokens := mul_le_mul_of_nonneg_left hsound.tokens_le (show 0 ≤ Time.second by decide)
      rw [hrate, hmetered.steady] at htokens
      have hafter := mul_nonneg hpos hwithin.1
      rw [hrest] at hafter
      linarith
    · rw [hmoved]
      linarith
  refine ⟨?_, hkind, hsound.take, ?_, ?_, ?_⟩
  · rw [TokenBucket.acquire, take_eq]
    exact hrate.trans hmetered.steady
  · intro hbefore
    exact absurd hwithin.1 (not_le.mpr hbefore)
  · intro _
    right
    rw [TokenBucket.acquire] at hgranted ⊢
    rw [take_eq, ← hgranted]
    exact hspending
  · have hleft := hsound.take.tokens_nonneg
    rw [take_eq, ← TokenBucket.acquire, ← hgranted] at hleft
    have hscaled := mul_nonneg (show 0 ≤ Time.second by decide) hleft
    have hwidth := mul_nonneg hpos
      (show 0 ≤ width - gap opens (state.bucket.refillLocked now).lastRefill by
      linarith [hsound.follows.2])
    linarith

theorem Metered.step (hmetered : Metered opens width rate history state) (hfits : Fits now state)
    {next : State} (hstep : Trials.step now state = some next) :
    Metered opens width rate (history ++ (observe now state).toList) next := by
  rw [Trials.step, Option.ite_none_right_eq_some] at hstep
  obtain ⟨hfollows, hnext⟩ := hstep
  cases hnext
  obtain ⟨hnonneg, hle, hbehind⟩ := hmetered.sound
  have hrefill := refillLocked_spec ⟨hnonneg, hle, hbehind.trans hfollows⟩ hfits
  rw [observe, Option.toList_some]
  by_cases hwithin : Within opens width
      ⟨now, decide (0 < state.bucket.due now), (state.bucket.acquire now).2⟩
  · exact hmetered.within hfollows rfl rfl hrefill hwithin
  · exact hmetered.outside hfollows rfl hrefill hwithin

end Step

/-! ## Runs -/

theorem sound_fresh (rate : Int) (start : Time) :
    Sound (fresh rate start).bucket (fresh rate start).clock where
  tokens_nonneg := le_trans (by decide) (clampRate_pos rate)
  tokens_le := le_refl _
  follows := ⟨rfl, (gap_self start).ge⟩

theorem metered_fresh (rate : Int) (start : Time) {opens : Time}
    (hkind : start.mono.isSome = opens.mono.isSome) (width : Nat) :
    Metered opens width (clampRate rate) [] (fresh rate start) where
  steady := rfl
  kind := hkind
  sound := sound_fresh rate start
  early := fun _ => rfl
  spending := fun _ => Or.inl rfl
  bound := by
    have hrate := clampRate_pos rate
    have hwidth := mul_nonneg (show 0 ≤ clampRate rate by omega) (Int.natCast_nonneg width)
    simp only [inside, List.filter_nil, grants_nil, refills_nil, Time.second]
    linarith

theorem Sound.step (now : Time) (state next : State) (hfits : Fits now state)
    (hsound : Sound state.bucket state.clock) (hstep : Trials.step now state = some next) :
    Sound next.bucket next.clock := by
  rw [Trials.step, Option.ite_none_right_eq_some] at hstep
  obtain ⟨hfollows, hnext⟩ := hstep
  cases hnext
  obtain ⟨hnonneg, hle, hbehind⟩ := hsound
  exact (refillLocked_spec ⟨hnonneg, hle, hbehind.trans hfollows⟩ hfits).sound.take

theorem refill_of_takes {start : Time} {times : List Time} {final : State}
    (hrun : run step times (fresh rate start) = some final)
    (hfits : Throughout step Fits times (fresh rate start)) {front : List Time} {now : Time}
    {state : State} (htakes : Takes step times (fresh rate start) front now state) :
    Refill state.bucket (state.bucket.refillLocked now) now
      (decide (0 < state.bucket.due now)) := by
  obtain ⟨next, back, rfl, hstep, -⟩ := htakes.run_after hrun
  obtain ⟨hfront, hback⟩ := throughout_append.mp hfits
  obtain ⟨hnonneg, hle, hbehind⟩ := @run_invariant_throughout _ _ step Fits
    (fun state => Sound state.bucket state.clock) Sound.step _ _ _ (sound_fresh rate start)
    hfront htakes.2
  rw [step, Option.ite_none_right_eq_some] at hstep
  exact refillLocked_spec ⟨hnonneg, hle, hbehind.trans hstep.1⟩ (hback state htakes.2).1

theorem step_rate (now : Time) (state next : State) (hrate : state.bucket.rate = rate)
    (hstep : step now state = some next) : next.bucket.rate = rate := by
  rw [step, Option.ite_none_right_eq_some] at hstep
  obtain ⟨-, hnext⟩ := hstep
  cases hnext
  rw [TokenBucket.acquire, take_eq]
  unfold TokenBucket.refillLocked
  split_ifs <;> exact hrate

/-- In a run whose refills all fit, every refill leaves the tokens within bounds and
moves the last refill forward, but not past the present, and a window of time holds no
more grants than a full bucket, one token, and what accrues in the window and in one
nanosecond for each of its refills. -/
theorem grants_limited (rate : Int) (hpos : 1 ≤ rate) (hle : rate ≤ 1000000) (start : Time)
    (times : List Time) (final : State) (hrun : run step times (fresh rate start) = some final)
    (hfits : Throughout step Fits times (fresh rate start)) :
    (∀ front now state, Takes step times (fresh rate start) front now state →
      (0 ≤ (state.bucket.refillLocked now).tokens ∧
        (state.bucket.refillLocked now).tokens ≤ rate) ∧
      0 ≤ gap state.bucket.lastRefill (state.bucket.refillLocked now).lastRefill ∧
      0 ≤ gap (state.bucket.refillLocked now).lastRefill now) ∧
    ∀ (opens : Time) (width : Nat), start.mono.isSome = opens.mono.isSome →
      Time.second *
          grants (inside opens width (outputs step observe times (fresh rate start))) ≤
        Time.second * (rate + 1) + rate * (width +
          refills (inside opens width (outputs step observe times (fresh rate start)))) := by
  have hclamped := clampRate_of_le hpos hle
  refine ⟨?_, ?_⟩
  · intro front now state htakes
    have hrefill := refill_of_takes hrun hfits htakes
    have hsteady : (state.bucket.refillLocked now).rate = rate := by
      rw [hrefill.rate, ← hclamped]
      exact run_invariant step_rate rfl htakes.2
    exact ⟨⟨hrefill.sound.tokens_nonneg, hsteady ▸ hrefill.sound.tokens_le⟩,
      hrefill.forward.2, hrefill.sound.follows.2⟩
  · intro opens width hkind
    have hmetered := outputs_invariant_throughout
      (fun _ _ _ _ hcondition hmetered hnext => hmetered.step hcondition hnext)
      (metered_fresh rate start hkind width) hfits hrun
    rw [List.nil_append, hclamped] at hmetered
    exact hmetered.bound

/-- Two tokens at once and one after half a second. -/
theorem third_trial_waits :
    let times : List Time := [⟨0, some 0⟩, ⟨0, some 0⟩, ⟨0, some 0⟩,
      ⟨500000000, some 500000000⟩]
    (outputs step observe times (fresh 2 ⟨0, some 0⟩)).map Trial.granted =
        [true, true, false, true] ∧
      Time.second * grants (inside ⟨0, some 0⟩ 500000000
          (outputs step observe times (fresh 2 ⟨0, some 0⟩))) ≤
        Time.second * (2 + 1) + 2 * (500000000 + refills (inside ⟨0, some 0⟩ 500000000
          (outputs step observe times (fresh 2 ⟨0, some 0⟩)))) := by
  intro times
  obtain ⟨final, hrun⟩ := Option.isSome_iff_exists.mp
    (show (run step times (fresh 2 ⟨0, some 0⟩)).isSome = true by decide)
  obtain ⟨-, hwindow⟩ := grants_limited 2 (by decide) (by decide) ⟨0, some 0⟩ times final hrun
    (by decide)
  exact ⟨by decide, hwindow ⟨0, some 0⟩ 500000000 rfl⟩

/-- After ten thousand seconds without a trial, the product of a refill at the highest
rate does not fit: the last refill moves back by more than two hours, and from then on
every pass finds the bucket full. -/
theorem refill_moves_back :
    gap (newTokenBucket 1000000 ⟨0, some 0⟩).lastRefill
        ((newTokenBucket 1000000 ⟨0, some 0⟩).refillLocked
          ⟨10000000000000, some 10000000000000⟩).lastRefill = -8446744073709 ∧
      (outputs step observe (List.replicate 4 ⟨10000000000000, some 10000000000000⟩)
        (fresh 1000000 ⟨0, some 0⟩)).map Trial.refilled = [true, true, true, true] := by
  decide

end TopologyExporter.Credentials.Trials
