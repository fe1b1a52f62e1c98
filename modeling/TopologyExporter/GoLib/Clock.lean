import TopologyExporter.GoLib.Time

/-! # Readings of one clock

Readings that all have a monotonic part, or all have none, are points on a line.
-/

namespace Go.Time

/-- The time from one reading of a clock to another. -/
def gap (earlier later : Time) : Int :=
  match earlier.mono, later.mono with
  | some reading, some laterReading => laterReading - reading
  | _, _ => later.wall - earlier.wall

/-- The clock may show `now` after it showed `clock`: all readings are of one kind,
and they do not decrease. -/
def Follows (clock now : Time) : Prop :=
  now.mono.isSome = clock.mono.isSome ∧ 0 ≤ gap clock now

instance decidableFollows (clock now : Time) : Decidable (Follows clock now) :=
  inferInstanceAs (Decidable (_ ∧ _))

theorem sub_eq_saturate_gap (earlier later : Time) :
    later.sub earlier = saturate (gap earlier later) := by
  unfold sub gap
  cases later.mono with
  | none => cases earlier.mono <;> rfl
  | some reading => cases earlier.mono <;> rfl

theorem sub_eq_gap {earlier later : Time} (hnonneg : 0 ≤ gap earlier later)
    (hle : gap earlier later ≤ Strconv.maxInt) : later.sub earlier = gap earlier later := by
  have hmin : Strconv.minInt ≤ gap earlier later := le_trans (by decide) hnonneg
  rw [sub_eq_saturate_gap, saturate, min_eq_right hle, max_eq_right hmin]

variable {first second : Time}

/-- Among readings of one clock, gaps add up. -/
theorem gap_add {third : Time} (hsecond : second.mono.isSome = first.mono.isSome)
    (hthird : third.mono.isSome = first.mono.isSome) :
    gap first third = gap first second + gap second third := by
  obtain ⟨wall, mono⟩ := first
  obtain ⟨secondWall, secondMono⟩ := second
  obtain ⟨thirdWall, thirdMono⟩ := third
  cases mono with
  | none =>
      cases secondMono with
      | none =>
          cases thirdMono with
          | none => simp only [gap]; omega
          | some reading => cases hthird
      | some reading => cases hsecond
  | some reading =>
      cases secondMono with
      | none => cases hsecond
      | some secondReading =>
          cases thirdMono with
          | none => cases hthird
          | some thirdReading => simp only [gap]; omega

theorem Follows.trans {third : Time} (hfirst : Follows first second)
    (hsecond : Follows second third) : Follows first third := by
  have hkind := hsecond.1.trans hfirst.1
  refine ⟨hkind, ?_⟩
  rw [gap_add hfirst.1 hkind]
  exact add_nonneg hfirst.2 hsecond.2

theorem gap_self (time : Time) : gap time time = 0 := by
  unfold gap
  cases time.mono <;> simp

theorem gap_add_duration (time : Time) (duration : Duration) :
    gap time (time.add duration) = duration := by
  obtain ⟨wall, mono⟩ := time
  cases mono with
  | none => simp [gap, add]
  | some reading => simp [gap, add]

theorem isSome_mono_add (time : Time) (duration : Duration) :
    (time.add duration).mono.isSome = time.mono.isSome := by
  rw [add, Option.isSome_map]

/-! ## Readings that increase -/

theorem after_asymm (hafter : first.after second = true) : second.after first = false := by
  obtain ⟨wall, mono⟩ := first
  obtain ⟨otherWall, otherMono⟩ := second
  cases mono with
  | none =>
      cases otherMono <;> simp only [after, decide_eq_true_eq, decide_eq_false_iff_not] at * <;>
        omega
  | some reading =>
      cases otherMono <;> simp only [after, decide_eq_true_eq, decide_eq_false_iff_not] at * <;>
        omega

theorem after_self (time : Time) : time.after time = false := by
  cases hafter : time.after time with
  | false => rfl
  | true => exact hafter.symm.trans (after_asymm hafter)

/-- Of readings that increase, the later ones stand further back. -/
theorem after_iff_idxOf_lt {readings : List Time}
    (hincreasing : readings.Pairwise (fun earlier later => later.after earlier = true))
    (hfirst : first ∈ readings) (hsecond : second ∈ readings) :
    second.after first = true ↔ readings.idxOf first < readings.idxOf second := by
  have hordered : ∀ {one other : Time}, one ∈ readings → other ∈ readings →
      readings.idxOf one < readings.idxOf other → other.after one = true := by
    intro one other hone hother hlt
    have hpair := List.pairwise_iff_getElem.mp hincreasing _ _ (List.idxOf_lt_length_iff.mpr hone)
      (List.idxOf_lt_length_iff.mpr hother) hlt
    rwa [List.getElem_idxOf, List.getElem_idxOf] at hpair
  refine ⟨?_, hordered hfirst hsecond⟩
  intro hafter
  rcases lt_trichotomy (readings.idxOf first) (readings.idxOf second) with hlt | heq | hgt
  · exact hlt
  · rw [List.idxOf_inj hfirst] at heq
    rw [heq, after_self] at hafter
    cases hafter
  · rw [after_asymm (hordered hsecond hfirst hgt)] at hafter
    cases hafter

end Go.Time
