import TopologyExporter.GoLib.Strconv

/-! # Time

A point in time carries a wall clock reading in nanoseconds since the start of
year 1 and, when it was read from the running clock, a monotonic reading.
Comparisons and differences use the monotonic readings when both have one.
A difference is a signed 64-bit count of nanoseconds and saturates.
-/

namespace Go

structure Time where
  wall : Int
  mono : Option Int
deriving DecidableEq

abbrev Duration := Int

namespace Time

def second : Duration := 1000000000

def minute : Duration := 60 * second

/-- The zero time, midnight of the first day of year 1. -/
def zero : Time := ⟨0, none⟩

def isZero (time : Time) : Bool := time.wall == 0

def add (time : Time) (duration : Duration) : Time :=
  ⟨time.wall + duration, time.mono.map (· + duration)⟩

def after (time other : Time) : Bool :=
  match time.mono, other.mono with
  | some reading, some otherReading => otherReading < reading
  | _, _ => other.wall < time.wall

def saturate (value : Int) : Duration := max Strconv.minInt (min Strconv.maxInt value)

def sub (time other : Time) : Duration :=
  match time.mono, other.mono with
  | some reading, some otherReading => saturate (reading - otherReading)
  | _, _ => saturate (time.wall - other.wall)

/-- Whole seconds since the Unix epoch. -/
def unix (time : Time) : Int := time.wall / second - 62135596800

theorem le_of_saturate_le {value bound : Int} (hbound : bound < Strconv.maxInt)
    (hvalue : saturate value ≤ bound) : value ≤ bound := by
  rcases min_le_iff.mp ((le_max_right _ _).trans hvalue) with hmax | hle
  · exact absurd hmax (not_le.mpr hbound)
  · exact hle

theorem sub_of_mono_none {time other : Time} (hmono : other.mono = none) :
    time.sub other = saturate (time.wall - other.wall) := by
  unfold sub
  cases time.mono <;> simp [hmono]

theorem le_saturate_iff {value bound : Int} (hbound : 0 < bound) :
    bound ≤ saturate value ↔ bound ≤ Strconv.maxInt ∧ bound ≤ value := by
  have hmin : ¬ bound ≤ Strconv.minInt := not_le.mpr (lt_trans (by decide) hbound)
  rw [saturate, le_max_iff, le_min_iff, or_iff_right hmin]

/-- Among readings of one clock, a distance is at most that of points further
apart. -/
theorem le_sub_trans {first second third : Time} {interval : Duration} (hinterval : 0 < interval)
    (hsecond : second.mono.isSome = first.mono.isSome)
    (hthird : third.mono.isSome = first.mono.isSome) (hbefore : interval ≤ second.sub first)
    (hafter : interval ≤ third.sub second) : interval ≤ third.sub first := by
  obtain ⟨wall, mono⟩ := first
  obtain ⟨secondWall, secondMono⟩ := second
  obtain ⟨thirdWall, thirdMono⟩ := third
  cases mono with
  | none =>
      rw [sub_of_mono_none rfl, le_saturate_iff hinterval] at hbefore ⊢
      have hnone : secondMono = none := by simpa using hsecond
      rw [sub_of_mono_none hnone, le_saturate_iff hinterval] at hafter
      exact ⟨hbefore.1, by linarith [hbefore.2, hafter.2]⟩
  | some reading =>
      obtain ⟨secondReading, rfl⟩ := Option.isSome_iff_exists.mp hsecond
      obtain ⟨thirdReading, rfl⟩ := Option.isSome_iff_exists.mp hthird
      simp only [sub, le_saturate_iff hinterval] at hbefore hafter ⊢
      exact ⟨hbefore.1, by linarith [hbefore.2, hafter.2]⟩

theorem after_of_mono_none {time other : Time} (hmono : time.mono = none) :
    time.after other = decide (other.wall < time.wall) := by
  unfold after
  simp [hmono]

end Time

end Go
