import Mathlib

/-!
# Times

A time is its number of nanoseconds, and a duration is a 64-bit number of them.
-/

namespace Go

def timeSub (t u : Int) : Int := max (-(2 ^ 63)) (min (t - u) (2 ^ 63 - 1))

theorem le_sub_of_le_timeSub {d t u : Int} (h : d ≤ timeSub t u) (hle : u ≤ t) : d ≤ t - u := by
  unfold timeSub at h
  omega

theorem lt_sub_of_lt_timeSub {d t u : Int} (h : d < timeSub t u) (hd : 0 ≤ d) : d < t - u := by
  unfold timeSub at h
  omega

end Go
