import CycleSched.Proofs.ExactOffsets
import CycleSched.Proofs.Enumeration

/-!
# Moving a sequence

`Sequence.shift` moves the start and both bounds of a sequence by an interval and keeps its
step, so its `k`-th point is `(start + d) + k·step`, where the image of the sequence under `d`
has `(start + k·step) + d`. When the step and the offset are exact the two agree. An integer
sequence moved by `m` steps holds exactly its numbers moved by `m`, while its start and bounds
move without leaving their words (`Sequence.holds_shift_iff`). A Gregorian sequence of whole
days and seconds moved by days and seconds holds exactly its points moved, while its points
stay well inside the words (`Sequence.points_shift_iff`).

Steps of months do not commute with offsets of days: the end of a month is clamped before the
offset in one and after it in the other. Read as `R3/P1M` from 31 January 2020, a sequence holds
31 January, 29 February and 31 March; moved back a day it holds 29 February, which none of its
points moved back a day is (`Proofs.monthly_shift_not_image`).
-/

namespace CycleSched.Point

/-- A point comes after another when the other comes before it. -/
theorem after_eq_before (p q : Point) : p.after q = q.before p := rfl

end CycleSched.Point

namespace CycleSched.Sequence

/-- The points of a sequence of any mode, as its words compute them: the `k`-th points from
`k = 0` on that are within its count and its upper bound and not before its lower bound. -/
def Points (s : Sequence) (q : Point) : Prop :=
  ∃ k : Int64, 0 ≤ k ∧ s.nth k = q ∧ s.inRange k q = true ∧ q.before s.lower = false

/-! ## Integer sequences -/

/-- An integer sequence whose start and bounds move by `m` steps without leaving their words. -/
structure ShiftsBy (s : Sequence) (m : Int64) : Prop where
  start_mode : s.start.mode = .integer
  lower_mode : s.lower.mode = .integer
  upper_mode : ∀ u ∈ s.upper, u.mode = .integer
  start_fits : -2 ^ 63 ≤ s.start.val.toInt + m.toInt ∧ s.start.val.toInt + m.toInt < 2 ^ 63
  lower_fits : -2 ^ 63 ≤ s.lower.val.toInt + m.toInt ∧ s.lower.val.toInt + m.toInt < 2 ^ 63
  upper_fits : ∀ u ∈ s.upper, -2 ^ 63 ≤ u.val.toInt + m.toInt ∧ u.val.toInt + m.toInt < 2 ^ 63

theorem toInt_add_steps {p : Point} (hp : p.mode = .integer) {m : Int64}
    (h : -2 ^ 63 ≤ p.val.toInt + m.toInt ∧ p.val.toInt + m.toInt < 2 ^ 63) :
    (p.add (.steps m)).val.toInt = p.val.toInt + m.toInt := by
  rw [Point.add_of_integer hp]
  show (p.val + m).toInt = _
  exact Int64.toInt_add_of_fits (by omega) (by omega)

variable {s : Sequence} {m : Int64}

/-- Moving an integer sequence by `m` steps moves each of its numbers by `m`. -/
theorem holds_shift_iff (h : s.ShiftsBy m) (v : Int) :
    (s.shift (.steps m)).Holds v ↔ s.Holds (v - m.toInt) := by
  have hstart := toInt_add_steps h.start_mode h.start_fits
  have hlower := toInt_add_steps h.lower_mode h.lower_fits
  -- the upper bound, when there is one, moves by `m` as well
  have hupper : (∀ u ∈ s.upper.map (·.add (.steps m)), v ≤ u.val.toInt) ↔
      ∀ u ∈ s.upper, v - m.toInt ≤ u.val.toInt := by
    cases hu : s.upper with
    | none => simp
    | some u =>
      have := toInt_add_steps (h.upper_mode u hu) (h.upper_fits u hu)
      simp only [Option.map_some, Option.mem_def, Option.some.injEq, forall_eq', this]
      omega
  simp only [Holds, shift, hstart, hlower, hupper]
  refine and_congr (exists_congr fun k => and_congr_left fun _ => ?_) (and_congr_left fun _ => ?_)
  · omega
  · omega

theorem shift_steps_image (h : s.ShiftsBy m) (v : Int) :
    (s.shift (.steps m)).Holds v ↔ ∃ u, s.Holds u ∧ v = u + m.toInt := by
  rw [holds_shift_iff h]
  exact ⟨fun hv => ⟨_, hv, by omega⟩, fun ⟨u, hu, hv⟩ => by rwa [hv, Int.add_sub_cancel]⟩

/-! ## Gregorian sequences of days and seconds -/

/-- A Gregorian sequence stepping by `c` days and `e` seconds, with a count, whose points and
bounds stay well inside the words: its start within `2^60` seconds of the epoch, its bounds
within `2^61`, and its steps over the whole count within `2^40` days and `2^32` seconds. -/
structure Exact (s : Sequence) (c e : Int64) : Prop where
  start_mode : s.start.mode = .gregorian
  lower_mode : s.lower.mode = .gregorian
  upper_mode : ∀ u ∈ s.upper, u.mode = .gregorian
  step : s.step = .calendar 0 0 c e
  count_pos : 0 < s.count.toInt
  days : 0 ≤ c.toInt ∧ c.toInt * s.count.toInt ≤ 2 ^ 40
  secs : 0 ≤ e.toInt ∧ e.toInt * s.count.toInt ≤ 2 ^ 32
  start : -2 ^ 60 ≤ s.start.val.toInt ∧ s.start.val.toInt ≤ 2 ^ 60
  lower : -2 ^ 61 ≤ s.lower.val.toInt ∧ s.lower.val.toInt ≤ 2 ^ 61
  upper : ∀ u ∈ s.upper, -2 ^ 61 ≤ u.val.toInt ∧ u.val.toInt ≤ 2 ^ 61

/-- A step of at most `n` over a whole count, taken `k` times for an index below the count, is
at most `n` in words too. -/
theorem mul_index_toInt {x k cnt : Int64} {n : Int} (hx : 0 ≤ x.toInt)
    (hxn : x.toInt * cnt.toInt ≤ n) (hn : n ≤ 2 ^ 62) (hk₀ : 0 ≤ k.toInt)
    (hk : k.toInt < cnt.toInt) :
    (x * k).toInt = x.toInt * k.toInt ∧ 0 ≤ (x * k).toInt ∧ (x * k).toInt ≤ n := by
  have h₁ : 0 ≤ x.toInt * k.toInt := Int.mul_nonneg hx hk₀
  have h₂ : x.toInt * k.toInt ≤ x.toInt * cnt.toInt := Int.mul_le_mul_of_nonneg_left (by omega) hx
  have hw : (x * k).toInt = x.toInt * k.toInt := Int64.toInt_mul_of_fits (by omega) (by omega)
  exact ⟨hw, by omega, by omega⟩

/-- A Gregorian point within `2^61` seconds of the epoch moved by days and seconds, in words and
as a number. -/
theorem add_exact {x : Point} (hx : x.mode = .gregorian)
    (hxv : -2 ^ 61 ≤ x.val.toInt ∧ x.val.toInt ≤ 2 ^ 61) {a b : Int64}
    (ha : -2 ^ 40 ≤ a.toInt ∧ a.toInt ≤ 2 ^ 40) (hb : -2 ^ 32 ≤ b.toInt ∧ b.toInt ≤ 2 ^ 32) :
    x.add (.calendar 0 0 a b) = ⟨.gregorian, x.val + a * 86400 + b⟩ ∧
      (x.val + a * 86400 + b).toInt = x.val.toInt + 86400 * a.toInt + b.toInt :=
  ⟨Point.add_days_seconds hx a b ⟨by omega, by omega⟩ ⟨by omega, by omega⟩,
    Point.toInt_add_days_seconds ⟨by omega, by omega⟩⟩

/-- Moving two Gregorian points by the same days and seconds keeps their order. -/
theorem before_add_exact {x y : Point} (hx : x.mode = .gregorian) (hy : y.mode = .gregorian)
    (hxv : -2 ^ 61 ≤ x.val.toInt ∧ x.val.toInt ≤ 2 ^ 61)
    (hyv : -2 ^ 61 ≤ y.val.toInt ∧ y.val.toInt ≤ 2 ^ 61) {a b : Int64}
    (ha : -2 ^ 40 ≤ a.toInt ∧ a.toInt ≤ 2 ^ 40) (hb : -2 ^ 32 ≤ b.toInt ∧ b.toInt ≤ 2 ^ 32) :
    (x.add (.calendar 0 0 a b)).before (y.add (.calendar 0 0 a b)) = x.before y := by
  obtain ⟨hx', hxw⟩ := add_exact hx hxv ha hb
  obtain ⟨hy', hyw⟩ := add_exact hy hyv ha hb
  rw [hx', hy']
  exact decide_eq_decide.2 (by rw [Int64.lt_iff_toInt_lt, Int64.lt_iff_toInt_lt, hxw, hyw]; omega)

/-- The `k`-th point of a Gregorian sequence of `c` days and `e` seconds is its start moved by
`c·k` days and `e·k` seconds, while those stay within `2^40` days and `2^32` seconds and the
start within `2^61` seconds of the epoch. -/
theorem nth_days_secs {s : Sequence} {c e k : Int64} (hmode : s.start.mode = .gregorian)
    (hstart : -2 ^ 61 ≤ s.start.val.toInt ∧ s.start.val.toInt ≤ 2 ^ 61)
    (hstep : s.step = .calendar 0 0 c e) (hc : 0 ≤ (c * k).toInt ∧ (c * k).toInt ≤ 2 ^ 40)
    (he : 0 ≤ (e * k).toInt ∧ (e * k).toInt ≤ 2 ^ 32) :
    s.nth k = ⟨.gregorian, s.start.val + c * k * 86400 + e * k⟩ := by
  unfold nth
  split
  · next hk =>
    obtain rfl : k = 0 := by simpa using hk
    rw [← hmode]
    simp
  · rw [hstep]
    simp only [Interval.scale, Int64.zero_mul]
    exact (add_exact hmode hstart ⟨by omega, by omega⟩ ⟨by omega, by omega⟩).1

variable {c e : Int64}

/-- The index of a point in range is below the count, when there is one. -/
theorem index_lt (hc : 0 < s.count.toInt) {k : Int64} {p : Point} (hr : s.inRange k p = true) :
    k.toInt < s.count.toInt :=
  (inRange_iff.1 hr).1 hc

/-- The `k`-th point of an exact sequence, for an index below its count, lies within `2^61`
seconds of the epoch, and moving the sequence by days and seconds moves it by them. -/
theorem nth_shift_exact (h : s.Exact c e) {a b : Int64} (ha : -2 ^ 40 ≤ a.toInt ∧ a.toInt ≤ 2 ^ 40)
    (hb : -2 ^ 32 ≤ b.toInt ∧ b.toInt ≤ 2 ^ 32) {k : Int64} (hk₀ : 0 ≤ k.toInt)
    (hk : k.toInt < s.count.toInt) :
    (s.nth k).mode = .gregorian ∧
      (-2 ^ 61 ≤ (s.nth k).val.toInt ∧ (s.nth k).val.toInt ≤ 2 ^ 61) ∧
      (s.shift (.calendar 0 0 a b)).nth k = (s.nth k).add (.calendar 0 0 a b) := by
  obtain ⟨hcw, hc₀, hc₁⟩ := mul_index_toInt h.days.1 h.days.2 (by omega) hk₀ hk
  obtain ⟨hew, he₀, he₁⟩ := mul_index_toInt h.secs.1 h.secs.2 (by omega) hk₀ hk
  have hstart := h.start
  have hnth := nth_days_secs h.start_mode ⟨by omega, by omega⟩ h.step ⟨hc₀, hc₁⟩ ⟨he₀, he₁⟩
  have hval : (s.start.val + c * k * 86400 + e * k).toInt =
      s.start.val.toInt + 86400 * (c * k).toInt + (e * k).toInt :=
    Point.toInt_add_days_seconds ⟨by omega, by omega⟩
  -- the moved start, from which the moved sequence counts its points
  obtain ⟨hmoved, hmw⟩ := add_exact h.start_mode ⟨by omega, by omega⟩ ha hb
  have hshift : (s.shift (.calendar 0 0 a b)).nth k =
      ⟨.gregorian, s.start.val + a * 86400 + b + c * k * 86400 + e * k⟩ := by
    rw [nth_days_secs (s := s.shift _) (by simp [shift, hmoved])
      (by simp only [shift, hmoved]; omega) h.step ⟨hc₀, hc₁⟩ ⟨he₀, he₁⟩]
    simp only [shift, hmoved]
  rw [hnth, hshift, (add_exact rfl (by rw [hval]; omega) ha hb).1]
  refine ⟨rfl, by rw [hval]; omega, ?_⟩
  rw [Point.mk.injEq]
  exact ⟨rfl, by grind⟩

/-- A point within `2^61` seconds of the epoch moved by days and seconds is in range of the
moved sequence exactly when the point is in range of the sequence. -/
theorem inRange_shift_exact (h : s.Exact c e) {a b : Int64}
    (ha : -2 ^ 40 ≤ a.toInt ∧ a.toInt ≤ 2 ^ 40) (hb : -2 ^ 32 ≤ b.toInt ∧ b.toInt ≤ 2 ^ 32)
    {p : Point} (hp : p.mode = .gregorian) (hpv : -2 ^ 61 ≤ p.val.toInt ∧ p.val.toInt ≤ 2 ^ 61)
    (k : Int64) :
    (s.shift (.calendar 0 0 a b)).inRange k (p.add (.calendar 0 0 a b)) = s.inRange k p := by
  -- the upper bound, when there is one, moves with the point
  have hupper : (s.upper.map (·.add (.calendar 0 0 a b))).any (p.add (.calendar 0 0 a b)).after =
      s.upper.any p.after := by
    cases hu : s.upper with
    | none => simp only [Option.map_none, Option.any_none]
    | some u =>
      simp only [Option.map_some, Option.any_some, Point.after_eq_before]
      exact before_add_exact (h.upper_mode u hu) hp (h.upper u hu) hpv ha hb
  unfold inRange
  congr 2

/-- Moving a Gregorian sequence of days and seconds by days and seconds moves each of its points
by them, while its points and bounds stay well inside the words. -/
theorem points_shift_iff (h : s.Exact c e) {a b : Int64}
    (ha : -2 ^ 40 ≤ a.toInt ∧ a.toInt ≤ 2 ^ 40) (hb : -2 ^ 32 ≤ b.toInt ∧ b.toInt ≤ 2 ^ 32)
    (q : Point) :
    (s.shift (.calendar 0 0 a b)).Points q ↔
      ∃ p, s.Points p ∧ p.add (.calendar 0 0 a b) = q := by
  constructor
  · rintro ⟨k, hk₀, rfl, hrange, hlow⟩
    have hk := index_lt (s := s.shift _) h.count_pos hrange
    obtain ⟨hmode, hbound, hnth⟩ := nth_shift_exact h ha hb (Int64.le_iff_toInt_le.1 hk₀) hk
    rw [hnth] at hrange hlow ⊢
    refine ⟨s.nth k, ⟨k, hk₀, rfl, ?_, ?_⟩, rfl⟩
    · rwa [inRange_shift_exact h ha hb hmode hbound] at hrange
    · rwa [shift, before_add_exact hmode h.lower_mode hbound h.lower ha hb] at hlow
  · rintro ⟨p, ⟨k, hk₀, rfl, hrange, hlow⟩, rfl⟩
    have hk := index_lt h.count_pos hrange
    obtain ⟨hmode, hbound, hnth⟩ := nth_shift_exact h ha hb (Int64.le_iff_toInt_le.1 hk₀) hk
    refine ⟨k, hk₀, hnth, ?_, ?_⟩
    · rwa [inRange_shift_exact h ha hb hmode hbound]
    · rwa [shift, before_add_exact hmode h.lower_mode hbound h.lower ha hb]

/-! ## Moving by exact offsets -/

/-- Moving a sequence by an exact offset moves its points by it. An integer sequence moved by
`m` steps holds exactly its numbers moved by `m`, while its start and bounds move without leaving
their words. A Gregorian sequence of `c` days and `e` seconds moved by `a` days and `b` seconds
holds exactly its points moved by them, while its points and bounds stay well inside the words. -/
theorem shift_moves_points (s : Sequence) (m a b c e : Int64) :
    (s.ShiftsBy m → ∀ v, (s.shift (.steps m)).Holds v ↔ ∃ u, s.Holds u ∧ v = u + m.toInt) ∧
    (s.Exact c e → (-2 ^ 40 ≤ a.toInt ∧ a.toInt ≤ 2 ^ 40) →
      (-2 ^ 32 ≤ b.toInt ∧ b.toInt ≤ 2 ^ 32) → ∀ q,
        (s.shift (.calendar 0 0 a b)).Points q ↔
          ∃ p, s.Points p ∧ p.add (.calendar 0 0 a b) = q) :=
  ⟨fun h => shift_steps_image h, fun h ha hb => points_shift_iff h ha hb⟩

/-- The three days from 2020-01-01 moved by a day and an hour hold 2020-01-02T01:00Z exactly when
a day of them moved by a day and an hour is that point. -/
theorem daily_shift_image :
    ((⟨"R3/P1D", ⟨.gregorian, 1577836800⟩, .calendar 0 0 1 0, 3, ⟨.gregorian, 1577836800⟩,
        none⟩ : Sequence).shift (.calendar 0 0 1 3600)).Points ⟨.gregorian, 1577926800⟩ ↔
      ∃ p, (⟨"R3/P1D", ⟨.gregorian, 1577836800⟩, .calendar 0 0 1 0, 3,
        ⟨.gregorian, 1577836800⟩, none⟩ : Sequence).Points p ∧
        p.add (.calendar 0 0 1 3600) = ⟨.gregorian, 1577926800⟩ :=
  (shift_moves_points _ 0 1 3600 1 0).2
    ⟨rfl, rfl, fun _ hu => (by cases hu), rfl, by decide, by decide, by decide, by decide,
      by decide, fun _ hu => (by cases hu)⟩
    (by decide) (by decide) _

end CycleSched.Sequence

namespace CycleSched.Proofs

/-- The Gregorian context from 31 January 2020 with no final point. -/
def fromMonthEnd : Context := ⟨.gregorian, ⟨.gregorian, 1580428800⟩, none⟩

/-- Read as `R3/P1M` from 31 January 2020 and moved back a day, a sequence holds 29 February
2020, its second point moved from 30 January; no point of the sequence itself, which are
31 January, 29 February and 31 March, lands there when moved back a day. -/
theorem monthly_shift_not_image :
    ¬ ∀ (ctx : Context) (raw : String) (s : Sequence), ctx.parseSequence raw = .ok s →
      ∀ (d : Interval) (q : Point), (s.shift d).Points q ↔ ∃ p, s.Points p ∧ p.add d = q := by
  intro h
  obtain ⟨s, hs, hfields⟩ := Except.exists_ok_of_any
    (by decide +kernel : ((fromMonthEnd.parseSequence "R3/P1M").toOption.any fun s =>
      s.start == ⟨.gregorian, 1580428800⟩ && s.step == .calendar 0 1 0 0 && s.count == 3 &&
        s.lower == ⟨.gregorian, 1580428800⟩ && s.upper == none) = true)
  simp only [Bool.and_eq_true, beq_iff_eq] at hfields
  obtain ⟨⟨⟨⟨hstart, hstep⟩, hcount⟩, hlower⟩, hupper⟩ := hfields
  have himage := (h fromMonthEnd _ s hs (.calendar 0 0 (-1) 0) ⟨.gregorian, 1582934400⟩).1
    ⟨1, by decide, by simp only [Sequence.nth, Sequence.shift, hstart, hstep]; decide,
      by simp only [Sequence.inRange, Sequence.shift, hcount, hupper]; decide,
      by simp only [Sequence.shift, hlower]; decide⟩
  obtain ⟨p, ⟨k, hk₀, rfl, hk, -⟩, hp⟩ := himage
  -- a point of the sequence has one of the indices `0`, `1` and `2`, below its count
  have hk' : k.toInt = 0 ∨ k.toInt = 1 ∨ k.toInt = 2 := by
    have h₀ := Int64.le_iff_toInt_le.1 hk₀
    have h₃ := Int64.lt_iff_toInt_lt.1 (by simpa [Sequence.inRange, hcount, hupper] using hk)
    have h3 : (3 : Int64).toInt = 3 := by decide
    rw [Int64.toInt_zero] at h₀
    omega
  rcases hk' with hk' | hk' | hk'
  · obtain rfl : k = 0 := Int64.toInt_inj.1 hk'
    exact absurd hp (by simp only [Sequence.nth, hstart, hstep]; decide)
  · obtain rfl : k = 1 := Int64.toInt_inj.1 hk'
    exact absurd hp (by simp only [Sequence.nth, hstart, hstep]; decide +kernel)
  · obtain rfl : k = 2 := Int64.toInt_inj.1 hk'
    exact absurd hp (by simp only [Sequence.nth, hstart, hstep]; decide +kernel)

end CycleSched.Proofs
