import Mathlib.Algebra.Group.Int.Defs
import Mathlib.Order.Bounds.Basic
import Mathlib.Logic.Basic
import Mathlib.Tactic.Set
import CycleSched.Cycle.Sequence

/-!
# Integer recurrences enumerate their points

An integer sequence holds the numbers `start + k * n` for `k = 0, 1, …`, fewer than its count
when one is set, none below its lower bound and none above its upper bound (`Sequence.Holds`).
`Sequence.ceil` finds the first of them at or after a point by guessing the index with a
division and walking from the guess, all in words of 64 bits. While the start, the lower bound,
the step and the point asked about stay within `2^60` of zero (`Sequence.Tame`), the words
compute as the integers do and the guess is short by at most one step. Then `ceil` answers the
least number of the sequence at or after the point, or strictly after it when asked, and
nothing when there is none (`ceil_spec`); so `next` answers the least point after a point and
`contains` decides the points of the sequence.
-/

namespace CycleSched

/-! ## Words that compute as integers -/

theorem Int64.toInt_add_of_fits {a b : Int64} (h₁ : -9223372036854775808 ≤ a.toInt + b.toInt)
    (h₂ : a.toInt + b.toInt < 9223372036854775808) : (a + b).toInt = a.toInt + b.toInt := by
  rw [Int64.toInt_add]
  exact Int.bmod_eq_of_le_mul_two (by omega) (by omega)

theorem Int64.toInt_sub_of_fits {a b : Int64} (h₁ : -9223372036854775808 ≤ a.toInt - b.toInt)
    (h₂ : a.toInt - b.toInt < 9223372036854775808) : (a - b).toInt = a.toInt - b.toInt := by
  rw [Int64.toInt_sub]
  exact Int.bmod_eq_of_le_mul_two (by omega) (by omega)

theorem Int64.toInt_mul_of_fits {a b : Int64} (h₁ : -9223372036854775808 ≤ a.toInt * b.toInt)
    (h₂ : a.toInt * b.toInt < 9223372036854775808) : (a * b).toInt = a.toInt * b.toInt := by
  rw [Int64.toInt_mul]
  exact Int.bmod_eq_of_le_mul_two (by omega) (by omega)

/-! ## Modes -/

/-- Points of one mode and one value are one point. -/
theorem Point.ext {a b : Point} (hm : a.mode = b.mode) (hv : a.val = b.val) : a = b := by
  cases a
  cases b
  simp_all

theorem Point.addMonths_mode (p : Point) (years months : Int64) :
    (p.addMonths years months).mode = .gregorian := rfl

/-- Moving a point keeps its mode. -/
@[simp] theorem Point.add_mode (p : Point) (d : Interval) : (p.add d).mode = p.mode := by
  unfold Point.add
  split
  · next hm => exact hm.symm
  · next hm =>
    -- each of the months, days and seconds, when there are any, gives a Gregorian point
    dsimp only
    split <;> split <;> split <;>
      simp [Point.addMonths_mode, Point.addDays, Point.addSeconds, Point.ofInstant, hm]

theorem Point.parseIso_mode {s : String} {q : Point} (h : Point.parseIso s = .ok q) :
    q.mode = .gregorian := by
  unfold Point.parseIso at h
  split at h
  · cases h
  · dsimp only at h
    -- the zone offset is read first, then the fields are checked
    split at h
    · cases h
    · split at h
      · cases h
      · cases h
        rfl

/-- A point read in a mode is of that mode. -/
theorem Point.parse_mode {m : Mode} {text : String} {q : Point} (h : Point.parse m text = .ok q) :
    q.mode = m := by
  unfold Point.parse at h
  cases m with
  | integer =>
    dsimp only at h
    split at h
    · cases h
      rfl
    · cases h
  | gregorian => exact Point.parseIso_mode h

namespace Sequence

variable {s : Sequence} {p : Point}

@[simp] theorem mode_nth (s : Sequence) (k : Int64) : (s.nth k).mode = s.start.mode := by
  unfold nth
  split <;> simp [Point.add_mode]

/-- A point the search for a sequence's points answers is of the mode of the sequence's start:
the start itself, or a point of the recurrence. -/
theorem ceil_mode {q : Point} {strict : Bool} (h : s.ceil p strict = some q) :
    q.mode = s.start.mode := by
  unfold ceil at h
  -- where the search starts does not matter to the mode
  generalize (if s.lower.after p = true then (s.lower, false) else (p, strict)) = from_ at h
  obtain ⟨p, strict⟩ := from_
  dsimp only at h
  by_cases hz : s.step.isZero = true
  · rw [if_pos hz] at h
    rcases ite_eq_iff.1 h with ⟨-, h⟩ | ⟨-, h⟩
    · cases h
      rfl
    · cases h
  · rw [if_neg hz] at h
    rcases ite_eq_iff.1 h with ⟨-, h⟩ | ⟨-, h⟩
    · rw [← Option.some.inj h]
      exact mode_nth s _
    · exact absurd h (by simp)

/-- A point of a sequence is of the mode of its start. -/
theorem mode_of_contains (h : s.contains p = true) : p.mode = s.start.mode :=
  ceil_mode (eq_of_beq h)

/-- The numbers of an integer sequence: `start + k * n` for an index `k` below the count when
one is set, at or above the lower bound and at or below the upper bound. With a zero step the
start is the only one. -/
def Holds (s : Sequence) (v : Int) : Prop :=
  (∃ k : Nat, v = s.start.val.toInt + k * s.step.count.toInt ∧
    (0 < s.count.toInt → (k : Int) < s.count.toInt)) ∧
  s.lower.val.toInt ≤ v ∧ ∀ u ∈ s.upper, v ≤ u.val.toInt

/-- An integer sequence whose words compute as integers: its start and lower bound within
`2^60` of zero, and a step of `0` to `2^60`. -/
structure Tame (s : Sequence) : Prop where
  mode : s.start.mode = .integer
  steps : s.step = .steps s.step.count
  step_nonneg : 0 ≤ s.step.count.toInt
  step_le : s.step.count.toInt ≤ 2 ^ 60
  start_ge : -2 ^ 60 ≤ s.start.val.toInt
  start_le : s.start.val.toInt ≤ 2 ^ 60
  lower_le : s.lower.val.toInt ≤ 2 ^ 60

/-- The `k`-th point of an integer sequence, in words. -/
theorem nth_of_tame (hs : s.Tame) (k : Int64) :
    s.nth k = ⟨.integer, s.start.val + s.step.count * k⟩ := by
  unfold nth
  split
  next hk =>
    have : k = 0 := by simpa using hk
    subst this
    have hm := hs.mode
    cases hst : s.start with
    | mk m v =>
      rw [hst] at hm
      simp_all
  next =>
    rw [hs.steps]
    simp [Point.add, hs.mode, Interval.scale, Interval.count]

/-- The `k`-th point, for an index whose offset from the start stays within `2^62`. -/
theorem nth_toInt (hs : s.Tame) {k : Int64} (hk : 0 ≤ k.toInt)
    (hnk : s.step.count.toInt * k.toInt ≤ 2 ^ 62) :
    (s.nth k).val.toInt = s.start.val.toInt + s.step.count.toInt * k.toInt := by
  rw [nth_of_tame hs]
  have hpos : 0 ≤ s.step.count.toInt * k.toInt := Int.mul_nonneg hs.step_nonneg hk
  have hstart := hs.start_ge
  have hstart' := hs.start_le
  have hprod : (s.step.count * k).toInt = s.step.count.toInt * k.toInt :=
    Int64.toInt_mul_of_fits (by omega) (by omega)
  show (s.start.val + s.step.count * k).toInt = _
  rw [Int64.toInt_add_of_fits (by omega) (by omega), hprod]

theorem nth_mode (hs : s.Tame) (k : Int64) : (s.nth k).mode = .integer := by
  rw [nth_of_tame hs]

theorem inRange_iff {k : Int64} {q : Point} :
    s.inRange k q = true ↔ (0 < s.count.toInt → k.toInt < s.count.toInt) ∧
      ∀ u ∈ s.upper, q.val.toInt ≤ u.val.toInt := by
  have hcount : (s.count.toInt ≤ 0 ∨ k.toInt < s.count.toInt) ↔
      (0 < s.count.toInt → k.toInt < s.count.toInt) := by omega
  cases hu : s.upper <;>
    simp [inRange, hu, Point.after, Int64.lt_iff_toInt_lt, Int64.le_iff_toInt_le, hcount]

theorem walkDown_stay {ok : Point → Bool} {fuel : Nat} {k : Int64}
    (h : (k > 0 && ok (s.nth (k - 1))) = false) : s.walkDown ok (fuel + 1) k = k := by
  simp [walkDown, h]

theorem walkUp_found {ok : Point → Bool} {fuel : Nat} {k : Int64} (h : ok (s.nth k) = true) :
    s.walkUp ok (fuel + 1) k = k := by
  simp [walkUp, h]

theorem walkUp_next {ok : Point → Bool} {fuel : Nat} {k : Int64} (h : ok (s.nth k) = false) :
    s.walkUp ok (fuel + 1) k = s.walkUp ok fuel (k + 1) := by
  simp [walkUp, h]

theorem walkLimit_eq : walkLimit = 4194302 + 1 + 1 := rfl

/-- The guessed index of the first point at or after a point from the start on: the whole
steps between them. -/
theorem estimate_toInt (hs : s.Tame) (hn : 0 < s.step.count.toInt)
    (hsp : s.start.val.toInt ≤ p.val.toInt) (hp : p.val.toInt ≤ 2 ^ 60) :
    (s.estimate p).toInt = (p.val.toInt - s.start.val.toInt) / s.step.count.toInt := by
  have hstart := hs.start_ge
  have hsub : (p.val - s.start.val).toInt = p.val.toInt - s.start.val.toInt :=
    Int64.toInt_sub_of_fits (by omega) (by omega)
  have hne : s.step.count ≠ -1 := fun h => by
    rw [h] at hn
    exact absurd hn (by decide)
  have hdiv : ((p.val - s.start.val) / s.step.count).toInt =
      (p.val.toInt - s.start.val.toInt) / s.step.count.toInt := by
    rw [Int64.toInt_div_of_ne_right _ _ hne, hsub, Int.tdiv_eq_ediv_of_nonneg (by omega)]
  have hnonneg : 0 ≤ (p.val.toInt - s.start.val.toInt) / s.step.count.toInt :=
    Int.ediv_nonneg (by omega) (by omega)
  unfold estimate
  rw [hs.steps]
  dsimp only
  rw [if_neg (by rw [Int64.lt_iff_toInt_lt, hdiv]; simpa using hnonneg), hdiv]
  rfl

/-- The points up to one step past the guess, in integers: their offsets from the start stay
within `2^62`. -/
theorem nth_toInt_near (hs : s.Tame) (hn : 0 < s.step.count.toInt)
    (hsp : s.start.val.toInt ≤ p.val.toInt) (hp : p.val.toInt ≤ 2 ^ 60) {k : Int64}
    (hk₀ : 0 ≤ k.toInt) (hk₁ : k.toInt ≤ (s.estimate p).toInt + 1) :
    (s.nth k).val.toInt = s.start.val.toInt + s.step.count.toInt * k.toInt := by
  rw [estimate_toInt hs hn hsp hp] at hk₁
  set n := s.step.count.toInt
  set x := p.val.toInt - s.start.val.toInt
  have hstart : -2 ^ 60 ≤ s.start.val.toInt := hs.start_ge
  have hn₂ : n ≤ 2 ^ 60 := hs.step_le
  have hdecomp : n * (x / n) + x % n = x := Int.mul_ediv_add_emod x n
  have hmod₀ : 0 ≤ x % n := Int.emod_nonneg x (by omega)
  have hle : n * k.toInt ≤ n * (x / n + 1) := Int.mul_le_mul_of_nonneg_left hk₁ (by omega)
  rw [Int.mul_add, Int.mul_one] at hle
  exact nth_toInt hs hk₀ (show n * k.toInt ≤ 2 ^ 62 by omega)

/-- From the guess the walk down stays: the point a step before the guess is below any
threshold `thr` at or after the point asked about. -/
theorem walkDown_estimate (hs : s.Tame) (hn : 0 < s.step.count.toInt) {ok : Point → Bool}
    {thr : Int} (hok : ∀ q : Point, ok q = true ↔ thr ≤ q.val.toInt) (hthr : p.val.toInt ≤ thr)
    (hsp : s.start.val.toInt ≤ p.val.toInt) (hp : p.val.toInt ≤ 2 ^ 60) :
    s.walkDown ok walkLimit (s.estimate p) = s.estimate p := by
  have hstart : -2 ^ 60 ≤ s.start.val.toInt := hs.start_ge
  have hest := estimate_toInt hs hn hsp hp
  -- the whole steps up to the point come to at most its offset from the start
  have hle : s.step.count.toInt * (s.estimate p).toInt ≤ p.val.toInt - s.start.val.toInt := by
    rw [hest]
    exact Int.mul_ediv_self_le (by omega)
  have he₁ : (s.estimate p).toInt ≤ p.val.toInt - s.start.val.toInt := by
    rw [hest]
    exact Int.ediv_le_self _ (by omega)
  rw [walkLimit_eq]
  apply walkDown_stay
  cases hpos : decide (s.estimate p > 0) with
  | false => simp
  | true =>
    have he₀ : 0 < (s.estimate p).toInt := by simpa [Int64.lt_iff_toInt_lt] using hpos
    have hsub : (s.estimate p - 1).toInt = (s.estimate p).toInt - 1 := by
      rw [Int64.toInt_sub_of_fits] <;> rw [Int64.toInt_one] <;> omega
    have hnot : ok (s.nth (s.estimate p - 1)) = false := by
      cases hq : ok (s.nth (s.estimate p - 1)) with
      | false => rfl
      | true =>
        have := (hok _).1 hq
        rw [nth_toInt_near hs hn hsp hp (by omega) (by omega), hsub, Int.mul_sub,
          Int.mul_one] at this
        omega
    simp [hnot]

/-- From the guess the walk down stays and the walk up takes at most one step: the walks find
the least index whose point reaches the threshold `thr` that `ok` tests, when the start is below
it and the point asked about at most one below it. -/
theorem walk_index (hs : s.Tame) (hn : 0 < s.step.count.toInt) {ok : Point → Bool} {thr : Int}
    (hok : ∀ q : Point, ok q = true ↔ thr ≤ q.val.toInt) (hthr₁ : p.val.toInt ≤ thr)
    (hthr₂ : thr ≤ p.val.toInt + 1) (hst : s.start.val.toInt < thr) (hp : p.val.toInt ≤ 2 ^ 60) :
    ∃ K : Nat, (s.walkUp ok walkLimit (s.walkDown ok walkLimit (s.estimate p))).toInt = K ∧
      thr ≤ s.start.val.toInt + s.step.count.toInt * K ∧
      (∀ j : Nat, j < K → s.start.val.toInt + s.step.count.toInt * j < thr) ∧
      s.step.count.toInt * K ≤ 2 ^ 62 := by
  set a := s.start.val.toInt
  set n := s.step.count.toInt
  set x := p.val.toInt - a
  have hstart : -2 ^ 60 ≤ a := hs.start_ge
  have hn₂ : n ≤ 2 ^ 60 := hs.step_le
  have hsp : a ≤ p.val.toInt := by omega
  -- the whole steps `e` up to the point: `n * e ≤ x < n * e + n`
  set e := x / n
  have he₀ : 0 ≤ e := Int.ediv_nonneg (by omega) (by omega)
  have he₁ : e ≤ x := Int.ediv_le_self n (by omega)
  have hdecomp : n * e + x % n = x := Int.mul_ediv_add_emod x n
  have hmod₀ : 0 ≤ x % n := Int.emod_nonneg x (by omega)
  have hmod₁ : x % n < n := Int.emod_lt_of_pos x hn
  have hest : (s.estimate p).toInt = e := estimate_toInt hs hn hsp hp
  rw [walkDown_estimate hs hn hok hthr₁ hsp hp, walkLimit_eq]
  have hvale : (s.nth (s.estimate p)).val.toInt = a + n * e := by
    rw [nth_toInt_near hs hn hsp hp (by omega) (by omega), hest]
  by_cases hreach : thr ≤ a + n * e
  · -- the guess reaches the threshold
    refine ⟨e.toNat, ?_, ?_, ?_, ?_⟩
    · rw [walkUp_found ((hok _).2 (by rw [hvale]; exact hreach)), hest]
      omega
    · rw [Int.toNat_of_nonneg he₀]
      exact hreach
    · intro j hj
      have hj' : (j : Int) ≤ e - 1 := by omega
      have := Int.mul_le_mul_of_nonneg_left hj' (le_of_lt hn)
      rw [Int.mul_sub, Int.mul_one] at this
      omega
    · rw [Int.toNat_of_nonneg he₀]
      omega
  · -- one step more reaches it
    have hsucc : (s.estimate p + 1).toInt = e + 1 := by
      rw [Int64.toInt_add_of_fits] <;> rw [hest, Int64.toInt_one] <;> omega
    have hvals : (s.nth (s.estimate p + 1)).val.toInt = a + n * e + n := by
      rw [nth_toInt_near hs hn hsp hp (by omega) (by omega), hsucc, Int.mul_add, Int.mul_one,
        Int.add_assoc]
    have hmiss : ok (s.nth (s.estimate p)) = false := by
      cases hq : ok (s.nth (s.estimate p)) with
      | false => rfl
      | true =>
        have := (hok _).1 hq
        rw [hvale] at this
        exact absurd this hreach
    have hhit : ok (s.nth (s.estimate p + 1)) = true := by
      rw [hok, hvals]
      omega
    refine ⟨(e + 1).toNat, ?_, ?_, ?_, ?_⟩
    · rw [walkUp_next hmiss, walkUp_found hhit, hsucc]
      omega
    · rw [Int.toNat_of_nonneg (by omega), Int.mul_add, Int.mul_one]
      omega
    · intro j hj
      have hj' : (j : Int) ≤ e := by omega
      have := Int.mul_le_mul_of_nonneg_left hj' (le_of_lt hn)
      omega
    · rw [Int.toNat_of_nonneg (by omega), Int.mul_add, Int.mul_one]
      omega

theorem nth_zero : s.nth 0 = s.start := by
  simp [nth]

/-- The point at the least index that reaches `thr` is the least number of the sequence from
`thr` on when it is in range, and otherwise there is none. -/
theorem pick_spec (hs : s.Tame) {thr : Int} (hlow : s.lower.val.toInt ≤ thr) {k : Int64}
    {K : Nat} (hk : k.toInt = K) (hK : thr ≤ s.start.val.toInt + s.step.count.toInt * K)
    (hmin : ∀ j : Nat, j < K → s.start.val.toInt + s.step.count.toInt * j < thr)
    (hb : s.step.count.toInt * K ≤ 2 ^ 62) :
    (∃ q, (if s.inRange k (s.nth k) then some (s.nth k) else none) = some q ∧
        q.mode = .integer ∧ IsLeast {v | s.Holds v ∧ thr ≤ v} q.val.toInt) ∨
      ((if s.inRange k (s.nth k) then some (s.nth k) else none) = none ∧
        ∀ v, s.Holds v → v < thr) := by
  have hq : (s.nth k).val.toInt = s.start.val.toInt + s.step.count.toInt * K := by
    rw [nth_toInt hs (by omega) (by rw [hk]; exact hb), hk]
  -- a number of the sequence from `thr` on has an index of at least `K`
  have hindex : ∀ j : Nat, thr ≤ s.start.val.toInt + j * s.step.count.toInt → K ≤ j := by
    intro j hj
    by_contra hlt
    have := hmin j (by omega)
    rw [Int.mul_comm] at this
    omega
  have hmono : ∀ j : Nat, K ≤ j →
      s.step.count.toInt * K ≤ j * s.step.count.toInt := by
    intro j hj
    rw [Int.mul_comm (j : Int)]
    exact Int.mul_le_mul_of_nonneg_left (by omega) hs.step_nonneg
  by_cases hr : s.inRange k (s.nth k) = true
  · obtain ⟨hcount, hupper⟩ := inRange_iff.1 hr
    refine .inl ⟨_, if_pos hr, nth_mode hs k, ⟨⟨⟨K, ?_, ?_⟩, ?_, hupper⟩, ?_⟩, ?_⟩
    · rw [hq, Int.mul_comm]
    · intro hc
      have := hcount hc
      omega
    · omega
    · omega
    · rintro v ⟨⟨⟨j, rfl, -⟩, -, -⟩, hv⟩
      have := hmono j (hindex j hv)
      omega
  · refine .inr ⟨if_neg hr, fun v ⟨⟨j, hv, hcount⟩, _, hupper⟩ => ?_⟩
    by_contra hge
    have hj := hindex j (by omega)
    have hle := hmono j hj
    -- past its count or above the upper bound, as the point at `K` is
    apply hr
    refine inRange_iff.2 ⟨fun hc => ?_, fun u hu => ?_⟩
    · have := hcount hc
      omega
    · have := hupper u hu
      omega

/-- `ceil` looks from the lower bound instead when the point is below it. Either way it tests
points against one threshold, `thr` below, which from the lower bound on picks the same numbers
as the point asked about, plus one when `strict`. -/
theorem ceil_search (hs : s.Tame) (hp : p.val.toInt ≤ 2 ^ 60) (strict : Bool) :
    ∃ p' st, (if s.lower.after p then (s.lower, false) else (p, strict)) = (p', st) ∧
      p'.val.toInt ≤ 2 ^ 60 ∧ s.lower.val.toInt ≤ p'.val.toInt + (if st then 1 else 0) ∧
      (∀ v, s.Holds v → (p.val.toInt + (if strict then 1 else 0) ≤ v ↔
        p'.val.toInt + (if st then 1 else 0) ≤ v)) ∧
      ∀ q : Point, (if st = true then q.after p' else !q.before p') = true ↔
        p'.val.toInt + (if st then 1 else 0) ≤ q.val.toInt := by
  obtain ⟨p', st, hps⟩ : ∃ p' st,
      (if s.lower.after p then (s.lower, false) else (p, strict)) = (p', st) := ⟨_, _, rfl⟩
  have hlow₂ := hs.lower_le
  have hadj : (p.val.toInt < s.lower.val.toInt ∧ p' = s.lower ∧ st = false) ∨
      (s.lower.val.toInt ≤ p.val.toInt ∧ p' = p ∧ st = strict) := by
    by_cases hl : s.lower.after p = true
    · rw [if_pos hl, Prod.mk.injEq] at hps
      refine .inl ⟨?_, hps.1.symm, hps.2.symm⟩
      simpa [Point.after, Int64.lt_iff_toInt_lt] using hl
    · rw [if_neg hl, Prod.mk.injEq] at hps
      refine .inr ⟨?_, hps.1.symm, hps.2.symm⟩
      simpa [Point.after, Int64.lt_iff_toInt_lt] using hl
  have hstep : ∀ b : Bool, 0 ≤ (if b then (1 : Int) else 0) ∧ (if b then (1 : Int) else 0) ≤ 1 := by
    intro b
    cases b <;> simp
  have hthr₀ := hstep st
  have hthr₁ := hstep strict
  refine ⟨p', st, hps, ?_, ?_, fun v ⟨_, hv, _⟩ => ?_, fun q => ?_⟩
  · rcases hadj with ⟨-, rfl, -⟩ | ⟨-, rfl, -⟩ <;> omega
  · rcases hadj with ⟨-, rfl, -⟩ | ⟨h, rfl, -⟩ <;> omega
  · -- below the lower bound no number is asked about anyway
    rcases hadj with ⟨h, rfl, rfl⟩ | ⟨-, rfl, rfl⟩
    · simp only [Bool.false_eq_true, if_false, Int.add_zero]
      omega
    · exact Iff.rfl
  · cases st with
    | false => simp [Point.before, Int64.lt_iff_toInt_lt]
    | true =>
      simp only [Point.after, Int64.lt_iff_toInt_lt, if_true, decide_eq_true_eq]
      omega

/-- `ceil` answers the least number of an integer sequence at or after the point, strictly
after it when `strict`, and nothing when no number of the sequence gets there. -/
theorem ceil_spec (hs : s.Tame) (hp₂ : p.val.toInt ≤ 2 ^ 60) (strict : Bool) :
    (∃ q, s.ceil p strict = some q ∧ q.mode = .integer ∧
        IsLeast {v | s.Holds v ∧ p.val.toInt + (if strict then 1 else 0) ≤ v} q.val.toInt) ∨
      (s.ceil p strict = none ∧
        ∀ v, s.Holds v → v < p.val.toInt + (if strict then 1 else 0)) := by
  obtain ⟨p', st, hps, hp', hlow, hsame, hok⟩ := ceil_search hs hp₂ strict
  set thr := p'.val.toInt + (if st then 1 else 0)
  suffices key : (∃ q, s.ceil p strict = some q ∧ q.mode = .integer ∧
      IsLeast {v | s.Holds v ∧ thr ≤ v} q.val.toInt) ∨
      (s.ceil p strict = none ∧ ∀ v, s.Holds v → v < thr) by
    have hset : {v | s.Holds v ∧ p.val.toInt + (if strict then 1 else 0) ≤ v} =
        {v | s.Holds v ∧ thr ≤ v} :=
      Set.ext fun v => ⟨fun ⟨h, h'⟩ => ⟨h, (hsame v h).1 h'⟩, fun ⟨h, h'⟩ => ⟨h, (hsame v h).2 h'⟩⟩
    rw [hset]
    refine key.imp id fun ⟨hnone, hbelow⟩ => ⟨hnone, fun v hv => ?_⟩
    have := hbelow v hv
    by_contra hge
    exact absurd ((hsame v hv).1 (by omega)) (by omega)
  unfold ceil
  rw [hps]
  dsimp only
  by_cases hz : s.step.isZero = true
  · -- a zero step: the start is the only number
    have hn : s.step.count.toInt = 0 := by
      have := hs.steps
      rw [this] at hz
      have hz' : s.step.count = 0 := by simpa [Interval.isZero] using hz
      rw [hz', Int64.toInt_zero]
    rw [if_pos hz]
    by_cases h0 : (if st = true then s.start.after p' else !s.start.before p') = true
    · have hstart : thr ≤ s.start.val.toInt := (hok _).1 h0
      simp only [h0, Bool.true_and]
      have := pick_spec hs hlow (k := 0) (K := 0) (by simp) (by simpa using hstart)
        (fun j hj => absurd hj (Nat.not_lt_zero j)) (by simp)
      rwa [nth_zero] at this
    · rw [if_neg (by simp [h0])]
      refine .inr ⟨rfl, fun v ⟨⟨j, hv, _⟩, _, _⟩ => ?_⟩
      have : ¬ thr ≤ s.start.val.toInt := fun h => h0 ((hok _).2 h)
      rw [hv, hn, Int.mul_zero, Int.add_zero]
      omega
  · rw [if_neg hz]
    have hn : 0 < s.step.count.toInt := by
      have := hs.steps
      rw [this] at hz
      have hne : s.step.count.toInt ≠ 0 := fun h =>
        hz (by simp [Interval.isZero, ← Int64.toInt_inj, h])
      have := hs.step_nonneg
      omega
    by_cases h0 : (if st = true then s.start.after p' else !s.start.before p') = true
    · -- the start already reaches the threshold
      rw [if_pos h0]
      exact pick_spec hs hlow (K := 0) (by simp) (by simpa using (hok _).1 h0)
        (fun j hj => absurd hj (Nat.not_lt_zero j)) (by simp)
    · rw [if_neg h0]
      have hst : s.start.val.toInt < thr := by
        by_contra h
        exact h0 ((hok _).2 (by omega))
      obtain ⟨K, hk, hK, hmin, hb⟩ := walk_index hs hn hok (by simp only [thr]; split <;> omega)
        (by simp only [thr]; split <;> omega) hst hp'
      exact pick_spec hs hlow hk hK hmin hb

/-- Every number of a sequence lies at or after its start. -/
theorem start_le_of_holds (hs : s.Tame) {v : Int} (hv : s.Holds v) : s.start.val.toInt ≤ v := by
  obtain ⟨⟨k, rfl, -⟩, -, -⟩ := hv
  have := Int.mul_nonneg (Int.natCast_nonneg k) hs.step_nonneg
  omega

/-- `first` answers the least number of an integer sequence. -/
theorem first_spec (hs : s.Tame) :
    (∃ q, s.first = some q ∧ q.mode = .integer ∧ IsLeast {v | s.Holds v} q.val.toInt) ∨
      (s.first = none ∧ ∀ v, ¬ s.Holds v) := by
  have hset : {v | s.Holds v} =
      {v | s.Holds v ∧ s.start.val.toInt + (if false = true then 1 else 0) ≤ v} := by
    ext v
    simp only [Bool.false_eq_true, if_false, Int.add_zero]
    exact ⟨fun h => ⟨h, start_le_of_holds hs h⟩, fun h => h.1⟩
  rw [hset]
  refine (ceil_spec hs hs.start_le false).imp id
    fun ⟨hnone, hbelow⟩ => ⟨hnone, fun v hv => ?_⟩
  have := hbelow v hv
  have := start_le_of_holds hs hv
  simp only [Bool.false_eq_true, if_false, Int.add_zero] at *
  omega

end Sequence

end CycleSched
