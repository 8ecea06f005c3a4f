import CycleSched.Proofs.InstantDates

/-!
# Exact offsets act on points

An offset without years or months moves a point by a fixed amount: an integer point by its steps,
a Gregorian point by its days of 86400 seconds and then its seconds. For integer points the
offsets act as a group on the 64-bit words: two offsets in turn are their sum, an offset followed
by its negation returns, and a point moved by its distance to another reaches it
(`Point.add_steps_steps`, `Point.add_steps_neg`, `Point.add_sub_of_integer`).

A Gregorian point goes through the calendar: the days are added to its date and the instant is
rebuilt, which moves it by exactly `k` days in words whatever the point (`Point.addDays_eq`);
the seconds are added as a length in nanoseconds, which is exact while that length fits a word
and the count of seconds from year 1 stays within its word (`Point.addSeconds_eq`). Within those
bounds the same group laws hold (`Point.exact_offsets_act`). Past them they fail: a distance of
`10^10` seconds is `10^19` nanoseconds, which wraps the word (`Proofs.long_distance_wraps`).
-/

namespace CycleSched

/-- The steps of an interval pointing the other way. -/
@[simp] theorem Interval.count_neg (d : Interval) : d.neg.count = -d.count := by
  cases d <;> simp only [Interval.neg, Interval.scale, Interval.count] <;> grind

/-- An integer point moves by the steps of the interval. -/
theorem Point.add_of_integer {p : Point} (hp : p.mode = .integer) (d : Interval) :
    p.add d = ⟨.integer, p.val + d.count⟩ := by
  simp [Point.add, hp]

end CycleSched

namespace CycleSched.Point

/-! ## Days and seconds added to a point -/

/-- Days added to a point move it by whole days of 86400 seconds, in words, for every point and
every count of days. -/
theorem addDays_eq (p : Point) (k : Int64) : p.addDays k = ⟨.gregorian, p.val + k * 86400⟩ := by
  simp only [addDays, time, ofInstant, Instant.ofUnix]
  rw [Instant.addDate_days _ k (by simp)]
  simp only [Instant.unix, Point.mk.injEq, true_and]
  grind

/-- Seconds added to a point move it by those seconds while their nanoseconds fit a word and
its count of seconds from year 1 stays within its word. -/
theorem addSeconds_eq (p : Point) {s : Int64} (hs : -9223372036 ≤ s.toInt ∧ s.toInt ≤ 9223372036)
    (h₁ : -9223372036854775808 ≤ (p.val + Instant.epochOffset).toInt + s.toInt)
    (h₂ : (p.val + Instant.epochOffset).toInt + s.toInt < 9223372036854775808) :
    p.addSeconds s = ⟨.gregorian, p.val + s⟩ := by
  simp only [addSeconds, time, ofInstant, Instant.ofUnix]
  rw [Instant.add_whole_seconds ⟨p.val + Instant.epochOffset, 0⟩ rfl hs h₁ h₂]
  simp only [Instant.unix, Point.mk.injEq, true_and]
  grind

/-- Whole days, when there are any, added to a Gregorian point. -/
theorem addDays_of_ne {p : Point} (hp : p.mode = .gregorian) (k : Int64) :
    (if k != 0 then p.addDays k else p) = ⟨.gregorian, p.val + k * 86400⟩ := by
  split
  · exact addDays_eq p k
  · next h =>
    obtain rfl : k = 0 := by simpa using h
    cases p
    simp_all

/-- Whole seconds, when there are any, added to a Gregorian point, while they fit. -/
theorem addSeconds_of_ne {p : Point} (hp : p.mode = .gregorian) {s : Int64}
    (hs : -9223372036 ≤ s.toInt ∧ s.toInt ≤ 9223372036)
    (hfit : -2 ^ 62 ≤ p.val.toInt ∧ p.val.toInt ≤ 2 ^ 62) :
    (if s != 0 then p.addSeconds s else p) = ⟨.gregorian, p.val + s⟩ := by
  split
  · have hoff : (p.val + Instant.epochOffset).toInt = p.val.toInt + 62135596800 :=
      Int64.toInt_add_of_fits (by simp [Instant.epochOffset]; omega)
        (by simp [Instant.epochOffset]; omega)
    exact addSeconds_eq p hs (by omega) (by omega)
  · next h =>
    obtain rfl : s = 0 := by simpa using h
    cases p
    simp_all

/-- A Gregorian point moved by whole days and seconds: by the days in seconds, then the seconds,
while the seconds fit nanosecond words and the point moved by the days stays within `2^62`
seconds of the epoch. -/
theorem add_days_seconds {p : Point} (hp : p.mode = .gregorian) (a s : Int64)
    (hs : -9223372036 ≤ s.toInt ∧ s.toInt ≤ 9223372036)
    (ha : -2 ^ 62 ≤ p.val.toInt + 86400 * a.toInt ∧ p.val.toInt + 86400 * a.toInt ≤ 2 ^ 62) :
    p.add (.calendar 0 0 a s) = ⟨.gregorian, p.val + a * 86400 + s⟩ := by
  have hday : (p.val + a * 86400).toInt = p.val.toInt + 86400 * a.toInt := by
    have : p.val + a * 86400 = Int64.ofInt (p.val.toInt + 86400 * a.toInt) := by
      simp only [Int64.ofInt_add, Int64.ofInt_mul, Int64.ofInt_toInt]
      grind
    rw [this, Int64.toInt_ofInt_of_le (by omega) (by omega)]
  simp only [add, hp, Interval.parts, bne_self_eq_false, Bool.or_false, Bool.false_eq_true,
    if_false]
  rw [addDays_of_ne hp a, addSeconds_of_ne rfl hs (by rw [hday]; omega)]

/-! ## Laws of exact offsets -/

/-- Integer offsets compose: two offsets in turn are their sum, in words. -/
theorem add_steps_steps {p : Point} (hp : p.mode = .integer) (m n : Int64) :
    (p.add (.steps m)).add (.steps n) = p.add ((Interval.steps m).plus (.steps n)) := by
  rw [add_of_integer hp, add_of_integer rfl, add_of_integer hp]
  simp only [Interval.plus, Interval.count, Int64.add_assoc]

/-- An integer offset followed by its negation returns to the point. -/
theorem add_steps_neg {p : Point} (hp : p.mode = .integer) (m : Int64) :
    (p.add (.steps m)).add (Interval.steps m).neg = p := by
  rw [add_of_integer hp, add_of_integer rfl, Interval.count_neg]
  cases p
  simp only [Interval.count, Point.mk.injEq] at hp ⊢
  exact ⟨hp.symm, by grind⟩

/-- An integer point moved by its distance to another is the other. -/
theorem add_sub_of_integer {p q : Point} (hp : p.mode = .integer) (hq : q.mode = .integer) :
    p.add (q.sub p) = q := by
  rw [add_of_integer hp]
  cases q
  simp only [sub, Interval.count, Point.mk.injEq] at hq ⊢
  exact ⟨hq.symm, by grind⟩

/-- The word of a Gregorian point moved by days and seconds, as a number, while it stays within
`2^62` seconds of the epoch. -/
theorem toInt_add_days_seconds {v a s : Int64}
    (h : -2 ^ 62 ≤ v.toInt + 86400 * a.toInt + s.toInt ∧ v.toInt + 86400 * a.toInt + s.toInt ≤ 2 ^ 62) :
    (v + a * 86400 + s).toInt = v.toInt + 86400 * a.toInt + s.toInt := by
  have : v + a * 86400 + s = Int64.ofInt (v.toInt + 86400 * a.toInt + s.toInt) := by
    simp only [Int64.ofInt_add, Int64.ofInt_mul, Int64.ofInt_toInt]
    grind
  rw [this, Int64.toInt_ofInt_of_le (by omega) (by omega)]

/-- Gregorian offsets of days and seconds compose: two in turn are their sum, for a point within
`2^61` seconds of the epoch, days within `2^40` and seconds within `2^32`. -/
theorem add_days_seconds_twice {p : Point} (hp : p.mode = .gregorian)
    (hpv : -2 ^ 61 ≤ p.val.toInt ∧ p.val.toInt ≤ 2 ^ 61) {a b s t : Int64}
    (ha : -2 ^ 40 ≤ a.toInt ∧ a.toInt ≤ 2 ^ 40) (hb : -2 ^ 40 ≤ b.toInt ∧ b.toInt ≤ 2 ^ 40)
    (hs : -2 ^ 32 ≤ s.toInt ∧ s.toInt ≤ 2 ^ 32) (ht : -2 ^ 32 ≤ t.toInt ∧ t.toInt ≤ 2 ^ 32) :
    (p.add (.calendar 0 0 a s)).add (.calendar 0 0 b t) =
      p.add ((Interval.calendar 0 0 a s).plus (.calendar 0 0 b t)) := by
  have hab : (a + b).toInt = a.toInt + b.toInt := Int64.toInt_add_of_fits (by omega) (by omega)
  have hst : (s + t).toInt = s.toInt + t.toInt := Int64.toInt_add_of_fits (by omega) (by omega)
  have hq : (p.val + a * 86400 + s).toInt = p.val.toInt + 86400 * a.toInt + s.toInt :=
    toInt_add_days_seconds ⟨by omega, by omega⟩
  rw [add_days_seconds hp a s ⟨by omega, by omega⟩ ⟨by omega, by omega⟩,
    add_days_seconds rfl b t ⟨by omega, by omega⟩ (by rw [hq]; omega)]
  simp only [Interval.plus, Int64.add_zero]
  rw [add_days_seconds hp (a + b) (s + t) (by rw [hst]; omega) (by rw [hab]; omega),
    Point.mk.injEq]
  exact ⟨rfl, by grind⟩

/-- A Gregorian offset of days and seconds followed by its negation returns to the point, within
the same bounds. -/
theorem add_days_seconds_neg {p : Point} (hp : p.mode = .gregorian)
    (hpv : -2 ^ 61 ≤ p.val.toInt ∧ p.val.toInt ≤ 2 ^ 61) {a s : Int64}
    (ha : -2 ^ 40 ≤ a.toInt ∧ a.toInt ≤ 2 ^ 40) (hs : -2 ^ 32 ≤ s.toInt ∧ s.toInt ≤ 2 ^ 32) :
    (p.add (.calendar 0 0 a s)).add (Interval.calendar 0 0 a s).neg = p := by
  have hna : (a * -1).toInt = -a.toInt := by
    rw [Int64.toInt_mul_of_fits (by simp; omega) (by simp; omega)]
    simp
  have hns : (s * -1).toInt = -s.toInt := by
    rw [Int64.toInt_mul_of_fits (by simp; omega) (by simp; omega)]
    simp
  have hq : (p.val + a * 86400 + s).toInt = p.val.toInt + 86400 * a.toInt + s.toInt :=
    toInt_add_days_seconds ⟨by omega, by omega⟩
  rw [add_days_seconds hp a s ⟨by omega, by omega⟩ ⟨by omega, by omega⟩]
  simp only [Interval.neg, Interval.scale, Int64.zero_mul]
  rw [add_days_seconds rfl (a * -1) (s * -1) (by rw [hns]; omega) (by rw [hq, hna]; omega)]
  cases p
  simp only [Point.mk.injEq] at hp ⊢
  exact ⟨hp.symm, by grind⟩

/-- A Gregorian point moved by its distance in seconds to another is the other, while the distance
fits nanosecond words and both points lie within `2^61` seconds of the epoch. -/
theorem add_sub_of_gregorian {p q : Point} (hp : p.mode = .gregorian) (hq : q.mode = .gregorian)
    (hpv : -2 ^ 61 ≤ p.val.toInt ∧ p.val.toInt ≤ 2 ^ 61)
    (hqv : -2 ^ 61 ≤ q.val.toInt ∧ q.val.toInt ≤ 2 ^ 61)
    (hd : -9223372036 ≤ q.val.toInt - p.val.toInt ∧ q.val.toInt - p.val.toInt ≤ 9223372036) :
    p.add (q.sub p) = q := by
  have hsub : (q.val - p.val).toInt = q.val.toInt - p.val.toInt :=
    Int64.toInt_sub_of_fits (by omega) (by omega)
  simp only [sub, hq, Interval.seconds]
  rw [add_days_seconds hp 0 (q.val - p.val) (by rw [hsub]; omega) (by simp; omega)]
  cases q
  simp only [Point.mk.injEq] at hq ⊢
  exact ⟨hq.symm, by grind⟩

/-- Offsets without years or months act on points as a group: two in turn are their sum, one
followed by its negation returns to the point, and a point moved by its distance to another is
the other. On integer points this holds for every interval, in words. On Gregorian points it holds
for days and seconds while the point lies within `2^61` seconds of the epoch, the days within
`2^40` and the seconds within `2^32`, and for a distance within the `9223372036` seconds whose
nanoseconds fit a word. -/
theorem exact_offsets_act (p q : Point) (m n a b s t : Int64) :
    (p.mode = .integer →
      (p.add (.steps m)).add (.steps n) = p.add ((Interval.steps m).plus (.steps n)) ∧
      (p.add (.steps m)).add (Interval.steps m).neg = p ∧
      (q.mode = .integer → p.add (q.sub p) = q)) ∧
    (p.mode = .gregorian → (-2 ^ 61 ≤ p.val.toInt ∧ p.val.toInt ≤ 2 ^ 61) →
      (-2 ^ 40 ≤ a.toInt ∧ a.toInt ≤ 2 ^ 40) → (-2 ^ 40 ≤ b.toInt ∧ b.toInt ≤ 2 ^ 40) →
      (-2 ^ 32 ≤ s.toInt ∧ s.toInt ≤ 2 ^ 32) → (-2 ^ 32 ≤ t.toInt ∧ t.toInt ≤ 2 ^ 32) →
      (p.add (.calendar 0 0 a s)).add (.calendar 0 0 b t) =
        p.add ((Interval.calendar 0 0 a s).plus (.calendar 0 0 b t)) ∧
      (p.add (.calendar 0 0 a s)).add (Interval.calendar 0 0 a s).neg = p) ∧
    (p.mode = .gregorian → q.mode = .gregorian →
      (-2 ^ 61 ≤ p.val.toInt ∧ p.val.toInt ≤ 2 ^ 61) →
      (-2 ^ 61 ≤ q.val.toInt ∧ q.val.toInt ≤ 2 ^ 61) →
      (-9223372036 ≤ q.val.toInt - p.val.toInt ∧ q.val.toInt - p.val.toInt ≤ 9223372036) →
      p.add (q.sub p) = q) :=
  ⟨fun hp => ⟨add_steps_steps hp m n, add_steps_neg hp m, fun hq => add_sub_of_integer hp hq⟩,
    fun hp hpv ha hb hs ht =>
      ⟨add_days_seconds_twice hp hpv ha hb hs ht, add_days_seconds_neg hp hpv ha hs⟩,
    fun hp hq hpv hqv hd => add_sub_of_gregorian hp hq hpv hqv hd⟩

/-- From 2020-01-01T00:00Z, a day and an hour and then two days and a minute are three days and
61 minutes. -/
theorem new_year_offsets_compose :
    ((⟨.gregorian, 1577836800⟩ : Point).add (.calendar 0 0 1 3600)).add (.calendar 0 0 2 60) =
      (⟨.gregorian, 1577836800⟩ : Point).add
        ((Interval.calendar 0 0 1 3600).plus (.calendar 0 0 2 60)) :=
  ((exact_offsets_act ⟨.gregorian, 1577836800⟩ ⟨.gregorian, 0⟩ 0 0 1 2 3600 60).2.1 rfl
    (by decide) (by decide) (by decide) (by decide) (by decide)).1

end CycleSched.Point

namespace CycleSched.Proofs

/-- A Gregorian distance of `10^10` seconds, from 1970-01-01T00:00Z to 2286-11-20T17:46:40Z, does
not carry the first point to the second: its length in nanoseconds wraps the word, and the point
lands on 1702-05-02T18:12:06Z instead. -/
theorem long_distance_wraps :
    ¬ ∀ p q : Point, p.mode = .gregorian → q.mode = .gregorian → p.add (q.sub p) = q := by
  intro h
  have hland : (⟨.gregorian, 0⟩ : Point).add ((⟨.gregorian, 10000000000⟩ : Point).sub ⟨.gregorian, 0⟩) =
      ⟨.gregorian, -8446744074⟩ := by decide
  exact absurd ((h _ _ rfl rfl).symm.trans hland) (by decide)

end CycleSched.Proofs
