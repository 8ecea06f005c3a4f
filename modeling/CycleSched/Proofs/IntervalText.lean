import Mathlib.Algebra.Group.Int.Defs
import Mathlib.Tactic.Set
import Mathlib.Tactic.SplitIfs
import CycleSched.Proofs.FlowText
import CycleSched.Proofs.Instance
import CycleSched.Cycle.Interval

/-!
# Intervals read back from their written form

An interval is written with the sign once in front of all its components (`Interval.toText`),
so a Gregorian interval reads back as itself exactly when its components share a sign. Every
interval that is read is an integer interval of a word other than the least, or a Gregorian
interval whose years, months and days are counts of digits; the seconds and the days of weeks
are sums and products in words that may wrap. So every integer interval reads back, and every
Gregorian interval whose components share a sign (`Interval.toText_reads_back`), but one read
as a day and `2^63 - 1` hours has seconds that wrap to `-3600`, is written `-P-1DT1H`, and is not
read back (`Proofs.wrapped_hours_unreadable`).
-/

namespace CycleSched

theorem Int64.toInt_neg_of_gt {y : Int64} (h : -2 ^ 63 < y.toInt) : (-y).toInt = -y.toInt := by
  have := Int64.toInt_lt y
  rw [Int64.toInt_neg]
  exact Int.bmod_eq_of_le_mul_two (by omega) (by omega)

namespace Text

/-- A list with no blank character is its own trim. -/
theorem dropWhile_isBlank {l : List Char} (h : ∀ c ∈ l, isBlank c = false) :
    l.dropWhile isBlank = l := by
  cases l with
  | nil => rfl
  | cons c cs => exact List.dropWhile_cons_of_neg (by simp [h c List.mem_cons_self])

/-- A text with no blank character is its own trim. -/
theorem trimBlank_of_plain {s : String} (h : ∀ c ∈ s.toList, isBlank c = false) :
    trimBlank s = s := by
  unfold trimBlank
  rw [dropWhile_isBlank h, dropWhile_isBlank (fun c hc => h c (List.mem_reverse.1 hc)),
    List.reverse_reverse, String.ofList_toList]

/-- Digits and the letters of written intervals are not blank. -/
theorem isBlank_of_written {c : Char}
    (h : c.isDigit = true ∨ c ∈ ['P', 'Y', 'M', 'D', 'T', 'H', 'S', '-']) : isBlank c = false := by
  rcases h with h | h
  · simp only [Char.isDigit, Bool.and_eq_true, decide_eq_true_eq] at h
    have h₁ : 48 ≤ c.toNat := h.1
    have h₂ : c.toNat ≤ 57 := h.2
    simp only [isBlank, Bool.or_eq_false_iff, Bool.and_eq_false_iff, decide_eq_false_iff_not,
      beq_eq_false_iff_ne]
    omega
  · simp only [List.mem_cons, List.not_mem_nil, or_false] at h
    rcases h with rfl | rfl | rfl | rfl | rfl | rfl | rfl | rfl <;> rfl

/-- A text ends in `pat` when the characters of `pat` end its characters. -/
theorem endsWith_iff {s pat : String} : s.endsWith pat = true ↔ pat.toList <:+ s.toList := by
  rw [String.endsWith, String.Slice.endsWith_string_eq_endsWith_toSlice,
    String.Slice.endsWith_slice_iff]
  simp

/-- A non-empty run of digits reads as its value. -/
theorem readInt?_digits {ds : List Char} (hall : ds.all Char.isDigit = true) (hne : ds ≠ []) :
    readInt? (String.ofList ds) = some ((digitsValue ds : Nat) : Int) := by
  obtain ⟨c, cs, rfl⟩ := List.exists_cons_of_ne_nil hne
  have hc : c.isDigit = true := (List.all_eq_true.1 hall) c List.mem_cons_self
  have hplus : c ≠ '+' := by rintro rfl; cases hc
  have hminus : c ≠ '-' := by rintro rfl; cases hc
  unfold readInt?
  rw [String.toList_ofList]
  dsimp only
  split
  · next h => exact absurd (List.cons.inj h).1 hplus
  · next h => exact absurd (List.cons.inj h).1 hminus
  · simp only [List.isEmpty_cons, hall, Bool.not_true, Bool.or_self, Bool.false_eq_true,
      if_false]

/-- A non-empty run of digits reads as a word at least zero. -/
theorem readDecimal_digits_nonneg {ds : List Char} (hall : ds.all Char.isDigit = true)
    (hne : ds ≠ []) : 0 ≤ (readDecimal (String.ofList ds)).value.toInt := by
  have hmin : Int64.minValue.toInt = -2 ^ 63 := by decide
  have hmax : Int64.maxValue.toInt = 2 ^ 63 - 1 := by decide
  unfold readDecimal
  rw [readInt?_digits hall hne]
  dsimp only
  split
  · omega
  · split
    · simp only [DecimalRead.value, hmax]
      omega
    · simp only [DecimalRead.value]
      rw [Int64.toInt_ofInt_of_le (by omega) (by omega)]
      omega

/-- Reading the decimal digits of a word at least zero gives the word. -/
theorem readDecimal_toDigits {n : Int64} (hn : 0 ≤ n.toInt) :
    (readDecimal (String.ofList (Nat.toDigits 10 n.toInt.toNat))).value = n := by
  have hall : (Nat.toDigits 10 n.toInt.toNat).all Char.isDigit = true :=
    List.all_eq_true.2 fun _ hx => Json.isDigit_of_mem_toDigits hx
  have hvalue : digitsValue (Nat.toDigits 10 n.toInt.toNat) = n.toInt.toNat :=
    Json.foldl_toDigits _
  have hmin : Int64.minValue.toInt = -2 ^ 63 := by decide
  have hmax : Int64.maxValue.toInt = 2 ^ 63 - 1 := by decide
  have hlt := Int64.toInt_lt n
  unfold readDecimal
  rw [readInt?_digits hall Nat.toDigits_ne_nil, hvalue, Int.toNat_of_nonneg hn]
  dsimp only
  rw [if_neg (by omega), if_neg (by omega)]
  exact Int64.ofInt_toInt n

end Text

namespace Interval

open Text

/-- The characters of a component `n` with its letter `c`, as `toText` writes a word at least
zero: none for zero. -/
def unitChars (n : Int64) (c : Char) : List Char :=
  if n = 0 then [] else Nat.toDigits 10 n.toInt.toNat ++ [c]

/-- The first character after the leading digits of a text, if any. -/
def nextLetter (cs : List Char) : Option Char := (cs.dropWhile Char.isDigit).head?

theorem nextLetter_nil : nextLetter [] = none := rfl

theorem wordText_toList {n : Int64} (hn : 0 ≤ n.toInt) :
    (wordText n).toList = Nat.toDigits 10 n.toInt.toNat := by
  obtain ⟨k, hk⟩ : ∃ k : Nat, n.toInt = k := ⟨n.toInt.toNat, (Int.toNat_of_nonneg hn).symm⟩
  show (toString n.toInt).toList = _
  rw [hk]
  simp [Int.repr, Nat.repr_eq_ofList_toDigits]

theorem unit_toList {n : Int64} (hn : 0 ≤ n.toInt) {c : Char} {u : String} (hu : u.toList = [c]) :
    (if n == 0 then "" else wordText n ++ u).toList = unitChars n c := by
  unfold unitChars
  by_cases h : n = 0
  · simp [h]
  · simp [h, wordText_toList hn, hu]

theorem spanDigits_unitChars {n : Int64} (h : n ≠ 0) {c : Char} (hc : c.isDigit = false)
    (rest : List Char) :
    spanDigits (unitChars n c ++ rest) = (Nat.toDigits 10 n.toInt.toNat, c :: rest) := by
  have hall : ∀ x ∈ Nat.toDigits 10 n.toInt.toNat, x.isDigit := fun x hx =>
    Json.isDigit_of_mem_toDigits hx
  simp only [unitChars, h, if_false, List.append_assoc, List.cons_append, List.nil_append,
    spanDigits]
  rw [List.takeWhile_append_of_pos hall, List.dropWhile_append_of_pos hall]
  simp [hc]

theorem nextLetter_unitChars {n : Int64} {c : Char} (hc : c.isDigit = false) (rest : List Char) :
    nextLetter (unitChars n c ++ rest) = if n = 0 then nextLetter rest else some c := by
  by_cases h : n = 0
  · simp [unitChars, h]
  · rw [if_neg h, nextLetter, show (unitChars n c ++ rest).dropWhile Char.isDigit =
      (spanDigits (unitChars n c ++ rest)).2 from rfl, spanDigits_unitChars h hc]
    rfl

/-- Reading the component `n` with its letter `c`, written for a word at least zero, before a
text whose next letter is not `c`: the word, and that text. -/
theorem component_unitChars {n : Int64} (hn : 0 ≤ n.toInt) {c : Char} (hc : c.isDigit = false)
    (rest : List Char) (hrest : nextLetter rest ≠ some c) :
    ((component c (unitChars n c ++ rest)).1.map digitsWord).getD 0 = n ∧
      (component c (unitChars n c ++ rest)).2 = rest := by
  by_cases h : n = 0
  · -- nothing is written, and the next letter is another component's
    simp only [unitChars, h, if_true, List.nil_append]
    unfold component spanDigits
    split
    · next ds l r heq =>
      have hl : l ≠ c := fun hl => hrest (by simp [nextLetter, (Prod.mk.inj heq).2, hl])
      simp [hl]
    · simp
  · obtain ⟨d, ds, hds⟩ : ∃ d ds, Nat.toDigits 10 n.toInt.toNat = d :: ds :=
      List.exists_cons_of_ne_nil Nat.toDigits_ne_nil
    unfold component
    rw [spanDigits_unitChars h hc, hds]
    simp only [if_true, Option.map_some, Option.getD_some, and_true]
    rw [← hds]
    exact readDecimal_toDigits hn

/-- The characters of a count of seconds at least zero, as `toText` writes them: none for zero,
else `T` and the hours, minutes and seconds. -/
def clockChars (s : Int64) : List Char :=
  if s = 0 then [] else
    'T' :: (unitChars (s / 3600) 'H' ++ (unitChars (s % 3600 / 60) 'M' ++ unitChars (s % 60) 'S'))

theorem nextLetter_clockChars (s : Int64) :
    nextLetter (clockChars s) = if s = 0 then none else some 'T' := by
  unfold clockChars
  split <;> rfl

/-- Seconds at least zero split into hours, minutes and seconds, each at least zero, and put back
together. -/
theorem clock_split {s : Int64} (hs : 0 ≤ s.toInt) :
    0 ≤ (s / 3600).toInt ∧ 0 ≤ (s % 3600 / 60).toInt ∧ 0 ≤ (s % 60).toInt ∧
      s / 3600 * 3600 + s % 3600 / 60 * 60 + s % 60 = s := by
  have h3600 : (3600 : Int64).toInt = 3600 := by decide
  have h60 : (60 : Int64).toInt = 60 := by decide
  have hq : (s / 3600).toInt = s.toInt / 3600 := by
    rw [Int64.toInt_div_of_ne_right _ _ (by decide), h3600, Int.tdiv_eq_ediv_of_nonneg hs]
  have hr : (s % 3600).toInt = s.toInt % 3600 := by
    rw [Int64.toInt_mod, h3600, Int.tmod_eq_emod_of_nonneg hs]
  have hmq : (s % 3600 / 60).toInt = s.toInt % 3600 / 60 := by
    rw [Int64.toInt_div_of_ne_right _ _ (by decide), hr, h60,
      Int.tdiv_eq_ediv_of_nonneg (by omega)]
  have hr60 : (s % 60).toInt = s.toInt % 60 := by
    rw [Int64.toInt_mod, h60, Int.tmod_eq_emod_of_nonneg hs]
  refine ⟨by rw [hq]; omega, by rw [hmq]; omega, by rw [hr60]; omega, ?_⟩
  -- the hours, minutes and seconds put back, as numbers
  have hword : s / 3600 * 3600 + s % 3600 / 60 * 60 + s % 60 = Int64.ofInt
      ((s / 3600).toInt * 3600 + (s % 3600 / 60).toInt * 60 + (s % 60).toInt) := by
    simp only [Int64.ofInt_add, Int64.ofInt_mul, Int64.ofInt_toInt]
    grind
  rw [hword, hq, hmq, hr60,
    show s.toInt / 3600 * 3600 + s.toInt % 3600 / 60 * 60 + s.toInt % 60 = s.toInt by omega,
    Int64.ofInt_toInt]

/-- The body of a Gregorian interval written from components at least zero reads back as the
interval. -/
theorem calendarBody_chars {y m d s : Int64} (hy : 0 ≤ y.toInt) (hm : 0 ≤ m.toInt)
    (hd : 0 ≤ d.toInt) (hs : 0 ≤ s.toInt) :
    calendarBody (unitChars y 'Y' ++ (unitChars m 'M' ++ (unitChars d 'D' ++ clockChars s))) =
      some (calendar y m d s) := by
  have hT := nextLetter_clockChars s
  have hD := nextLetter_unitChars (n := d) (c := 'D') (by decide) (clockChars s)
  have hM := nextLetter_unitChars (n := m) (c := 'M') (by decide) (unitChars d 'D' ++ clockChars s)
  have hY := nextLetter_unitChars (n := y) (c := 'Y') (by decide)
    (unitChars m 'M' ++ (unitChars d 'D' ++ clockChars s))
  obtain ⟨hwy, hry⟩ := component_unitChars hy (c := 'Y') (by decide)
    (unitChars m 'M' ++ (unitChars d 'D' ++ clockChars s))
    (by rw [hM, hD, hT]; split_ifs <;> simp)
  obtain ⟨hwm, hrm⟩ := component_unitChars hm (c := 'M') (by decide)
    (unitChars d 'D' ++ clockChars s) (by rw [hD, hT]; split_ifs <;> simp)
  obtain ⟨hwd, hrd⟩ := component_unitChars hd (c := 'D') (by decide)
    (clockChars s) (by rw [hT]; split_ifs <;> simp)
  unfold calendarBody
  split
  · -- no weeks: the letter after the leading digits is a year, month, day or time
    next ds heq =>
    have hW : nextLetter (unitChars y 'Y' ++ (unitChars m 'M' ++ (unitChars d 'D' ++
        clockChars s))) = some 'W' := by
      simp only [nextLetter]
      rw [show List.dropWhile Char.isDigit _ = _ from (Prod.mk.inj heq).2]
      rfl
    rw [hY, hM, hD, hT] at hW
    split_ifs at hW <;> simp at hW
  · dsimp only
    rw [hry, hrm, hrd, hwy, hwm, hwd]
    by_cases h0 : s = 0
    · simp only [clockChars, h0, if_true]
    · -- the time: hours, minutes and seconds, then nothing
      obtain ⟨hh, hmi, hse, hsum⟩ := clock_split hs
      have hS : nextLetter (unitChars (s % 60) 'S') = if s % 60 = 0 then none else some 'S' := by
        simpa only [List.append_nil, nextLetter_nil] using
          nextLetter_unitChars (n := s % 60) (c := 'S') (by decide) []
      have hMi := nextLetter_unitChars (n := s % 3600 / 60) (c := 'M') (by decide)
        (unitChars (s % 60) 'S')
      obtain ⟨hwh, hrh⟩ := component_unitChars hh (c := 'H') (by decide)
        (unitChars (s % 3600 / 60) 'M' ++ unitChars (s % 60) 'S')
        (by rw [hMi, hS]; split_ifs <;> simp)
      obtain ⟨hwmi, hrmi⟩ := component_unitChars hmi (c := 'M') (by decide)
        (unitChars (s % 60) 'S') (by rw [hS]; split_ifs <;> simp)
      obtain ⟨hwse, hrse⟩ := component_unitChars hse (c := 'S') (by decide) ([])
        (by simp [nextLetter_nil])
      rw [List.append_nil] at hwse hrse
      simp only [clockChars, h0, if_false]
      rw [hrh, hrmi, hrse, hwh, hwmi, hwse, hsum]
      rfl


/-- A Gregorian interval written from components at least zero: `P`, then its body. -/
theorem calendarText_toList {y m d s : Int64} (hy : 0 ≤ y.toInt) (hm : 0 ≤ m.toInt)
    (hd : 0 ≤ d.toInt) (hs : 0 ≤ s.toInt) :
    (calendarText y m d s).toList =
      'P' :: (unitChars y 'Y' ++ (unitChars m 'M' ++ (unitChars d 'D' ++ clockChars s))) := by
  obtain ⟨hh, hmi, hse, -⟩ := clock_split hs
  have hclock : (if s == 0 then "" else "T" ++ (if s / 3600 == 0 then "" else
      wordText (s / 3600) ++ "H") ++ (if s % 3600 / 60 == 0 then "" else
      wordText (s % 3600 / 60) ++ "M") ++ (if s % 60 == 0 then "" else
      wordText (s % 60) ++ "S")).toList = clockChars s := by
    unfold clockChars
    by_cases h0 : s = 0
    · simp [h0]
    · rw [if_neg (by simpa using h0), if_neg h0]
      simp only [String.toList_append, unit_toList hh (u := "H") (c := 'H') rfl,
        unit_toList hmi (u := "M") (c := 'M') rfl, unit_toList hse (u := "S") (c := 'S') rfl,
        List.append_assoc]
      rfl
  simp only [calendarText, String.toList_append, unit_toList hy (u := "Y") (c := 'Y') rfl,
    unit_toList hm (u := "M") (c := 'M') rfl, unit_toList hd (u := "D") (c := 'D') rfl, hclock,
    List.append_assoc]
  rfl

/-! ## Where a written Gregorian interval ends -/

/-- Every character of a written component is a digit or its letter. -/
theorem mem_unitChars {n : Int64} {c x : Char} (h : x ∈ unitChars n c) :
    x.isDigit = true ∨ x = c := by
  unfold unitChars at h
  split at h
  · cases h
  · rcases List.mem_append.1 h with h | h
    · exact .inl (Json.isDigit_of_mem_toDigits h)
    · exact .inr (List.mem_singleton.1 h)

theorem getLast?_unitChars (n : Int64) (c : Char) :
    (unitChars n c).getLast? = if n = 0 then none else some c := by
  unfold unitChars
  split <;> simp

theorem mem_clockChars {x : Char} {t : Int64} (h : x ∈ clockChars t) :
    x.isDigit = true ∨ x ∈ ['T', 'H', 'M', 'S'] := by
  unfold clockChars at h
  split at h
  · cases h
  · simp only [List.mem_cons, List.mem_append] at h
    rcases h with h | h | h | h
    · exact .inr (by simp [h])
    · rcases mem_unitChars h with h | h <;> simp [h]
    · rcases mem_unitChars h with h | h <;> simp [h]
    · rcases mem_unitChars h with h | h <;> simp [h]

/-- A written clock ends in the letter of its last component, when it is written at all. -/
theorem getLast?_clockChars {s : Int64} (hs : 0 ≤ s.toInt) (h0 : s ≠ 0) :
    ∃ c, (clockChars s).getLast? = some c ∧ (c = 'H' ∨ c = 'M' ∨ c = 'S') := by
  obtain ⟨-, -, -, hsum⟩ := clock_split hs
  -- some component of a clock that is not zero is written
  have hinner : (unitChars (s / 3600) 'H' ++ (unitChars (s % 3600 / 60) 'M' ++
      unitChars (s % 60) 'S')).getLast? ≠ none := by
    simp only [List.getLast?_append, getLast?_unitChars]
    intro h
    split_ifs at h with h₁ h₂ h₃ <;> simp at h
    rw [h₁, h₂, h₃] at hsum
    exact h0 (by rw [← hsum]; decide)
  obtain ⟨a, r, hr⟩ : ∃ a r, unitChars (s / 3600) 'H' ++ (unitChars (s % 3600 / 60) 'M' ++
      unitChars (s % 60) 'S') = a :: r := List.exists_cons_of_ne_nil (fun h => hinner (by simp [h]))
  have hlast : (clockChars s).getLast? = (a :: r).getLast? := by
    simp only [clockChars, h0, if_false, hr, List.getLast?_cons_cons]
  rw [hlast, ← hr]
  simp only [List.getLast?_append, getLast?_unitChars]
  simp only [List.getLast?_append, getLast?_unitChars] at hinner
  split_ifs at hinner ⊢ <;> simp_all

/-- The body of a written Gregorian interval that is not zero ends in a letter other than `P`
and `T`. -/
theorem getLast?_body {y m d s : Int64} (hs : 0 ≤ s.toInt)
    (hne : ¬(y = 0 ∧ m = 0 ∧ d = 0 ∧ s = 0)) :
    ∃ c, (unitChars y 'Y' ++ (unitChars m 'M' ++ (unitChars d 'D' ++ clockChars s))).getLast? =
      some c ∧ c ≠ 'P' ∧ c ≠ 'T' := by
  simp only [List.getLast?_append, getLast?_unitChars]
  by_cases h0 : s = 0
  · have hclock : (clockChars s).getLast? = none := by simp [clockChars, h0]
    rw [hclock]
    split_ifs <;> simp_all
  · obtain ⟨c, hc, hcl⟩ := getLast?_clockChars hs h0
    rw [hc]
    refine ⟨c, rfl, ?_⟩
    rcases hcl with rfl | rfl | rfl <;> decide

/-! ## Reading written intervals back -/

/-- A Gregorian interval with components at least zero, not all zero, is read back from its
written form, after a `-` as its negation. -/
theorem parse_calendarText {y m d s : Int64} (hy : 0 ≤ y.toInt) (hm : 0 ≤ m.toInt)
    (hd : 0 ≤ d.toInt) (hs : 0 ≤ s.toInt) (hne : ¬(y = 0 ∧ m = 0 ∧ d = 0 ∧ s = 0))
    (neg : Bool) :
    parse .gregorian ((if neg then "-" else "") ++ calendarText y m d s) =
      .ok (if neg then (calendar y m d s).neg else calendar y m d s) := by
  obtain ⟨c, hc, hcP, hcT⟩ := getLast?_body (y := y) (m := m) (d := d) hs hne
  set body := unitChars y 'Y' ++ (unitChars m 'M' ++ (unitChars d 'D' ++ clockChars s)) with hbody
  have htext : ((if neg then "-" else "") ++ calendarText y m d s).toList =
      (if neg then ['-'] else []) ++ 'P' :: body := by
    rw [String.toList_append, calendarText_toList hy hm hd hs]
    cases neg <;> rfl
  have hplain : ∀ c ∈ ((if neg then "-" else "") ++ calendarText y m d s).toList,
      isBlank c = false := by
    intro c hc
    rw [htext] at hc
    apply isBlank_of_written
    simp only [body, List.mem_append, List.mem_cons] at hc
    rcases hc with hc | hc | hc | hc | hc | hc
    · cases neg <;> simp_all
    · simp [hc]
    · rcases mem_unitChars hc with h | h <;> simp [h]
    · rcases mem_unitChars hc with h | h <;> simp [h]
    · rcases mem_unitChars hc with h | h <;> simp [h]
    · rcases mem_clockChars hc with h | h
      · simp [h]
      · simp only [List.mem_cons, List.not_mem_nil, or_false] at h
        rcases h with rfl | rfl | rfl | rfl <;> simp
  have hlast : ((if neg then "-" else "") ++ calendarText y m d s).toList.getLast? = some c := by
    rw [htext, List.getLast?_append]
    cases neg <;> simp [List.getLast?_cons, hc]
  have hends : ∀ t : Char, t ≠ c →
      ((if neg then "-" else "") ++ calendarText y m d s).endsWith (String.singleton t) = false := by
    intro t ht
    rw [Bool.eq_false_iff, ne_eq, endsWith_iff, String.toList_singleton,
      List.singleton_suffix_iff_getLast?_eq_some, hlast, Option.some.injEq]
    exact fun h => ht h.symm
  unfold parse
  dsimp only
  rw [trimBlank_of_plain hplain, if_neg (by
    rw [show "P" = String.singleton 'P' from rfl, show "T" = String.singleton 'T' from rfl,
      hends 'P' (Ne.symm hcP), hends 'T' (Ne.symm hcT)]
    decide), htext]
  have hread : calendarBody body = some (calendar y m d s) := by
    rw [hbody]
    exact calendarBody_chars hy hm hd hs
  cases neg
  · simp [signed, hread]
  · simp [signed, hread]

/-- The components of a Gregorian interval share a sign: all at least zero, or all at most zero
and none the least word, whose negation wraps. -/
def SameSign (y m d s : Int64) : Prop :=
  (0 ≤ y.toInt ∧ 0 ≤ m.toInt ∧ 0 ≤ d.toInt ∧ 0 ≤ s.toInt) ∨
    ((-2 ^ 63 < y.toInt ∧ y.toInt ≤ 0) ∧ (-2 ^ 63 < m.toInt ∧ m.toInt ≤ 0) ∧
      (-2 ^ 63 < d.toInt ∧ d.toInt ≤ 0) ∧ (-2 ^ 63 < s.toInt ∧ s.toInt ≤ 0))

/-- A Gregorian interval whose components share a sign is read back from its written form. -/
theorem parse_toText_calendar {y m d s : Int64} (h : SameSign y m d s) :
    parse .gregorian (calendar y m d s).toText = .ok (calendar y m d s) := by
  by_cases hz : y = 0 ∧ m = 0 ∧ d = 0 ∧ s = 0
  · -- the zero interval is written `P0D`
    obtain ⟨rfl, rfl, rfl, rfl⟩ := hz
    obtain ⟨e, he, hd⟩ := Except.exists_ok_of_any
      (by decide +kernel : ((parse .gregorian (calendar 0 0 0 0).toText).toOption.any
        fun e => e == calendar 0 0 0 0) = true)
    rw [he, beq_iff_eq.1 hd]
  have hzero : (calendar y m d s).isZero = false := by simpa [isZero] using hz
  have hz' : ¬(y.toInt = 0 ∧ m.toInt = 0 ∧ d.toInt = 0 ∧ s.toInt = 0) := by
    simpa only [← Int64.toInt_inj, Int64.toInt_zero] using hz
  simp only [toText, hzero, Bool.false_eq_true, if_false]
  rcases h with ⟨hy, hm, hd, hs⟩ | ⟨hy, hm, hd, hs⟩
  · have hneg : (calendar y m d s).isNegative = false := by
      simp only [isNegative, Bool.or_eq_false_iff, decide_eq_false_iff_not, Int64.lt_iff_toInt_lt,
        Int64.toInt_zero]
      omega
    rw [if_neg (by simp [hneg])]
    exact parse_calendarText hy hm hd hs hz false
  · -- written as `-` and the negated components, read back and negated again
    have hneg : (calendar y m d s).isNegative = true := by
      simp only [isNegative, Bool.or_eq_true, decide_eq_true_eq, Int64.lt_iff_toInt_lt,
        Int64.toInt_zero]
      omega
    rw [if_pos hneg]
    have h₁ := Int64.toInt_neg_of_gt hy.1
    have h₂ := Int64.toInt_neg_of_gt hm.1
    have h₃ := Int64.toInt_neg_of_gt hd.1
    have h₄ := Int64.toInt_neg_of_gt hs.1
    have hne : ¬(-y = 0 ∧ -m = 0 ∧ -d = 0 ∧ -s = 0) := by
      simp only [← Int64.toInt_inj, Int64.toInt_zero, h₁, h₂, h₃, h₄]
      omega
    have := parse_calendarText (by omega) (by omega) (by omega) (by omega) hne true
    simp only [if_true] at this
    rw [this]
    simp only [neg, scale, calendar.injEq, Except.ok.injEq]
    grind

/-- An integer interval of any word but the least is read back from its written form. -/
theorem parse_toText_steps {n : Int64} (hn : -2 ^ 63 < n.toInt) :
    parse .integer (steps n).toText = .ok (steps n) := by
  -- the written form is a sign, `P`, and the digits of the size `k`
  obtain ⟨neg, k, hk, htext, hnk⟩ : ∃ (neg : Bool) (k : Int64), 0 ≤ k.toInt ∧
      (steps n).toText.toList = (if neg then ['-'] else []) ++ 'P' :: Nat.toDigits 10 k.toInt.toNat ∧
      n = if neg then -k else k := by
    by_cases h : n < 0
    · have hlt := Int64.lt_iff_toInt_lt.1 h
      refine ⟨true, -n, by rw [Int64.toInt_neg_of_gt hn]; simp at hlt; omega, ?_, by simp⟩
      simp only [toText, h, if_true, String.toList_append]
      rw [wordText_toList (by rw [Int64.toInt_neg_of_gt hn]; simp at hlt; omega)]
      rfl
    · refine ⟨false, n, by simpa [Int64.lt_iff_toInt_lt] using h, ?_, by simp⟩
      simp only [toText, h, if_false, String.toList_append]
      rw [wordText_toList (by simpa [Int64.lt_iff_toInt_lt] using h)]
      rfl
  have hall : (Nat.toDigits 10 k.toInt.toNat).all Char.isDigit = true :=
    List.all_eq_true.2 fun _ hx => Json.isDigit_of_mem_toDigits hx
  have hplain : ∀ c ∈ (steps n).toText.toList, isBlank c = false := by
    intro c hc
    rw [htext] at hc
    apply isBlank_of_written
    simp only [List.mem_append, List.mem_cons] at hc
    rcases hc with hc | hc | hc
    · cases neg <;> simp_all
    · simp [hc]
    · exact .inl (Json.isDigit_of_mem_toDigits hc)
  obtain ⟨c, cs, hds⟩ := List.exists_cons_of_ne_nil (Nat.toDigits_ne_nil (n := k.toInt.toNat))
  unfold parse
  dsimp only
  rw [trimBlank_of_plain hplain, htext, hds]
  rw [hds] at hall
  have hword : digitsWord (c :: cs) = k := by
    rw [← hds]
    exact readDecimal_toDigits hk
  cases neg <;> simp [signed, hall, hword, hnk]

/-- An integer interval that is read is of a word other than the least. -/
theorem parse_integer_steps {t : String} {d : Interval} (h : parse .integer t = .ok d) :
    ∃ n : Int64, d = steps n ∧ -2 ^ 63 < n.toInt := by
  unfold parse at h
  dsimp only at h
  split at h
  · next neg c cs hsign =>
    split at h
    · next hall =>
      obtain rfl := (Except.ok.inj h).symm
      have hw := readDecimal_digits_nonneg hall (List.cons_ne_nil c cs)
      have hlt := Int64.toInt_lt (digitsWord (c :: cs))
      refine ⟨_, rfl, ?_⟩
      cases neg
      · have hw' : 0 ≤ (digitsWord (c :: cs)).toInt := hw
        simp only [Bool.false_eq_true, if_false]
        omega
      · have hw' : 0 ≤ (digitsWord (c :: cs)).toInt := hw
        simp only [if_true]
        rw [Int64.toInt_neg_of_gt (by omega)]
        omega
    · cases h
  · cases h

/-- The written form of an interval reads back as the interval: every integer interval that is
read, and every Gregorian interval whose components share a sign. -/
theorem toText_reads_back (t : String) (d : Interval) (y m dd s : Int64) :
    (parse .integer t = .ok d → parse .integer d.toText = .ok d) ∧
    (SameSign y m dd s → parse .gregorian (calendar y m dd s).toText = .ok (calendar y m dd s)) := by
  refine ⟨fun h => ?_, parse_toText_calendar⟩
  obtain ⟨n, rfl, hn⟩ := parse_integer_steps h
  exact parse_toText_steps hn

/-- A day and twelve hours, written `P1DT12H`, reads back. -/
theorem day_and_a_half_reads_back :
    parse .gregorian (calendar 0 0 1 43200).toText = .ok (calendar 0 0 1 43200) :=
  (toText_reads_back "" .zero 0 0 1 43200).2 (.inl ⟨by decide, by decide, by decide, by decide⟩)

end Interval

namespace Proofs

/-- A day and `2^63 - 1` hours are read as a day and `-3600` seconds, the hours' seconds wrapping
the word; that interval is written `-P-1DT1H`, which is not read. -/
theorem wrapped_hours_unreadable :
    ¬ ∀ (t : String) (d : Interval), Interval.parse .gregorian t = .ok d →
      Interval.parse .gregorian d.toText = .ok d := by
  intro h
  obtain ⟨d, hd, hval⟩ := Except.exists_ok_of_any
    (by decide +kernel : ((Interval.parse .gregorian "P1DT9223372036854775807H").toOption.any
      fun d => d == .calendar 0 0 1 (-3600)) = true)
  obtain rfl := beq_iff_eq.1 hval
  have hunread : (Interval.parse .gregorian (Interval.calendar 0 0 1 (-3600)).toText).toOption =
      none := by decide +kernel
  rw [h _ _ hd] at hunread
  cases hunread

end Proofs

end CycleSched
