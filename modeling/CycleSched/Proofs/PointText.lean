import Mathlib.Tactic.Ring
import CycleSched.Proofs.IntervalText
import CycleSched.Proofs.InstantDates
import CycleSched.Cycle.Point

/-!
# Points read back from their written form

An integer point is written as the decimal of its value, which reads back as the value
(`Point.parse_toText_integer`). A Gregorian point is written `YYYYMMDDThhmmZ`, with the seconds
after the minutes when they are not zero, each field padded with zeros to its width
(`Point.toText_gregorian`). When the UTC year has four digits those characters are read in the
preferred way as exactly the fields they were written from (`Point.readIso_writtenChars`), which
are a real date and time of day, so the point reads back as itself
(`Point.parse_toText_of_year`). A year before 0 is written after a `-` and a year past 9999 with
more than four digits, and neither form is read (`Point.readIso_toText_of_year`): a Gregorian
point reads back exactly when its UTC year has four digits (`Point.parse_toText_gregorian_iff`).
A time zone offset can move a date-time read in year 0 into year -1, so a point that is read
need not read back (`Proofs.offset_year_unreadable`).
-/

namespace CycleSched

namespace Text

/-- The last `w` decimal digits of `n`, most significant first, with leading zeros. -/
def widthDigits : Nat → Nat → List Char
  | 0, _ => []
  | w + 1, n => widthDigits w (n / 10) ++ [Nat.digitChar (n % 10)]

theorem digitChar_toNat : ∀ k, k < 10 → (Nat.digitChar k).toNat = 48 + k := by decide

theorem isDigit_of_mem_widthDigits {w n : Nat} {c : Char} (h : c ∈ widthDigits w n) :
    c.isDigit = true := by
  induction w generalizing n with
  | zero => cases h
  | succ w ih =>
    simp only [widthDigits, List.mem_append, List.mem_singleton] at h
    rcases h with h | rfl
    · exact ih h
    · simp only [Nat.isDigit_digitChar, decide_eq_true_eq]
      omega

theorem length_widthDigits (w n : Nat) : (widthDigits w n).length = w := by
  induction w generalizing n with
  | zero => rfl
  | succ w ih => simp [widthDigits, ih]

theorem widthDigits_zero (w : Nat) : widthDigits w 0 = List.replicate w '0' := by
  induction w with
  | zero => rfl
  | succ w ih => simp [widthDigits, ih, List.replicate_succ']

/-- Reading the `w` digits of `n` on from a value `a` shifts `a` by `w` places and adds what of
`n` lies below `10 ^ w`. -/
theorem foldl_widthDigits (w n a : Nat) :
    (widthDigits w n).foldl (fun a c => a * 10 + (c.toNat - 48)) a = a * 10 ^ w + n % 10 ^ w := by
  induction w generalizing n with
  | zero => simp [widthDigits, Nat.mod_one]
  | succ w ih =>
    rw [widthDigits, List.foldl_append, ih, List.foldl_cons, List.foldl_nil,
      digitChar_toNat _ (Nat.mod_lt _ (by decide)), Nat.pow_succ', Nat.mod_mul]
    have : 48 + n % 10 - 48 = n % 10 := by omega
    rw [this]
    ring

/-- The decimal digits of a number below `10 ^ w`, after the zeros that pad them to `w`, are its
`w` digits. -/
theorem replicate_toDigits {w n : Nat} (hw : 0 < w) (h : n < 10 ^ w) :
    List.replicate (w - (Nat.toDigits 10 n).length) '0' ++ Nat.toDigits 10 n = widthDigits w n := by
  induction w generalizing n with
  | zero => cases hw
  | succ w ih =>
    by_cases hn : n < 10
    · rw [Nat.toDigits_of_lt_base hn, widthDigits, Nat.div_eq_of_lt hn, Nat.mod_eq_of_lt hn,
        widthDigits_zero]
      simp
    · -- the digits of `n` are those of `n / 10` and one more, and `n / 10` has at most `w`
      have hw' : 0 < w := by
        rcases Nat.eq_zero_or_pos w with rfl | hw'
        · omega
        · exact hw'
      have hdiv : n / 10 < 10 ^ w := by
        rw [Nat.pow_succ] at h
        omega
      rw [Nat.toDigits_of_base_le (by decide) (by omega), widthDigits, ← ih hw' hdiv]
      simp only [List.length_append, List.length_singleton, List.append_assoc]
      congr 2
      omega

/-- An integer is written as the digits of its size, after a `-` when it is negative. -/
theorem toList_toString_int (n : Int) :
    (toString n).toList = (if n < 0 then ['-'] else []) ++ Nat.toDigits 10 n.natAbs := by
  cases n with
  | ofNat m => simp [Int.repr]
  | negSucc m => simp [Int.repr, Int.negSucc_lt_zero]

/-- The written form of an integer reads as the integer. -/
theorem readInt?_toString (n : Int) : readInt? (toString n) = some n := by
  obtain ⟨c, cs, hds⟩ : ∃ c cs, Nat.toDigits 10 n.natAbs = c :: cs :=
    List.exists_cons_of_ne_nil Nat.toDigits_ne_nil
  have hall : (c :: cs).all Char.isDigit = true :=
    List.all_eq_true.2 fun _ hx => Json.isDigit_of_mem_toDigits (hds ▸ hx)
  have hc : c.isDigit = true := (List.all_eq_true.1 hall) c List.mem_cons_self
  have hvalue : digitsValue (c :: cs) = n.natAbs := hds ▸ Json.foldl_toDigits _
  unfold readInt?
  rw [toList_toString_int, hds]
  dsimp only
  by_cases hneg : n < 0
  · simp only [hneg, if_true, List.cons_append, List.nil_append, List.isEmpty_cons, hall,
      Bool.not_true, Bool.or_self, Bool.false_eq_true, if_false, hvalue, Option.some.injEq]
    omega
  · rw [if_neg hneg, List.nil_append]
    split
    · next h => exact absurd (List.cons.inj h).1 (by rintro rfl; cases hc)
    · next h => exact absurd (List.cons.inj h).1 (by rintro rfl; cases hc)
    · simp only [List.isEmpty_cons, hall, Bool.not_true, Bool.or_self, Bool.false_eq_true,
        if_false, hvalue, Option.some.injEq]
      omega

/-- The written form of a word reads exactly as the word. -/
theorem readDecimal_toString (n : Int64) : readDecimal (toString n.toInt) = .exact n := by
  have hmin : Int64.minValue.toInt = -2 ^ 63 := by decide
  have hmax : Int64.maxValue.toInt = 2 ^ 63 - 1 := by decide
  have hlo := Int64.le_toInt n
  have hhi := Int64.toInt_lt n
  unfold readDecimal
  rw [readInt?_toString]
  dsimp only
  rw [if_neg (by omega), if_neg (by omega), Int64.ofInt_toInt]

end Text

namespace Point

open Text

/-! ## Reading the written fields -/

/-- The characters of a UTC date and time in the basic form `YYYYMMDDThhmmZ`, with the seconds
after the minutes when they are not zero. -/
def writtenChars (y m d h mi s : Nat) : List Char :=
  widthDigits 4 y ++ widthDigits 2 m ++ widthDigits 2 d ++ 'T' :: widthDigits 2 h ++
    widthDigits 2 mi ++ (if s = 0 then [] else widthDigits 2 s) ++ ['Z']

theorem twoDigits_widthDigits {n : Nat} (h : n < 100) (r : List Char) :
    twoDigits (widthDigits 2 n ++ r) = some (n, r) := by
  have h₁ := digitChar_toNat (n / 10 % 10) (Nat.mod_lt _ (by decide))
  have h₂ := digitChar_toNat (n % 10) (Nat.mod_lt _ (by decide))
  simp only [widthDigits, List.nil_append, List.cons_append, twoDigits, Nat.isDigit_digitChar,
    Nat.mod_lt _ (show 10 > 0 by decide), decide_true, Bool.and_self, if_true, h₁, h₂,
    Option.some.injEq, Prod.mk.injEq, and_true]
  omega

/-- Two digits after no separator are read as their value, when the separator is no digit. -/
theorem sepTwo_widthDigits {c : Char} (hc : c.isDigit = false) {n : Nat} (h : n < 100)
    (r : List Char) : sepTwo c (widthDigits 2 n ++ r) = [(n, r)] := by
  obtain ⟨a, b, hab⟩ : ∃ a b, widthDigits 2 n = [a, b] := ⟨_, _, rfl⟩
  have ha : a ≠ c := by
    have : a.isDigit = true := isDigit_of_mem_widthDigits (n := n) (w := 2) (by simp [hab])
    rintro rfl
    simp_all
  have hread := twoDigits_widthDigits h r
  rw [hab] at hread ⊢
  simp only [List.cons_append, List.nil_append] at hread ⊢
  simp [sepTwo, optChar, ha, hread]

/-- Nothing is read as `sep? dd` at a character that is neither the separator nor a digit. -/
theorem sepTwo_of_head {c x : Char} (hx : x.isDigit = false) (hxc : x ≠ c) (r : List Char) :
    sepTwo c (x :: r) = [] := by
  cases r with
  | nil => simp [sepTwo, optChar, hxc, twoDigits]
  | cons y r => simp [sepTwo, optChar, hxc, twoDigits, hx]

/-- Two fields of two digits are read first as month and day. -/
theorem dateReadings_monthDay {m d : Nat} (hm : m < 100) (hd : d < 100) (r : List Char) :
    ∃ rest, dateReadings (widthDigits 2 m ++ widthDigits 2 d ++ r) =
      ((some m, some d), r) :: rest := by
  rw [dateReadings, List.append_assoc, sepTwo_widthDigits (c := '-') rfl hm, List.flatMap_cons,
    List.flatMap_nil, List.append_nil]
  simp only [sepTwo_widthDigits (c := '-') rfl hd, List.map_cons, List.map_nil, List.cons_append,
    List.nil_append]
  exact ⟨_, rfl⟩

/-- Hours and minutes of two digits after `T` are read first with seconds, when they follow, and
else without. -/
theorem timeReadings_clock {h mi : Nat} (hh : h < 100) (hmi : mi < 100) (r : List Char) :
    ∃ rest, timeReadings ('T' :: widthDigits 2 h ++ widthDigits 2 mi ++ r) =
      ((sepTwo ':' r).map fun (s, r') => ((some h, some mi, some s), r')) ++
        ((some h, some mi, none), r) :: rest := by
  simp only [List.cons_append, List.append_assoc]
  unfold timeReadings
  simp only [twoDigits_widthDigits hh, Option.toList_some, List.flatMap_cons,
    List.flatMap_nil, List.append_nil, sepTwo_widthDigits (c := ':') rfl hmi, List.append_assoc,
    List.singleton_append]
  exact ⟨_, rfl⟩

theorem zoneReadings_utc : zoneReadings ['Z'] = [(some none, []), (none, ['Z'])] := rfl

/-- Four digits of year followed by a text whose preferred readings of the date, of the time
after it and of the zone after that leave nothing are read as those fields. -/
theorem readIso_of_heads {y : Nat} (hy : y < 10000) {cs r r' : List Char}
    {mo d : Option Nat} {h mi sec : Option Nat} {z : Option (Option (Bool × Nat × Nat))}
    {rest₁ rest₂ rest₃}
    (hd : dateReadings cs = ((mo, d), r) :: rest₁) (ht : timeReadings r = ((h, mi, sec), r') :: rest₂)
    (hz : zoneReadings r' = (z, []) :: rest₃) :
    readIso (String.ofList (widthDigits 4 y ++ cs)) =
      some { year := y, month := mo, day := d, hour := h, minute := mi, second := sec, zone := z } := by
  obtain ⟨a, b, c, e, hy4⟩ : ∃ a b c e, widthDigits 4 y = [a, b, c, e] := ⟨_, _, _, _, rfl⟩
  have hdigit : ∀ x ∈ [a, b, c, e], x.isDigit = true := fun x hx =>
    isDigit_of_mem_widthDigits (hy4 ▸ hx)
  have hyear : [a, b, c, e].foldl (fun a c => a * 10 + (c.toNat - 48)) 0 = y := by
    rw [← hy4, foldl_widthDigits]
    omega
  simp only [List.mem_cons, List.not_mem_nil, or_false, forall_eq_or_imp, forall_eq] at hdigit
  unfold readIso
  simp only [String.toList_ofList, hy4, List.cons_append, List.nil_append]
  simp [List.range_succ, hdigit, hyear, hd, ht, hz]

/-- The written characters of a date and time are read as its fields, at UTC, the seconds only
when they are not zero. -/
theorem readIso_writtenChars {y m d h mi s : Nat} (hy : y < 10000) (hm : m < 100) (hd : d < 100)
    (hh : h < 100) (hmi : mi < 100) (hs : s < 100) :
    readIso (String.ofList (writtenChars y m d h mi s)) =
      some { year := y, month := some m, day := some d, hour := some h, minute := some mi,
             second := if s = 0 then none else some s, zone := some none } := by
  set secs := (if s = 0 then [] else widthDigits 2 s) ++ ['Z']
  obtain ⟨rest₁, hdate⟩ := dateReadings_monthDay hm hd ('T' :: widthDigits 2 h ++ widthDigits 2 mi ++ secs)
  obtain ⟨rest₂, htime⟩ := timeReadings_clock hh hmi secs
  -- the seconds are read when they are written, and the time is then followed by the zone alone
  obtain ⟨rest₃, htime'⟩ : ∃ rest, timeReadings ('T' :: widthDigits 2 h ++ widthDigits 2 mi ++ secs) =
      ((some h, some mi, if s = 0 then none else some s), ['Z']) :: rest := by
    by_cases hs0 : s = 0
    · rw [htime]
      simp [secs, hs0, sepTwo_of_head (c := ':') (x := 'Z') rfl (by decide)]
    · rw [htime]
      simp [secs, hs0, sepTwo_widthDigits (c := ':') rfl hs]
  have hchars : writtenChars y m d h mi s =
      widthDigits 4 y ++ (widthDigits 2 m ++ widthDigits 2 d ++
        ('T' :: widthDigits 2 h ++ widthDigits 2 mi ++ secs)) := by
    simp [writtenChars, secs]
  rw [hchars, readIso_of_heads hy hdate htime' zoneReadings_utc]

/-! ## Writing a point -/

open Calendar

theorem padded_of_lt {w : Nat} {n : Int} (hw : 0 < w) (h0 : 0 ≤ n) (h : n < 10 ^ w) :
    padded w n = String.ofList (widthDigits w n.toNat) := by
  have hlt : n.natAbs < 10 ^ w := by
    have h' : ((n.natAbs : Nat) : Int) < ((10 ^ w : Nat) : Int) := by
      rw [Int.natAbs_of_nonneg h0]
      simpa using h
    exact Int.ofNat_lt.1 h'
  have hdig : (toString n.natAbs).toList = Nat.toDigits 10 n.natAbs := by simp [Nat.repr]
  have habs : n.natAbs = n.toNat := by omega
  unfold padded
  rw [if_neg (by omega), ← String.toList_inj, String.toList_append, String.toList_ofList,
    String.toList_ofList, hdig, ← String.length_toList, hdig, replicate_toDigits hw hlt, habs]

/-- A negative number is written after a minus sign. -/
theorem padded_neg {w : Nat} {n : Int} (h : n < 0) : (padded w n).toList.head? = some '-' := by
  unfold padded
  rw [if_pos h, String.toList_append]
  rfl

/-- A number is written with its decimal digits, after the zeros that pad them to the width, and
after a `-` when it is negative. -/
theorem toList_padded (w : Nat) (n : Int) :
    (padded w n).toList = (if n < 0 then ['-'] else []) ++
      (List.replicate (w - (Nat.toDigits 10 n.natAbs).length) '0' ++ Nat.toDigits 10 n.natAbs) := by
  have hlen : n.natAbs.repr.length = (Nat.toDigits 10 n.natAbs).length := by
    rw [← String.length_toList, Nat.toList_repr]
  unfold padded
  split <;> simp [String.toList_append, hlen]

/-- The characters of a written number are its sign and digits. -/
theorem mem_padded {w : Nat} {n : Int} {c : Char} (h : c ∈ (padded w n).toList) :
    c = '-' ∨ c.isDigit = true := by
  rw [toList_padded] at h
  simp only [List.mem_append, List.mem_replicate] at h
  rcases h with h | ⟨-, rfl⟩ | h
  · split at h <;> simp_all
  · exact .inr rfl
  · exact .inr (Nat.isDigit_of_mem_toDigits (by decide) (by decide) h)

theorem isDigit_of_mem_padded {w : Nat} {n : Int} {c : Char} (h₀ : 0 ≤ n)
    (h : c ∈ (padded w n).toList) : c.isDigit = true := by
  rw [toList_padded, if_neg (by omega), List.nil_append, List.mem_append, List.mem_replicate] at h
  rcases h with ⟨-, rfl⟩ | h
  · rfl
  · exact Nat.isDigit_of_mem_toDigits (by decide) (by decide) h

theorem isBlank_of_mem_padded {w : Nat} {n : Int} {c : Char} (h : c ∈ (padded w n).toList) :
    isBlank c = false :=
  isBlank_of_written ((mem_padded h).symm.imp_right (by rintro rfl; simp))

/-- A number is written with at least as many characters as the width. -/
theorem width_le_length_padded (w : Nat) (n : Int) : w ≤ (padded w n).toList.length := by
  rw [toList_padded]
  split <;> simp only [List.length_append, List.length_replicate, List.length_cons,
    List.length_nil] <;> omega

/-- A number from `10 ^ w` on is written with more than `w` characters. -/
theorem length_padded_of_le {w : Nat} {n : Int} (hw : 0 < w) (h : 10 ^ w ≤ n) :
    w < (padded w n).toList.length := by
  have h' : ((10 ^ w : Nat) : Int) ≤ n := by exact_mod_cast h
  have hlong : ¬(Nat.toDigits 10 n.natAbs).length ≤ w := by
    rw [Nat.length_toDigits_le_iff (by decide) hw]
    omega
  rw [toList_padded]
  split <;> simp only [List.length_append, List.length_replicate, List.length_cons,
    List.length_nil] <;> omega

/-- The UTC year of an instant, as a number. -/
theorem year_toInt (t : Instant) : t.date.1.toInt = (reckonDate t.dayCount).1 := by
  obtain ⟨hY₀, -, hY₂⟩ := reckonDate_year_bounds t.dayCount_lt
  rw [Instant.date_eq]
  exact Int64.toInt_ofInt_of_le (by simp only [reckonYears] at hY₀; omega)
    (by simp only [reckonYears] at hY₂; omega)

/-- The written form of a Gregorian point: the fields of its date and time of day, each padded
with zeros. -/
theorem toText_gregorian (v : Int64) :
    toText ⟨.gregorian, v⟩ =
      padded 4 (reckonDate (Instant.ofUnix v).dayCount).1 ++
        padded 2 (reckonDate (Instant.ofUnix v).dayCount).2.1 ++
        padded 2 (reckonDate (Instant.ofUnix v).dayCount).2.2 ++ "T" ++
        padded 2 ((Instant.ofUnix v).secondOfDay / 3600 : Nat) ++
        padded 2 ((Instant.ofUnix v).secondOfDay % 3600 / 60 : Nat) ++
        (if (Instant.ofUnix v).secondOfDay % 60 = 0 then ""
          else padded 2 ((Instant.ofUnix v).secondOfDay % 60 : Nat)) ++ "Z" := by
  have hr := (Instant.ofUnix v).secondOfDay_lt
  obtain ⟨-, hm₂, -, hd₂⟩ := reckonDate_valid (Instant.ofUnix v).dayCount
  have hdays : (reckonDate (Instant.ofUnix v).dayCount).2.2 ≤ 31 :=
    le_trans hd₂ (by unfold daysInMonth; split <;> (try split) <;> omega)
  have hyear := year_toInt (Instant.ofUnix v)
  rw [Instant.date_eq] at hyear
  have hsec : (Int64.ofNat ((Instant.ofUnix v).secondOfDay % 60) = 0) ↔
      (Instant.ofUnix v).secondOfDay % 60 = 0 := by
    rw [← Int64.toInt_inj, Int64.toInt_ofNat_of_lt (by omega), Int64.toInt_zero]
    omega
  simp only [toText, time, Instant.date_eq, Instant.clock_eq, hyear,
    Int64.toInt_ofNat_of_lt (show (reckonDate (Instant.ofUnix v).dayCount).2.1 < 2 ^ 63 by omega),
    Int64.toInt_ofNat_of_lt (show (reckonDate (Instant.ofUnix v).dayCount).2.2 < 2 ^ 63 by omega),
    Int64.toInt_ofNat_of_lt (show (Instant.ofUnix v).secondOfDay / 3600 < 2 ^ 63 by omega),
    Int64.toInt_ofNat_of_lt (show (Instant.ofUnix v).secondOfDay % 3600 / 60 < 2 ^ 63 by omega),
    Int64.toInt_ofNat_of_lt (show (Instant.ofUnix v).secondOfDay % 60 < 2 ^ 63 by omega), hsec]

/-- The written form of every Gregorian point has no blank character. -/
theorem toText_gregorian_plain (v : Int64) :
    ∀ c ∈ (toText ⟨.gregorian, v⟩).toList, isBlank c = false := by
  have hpad : ∀ w n, ∀ c ∈ (padded w n).toList, isBlank c = false :=
    fun _ _ _ hc => isBlank_of_mem_padded hc
  rw [toText_gregorian]
  simp only [String.toList_append, List.forall_mem_append]
  refine ⟨⟨⟨⟨⟨⟨⟨hpad _ _, hpad _ _⟩, hpad _ _⟩, by simp [isBlank]⟩, hpad _ _⟩, hpad _ _⟩, ?_⟩,
    by simp [isBlank]⟩
  split
  · simp
  · exact hpad _ _

/-- A point whose UTC year has four digits is written as the basic form of its fields. -/
theorem toText_gregorian_of_year {v : Int64} (h₀ : 0 ≤ (reckonDate (Instant.ofUnix v).dayCount).1)
    (h₁ : (reckonDate (Instant.ofUnix v).dayCount).1 ≤ 9999) :
    toText ⟨.gregorian, v⟩ = String.ofList (writtenChars
      (reckonDate (Instant.ofUnix v).dayCount).1.toNat (reckonDate (Instant.ofUnix v).dayCount).2.1
      (reckonDate (Instant.ofUnix v).dayCount).2.2 ((Instant.ofUnix v).secondOfDay / 3600)
      ((Instant.ofUnix v).secondOfDay % 3600 / 60) ((Instant.ofUnix v).secondOfDay % 60)) := by
  have hr := (Instant.ofUnix v).secondOfDay_lt
  obtain ⟨-, hm₂, -, hd₂⟩ := reckonDate_valid (Instant.ofUnix v).dayCount
  have hdays : (reckonDate (Instant.ofUnix v).dayCount).2.2 ≤ 31 :=
    le_trans hd₂ (by unfold daysInMonth; split <;> (try split) <;> omega)
  have two : ∀ n : Nat, n < 100 → padded 2 (n : Int) = String.ofList (widthDigits 2 n) :=
    fun n hn => by rw [padded_of_lt (by decide) (by omega) (by omega), Int.toNat_natCast]
  rw [toText_gregorian, padded_of_lt (by decide) h₀ (by omega), two _ (by omega), two _ (by omega),
    two _ (by omega), two _ (by omega), ← String.toList_inj]
  by_cases hs : (Instant.ofUnix v).secondOfDay % 60 = 0
  · simp [writtenChars, hs, String.toList_append]
  · rw [two _ (by omega)]
    simp [writtenChars, hs, String.toList_append]

/-- The basic form of a date and time has no blank character. -/
theorem writtenChars_plain (y m d h mi s : Nat) :
    ∀ c ∈ writtenChars y m d h mi s, isBlank c = false := by
  have hdigit : ∀ w n, ∀ c ∈ widthDigits w n, isBlank c = false :=
    fun w n c h => isBlank_of_written (.inl (isDigit_of_mem_widthDigits h))
  -- a character is a digit of a field, the `T` or the `Z`
  by_cases hs : s = 0 <;> simp only [writtenChars, hs, if_true, if_false, List.mem_append,
    List.mem_cons, List.not_mem_nil, or_false, List.append_nil, or_imp, forall_and, forall_eq] <;>
    repeat' constructor
  all_goals exact hdigit _ _

/-! ## Points that read back -/

/-- Seconds written only when they are not zero are read as the seconds. -/
theorem getD_seconds (s : Nat) : (if s = 0 then none else some s).getD 0 = s := by
  split <;> simp_all

/-- A date-time read at UTC with every field in range is the point at its Unix second. -/
theorem parseIso_utc {s : String} {f : IsoFields} (h : readIso s = some f)
    (hzone : f.zone = some none) (hm₁ : 1 ≤ f.month.getD 1) (hm₂ : f.month.getD 1 ≤ 12)
    (hd₁ : 1 ≤ f.day.getD 1) (hd₂ : f.day.getD 1 ≤ daysInMonth f.year (f.month.getD 1))
    (hh : f.hour.getD 0 ≤ 23) (hmi : f.minute.getD 0 ≤ 59) (hs : f.second.getD 0 ≤ 59) :
    parseIso s = .ok (ofUnix (unixOf f.year (f.month.getD 1) (f.day.getD 1) (f.hour.getD 0)
      (f.minute.getD 0) (f.second.getD 0))) := by
  unfold parseIso
  rw [h]
  dsimp only
  rw [hzone]
  dsimp only
  rw [if_neg (by simp only [Bool.or_eq_true, decide_eq_true_eq]; omega), Int.sub_zero]

/-- The basic form of a valid UTC date and time with a four-digit year is read back as that
date and time. -/
theorem parse_writtenChars {y m d h mi s : Nat} (hy : y < 10000) (hm₁ : 1 ≤ m) (hm₂ : m ≤ 12)
    (hd₁ : 1 ≤ d) (hd₂ : d ≤ daysInMonth y m) (hh : h ≤ 23) (hmi : mi ≤ 59) (hs : s ≤ 59) :
    parse .gregorian (String.ofList (writtenChars y m d h mi s)) =
      .ok (ofUnix (unixOf y m d h mi s)) := by
  have hdays : daysInMonth y m ≤ 31 := by unfold daysInMonth; split <;> (try split) <;> omega
  have hplain : ∀ c ∈ (String.ofList (writtenChars y m d h mi s)).toList, isBlank c = false := by
    rw [String.toList_ofList]
    exact writtenChars_plain _ _ _ _ _ _
  have hs₀ := getD_seconds s
  unfold parse
  dsimp only
  rw [trimBlank_of_plain hplain, parseIso_utc (readIso_writtenChars (by omega) (by omega)
    (by omega) (by omega) (by omega) (by omega)) rfl hm₁ hm₂ hd₁ hd₂ hh hmi (by rw [hs₀]; exact hs)]
  simp only [Option.getD_some, hs₀]

/-- The Unix second of the date and time of an instant at a Unix second, wrapped to a word, is
that second. -/
theorem ofInt_unix_date (v : Int64) :
    Int64.ofInt ((Instant.ofUnix v).reckoned.toNat - 9223372028741760000) = v := by
  have hU : Int64.ofInt 9223372028741760000 = Instant.yearOneOffset + Instant.epochOffset := by
    decide
  simp only [Int64.ofInt_sub, Int64.ofInt_eq_ofNat, Instant.ofNat_reckoned, hU, Instant.ofUnix]
  grind

/-- A point whose UTC year has four digits is read back from its written form. -/
theorem parse_toText_of_year {v : Int64} (h₀ : 0 ≤ (reckonDate (Instant.ofUnix v).dayCount).1)
    (h₁ : (reckonDate (Instant.ofUnix v).dayCount).1 ≤ 9999) :
    parse .gregorian (toText ⟨.gregorian, v⟩) = .ok ⟨.gregorian, v⟩ := by
  have hr := (Instant.ofUnix v).secondOfDay_lt
  obtain ⟨hm₁, hm₂, hd₁, hd₂⟩ := reckonDate_valid (Instant.ofUnix v).dayCount
  have hY : (((reckonDate (Instant.ofUnix v).dayCount).1.toNat : Nat) : Int) =
      (reckonDate (Instant.ofUnix v).dayCount).1 := Int.toNat_of_nonneg h₀
  rw [toText_gregorian_of_year h₀ h₁, parse_writtenChars (by omega) hm₁ hm₂ hd₁ (by rwa [hY])
    (by omega) (by omega) (by omega), hY, Instant.unixOf_date, ofUnix, ofInt_unix_date]

/-- An integer point reads back from its written form. -/
theorem parse_toText_integer (n : Int64) :
    parse .integer (toText ⟨.integer, n⟩) = .ok ⟨.integer, n⟩ := by
  have htext : toText ⟨.integer, n⟩ = toString n.toInt := rfl
  have hplain : ∀ c ∈ (toString n.toInt).toList, isBlank c = false := by
    intro c hc
    rw [toList_toString_int, List.mem_append] at hc
    apply isBlank_of_written
    rcases hc with hc | hc
    · split at hc <;> simp_all
    · exact .inl (Json.isDigit_of_mem_toDigits hc)
  have hplus : (toString n.toInt).startsWith "+" = false := by
    obtain ⟨c, cs, hcs, hc⟩ := Json.toString_head n.toInt
    rw [String.startsWith_string_eq_false_iff, hcs]
    rcases hc with rfl | hc
    · simp
    · have : c ≠ '+' := by rintro rfl; cases hc
      simp [Ne.symm this]
  unfold parse
  dsimp only
  rw [htext, trimBlank_of_plain hplain, hplus, if_neg Bool.false_ne_true, readDecimal_toString]
  rfl

/-! ## Points that do not read back -/

/-- A text whose first character is no digit has no year. -/
theorem readIso_of_head {s : String} {c : Char} (hc : c.isDigit = false)
    (h : s.toList.head? = some c) : readIso s = none := by
  obtain ⟨r, hr⟩ : ∃ r, s.toList = c :: r := by
    cases hs : s.toList with
    | nil => simp [hs] at h
    | cons x r => simp_all
  unfold readIso
  simp [hr, List.range_succ, hc]

/-- At a digit there is no time and no zone to read. -/
theorem timeReadings_of_digit {x : Char} (hx : x.isDigit = true) (r : List Char) :
    timeReadings (x :: r) = [((none, none, none), x :: r)] := by
  have hT : x ≠ 'T' := by rintro rfl; simp at hx
  simp [timeReadings, hT]

theorem zoneReadings_of_digit {x : Char} (hx : x.isDigit = true) (r : List Char) :
    zoneReadings (x :: r) = [(none, x :: r)] := by
  have hZ : x ≠ 'Z' := by rintro rfl; simp at hx
  have hsign : ¬(x = '+' ∨ x = '-') := by rintro (rfl | rfl) <;> simp at hx
  unfold zoneReadings
  split
  next heq => simp_all
  next heq =>
    cases heq
    simp [hsign]
  next heq => simp at heq

/-- Every reading of the date at five digits leaves a digit. -/
theorem dateReadings_of_digits {a b c d e : Char} (ha : a.isDigit = true) (hb : b.isDigit = true)
    (hc : c.isDigit = true) (hd : d.isDigit = true) (he : e.isDigit = true) (u : List Char) :
    ∀ p ∈ dateReadings (a :: b :: c :: d :: e :: u), ∃ x r, p.2 = x :: r ∧ x.isDigit = true := by
  have hne : ∀ x : Char, x.isDigit = true → x ≠ '-' := by rintro x hx rfl; simp at hx
  simp [dateReadings, sepTwo, optChar, twoDigits, hne a ha, hne c hc, ha, hb, hc, hd, he]

/-- Five digits after the four of the year are more than the date can hold, so the text is not
read. -/
theorem readIso_of_digits {s : String} {ds r : List Char} (h : s.toList.drop 4 = ds ++ r)
    (hlen : 5 ≤ ds.length) (hdig : ∀ c ∈ ds, c.isDigit = true) : readIso s = none := by
  obtain ⟨a, b, c, d, e, t, rfl⟩ : ∃ a b c d e t, ds = a :: b :: c :: d :: e :: t := by
    match ds, hlen with
    | a :: b :: c :: d :: e :: t, _ => exact ⟨a, b, c, d, e, t, rfl⟩
  simp only [List.mem_cons, forall_eq_or_imp] at hdig
  obtain ⟨ha, hb, hc, hd, he, -⟩ := hdig
  have hrest := dateReadings_of_digits ha hb hc hd he (t ++ r)
  unfold readIso
  dsimp only
  split
  · rfl
  · rw [h, List.head?_eq_none_iff, List.flatMap_eq_nil_iff]
    rintro ⟨⟨mo, dd⟩, q⟩ hp
    obtain ⟨x, v, hq, hx⟩ := hrest _ (by simpa using hp)
    simp only at hq
    subst hq
    simp [timeReadings_of_digit hx, zoneReadings_of_digit hx]

/-- A Gregorian point whose UTC year is before 0 or after 9999 is written in a form that is not
read: a `-` stands where the first digit of the year should, or a fifth digit of the year where
the date should end. -/
theorem readIso_toText_of_year {v : Int64}
    (h : (reckonDate (Instant.ofUnix v).dayCount).1 < 0 ∨
      9999 < (reckonDate (Instant.ofUnix v).dayCount).1) :
    readIso (toText ⟨.gregorian, v⟩) = none := by
  rcases h with hneg | hbig
  · apply readIso_of_head (c := '-') rfl
    rw [toText_gregorian]
    simp only [String.toList_append, List.append_assoc, List.head?_append, padded_neg hneg,
      Option.some_or]
  · set D := reckonDate (Instant.ofUnix v).dayCount
    set sod := (Instant.ofUnix v).secondOfDay
    obtain ⟨R, hR⟩ : ∃ R, (toText ⟨.gregorian, v⟩).toList =
        (padded 4 D.1).toList ++ ((padded 2 D.2.1).toList ++ (padded 2 D.2.2).toList) ++ R := by
      rw [toText_gregorian]
      simp only [String.toList_append, List.append_assoc]
      exact ⟨_, rfl⟩
    have h4 := length_padded_of_le (w := 4) (n := D.1) (by decide)
      (by rw [show (10 : Int) ^ 4 = 10000 by decide]; omega)
    have hm := width_le_length_padded 2 D.2.1
    have hd := width_le_length_padded 2 D.2.2
    have hdrop : (toText ⟨.gregorian, v⟩).toList.drop 4 =
        ((padded 4 D.1).toList.drop 4 ++ ((padded 2 D.2.1).toList ++ (padded 2 D.2.2).toList)) ++
          R := by
      rw [hR, List.append_assoc, List.drop_append_of_le_length (by omega)]
      simp only [List.append_assoc]
    refine readIso_of_digits hdrop ?_ ?_
    · simp only [List.length_append, List.length_drop]
      omega
    · intro c hc
      simp only [List.mem_append] at hc
      rcases hc with hc | hc | hc
      · exact isDigit_of_mem_padded (by omega) (List.mem_of_mem_drop hc)
      · exact isDigit_of_mem_padded (by omega) hc
      · exact isDigit_of_mem_padded (by omega) hc

/-- A text that is not read as a date-time is refused as malformed. -/
theorem parse_gregorian_of_unread {s : String} (h : readIso (trimBlank s) = none) :
    parse .gregorian s = .error (.malformed (trimBlank s) "not an ISO 8601 date-time") := by
  unfold parse parseIso
  dsimp only
  rw [h]

/-- A Gregorian point reads back from its written form exactly when its UTC year has four
digits. -/
theorem parse_toText_gregorian_iff (v : Int64) :
    parse .gregorian (toText ⟨.gregorian, v⟩) = .ok ⟨.gregorian, v⟩ ↔
      0 ≤ (time ⟨.gregorian, v⟩).date.1.toInt ∧ (time ⟨.gregorian, v⟩).date.1.toInt ≤ 9999 := by
  simp only [time, year_toInt]
  constructor
  · intro h
    by_contra hy
    have hnone := readIso_toText_of_year (v := v) (by omega)
    rw [parse_gregorian_of_unread (by rwa [trimBlank_of_plain (toText_gregorian_plain v)])] at h
    cases h
  · rintro ⟨h₀, h₁⟩
    exact parse_toText_of_year h₀ h₁

/-- Points read back from their written form: an integer point always, a Gregorian point exactly
when its UTC year has four digits. -/
theorem parse_toText_iff_year (n v : Int64) :
    parse .integer (toText ⟨.integer, n⟩) = .ok ⟨.integer, n⟩ ∧
      (parse .gregorian (toText ⟨.gregorian, v⟩) = .ok ⟨.gregorian, v⟩ ↔
        0 ≤ (time ⟨.gregorian, v⟩).date.1.toInt ∧ (time ⟨.gregorian, v⟩).date.1.toInt ≤ 9999) :=
  ⟨parse_toText_integer n, parse_toText_gregorian_iff v⟩

end Point

namespace Proofs

/-- `0000-01-01T00:00+01:00` is read as the last hour of year -1 at UTC, which is written
`-00011231T2300Z`, and that is not read. -/
theorem offset_year_unreadable :
    (Point.parse .gregorian "0000-01-01T00:00+01:00").toOption = some ⟨.gregorian, -62167222800⟩ ∧
      Point.toText ⟨.gregorian, -62167222800⟩ = "-00011231T2300Z" ∧
      (Point.parse .gregorian "-00011231T2300Z").toOption = none :=
  ⟨by decide +kernel, by decide +kernel, by decide +kernel⟩

end Proofs

end CycleSched
