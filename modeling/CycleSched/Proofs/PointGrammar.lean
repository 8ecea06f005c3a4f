import CycleSched.Proofs.PointText

/-!
# Gregorian points read by their pattern

A Gregorian cycle point is written as an ISO 8601 date-time: four digits of year, then an
optional month and day, an optional time of day and an optional zone, in the basic or the
extended form, with reduced precision:

    YYYY(-?MM(-?DD)?)?(Thh(:?mm(:?ss)?)?)?(Z|[+-]hh(:?mm)?)?

The grammar below says which texts the pattern matches and with which fields (`IsoReading`).
A text may be read in more than one way, since a `-` starts both a month or day and a zone
behind the date: `2020-06-01` is read as a day, or as June at a zone six hours behind. Matching
leftmost-first takes every optional part it can, in the order of the pattern, so of all readings
it keeps the one that takes the most of them soonest (`PreferredReading`).

A point is read from a text exactly when its preferred reading names a real date and time
(`IsoFields.Real`), and then it is the Unix second of that local date and time less the zone
offset (`parse_gregorian_iff`); any other text is refused as a malformed point.
-/

namespace CycleSched.Point

open Calendar

/-! ## The pattern -/

/-- Two ASCII digits written for their value. -/
inductive DigitPair : Nat → List Char → Prop
  | mk {a b : Char} : a.isDigit = true → b.isDigit = true →
      DigitPair ((a.toNat - 48) * 10 + (b.toNat - 48)) [a, b]

/-- `sep?dd`: two digits, after the separator or not. -/
inductive SepPair (sep : Char) : Nat → List Char → Prop
  | bare {n : Nat} {c : List Char} : DigitPair n c → SepPair sep n c
  | sep {n : Nat} {c : List Char} : DigitPair n c → SepPair sep n (sep :: c)

/-- Four ASCII digits written for the year. -/
def YearDigits (y : Nat) (cs : List Char) : Prop :=
  cs.length = 4 ∧ (∀ c ∈ cs, c.isDigit = true) ∧
    y = cs.foldl (fun a c => a * 10 + (c.toNat - 48)) 0

/-- `(-?MM(-?DD)?)?`: the optional month and day. -/
inductive DatePart : Option Nat → Option Nat → List Char → Prop
  | none : DatePart none none []
  | month {m : Nat} {c : List Char} : SepPair '-' m c → DatePart (some m) none c
  | day {m d : Nat} {c₁ c₂ : List Char} : SepPair '-' m c₁ → SepPair '-' d c₂ →
      DatePart (some m) (some d) (c₁ ++ c₂)

/-- `(Thh(:?mm(:?ss)?)?)?`: the optional time of day. -/
inductive TimePart : Option Nat → Option Nat → Option Nat → List Char → Prop
  | none : TimePart none none none []
  | hour {h : Nat} {c : List Char} : DigitPair h c → TimePart (some h) none none ('T' :: c)
  | minute {h mi : Nat} {c₁ c₂ : List Char} : DigitPair h c₁ → SepPair ':' mi c₂ →
      TimePart (some h) (some mi) none ('T' :: (c₁ ++ c₂))
  | second {h mi s : Nat} {c₁ c₂ c₃ : List Char} : DigitPair h c₁ → SepPair ':' mi c₂ →
      SepPair ':' s c₃ → TimePart (some h) (some mi) (some s) ('T' :: (c₁ ++ c₂ ++ c₃))

/-- The sign of a zone behind UTC (`-`) or ahead of it (`+`). -/
def signChar (neg : Bool) : Char := if neg then '-' else '+'

/-- `(Z|[+-]hh(:?mm)?)?`: the optional zone, its minutes 0 when they are not written. -/
inductive ZonePart : Option (Option (Bool × Nat × Nat)) → List Char → Prop
  | none : ZonePart none []
  | utc : ZonePart (some none) ['Z']
  | hours {neg : Bool} {h : Nat} {c : List Char} : DigitPair h c →
      ZonePart (some (some (neg, h, 0))) (signChar neg :: c)
  | minutes {neg : Bool} {h mi : Nat} {c₁ c₂ : List Char} : DigitPair h c₁ → SepPair ':' mi c₂ →
      ZonePart (some (some (neg, h, mi))) (signChar neg :: (c₁ ++ c₂))

/-- A reading of a whole text by the pattern: the year, then each part as written. -/
def IsoReading (f : IsoFields) (cs : List Char) : Prop :=
  ∃ y d t z, cs = y ++ d ++ t ++ z ∧ YearDigits f.year y ∧ DatePart f.month f.day d ∧
    TimePart f.hour f.minute f.second t ∧ ZonePart f.zone z

/-- Which of month and day a reading takes, as binary digits. -/
def dateRank (x : Option Nat × Option Nat) : Nat := 2 * x.1.isSome.toNat + x.2.isSome.toNat

/-- Which of hour, minute and second a reading takes, as binary digits. -/
def timeRank (x : Option Nat × Option Nat × Option Nat) : Nat :=
  4 * x.1.isSome.toNat + 2 * x.2.1.isSome.toNat + x.2.2.isSome.toNat

/-- Which optional parts a reading takes, as binary digits in the order of the pattern: a
reading that takes a part sooner than another ranks higher. -/
def IsoFields.rank (f : IsoFields) : Nat :=
  16 * dateRank (f.month, f.day) + 2 * timeRank (f.hour, f.minute, f.second) + f.zone.isSome.toNat

/-- The reading that matching the pattern leftmost-first gives: of all readings of the text,
the one of highest rank. -/
def PreferredReading (f : IsoFields) (cs : List Char) : Prop :=
  IsoReading f cs ∧ ∀ f', IsoReading f' cs → f'.rank ≤ f.rank

/-- The fields of a reading name a real date and time: a month of the year, a day of that month
in that year, a time on the clock and a zone offset of less than a day, with the month and day
1 and the time fields 0 where they are not written. -/
def IsoFields.Real (f : IsoFields) : Prop :=
  1 ≤ f.month.getD 1 ∧ f.month.getD 1 ≤ 12 ∧ 1 ≤ f.day.getD 1 ∧
    f.day.getD 1 ≤ daysInMonth f.year (f.month.getD 1) ∧
    f.hour.getD 0 ≤ 23 ∧ f.minute.getD 0 ≤ 59 ∧ f.second.getD 0 ≤ 59 ∧
    ∀ neg h mi, f.zone = some (some (neg, h, mi)) → h ≤ 23 ∧ mi ≤ 59

/-- The zone offset of a reading in seconds: none at `Z` or with no zone. -/
def IsoFields.offset (f : IsoFields) : Int :=
  match f.zone with
  | some (some (neg, h, mi)) => (if neg then -1 else 1) * ((h : Int) * 3600 + mi * 60)
  | _ => 0

/-- The Unix second a reading names: that of its local date and time, less its zone offset. -/
def IsoFields.unixSecond (f : IsoFields) : Int :=
  civilSecond f.year (f.month.getD 1) (f.day.getD 1) (f.hour.getD 0) (f.minute.getD 0)
    (f.second.getD 0) - f.offset

/-! ## Two digits, after a separator or not -/

theorem DigitPair.length {n : Nat} {c : List Char} (h : DigitPair n c) : c.length = 2 := by
  cases h
  rfl

theorem SepPair.length_ge {sep : Char} {n : Nat} {c : List Char} (h : SepPair sep n c) :
    2 ≤ c.length := by
  cases h with
  | bare hd => exact hd.length.ge
  | sep hd =>
    rw [List.length_cons, hd.length]
    omega

theorem twoDigits_eq_some_iff {cs r : List Char} {n : Nat} :
    twoDigits cs = some (n, r) ↔ ∃ c, cs = c ++ r ∧ DigitPair n c := by
  constructor
  · intro h
    rcases cs with _ | ⟨a, _ | ⟨b, r'⟩⟩
    · simp [twoDigits] at h
    · simp [twoDigits] at h
    · simp only [twoDigits, Bool.and_eq_true] at h
      split at h
      · next hab =>
        simp only [Option.some.injEq, Prod.mk.injEq] at h
        obtain ⟨rfl, rfl⟩ := h
        exact ⟨[a, b], rfl, .mk hab.1 hab.2⟩
      · cases h
  · rintro ⟨c, rfl, hc⟩
    cases hc with
    | mk ha hb => simp [twoDigits, ha, hb]

theorem mem_optChar {c : Char} {cs cs' : List Char} :
    cs' ∈ optChar c cs ↔ cs' = cs ∨ cs = c :: cs' := by
  unfold optChar
  split
  · next d r =>
    split
    · next hd =>
      subst hd
      simp only [List.mem_cons, List.not_mem_nil, or_false, List.cons.injEq, true_and]
      constructor <;> rintro (rfl | rfl) <;> simp
    · next hd => simp [hd]
  · simp

/-- The readings of `sep?dd` are the ways the pattern reads it. -/
theorem mem_sepTwo {sep : Char} {cs r : List Char} {n : Nat} :
    (n, r) ∈ sepTwo sep cs ↔ ∃ c, cs = c ++ r ∧ SepPair sep n c := by
  rw [sepTwo, List.mem_filterMap]
  constructor
  · rintro ⟨cs', hcs', hread⟩
    obtain ⟨c, rfl, hc⟩ := twoDigits_eq_some_iff.1 hread
    rcases mem_optChar.1 hcs' with rfl | rfl
    · exact ⟨c, rfl, .bare hc⟩
    · exact ⟨sep :: c, rfl, .sep hc⟩
  · rintro ⟨c, rfl, hc⟩
    cases hc with
    | bare hd => exact ⟨c ++ r, mem_optChar.2 (.inl rfl), twoDigits_eq_some_iff.2 ⟨c, rfl, hd⟩⟩
    | sep hd =>
      rename_i c
      exact ⟨c ++ r, mem_optChar.2 (.inr rfl), twoDigits_eq_some_iff.2 ⟨c, rfl, hd⟩⟩

/-- A separator that is no digit is read at most one way: with it when it is there. -/
theorem length_sepTwo_le {sep : Char} (hsep : sep.isDigit = false) (cs : List Char) :
    (sepTwo sep cs).length ≤ 1 := by
  unfold sepTwo optChar
  split
  · next d r =>
    split
    · next hd =>
      subst hd
      have hnone : twoDigits (d :: r) = none := by
        cases r with
        | nil => rfl
        | cons b r => simp [twoDigits, hsep]
      simp only [List.filterMap_cons, hnone, List.filterMap_nil]
      split <;> simp
    · simp only [List.filterMap_cons, List.filterMap_nil]
      split <;> simp
  · simp only [List.filterMap_cons, List.filterMap_nil]
    split <;> simp

theorem pairwise_of_length_le_one {α : Type} {R : α → α → Prop} {l : List α}
    (h : l.length ≤ 1) : l.Pairwise R := by
  match l, h with
  | [], _ => exact .nil
  | [_], _ => exact List.pairwise_singleton _ _

/-! ## The readings of each part -/

/-- The readings of the date are the ways the pattern reads a date at the head of the text. -/
theorem mem_dateReadings {cs r : List Char} {mo d : Option Nat} :
    ((mo, d), r) ∈ dateReadings cs ↔ ∃ c, cs = c ++ r ∧ DatePart mo d c := by
  simp only [dateReadings, List.mem_append, List.mem_flatMap, List.mem_map, List.mem_singleton,
    Prod.exists, Prod.mk.injEq]
  constructor
  · rintro (⟨m, r₁, h₁, ⟨dd, r₂, h₂, ⟨rfl, rfl⟩, rfl⟩ | ⟨⟨rfl, rfl⟩, rfl⟩⟩ | ⟨⟨rfl, rfl⟩, rfl⟩)
    · obtain ⟨c₁, rfl, hc₁⟩ := mem_sepTwo.1 h₁
      obtain ⟨c₂, rfl, hc₂⟩ := mem_sepTwo.1 h₂
      exact ⟨c₁ ++ c₂, by rw [List.append_assoc], .day hc₁ hc₂⟩
    · obtain ⟨c₁, rfl, hc₁⟩ := mem_sepTwo.1 h₁
      exact ⟨c₁, rfl, .month hc₁⟩
    · exact ⟨[], rfl, .none⟩
  · rintro ⟨c, rfl, hc⟩
    cases hc with
    | none => exact .inr ⟨⟨rfl, rfl⟩, rfl⟩
    | month hm => exact .inl ⟨_, _, mem_sepTwo.2 ⟨_, rfl, hm⟩, .inr ⟨⟨rfl, rfl⟩, rfl⟩⟩
    | day hm hd =>
      rename_i c₁ c₂
      exact .inl ⟨_, c₂ ++ r, mem_sepTwo.2 ⟨c₁, by rw [List.append_assoc], hm⟩,
        .inl ⟨_, _, mem_sepTwo.2 ⟨_, rfl, hd⟩, ⟨rfl, rfl⟩, rfl⟩⟩

/-- The readings of the time are the ways the pattern reads a time at the head of the text. -/
theorem mem_timeReadings {cs r : List Char} {h mi s : Option Nat} :
    ((h, mi, s), r) ∈ timeReadings cs ↔ ∃ c, cs = c ++ r ∧ TimePart h mi s c := by
  unfold timeReadings
  rw [List.mem_append, List.mem_singleton]
  split
  · next t =>
    simp only [List.mem_flatMap, List.mem_append, List.mem_map, List.mem_singleton, Option.mem_toList,
      Prod.exists, Prod.mk.injEq]
    constructor
    · rintro (⟨hh, r₀, ht, ⟨m, r₁, h₁, ⟨ss, r₂, h₂, ⟨rfl, rfl, rfl⟩, rfl⟩ |
        ⟨⟨rfl, rfl, rfl⟩, rfl⟩⟩ | ⟨⟨rfl, rfl, rfl⟩, rfl⟩⟩ | ⟨⟨rfl, rfl, rfl⟩, rfl⟩)
      · obtain ⟨c₀, rfl, hc₀⟩ := twoDigits_eq_some_iff.1 ht
        obtain ⟨c₁, rfl, hc₁⟩ := mem_sepTwo.1 h₁
        obtain ⟨c₂, rfl, hc₂⟩ := mem_sepTwo.1 h₂
        exact ⟨'T' :: (c₀ ++ c₁ ++ c₂), by simp, .second hc₀ hc₁ hc₂⟩
      · obtain ⟨c₀, rfl, hc₀⟩ := twoDigits_eq_some_iff.1 ht
        obtain ⟨c₁, rfl, hc₁⟩ := mem_sepTwo.1 h₁
        exact ⟨'T' :: (c₀ ++ c₁), by simp, .minute hc₀ hc₁⟩
      · obtain ⟨c₀, rfl, hc₀⟩ := twoDigits_eq_some_iff.1 ht
        exact ⟨'T' :: c₀, by simp, .hour hc₀⟩
      · exact ⟨[], rfl, .none⟩
    · rintro ⟨c, hc, hpart⟩
      cases hpart with
      | none => exact .inr ⟨⟨rfl, rfl, rfl⟩, by simpa using hc.symm⟩
      | hour hd =>
        rename_i c₀
        simp only [List.cons_append, List.cons.injEq, true_and] at hc
        exact .inl ⟨_, _, twoDigits_eq_some_iff.2 ⟨c₀, hc, hd⟩, .inr ⟨⟨rfl, rfl, rfl⟩, rfl⟩⟩
      | minute hd hm =>
        rename_i c₀ c₁
        simp only [List.cons_append, List.cons.injEq, true_and, List.append_assoc] at hc
        exact .inl ⟨_, _, twoDigits_eq_some_iff.2 ⟨c₀, hc, hd⟩,
          .inl ⟨_, _, mem_sepTwo.2 ⟨c₁, rfl, hm⟩, .inr ⟨⟨rfl, rfl, rfl⟩, rfl⟩⟩⟩
      | second hd hm hs =>
        rename_i c₀ c₁ c₂
        simp only [List.cons_append, List.cons.injEq, true_and, List.append_assoc] at hc
        exact .inl ⟨_, _, twoDigits_eq_some_iff.2 ⟨c₀, hc, hd⟩,
          .inl ⟨_, _, mem_sepTwo.2 ⟨c₁, rfl, hm⟩,
            .inl ⟨_, _, mem_sepTwo.2 ⟨c₂, rfl, hs⟩, ⟨rfl, rfl, rfl⟩, rfl⟩⟩⟩
  · next hT =>
    simp only [List.not_mem_nil, false_or, Prod.mk.injEq]
    constructor
    · rintro ⟨⟨rfl, rfl, rfl⟩, rfl⟩
      exact ⟨[], rfl, .none⟩
    · rintro ⟨c, rfl, hpart⟩
      cases hpart with
      | none => exact ⟨⟨rfl, rfl, rfl⟩, rfl⟩
      | hour _ => exact (hT _ rfl).elim
      | minute _ _ => exact (hT _ rfl).elim
      | second _ _ _ => exact (hT _ rfl).elim

theorem signChar_beq (neg : Bool) : (signChar neg == '-') = neg := by
  cases neg <;> rfl

theorem signChar_of_sign {x : Char} (h : (x = '+' || x = '-') = true) : signChar (x == '-') = x := by
  simp only [Bool.or_eq_true, decide_eq_true_eq] at h
  rcases h with rfl | rfl <;> rfl

theorem signChar_sign (neg : Bool) : (signChar neg = '+' || signChar neg = '-') = true := by
  cases neg <;> rfl

theorem signChar_ne_utc (neg : Bool) : signChar neg ≠ 'Z' := by
  cases neg <;> decide

/-- The readings of the zone are the ways the pattern reads a zone at the head of the text. -/
theorem mem_zoneReadings {cs r : List Char} {z : Option (Option (Bool × Nat × Nat))} :
    (z, r) ∈ zoneReadings cs ↔ ∃ c, cs = c ++ r ∧ ZonePart z c := by
  unfold zoneReadings
  rw [List.mem_append, List.mem_singleton]
  split
  · next t =>
    simp only [List.mem_singleton, Prod.mk.injEq]
    constructor
    · rintro (⟨rfl, rfl⟩ | ⟨rfl, rfl⟩)
      · exact ⟨['Z'], rfl, .utc⟩
      · exact ⟨[], rfl, .none⟩
    · rintro ⟨c, hc, hpart⟩
      cases hpart with
      | none => exact .inr ⟨rfl, by simpa using hc.symm⟩
      | utc =>
        simp only [List.cons_append, List.nil_append, List.cons.injEq, true_and] at hc
        exact .inl ⟨rfl, hc.symm⟩
      | hours _ =>
        simp only [List.cons_append, List.cons.injEq] at hc
        exact absurd hc.1.symm (signChar_ne_utc _)
      | minutes _ _ =>
        simp only [List.cons_append, List.cons.injEq] at hc
        exact absurd hc.1.symm (signChar_ne_utc _)
  · next x t hZ =>
    split
    · next hsign =>
      simp only [List.mem_flatMap, List.mem_append, List.mem_map, List.mem_singleton,
        Option.mem_toList, Prod.exists, Prod.mk.injEq]
      constructor
      · rintro (⟨hh, r₀, ht, ⟨m, r₁, h₁, rfl, rfl⟩ | ⟨rfl, rfl⟩⟩ | ⟨rfl, rfl⟩)
        · obtain ⟨c₀, rfl, hc₀⟩ := twoDigits_eq_some_iff.1 ht
          obtain ⟨c₁, rfl, hc₁⟩ := mem_sepTwo.1 h₁
          refine ⟨x :: (c₀ ++ c₁), by simp, ?_⟩
          have hzone := @ZonePart.minutes (x == '-') _ _ _ _ hc₀ hc₁
          rwa [signChar_of_sign hsign] at hzone
        · obtain ⟨c₀, rfl, hc₀⟩ := twoDigits_eq_some_iff.1 ht
          refine ⟨x :: c₀, by simp, ?_⟩
          have hzone := @ZonePart.hours (x == '-') _ _ hc₀
          rwa [signChar_of_sign hsign] at hzone
        · exact ⟨[], rfl, .none⟩
      · rintro ⟨c, hc, hpart⟩
        cases hpart with
        | none => exact .inr ⟨rfl, by simpa using hc.symm⟩
        | utc =>
          simp only [List.cons_append, List.nil_append, List.cons.injEq] at hc
          exact absurd hc.1 hZ
        | hours hd =>
          rename_i neg h₀ c₀
          simp only [List.cons_append, List.cons.injEq] at hc
          obtain ⟨rfl, hc⟩ := hc
          exact .inl ⟨_, _, twoDigits_eq_some_iff.2 ⟨c₀, hc, hd⟩, .inr ⟨by rw [signChar_beq], rfl⟩⟩
        | minutes hd hm =>
          rename_i neg h₀ mi c₀ c₁
          simp only [List.cons_append, List.cons.injEq, List.append_assoc] at hc
          obtain ⟨rfl, hc⟩ := hc
          exact .inl ⟨_, _, twoDigits_eq_some_iff.2 ⟨c₀, hc, hd⟩,
            .inl ⟨_, _, mem_sepTwo.2 ⟨c₁, rfl, hm⟩, by rw [signChar_beq], rfl⟩⟩
    · next hsign =>
      simp only [List.not_mem_nil, false_or, Prod.mk.injEq]
      constructor
      · rintro ⟨rfl, rfl⟩
        exact ⟨[], rfl, .none⟩
      · rintro ⟨c, hc, hpart⟩
        cases hpart with
        | none => exact ⟨rfl, by simpa using hc.symm⟩
        | utc =>
          simp only [List.cons_append, List.nil_append, List.cons.injEq] at hc
          exact absurd hc.1 hZ
        | hours _ =>
          simp only [List.cons_append, List.cons.injEq] at hc
          rw [hc.1] at hsign
          exact absurd (signChar_sign _) hsign
        | minutes _ _ =>
          simp only [List.cons_append, List.cons.injEq] at hc
          rw [hc.1] at hsign
          exact absurd (signChar_sign _) hsign
  · simp only [List.not_mem_nil, false_or, Prod.mk.injEq]
    constructor
    · rintro ⟨rfl, rfl⟩
      exact ⟨[], rfl, .none⟩
    · rintro ⟨c, hc, hpart⟩
      cases hpart with
      | none => exact ⟨rfl, by simpa using hc.symm⟩
      | utc => simp at hc
      | hours _ => simp at hc
      | minutes _ _ => simp at hc

/-! ## The readings of each part, the longest first -/

theorem pairwise_append_last {α : Type} {R : α → α → Prop} {l : List α} {a : α}
    (hl : l.Pairwise R) (ha : ∀ x ∈ l, R x a) : (l ++ [a]).Pairwise R :=
  List.pairwise_append.2 ⟨hl, List.pairwise_singleton _ _, fun x hx _ hy =>
    (List.mem_singleton.1 hy) ▸ ha x hx⟩

theorem pairwise_flatMap_of_length_le_one {α β : Type} {R : β → β → Prop} {l : List α}
    {g : α → List β} (hl : l.length ≤ 1) (hg : ∀ a ∈ l, (g a).Pairwise R) :
    (l.flatMap g).Pairwise R :=
  List.pairwise_flatMap.2 ⟨hg, pairwise_of_length_le_one hl⟩

theorem length_toList_le {α : Type} (o : Option α) : o.toList.length ≤ 1 := by
  cases o <;> simp

theorem length_of_twoDigits {cs r : List Char} {n : Nat} (h : twoDigits cs = some (n, r)) :
    r.length + 2 = cs.length := by
  obtain ⟨c, rfl, hc⟩ := twoDigits_eq_some_iff.1 h
  rw [List.length_append, hc.length, Nat.add_comm]

theorem length_of_mem_sepTwo {sep : Char} {cs r : List Char} {n : Nat} (h : (n, r) ∈ sepTwo sep cs) :
    r.length + 2 ≤ cs.length := by
  obtain ⟨c, rfl, hc⟩ := mem_sepTwo.1 h
  have := hc.length_ge
  rw [List.length_append]
  omega

/-- The readings of the date come the longest first: a day before a month alone before none. -/
theorem dateReadings_sorted (cs : List Char) :
    (dateReadings cs).Pairwise fun x y => dateRank y.1 < dateRank x.1 := by
  unfold dateReadings
  refine pairwise_append_last (pairwise_flatMap_of_length_le_one (length_sepTwo_le rfl cs)
    fun ⟨m, r⟩ _ => ?_) fun x hx => ?_
  · refine pairwise_append_last (pairwise_of_length_le_one
      (by rw [List.length_map]; exact length_sepTwo_le rfl r)) fun x hx => ?_
    obtain ⟨⟨d, r'⟩, -, rfl⟩ := List.mem_map.1 hx
    simp [dateRank]
  · -- every reading before the last takes a month
    obtain ⟨⟨m, r⟩, -, hx⟩ := List.mem_flatMap.1 hx
    rcases List.mem_append.1 hx with hx | hx
    · obtain ⟨⟨d, r'⟩, -, rfl⟩ := List.mem_map.1 hx
      simp [dateRank]
    · rw [List.mem_singleton] at hx
      subst hx
      simp [dateRank]

/-- The readings of the time come the longest first. -/
theorem timeReadings_sorted (cs : List Char) :
    (timeReadings cs).Pairwise fun x y => timeRank y.1 < timeRank x.1 := by
  unfold timeReadings
  split
  · next t =>
    refine pairwise_append_last (pairwise_flatMap_of_length_le_one (length_toList_le _)
      fun ⟨h, r⟩ _ => ?_) fun x hx => ?_
    · refine pairwise_append_last (pairwise_flatMap_of_length_le_one (length_sepTwo_le rfl r)
        fun ⟨mi, r'⟩ _ => ?_) fun x hx => ?_
      · refine pairwise_append_last (pairwise_of_length_le_one
          (by rw [List.length_map]; exact length_sepTwo_le rfl r')) fun x hx => ?_
        obtain ⟨⟨s, r''⟩, -, rfl⟩ := List.mem_map.1 hx
        simp [timeRank]
      · -- every reading before the hour alone takes a minute
        obtain ⟨⟨mi, r'⟩, -, hx⟩ := List.mem_flatMap.1 hx
        rcases List.mem_append.1 hx with hx | hx
        · obtain ⟨⟨s, r''⟩, -, rfl⟩ := List.mem_map.1 hx
          simp [timeRank]
        · rw [List.mem_singleton] at hx
          subst hx
          simp [timeRank]
    · -- every reading before the last takes an hour
      obtain ⟨⟨h, r⟩, -, hx⟩ := List.mem_flatMap.1 hx
      rcases List.mem_append.1 hx with hx | hx
      · obtain ⟨⟨mi, r'⟩, -, hx⟩ := List.mem_flatMap.1 hx
        rcases List.mem_append.1 hx with hx | hx
        · obtain ⟨⟨s, r''⟩, -, rfl⟩ := List.mem_map.1 hx
          simp [timeRank]
        · rw [List.mem_singleton] at hx
          subst hx
          simp [timeRank]
      · rw [List.mem_singleton] at hx
        subst hx
        simp [timeRank]
  · exact List.pairwise_singleton _ _

/-- The readings of the zone come the longest first: each leaves less than the next. -/
theorem zoneReadings_sorted (cs : List Char) :
    (zoneReadings cs).Pairwise fun x y => x.2.length < y.2.length := by
  unfold zoneReadings
  split
  · simp
  · next x t _ =>
    split
    · refine pairwise_append_last (pairwise_flatMap_of_length_le_one (length_toList_le _)
        fun ⟨h, r⟩ _ => ?_) fun y hy => ?_
      · refine pairwise_append_last (pairwise_of_length_le_one
          (by rw [List.length_map]; exact length_sepTwo_le rfl r)) fun y hy => ?_
        obtain ⟨⟨mi, r'⟩, hr', rfl⟩ := List.mem_map.1 hy
        have := length_of_mem_sepTwo hr'
        simp only
        omega
      · -- each reading leaves less than the text after the sign
        obtain ⟨⟨h, r⟩, hr, hy⟩ := List.mem_flatMap.1 hy
        have hlen := length_of_twoDigits (Option.mem_toList.1 hr)
        rcases List.mem_append.1 hy with hy | hy
        · obtain ⟨⟨mi, r'⟩, hr', rfl⟩ := List.mem_map.1 hy
          have := length_of_mem_sepTwo hr'
          simp only [List.length_cons]
          omega
        · rw [List.mem_singleton] at hy
          subst hy
          simp only [List.length_cons]
          omega
    · exact List.pairwise_singleton _ _
  · exact List.pairwise_singleton _ _

/-! ## The preferred reading -/

/-- The readings of the text after the year, in the order they are tried: by date, then time,
then zone, each longest first, of those that leave nothing. -/
def isoReadings (year : Nat) (cs : List Char) : List IsoFields :=
  (dateReadings cs).flatMap fun x => (timeReadings x.2).flatMap fun t =>
    (zoneReadings t.2).filterMap fun z =>
      if z.2.isEmpty then
        some { year, month := x.1.1, day := x.1.2, hour := t.1.1, minute := t.1.2.1,
               second := t.1.2.2, zone := z.1 }
      else none

/-- The year a text starts with, read from its first four characters. -/
def yearOf (cs : List Char) : Nat := (cs.take 4).foldl (fun a c => a * 10 + (c.toNat - 48)) 0

theorem readIso_eq (s : String) :
    readIso s = if (List.range 4).all (fun i => (s.toList.getD i ' ').isDigit) then
      (isoReadings (yearOf s.toList) (s.toList.drop 4)).head? else none := by
  unfold readIso
  cases (List.range 4).all (fun i => (s.toList.getD i ' ').isDigit) <;> rfl

/-- The readings tried are the ways the pattern reads the text after the year. -/
theorem mem_isoReadings {y : Nat} {cs : List Char} {f : IsoFields} :
    f ∈ isoReadings y cs ↔ f.year = y ∧ ∃ d t z, cs = d ++ t ++ z ∧ DatePart f.month f.day d ∧
      TimePart f.hour f.minute f.second t ∧ ZonePart f.zone z := by
  simp only [isoReadings, List.mem_flatMap, List.mem_filterMap, Option.ite_none_right_eq_some,
    Option.some.injEq, List.isEmpty_iff, Prod.exists]
  constructor
  · rintro ⟨mo, d, r, hdr, h, mi, sec, r', htr, z, r'', hzr, rfl, rfl⟩
    obtain ⟨c₁, rfl, hd⟩ := mem_dateReadings.1 hdr
    obtain ⟨c₂, rfl, ht⟩ := mem_timeReadings.1 htr
    obtain ⟨c₃, rfl, hz⟩ := mem_zoneReadings.1 hzr
    exact ⟨rfl, c₁, c₂, c₃, by simp, hd, ht, hz⟩
  · rintro ⟨rfl, c₁, c₂, c₃, rfl, hd, ht, hz⟩
    exact ⟨_, _, c₂ ++ c₃, mem_dateReadings.2 ⟨c₁, by simp, hd⟩, _, _, _, c₃,
      mem_timeReadings.2 ⟨c₂, rfl, ht⟩, _, [], mem_zoneReadings.2 ⟨c₃, by simp, hz⟩, rfl, rfl⟩

theorem dateRank_le (x : Option Nat × Option Nat) : dateRank x ≤ 3 := by
  have := Bool.toNat_le x.1.isSome
  have := Bool.toNat_le x.2.isSome
  unfold dateRank
  omega

theorem timeRank_le (x : Option Nat × Option Nat × Option Nat) : timeRank x ≤ 7 := by
  have := Bool.toNat_le x.1.isSome
  have := Bool.toNat_le x.2.1.isSome
  have := Bool.toNat_le x.2.2.isSome
  unfold timeRank
  omega

/-- The readings are tried in the order of their rank, the highest first. -/
theorem isoReadings_sorted (y : Nat) (cs : List Char) :
    (isoReadings y cs).Pairwise fun f f' => f'.rank < f.rank := by
  unfold isoReadings
  -- the date readings, then for each the time readings, come in the order of their rank; of
  -- the zone readings after them at most one leaves nothing
  refine List.pairwise_flatMap.2 ⟨fun x _ => List.pairwise_flatMap.2 ⟨fun t _ =>
    List.pairwise_filterMap.2 ((zoneReadings_sorted t.2).imp fun {z z'} hzz' => ?zone),
    (timeReadings_sorted x.2).imp fun {t t'} htt' => ?time⟩,
    (dateReadings_sorted cs).imp fun {x x'} hxx' => ?date⟩
  case zone =>
    intro f hf f' hf'
    simp only [Option.ite_none_right_eq_some, List.isEmpty_iff] at hf hf'
    rw [hf.1, hf'.1] at hzz'
    exact absurd hzz' (Nat.lt_irrefl 0)
  case time =>
    intro f hf f' hf'
    simp only [List.mem_filterMap, Option.ite_none_right_eq_some, Option.some.injEq] at hf hf'
    obtain ⟨z, -, -, rfl⟩ := hf
    obtain ⟨z', -, -, rfl⟩ := hf'
    have := Bool.toNat_le z.1.isSome
    have := Bool.toNat_le z'.1.isSome
    simp only [IsoFields.rank, Prod.mk.eta]
    omega
  case date =>
    intro f hf f' hf'
    simp only [List.mem_flatMap, List.mem_filterMap, Option.ite_none_right_eq_some,
      Option.some.injEq] at hf hf'
    obtain ⟨t, -, z, -, -, rfl⟩ := hf
    obtain ⟨t', -, z', -, -, rfl⟩ := hf'
    have := Bool.toNat_le z.1.isSome
    have := Bool.toNat_le z'.1.isSome
    have := timeRank_le t.1
    have := timeRank_le t'.1
    simp only [IsoFields.rank, Prod.mk.eta]
    omega

/-- The first of a list sorted by a descending key is the element of the highest key. -/
theorem head?_eq_some_iff_of_sorted {α : Type} {k : α → Nat} {l : List α}
    (hl : l.Pairwise fun x y => k y < k x) {a : α} :
    l.head? = some a ↔ a ∈ l ∧ ∀ b ∈ l, k b ≤ k a := by
  cases l with
  | nil => simp
  | cons x t =>
    rw [List.pairwise_cons] at hl
    simp only [List.head?_cons, Option.some.injEq, List.mem_cons, forall_eq_or_imp]
    constructor
    · rintro rfl
      exact ⟨.inl rfl, Nat.le_refl _, fun b hb => Nat.le_of_lt (hl.1 b hb)⟩
    · rintro ⟨rfl | ha, hle, -⟩
      · rfl
      · exact absurd hle (Nat.not_le.2 (hl.1 a ha))

theorem yearDigits_iff (cs : List Char) :
    ((List.range 4).all fun i => (cs.getD i ' ').isDigit) = true ↔
      YearDigits (yearOf cs) (cs.take 4) := by
  rcases cs with _ | ⟨a, _ | ⟨b, _ | ⟨c, _ | ⟨d, r⟩⟩⟩⟩ <;>
    simp [YearDigits, yearOf, List.range_succ]

/-- A reading of a text is four digits of year and one of the readings tried after them. -/
theorem isoReading_iff {f : IsoFields} {cs : List Char} :
    IsoReading f cs ↔ YearDigits (yearOf cs) (cs.take 4) ∧ f ∈ isoReadings (yearOf cs) (cs.drop 4) := by
  constructor
  · rintro ⟨y, d, t, z, rfl, hy, hd, ht, hz⟩
    have htake : (y ++ d ++ t ++ z).take 4 = y := by
      simp only [List.append_assoc]
      exact List.take_left' hy.1
    have hdrop : (y ++ d ++ t ++ z).drop 4 = d ++ t ++ z := by
      simp only [List.append_assoc]
      exact List.drop_left' hy.1
    have hyear : yearOf (y ++ d ++ t ++ z) = f.year := by
      rw [yearOf, htake, hy.2.2]
    rw [htake, hdrop, hyear]
    exact ⟨hy, mem_isoReadings.2 ⟨rfl, d, t, z, rfl, hd, ht, hz⟩⟩
  · rintro ⟨hy, hmem⟩
    obtain ⟨hyear, d, t, z, hrest, hd, ht, hz⟩ := mem_isoReadings.1 hmem
    refine ⟨cs.take 4, d, t, z, ?_, hyear ▸ hy, hd, ht, hz⟩
    have hsplit := (List.take_append_drop 4 cs).symm
    rw [hrest] at hsplit
    simpa only [List.append_assoc] using hsplit

/-- The fields read from a text are those of its preferred reading. -/
theorem readIso_eq_some_iff {s : String} {f : IsoFields} :
    readIso s = some f ↔ PreferredReading f s.toList := by
  rw [readIso_eq]
  split
  · next hall =>
    have hy := (yearDigits_iff _).1 hall
    rw [head?_eq_some_iff_of_sorted (isoReadings_sorted _ _), PreferredReading]
    simp only [isoReading_iff, hy, true_and]
  · next hall =>
    exact ⟨fun h => (by cases h), fun h => absurd ((yearDigits_iff _).2 (isoReading_iff.1 h.1).1) hall⟩

/-- `2020-06-01` is also June at a zone an hour behind, but the day is read. -/
example : PreferredReading { year := 2020, month := some 6, day := some 1 } "2020-06-01".toList :=
  readIso_eq_some_iff.1 rfl

/-- No fields are read from a text exactly when the pattern does not match it. -/
theorem readIso_eq_none_iff {s : String} : readIso s = none ↔ ∀ f, ¬ IsoReading f s.toList := by
  rw [readIso_eq]
  split
  · next hall =>
    have hy := (yearDigits_iff _).1 hall
    simp only [List.head?_eq_none_iff, isoReading_iff, hy, true_and]
    exact ⟨fun h f hf => by simp [h] at hf, fun h => List.eq_nil_iff_forall_not_mem.2 h⟩
  · next hall =>
    exact ⟨fun _ f h => hall ((yearDigits_iff _).2 (isoReading_iff.1 h).1), fun _ => rfl⟩

/-! ## Reading a point -/

/-- Read fields give a point exactly when they name a real date and time, and then the point at
their Unix second. -/
theorem parseIso_eq_ok_iff {s : String} {f : IsoFields} (h : readIso s = some f) {p : Point} :
    parseIso s = .ok p ↔ f.Real ∧ p = ofUnix f.unixSecond := by
  unfold parseIso
  rw [h]
  obtain ⟨year, month, day, hour, minute, second, zone⟩ := f
  simp only [IsoFields.Real, IsoFields.unixSecond, IsoFields.offset]
  rcases zone with _ | _ | ⟨neg, zh, zm⟩
  all_goals dsimp only
  case' some.some =>
    split
    · -- a zone offset out of range is refused before the fields
      next e hz =>
      split at hz
      · next hbad =>
        simp only [Bool.or_eq_true, decide_eq_true_eq] at hbad
        simp only [reduceCtorEq, false_iff, not_and]
        intro hreal
        have := hreal.2.2.2.2.2.2.2 neg zh zm rfl
        omega
      · cases hz
    rename_i off hz
    split at hz
    · cases hz
    rename_i hok
    simp only [Bool.or_eq_true, decide_eq_true_eq, not_or, Nat.not_lt] at hok
    cases hz
  all_goals
    split
    · next hbad =>
      simp only [Bool.or_eq_true, decide_eq_true_eq] at hbad
      simp only [reduceCtorEq, false_iff, not_and]
      intro hreal
      omega
    · next hbad =>
      simp only [Bool.or_eq_true, decide_eq_true_eq, not_or, Nat.not_lt] at hbad
      rw [unixOf_eq_civilSecond _ (by omega) (by omega), Except.ok.injEq]
      constructor
      · rintro rfl
        refine ⟨⟨by omega, by omega, by omega, by omega, by omega, by omega, by omega, ?_⟩, rfl⟩
        intro neg' h' mi' hzone
        cases hzone <;> omega
      · rintro ⟨-, rfl⟩
        rfl

/-- A refused text is refused as a malformed point. -/
theorem parseIso_error {s : String} {e : Failure} (h : parseIso s = .error e) :
    ∃ reason, e = .malformed s reason := by
  unfold parseIso at h
  cases hr : readIso s with
  | none =>
    rw [hr] at h
    exact ⟨_, (Except.error.inj h).symm⟩
  | some f =>
    rw [hr] at h
    obtain ⟨year, month, day, hour, minute, second, zone⟩ := f
    rcases zone with _ | _ | ⟨neg, zh, zm⟩
    all_goals dsimp only at h
    case' some.some.some =>
      -- the zone is checked first
      split at h
      · next e' hoff =>
        split at hoff
        · exact ⟨_, ((Except.error.inj hoff).trans (Except.error.inj h)).symm⟩
        · cases hoff
    all_goals
      split at h
      · exact ⟨_, (Except.error.inj h).symm⟩
      · cases h

/-! ## Bounds -/

theorem digit_le_nine {c : Char} (h : c.isDigit = true) : c.toNat - 48 ≤ 9 := by
  simp only [Char.isDigit, Bool.and_eq_true, decide_eq_true_eq] at h
  obtain ⟨-, h₂⟩ := h
  have : c.val.toNat ≤ 57 := by
    rw [UInt32.le_iff_toNat_le] at h₂
    exact h₂
  simp only [Char.toNat]
  omega

/-- Four digits of year are a year before 10000. -/
theorem YearDigits.lt {y : Nat} {cs : List Char} (h : YearDigits y cs) : y < 10000 := by
  obtain ⟨hlen, hdig, rfl⟩ := h
  match cs, hlen with
  | [a, b, c, d], _ =>
    simp only [List.mem_cons, List.not_mem_nil, or_false, forall_eq_or_imp, forall_eq] at hdig
    have := digit_le_nine hdig.1
    have := digit_le_nine hdig.2.1
    have := digit_le_nine hdig.2.2.1
    have := digit_le_nine hdig.2.2.2
    simp only [List.foldl]
    omega

/-- A reading's year has four digits. -/
theorem IsoReading.year_lt {f : IsoFields} {cs : List Char} (h : IsoReading f cs) :
    f.year < 10000 := by
  obtain ⟨y, -, -, -, -, hy, -⟩ := h
  exact hy.lt

theorem daysInMonth_le (y : Int) (m : Nat) : daysInMonth y m ≤ 31 := by
  unfold daysInMonth
  split <;> (try split) <;> omega

theorem daysBeforeYear_le (y : Nat) : daysBeforeYear y ≤ 366 * y + 1 := by
  have := daysBeforeYear_eq y
  omega

theorem daysBeforeMonth_le (y : Int) (m : Nat) : daysBeforeMonth y m ≤ 31 * m := by
  fun_induction daysBeforeMonth y m with
  | case1 => omega
  | case2 => omega
  | case3 m ih =>
    have := daysInMonth_le y (m + 1)
    omega

theorem offset_bounds {f : IsoFields}
    (hz : ∀ neg h mi, f.zone = some (some (neg, h, mi)) → h ≤ 23 ∧ mi ≤ 59) :
    -86400 ≤ f.offset ∧ f.offset ≤ 86400 := by
  unfold IsoFields.offset
  split
  · next neg h mi heq =>
    have := hz neg h mi heq
    split <;> omega
  · omega

/-- The Unix second of a real date and time of a four-digit year fits a word. -/
theorem unixSecond_bounds {f : IsoFields} (hy : f.year < 10000) (hf : f.Real) :
    -2 ^ 63 ≤ f.unixSecond ∧ f.unixSecond < 2 ^ 63 := by
  obtain ⟨hm₁, hm₂, hd₁, hd₂, hh, hmi, hs, hz⟩ := hf
  have hY := daysBeforeYear_le f.year
  have hM := daysBeforeMonth_le f.year (f.month.getD 1)
  have hD := daysInMonth_le f.year (f.month.getD 1)
  have hoff := offset_bounds hz
  simp only [IsoFields.unixSecond, civilSecond, daysBeforeYear_epoch]
  omega

theorem eq_ofUnix_iff {p : Point} {v : Int} (h₁ : -2 ^ 63 ≤ v) (h₂ : v < 2 ^ 63) :
    p = ofUnix v ↔ p.mode = .gregorian ∧ p.val.toInt = v := by
  obtain ⟨mode, val⟩ := p
  simp only [ofUnix, Point.mk.injEq]
  constructor
  · rintro ⟨rfl, rfl⟩
    exact ⟨rfl, Int64.toInt_ofInt_of_le h₁ h₂⟩
  · rintro ⟨rfl, rfl⟩
    exact ⟨rfl, (Int64.ofInt_toInt val).symm⟩

/-! ## Reading Gregorian points -/

/-- A Gregorian point is read from a text exactly when the preferred reading of the text, its
blanks trimmed, names a real date and time, and it is then the Unix second of that local date
and time less the zone offset; any other text is refused as a malformed point. -/
theorem parse_gregorian_iff (text : String) :
    (∀ p, parse .gregorian text = .ok p ↔ ∃ f, PreferredReading f (Text.trimBlank text).toList ∧
      f.Real ∧ p.mode = .gregorian ∧ p.val.toInt = f.unixSecond) ∧
    ∀ e, parse .gregorian text = .error e → ∃ reason, e = .malformed (Text.trimBlank text) reason := by
  have hparse : parse .gregorian text = parseIso (Text.trimBlank text) := rfl
  rw [hparse]
  refine ⟨fun p => ?_, fun e he => parseIso_error he⟩
  cases hr : readIso (Text.trimBlank text) with
  | none =>
    -- no reading is preferred, so none is read
    have hnone : parseIso (Text.trimBlank text) =
        .error (.malformed (Text.trimBlank text) "not an ISO 8601 date-time") := by
      unfold parseIso
      rw [hr]
    rw [hnone]
    simp only [reduceCtorEq, false_iff, not_exists, not_and]
    intro f hf
    rw [readIso_eq_some_iff.2 hf] at hr
    cases hr
  | some f =>
    have hpref := readIso_eq_some_iff.1 hr
    have hy := hpref.1.year_lt
    rw [parseIso_eq_ok_iff hr]
    constructor
    · rintro ⟨hreal, rfl⟩
      have hb := unixSecond_bounds hy hreal
      exact ⟨f, hpref, hreal, (eq_ofUnix_iff hb.1 hb.2).1 rfl⟩
    · rintro ⟨f', hpref', hreal, hp⟩
      -- the preferred reading is the one read
      obtain rfl : f' = f := Option.some.inj ((readIso_eq_some_iff.2 hpref').symm.trans hr)
      have hb := unixSecond_bounds hy hreal
      exact ⟨hreal, (eq_ofUnix_iff hb.1 hb.2).2 hp⟩

end CycleSched.Point
