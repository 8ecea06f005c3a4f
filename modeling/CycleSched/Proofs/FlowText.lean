import Mathlib.Logic.Basic
import CycleSched.Proofs.Instance

/-!
# Flow sets read back from their written form

A flow set is written as a JSON list of its numbers (`FlowSet.toText`) and read back by a JSON
reader that keeps the text of each number (`FlowSet.parse`). A number is written as its decimal
digits, after a `-` when it is negative and with no leading zero; the reader takes exactly those
characters as the number, and accepts its value when it fits a 64-bit word. So a flow set as the
pool holds one, ascending without repeats and of 64-bit words, reads back as itself
(`FlowSet.parse_toText`).
-/

namespace CycleSched

/-- A flow set as the pool holds one: its numbers ascending without repeats, each a 64-bit
word. -/
structure FlowSet.Normal (f : FlowSet) : Prop where
  sorted : f.nums.Pairwise (· < ·)
  words : ∀ n ∈ f.nums, -9223372036854775808 ≤ n ∧ n < 9223372036854775808

namespace Text.Json

/-- A text that may follow a number in a list: empty, or the next separator or the closing
bracket. -/
def AfterNumber (rest : List Char) : Prop := ∀ c ∈ rest.head?, c = ',' ∨ c = ']'

theorem isDigit_of_mem_toDigits {m : Nat} {c : Char} (h : c ∈ Nat.toDigits 10 m) : c.isDigit :=
  Nat.isDigit_of_mem_toDigits (by decide) (by decide) h

/-- The decimal digits of a positive number start with a digit other than `0`. -/
theorem toDigits_head_ne_zero {m : Nat} (hm : 0 < m) :
    ∃ c cs, Nat.toDigits 10 m = c :: cs ∧ c ≠ '0' := by
  induction m using Nat.strongRecOn with
  | ind m ih =>
    rw [Nat.toDigits_eq_if (by decide)]
    split
    · exact ⟨_, [], rfl, by simp; omega⟩
    · obtain ⟨c, cs, h, hc⟩ := ih (m / 10) (by omega) (by omega)
      exact ⟨c, cs ++ [Nat.digitChar (m % 10)], by rw [h]; rfl, hc⟩

theorem digits_append {ds rest : List Char} (hds : ∀ c ∈ ds, c.isDigit)
    (hrest : AfterNumber rest) : digits (ds ++ rest) = (ds, rest) := by
  unfold digits
  rw [List.takeWhile_append_of_pos hds, List.dropWhile_append_of_pos hds]
  cases rest with
  | nil => simp
  | cons c r =>
    have hc : c.isDigit = false := by
      rcases hrest c rfl with rfl | rfl <;> rfl
    simp [hc]

theorem numberTail_after {rest : List Char} (hrest : AfterNumber rest) :
    numberTail rest = .ok ([], rest) := by
  cases rest with
  | nil => rfl
  | cons c r => rcases hrest c rfl with rfl | rfl <;> rfl

/-- The digits of a number, followed by what may follow a number in a list, read as the
number's text and the rest. -/
theorem number_toDigits (m : Nat) {rest : List Char} (hrest : AfterNumber rest) :
    number (Nat.toDigits 10 m ++ rest) = .ok (.number (String.ofList (Nat.toDigits 10 m)), rest) := by
  rcases Nat.eq_zero_or_pos m with rfl | hm
  · simp [number, Nat.toDigits_zero, numberTail_after hrest, Functor.map, Except.map]
  · obtain ⟨c, cs, hds, hc⟩ := toDigits_head_ne_zero hm
    have hdig : c.isDigit := isDigit_of_mem_toDigits (by rw [hds]; exact List.mem_cons_self ..)
    have hcs : ∀ x ∈ cs, x.isDigit := fun x hx =>
      isDigit_of_mem_toDigits (by rw [hds]; exact List.mem_cons_of_mem _ hx)
    have hminus : c ≠ '-' := by rintro rfl; cases hdig
    rw [hds]
    simp [number, hc, hdig, hminus, digits_append hcs hrest, numberTail_after hrest, Functor.map,
      Except.map]

/-- The digits of a negative number after its `-`, followed by what may follow a number in a
list, read as the number's text and the rest. -/
theorem number_minus_toDigits {m : Nat} (hm : 0 < m) {rest : List Char} (hrest : AfterNumber rest) :
    number ('-' :: (Nat.toDigits 10 m ++ rest)) =
      .ok (.number (String.ofList ('-' :: Nat.toDigits 10 m)), rest) := by
  obtain ⟨c, cs, hds, hc⟩ := toDigits_head_ne_zero hm
  have hdig : c.isDigit := isDigit_of_mem_toDigits (by rw [hds]; exact List.mem_cons_self ..)
  have hcs : ∀ x ∈ cs, x.isDigit := fun x hx =>
    isDigit_of_mem_toDigits (by rw [hds]; exact List.mem_cons_of_mem _ hx)
  rw [hds]
  simp [number, hc, hdig, digits_append hcs hrest, numberTail_after hrest, Functor.map,
    Except.map]

/-- The written form of an integer, followed by what may follow a number in a list, reads as
that number's text and the rest. -/
theorem number_toString (n : Int) {rest : List Char} (hrest : AfterNumber rest) :
    number ((toString n).toList ++ rest) = .ok (.number (toString n), rest) := by
  cases n with
  | ofNat m =>
    have h := number_toDigits m hrest
    simpa [Int.repr, Nat.repr_eq_ofList_toDigits] using h
  | negSucc m =>
    have h := number_minus_toDigits (Nat.succ_pos m) hrest
    simpa [Int.repr, Nat.repr_eq_ofList_toDigits] using h

/-- Reading the digits of a number back gives the number. -/
theorem foldl_toDigits (m : Nat) :
    (Nat.toDigits 10 m).foldl (fun a c => a * 10 + (c.toNat - 48)) 0 = m := by
  have hf : (fun (a : Nat) (c : Char) => a * 10 + (c.toNat - 48)) =
      fun a c => 10 * a + (c.toNat - '0'.toNat) := by
    funext a c
    rw [Nat.mul_comm]
    rfl
  rw [hf]
  exact Nat.ofDigitChars_ten_toDigits

theorem two_pow_63 : Int.pow 2 63 = 9223372036854775808 := by decide

/-- An integer is written as a `-` when it is negative, then the digits of its size. -/
theorem toString_sign_digits (n : Int) : ∃ (neg : Bool) (k : Nat),
    (toString n).toList = (if neg then ['-'] else []) ++ Nat.toDigits 10 k ∧
      n = (if neg then -(k : Int) else k) ∧ (toString n).startsWith "-" = neg ∧
      (toString n).toList.filter Char.isDigit = Nat.toDigits 10 k := by
  obtain ⟨neg, k, htext, hn⟩ : ∃ (neg : Bool) (k : Nat),
      (toString n).toList = (if neg then ['-'] else []) ++ Nat.toDigits 10 k ∧
        n = if neg then -(k : Int) else k := by
    cases n with
    | ofNat m => exact ⟨false, m, by simp [Int.repr], rfl⟩
    | negSucc m => exact ⟨true, m + 1, by simp [Int.repr], rfl⟩
  have hall : ∀ x ∈ Nat.toDigits 10 k, x.isDigit := fun x hx => isDigit_of_mem_toDigits hx
  refine ⟨neg, k, htext, hn, ?_, ?_⟩
  · obtain ⟨c, cs, hds⟩ : ∃ c cs, Nat.toDigits 10 k = c :: cs :=
      List.exists_cons_of_ne_nil Nat.toDigits_ne_nil
    have hc : c ≠ '-' := fun h => by
      have := hall c (by rw [hds]; exact List.mem_cons_self ..)
      rw [h] at this
      cases this
    cases neg
    · rw [String.startsWith_string_eq_false_iff, htext, hds]
      simp [Ne.symm hc]
    · rw [String.startsWith_string_iff, htext]
      simp
  · rw [htext, List.filter_append, List.filter_eq_self.2 hall]
    cases neg <;> rfl

/-- The written form of a 64-bit word reads back as the word. -/
theorem integer?_toString {n : Int} (hlo : -9223372036854775808 ≤ n)
    (hhi : n < 9223372036854775808) : (Shape.number (toString n)).integer? = .ok n := by
  obtain ⟨neg, k, htext, hn, hsw, hfilter⟩ := toString_sign_digits n
  obtain ⟨c, cs, hds⟩ : ∃ c cs, Nat.toDigits 10 k = c :: cs :=
    List.exists_cons_of_ne_nil Nat.toDigits_ne_nil
  have hall : ∀ x ∈ Nat.toDigits 10 k, x.isDigit := fun x hx => isDigit_of_mem_toDigits hx
  unfold Shape.integer?
  simp only [hfilter, hsw, foldl_toDigits, ← hn]
  rw [if_pos]
  simp only [Bool.and_eq_true, decide_eq_true_eq, two_pow_63]
  refine ⟨⟨?_, by omega⟩, hhi⟩
  -- the characters after the sign are the digits
  rw [htext, hds]
  cases neg
  · split
    · next ds h =>
      have := hall '-' (by rw [hds, (List.cons.inj h).1]; exact List.mem_cons_self ..)
      cases this
    · rw [← hds]
      simpa using hall
  · simp only [if_true, List.cons_append, List.nil_append]
    rw [← hds]
    simpa using hall

/-- Whatever the range, an integer's written form reads as no other integer. -/
theorem eq_of_integer?_toString {n m : Int} (h : (Shape.number (toString n)).integer? = .ok m) :
    m = n := by
  obtain ⟨neg, k, -, hn, hsw, hfilter⟩ := toString_sign_digits n
  unfold Shape.integer? at h
  simp only [hfilter, hsw, foldl_toDigits, ← hn] at h
  rcases ite_eq_iff.1 h with ⟨-, h⟩ | ⟨-, h⟩
  · exact (Except.ok.inj h).symm
  · cases h

/-- The written form of an integer starts with a `-` or a digit. -/
theorem toString_head (n : Int) :
    ∃ c cs, (toString n).toList = c :: cs ∧ (c = '-' ∨ c.isDigit = true) := by
  cases n with
  | ofNat m =>
    obtain ⟨c, cs, hds⟩ : ∃ c cs, Nat.toDigits 10 m = c :: cs :=
      List.exists_cons_of_ne_nil Nat.toDigits_ne_nil
    refine ⟨c, cs, by simp [Int.repr, hds], Or.inr (isDigit_of_mem_toDigits (m := m) ?_)⟩
    rw [hds]
    exact List.mem_cons_self ..
  | negSucc m => exact ⟨'-', Nat.toDigits 10 (m + 1), by simp [Int.repr], Or.inl rfl⟩

theorem ne_of_isDigit {c d : Char} (hc : c.isDigit = true) (hd : d.isDigit = false) : c ≠ d := by
  rintro rfl
  simp_all

/-- The first character of a number is none of the characters that start another kind of value
or are skipped as blanks. -/
theorem numberStart {c : Char} (hc : c = '-' ∨ c.isDigit = true) :
    isSpace c = false ∧ c ≠ '{' ∧ c ≠ '[' ∧ c ≠ '"' ∧ c ≠ ']' ∧ (c = '-' || c.isDigit) = true := by
  rcases hc with rfl | hc
  · decide
  · have h := fun (d : Char) (hd : d.isDigit = false) => ne_of_isDigit hc hd
    simp [isSpace, h ' ' rfl, h '\t' rfl, h '\n' rfl, h '\r' rfl, h '{' rfl, h '[' rfl, h '"' rfl, h ']' rfl,
      hc]

/-- An integer's written form, where a value is looked for, reads as that number. -/
theorem value_toString (fuel : Nat) (n : Int) {rest : List Char} (hrest : AfterNumber rest) :
    value (fuel + 1) ((toString n).toList ++ rest) = .ok (.number (toString n), rest) := by
  obtain ⟨c, cs, htext, hc⟩ := toString_head n
  obtain ⟨hspace, hbrace, hbracket, hquote, -, hnum⟩ := numberStart hc
  rw [← number_toString n hrest, htext]
  simp [value, skipSpace, hspace, hbrace, hbracket, hquote, hnum]

theorem afterNumber_cons {c : Char} {r : List Char} (h : c = ',' ∨ c = ']') :
    AfterNumber (c :: r) := by
  intro d hd
  simp only [List.head?_cons, Option.mem_def, Option.some.injEq] at hd
  exact hd ▸ h

/-- The written forms of integers between commas, up to the closing bracket, read as the
elements of a list of those numbers. Each element spends one step of fuel and at least two
characters. -/
theorem elements_toString (n : Int) (ns : List Int) (acc : List Shape) (fuel : Nat)
    (rest : List Char) (hfuel : (",".intercalate ((n :: ns).map toString)).toList.length + 2 ≤ fuel) :
    elements fuel acc ((",".intercalate ((n :: ns).map toString)).toList ++ ']' :: rest) =
      .ok (.array (acc.reverse ++ (n :: ns).map fun m => Shape.number (toString m)), rest) := by
  induction ns generalizing n acc fuel with
  | nil =>
    obtain ⟨f, rfl⟩ : ∃ f, fuel = f + 2 := ⟨fuel - 2, by simp at hfuel; omega⟩
    rw [List.map_singleton, String.intercalate_singleton, elements.eq_2,
      value_toString f n (afterNumber_cons (Or.inr rfl))]
    refine Eq.trans (?_ : _ = .ok (.array (Shape.number (toString n) :: acc).reverse, rest)) ?_
    · rfl
    · simp
  | cons m ns ih =>
    obtain ⟨f, rfl⟩ : ∃ f, fuel = f + 1 := ⟨fuel - 1, by simp at hfuel; omega⟩
    obtain ⟨g, rfl⟩ : ∃ g, f = g + 1 := ⟨f - 1, by simp at hfuel; omega⟩
    have htail := ih m (Shape.number (toString n) :: acc) (g + 1) (by simp at hfuel ⊢; omega)
    have hcomma : ",".toList = [','] := rfl
    rw [List.map_cons, List.map_cons, String.intercalate_cons_cons, String.toList_append,
      String.toList_append, hcomma, List.append_assoc, List.append_assoc, List.singleton_append,
      elements.eq_2,
      value_toString g n (afterNumber_cons (Or.inl rfl))]
    -- after the first number and its comma, the rest is read with that number kept
    refine Eq.trans ?_ (htail.trans ?_)
    · rfl
    · simp

/-- A list of integers written between commas starts with the first one's written form. -/
theorem intercalate_toString (n : Int) (ns : List Int) :
    ∃ t, (",".intercalate ((n :: ns).map toString)).toList = (toString n).toList ++ t := by
  cases ns with
  | nil => exact ⟨[], by simp⟩
  | cons m ns => exact ⟨_, by rw [List.map_cons, List.map_cons, String.intercalate_cons_cons,
      String.toList_append, String.toList_append, List.append_assoc]⟩

/-- The body of a nonempty list of integers, after its opening bracket, reads as the list. -/
theorem array_toString (n : Int) (ns : List Int) (fuel : Nat) (rest : List Char)
    (hfuel : (",".intercalate ((n :: ns).map toString)).toList.length + 2 ≤ fuel) :
    array (fuel + 1) ((",".intercalate ((n :: ns).map toString)).toList ++ ']' :: rest) =
      .ok (.array ((n :: ns).map fun m => Shape.number (toString m)), rest) := by
  obtain ⟨t, ht⟩ := intercalate_toString n ns
  obtain ⟨c, cs, htext, hc⟩ := toString_head n
  obtain ⟨hspace, -, -, -, hclose, -⟩ := numberStart hc
  -- the body starts with the first number, which is neither a blank nor the closing bracket
  have hskip : skipSpace ((",".intercalate ((n :: ns).map toString)).toList ++ ']' :: rest) =
      c :: (cs ++ t ++ ']' :: rest) := by
    rw [ht, htext]
    simp [skipSpace, hspace]
  rw [array.eq_2]
  split
  · next h => rw [hskip] at h; cases h
  · next r h =>
    rw [hskip] at h
    exact absurd (List.cons.inj h).1 hclose
  · simpa using elements_toString n ns [] fuel rest hfuel

theorem toText_toList (f : FlowSet) :
    f.toText.toList = '[' :: ((",".intercalate (f.nums.map toString)).toList ++ [']']) := by
  simp [FlowSet.toText]

/-- A flow set's written form reads as the list of its numbers' texts. -/
theorem read_toText (f : FlowSet) :
    read f.toText = .ok (.array (f.nums.map fun m => Shape.number (toString m))) := by
  rcases f with ⟨_ | ⟨n, ns⟩⟩
  · rfl
  · unfold read
    have hskip : ∀ xs, skipSpace ('[' :: xs) = '[' :: xs := fun xs => rfl
    simp only [toText_toList]
    rw [value.eq_2, hskip]
    dsimp only
    rw [if_neg (by decide : ¬ '[' = '{'), if_pos rfl,
      array_toString n ns _ [] (by simp; omega)]
    rfl

/-- Numbers' texts, each read back by `f` whatever its position, read as the numbers. -/
theorem mapM_zipIdx_number {ε : Type} {f : Shape × Nat → Except ε Int} (ns : List Int)
    (hf : ∀ n ∈ ns, ∀ i, f (.number (toString n), i) = .ok n) (i : Nat) :
    ((ns.map fun n => Shape.number (toString n)).zipIdx i).mapM f = .ok ns := by
  induction ns generalizing i with
  | nil => rfl
  | cons n ns ih =>
    have hn := hf n List.mem_cons_self i
    have hrest := ih (fun m hm => hf m (List.mem_cons_of_mem n hm)) (i + 1)
    simp only [List.map_cons, List.zipIdx_cons, List.mapM_cons, hn, hrest]
    rfl

/-- Numbers' texts, each read by `f` as no other number, read as no other list. -/
theorem eq_of_mapM_zipIdx_number {ε : Type} {f : Shape × Nat → Except ε Int} (ns : List Int)
    (hf : ∀ n ∈ ns, ∀ i m, f (.number (toString n), i) = .ok m → m = n) (i : Nat) {ms : List Int}
    (h : ((ns.map fun n => Shape.number (toString n)).zipIdx i).mapM f = .ok ms) : ms = ns := by
  induction ns generalizing i ms with
  | nil => exact (Except.ok.inj h).symm
  | cons n ns ih =>
    simp only [List.map_cons, List.zipIdx_cons, List.mapM_cons] at h
    obtain ⟨m, hm, h⟩ := Except.bind_eq_ok_iff.1 h
    obtain ⟨ms', hms', h⟩ := Except.bind_eq_ok_iff.1 h
    cases h
    rw [hf n List.mem_cons_self i m hm, ih (fun m hm => hf m (List.mem_cons_of_mem n hm)) (i + 1) hms']

/-- The texts of 64-bit words read as a list of integers. -/
theorem integers_toString (ns : List Int)
    (hw : ∀ n ∈ ns, -9223372036854775808 ≤ n ∧ n < 9223372036854775808) :
    integers (ns.map fun n => Shape.number (toString n)) = .ok ns := by
  unfold integers
  rw [mapM_zipIdx_number ns (fun n hn i => ?_) 0]
  · rfl
  · obtain ⟨hlo, hhi⟩ := hw n hn
    show (Shape.integer? _).mapError _ = _
    rw [integer?_toString hlo hhi]
    rfl

/-- A flow set of 64-bit words, written and read back as a list of integers, gives its numbers. -/
theorem readIntList_toText (f : FlowSet)
    (hw : ∀ n ∈ f.nums, -9223372036854775808 ≤ n ∧ n < 9223372036854775808) :
    readIntList f.toText = .ok f.nums := by
  unfold readIntList
  rw [read_toText]
  exact integers_toString f.nums hw

/-- A flow set's written form reads as its numbers, when it reads at all. -/
theorem eq_of_readIntList_toText {f : FlowSet} {ns : List Int} (h : readIntList f.toText = .ok ns) :
    ns = f.nums := by
  unfold readIntList at h
  rw [read_toText] at h
  unfold integers at h
  refine eq_of_mapM_zipIdx_number f.nums (fun n _ i m hn => ?_) 0 (Except.mapError_eq_ok_iff.1 h)
  exact eq_of_integer?_toString (Except.mapError_eq_ok_iff.1 hn)

end Text.Json

namespace FlowSet

/-- Building a set from an ascending list without repeats keeps the list. -/
theorem ofList_of_sorted {l : List Int} (h : l.Pairwise (· < ·)) : ofList l = ⟨l⟩ := by
  suffices hfold : l.foldr insertSorted [] = l by simp [ofList, hfold]
  induction l with
  | nil => rfl
  | cons a l ih =>
    rw [List.pairwise_cons] at h
    rw [List.foldr_cons, ih h.2]
    cases l with
    | nil => rfl
    | cons b r => simp [insertSorted, h.1 b List.mem_cons_self]

/-- A flow set as the pool holds one reads back from its written form as itself. -/
theorem parse_toText {f : FlowSet} (hf : f.Normal) : parse f.toText = .ok f := by
  simp only [parse, Text.Json.readIntList_toText f hf.words, ofList_of_sorted hf.sorted]

end FlowSet

end CycleSched
