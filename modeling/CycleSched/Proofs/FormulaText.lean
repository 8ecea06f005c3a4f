import Mathlib.Data.Nat.Init
import CycleSched.Proofs.FormulaGrammar

/-!
# Trigger formulas written out and lexed back

A formula is written with every conjunction and disjunction in parentheses and its tokens apart
by blanks (`Formula.toText`). The lexer reads such a text back as the tokens it was written from
(`lex_toText`) when it can read every reference in it (`TaskRef.Lexable`): a name of name
characters that does not start with a sign, an offset that is trimmed, not empty and without
`]`, and a qualifier of name characters. Every reference the lexer reads is such a one
(`lex_lexable`).

Main statement (`parseFormula_grammar`): the formula reader accepts exactly the sentences of its
grammar, as the formulas they derive; what it reads lists the references in their order, and a
formula read from a lexed line is read again, as itself, from its written form.
-/

namespace CycleSched

namespace Text

/-- A list whose first element fails the test loses nothing to `dropWhile`. -/
theorem dropWhile_eq_self {p : Char → Bool} {l : List Char} (h : ∀ c ∈ l.head?, p c = false) :
    l.dropWhile p = l := by
  cases l with
  | nil => rfl
  | cons c l => exact List.dropWhile_cons_of_neg (by simpa using h)

theorem head?_dropWhile {p : Char → Bool} {l : List Char} {c : Char}
    (h : (l.dropWhile p).head? = some c) : p c = false := by
  have := List.head?_dropWhile_not p l
  rw [h] at this
  exact this

theorem toList_trimBlank (s : String) :
    (trimBlank s).toList = ((s.toList.dropWhile isBlank).reverse.dropWhile isBlank).reverse := by
  simp [trimBlank]

/-- Trimming twice trims once: a trimmed text starts and ends with characters that are not
blank. -/
theorem trimBlank_trimBlank (s : String) : trimBlank (trimBlank s) = trimBlank s := by
  obtain ⟨A, hA⟩ : ∃ A, A = s.toList.dropWhile isBlank := ⟨_, rfl⟩
  obtain ⟨C, hC⟩ : ∃ C, C = A.reverse.dropWhile isBlank := ⟨_, rfl⟩
  have hkeep : (trimBlank s).toList = C.reverse := by rw [toList_trimBlank, ← hA, ← hC]
  -- the last character kept is the first of `A`, which is no blank
  have hlast : ∀ c ∈ C.reverse.head?, isBlank c = false := by
    intro c hc
    obtain ⟨X, hX⟩ := List.dropWhile_suffix isBlank (l := A.reverse)
    have hget := congrArg List.getLast? hX
    rw [List.getLast?_append, List.getLast?_reverse, ← hC] at hget
    rw [List.head?_reverse, Option.mem_def] at hc
    rw [hc, Option.some_or] at hget
    exact head?_dropWhile (hA ▸ hget.symm)
  have hfirst : ∀ c ∈ C.head?, isBlank c = false := fun c hc => head?_dropWhile (hC ▸ hc)
  show String.ofList ((((trimBlank s).toList.dropWhile isBlank).reverse.dropWhile isBlank).reverse) = _
  rw [hkeep, dropWhile_eq_self hlast, List.reverse_reverse, dropWhile_eq_self hfirst, ← hkeep,
    String.ofList_toList]

theorem mem_of_mem_trimBlank {s : String} {c : Char} (h : c ∈ (trimBlank s).toList) :
    c ∈ s.toList := by
  rw [toList_trimBlank, List.mem_reverse] at h
  have h₁ := (List.dropWhile_suffix isBlank).subset h
  rw [List.mem_reverse] at h₁
  exact (List.dropWhile_suffix isBlank).subset h₁

end Text

namespace Graph

open Text Grammar

/-! ## Writing references and formulas -/

/-- The characters of an offset in brackets. -/
def offsetChars : Option String → List Char
  | some o => '[' :: (o.toList ++ [']'])
  | none => []

/-- The characters of a qualifier after its colon. -/
def qualifierChars (q : String) : List Char := if q.isEmpty then [] else ':' :: q.toList

/-- The mark of an optional reference. -/
def optionalChars (opt : Bool) : List Char := if opt then ['?'] else []

theorem TaskRef.toText_toList (r : TaskRef) :
    r.toText.toList = r.name.toList ++ (offsetChars r.offset ++ (qualifierChars r.qualifier ++
      optionalChars r.optional)) := by
  unfold TaskRef.toText offsetChars qualifierChars optionalChars
  cases r.offset <;> by_cases hq : r.qualifier.isEmpty <;> cases r.optional <;>
    simp [hq, String.toList_append]

/-- A reference the lexer reads back from its written form. -/
structure TaskRef.Lexable (r : TaskRef) : Prop where
  name : ∃ c cs, r.name.toList = c :: cs ∧ isNameChar c = true ∧ c ≠ '+' ∧ c ≠ '-' ∧
    ∀ x ∈ cs, isNameChar x = true
  offset : ∀ o, r.offset = some o → o ≠ "" ∧ trimBlank o = o ∧ ']' ∉ o.toList
  qualifier : ∀ x ∈ r.qualifier.toList, isNameChar x = true

/-- A token written out. -/
def Token.toText : Token → String
  | .ref r => r.toText
  | .and => "&"
  | .or => "|"
  | .lparen => "("
  | .rparen => ")"
  | .arrow => "=>"

/-- A formula written with every conjunction and disjunction in parentheses, its tokens apart by
blanks. -/
def Formula.toText (f : Formula) : String := " ".intercalate (f.tokens.map Token.toText)

mutual

theorem refTokens_tokens : (f : Formula) → refTokens f.tokens = f.refs
  | .ref r => rfl
  | .all parts => by simp [Formula.tokens, refTokens_joinTokens .and rfl parts]
  | .any parts => by simp [Formula.tokens, refTokens_joinTokens .or rfl parts]

theorem refTokens_joinTokens (sep : Token) (hsep : refTokens [sep] = []) :
    (fs : List Formula) → refTokens (Formula.joinTokens sep fs) = Formula.refsOf fs
  | [] => rfl
  | [f] => by simp [Formula.joinTokens, refTokens_tokens f]
  | f :: g :: rest => by
    rw [Formula.joinTokens, refTokens_append, ← List.singleton_append, refTokens_append, hsep,
      refTokens_tokens f, refTokens_joinTokens sep hsep (g :: rest)]
    simp

end

/-! ## Reading the written parts of a reference -/

/-- What follows a token: nothing, or a blank. -/
def Stops (rest : List Char) : Prop := ∀ c ∈ rest.head?, c = ' '

theorem stops_nil : Stops [] := fun _ h => by cases h

theorem takeWhile_dropWhile_nameChars {cs rest : List Char} (hcs : ∀ x ∈ cs, isNameChar x = true)
    (hrest : ∀ c ∈ rest.head?, isNameChar c = false) :
    (cs ++ rest).takeWhile isNameChar = cs ∧ (cs ++ rest).dropWhile isNameChar = rest := by
  rw [List.takeWhile_append_of_pos hcs, List.dropWhile_append_of_pos hcs]
  cases rest with
  | nil => simp
  | cons c r =>
    have hc : isNameChar c = false := hrest c rfl
    simp [List.takeWhile_cons_of_neg, List.dropWhile_cons_of_neg, hc]

theorem readTail_written (name q : String) (hq : ∀ x ∈ q.toList, isNameChar x = true) (opt : Bool)
    {rest : List Char} (hrest : Stops rest) :
    ∃ h, readTail name (qualifierChars q ++ (optionalChars opt ++ rest)) =
      .ok (q, opt, ⟨rest, h⟩) := by
  have hstop : ∀ c ∈ (optionalChars opt ++ rest).head?, isNameChar c = false := by
    intro c hc
    cases opt <;> cases rest <;> simp_all [Stops, optionalChars] <;> subst_vars <;> decide
  by_cases hqe : q.isEmpty
  · obtain rfl : q = "" := String.isEmpty_iff.1 hqe
    refine ⟨by cases opt <;> simp [qualifierChars, optionalChars], ?_⟩
    unfold readTail
    cases opt <;> cases rest <;> simp_all [Stops, qualifierChars, optionalChars]
  · obtain ⟨htake, hdrop⟩ := takeWhile_dropWhile_nameChars hq hstop
    have hqne : q.toList.isEmpty = false := by
      cases h : q.toList with
      | nil => exact absurd (String.isEmpty_iff.2 (String.toList_inj.1 (by simpa using h))) hqe
      | cons => rfl
    refine ⟨by cases opt <;> simp [qualifierChars, optionalChars, hqe] <;> omega, ?_⟩
    unfold readTail
    simp only [qualifierChars, hqe, if_false, List.cons_append, List.head?_cons, beq_self_eq_true,
      if_true, List.tail_cons, htake, hdrop, hqne, Bool.false_eq_true, String.ofList_toList]
    cases opt <;> cases rest <;> simp_all [Stops, optionalChars]

theorem readOffset_written (name : String) (o : Option String)
    (ho : ∀ x, o = some x → x ≠ "" ∧ trimBlank x = x ∧ ']' ∉ x.toList) {rest : List Char}
    (hrest : rest.head? ≠ some '[') {cs : List Char} (hcs : cs = offsetChars o ++ rest) :
    ∃ h, readOffset name cs = .ok (o, ⟨rest, h⟩) := by
  subst hcs
  cases o with
  | none =>
    refine ⟨Nat.le_refl _, ?_⟩
    unfold readOffset
    cases rest with
    | nil => rfl
    | cons c r => simp_all [offsetChars]
  | some x =>
    obtain ⟨hne, htrim, hclose⟩ := ho x rfl
    have hnot : ∀ c ∈ x.toList, (c != ']') = true := fun c hc => by
      have : c ≠ ']' := fun h => hclose (h ▸ hc)
      simpa using this
    have hdrop : (x.toList ++ ']' :: rest).dropWhile (· != ']') = ']' :: rest := by
      rw [List.dropWhile_append_of_pos hnot]
      simp
    have htake : (x.toList ++ ']' :: rest).takeWhile (· != ']') = x.toList := by
      rw [List.takeWhile_append_of_pos hnot]
      simp
    refine ⟨by simp [offsetChars]; omega, ?_⟩
    unfold readOffset
    simp only [offsetChars, List.cons_append, List.append_assoc, List.head?_cons,
      beq_self_eq_true, if_true, List.tail_cons]
    split
    · next hs =>
      simp only [List.append_assoc, List.singleton_append, hdrop] at hs
      cases hs
    · next a after hs =>
      simp only [List.append_assoc, List.singleton_append, hdrop] at hs
      simp only [List.nil_append]
      obtain ⟨rfl, rfl⟩ := List.cons.inj hs
      have hinside :
          trimBlank (String.ofList ((x.toList ++ ']' :: rest).takeWhile (· != ']'))) = x := by
        rw [htake, String.ofList_toList, htrim]
      simp [hinside, hne]

/-- The written characters of a reference the lexer can read, followed by nothing or a blank,
are read as that reference. -/
theorem readRef_written {r : TaskRef} (hr : r.Lexable) {c : Char} {cs : List Char}
    (hname : r.name.toList = c :: cs) (hcs : ∀ x ∈ cs, isNameChar x = true) {rest : List Char}
    (hrest : Stops rest) :
    ∃ h, readRef c (cs ++ (offsetChars r.offset ++ (qualifierChars r.qualifier ++
        (optionalChars r.optional ++ rest)))) = .ok (r, ⟨rest, h⟩) := by
  have hafter : ∀ x ∈ (offsetChars r.offset ++ (qualifierChars r.qualifier ++
      (optionalChars r.optional ++ rest))).head?, isNameChar x = false := by
    intro x hx
    cases ho : r.offset <;> by_cases hq : r.qualifier.isEmpty <;> cases hopt : r.optional <;>
      cases rest <;> simp_all [Stops, offsetChars, qualifierChars, optionalChars] <;>
      subst_vars <;> decide
  obtain ⟨htake, hdrop⟩ := takeWhile_dropWhile_nameChars hcs hafter
  have hqhead : (qualifierChars r.qualifier ++ (optionalChars r.optional ++ rest)).head? ≠
      some '[' := by
    by_cases hqe : r.qualifier.isEmpty <;> cases r.optional <;> cases rest <;>
      simp_all [Stops, qualifierChars, optionalChars]
  -- the offset is read under the name as the reader spells it, before the name is simplified
  obtain ⟨ho, hoff⟩ := readOffset_written (String.ofList (c :: List.takeWhile isNameChar
    (cs ++ (offsetChars r.offset ++ (qualifierChars r.qualifier ++
      (optionalChars r.optional ++ rest)))))) r.offset hr.offset hqhead hdrop
  obtain ⟨hq, htail⟩ := readTail_written r.name r.qualifier hr.qualifier r.optional hrest
  refine ⟨by simp; omega, ?_⟩
  have hnameEq : String.ofList (c :: cs) = r.name := by rw [← hname, String.ofList_toList]
  unfold readRef
  simp only [hoff]
  simp only [htail, htake, hnameEq]

/-! ## Lexing written tokens -/

theorem lex_nameStart {c : Char} (hc : isNameChar c = true) (h1 : c ≠ '+') (h2 : c ≠ '-')
    (rest : List Char) :
    lex (c :: rest) = match readRef c rest with
      | .error e => .error e
      | .ok (r, ⟨more, _⟩) => (Token.ref r :: ·) <$> lex more := by
  rw [lex]
  -- a name character is none of the characters with a token of their own
  split
  all_goals first
    | rfl
    | (simp_all [isNameChar]; done)
    | (rintro rfl; simp [isNameChar] at hc)
    | (rintro _ rfl; simp [isNameChar] at hc)

theorem lex_space (rest : List Char) : lex (' ' :: rest) = lex rest := by
  rw [lex]

/-- A reference the lexer can read is read back from its written form. -/
theorem lex_ref {r : TaskRef} (hr : r.Lexable) {rest : List Char} (hrest : Stops rest) :
    lex (r.toText.toList ++ rest) = (Token.ref r :: ·) <$> lex rest := by
  obtain ⟨c, cs, hname, hc, hplus, hminus, hcs⟩ := hr.name
  obtain ⟨h, hread⟩ := readRef_written hr hname hcs hrest
  rw [TaskRef.toText_toList, hname]
  simp only [List.cons_append, List.append_assoc]
  rw [lex_nameStart hc hplus hminus, hread]

/-- A token is read back from its written form. -/
theorem lex_token {t : Token} (ht : ∀ r, t = .ref r → r.Lexable) {rest : List Char}
    (hrest : Stops rest) : lex (t.toText.toList ++ rest) = (t :: ·) <$> lex rest := by
  cases t with
  | ref r => exact lex_ref (ht r rfl) hrest
  | and => show lex ('&' :: rest) = _; rw [lex]
  | or => show lex ('|' :: rest) = _; rw [lex]
  | lparen => show lex ('(' :: rest) = _; rw [lex]
  | rparen => show lex (')' :: rest) = _; rw [lex]
  | arrow => show lex ('=' :: '>' :: rest) = _; rw [lex]

/-- Tokens written apart by blanks are read back, when the lexer can read their references. -/
theorem lex_intercalate {ts : List Token} (h : ∀ r ∈ refTokens ts, r.Lexable) :
    lex (" ".intercalate (ts.map Token.toText)).toList = .ok ts := by
  induction ts with
  | nil => simp [lex]
  | cons t ts ih =>
    have ht : ∀ r, t = .ref r → r.Lexable := fun r hr => h r (by simp [hr])
    have hts : ∀ r ∈ refTokens ts, r.Lexable := fun r hr => h r (by
      rw [← List.singleton_append, refTokens_append]
      exact List.mem_append_right _ hr)
    cases ts with
    | nil =>
      have hlast := lex_token ht stops_nil
      rw [List.append_nil] at hlast
      rw [List.map_singleton, String.intercalate_singleton, hlast, lex]
      rfl
    | cons u us =>
      have hsplit : (" ".intercalate ((t :: u :: us).map Token.toText)).toList =
          t.toText.toList ++ ' ' :: (" ".intercalate ((u :: us).map Token.toText)).toList := by
        simp [String.intercalate_cons_cons, String.toList_append]
      rw [hsplit, lex_token ht (by simp [Stops]), lex_space, ih hts]
      rfl

/-- A formula whose references the lexer can read is lexed back from its written form as its
fully parenthesised tokens. -/
theorem lex_toText {f : Formula} (h : ∀ r ∈ f.refs, r.Lexable) :
    lex f.toText.toList = .ok f.tokens :=
  lex_intercalate (by rw [refTokens_tokens]; exact h)

/-! ## The references the lexer reads -/

theorem readOffset_offset {name : String} {cs : List Char} {o : String} {rest}
    (h : readOffset name cs = .ok (some o, rest)) : o ≠ "" ∧ trimBlank o = o ∧ ']' ∉ o.toList := by
  unfold readOffset at h
  split at h
  · dsimp only at h
    split at h
    · cases h
    · split at h
      · cases h
      · next hempty =>
        obtain ⟨ho, -⟩ := Prod.mk.inj (Except.ok.inj h)
        obtain rfl := Option.some.inj ho
        refine ⟨fun h0 => hempty (by simp [h0]), trimBlank_trimBlank _, fun hmem => ?_⟩
        -- the offset is trimmed from the characters before the first `]`
        have hin := mem_of_mem_trimBlank hmem
        rw [String.toList_ofList] at hin
        have hin := List.all_eq_true.1 List.all_takeWhile _ hin
        simp at hin
  · cases h

theorem readTail_qualifier {name : String} {cs : List Char} {q : String} {rest}
    (h : readTail name cs = .ok (q, rest)) : ∀ c ∈ q.toList, isNameChar c = true := by
  unfold readTail at h
  dsimp only at h
  split at h
  · split at h
    · cases h
    · split at h <;>
      · obtain ⟨rfl, -⟩ := Prod.mk.inj (Except.ok.inj h)
        intro c hc
        rw [String.toList_ofList] at hc
        exact List.all_eq_true.1 List.all_takeWhile c hc
  · split at h
    · cases h
    · split at h <;>
      · obtain ⟨rfl, -⟩ := Prod.mk.inj (Except.ok.inj h)
        simp

theorem readRef_lexable {c : Char} (hc : isNameChar c = true) (h1 : c ≠ '+') (h2 : c ≠ '-')
    {rest : List Char} {r : TaskRef} {more} (h : readRef c rest = .ok (r, more)) : r.Lexable := by
  unfold readRef at h
  dsimp only at h
  split at h
  · cases h
  · next offset r1 hr1 hoff =>
    split at h
    · cases h
    · next q opt r2 hr2 htail =>
      obtain ⟨rfl, -⟩ := Prod.mk.inj (Except.ok.inj h)
      refine ⟨⟨c, _, String.toList_ofList, hc, h1, h2, fun x hx => ?_⟩, fun o ho => ?_,
        readTail_qualifier htail⟩
      · exact List.all_eq_true.1 List.all_takeWhile x hx
      · subst ho
        exact readOffset_offset hoff

theorem map_cons_eq_ok {t : Token} {e : Except String (List Token)} {ts : List Token}
    (h : (t :: ·) <$> e = .ok ts) : ∃ ts', e = .ok ts' ∧ ts = t :: ts' := by
  cases e with
  | error => cases h
  | ok ts' => exact ⟨ts', rfl, (Except.ok.inj h).symm⟩

/-- Every reference the lexer reads, it reads back from its written form. -/
theorem lex_lexable {cs : List Char} {ts : List Token} (h : lex cs = .ok ts) :
    ∀ r ∈ refTokens ts, r.Lexable := by
  fun_induction lex cs generalizing ts with
  | case1 =>
    obtain rfl := Except.ok.inj h
    simp
  | case2 _ ih | case3 _ ih => exact ih h
  | case4 _ ih | case5 _ ih | case6 _ ih | case7 _ ih | case8 _ ih =>
    obtain ⟨ts', h', rfl⟩ := map_cons_eq_ok h
    exact @ih ts' h'
  | case9 => cases h
  | case10 c rest _ _ _ _ _ _ _ hname r more _ hread ih =>
    obtain ⟨ts', h', rfl⟩ := map_cons_eq_ok h
    simp only [Bool.and_eq_true, bne_iff_ne, ne_eq] at hname
    obtain ⟨⟨hc, hplus⟩, hminus⟩ := hname
    intro r' hr'
    rw [refTokens_cons_ref, List.mem_cons] at hr'
    rcases hr' with rfl | hr'
    · exact readRef_lexable hc hplus hminus hread
    · exact ih h' r' hr'
  | case11 => cases h

/-! ## The reader and its grammar -/

/-- The trigger-formula reader accepts exactly the sentences of its grammar, as the formulas they
derive (`&` binding tighter than `|`, a chain of two or more operands one node, parentheses no
node). What it reads lists the references of the tokens in order, is read back from its fully
parenthesised tokens, and, when the tokens were lexed from a line, from its written form lexed
again. -/
theorem parseFormula_grammar (ts : List Token) (f : Formula) :
    (parseFormula ts = .ok f ↔ Sentence ts f) ∧
      (parseFormula ts = .ok f →
        f.refs = refTokens ts ∧ parseFormula f.tokens = .ok f ∧
          ∀ cs, lex cs = .ok ts → (lex f.toText.toList).bind parseFormula = .ok f) := by
  refine ⟨parseFormula_eq_ok_iff, fun h => ?_⟩
  have hs := parseFormula_eq_ok_iff.1 h
  refine ⟨hs.refs_eq, parseFormula_tokens hs.wellFormed, fun cs hlex => ?_⟩
  have hlexable : ∀ r ∈ f.refs, r.Lexable := by
    rw [hs.refs_eq]
    exact lex_lexable hlex
  rw [lex_toText hlexable]
  exact parseFormula_tokens hs.wellFormed

end Graph

end CycleSched
