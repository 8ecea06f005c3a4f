import CycleSched.Graph.Formula

/-!
# Trigger formulas read by their grammar

The left of `=>` is read by recursive descent over the grammar

    formula := term ("|" term)*      term := factor ("&" factor)*      factor := ref | "(" formula ")"

with a budget of calls. The grammar is written here as relations between a token list and the
formula it stands for (`Grammar.Sentence` and the relations under it): a chain of two or more
operands at one level is one node, a single operand is itself, and parentheses add no node.

Main statement (`parseFormula_eq_ok_iff`): a token list is read as a formula exactly when the
grammar derives it as that formula. Each reader is sound for every budget (`reads_sound`), and
on a derivation followed by tokens that cannot continue it, it reads the derivation once its
budget is three calls a token (`Grammar.Sentence.reads` and the lemmas beside it), which the
budget of `parseFormula` is. A derived formula lists the references of its tokens in their
order (`Grammar.Sentence.refs_eq`), has at least two parts at every node
(`Grammar.Sentence.wellFormed`), and is read back from its fully parenthesised tokens
(`parseFormula_tokens`).
-/

namespace CycleSched.Graph

/-! ## Formulas, their references and their fully parenthesised tokens -/

/-- The references among some tokens, in their order. -/
def refTokens (ts : List Token) : List TaskRef :=
  ts.filterMap fun | .ref r => some r | _ => none

@[simp] theorem refTokens_nil : refTokens [] = [] := rfl

@[simp] theorem refTokens_append (ts us : List Token) :
    refTokens (ts ++ us) = refTokens ts ++ refTokens us := List.filterMap_append

@[simp] theorem refTokens_cons_ref (r : TaskRef) (ts : List Token) :
    refTokens (.ref r :: ts) = r :: refTokens ts := rfl

@[simp] theorem refTokens_cons_and (ts : List Token) : refTokens (.and :: ts) = refTokens ts := rfl

@[simp] theorem refTokens_cons_or (ts : List Token) : refTokens (.or :: ts) = refTokens ts := rfl

@[simp] theorem refTokens_cons_lparen (ts : List Token) :
    refTokens (.lparen :: ts) = refTokens ts := rfl

@[simp] theorem refTokens_cons_rparen (ts : List Token) :
    refTokens (.rparen :: ts) = refTokens ts := rfl

@[simp] theorem joined_single (mk : List Formula → Formula) (f : Formula) : joined mk [f] = f := rfl

@[simp] theorem joined_cons_cons (mk : List Formula → Formula) (f g : Formula) (gs : List Formula) :
    joined mk (f :: g :: gs) = mk (f :: g :: gs) := rfl

@[simp] theorem Formula.refsOf_nil : Formula.refsOf [] = [] := rfl

@[simp] theorem Formula.refsOf_cons (f : Formula) (fs : List Formula) :
    Formula.refsOf (f :: fs) = f.refs ++ Formula.refsOf fs := rfl

@[simp] theorem Formula.refs_ref (r : TaskRef) : (Formula.ref r).refs = [r] := rfl

@[simp] theorem Formula.refs_all (parts : List Formula) :
    (Formula.all parts).refs = Formula.refsOf parts := rfl

@[simp] theorem Formula.refs_any (parts : List Formula) :
    (Formula.any parts).refs = Formula.refsOf parts := rfl

/-- A joined chain has the references of its operands. -/
theorem refs_joined {mk : List Formula → Formula} (hmk : ∀ ps, (mk ps).refs = Formula.refsOf ps)
    (f : Formula) (fs : List Formula) : (joined mk (f :: fs)).refs = Formula.refsOf (f :: fs) := by
  cases fs with
  | nil => simp
  | cons g gs => simp [hmk]

/-- Every conjunction and disjunction of the formula has at least two parts. -/
inductive Formula.WellFormed : Formula → Prop
  | ref (r : TaskRef) : WellFormed (.ref r)
  | all {parts : List Formula} :
      2 ≤ parts.length → (∀ p ∈ parts, WellFormed p) → WellFormed (.all parts)
  | any {parts : List Formula} :
      2 ≤ parts.length → (∀ p ∈ parts, WellFormed p) → WellFormed (.any parts)

/-- A chain of well-formed operands is well formed. -/
theorem wellFormed_joined {mk : List Formula → Formula}
    (hmk : ∀ ps, 2 ≤ ps.length → (∀ p ∈ ps, p.WellFormed) → (mk ps).WellFormed)
    {f : Formula} {fs : List Formula} (h : ∀ p ∈ f :: fs, p.WellFormed) :
    (joined mk (f :: fs)).WellFormed := by
  cases fs with
  | nil => exact h f (List.mem_singleton_self f)
  | cons g gs => exact hmk _ (by simp) h

mutual

/-- The tokens of a formula with every conjunction and disjunction in parentheses. -/
def Formula.tokens : Formula → List Token
  | .ref r => [.ref r]
  | .all parts => .lparen :: (Formula.joinTokens .and parts ++ [.rparen])
  | .any parts => .lparen :: (Formula.joinTokens .or parts ++ [.rparen])

/-- The tokens of some formulas with `sep` between them. -/
def Formula.joinTokens (sep : Token) : List Formula → List Token
  | [] => []
  | [f] => f.tokens
  | f :: g :: rest => f.tokens ++ sep :: Formula.joinTokens sep (g :: rest)

end

/-! ## The grammar -/

namespace Grammar

mutual

/-- The tokens are a reference or a parenthesised formula, standing for `f`. -/
inductive Factor : List Token → Formula → Prop
  | ref (r : TaskRef) : Factor [.ref r] (.ref r)
  | group {ts : List Token} {f : Formula} :
      Sentence ts f → Factor (.lparen :: (ts ++ [.rparen])) f

/-- The tokens are `& factor`, any number of times, the factors standing for `fs`. -/
inductive AndTail : List Token → List Formula → Prop
  | nil : AndTail [] []
  | cons {ts us : List Token} {f : Formula} {fs : List Formula} :
      Factor ts f → AndTail us fs → AndTail (.and :: (ts ++ us)) (f :: fs)

/-- The tokens are factors joined by `&`; two or more are one conjunction. -/
inductive Term : List Token → Formula → Prop
  | mk {ts us : List Token} {f : Formula} {fs : List Formula} :
      Factor ts f → AndTail us fs → Term (ts ++ us) (joined .all (f :: fs))

/-- The tokens are `| term`, any number of times, the terms standing for `fs`. -/
inductive OrTail : List Token → List Formula → Prop
  | nil : OrTail [] []
  | cons {ts us : List Token} {f : Formula} {fs : List Formula} :
      Term ts f → OrTail us fs → OrTail (.or :: (ts ++ us)) (f :: fs)

/-- The tokens are terms joined by `|`; two or more are one disjunction. -/
inductive Sentence : List Token → Formula → Prop
  | mk {ts us : List Token} {f : Formula} {fs : List Formula} :
      Term ts f → OrTail us fs → Sentence (ts ++ us) (joined .any (f :: fs))

end

theorem Factor.ne_nil {ts : List Token} {f : Formula} (h : Factor ts f) : ts ≠ [] := by
  cases h <;> simp

theorem Term.ne_nil {ts : List Token} {f : Formula} (h : Term ts f) : ts ≠ [] := by
  cases h with
  | mk hf _ => simp [hf.ne_nil]

/-! ### What a derivation stands for -/

mutual

theorem Factor.refs_eq {ts : List Token} {f : Formula} : Factor ts f → f.refs = refTokens ts
  | .ref r => by simp
  | .group h => by simp [h.refs_eq]

theorem AndTail.refs_eq {ts : List Token} {fs : List Formula} :
    AndTail ts fs → Formula.refsOf fs = refTokens ts
  | .nil => rfl
  | .cons hf ht => by simp [hf.refs_eq, ht.refs_eq]

theorem Term.refs_eq {ts : List Token} {f : Formula} : Term ts f → f.refs = refTokens ts
  | .mk hf ht => by
    rw [refs_joined (fun _ => rfl), Formula.refsOf_cons, hf.refs_eq, ht.refs_eq, refTokens_append]

theorem OrTail.refs_eq {ts : List Token} {fs : List Formula} :
    OrTail ts fs → Formula.refsOf fs = refTokens ts
  | .nil => rfl
  | .cons hf ht => by simp [hf.refs_eq, ht.refs_eq]

/-- A derived formula lists the references of its tokens, in their order. -/
theorem Sentence.refs_eq {ts : List Token} {f : Formula} : Sentence ts f → f.refs = refTokens ts
  | .mk hf ht => by
    rw [refs_joined (fun _ => rfl), Formula.refsOf_cons, hf.refs_eq, ht.refs_eq, refTokens_append]

end

mutual

theorem Factor.wellFormed {ts : List Token} {f : Formula} : Factor ts f → f.WellFormed
  | .ref r => .ref r
  | .group h => h.wellFormed

theorem AndTail.wellFormed {ts : List Token} {fs : List Formula} :
    AndTail ts fs → ∀ p ∈ fs, p.WellFormed
  | .nil => by simp
  | .cons hf ht => by
    simp only [List.mem_cons, forall_eq_or_imp]
    exact ⟨hf.wellFormed, ht.wellFormed⟩

theorem Term.wellFormed {ts : List Token} {f : Formula} : Term ts f → f.WellFormed
  | .mk hf ht => by
    refine wellFormed_joined (fun _ h2 hps => .all h2 hps) ?_
    simp only [List.mem_cons, forall_eq_or_imp]
    exact ⟨hf.wellFormed, ht.wellFormed⟩

theorem OrTail.wellFormed {ts : List Token} {fs : List Formula} :
    OrTail ts fs → ∀ p ∈ fs, p.WellFormed
  | .nil => by simp
  | .cons hf ht => by
    simp only [List.mem_cons, forall_eq_or_imp]
    exact ⟨hf.wellFormed, ht.wellFormed⟩

/-- A derived formula has at least two parts at every node. -/
theorem Sentence.wellFormed {ts : List Token} {f : Formula} : Sentence ts f → f.WellFormed
  | .mk hf ht => by
    refine wellFormed_joined (fun _ h2 hps => .any h2 hps) ?_
    simp only [List.mem_cons, forall_eq_or_imp]
    exact ⟨hf.wellFormed, ht.wellFormed⟩

end

/-- A factor is a term, and a term a sentence, of one operand. -/
theorem Factor.term {ts : List Token} {f : Formula} (h : Factor ts f) : Term ts f := by
  simpa using Term.mk h .nil

theorem Term.sentence {ts : List Token} {f : Formula} (h : Term ts f) : Sentence ts f := by
  simpa using Sentence.mk h .nil

end Grammar

open Grammar

/-! ## The readers are sound -/

/-- Whatever a reader reads, with any budget, is a derivation of the grammar followed by the
tokens it leaves. The five readers call each other with one call less, so they are shown sound
together by induction on the budget. -/
theorem reads_sound (n : Nat) :
    (∀ {ts f rest}, factor n ts = .ok (f, rest) → ∃ pre, ts = pre ++ rest ∧ Factor pre f) ∧
    (∀ {acc ts parts rest}, allTail n acc ts = .ok (parts, rest) →
      ∃ pre fs, ts = pre ++ rest ∧ parts = acc ++ fs ∧ AndTail pre fs) ∧
    (∀ {ts f rest}, term n ts = .ok (f, rest) → ∃ pre, ts = pre ++ rest ∧ Term pre f) ∧
    (∀ {acc ts parts rest}, anyTail n acc ts = .ok (parts, rest) →
      ∃ pre fs, ts = pre ++ rest ∧ parts = acc ++ fs ∧ OrTail pre fs) ∧
    (∀ {ts f rest}, formula n ts = .ok (f, rest) → ∃ pre, ts = pre ++ rest ∧ Sentence pre f) := by
  induction n with
  | zero => simp [factor, allTail, term, anyTail, formula]
  | succ n ih =>
    obtain ⟨hF, hA, hT, hO, hE⟩ := ih
    refine ⟨?factor, ?allTail, ?term, ?anyTail, ?formula⟩
    case factor =>
      intro ts f rest h
      match ts, h with
      | .ref r :: ts, h =>
        simp only [factor, Except.ok.injEq, Prod.mk.injEq] at h
        obtain ⟨rfl, rfl⟩ := h
        exact ⟨[.ref r], rfl, .ref r⟩
      | .lparen :: ts, h =>
        simp only [factor] at h
        split at h
        · cases h
        · next f' r2 hread =>
          simp only [Except.ok.injEq, Prod.mk.injEq] at h
          obtain ⟨rfl, rfl⟩ := h
          obtain ⟨pre, rfl, hs⟩ := hE hread
          exact ⟨.lparen :: (pre ++ [.rparen]), by simp, .group hs⟩
        · cases h
      | [], h | .and :: _, h | .or :: _, h | .rparen :: _, h | .arrow :: _, h =>
        simp [factor] at h
    case allTail =>
      intro acc ts parts rest h
      match ts, h with
      | .and :: ts, h =>
        simp only [allTail] at h
        split at h
        · cases h
        · next f r hf =>
          obtain ⟨pre, rfl, hpre⟩ := hF hf
          obtain ⟨pre', fs, rfl, rfl, htail⟩ := hA h
          exact ⟨.and :: (pre ++ pre'), f :: fs, by simp, by simp, .cons hpre htail⟩
      | [], h | .ref _ :: _, h | .or :: _, h | .lparen :: _, h | .rparen :: _, h
      | .arrow :: _, h =>
        simp only [allTail, Except.ok.injEq, Prod.mk.injEq] at h
        obtain ⟨rfl, rfl⟩ := h
        exact ⟨[], [], rfl, by simp, .nil⟩
    case term =>
      intro ts f rest h
      simp only [term] at h
      split at h
      · cases h
      · next f₀ r hf =>
        split at h
        · cases h
        · next parts r2 htail =>
          simp only [Except.ok.injEq, Prod.mk.injEq] at h
          obtain ⟨rfl, rfl⟩ := h
          obtain ⟨pre, rfl, hpre⟩ := hF hf
          obtain ⟨pre', fs, rfl, rfl, hfs⟩ := hA htail
          exact ⟨pre ++ pre', by simp, .mk hpre hfs⟩
    case anyTail =>
      intro acc ts parts rest h
      match ts, h with
      | .or :: ts, h =>
        simp only [anyTail] at h
        split at h
        · cases h
        · next f r hf =>
          obtain ⟨pre, rfl, hpre⟩ := hT hf
          obtain ⟨pre', fs, rfl, rfl, htail⟩ := hO h
          exact ⟨.or :: (pre ++ pre'), f :: fs, by simp, by simp, .cons hpre htail⟩
      | [], h | .ref _ :: _, h | .and :: _, h | .lparen :: _, h | .rparen :: _, h
      | .arrow :: _, h =>
        simp only [anyTail, Except.ok.injEq, Prod.mk.injEq] at h
        obtain ⟨rfl, rfl⟩ := h
        exact ⟨[], [], rfl, by simp, .nil⟩
    case formula =>
      intro ts f rest h
      simp only [formula] at h
      split at h
      · cases h
      · next f₀ r hf =>
        split at h
        · cases h
        · next parts r2 htail =>
          simp only [Except.ok.injEq, Prod.mk.injEq] at h
          obtain ⟨rfl, rfl⟩ := h
          obtain ⟨pre, rfl, hpre⟩ := hT hf
          obtain ⟨pre', fs, rfl, rfl, hfs⟩ := hO htail
          exact ⟨pre ++ pre', by simp, .mk hpre hfs⟩

/-! ## The readers are complete

A reader given a derivation followed by tokens that cannot continue it reads exactly the
derivation. The budget it needs grows by three calls a token: a factor in parentheses costs the
three levels once more, and each further operand of a chain one call of its tail reader. -/

namespace Grammar

/-- Tokens after which a term could go on. -/
def ContinuesTerm (rest : List Token) : Prop := rest.head? = some .and

/-- Tokens after which a formula could go on. -/
def ContinuesFormula (rest : List Token) : Prop := rest.head? = some .and ∨ rest.head? = some .or

theorem not_continuesTerm_of_orTail {ts rest : List Token} {fs : List Formula} (h : OrTail ts fs)
    (hrest : ¬ ContinuesFormula rest) : ¬ ContinuesTerm (ts ++ rest) := by
  cases h with
  | nil => exact fun h => hrest (.inl h)
  | cons => simp [ContinuesTerm]

mutual

theorem Factor.reads {ts : List Token} {f : Formula} :
    Factor ts f → ∀ {n : Nat}, 3 * ts.length ≤ n + 2 → ∀ rest, factor n (ts ++ rest) = .ok (f, rest)
  | .ref r, n, hn, rest => by
    obtain ⟨m, rfl⟩ : ∃ m, n = m + 1 := ⟨n - 1, by simp at hn; omega⟩
    rfl
  | .group hs, n, hn, rest => by
    obtain ⟨m, rfl⟩ : ∃ m, n = m + 1 := ⟨n - 1, by simp at hn; omega⟩
    have hread := hs.reads (n := m) (by simp at hn; omega) (.rparen :: rest)
      (by simp [ContinuesFormula])
    simp [factor, hread]

theorem AndTail.reads {ts : List Token} {fs : List Formula} :
    AndTail ts fs → ∀ {n : Nat}, 3 * ts.length < n → ∀ rest, ¬ ContinuesTerm rest →
      ∀ acc, allTail n acc (ts ++ rest) = .ok (acc ++ fs, rest)
  | .nil, n, hn, rest, hrest, acc => by
    obtain ⟨m, rfl⟩ : ∃ m, n = m + 1 := ⟨n - 1, by omega⟩
    match rest, hrest with
    | .and :: _, hrest => exact absurd rfl hrest
    | [], _ | .ref _ :: _, _ | .or :: _, _ | .lparen :: _, _ | .rparen :: _, _
    | .arrow :: _, _ => simp [allTail]
  | @AndTail.cons _ us f _ hf ht, n, hn, rest, hrest, acc => by
    obtain ⟨m, rfl⟩ : ∃ m, n = m + 1 := ⟨n - 1, by omega⟩
    simp only [List.length_cons, List.length_append] at hn
    have hfactor := hf.reads (n := m) (by omega) (us ++ rest)
    have htail := ht.reads (n := m) (by omega) rest hrest (acc ++ [f])
    simp [allTail, List.append_assoc, hfactor, htail]

theorem Term.reads {ts : List Token} {f : Formula} :
    Term ts f → ∀ {n : Nat}, 3 * ts.length ≤ n + 1 → ∀ rest, ¬ ContinuesTerm rest →
      term n (ts ++ rest) = .ok (f, rest)
  | @Term.mk _ us f _ hf ht, n, hn, rest, hrest => by
    have hpos := List.length_pos_iff.2 hf.ne_nil
    simp only [List.length_append] at hn
    obtain ⟨m, rfl⟩ : ∃ m, n = m + 1 := ⟨n - 1, by omega⟩
    have hfactor := hf.reads (n := m) (by omega) (us ++ rest)
    have htail := ht.reads (n := m) (by omega) rest hrest [f]
    simp [term, List.append_assoc, hfactor, htail]

theorem OrTail.reads {ts : List Token} {fs : List Formula} :
    OrTail ts fs → ∀ {n : Nat}, 3 * ts.length < n → ∀ rest, ¬ ContinuesFormula rest →
      ∀ acc, anyTail n acc (ts ++ rest) = .ok (acc ++ fs, rest)
  | .nil, n, hn, rest, hrest, acc => by
    obtain ⟨m, rfl⟩ : ∃ m, n = m + 1 := ⟨n - 1, by omega⟩
    match rest, hrest with
    | .or :: _, hrest => exact absurd (.inr rfl) hrest
    | [], _ | .ref _ :: _, _ | .and :: _, _ | .lparen :: _, _ | .rparen :: _, _
    | .arrow :: _, _ => simp [anyTail]
  | @OrTail.cons _ us f _ hf ht, n, hn, rest, hrest, acc => by
    obtain ⟨m, rfl⟩ : ∃ m, n = m + 1 := ⟨n - 1, by omega⟩
    simp only [List.length_cons, List.length_append] at hn
    have hterm := hf.reads (n := m) (by omega) (us ++ rest) (not_continuesTerm_of_orTail ht hrest)
    have htail := ht.reads (n := m) (by omega) rest hrest (acc ++ [f])
    simp [anyTail, List.append_assoc, hterm, htail]

/-- A derivation followed by tokens that cannot continue it is read as its formula, with a
budget of three calls a token. -/
theorem Sentence.reads {ts : List Token} {f : Formula} :
    Sentence ts f → ∀ {n : Nat}, 3 * ts.length ≤ n → ∀ rest, ¬ ContinuesFormula rest →
      formula n (ts ++ rest) = .ok (f, rest)
  | @Sentence.mk _ us f _ hf ht, n, hn, rest, hrest => by
    have hpos := List.length_pos_iff.2 hf.ne_nil
    simp only [List.length_append] at hn
    obtain ⟨m, rfl⟩ : ∃ m, n = m + 1 := ⟨n - 1, by omega⟩
    have hterm := hf.reads (n := m) (by omega) (us ++ rest) (not_continuesTerm_of_orTail ht hrest)
    have htail := ht.reads (n := m) (by omega) rest hrest [f]
    simp [formula, List.append_assoc, hterm, htail]

end

end Grammar

/-! ## Reading a whole token list -/

/-- A token list is read as a formula exactly when the grammar derives it as that formula. -/
theorem parseFormula_eq_ok_iff {ts : List Token} {f : Formula} :
    parseFormula ts = .ok f ↔ Sentence ts f := by
  constructor
  · intro h
    unfold parseFormula at h
    split at h
    · cases h
    · next f' hread =>
      obtain rfl := Except.ok.inj h
      obtain ⟨pre, rfl, hs⟩ := (reads_sound _).2.2.2.2 hread
      simpa using hs
    · cases h
  · intro h
    have hread := h.reads (n := 3 * ts.length + 3) (by omega) []
      (by simp [ContinuesFormula])
    rw [List.append_nil] at hread
    simp [parseFormula, hread]

namespace Grammar

/-- Operands in parentheses joined by `&` are the tail of a conjunction. -/
theorem andTail_joinTokens {fs : List Formula} (hne : fs ≠ [])
    (h : ∀ p ∈ fs, Factor p.tokens p) : AndTail (.and :: Formula.joinTokens .and fs) fs := by
  induction fs with
  | nil => exact absurd rfl hne
  | cons f rest ih =>
    cases rest with
    | nil => simpa [Formula.joinTokens] using AndTail.cons (h f (by simp)) .nil
    | cons g gs =>
      rw [Formula.joinTokens]
      exact .cons (h f (by simp)) (ih (by simp) fun p hp => h p (List.mem_cons_of_mem f hp))

/-- Operands in parentheses joined by `|` are the tail of a disjunction. -/
theorem orTail_joinTokens {fs : List Formula} (hne : fs ≠ [])
    (h : ∀ p ∈ fs, Factor p.tokens p) : OrTail (.or :: Formula.joinTokens .or fs) fs := by
  induction fs with
  | nil => exact absurd rfl hne
  | cons f rest ih =>
    cases rest with
    | nil => simpa [Formula.joinTokens] using OrTail.cons (h f (by simp)).term .nil
    | cons g gs =>
      rw [Formula.joinTokens]
      exact .cons (h f (by simp)).term (ih (by simp) fun p hp => h p (List.mem_cons_of_mem f hp))

/-- A well-formed formula in full parentheses is a factor standing for itself. -/
theorem factor_tokens {f : Formula} (h : f.WellFormed) : Factor f.tokens f := by
  induction h with
  | ref r => exact .ref r
  | @all parts h2 _ ih =>
    obtain ⟨p, q, qs, rfl⟩ : ∃ p q qs, parts = p :: q :: qs := by
      match parts, h2 with
      | p :: q :: qs, _ => exact ⟨p, q, qs, rfl⟩
    have hterm : Term (Formula.joinTokens .and (p :: q :: qs)) (.all (p :: q :: qs)) := by
      rw [Formula.joinTokens]
      simpa using Term.mk (ih p (by simp))
        (andTail_joinTokens (by simp) fun x hx => ih x (List.mem_cons_of_mem p hx))
    exact .group hterm.sentence
  | @any parts h2 _ ih =>
    obtain ⟨p, q, qs, rfl⟩ : ∃ p q qs, parts = p :: q :: qs := by
      match parts, h2 with
      | p :: q :: qs, _ => exact ⟨p, q, qs, rfl⟩
    have hsent : Sentence (Formula.joinTokens .or (p :: q :: qs)) (.any (p :: q :: qs)) := by
      rw [Formula.joinTokens]
      simpa using Sentence.mk (ih p (by simp)).term
        (orTail_joinTokens (by simp) fun x hx => ih x (List.mem_cons_of_mem p hx))
    exact .group hsent

end Grammar

/-- A well-formed formula is read back from its fully parenthesised tokens. -/
theorem parseFormula_tokens {f : Formula} (h : f.WellFormed) : parseFormula f.tokens = .ok f :=
  parseFormula_eq_ok_iff.2 (factor_tokens h).term.sentence

end CycleSched.Graph
