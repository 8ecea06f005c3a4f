import Mathlib.Tactic.SplitIfs
import CycleSched.Task.Prereq

/-!
# Prerequisites evaluate in three-valued logic

A prerequisite's condition is an `&`/`|` tree over its terms, and each term is met, unmet,
impossible or dropped. Its verdict is three-valued logic over two readings of the tree in
ordinary logic (`Condition.truth`): a pessimistic one with every unmet term false, and an
optimistic one with every unmet term true. An impossible term is false in both, and a dropped
term takes no part in the `&` or `|` it stands in, so that a group of dropped terms takes no part
either and a tree of them holds. The prerequisite is satisfied exactly when the pessimistic
reading holds, impossible exactly when even the optimistic reading fails, and unsatisfied
otherwise (`Prereq.eval_three_valued`).

Two consequences for terms that change over time: the satisfied mark, once set, stays through
every change of the terms (`Prereq.satisfied_run`); and meeting unmet terms leaves the optimistic
reading as it was, so an impossible prerequisite stays impossible, and never satisfied, however
many of its unmet terms are met afterwards (`Prereq.stays_impossible`).
-/

namespace CycleSched

open CycleSched.Graph

/-- A term's truth with the unmet terms counted as `unmet`: a met term holds, an impossible one
fails, and a dropped one takes no part. -/
def Bit.truth (unmet : Bool) : Bit → Option Bool
  | .satisfied => some true
  | .impossible => some false
  | .unsatisfied => some unmet
  | .dropped => none

/-- A verdict read the same way. -/
def Verdict.truth (unmet : Bool) : Verdict → Option Bool
  | .satisfied => some true
  | .impossible => some false
  | .unsatisfied => some unmet
  | .dropped => none

/-- `&` over parts that may take no part: a part that does must hold, and so must the rest, which
hold when none of them takes part; no part when none does. -/
def allTruth : List (Option Bool) → Option Bool
  | [] => none
  | none :: rest => allTruth rest
  | some b :: rest => some (b && (allTruth rest).getD true)

/-- `|` over parts that may take no part: a part that does holds, or else the rest, which fail
when none of them takes part; no part when none does. -/
def anyTruth : List (Option Bool) → Option Bool
  | [] => none
  | none :: rest => anyTruth rest
  | some b :: rest => some (b || (anyTruth rest).getD false)

/-- The truth of a condition in ordinary logic, each term read by `term`; a term or a group that
takes no part is left out of the `&` or `|` around it. -/
def Graph.Condition.truth (term : Nat → Option Bool) : Condition → Option Bool
  | .trigger i => term i
  | .all parts => allTruth (truths term parts)
  | .any parts => anyTruth (truths term parts)
where
  truths (term : Nat → Option Bool) : List Condition → List (Option Bool)
    | [] => []
    | c :: rest => truth term c :: truths term rest

namespace Prereq

/-- The reading of the `i`-th of some term states; a term past their end is unmet, as the
verdict reads it. -/
def termTruth (bits : List Bit) (unmet : Bool) (i : Nat) : Option Bool :=
  ((bits[i]?).getD .unsatisfied).truth unmet

/-- Whether the prerequisite holds in ordinary logic with its unmet terms counted as `unmet`;
no condition, and a condition whose terms all take no part, hold. -/
def truth (pr : Prereq) (unmet : Bool) : Bool :=
  match pr.condition with
  | none => true
  | some c => (c.truth (termTruth pr.bits unmet)).getD true

/-! ## The verdict of a tree -/

/-- `&` fails when a part fails, and otherwise holds when a part holds. -/
theorem allTruth_eq (vs : List (Option Bool)) :
    allTruth vs = if some false ∈ vs then some false else if some true ∈ vs then some true
      else none := by
  induction vs with
  | nil => rfl
  | cons v vs ih =>
    cases v with
    | none => simp [allTruth, ih]
    | some b => cases b <;> simp only [allTruth, ih] <;> split_ifs <;> simp_all

/-- `|` holds when a part holds, and otherwise fails when a part fails. -/
theorem anyTruth_eq (vs : List (Option Bool)) :
    anyTruth vs = if some true ∈ vs then some true else if some false ∈ vs then some false
      else none := by
  induction vs with
  | nil => rfl
  | cons v vs ih =>
    cases v with
    | none => simp [anyTruth, ih]
    | some b => cases b <;> simp only [anyTruth, ih] <;> split_ifs <;> simp_all

theorem some_mem_truths {vs : List Verdict} {u b : Bool} :
    some b ∈ vs.map (·.truth u) ↔ (b = true ∧ .satisfied ∈ vs) ∨ (b = false ∧ .impossible ∈ vs) ∨
      (b = u ∧ .unsatisfied ∈ vs) := by
  simp only [List.mem_map]
  constructor
  · rintro ⟨v, hv, hb⟩
    cases v <;> simp_all [Verdict.truth]
  · rintro (⟨rfl, h⟩ | ⟨rfl, h⟩ | ⟨rfl, h⟩) <;> exact ⟨_, h, rfl⟩

theorem truth_allOf (vs : List Verdict) (u : Bool) :
    (allOf vs).truth u = allTruth (vs.map (·.truth u)) := by
  simp only [allTruth_eq, some_mem_truths]
  unfold allOf
  cases u <;> split_ifs <;> simp_all [Verdict.truth]

theorem truth_anyOf (vs : List Verdict) (u : Bool) :
    (anyOf vs).truth u = anyTruth (vs.map (·.truth u)) := by
  simp only [anyTruth_eq, some_mem_truths]
  unfold anyOf
  cases u <;> split_ifs <;> simp_all [Verdict.truth]

mutual

/-- The verdict of a condition reads, either way, as the condition does in ordinary logic. -/
theorem truth_verdict (bits : List Bit) (u : Bool) :
    ∀ c : Condition, (verdict bits c).truth u = c.truth (termTruth bits u)
  | .trigger i => by
    simp only [verdict, Condition.truth, termTruth]
    cases bits[i]? with
    | none => rfl
    | some b => cases b <;> rfl
  | .all parts => by
    rw [verdict, Condition.truth, truth_allOf, truths_verdicts bits u parts]
  | .any parts => by
    rw [verdict, Condition.truth, truth_anyOf, truths_verdicts bits u parts]

theorem truths_verdicts (bits : List Bit) (u : Bool) :
    ∀ parts : List Condition,
      (verdict.verdicts bits parts).map (·.truth u) = Condition.truth.truths (termTruth bits u) parts
  | [] => rfl
  | c :: rest => by
    rw [verdict.verdicts, Condition.truth.truths, List.map_cons, truth_verdict bits u c,
      truths_verdicts bits u rest]

end

/-- The verdict of a prerequisite reads, either way, as the prerequisite does in ordinary logic;
it is never `dropped`. -/
theorem truth_eval (pr : Prereq) (u : Bool) : pr.eval.truth u = some (pr.truth u) := by
  unfold eval truth
  cases pr.condition with
  | none => rfl
  | some c =>
    have h := truth_verdict pr.bits u c
    dsimp only
    -- a tree of dropped terms holds
    cases hv : verdict pr.bits c <;> rw [hv] at h <;> simp [← h, Verdict.truth]

theorem eval_ne_dropped (pr : Prereq) : pr.eval ≠ .dropped := by
  intro h
  have := truth_eval pr false
  rw [h] at this
  cases this

/-- Prerequisite evaluation is three-valued logic: satisfied exactly when the condition holds
with every unmet term false, impossible exactly when it fails even with every unmet term true,
and unsatisfied otherwise. -/
theorem eval_three_valued (pr : Prereq) :
    (pr.eval = .satisfied ↔ pr.truth false = true) ∧
      (pr.eval = .impossible ↔ pr.truth true = false) ∧
      (pr.eval = .unsatisfied ↔ pr.truth false = false ∧ pr.truth true = true) := by
  have hlo := truth_eval pr false
  have hhi := truth_eval pr true
  have hd := eval_ne_dropped pr
  cases h : pr.eval <;> rw [h] at hlo hhi <;> simp_all [Verdict.truth]

/-- A dropped term takes no part in `|`: beside an impossible term the prerequisite is
impossible. -/
example :
    ({ condition := some (.any [.trigger 0, .trigger 1]), keys := [],
       bits := [.dropped, .impossible] } : Prereq).eval = .impossible := by
  decide

/-! ## Terms that change -/

/-- A change to a prerequisite's terms: an output emitted, or one that never will be. -/
inductive Change where
  | satisfy (k : OutputKey)
  | markImpossible (k : OutputKey)

/-- The prerequisite after a change to its terms. -/
def change (pr : Prereq) : Change → Prereq
  | .satisfy k => (pr.satisfy k).1
  | .markImpossible k => (pr.markImpossible k).1

@[simp] theorem update_condition (pr : Prereq) : pr.update.condition = pr.condition := by
  unfold update
  split <;> rfl

@[simp] theorem update_keys (pr : Prereq) : pr.update.keys = pr.keys := by
  unfold update
  split <;> rfl

@[simp] theorem update_bits (pr : Prereq) : pr.update.bits = pr.bits := by
  unfold update
  split <;> rfl

@[simp] theorem eval_update (pr : Prereq) : pr.update.eval = pr.eval := by
  unfold eval
  rw [update_condition, update_bits]

@[simp] theorem update_satisfied (pr : Prereq) :
    pr.update.satisfied = (pr.satisfied || pr.eval == .satisfied) := by
  unfold update
  cases hs : pr.satisfied <;> by_cases h : pr.eval = .satisfied <;> simp [hs, h]

/-- Once satisfied, a prerequisite stays satisfied through a change of its terms. -/
theorem satisfied_change {pr : Prereq} (h : pr.satisfied = true) (ch : Change) :
    (pr.change ch).satisfied = true := by
  cases ch <;> simp only [change, satisfy, markImpossible] <;> split <;> simp [h]

/-- Once satisfied, a prerequisite stays satisfied through every run of changes. -/
theorem satisfied_run {pr : Prereq} (h : pr.satisfied = true) (chs : List Change) :
    (chs.foldl change pr).satisfied = true := by
  induction chs generalizing pr with
  | nil => exact h
  | cons ch chs ih => exact ih (satisfied_change h ch)

/-- `q` is `pr` with some unmet terms met: the same condition and keys, as many term states, each
as in `pr` or met where `pr` left it unmet. -/
structure MeetsUnmet (pr q : Prereq) : Prop where
  condition : q.condition = pr.condition
  keys : q.keys = pr.keys
  length : q.bits.length = pr.bits.length
  bit : ∀ i : Nat, q.bits[i]? = pr.bits[i]? ∨
    (pr.bits[i]? = some Bit.unsatisfied ∧ q.bits[i]? = some Bit.satisfied)

theorem MeetsUnmet.refl (pr : Prereq) : MeetsUnmet pr pr := ⟨rfl, rfl, rfl, fun _ => .inl rfl⟩

theorem MeetsUnmet.update {pr q : Prereq} (h : MeetsUnmet pr q) : MeetsUnmet pr q.update := by
  obtain ⟨hc, hk, hl, hb⟩ := h
  exact ⟨by simpa using hc, by simpa using hk, by simpa using hl, by simpa using hb⟩

/-- Meeting unmet terms leaves the optimistic reading as it was. -/
theorem MeetsUnmet.truth_true {pr q : Prereq} (h : MeetsUnmet pr q) : q.truth true = pr.truth true := by
  have hterm : termTruth q.bits true = termTruth pr.bits true := by
    funext i
    rcases h.bit i with hb | ⟨hu, hs⟩
    · simp only [termTruth, hb]
    · simp only [termTruth, hu, hs, Option.getD_some, Bit.truth]
  unfold truth
  rw [h.condition, hterm]

/-- Meeting the terms that name `k` meets only unmet ones when no term naming `k` is
impossible. -/
theorem MeetsUnmet.satisfy {pr q : Prereq} {k : OutputKey} (h : MeetsUnmet pr q)
    (hlen : pr.keys.length = pr.bits.length)
    (hk : ∀ i : Nat, pr.keys[i]? = some k → pr.bits[i]? ≠ some .impossible) :
    MeetsUnmet pr (q.satisfy k).1 := by
  unfold Prereq.satisfy
  dsimp only
  split
  · refine MeetsUnmet.update ⟨h.condition, h.keys, ?_, fun i => ?_⟩
    · simp [List.length_zip, h.keys, h.length, hlen]
    · rw [List.getElem?_map]
      rcases Nat.lt_or_ge i pr.bits.length with hi | hi
      · obtain ⟨key, hkey⟩ : ∃ key, pr.keys[i]? = some key :=
          ⟨_, List.getElem?_eq_getElem (by omega)⟩
        obtain ⟨b, hb⟩ : ∃ b, q.bits[i]? = some b :=
          ⟨_, List.getElem?_eq_getElem (by rw [h.length]; exact hi)⟩
        have hzip : (q.keys.zip q.bits)[i]? = some (key, b) :=
          List.getElem?_zip_eq_some.2 ⟨by rw [h.keys]; exact hkey, hb⟩
        rw [hzip, Option.map_some]
        -- a term is met when it names `k` and was neither met nor dropped, so it was unmet
        rcases h.bit i with hsame | ⟨hun, hsat⟩
        · rw [hb] at hsame
          by_cases hhit : (key == k && b != .satisfied && b != .dropped) = true
          · simp only [Bool.and_eq_true, beq_iff_eq, bne_iff_ne, ne_eq] at hhit
            obtain ⟨⟨rfl, hns⟩, hnd⟩ := hhit
            have hni := hk i hkey
            rw [← hsame] at hni
            have hu : b = .unsatisfied := by cases b <;> simp_all
            exact .inr ⟨by rw [← hsame, hu], by simp [hns, hnd]⟩
          · simp only [hhit]
            exact .inl hsame
        · rw [hb] at hsat
          cases hsat
          exact .inr ⟨hun, by simp⟩
      · have hnone : (q.keys.zip q.bits)[i]? = none :=
          List.getElem?_eq_none_iff.2 (by simp [h.keys, h.length]; omega)
        rw [hnone]
        exact .inl (by simp [List.getElem?_eq_none_iff.2 hi])
  · exact h

/-- A prerequisite that meeting a term marks satisfied was satisfied already, or its verdict is
satisfied now. -/
theorem satisfied_satisfy {q : Prereq} {k : OutputKey} (h : (q.satisfy k).1.satisfied = true) :
    q.satisfied = true ∨ (q.satisfy k).1.eval = .satisfied := by
  revert h
  unfold Prereq.satisfy
  dsimp only
  split
  · simp only [update_satisfied, Bool.or_eq_true, beq_iff_eq, eval_update]
    exact id
  · exact .inl

/-- An impossible prerequisite stays impossible, and unsatisfied, however many of its unmet terms
are met: meeting terms by keys that name no impossible term. -/
theorem stays_impossible {pr : Prereq} (hlen : pr.keys.length = pr.bits.length)
    (himp : pr.isImpossible = true) (ks : List OutputKey)
    (hks : ∀ k ∈ ks, ∀ i : Nat, pr.keys[i]? = some k → pr.bits[i]? ≠ some .impossible) :
    (ks.foldl (fun q k => (q.satisfy k).1) pr).satisfied = false ∧
      (ks.foldl (fun q k => (q.satisfy k).1) pr).eval = .impossible := by
  simp only [isImpossible, Bool.and_eq_true, Bool.not_eq_true', beq_iff_eq] at himp
  have hfails : pr.truth true = false := (eval_three_valued pr).2.1.1 himp.2
  -- every prerequisite of the run meets unmet terms of `pr` only, so it reads as `pr` does
  -- optimistically and is impossible; the satisfied mark is then never set
  have hrun : ∀ (ks : List OutputKey) (q : Prereq),
      (∀ k ∈ ks, ∀ i : Nat, pr.keys[i]? = some k → pr.bits[i]? ≠ some .impossible) →
      MeetsUnmet pr q → q.satisfied = false →
      (ks.foldl (fun q k => (q.satisfy k).1) q).satisfied = false ∧
        MeetsUnmet pr (ks.foldl (fun q k => (q.satisfy k).1) q) := by
    intro ks
    induction ks with
    | nil => exact fun q _ hq hs => ⟨hs, hq⟩
    | cons k ks ih =>
      intro q hks hq hs
      have hq' := hq.satisfy hlen (hks k (List.mem_cons_self ..))
      have himp' : (q.satisfy k).1.eval = .impossible :=
        (eval_three_valued _).2.1.2 (hq'.truth_true.trans hfails)
      have hs' : (q.satisfy k).1.satisfied = false := by
        cases h : (q.satisfy k).1.satisfied with
        | false => rfl
        | true =>
          rcases satisfied_satisfy h with h | h
          · rw [hs] at h; cases h
          · rw [himp'] at h; cases h
      exact ih _ (fun k' hk' => hks k' (List.mem_cons_of_mem _ hk')) hq' hs'
  obtain ⟨hs, hq⟩ := hrun ks pr hks (MeetsUnmet.refl pr) himp.1
  exact ⟨hs, (eval_three_valued _).2.1.2 (hq.truth_true.trans hfails)⟩

/-- Prerequisite evaluation is exact three-valued logic over an `&`/`|` tree in which a dropped
term takes no part: a prerequisite is satisfied exactly when its condition holds with every unmet
and impossible term false, impossible exactly when it fails even with every unmet term true, and
unsatisfied otherwise. So the satisfied mark never reverts through changes of the terms, and an
impossible prerequisite is never satisfied by meeting its unmet terms. -/
theorem eval_exact_three_valued :
    (∀ pr : Prereq, (pr.eval = .satisfied ↔ pr.truth false = true) ∧
      (pr.eval = .impossible ↔ pr.truth true = false) ∧
      (pr.eval = .unsatisfied ↔ pr.truth false = false ∧ pr.truth true = true)) ∧
    (∀ (pr : Prereq) (chs : List Change), pr.satisfied = true →
      (chs.foldl change pr).satisfied = true) ∧
    (∀ (pr : Prereq) (ks : List OutputKey), pr.keys.length = pr.bits.length →
      pr.isImpossible = true →
      (∀ k ∈ ks, ∀ i : Nat, pr.keys[i]? = some k → pr.bits[i]? ≠ some .impossible) →
      (ks.foldl (fun q k => (q.satisfy k).1) pr).satisfied = false ∧
        (ks.foldl (fun q k => (q.satisfy k).1) pr).eval = .impossible) :=
  ⟨eval_three_valued, fun _ chs h => satisfied_run h chs,
    fun _ ks hlen himp hks => stays_impossible hlen himp ks hks⟩

end Prereq

namespace Proofs

/-- The output `1/b:succeeded`. -/
def succeededB : OutputKey := ⟨⟨.integer, 1⟩, "b", "succeeded"⟩

/-- `a & b` at point `1`, with `a` impossible and `b` unmet. -/
def impossiblePair : Prereq :=
  { condition := some (.all [.trigger 0, .trigger 1]),
    keys := [⟨⟨.integer, 1⟩, "a", "succeeded"⟩, succeededB],
    bits := [.impossible, .unsatisfied] }

/-- Once `b` succeeds, `a & b` is still impossible and unsatisfied; had it been satisfied, marking
`b` impossible would have kept it so. -/
theorem impossible_pair_stays_impossible :
    ({ impossiblePair with satisfied := true }.satisfied = true ∧
      ([Prereq.Change.markImpossible succeededB].foldl Prereq.change
        { impossiblePair with satisfied := true }).satisfied = true) ∧
    impossiblePair.keys.length = impossiblePair.bits.length ∧
      impossiblePair.isImpossible = true ∧
      (∀ k ∈ [succeededB], ∀ i : Nat, impossiblePair.keys[i]? = some k →
        impossiblePair.bits[i]? ≠ some .impossible) ∧
      ([succeededB].foldl (fun q k => (q.satisfy k).1) impossiblePair).satisfied = false ∧
      ([succeededB].foldl (fun q k => (q.satisfy k).1) impossiblePair).eval = .impossible := by
  have hsat : ({ impossiblePair with satisfied := true } : Prereq).satisfied = true := rfl
  have hlen : impossiblePair.keys.length = impossiblePair.bits.length := rfl
  have himp : impossiblePair.isImpossible = true := by decide
  -- only the second term names `b`, and it is unmet
  have hkeys : ∀ k ∈ [succeededB], ∀ i : Nat, impossiblePair.keys[i]? = some k →
      impossiblePair.bits[i]? ≠ some .impossible := by
    rintro k hk (_ | _ | i) hi
    · simp only [List.mem_singleton] at hk
      subst hk
      exact absurd hi (by decide)
    · simp [impossiblePair]
    · simp [impossiblePair] at hi
  exact ⟨⟨hsat, Prereq.eval_exact_three_valued.2.1 _ _ hsat⟩, hlen, himp, hkeys,
    Prereq.eval_exact_three_valued.2.2 _ _ hlen himp hkeys⟩

end Proofs

end CycleSched
