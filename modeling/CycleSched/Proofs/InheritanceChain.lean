import Mathlib.Logic.Relation
import Mathlib.Data.List.Nodup
import CycleSched.Proofs.SettingOverlay
import CycleSched.Config.Namespaces

/-!
# Inheritance chains of runtime namespaces

The chain of a namespace is found by a depth-first walk over the parents each namespace names
under `inherit`, with the namespaces on the way kept on a stack and each namespace listed when it
is first reached. The walk fails exactly when inheritance from the namespace is broken: one of
the namespaces it reaches names an undeclared parent, or inherits from itself
(`Namespaces.chain_error_iff`). Its fuel never runs out, since the stack holds distinct declared
names (`Namespaces.Fueled.pos`). A chain that is given starts with its namespace, ends with
`root`, and lists once each namespace that its namespace inherits from; every namespace in it
but the first and `root` comes after one that inherits from it directly (`Namespaces.chain_ok`).

That is all the order there is: a namespace reached first through one parent is listed before a
later parent that inherits from it too (`Proofs.diamond_ancestor_listed_first`). The merged
settings lay the chain's tables over one another from `root` on, so a setting that is no table
comes from the first namespace in the chain that has one at its path
(`Namespaces.find?_layered`), whatever that namespace's place among the ancestors.
-/

namespace CycleSched

/-- A property of the accumulator that every successful step keeps holds after a successful
fold. -/
theorem foldlM_ok_induction {ε α β : Type} {f : β → α → Except ε β} (motive : β → Prop) :
    ∀ {l : List α} {init r : β}, motive init →
      (∀ a ∈ l, ∀ b b', motive b → f b a = .ok b' → motive b') →
      l.foldlM f init = .ok r → motive r
  | [], init, r, h0, _, h => by
    cases h
    exact h0
  | a :: l, init, r, h0, hstep, h => by
    rw [List.foldlM_cons] at h
    cases hf : f init a with
    | error e => rw [hf] at h; cases h
    | ok b =>
      rw [hf] at h
      exact foldlM_ok_induction motive (hstep a List.mem_cons_self init b h0 hf)
        (fun a' ha' => hstep a' (List.mem_cons_of_mem a ha')) h

/-- A fold that fails failed at one of its steps. -/
theorem foldlM_error {ε α β : Type} {f : β → α → Except ε β} :
    ∀ {l : List α} {init : β} {e : ε}, l.foldlM f init = .error e → ∃ a ∈ l, ∃ b, f b a = .error e
  | [], init, e, h => by cases h
  | a :: l, init, e, h => by
    rw [List.foldlM_cons] at h
    cases hf : f init a with
    | error e' =>
      rw [hf] at h
      cases h
      exact ⟨a, List.mem_cons_self, init, hf⟩
    | ok b =>
      rw [hf] at h
      obtain ⟨a', ha', b', h'⟩ := foldlM_error h
      exact ⟨a', List.mem_cons_of_mem a ha', b', h'⟩

/-- Every step of a successful fold succeeded, from an accumulator that the invariant relates to
the start and to one that it relates to the end. -/
theorem foldlM_ok_step {ε α β : Type} {f : β → α → Except ε β} (R : β → β → Prop)
    (refl : ∀ b, R b b) (trans : ∀ a b c, R a b → R b c → R a c)
    (hstep : ∀ b a b', f b a = .ok b' → R b b') :
    ∀ {l : List α} {init r : β}, l.foldlM f init = .ok r →
      ∀ a ∈ l, ∃ b b', R init b ∧ f b a = .ok b' ∧ R b' r
  | [], _, _, _, a, ha => by cases ha
  | a :: l, init, r, h, a', ha' => by
    rw [List.foldlM_cons] at h
    cases hf : f init a with
    | error e => rw [hf] at h; cases h
    | ok b =>
      rw [hf] at h
      rcases List.mem_cons.1 ha' with rfl | ha'
      · exact ⟨init, b, refl init, hf,
          foldlM_ok_induction (R b) (refl b) (fun _ _ c c' hc hc' => trans _ _ _ hc (hstep _ _ _ hc')) h⟩
      · obtain ⟨c, c', hc, hcc, hc'⟩ := foldlM_ok_step R refl trans hstep h a' ha'
        exact ⟨c, c', trans _ _ _ (hstep _ _ _ hf) hc, hcc, hc'⟩

namespace Namespaces

variable (ns : Namespaces)

/-- The namespaces a namespace names under `inherit`, in the order written. -/
def parentsOf (x : String) : List String := ((ns.tree? x).map SettingTable.parents).getD []

/-- `x` inherits directly from `p`, a namespace other than `root`. -/
def Inherits (x p : String) : Prop := p ∈ ns.parentsOf x ∧ p ≠ rootNamespace

/-- Inheritance from `n` reaches a namespace that names an undeclared parent, or one that
inherits from itself. -/
def Broken (n : String) : Prop :=
  ∃ x, Relation.ReflTransGen ns.Inherits n x ∧
    ((∃ p ∈ ns.parentsOf x, p ≠ rootNamespace ∧ ns.has p = false) ∨
      Relation.TransGen ns.Inherits x x)

/-- The own settings of a namespace, without its `inherit` key; none when it is not declared. -/
def own (x : String) : SettingTable := ((ns.tree? x).map (·.erase "inherit")).getD []

/-- The own settings of namespaces laid over one another, the last first, so that the settings
of the first namespace are laid last. -/
def layered (names : List String) : SettingTable :=
  names.foldr (fun x acc => SettingTable.overlay acc (ns.own x)) []

/-- `z` is listed before `y`: some first part of the list holds `z` and not `y`. -/
def listedBefore (l : List String) (z y : String) : Prop := ∃ pre, pre <+: l ∧ z ∈ pre ∧ y ∉ pre

/-- What a visit from `x` does to the names listed so far: it appends, only namespaces that `x`
inherits from, each once, and each after a namespace that inherits from it directly. -/
structure Grows (x : String) (out out' : List String) : Prop where
  isPrefix : out <+: out'
  sound : ∀ y ∈ out', y ∈ out ∨ Relation.ReflTransGen ns.Inherits x y
  nodup : out.Nodup → out'.Nodup
  order : ∀ y ∈ out', y ∉ out → y ≠ x → ∃ z, ns.Inherits z y ∧ listedBefore out' z y

/-- The stack of a visit of `x`: distinct namespaces, each declared but the first, as is `x`
below it, and the fuel left is what the stack has not used. -/
structure Fueled (fuel : Nat) (stack : List String) (x : String) : Prop where
  declared : ∀ y ∈ (stack ++ [x]).tail, ns.has y = true
  nodup : stack.Nodup
  fuel_eq : fuel + stack.length = ns.entries.length + 2

/-- One parent's turn in the visit of `x`: `root` is passed over, an undeclared parent stops the
chain, and any other parent is visited below `x`. -/
def visitParent (fuel : Nat) (x : String) (stack out : List String) (p : String) :
    Except Failure (List String) :=
  if p == rootNamespace then .ok out
  else if !ns.has p then
    .error (.plain s!"runtime {Text.quote x} inherits undefined namespace {Text.quote p}")
  else chain.visit ns fuel p (stack ++ [x]) out

variable {ns}

theorem visit_succ (fuel : Nat) (x : String) (stack out : List String) :
    chain.visit ns (fuel + 1) x stack out =
      if stack.contains x then
        .error (.plain ("runtime inheritance cycle: " ++ " -> ".intercalate stack ++ " -> " ++ x))
      else (ns.parentsOf x).foldlM (ns.visitParent fuel x stack)
        (if out.contains x then out else out ++ [x]) := rfl

theorem chain_eq (n : String) : ns.chain n =
    (chain.visit ns (ns.entries.length + 2) n [] []).map fun out =>
      if n == rootNamespace then out else out ++ [rootNamespace] := by
  unfold chain
  cases chain.visit ns (ns.entries.length + 2) n [] [] <;> rfl

/-- What a parent's turn can do: pass over `root`, or visit a declared parent below. -/
theorem visitParent_ok {fuel : Nat} {x p : String} {stack o o' : List String}
    (h : ns.visitParent fuel x stack o p = .ok o') :
    (p = rootNamespace ∧ o' = o) ∨
      (p ≠ rootNamespace ∧ ns.has p = true ∧ chain.visit ns fuel p (stack ++ [x]) o = .ok o') := by
  unfold visitParent at h
  by_cases hroot : p = rootNamespace
  · rw [if_pos (by simpa using hroot)] at h
    cases h
    exact .inl ⟨hroot, rfl⟩
  · rw [if_neg (by simpa using hroot)] at h
    by_cases hhas : ns.has p = true
    · rw [if_neg (by simp [hhas])] at h
      exact .inr ⟨hroot, hhas, h⟩
    · rw [if_pos (by simpa using hhas)] at h
      cases h

/-- What makes a parent's turn fail: an undeclared parent, or a failure below a declared one. -/
theorem visitParent_error {fuel : Nat} {x p : String} {stack o : List String} {e : Failure}
    (h : ns.visitParent fuel x stack o p = .error e) :
    p ≠ rootNamespace ∧
      (ns.has p = false ∨ chain.visit ns fuel p (stack ++ [x]) o = .error e) := by
  unfold visitParent at h
  by_cases hroot : p = rootNamespace
  · rw [if_pos (by simpa using hroot)] at h
    cases h
  · rw [if_neg (by simpa using hroot)] at h
    refine ⟨hroot, ?_⟩
    by_cases hhas : ns.has p = true
    · rw [if_neg (by simp [hhas])] at h
      exact .inr h
    · exact .inl (by simpa using hhas)

theorem listedBefore_of_isPrefix {l l' : List String} {z y : String} (h : l <+: l')
    (hb : listedBefore l z y) : listedBefore l' z y := by
  obtain ⟨pre, hpre, hz, hy⟩ := hb
  exact ⟨pre, hpre.trans h, hz, hy⟩

/-- Listing `x` first, when it is new, is how a visit from `x` starts. -/
theorem grows_start (x : String) (out : List String) :
    ns.Grows x out (if out.contains x then out else out ++ [x]) := by
  by_cases hx : x ∈ out
  · rw [if_pos (by simpa using hx)]
    exact ⟨List.prefix_refl out, fun y hy => .inl hy, id, fun y hy hy' => absurd hy hy'⟩
  · rw [if_neg (by simpa using hx)]
    refine ⟨List.prefix_append out [x], ?_, ?_, ?_⟩
    · intro y hy
      rcases List.mem_append.1 hy with hy | hy
      · exact .inl hy
      · exact .inr (by rw [List.mem_singleton.1 hy])
    · intro hn
      rw [← List.concat_eq_append]
      exact hn.concat hx
    · intro y hy hy' hyx
      rcases List.mem_append.1 hy with hy | hy
      · exact absurd hy hy'
      · exact absurd (List.mem_singleton.1 hy) hyx

/-- After a visit of a parent `p` of `x`, what the visit from `x` has done so far still grows the
list as a visit from `x` should. -/
theorem Grows.parent {x p : String} {out o o' : List String} (hg : ns.Grows x out o) (hx : x ∈ o)
    (hp : ns.Inherits x p) (hv : ns.Grows p o o') : ns.Grows x out o' := by
  refine ⟨hg.isPrefix.trans hv.isPrefix, ?_, fun hn => hv.nodup (hg.nodup hn), ?_⟩
  · intro y hy
    rcases hv.sound y hy with hy | hy
    · exact hg.sound y hy
    · exact .inr (Relation.ReflTransGen.head hp hy)
  · intro y hy hout hyx
    by_cases ho : y ∈ o
    · obtain ⟨z, hz, hb⟩ := hg.order y ho hout hyx
      exact ⟨z, hz, listedBefore_of_isPrefix hv.isPrefix hb⟩
    · by_cases hyp : y = p
      · subst hyp
        exact ⟨x, hp, o, hv.isPrefix, hx, ho⟩
      · exact hv.order y hy ho hyp

theorem visit_grows : ∀ {fuel : Nat} {x : String} {stack out out' : List String},
    chain.visit ns fuel x stack out = .ok out' → ns.Grows x out out'
  | 0, x, stack, out, out', h => by
    cases h
    exact ⟨List.prefix_refl out, fun y hy => .inl hy, id, fun y hy hy' => absurd hy hy'⟩
  | fuel + 1, x, stack, out, out', h => by
    rw [visit_succ] at h
    split at h
    · cases h
    · -- every parent's turn keeps the list growing as a visit from `x`, which is listed
      refine (foldlM_ok_induction (fun o => ns.Grows x out o ∧ x ∈ o)
        ⟨grows_start x out, ?_⟩ ?_ h).1
      · split <;> simp_all
      · intro p hp o o' ⟨hg, hx⟩ hturn
        rcases visitParent_ok hturn with ⟨-, rfl⟩ | ⟨hroot, -, hvisit⟩
        · exact ⟨hg, hx⟩
        · have hv := visit_grows hvisit
          exact ⟨hg.parent hx ⟨hp, hroot⟩ hv, hv.isPrefix.subset hx⟩

/-- A visit with fuel lists its namespace first, when it was not listed already. -/
theorem visit_start {fuel : Nat} {x : String} {stack out out' : List String}
    (h : chain.visit ns (fuel + 1) x stack out = .ok out') :
    (if out.contains x then out else out ++ [x]) <+: out' := by
  rw [visit_succ] at h
  split at h
  · cases h
  · refine foldlM_ok_induction (fun o => _ <+: o) (List.prefix_refl _) ?_ h
    intro p _ o o' ho hturn
    rcases visitParent_ok hturn with ⟨-, rfl⟩ | ⟨-, -, hv⟩
    · exact ho
    · exact ho.trans (visit_grows hv).isPrefix

/-- A visit with fuel lists the namespace it visits. -/
theorem visit_mem {fuel : Nat} {x : String} {stack out out' : List String}
    (h : chain.visit ns (fuel + 1) x stack out = .ok out') : x ∈ out' :=
  (visit_start h).subset (by split <;> simp_all)

theorem mem_names_of_has {x : String} (h : ns.has x = true) : x ∈ ns.names := by
  obtain ⟨e, he, hx⟩ := List.any_eq_true.1 h
  exact List.mem_map.2 ⟨e, he, by simpa using hx⟩

/-- Declaring a namespace adds its name after the others, unless it was declared already. -/
theorem names_add (x : String) (t : SettingTable) :
    (ns.add x t).names = if ns.has x then ns.names else ns.names ++ [x] := by
  unfold add names
  split
  · rw [List.map_map]
    refine List.map_congr_left fun e _ => ?_
    by_cases h : e.1 = x <;> simp [h]
  · simp

theorem fueled_start (n : String) : ns.Fueled (ns.entries.length + 2) [] n :=
  ⟨fun y hy => by simp at hy, List.nodup_nil, by simp⟩

/-- Fuel never runs out: the stack holds distinct declared namespaces below its first, and there
are no more of those than entries. -/
theorem Fueled.pos {fuel : Nat} {stack : List String} {x : String} (hf : ns.Fueled fuel stack x) :
    0 < fuel := by
  have hlen : stack.tail.length ≤ ns.names.length := by
    refine List.Nodup.length_le_of_subset (List.Nodup.sublist (List.tail_sublist stack) hf.nodup)
      fun y hy => mem_names_of_has (hf.declared y ?_)
    cases stack with
    | nil => cases hy
    | cons a rest => simp_all
  have hnames : ns.names.length = ns.entries.length := List.length_map _
  have := hf.fuel_eq
  rw [List.length_tail] at hlen
  omega

theorem Fueled.parent {fuel : Nat} {stack : List String} {x p : String}
    (hf : ns.Fueled (fuel + 1) stack x) (hx : x ∉ stack) (hp : ns.has p = true) :
    ns.Fueled fuel (stack ++ [x]) p := by
  refine ⟨fun y hy => ?_, List.concat_eq_append ▸ hf.nodup.concat hx, ?_⟩
  · rw [List.append_assoc, List.singleton_append] at hy
    cases stack with
    | nil =>
      simp only [List.nil_append, List.tail_cons, List.mem_singleton] at hy
      exact hy ▸ hp
    | cons a rest =>
      simp only [List.cons_append, List.tail_cons, List.mem_append, List.mem_cons,
        List.not_mem_nil, or_false] at hy
      rcases hy with hy | rfl | rfl
      · exact hf.declared y (by simp [hy])
      · exact hf.declared y (by simp)
      · exact hp
  · have := hf.fuel_eq
    simp only [List.length_append, List.length_singleton]
    omega

/-- Each parent's turn of a successful visit succeeded, between the start and the end. -/
theorem visit_turns {fuel : Nat} {x : String} {stack out out' : List String}
    (h : (ns.parentsOf x).foldlM (ns.visitParent fuel x stack) out = .ok out') :
    ∀ p ∈ ns.parentsOf x, ∃ o o', ns.visitParent fuel x stack o p = .ok o' ∧ o' <+: out' :=
  fun p hp =>
    have ⟨o, o', _, ho, ho'⟩ := foldlM_ok_step (fun o o' => o <+: o') List.prefix_refl
      (fun _ _ _ h₁ h₂ => h₁.trans h₂)
      (fun o _ _ hturn => (visitParent_ok hturn).elim (fun ⟨_, h⟩ => h ▸ List.prefix_refl o)
        fun ⟨_, _, hv⟩ => (visit_grows hv).isPrefix) h p hp
    ⟨o, o', ho, ho'⟩

/-- A successful visit with enough fuel has listed every namespace that `x` inherits from, none
of them on the stack, none naming an undeclared parent and none inheriting from itself. -/
theorem visit_closed : ∀ {fuel : Nat} {x : String} {stack out out' : List String},
    chain.visit ns fuel x stack out = .ok out' → ns.Fueled fuel stack x →
    ∀ y, Relation.ReflTransGen ns.Inherits x y →
      y ∈ out' ∧ y ∉ stack ∧ (∀ p ∈ ns.parentsOf y, p ≠ rootNamespace → ns.has p = true) ∧
        ¬ Relation.TransGen ns.Inherits y y
  | 0, _, _, _, _, _, hf => absurd hf.pos (Nat.lt_irrefl 0)
  | fuel + 1, x, stack, out, out', h, hf => by
    have hmem := visit_mem h
    rw [visit_succ] at h
    split at h
    · cases h
    · next hstack =>
      have hx : x ∉ stack := by simpa using hstack
      -- what the visit of each parent below `x` found
      have hbelow : ∀ p, ns.Inherits x p → ns.has p = true ∧ ∀ y,
          Relation.ReflTransGen ns.Inherits p y →
            y ∈ out' ∧ y ∉ stack ++ [x] ∧
              (∀ q ∈ ns.parentsOf y, q ≠ rootNamespace → ns.has q = true) ∧
              ¬ Relation.TransGen ns.Inherits y y := by
        intro p ⟨hp, hroot⟩
        obtain ⟨o, o', hturn, ho'⟩ := visit_turns h p hp
        rcases visitParent_ok hturn with ⟨hr, -⟩ | ⟨-, hhas, hv⟩
        · exact absurd hr hroot
        · refine ⟨hhas, fun y hy => ?_⟩
          obtain ⟨h₁, h₂, h₃, h₄⟩ := visit_closed hv (hf.parent hx hhas) y hy
          exact ⟨ho'.subset h₁, h₂, h₃, h₄⟩
      intro y hy
      rcases Relation.ReflTransGen.cases_head hy with rfl | ⟨p, hp, hpy⟩
      · refine ⟨hmem, hx, fun q hq hroot => (hbelow q ⟨hq, hroot⟩).1, fun hcycle => ?_⟩
        -- a way back to `x` would pass a parent whose visit found `x` on its stack
        obtain ⟨p, hp, hpx⟩ := Relation.TransGen.head'_iff.1 hcycle
        exact ((hbelow p hp).2 x hpx).2.1 (List.mem_append_right stack (List.mem_singleton_self x))
      · obtain ⟨h₁, h₂, h₃, h₄⟩ := (hbelow p hp).2 y hpy
        exact ⟨h₁, fun hs => h₂ (List.mem_append_left [x] hs), h₃, h₄⟩

/-- A visit fails only where inheritance from the start is broken: the stack leads to `x` and
the start reaches it. -/
theorem visit_error {n : String} : ∀ {fuel : Nat} {x : String} {stack out : List String}
    {e : Failure}, chain.visit ns fuel x stack out = .error e →
    Relation.ReflTransGen ns.Inherits n x → (∀ y ∈ stack, Relation.TransGen ns.Inherits y x) →
    ns.Broken n
  | 0, _, _, _, _, h, _, _ => by cases h
  | fuel + 1, x, stack, out, e, h, hn, hstack => by
    rw [visit_succ] at h
    split at h
    · next hx =>
      exact ⟨x, hn, .inr (hstack x (by simpa using hx))⟩
    · obtain ⟨p, hp, o, hturn⟩ := foldlM_error h
      obtain ⟨hroot, hfail⟩ := visitParent_error hturn
      rcases hfail with hhas | hv
      · exact ⟨x, hn, .inl ⟨p, hp, hroot, hhas⟩⟩
      · refine visit_error hv (hn.tail ⟨hp, hroot⟩) fun y hy => ?_
        rcases List.mem_append.1 hy with hy | hy
        · exact (hstack y hy).tail ⟨hp, hroot⟩
        · exact List.mem_singleton.1 hy ▸ .single ⟨hp, hroot⟩

theorem chain_eq_ok {n : String} {names : List String} :
    ns.chain n = .ok names ↔ ∃ out, chain.visit ns (ns.entries.length + 2) n [] [] = .ok out ∧
      names = if n == rootNamespace then out else out ++ [rootNamespace] := by
  rw [chain_eq]
  cases chain.visit ns (ns.entries.length + 2) n [] [] with
  | error e =>
    constructor
    · intro h
      cases h
    · rintro ⟨o, ho, -⟩
      cases ho
  | ok out =>
    constructor
    · intro h
      cases h
      exact ⟨out, rfl, rfl⟩
    · rintro ⟨o, ho, rfl⟩
      cases ho
      rfl

/-- A namespace reached by inheritance is the start or not `root`. -/
theorem eq_or_ne_root {n y : String} (h : Relation.ReflTransGen ns.Inherits n y) :
    y = n ∨ y ≠ rootNamespace := by
  rcases Relation.ReflTransGen.cases_tail h with rfl | ⟨z, -, -, hroot⟩
  · exact .inl rfl
  · exact .inr hroot

/-- The chain of a namespace fails exactly when inheritance from it is broken. -/
theorem chain_error_iff (n : String) : (∃ e, ns.chain n = .error e) ↔ ns.Broken n := by
  constructor
  · rintro ⟨e, he⟩
    rw [chain_eq] at he
    cases hv : chain.visit ns (ns.entries.length + 2) n [] [] with
    | ok out => rw [hv] at he; cases he
    | error e' => exact visit_error hv .refl fun y hy => by cases hy
  · intro hb
    cases h : ns.chain n with
    | error e => exact ⟨e, rfl⟩
    | ok names =>
      obtain ⟨out, hv, -⟩ := chain_eq_ok.1 h
      obtain ⟨x, hx, hbad⟩ := hb
      have hclosed := visit_closed hv (fueled_start n) x hx
      rcases hbad with ⟨p, hp, hroot, hhas⟩ | hcycle
      · have := hclosed.2.2.1 p hp hroot
        simp_all
      · exact absurd hcycle hclosed.2.2.2

/-- A chain that is given starts with its namespace, ends with `root`, and lists once each of
the namespaces its namespace inherits from; every namespace in it but the first and `root` comes
after one that inherits from it directly. -/
theorem chain_ok {n : String} {names : List String} (h : ns.chain n = .ok names) :
    names.head? = some n ∧ (n ≠ rootNamespace → names.getLast? = some rootNamespace) ∧
      names.Nodup ∧
      (∀ y, y ∈ names ↔ Relation.ReflTransGen ns.Inherits n y ∨
        (n ≠ rootNamespace ∧ y = rootNamespace)) ∧
      ∀ y ∈ names, y ≠ n → y ≠ rootNamespace → ∃ z, ns.Inherits z y ∧ listedBefore names z y := by
  obtain ⟨out, hv, rfl⟩ := chain_eq_ok.1 h
  have hgrow := visit_grows hv
  have hstart : [n] <+: out := by simpa using visit_start hv
  have hreach : ∀ y, y ∈ out ↔ Relation.ReflTransGen ns.Inherits n y := fun y =>
    ⟨fun hy => (hgrow.sound y hy).resolve_left List.not_mem_nil,
      fun hy => (visit_closed hv (fueled_start n) y hy).1⟩
  have hnodup : out.Nodup := hgrow.nodup List.nodup_nil
  have hhead : out.head? = some n := by
    obtain ⟨rest, rfl⟩ := hstart
    rfl
  by_cases hroot : n = rootNamespace
  · rw [if_pos (by simpa using hroot)]
    refine ⟨hhead, fun hne => absurd hroot hne, hnodup, fun y => by simp [hreach, hroot], ?_⟩
    intro y hy hyn _
    exact hgrow.order y hy List.not_mem_nil hyn
  · rw [if_neg (by simpa using hroot)]
    -- `root` is reached from no namespace but itself, so it is listed once, last
    have hout : rootNamespace ∉ out := by
      intro hr
      rcases eq_or_ne_root ((hreach _).1 hr) with h | h
      · exact hroot h.symm
      · exact h rfl
    refine ⟨?_, fun _ => List.getLast?_concat .., ?_, fun y => ?_, ?_⟩
    · obtain ⟨rest, rfl⟩ := hstart
      rfl
    · rw [← List.concat_eq_append]
      exact hnodup.concat hout
    · simp only [List.mem_append, List.mem_singleton, hreach, hroot, ne_eq, not_false_eq_true,
        true_and]
    · intro y hy hyn hyr
      rcases List.mem_append.1 hy with hy | hy
      · obtain ⟨z, hz, hb⟩ := hgrow.order y hy List.not_mem_nil hyn
        exact ⟨z, hz, listedBefore_of_isPrefix (List.prefix_append out _) hb⟩
      · exact absurd (List.mem_singleton.1 hy) hyr

theorem merged_eq (n : String) : ns.merged n = (ns.chain n).map ns.layered := by
  unfold merged
  cases ns.chain n with
  | error e => rfl
  | ok names =>
    show Except.ok _ = Except.ok _
    congr 1
    rw [List.foldl_reverse]
    unfold layered
    congr
    funext x acc
    unfold own
    cases ns.tree? x with
    | none => rw [SettingTable.overlay_eq]; rfl
    | some t => rfl

theorem keysOnce_own (hkeys : ∀ x t, ns.tree? x = some t → t.KeysOnce) (x : String) :
    (ns.own x).KeysOnce := by
  unfold own
  cases hx : ns.tree? x with
  | none =>
    refine ⟨List.nodup_nil, fun path sub h => ?_⟩
    change SettingTable.find? [] path = _ at h
    rw [SettingTable.find?_empty] at h
    cases h
  | some t => exact (hkeys x t hx).erase "inherit"

/-- A setting other than a table keyed by texts, found where namespaces' settings are laid over
one another, is that of the first namespace that has a setting at its path. -/
theorem find?_layered (hkeys : ∀ x t, ns.tree? x = some t → t.KeysOnce) {path : List String}
    {v : Setting} (hv : v.isTable = false) : ∀ {names : List String},
    (ns.layered names).find? path = some v →
      ∃ l₁ x l₂, names = l₁ ++ x :: l₂ ∧ (ns.own x).find? path = some v ∧
        ∀ y ∈ l₁, (ns.own y).find? path = none
  | [], h => by
    change SettingTable.find? [] path = some v at h
    rw [SettingTable.find?_empty] at h
    cases h
  | x :: rest, h => by
    change (SettingTable.overlay (ns.layered rest) (ns.own x)).find? path = some v at h
    rcases SettingTable.find?_overlay hv (keysOnce_own hkeys x) h with hx | ⟨hx, hrest⟩
    · exact ⟨[], x, rest, rfl, hx, fun y hy => by cases hy⟩
    · obtain ⟨l₁, y, l₂, rfl, hy, hbefore⟩ := find?_layered hkeys hv hrest
      refine ⟨x :: l₁, y, l₂, rfl, hy, fun z hz => ?_⟩
      rcases List.mem_cons.1 hz with rfl | hz
      · exact hx
      · exact hbefore z hz

/-- The chain of a runtime namespace fails exactly when inheritance from it is broken. A chain
that is given starts with its namespace, ends with `root`, and lists once each of the namespaces
its namespace inherits from; every namespace in it but the first and `root` comes after one that
inherits from it directly. Where every table keeps each key once, each setting of the merged
settings that is no table is that of the first namespace in the chain that has one at its path. -/
theorem chain_lists_ancestors (n : String) :
    ((∃ e, ns.chain n = .error e) ↔ ns.Broken n) ∧
      ∀ names, ns.chain n = .ok names →
        (names.head? = some n ∧ (n ≠ rootNamespace → names.getLast? = some rootNamespace) ∧
          names.Nodup ∧
          (∀ y, y ∈ names ↔ Relation.ReflTransGen ns.Inherits n y ∨
            (n ≠ rootNamespace ∧ y = rootNamespace)) ∧
          ∀ y ∈ names, y ≠ n → y ≠ rootNamespace →
            ∃ z, ns.Inherits z y ∧ listedBefore names z y) ∧
        ((∀ x t, ns.tree? x = some t → t.KeysOnce) →
          ∀ t, ns.merged n = .ok t → ∀ path v, v.isTable = false → t.find? path = some v →
            ∃ l₁ x l₂, names = l₁ ++ x :: l₂ ∧ (ns.own x).find? path = some v ∧
              ∀ y ∈ l₁, (ns.own y).find? path = none) := by
  refine ⟨chain_error_iff n, fun names h => ⟨chain_ok h, fun hkeys t hm path v hv hp => ?_⟩⟩
  rw [merged_eq, h] at hm
  cases hm
  exact find?_layered hkeys hv hp

end Namespaces

namespace Proofs

/-- Runtime namespaces where `n` inherits from `a` and then from `b`, and `b` inherits from `a`
too. -/
def diamondRuntime : Namespaces :=
  ⟨[("a", [("script", .leaf (.str "A"))]),
    ("b", [("inherit", .list [.leaf (.str "a")]), ("script", .leaf (.str "B"))]),
    ("n", [("inherit", .list [.leaf (.str "a"), .leaf (.str "b")])])]⟩

/-- `a` is reached first from `n`, so it is listed before `b`, which inherits from it. -/
theorem diamond_ancestor_listed_first :
    (diamondRuntime.chain "n").toOption = some ["n", "a", "b", "root"] ∧
      diamondRuntime.Inherits "b" "a" ∧ Namespaces.listedBefore ["n", "a", "b", "root"] "a" "b" :=
  ⟨by decide +kernel, ⟨by decide +kernel, by decide⟩, ⟨["n", "a"], ⟨["b", "root"], rfl⟩, by simp, by simp⟩⟩

end Proofs

end CycleSched
