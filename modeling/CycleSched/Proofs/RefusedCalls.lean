import CycleSched.Proofs.Lifecycle
import CycleSched.Proofs.Runs

/-!
# Refused calls on an instance

A call on an instance's lifecycle is refused when it answers an error (`TaskInstance.refuses`).
Every call but setting outputs checks its move before it writes a field, so a refused one leaves
the instance as it was. Setting outputs works through its names one by one and keeps, when a
later name is refused, what the names before it did: their outputs stay emitted, and a finish
they made stays, with its time. All else (holds, retries, numbers, job, times of submission and
start, prerequisites, flows) is as before (`refused_call_frame`).

So a refused call is not always without effect: an instance whose submission failed, given the
outputs `x` and then `failed`, emits `x` before the move to `failed` is refused
(`set_outputs_refusal_keeps_earlier`).
-/

namespace CycleSched

theorem Except.toBool_map {ε α β : Type} (x : Except ε α) (f : α → β) :
    (x.map f).toBool = x.toBool := by
  cases x <;> rfl

namespace TaskInstance

/-- The call answers an error. A job message is never refused. -/
def refuses (t : TaskInstance) : Call → Bool
  | .prepare mode => !(t.prepare mode).toBool
  | .submitted jobId now => !(t.submitted jobId now).toBool
  | .submitFailed now delays => !(t.submitFailed now delays).toBool
  | .started now => !(t.started now).toBool
  | .succeeded now => !(t.succeeded now).toBool
  | .failed now delays => !(t.failed now delays).toBool
  | .message _ => false
  | .expire now => !(t.expire now).toBool
  | .kill now => !(t.kill now).toBool
  | .setOutputs names now => !(t.setOutputs names now).2.toBool
  | .trigger => !t.trigger.toBool
  | .requeue => !t.requeue.toBool

/-- `v` is `t` but perhaps for its state, its emitted outputs and its finish time: the fields
that setting outputs writes before it may be refused. -/
def SetFrame (t v : TaskInstance) : Prop :=
  v = { t with state := v.state, emitted := v.emitted, finishedAt := v.finishedAt }

variable {t v w : TaskInstance}

theorem SetFrame.refl (t : TaskInstance) : SetFrame t t := rfl

/-- Writing the state, the outputs or the finish time again keeps the frame. -/
theorem SetFrame.write (h : SetFrame t v) (s : State) (e : List String) (f : Instant) :
    SetFrame t { v with state := s, emitted := e, finishedAt := f } := by
  unfold SetFrame at h ⊢
  rw [h]

theorem SetFrame.emit (h : SetFrame t v) (names : List String) : SetFrame t (v.emit names).1 := by
  obtain ⟨new, he, -, -⟩ := emit_spec v names
  rw [he]
  exact h.write v.state _ v.finishedAt

/-- Finishing by hand moves the state and sets the finish time, or does nothing. -/
theorem SetFrame.finish (h : SetFrame t v) {y : State} {now : Instant} {c : Bool}
    (hw : (if c = true then (v.moveTo y).map fun x => { x with finishedAt := now } else .ok v) =
      .ok w) : SetFrame t w := by
  split at hw
  · obtain ⟨x, hx, rfl⟩ := Except.map_eq_ok_iff.1 hw
    obtain ⟨-, rfl⟩ := moveTo_eq_ok.1 hx
    exact h.write y v.emitted now
  · cases Except.ok.inj hw
    exact h

/-- Setting outputs writes nothing but the state, the outputs and the finish time until it is
done; only a run through every name clears the retry time. -/
theorem setOutputs_frame_of_refused (names : List String) (now : Instant) {e : Failure}
    (h : (t.setOutputs names now).2 = .error e) : SetFrame t (t.setOutputs names now).1 := by
  simp only [setOutputs] at h ⊢
  generalize hr : List.foldl _ (t, Except.ok []) names = r at h ⊢
  -- each name keeps the frame, whether it finishes the instance, emits, or meets a refusal
  have hfold : SetFrame t r.1 := by
    rw [← hr]
    refine List.foldlRecOn
      (motive := fun acc : TaskInstance × Except Failure (List String) => SetFrame t acc.1) names _
      (SetFrame.refl t) ?_
    rintro ⟨v, res⟩ hv name -
    cases res with
    | error e => exact hv
    | ok out =>
      dsimp only
      split
      · split
        · exact hv
        · next w hw => exact (hv.finish hw).emit _
      · split
        · exact hv
        · next w hw => exact (hv.finish hw).emit _
      · exact hv.emit [name]
  obtain ⟨v, res⟩ := r
  cases res with
  | error e => exact hfold
  | ok out => cases h

/-- A refused step keeps the instance. -/
theorem orKeep_of_refused {α : Type} {r : Except Failure (TaskInstance × α)}
    (h : (!r.toBool) = true) : t.orKeep r = t := by
  cases r with
  | error e => rfl
  | ok v => cases h

/-- Every call but setting outputs answers the instance itself when it is refused. -/
theorem call_of_refuses {c : Call} (h : t.refuses c = true)
    (hc : ∀ names now, c ≠ .setOutputs names now) : t.call c = t := by
  cases c with
  | setOutputs names now => exact absurd rfl (hc names now)
  | message text => cases h
  -- the calls that answer no result besides the instance
  | prepare mode => exact orKeep_of_refused (Except.toBool_map (t.prepare mode) _ ▸ h)
  | trigger => exact orKeep_of_refused (Except.toBool_map t.trigger _ ▸ h)
  | requeue => exact orKeep_of_refused (Except.toBool_map t.requeue _ ▸ h)
  | submitted jobId now => exact orKeep_of_refused h
  | submitFailed now delays => exact orKeep_of_refused h
  | started now => exact orKeep_of_refused h
  | succeeded now => exact orKeep_of_refused h
  | failed now delays => exact orKeep_of_refused h
  | expire now => exact orKeep_of_refused h
  | kill now => exact orKeep_of_refused h

/-- A refused call leaves the instance as it was, but for what setting outputs did before its
refusal: then the instance may differ only in its state, its emitted outputs and its finish
time. -/
theorem refused_call_frame {c : Call} (h : t.refuses c = true) :
    SetFrame t (t.call c) ∧ ((∀ names now, c ≠ .setOutputs names now) → t.call c = t) := by
  refine ⟨?_, call_of_refuses h⟩
  by_cases hc : ∃ names now, c = .setOutputs names now
  · obtain ⟨names, now, rfl⟩ := hc
    cases he : (t.setOutputs names now).2 with
    | error e => exact setOutputs_frame_of_refused names now he
    | ok out => simp [refuses, he, Except.toBool] at h
  · rw [call_of_refuses h fun names now he => hc ⟨names, now, he⟩]
    exact SetFrame.refl t

end TaskInstance

namespace Proofs

open TaskInstance

/-- The instance `1/a` of the integer graph `R1: a => b` after a live job of it failed to be
submitted, with no submission retries: it is submit-failed. -/
def submitFailedParent : TaskInstance :=
  ((TaskInstance.make (implicitTask "a" 0 onlyFirst []) ⟨.integer, 1⟩ ⟨.integer, 1⟩
    (FlowSet.ofList [1])).call (.prepare "live")).call (.submitFailed .zero [])

/-- Setting the outputs `x` and then `failed` on the submit-failed instance: `x` is emitted, and
then the move to `failed` is refused. -/
def setAfterSubmitFailure : Call := .setOutputs ["x", "failed"] .zero

/-- The refused setting of outputs on the submit-failed instance changes only its outputs. -/
theorem set_outputs_refusal_frame :
    submitFailedParent.refuses setAfterSubmitFailure = true ∧
      (SetFrame submitFailedParent (submitFailedParent.call setAfterSubmitFailure) ∧
        ((∀ names now, setAfterSubmitFailure ≠ .setOutputs names now) →
          submitFailedParent.call setAfterSubmitFailure = submitFailedParent)) :=
  have h : submitFailedParent.refuses setAfterSubmitFailure = true := by decide
  ⟨h, refused_call_frame h⟩

/-- A refused call may change the instance: on the submit-failed instance, reached by a
preparation and a failed submission, setting the outputs `x` and then `failed` is refused and
leaves `x` emitted. -/
theorem set_outputs_refusal_keeps_earlier :
    ¬ ∀ (t : TaskInstance) (c : Call), t.Reachable → t.refuses c = true → t.call c = t := by
  intro h
  have hreach : submitFailedParent.Reachable := .call _ (.call _ (.make _ _ _ _))
  have hsame := congrArg TaskInstance.emitted
    (h submitFailedParent setAfterSubmitFailure hreach (by decide))
  have hbefore : submitFailedParent.emitted = ["submit-failed"] := by decide
  have hafter : (submitFailedParent.call setAfterSubmitFailure).emitted = ["submit-failed", "x"] := by
    decide
  rw [hbefore, hafter] at hsame
  exact absurd hsame (by decide)

end Proofs

end CycleSched
