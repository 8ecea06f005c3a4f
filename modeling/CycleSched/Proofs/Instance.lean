import CycleSched.Pool.Basic

/-!
# What a job's reports keep of an instance

Every report on a job (preparation, submission, start, success, failure, messages, expiry,
kills, outputs set by hand, a forced run) and every change of a prerequisite's terms leaves
alone what spawning reads of an instance: its task, its point, its flows and whether it waits
for its flow. `TaskInstance.SameSpawn t t'` says so of two instances. A report also leaves the
prerequisites alone and emits only outputs the task declares or names set by hand: each
transition is shown to keep this frame (`TaskInstance.Frame`), and what it keeps for spawning is
read off the frame (`Frame.spawn`).

The stable sort used for pool order and for output names permutes its list, so it keeps the
members and their number.
-/

namespace CycleSched

/-- A computation in `Except` followed by another succeeds when both do. -/
theorem Except.bind_eq_ok_iff {ε α β : Type} {x : Except ε α} {f : α → Except ε β} {b : β} :
    x >>= f = .ok b ↔ ∃ a, x = .ok a ∧ f a = .ok b := by
  cases x with
  | error e => simp [bind, Except.bind]
  | ok a => simp [bind, Except.bind]

/-- A computation in `Except` mapped by a function succeeds when the computation does. -/
theorem Except.map_eq_ok_iff {ε α β : Type} {x : Except ε α} {f : α → β} {b : β} :
    x.map f = .ok b ↔ ∃ a, x = .ok a ∧ f a = b := by
  cases x with
  | error e => simp [Except.map]
  | ok a => simp [Except.map]

/-- Renaming the failures of a computation in `Except` keeps its answers. -/
theorem Except.mapError_eq_ok_iff {ε ε' α : Type} {x : Except ε α} {f : ε → ε'} {a : α} :
    x.mapError f = .ok a ↔ x = .ok a := by
  cases x with
  | error e => exact ⟨(nomatch ·), (nomatch ·)⟩
  | ok b => exact ⟨fun h => congrArg Except.ok (Except.ok.inj h),
      fun h => congrArg Except.ok (Except.ok.inj h)⟩

/-- A computation in `Except` whose answer passes a test answers something that passes it. -/
theorem Except.exists_ok_of_any {ε α : Type} {x : Except ε α} {f : α → Bool}
    (h : x.toOption.any f = true) : ∃ a, x = .ok a ∧ f a = true := by
  cases x with
  | error e => cases h
  | ok a => exact ⟨a, rfl, h⟩

/-- A computation in `Except` whose answer is `a` succeeds with `a`. -/
theorem Except.eq_ok_of_toOption {ε α : Type} {x : Except ε α} {a : α} (h : x.toOption = some a) :
    x = .ok a := by
  cases x with
  | error e => cases h
  | ok a' => cases h; rfl

/-- A computation in `Except` that answers nothing fails. -/
theorem Except.exists_error_of_isNone {ε α : Type} {x : Except ε α} (h : x.toOption.isNone = true) :
    ∃ e, x = .error e := by
  cases x with
  | error e => exact ⟨e, rfl⟩
  | ok a => cases h

section Sorting

variable {α : Type} (le : α → α → Bool)

theorem insertBy_perm (a : α) (l : List α) : (insertBy le a l).Perm (a :: l) := by
  induction l with
  | nil => simp [insertBy]
  | cons b l ih =>
    unfold insertBy
    split
    · exact .refl _
    · exact (ih.cons b).trans (.swap a b l)

theorem sortBy_perm (l : List α) : (sortBy le l).Perm l := by
  induction l with
  | nil => simp [sortBy]
  | cons a l ih => exact (insertBy_perm le a _).trans (ih.cons a)

@[simp] theorem mem_sortBy {l : List α} {a : α} : a ∈ sortBy le l ↔ a ∈ l :=
  (sortBy_perm le l).mem_iff

variable {le} (htrans : ∀ a b c, le a b = true → le b c = true → le a c = true)
  (htotal : ∀ a b, (le a b || le b a) = true)
include htrans htotal

theorem pairwise_insertBy (a : α) {l : List α} (hl : l.Pairwise (le · · = true)) :
    (insertBy le a l).Pairwise (le · · = true) := by
  induction l with
  | nil => simp [insertBy]
  | cons b l ih =>
    rw [List.pairwise_cons] at hl
    unfold insertBy
    split
    · next hab =>
      exact List.Pairwise.cons (fun c hc => (List.mem_cons.1 hc).elim (· ▸ hab)
        fun hc => htrans a b c hab (hl.1 c hc)) (List.Pairwise.cons hl.1 hl.2)
    · next hab =>
      -- `b` comes before `a`, since `a` may not come before it
      have hba : le b a = true := by simpa [hab] using htotal a b
      refine List.Pairwise.cons (fun c hc => ?_) (ih hl.2)
      rcases List.mem_cons.1 ((insertBy_perm le a l).subset hc) with rfl | hc
      · exact hba
      · exact hl.1 c hc

/-- Under a total preorder the insertion sort leaves its list in order. -/
theorem pairwise_sortBy (l : List α) : (sortBy le l).Pairwise (le · · = true) := by
  induction l with
  | nil => simp [sortBy]
  | cons a l ih => exact pairwise_insertBy htrans htotal a ih

end Sorting

namespace TaskInstance

/-- `t'` agrees with `t` on what spawning reads: the task, the point, the flows, and whether the
instance waits for its flow. -/
def SameSpawn (t t' : TaskInstance) : Prop :=
  t'.task = t.task ∧ t'.point = t.point ∧ t'.flows = t.flows ∧ t'.flowWait = t.flowWait

namespace SameSpawn

variable {t t' t'' : TaskInstance}

@[refl] theorem refl (t : TaskInstance) : SameSpawn t t := ⟨rfl, rfl, rfl, rfl⟩

theorem trans (h : SameSpawn t t') (h' : SameSpawn t' t'') : SameSpawn t t'' :=
  ⟨h'.1.trans h.1, h'.2.1.trans h.2.1, h'.2.2.1.trans h.2.2.1, h'.2.2.2.trans h.2.2.2⟩

theorem key_eq (h : SameSpawn t t') : t'.key = t.key := by
  simp [TaskInstance.key, h.1, h.2.1]

/-- A fold whose every step keeps what spawning reads of the instance it carries keeps it. The
instance is read off the fold's state by `g`. -/
theorem foldlBy {α β : Type} (g : β → TaskInstance) {f : β → α → β} (l : List α)
    (hf : ∀ b x, SameSpawn (g b) (g (f b x))) (b : β) : SameSpawn (g b) (g (l.foldl f b)) := by
  induction l generalizing b with
  | nil => exact refl (g b)
  | cons x l ih => exact (hf b x).trans (ih _)

/-- A fold whose every step keeps what spawning reads keeps it. -/
theorem foldl {α : Type} {f : TaskInstance → α → TaskInstance} (l : List α)
    (hf : ∀ u x, SameSpawn u (f u x)) (t : TaskInstance) : SameSpawn t (l.foldl f t) :=
  foldlBy (fun u : TaskInstance => u) l hf t

end SameSpawn

variable {t t' : TaskInstance} {now : Instant}

/-- Changing any field but the task, the point, the flows and the flow wait keeps them. -/
theorem sameSpawn_of_eq {t' : TaskInstance} (h₁ : t'.task = t.task) (h₂ : t'.point = t.point)
    (h₃ : t'.flows = t.flows) (h₄ : t'.flowWait = t.flowWait) : SameSpawn t t' :=
  ⟨h₁, h₂, h₃, h₄⟩

theorem sameSpawn_satisfy (t : TaskInstance) (k : OutputKey) : SameSpawn t (t.satisfy k).1 :=
  sameSpawn_of_eq rfl rfl rfl rfl

theorem sameSpawn_markImpossible (t : TaskInstance) (k : OutputKey) :
    SameSpawn t (t.markImpossible k).1 :=
  sameSpawn_of_eq rfl rfl rfl rfl

/-! ## What a job's reports write

A report on a job writes the state, the counts, the job's fields and its times, and appends
outputs. It leaves alone the task, the point, the flows, the flow wait and the prerequisites, and
every output it appends is declared by the task or is a name set by hand. -/

/-- `t'` is `t` after reports on its job: it agrees with `t` on the task, the point, the flows,
the flow wait and the prerequisites, and every output it emitted that `t` had not is declared by
the task or among `extra`. -/
structure Frame (extra : List String) (t t' : TaskInstance) : Prop where
  task : t'.task = t.task
  point : t'.point = t.point
  flows : t'.flows = t.flows
  flowWait : t'.flowWait = t.flowWait
  prereqs : t'.prereqs = t.prereqs
  emitted : ∀ o ∈ t'.emitted, o ∈ t.emitted ∨ t.task.hasOutput o = true ∨ o ∈ extra

namespace Frame

variable {extra : List String} {t t' t'' : TaskInstance}

theorem spawn (h : Frame extra t t') : SameSpawn t t' := ⟨h.task, h.point, h.flows, h.flowWait⟩

/-- Writing fields other than these and the outputs keeps the frame; for a record update the
equalities hold by `rfl`. -/
theorem write (h₁ : t'.task = t.task := by rfl) (h₂ : t'.point = t.point := by rfl)
    (h₃ : t'.flows = t.flows := by rfl) (h₄ : t'.flowWait = t.flowWait := by rfl)
    (h₅ : t'.prereqs = t.prereqs := by rfl) (h₆ : t'.emitted = t.emitted := by rfl) :
    Frame extra t t' :=
  ⟨h₁, h₂, h₃, h₄, h₅, fun _ ho => .inl (h₆ ▸ ho)⟩

theorem refl (t : TaskInstance) : Frame extra t t := write

theorem trans (h : Frame extra t t') (h' : Frame extra t' t'') : Frame extra t t'' := by
  refine ⟨h'.task.trans h.task, h'.point.trans h.point, h'.flows.trans h.flows,
    h'.flowWait.trans h.flowWait, h'.prereqs.trans h.prereqs, fun o ho => ?_⟩
  -- an output new in `t''` is new in `t'`, or declared by the task the two share
  rcases h'.emitted o ho with ho | ho | ho
  · exact h.emitted o ho
  · exact .inr (.inl (h.task ▸ ho))
  · exact .inr (.inr ho)

/-- Names among `extra` that the task declares, or that are among `extra'`, may be traded. -/
theorem declared {extra' : List String} (h : Frame extra t t')
    (hx : ∀ o ∈ extra, o ∈ extra' ∨ t.task.hasOutput o = true) : Frame extra' t t' := by
  refine ⟨h.task, h.point, h.flows, h.flowWait, h.prereqs, fun o ho => ?_⟩
  rcases h.emitted o ho with ho | ho | ho
  · exact .inl ho
  · exact .inr (.inl ho)
  · exact (hx o ho).elim (fun h => .inr (.inr h)) (fun h => .inr (.inl h))

/-- A fold whose every step on an element of the list keeps the frame keeps it. The instance
is read off the fold's state by `g`. -/
theorem foldlBy {α β : Type} (g : β → TaskInstance) {f : β → α → β} (l : List α)
    (hf : ∀ b, ∀ x ∈ l, Frame extra (g b) (g (f b x))) (b : β) :
    Frame extra (g b) (g (l.foldl f b)) := by
  induction l generalizing b with
  | nil => exact refl (g b)
  | cons x l ih =>
    exact (hf b x List.mem_cons_self).trans
      (ih (fun b y hy => hf b y (List.mem_cons_of_mem x hy)) _)

end Frame

/-- Emitting appends only names emitted. -/
theorem frame_emit (t : TaskInstance) (names : List String) : Frame names t (t.emit names).1 := by
  unfold emit
  -- each name at most appends itself; the fold carries the instance along
  refine Frame.foldlBy Prod.fst names (fun b n hn => ?_) (t, [])
  obtain ⟨u, out⟩ := b
  dsimp only
  split
  · exact .refl u
  · refine ⟨rfl, rfl, rfl, rfl, rfl, fun o ho => ?_⟩
    rcases List.mem_append.1 ho with ho | ho
    · exact .inl ho
    · exact .inr (.inr (List.mem_singleton.1 ho ▸ hn))

/-- Every task declares the built-in outputs. -/
theorem hasOutput_of_builtin {d : Graph.TaskDef} {o : String} (h : isBuiltinOutput o = true) :
    d.hasOutput o = true := by
  simp [Graph.TaskDef.hasOutput, h]

/-- Emitting built-in outputs emits only declared ones. -/
theorem frame_emit_builtin {extra : List String} (t : TaskInstance) {names : List String}
    (hb : ∀ n ∈ names, isBuiltinOutput n = true) : Frame extra t (t.emit names).1 :=
  (frame_emit t names).declared fun o ho => .inr (hasOutput_of_builtin (hb o ho))

/-- The output a job message names is declared. -/
theorem hasOutput_of_outputForMessage {d : Graph.TaskDef} {msg name : String}
    (h : d.outputForMessage msg = some name) : d.hasOutput name = true := by
  unfold Graph.TaskDef.outputForMessage at h
  obtain ⟨⟨n, text⟩, hfind, rfl⟩ := Option.map_eq_some_iff.1 h
  have hmem := List.mem_of_find?_eq_some hfind
  simp only [Graph.TaskDef.hasOutput, Bool.or_eq_true, List.any_eq_true, beq_iff_eq]
  exact .inr ⟨_, hmem, rfl⟩

theorem frame_moveTo {extra : List String} {s : State} (h : t.moveTo s = .ok t') :
    Frame extra t t' := by
  unfold moveTo at h
  split at h
  · cases h; exact .refl t
  · split at h
    · cases h; exact .write
    · cases h

/-- A transition that moves the instance to a state and builds its result from the moved
instance keeps the frame, if building the result does. -/
theorem frame_of_moveTo_bind {extra : List String} {β : Type} {s : State} {f : TaskInstance → β}
    {r : β} (g : β → TaskInstance) (h : (t.moveTo s >>= fun u => pure (f u)) = .ok r)
    (hf : ∀ u, Frame extra u (g (f u))) : Frame extra t (g r) := by
  obtain ⟨u, hu, hr⟩ := Except.bind_eq_ok_iff.1 h
  cases Except.ok.inj hr
  exact (frame_moveTo hu).trans (hf u)

theorem frame_prepare {mode : String} (h : t.prepare mode = .ok t') : Frame [] t t' :=
  frame_of_moveTo_bind (fun u : TaskInstance => u) h fun _ => .write

-- The outputs a transition emits are checked to be built in once the transition is unfolded,
-- hence the `decide` after each `refine`.

theorem frame_submitted {jobId : String} {out : List String}
    (h : t.submitted jobId now = .ok (t', out)) : Frame [] t t' := by
  refine frame_of_moveTo_bind Prod.fst h fun _ =>
    (Frame.write).trans (frame_emit_builtin _ ?_)
  decide

theorem frame_started {out : List String} (h : t.started now = .ok (t', out)) : Frame [] t t' := by
  unfold started at h
  dsimp only at h
  -- a start that overtakes the submission first records it
  split at h
  · obtain ⟨⟨u, out₀⟩, hu, hr⟩ := Except.bind_eq_ok_iff.1 h
    refine (frame_submitted hu).trans (frame_of_moveTo_bind Prod.fst hr fun _ =>
      (Frame.write).trans (frame_emit_builtin _ ?_))
    decide
  · obtain ⟨⟨u, out₀⟩, hu, hr⟩ := Except.bind_eq_ok_iff.1 h
    cases Except.ok.inj hu
    refine frame_of_moveTo_bind Prod.fst hr fun _ =>
      (Frame.write).trans (frame_emit_builtin _ ?_)
    decide

theorem frame_succeeded {out : List String} (h : t.succeeded now = .ok (t', out)) :
    Frame [] t t' := by
  refine frame_of_moveTo_bind Prod.fst h fun _ =>
    (Frame.write).trans (frame_emit_builtin _ ?_)
  decide

theorem frame_failed {delays : List Int64} {out : List String} {retrying : Bool}
    (h : t.failed now delays = .ok (t', out, retrying)) : Frame [] t t' := by
  unfold failed at h
  dsimp only at h
  -- a retried and a final failure both move, set fields and emit
  split at h <;>
  refine frame_of_moveTo_bind Prod.fst h fun _ =>
    (Frame.write).trans (frame_emit_builtin _ ?_) <;>
  decide

theorem frame_submitFailed {delays : List Int64} {out : List String} {retrying : Bool}
    (h : t.submitFailed now delays = .ok (t', out, retrying)) : Frame [] t t' := by
  have hfinal : ∀ {r}, submitFailed.failHere now t = .ok r → Frame [] t r.1 := by
    intro r hr
    unfold submitFailed.failHere at hr
    dsimp only at hr
    refine frame_of_moveTo_bind Prod.fst hr fun _ =>
      (Frame.write).trans (frame_emit_builtin _ ?_)
    decide
  unfold submitFailed at h
  split at h
  · split at h
    · exact hfinal h
    · exact frame_of_moveTo_bind Prod.fst h fun _ => .write
  · exact hfinal h

end TaskInstance

end CycleSched
