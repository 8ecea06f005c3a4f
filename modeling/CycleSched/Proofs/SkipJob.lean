import CycleSched.Job.Mode
import CycleSched.Proofs.Checkpoint

/-!
# Skipped jobs

A skipped submission runs no job: the scheduler reports for it that the job was submitted and
started, sends the message of each custom output the skip settings ask for, and reports success,
or failure without retries when the settings ask for that (`TaskConfig.skipOutputs`). The
instance takes those reports as it takes a real job's.

A custom output travels as its message and is read back by `outputForMessage`, which trims the
message it receives but compares it with the declared messages as written. So the output comes
back only when its message is its own trim and no other output has that message, or that message
as its name (`outputForMessage_lookup`). Under those conditions a freshly prepared instance
takes every report, ends succeeded or failed, and has emitted submitted, started and then exactly
the skip outputs (`skipJob_completes`). A message with a blank at either end is lost on the way:
the job still succeeds, without the output it was sent for (`Proofs.padded_skip_output_lost`).
-/

namespace CycleSched

open CycleSched.Graph

namespace Graph.TaskDef

/-- No other output has the message of an output as its message or as its name. -/
def MessagesApart (d : TaskDef) : Prop :=
  ∀ p ∈ d.outputs, ∀ q ∈ d.outputs, q.2 = p.2 ∨ q.1 = p.2 → q.1 = p.1

instance : DecidablePred MessagesApart := fun d => by
  unfold MessagesApart
  infer_instance

/-- A declared output has a message: the first one declared for it. -/
theorem lookup_of_mem {d : TaskDef} {o : String} (ho : o ∈ d.outputs.map (·.1)) :
    ∃ m, d.outputs.lookup o = some m ∧ (o, m) ∈ d.outputs := by
  obtain ⟨p, hp, rfl⟩ := List.mem_map.1 ho
  have hsome : (d.outputs.lookup p.1).isSome := List.lookup_isSome_iff.2 ⟨p, hp, by simp⟩
  obtain ⟨m, hm⟩ := Option.isSome_iff_exists.1 hsome
  obtain ⟨l₁, l₂, hl, -⟩ := List.lookup_eq_some_iff.1 hm
  exact ⟨m, hm, hl ▸ List.mem_append_right _ List.mem_cons_self⟩

/-- The message of a declared output reads back as the output, when every message is its own
trim and kept apart from the other outputs. -/
theorem outputForMessage_lookup {d : TaskDef} (htrim : ∀ p ∈ d.outputs, Text.trimBlank p.2 = p.2)
    (hapart : d.MessagesApart) {o : String} (ho : o ∈ d.outputs.map (·.1)) :
    d.outputForMessage ((d.outputs.lookup o).getD "") = some o := by
  obtain ⟨m, hm, hmem⟩ := lookup_of_mem ho
  rw [hm, Option.getD_some, outputForMessage]
  dsimp only
  rw [htrim _ hmem]
  -- the output itself matches, so an output is found, and the one found is the output
  cases hf : d.outputs.find? (fun x => x.2 == m || x.1 == m) with
  | none =>
    have hno := List.find?_eq_none.1 hf (o, m) hmem
    simp at hno
  | some q =>
    have hq : q.2 = m ∨ q.1 = m := by simpa using List.find?_some hf
    exact congrArg some (hapart (o, m) hmem q (List.mem_of_find?_eq_some hf) hq)

end Graph.TaskDef

namespace TaskConfig

/-- The skip outputs are the custom ones, declared, not built in and each once when the task
declares each name once, then `succeeded` or `failed`. -/
theorem skipOutputs_split (c : TaskConfig) {d : TaskDef} (hnames : (d.outputs.map (·.1)).Nodup) :
    ∃ custom, c.skipOutputs d =
        custom ++ [if c.skip.outputs.contains "failed" then "failed" else "succeeded"] ∧
      custom.Nodup ∧ ∀ o ∈ custom, isBuiltinOutput o = false ∧ o ∈ d.outputs.map (·.1) := by
  refine ⟨_, rfl, ?_, fun o ho => ?_⟩
  · exact (List.mergeSort_perm _ _).nodup_iff.2 (hnames.filter _)
  · have hmem := (List.mergeSort_perm _ _).mem_iff.1 ho
    simp only [List.mem_filter, Bool.and_eq_true, Bool.not_eq_eq_eq_not, Bool.not_true] at hmem
    exact ⟨hmem.2.1, hmem.1⟩

end TaskConfig

namespace TaskInstance

/-- What a skipped job's report of one output does to its instance: success finishes it, failure
finishes it with no retry delays, and a custom output is sent as its message. -/
def skipReport (now : Instant) (t : TaskInstance) (o : String) : Except Failure TaskInstance :=
  if o == "succeeded" then (t.succeeded now).map (·.1)
  else if o == "failed" then (t.failed now []).map (·.1)
  else .ok (t.message ((t.task.outputs.lookup o).getD "")).1

/-- The reports of a skipped job to its instance: submitted and started, then one per output. -/
def skipJob (t : TaskInstance) (now : Instant) (outputs : List String) :
    Except Failure TaskInstance := do
  let t ← (t.submitted "skip" now).map (·.1)
  let t ← (t.started now).map (·.1)
  outputs.foldlM (skipReport now) t

variable {t : TaskInstance}

/-- Emitting names already emitted changes nothing. -/
theorem emit_of_emitted {names : List String} (h : ∀ n ∈ names, n ∈ t.emitted) :
    t.emit names = (t, []) := by
  unfold emit
  -- the fold keeps the instance and the empty list of new outputs at every name
  suffices ∀ l : List String, (∀ n ∈ l, n ∈ t.emitted) →
      l.foldl (fun (acc : TaskInstance × List String) n =>
        if acc.1.emitted.contains n then acc
        else ({ acc.1 with emitted := acc.1.emitted ++ [n] }, acc.2 ++ [n])) (t, []) = (t, []) from
    this names h
  intro l hl
  induction l with
  | nil => rfl
  | cons n l ih =>
    rw [List.foldl_cons, if_pos (List.contains_iff_mem.2 (hl n List.mem_cons_self))]
    exact ih fun m hm => hl m (List.mem_cons_of_mem n hm)

/-- Emitting names of which only the last is new appends the last. -/
theorem emit_append_new {names : List String} {o : String} (hold : ∀ n ∈ names, n ∈ t.emitted)
    (hnew : o ∉ t.emitted) :
    (t.emit (names ++ [o])).1 = { t with emitted := t.emitted ++ [o] } := by
  have hsplit : t.emit (names ++ [o]) = (t.emit names).1.emit [o] := by
    rw [emit_of_emitted hold]
    simp only [emit, List.foldl_append]
    rw [← emit, emit_of_emitted hold]
  rw [hsplit, emit_of_emitted hold]
  exact emit_singleton hnew

/-- A prepared instance with nothing emitted takes the reports that its job was submitted and
started. -/
theorem submitted_started (hs : t.state = .preparing) (he : t.emitted = []) (now : Instant) :
    ((t.submitted "skip" now).map (·.1) >>= fun u => (u.started now).map (·.1)) =
      .ok { t with state := .running, jobId := "skip", submittedAt := now, startedAt := now,
                   emitted := ["submitted", "started"] } := by
  cases t
  subst hs he
  rfl

/-- Each custom output whose message reads back is emitted by its report, in order. -/
theorem foldlM_skipReport_custom (now : Instant) {custom : List String} (u : TaskInstance)
    (hnd : (u.emitted ++ custom).Nodup)
    (hcustom : ∀ o ∈ custom, isBuiltinOutput o = false ∧
      u.task.outputForMessage ((u.task.outputs.lookup o).getD "") = some o) :
    custom.foldlM (skipReport now) u = .ok { u with emitted := u.emitted ++ custom } := by
  refine foldlM_append custom u hnd fun v hv o ho hnew => ?_
  obtain ⟨hb, hback⟩ := hcustom o ho
  -- a custom output is neither of the outputs that finish the job
  have hs : (o == "succeeded") = false := by
    rw [beq_eq_false_iff_ne]
    rintro rfl
    exact absurd hb (by decide)
  have hf : (o == "failed") = false := by
    rw [beq_eq_false_iff_ne]
    rintro rfl
    exact absurd hb (by decide)
  have hback' : v.task.outputForMessage ((v.task.outputs.lookup o).getD "") = some o := by
    rw [hv]
    exact hback
  rw [skipReport, if_neg (by rw [hs]; decide), if_neg (by rw [hf]; decide), message, hback']
  exact congrArg Except.ok (emit_singleton hnew)

/-- Success finishes a running instance that has emitted submitted and started. -/
theorem skipReport_succeeded (now : Instant) {v : TaskInstance} (hs : v.state = .running)
    (hold : "submitted" ∈ v.emitted ∧ "started" ∈ v.emitted) (hnew : "succeeded" ∉ v.emitted) :
    skipReport now v "succeeded" =
      .ok { v with state := .succeeded, finishedAt := now, forced := false,
                   emitted := v.emitted ++ ["succeeded"] } := by
  have hmove : v.moveTo .succeeded = .ok { v with state := .succeeded } :=
    moveTo_eq_ok.2 ⟨.inr (by rw [hs]; rfl), rfl⟩
  rw [skipReport, if_pos (beq_self_eq_true _), succeeded, hmove]
  show Except.ok ({ v with state := .succeeded, finishedAt := now, forced := false }.emit
    (["submitted", "started"] ++ ["succeeded"])).1 = _
  rw [emit_append_new (t := { v with state := .succeeded, finishedAt := now, forced := false })
    (by simpa using hold) hnew]

/-- Failure with no retry delays finishes a running instance that has emitted submitted and
started. -/
theorem skipReport_failed (now : Instant) {v : TaskInstance} (hs : v.state = .running)
    (hold : "submitted" ∈ v.emitted ∧ "started" ∈ v.emitted) (hnew : "failed" ∉ v.emitted) :
    skipReport now v "failed" =
      .ok { v with state := .failed, finishedAt := now, forced := false,
                   emitted := v.emitted ++ ["failed"] } := by
  have hmove : v.moveTo .failed = .ok { v with state := .failed } :=
    moveTo_eq_ok.2 ⟨.inr (by rw [hs]; rfl), rfl⟩
  rw [skipReport, if_neg (by decide), if_pos (beq_self_eq_true _), failed]
  split
  · -- without delays there is no retry, whatever the try number
    next d hd =>
    split at hd <;> simp at hd
  · rw [hmove]
    show Except.ok ({ v with state := .failed, finishedAt := now, forced := false }.emit
      (["submitted", "started"] ++ ["failed"])).1 = _
    rw [emit_append_new (t := { v with state := .failed, finishedAt := now, forced := false })
      (by simpa using hold) hnew]

/-- From a prepared instance with nothing emitted, a skipped job whose custom outputs are not
built in, each named once, and each read back from its message, emits submitted, started and its
outputs in order, and ends succeeded or failed as its last output says. -/
theorem skipJob_of_prepared (hs : t.state = .preparing) (he : t.emitted = []) (now : Instant)
    {custom : List String} (hnd : custom.Nodup)
    (hcustom : ∀ o ∈ custom, isBuiltinOutput o = false ∧
      t.task.outputForMessage ((t.task.outputs.lookup o).getD "") = some o)
    {final : String} (hfinal : final = "succeeded" ∨ final = "failed") :
    ∃ u, t.skipJob now (custom ++ [final]) = .ok u ∧ (u.state = .succeeded ∨ u.state = .failed) ∧
      u.emitted = ["submitted", "started"] ++ custom ++ [final] := by
  set u₂ : TaskInstance := { t with state := .running, jobId := "skip", submittedAt := now,
                                     startedAt := now, emitted := ["submitted", "started"] }
  -- no custom output is built in, so none is emitted before it is reported
  have hcb : ∀ o ∈ custom, o ∉ u₂.emitted ∧ o ≠ final := fun o ho => by
    have hb := (hcustom o ho).1
    refine ⟨fun hmem => absurd hb ?_, fun h => absurd hb ?_⟩
    · simp only [u₂, List.mem_cons, List.not_mem_nil, or_false] at hmem
      rcases hmem with rfl | rfl <;> decide
    · rcases hfinal with rfl | rfl <;> rw [h] <;> decide
  have hnd₂ : (u₂.emitted ++ custom).Nodup :=
    List.nodup_append.2 ⟨by simp [u₂], hnd, fun a ha b hb hab => (hcb b hb).1 (hab ▸ ha)⟩
  have hfold := foldlM_skipReport_custom now u₂ hnd₂ hcustom
  set u₃ : TaskInstance := { u₂ with emitted := u₂.emitted ++ custom }
  have hold : "submitted" ∈ u₃.emitted ∧ "started" ∈ u₃.emitted := by simp [u₃, u₂]
  have hnew : final ∉ u₃.emitted := by
    simp only [u₃, u₂, List.mem_append, List.mem_cons, List.not_mem_nil, or_false, not_or]
    refine ⟨⟨?_, ?_⟩, fun h => (hcb final h).2 rfl⟩ <;> rcases hfinal with rfl | rfl <;> decide
  rw [skipJob, ← bind_assoc, submitted_started hs he now, Except.ok_bind, List.foldlM_append,
    hfold, Except.ok_bind, List.foldlM_cons]
  rcases hfinal with rfl | rfl
  · rw [skipReport_succeeded now rfl hold hnew, Except.ok_bind, List.foldlM_nil]
    exact ⟨_, rfl, .inl rfl, rfl⟩
  · rw [skipReport_failed now rfl hold hnew, Except.ok_bind, List.foldlM_nil]
    exact ⟨_, rfl, .inr rfl, rfl⟩

/-- Skip mode completes a task as configured, when each custom output's message reads back as
the output: each is its own trim, and no other output has it as its message or its name. Then a
fresh instance, prepared, takes every report of its skipped job, ends succeeded or failed, and
has emitted submitted, started and exactly the skip outputs, in order; every custom one was
read back from the message sent for it. -/
theorem skipJob_completes {d : TaskDef} (hnames : (d.outputs.map (·.1)).Nodup)
    (htrim : ∀ p ∈ d.outputs, Text.trimBlank p.2 = p.2) (hapart : d.MessagesApart)
    (c : TaskConfig) (pt initial : Point) (flows : FlowSet) (now : Instant) :
    ∃ t, ((make d pt initial flows).prepare "skip" >>= fun t =>
        t.skipJob now (c.skipOutputs d)) = .ok t ∧
      (t.state = .succeeded ∨ t.state = .failed) ∧
      t.emitted = ["submitted", "started"] ++ c.skipOutputs d ∧
      ∀ o ∈ c.skipOutputs d, isBuiltinOutput o = false →
        d.outputForMessage ((d.outputs.lookup o).getD "") = some o := by
  obtain ⟨custom, hsk, hnd, hcustom⟩ := c.skipOutputs_split hnames
  have hback : ∀ o ∈ custom, isBuiltinOutput o = false ∧
      d.outputForMessage ((d.outputs.lookup o).getD "") = some o := fun o ho =>
    ⟨(hcustom o ho).1, d.outputForMessage_lookup htrim hapart (hcustom o ho).2⟩
  -- a fresh instance prepares, with nothing emitted
  have hprep : (make d pt initial flows).prepare "skip" =
      .ok { make d pt initial flows with state := .preparing, submitNum := 1, runMode := "skip" } :=
    rfl
  have hfinal : (if c.skip.outputs.contains "failed" then "failed" else "succeeded") = "succeeded" ∨
      (if c.skip.outputs.contains "failed" then "failed" else "succeeded") = "failed" := by
    split <;> simp
  obtain ⟨u, hu, hstate, hemitted⟩ := skipJob_of_prepared
    (t := { make d pt initial flows with state := .preparing, submitNum := 1, runMode := "skip" })
    rfl rfl now hnd hback hfinal
  refine ⟨u, by rw [hprep, Except.ok_bind, hsk, hu], hstate,
    by rw [hemitted, hsk, List.append_assoc], fun o ho hb => ?_⟩
  rw [hsk] at ho
  rcases List.mem_append.1 ho with ho | ho
  · exact (hback o ho).2
  · -- the last skip output is built in
    rw [List.mem_singleton] at ho
    split at ho <;> (rw [ho] at hb; exact absurd hb (by decide))

end TaskInstance

namespace Proofs

open TaskInstance

/-- A task with one custom output, required, whose message is written plainly. -/
def plainTask : TaskDef :=
  { name := "a", index := 0, outputs := [("x", "msg")], required := ["x", "succeeded"] }

theorem plain_skip_completes :
    (plainTask.outputs.map (·.1)).Nodup ∧
      (∀ p ∈ plainTask.outputs, Text.trimBlank p.2 = p.2) ∧ plainTask.MessagesApart ∧
      ∃ t, ((make plainTask ⟨.integer, 1⟩ ⟨.integer, 1⟩ (FlowSet.ofList [1])).prepare "skip" >>=
          fun t => t.skipJob ⟨0, 0⟩ (({} : TaskConfig).skipOutputs plainTask)) = .ok t ∧
        (t.state = .succeeded ∨ t.state = .failed) ∧
        t.emitted = ["submitted", "started"] ++ ({} : TaskConfig).skipOutputs plainTask ∧
        ∀ o ∈ ({} : TaskConfig).skipOutputs plainTask, isBuiltinOutput o = false →
          plainTask.outputForMessage ((plainTask.outputs.lookup o).getD "") = some o :=
  have hnames : (plainTask.outputs.map (·.1)).Nodup := by decide
  have htrim : ∀ p ∈ plainTask.outputs, Text.trimBlank p.2 = p.2 := by decide
  have hapart : plainTask.MessagesApart := by decide
  ⟨hnames, htrim, hapart,
    skipJob_completes hnames htrim hapart {} ⟨.integer, 1⟩ ⟨.integer, 1⟩ (FlowSet.ofList [1])
      ⟨0, 0⟩⟩

/-- The same task with blanks around its output's message. -/
def paddedTask : TaskDef :=
  { name := "a", index := 0, outputs := [("x", " msg ")], required := ["x", "succeeded"] }

/-- A skipped job sends the padded message as written; it does not read back as its output, so
the job succeeds without emitting the required output it was sent for. -/
theorem padded_skip_output_lost :
    ({} : TaskConfig).skipOutputs paddedTask = ["x", "succeeded"] ∧
      paddedTask.outputForMessage ((paddedTask.outputs.lookup "x").getD "") = none ∧
      ((make paddedTask ⟨.integer, 1⟩ ⟨.integer, 1⟩ (FlowSet.ofList [1])).prepare "skip" >>=
          fun t => t.skipJob ⟨0, 0⟩ (({} : TaskConfig).skipOutputs paddedTask)).map
        (fun t => (t.state, t.emitted)) =
        .ok (.succeeded, ["submitted", "started", "succeeded"]) := by
  have hsk : ({} : TaskConfig).skipOutputs paddedTask = ["x", "succeeded"] := by decide +kernel
  refine ⟨hsk, by decide, ?_⟩
  rw [hsk]
  rfl

end Proofs

end CycleSched
