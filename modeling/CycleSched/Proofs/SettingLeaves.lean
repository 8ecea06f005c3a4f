import CycleSched.Proofs.SettingWrites

/-!
# Settings leaf by leaf

A task configuration holds each of its settings under the path of keys that names it
(`TaskConfig.view`): every field, and every entry of its tables of texts. Its check asks something
of each of these settings alone and of nothing else (`TaskConfig.problems_eq_nil_iff`), which is
what lets a configuration read from many settings be checked through the settings one by one.

On the side of setting trees, a leaf is a setting other than a table keyed by texts that holds
entries, found at its path (`SettingTable.LeafAt`). Writing a leaf at a path leaves the tree's other
leaves, less those above or beneath the path (`leafAt_setAt`); the tree with one setting has that
setting as its only leaf (`leafAt_single`); and writing a leaf keeps every table keeping each key
once (`KeysOnce.setAt`).
-/

namespace CycleSched

/-- A setting as a task configuration holds it. -/
inductive Held where
  | text (s : String)
  | texts (items : List String)
  | flag (b : Bool)
  | number (x : Float)

namespace TaskConfig

/-- A configuration setting by setting: each field under the path of keys that names it, and each
entry of a table of texts under its key. -/
def view (c : TaskConfig) : List (List String × Held) :=
  [(["inherit"], .texts c.inherit), (["script"], .text c.script),
    (["platform"], .text c.platform), (["run_mode"], .text c.runMode),
    (["execution_retry_delays"], .texts c.executionRetryDelays),
    (["submission_retry_delays"], .texts c.submissionRetryDelays),
    (["execution_time_limit"], .text c.executionTimeLimit),
    (["simulation", "default_run_length"], .text c.simulation.defaultRunLength),
    (["simulation", "speedup_factor"], .number c.simulation.speedupFactor),
    (["simulation", "time_limit_buffer"], .text c.simulation.timeLimitBuffer),
    (["simulation", "fail_cycle_points"], .texts c.simulation.failCyclePoints),
    (["simulation", "fail_try_1_only"], .flag c.simulation.failFirstTryOnly),
    (["skip", "outputs"], .texts c.skip.outputs),
    (["skip", "disable_task_event_handlers"], .flag c.skip.disableHandlers),
    (["events", "handlers"], .texts c.events.handlers),
    (["events", "handler_events"], .texts c.events.handlerEvents)] ++
  c.environment.map (fun e => (["environment", e.1], .text e.2)) ++
  c.outputs.map (fun e => (["outputs", e.1], .text e.2))

end TaskConfig

/-- The paths of the settings that hold a wall-clock duration when they are set. -/
def limitPaths : List (List String) :=
  [["execution_time_limit"], ["simulation", "default_run_length"],
    ["simulation", "time_limit_buffer"]]

/-- The paths of the settings that list wall-clock durations. -/
def delayPaths : List (List String) := [["execution_retry_delays"], ["submission_retry_delays"]]

/-- What the check of a configuration asks of one setting it holds, by the path that names it: a
live or skipped run mode, durations that read, a speedup that is not negative, custom outputs
with a name of their own and a message, and skip outputs that do not both succeed and fail. -/
def settingFine (path : List String) : Held → Prop
  | .text s =>
    (path = ["run_mode"] → s = "live" ∨ s = "skip") ∧
    (path ∈ limitPaths → s = "" ∨ (Interval.parseDuration s).isOk) ∧
    ∀ name, path = ["outputs", name] →
      isBuiltinOutput name = false ∧ name ≠ "finished" ∧ Text.trimBlank s ≠ ""
  | .texts items =>
    (path ∈ delayPaths → ∀ d ∈ items, (Interval.parseDuration d).isOk) ∧
    (path = ["skip", "outputs"] → "succeeded" ∈ items → "failed" ∉ items)
  | .flag _ => True
  | .number x => path = ["simulation", "speedup_factor"] → ¬x < 0

namespace TaskConfig

theorem durationProblems_eq_nil (name : String) (texts : List String) :
    durationProblems name texts = [] ↔ ∀ d ∈ texts, (Interval.parseDuration d).isOk := by
  unfold durationProblems
  simp only [List.filterMap_eq_nil_iff]
  refine forall₂_congr fun d _ => ?_
  cases Interval.parseDuration d <;> simp [Except.isOk, Except.toBool]

/-- The check of a configuration asks something of each of its settings alone. -/
theorem problems_eq_nil_iff (c : TaskConfig) :
    c.problems = [] ↔ ∀ o ∈ c.view, settingFine o.1 o.2 := by
  simp only [view, List.forall_mem_cons, List.forall_mem_append, List.forall_mem_map]
  simp [problems, settingFine, limitPaths, delayPaths, durationProblems_eq_nil,
    or_iff_not_imp_left]
  -- both sides now ask the same, the view taking the speedup before the buffer and the skip
  -- outputs before the custom ones
  simp only [and_assoc]
  exact ⟨fun ⟨mode, exec, subm, limit, run, buffer, speed, outs, skip⟩ =>
      ⟨mode, exec, subm, limit, run, speed, buffer, skip, outs⟩,
    fun ⟨mode, exec, subm, limit, run, speed, buffer, skip, outs⟩ =>
      ⟨mode, exec, subm, limit, run, buffer, speed, outs, skip⟩⟩

/-- The defaults pass the check, setting by setting. -/
theorem default_settingFine : ∀ o ∈ ({} : TaskConfig).view, settingFine o.1 o.2 :=
  (problems_eq_nil_iff {}).1 problems_default

end TaskConfig

/-- A setting that is a leaf of a tree: anything but a table keyed by texts that holds entries. -/
def Setting.isLeaf : Setting → Bool
  | .table entries => entries.isEmpty
  | _ => true

/-- A text read as a setting is a leaf. -/
theorem Setting.ofValueText_isLeaf (value : String) : (ofValueText value).isLeaf = true := by
  unfold ofValueText
  dsimp only
  generalize Yaml.readDocument _ = r
  rcases r with _ | _ | doc
  · rfl
  · rfl
  · -- a table keyed by texts is read back as the text itself
    dsimp only
    generalize doc.decode false Yaml.readAny (.leaf .null) = r
    rcases r with _ | ((_ | _ | _ | _ | _ | _) | _ | _ | _) <;> rfl

namespace SettingTable

/-- The tree with one setting, at a path. -/
def single (path : List String) (v : Setting) : SettingTable := setAt [] path v

/-- A tree has a leaf at a path. -/
def LeafAt (t : SettingTable) (path : List String) (v : Setting) : Prop :=
  t.find? path = some v ∧ v.isLeaf = true

/-- Two paths meet when one of them lies on the way to the other. -/
def Meet (p q : List String) : Prop := p <+: q ∨ q <+: p

/-- Nothing is found beneath a leaf. -/
theorem find?_append_of_leaf {w : Setting} (hw : w.isLeaf = true) :
    ∀ {t : SettingTable} {q : List String}, t.find? q = some w →
      ∀ r, r ≠ [] → t.find? (q ++ r) = none
  | _, [], h, _, _ => by cases h
  | t, [k], h, k' :: r, _ => by
    change t.get? k = some w at h
    rw [List.singleton_append, find?_cons_cons]
    cases w with
    | table entries =>
      obtain rfl : entries = [] := List.isEmpty_iff.1 hw
      rw [subtable?_of_get? h, Option.bind_some, find?_empty]
    | leaf _ | list _ | keyed _ => simp [subtable?, h]
  | t, k :: k' :: rest, h, r, hr => by
    rw [find?_cons_cons] at h
    obtain ⟨s, hs, hfind⟩ := Option.bind_eq_some_iff.1 h
    rw [List.cons_append, List.cons_append, find?_cons_cons, hs, Option.bind_some,
      ← List.cons_append]
    exact find?_append_of_leaf hw hfind r hr

/-- Writing a leaf at a path leaves the tree's other leaves, less those above or beneath the
path. -/
theorem leafAt_setAt {t : SettingTable} {p q : List String} {v w : Setting}
    (hv : v.isLeaf = true) (h : (t.setAt p v).LeafAt q w) : (q = p ∧ w = v) ∨ t.LeafAt q w := by
  cases p with
  | nil => exact .inr h
  | cons k r =>
    have hself := find?_setAt_self v t (k :: r) (List.cons_ne_nil _ _)
    by_cases hpq : k :: r <+: q
    · -- at the path the write is found, and beneath it nothing
      obtain ⟨r', rfl⟩ := hpq
      cases r' with
      | nil =>
        have h₁ := h.1
        rw [List.append_nil, hself] at h₁
        exact .inl ⟨List.append_nil _, (Option.some.inj h₁).symm⟩
      | cons k' r' =>
        have hnone := find?_append_of_leaf hv hself (k' :: r') (List.cons_ne_nil _ _)
        rw [h.1] at hnone
        cases hnone
    by_cases hqp : q <+: k :: r
    · -- a leaf above the path would hide the write
      obtain ⟨r', hr'⟩ := hqp
      have hne : r' ≠ [] := by
        rintro rfl
        exact hpq (hr' ▸ (List.append_nil q).symm ▸ List.prefix_refl q)
      have hnone := find?_append_of_leaf h.2 h.1 r' hne
      rw [hr', hself] at hnone
      cases hnone
    · exact .inr ⟨(find?_setAt_apart v t (k :: r) q hpq hqp) ▸ h.1, h.2⟩

/-- The tree with one leaf has that leaf alone. -/
theorem leafAt_single {p q : List String} {v w : Setting} (hv : v.isLeaf = true)
    (h : (single p v).LeafAt q w) : q = p ∧ w = v := by
  rcases leafAt_setAt hv h with h | h
  · exact h
  · rw [LeafAt, find?_empty] at h
    cases h.1

/-- A tree with a key left out has no leaf the tree lacks. -/
theorem LeafAt.of_erase {t : SettingTable} {k : String} {q : List String} {w : Setting}
    (h : (t.erase k).LeafAt q w) : t.LeafAt q w :=
  ⟨find?_erase h.1, h.2⟩

theorem keysOnce_nil : KeysOnce [] :=
  ⟨List.nodup_nil, fun path sub h => by rw [find?_empty] at h; cases h⟩

/-- The keys of a table after a key is set: as before, with a new key last. -/
theorem keys_put (t : SettingTable) (k : String) (v : Setting) :
    (t.put k v).map (·.1) = if t.any (·.1 == k) then t.map (·.1) else t.map (·.1) ++ [k] := by
  unfold put
  split
  · rw [List.map_map]
    refine List.map_congr_left fun e _ => ?_
    by_cases he : e.1 = k <;> simp [he]
  · simp

/-- Setting a key to a setting whose tables keep each key once keeps a table doing so. -/
theorem KeysOnce.put {t : SettingTable} (ht : t.KeysOnce) (k : String) {v : Setting}
    (hv : ∀ sub, v = .table sub → KeysOnce sub) : (t.put k v).KeysOnce := by
  refine ⟨?_, fun path sub h => ?_⟩
  · rw [keys_put]
    split
    · exact ht.1
    · next hk =>
      refine ht.1.append (List.nodup_singleton k) ?_
      simp only [List.disjoint_singleton, List.mem_map]
      rintro ⟨e, he, rfl⟩
      exact hk (List.any_eq_true.2 ⟨e, he, beq_self_eq_true _⟩)
  · match path, h with
    | [k'], h =>
      change (t.put k v).get? k' = _ at h
      rw [get?_put] at h
      split at h
      · exact (hv sub (Option.some.inj h)).1
      · exact ht.2 [k'] sub h
    | k' :: k'' :: rest, h =>
      rw [find?_cons_cons] at h
      obtain ⟨s, hs, hfind⟩ := Option.bind_eq_some_iff.1 h
      have hget := get?_of_subtable? hs
      rw [get?_put] at hget
      split at hget
      · exact (hv s (Option.some.inj hget)).2 _ sub hfind
      · refine ht.2 (k' :: k'' :: rest) sub ?_
        rw [find?_cons_cons, subtable?_of_get? hget]
        exact hfind

/-- The only table a leaf can be is the empty one, which keeps each key once. -/
theorem keysOnce_of_isLeaf {v : Setting} (hv : v.isLeaf = true) (sub : SettingTable)
    (h : v = .table sub) : KeysOnce sub := by
  subst h
  obtain rfl : sub = [] := List.isEmpty_iff.1 hv
  exact keysOnce_nil

/-- Writing a leaf keeps every table keeping each key once. -/
theorem KeysOnce.setAt {v : Setting} (hv : v.isLeaf = true) :
    ∀ {t : SettingTable} (path : List String), t.KeysOnce → (t.setAt path v).KeysOnce
  | _, [], ht => ht
  | t, [k], ht => ht.put k (keysOnce_of_isLeaf hv)
  | t, k :: k' :: rest, ht => by
    have hsub : ((t.subtable? k).getD []).KeysOnce := by
      cases hk : t.subtable? k with
      | none => exact keysOnce_nil
      | some s => exact ht.sub hk
    exact ht.put k fun sub h => by
      cases h
      exact KeysOnce.setAt hv (k' :: rest) hsub

/-- The tree with one leaf keeps each key once. -/
theorem keysOnce_single {v : Setting} (hv : v.isLeaf = true) (p : List String) :
    (single p v).KeysOnce :=
  KeysOnce.setAt hv p keysOnce_nil

end SettingTable

end CycleSched
