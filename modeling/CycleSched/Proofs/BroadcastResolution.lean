import CycleSched.Proofs.SettingLeaves

/-!
# Broadcasts checked as a whole

A set checks each setting of its request alone, written into an empty tree (`checkSetting`);
resolving writes every broadcast that applies to a task over the task's own settings and checks
the tree that results as a whole (`Broadcasts.resolveIn`). The two agree because the reading of
setting trees into configurations goes leaf by leaf (`LeafwiseReading`), as strict YAML decoding
over the defaults does: a tree reads exactly when it keeps each key once and each of its leaves
reads alone, and then it holds at each path what the leaf there holds alone, and elsewhere the
defaults. With the check of a configuration asking something of each setting alone
(`TaskConfig.problems_eq_nil_iff`), "every leaf reads alone and passes" is then what a tree that
reads and passes has (`LeafwiseReading.leavesFine`) and all it needs
(`LeafwiseReading.reads_fine`), and each write of a checked broadcast keeps it
(`LeavesFine.setAt`).

So in every table that accepted sets, clears and expiries reach, every task whose own settings
read and pass the check resolves at every point; and a refused set or clear leaves a session's
broadcasts as they were (`broadcasts_checked_as_whole`). Reading the script alone over the
defaults is one reading that goes leaf by leaf (`readScript_leafwise`).
-/

namespace CycleSched

open CycleSched.Graph SettingTable

/-- What resolving broadcasts relies on in the reading of setting trees into task configurations,
as strict YAML decoding over the defaults does it: a tree reads exactly when it keeps each key
once and each of its leaves reads in a tree of its own; and the configuration of a tree that reads
holds, at every path one of its leaves meets, what that leaf alone gives there, and the defaults
at every other path. -/
structure LeafwiseReading (read : SettingTable → Except Failure TaskConfig) : Prop where
  ok_iff : ∀ t, (∃ c, read t = .ok c) ↔
    t.KeysOnce ∧ ∀ p v, t.LeafAt p v → ∃ c, read (single p v) = .ok c
  mem_view_iff : ∀ t c, read t = .ok c → ∀ o, o ∈ c.view ↔
    (∃ p v c', t.LeafAt p v ∧ Meet p o.1 ∧ read (single p v) = .ok c' ∧ o ∈ c'.view) ∨
      (o ∈ ({} : TaskConfig).view ∧ ∀ p v, t.LeafAt p v → ¬Meet p o.1)

namespace SettingTable

/-- Every leaf of a tree reads alone into a configuration that passes the check. -/
def LeavesFine (read : SettingTable → Except Failure TaskConfig) (t : SettingTable) : Prop :=
  ∀ p v, t.LeafAt p v → ∃ c, read (single p v) = .ok c ∧ c.problems = []

variable {read : SettingTable → Except Failure TaskConfig}

theorem LeavesFine.erase {t : SettingTable} (h : t.LeavesFine read) (k : String) :
    (t.erase k).LeavesFine read :=
  fun p v hp => h p v hp.of_erase

/-- Writing a leaf that reads alone and passes keeps every leaf doing so. -/
theorem LeavesFine.setAt {t : SettingTable} (h : t.LeavesFine read) {p : List String}
    {v : Setting} (hv : v.isLeaf = true)
    (hpv : ∃ c, read (single p v) = .ok c ∧ c.problems = []) : (t.setAt p v).LeavesFine read := by
  intro q w hq
  rcases leafAt_setAt hv hq with ⟨rfl, rfl⟩ | hq
  · exact hpv
  · exact h q w hq

end SettingTable

namespace LeafwiseReading

variable {read : SettingTable → Except Failure TaskConfig} (hr : LeafwiseReading read)
include hr

theorem keysOnce {t : SettingTable} {c : TaskConfig} (h : read t = .ok c) : t.KeysOnce :=
  ((hr.ok_iff t).1 ⟨c, h⟩).1

/-- A tree that reads into a configuration passing the check has every leaf read alone into one
passing it. -/
theorem leavesFine {t : SettingTable} {c : TaskConfig} (h : read t = .ok c)
    (hc : c.problems = []) : t.LeavesFine read := by
  intro p v hp
  obtain ⟨c', hc'⟩ := ((hr.ok_iff t).1 ⟨c, h⟩).2 p v hp
  refine ⟨c', hc', (TaskConfig.problems_eq_nil_iff c').2 fun o ho => ?_⟩
  rcases (hr.mem_view_iff _ c' hc' o).1 ho with ⟨p', v', c'', hp', hmeet, hc'', ho'⟩ | ⟨hdef, -⟩
  · -- the leaf's tree has that leaf alone, and the whole tree holds what it holds
    obtain ⟨rfl, rfl⟩ := leafAt_single hp.2 hp'
    obtain rfl : c'' = c' := Except.ok.inj (hc''.symm.trans hc')
    exact (TaskConfig.problems_eq_nil_iff c).1 hc o
      ((hr.mem_view_iff t c h o).2 (.inl ⟨_, _, _, hp, hmeet, hc', ho'⟩))
  · exact TaskConfig.default_settingFine o hdef

/-- A tree that keeps each key once and whose leaves read alone into configurations that pass
the check reads into one that passes it. -/
theorem reads_fine {t : SettingTable} (hk : t.KeysOnce) (hl : t.LeavesFine read) :
    ∃ c, read t = .ok c ∧ c.problems = [] := by
  obtain ⟨c, hc⟩ := (hr.ok_iff t).2 ⟨hk, fun p v hp => (hl p v hp).imp fun _ h => h.1⟩
  refine ⟨c, hc, (TaskConfig.problems_eq_nil_iff c).2 fun o ho => ?_⟩
  rcases (hr.mem_view_iff t c hc o).1 ho with ⟨p, v, c', hp, -, hc', ho'⟩ | ⟨hdef, -⟩
  · obtain ⟨c'', hc'', hfine⟩ := hl p v hp
    obtain rfl : c' = c'' := Except.ok.inj (hc'.symm.trans hc'')
    exact (TaskConfig.problems_eq_nil_iff c').1 hfine o ho'
  · exact TaskConfig.default_settingFine o hdef

end LeafwiseReading

namespace Broadcasts

variable {read : SettingTable → Except Failure TaskConfig}

/-- A setting that passes the check reads alone, at its path, into a configuration that passes
it. -/
theorem checked_single {path value : String} (h : checkSetting path value read = []) :
    ∃ c, read (single (path.splitOn ".") (Setting.ofValueText value)) = .ok c ∧
      c.problems = [] := by
  have hset := SettingTable.setPath_of_checked h []
  unfold checkSetting at h
  rw [hset] at h
  split at h
  · cases h
  · dsimp only at h
    split at h
    · cases h
    · next c hc => exact ⟨c, hc, h⟩

/-- Writing checked broadcasts keeps a tree keeping each key once with leaves that pass. -/
theorem foldl_writeAt_fine {ms : List (BroadcastEntry × Nat × Nat)}
    (h : ∀ m ∈ ms, checkSetting m.1.key m.1.value read = []) :
    ∀ {t : SettingTable}, t.KeysOnce → t.LeavesFine read →
      (ms.foldl writeAt t).KeysOnce ∧ (ms.foldl writeAt t).LeavesFine read := by
  induction ms with
  | nil => exact fun hk hl => ⟨hk, hl⟩
  | cons m ms ih =>
    intro t hk hl
    have hleaf := Setting.ofValueText_isLeaf m.1.value
    exact ih (fun m' hm' => h m' (List.mem_cons_of_mem _ hm')) (hk.setAt hleaf _)
      (hl.setAt hleaf (checked_single (h m List.mem_cons_self)))

/-- Checked broadcasts written over the settings of a task that read and pass the check give
settings that read and pass it. -/
theorem resolveIn_ok (hr : LeafwiseReading read) {d : TaskDef} {c : TaskConfig}
    (hd : read d.settings = .ok c) (hc : c.problems = []) {ms : List (BroadcastEntry × Nat × Nat)}
    (h : ∀ m ∈ ms, checkSetting m.1.key m.1.value read = []) :
    ∃ c', resolveIn d ms read = .ok c' := by
  -- the task's settings less `inherit` keep each key once and have leaves that pass
  have hk := (hr.keysOnce hd).erase "inherit"
  have hl := (hr.leavesFine hd hc).erase "inherit"
  obtain ⟨hk', hl'⟩ := foldl_writeAt_fine h hk hl
  obtain ⟨c', hc', hp'⟩ := hr.reads_fine hk' hl'
  refine ⟨c', ?_⟩
  rw [resolveIn, overlaid_eq h]
  simp [Except.mapError, hc', hp', bind, Except.bind, pure, Except.pure]

/-- In a table that accepted sets, clears and expiries reach, every task whose own settings read
and pass the check resolves at every point. -/
theorem resolve_ok (hr : LeafwiseReading read) {wf : Workflow} {b : Broadcasts}
    (hb : b.ReachableBy read wf) {d : TaskDef} {c : TaskConfig} (hd : read d.settings = .ok c)
    (hc : c.problems = []) (pt : Point) : ∃ c', b.resolve d pt read = .ok c' :=
  resolveIn_ok hr hd hc fun _ hm =>
    hb.sound.accepted _ (mem_applying ((List.mergeSort_perm _ _).subset hm)).1

end Broadcasts

namespace Session

/-- A refused broadcast set leaves the session as it was. -/
theorem perform_broadcastSet_refused {s : Session} {points scopes : List String}
    {settings : List (String × String)} {r : Refusal}
    (h : (s.perform (.broadcastSet points scopes settings)).2 = .error r) :
    (s.perform (.broadcastSet points scopes settings)).1 = s := by
  dsimp only [perform] at h ⊢
  cases hb : s.broadcasts.set s.wf s.now points scopes settings with
  | ok _ => rw [hb] at h; cases h
  | error _ => rfl

/-- A refused broadcast clear leaves the session as it was. -/
theorem perform_broadcastClear_refused {s : Session} {points scopes keys : List String}
    {r : Refusal} (h : (s.perform (.broadcastClear points scopes keys)).2 = .error r) :
    (s.perform (.broadcastClear points scopes keys)).1 = s := by
  dsimp only [perform] at h ⊢
  cases hb : s.broadcasts.clear s.wf s.now points scopes keys with
  | ok _ => rw [hb] at h; cases h
  | error _ => rfl

/-- A step that, refused, leaves any session as it was leaves, refused, a session's broadcasts as
they were at every clock. -/
theorem run_refused_broadcasts {st : Step}
    (hst : ∀ (s' : Session) (r : Refusal), (s'.perform st).2 = .error r → (s'.perform st).1 = s')
    {s : Session} {now : Option Int} {r : Refusal} (h : (s.run now st).2.result = .error r) :
    (s.run now st).1.broadcasts = s.broadcasts := by
  -- rewriting with the equation of each clock case avoids unfolding the clock arithmetic
  cases now <;>
  · rw [run] at h ⊢
    dsimp only at h ⊢
    rw [hst _ _ h]

end Session

/-! ## A reading of the script alone

The reading that gives a tree keeping each key once the text at `script`, and every other
setting its default, goes leaf by leaf: the leaf that meets `script`, if any, is all that decides
the script. -/

namespace TaskConfig

/-- A configuration that differs from the defaults in its script alone holds that script at
`script`, and the defaults elsewhere. -/
theorem mem_view_script {s : String} {o : List String × Held} :
    o ∈ ({ script := s } : TaskConfig).view ↔
      o = (["script"], .text s) ∨ (o ∈ ({} : TaskConfig).view ∧ o.1 ≠ ["script"]) := by
  obtain ⟨q, h⟩ := o
  by_cases hq : q = ["script"]
  · subst hq
    simp [view]
  · simp [view, hq]

/-- Two scripts that agree where a setting's path is `script` give the setting alike. -/
theorem mem_view_script_congr {a b : String} {o : List String × Held}
    (h : o.1 = ["script"] → a = b) :
    o ∈ ({ script := a } : TaskConfig).view ↔ o ∈ ({ script := b } : TaskConfig).view := by
  by_cases ho : o.1 = ["script"]
  · rw [h ho]
  · -- the defaults hold a script too, so the lemma is not for `simp`
    have hs : ∀ s, o ≠ (["script"], Held.text s) := fun _ he => ho (by rw [he])
    rw [mem_view_script (s := a), mem_view_script (s := b)]
    simp only [hs, false_or]

/-- The check asks nothing of the script. -/
theorem problems_script (s : String) : ({ script := s } : TaskConfig).problems = [] :=
  problems_default

end TaskConfig

namespace SettingTable

/-- The text at `script`, if a text is there, and else the empty text. -/
def scriptText (t : SettingTable) : String :=
  match t.find? ["script"] with
  | some (.leaf (.str s)) => s
  | _ => ""

open Classical in
/-- Reads a tree keeping each key once into the defaults with the tree's script. -/
noncomputable def readScript (t : SettingTable) : Except Failure TaskConfig :=
  if t.KeysOnce then .ok { script := t.scriptText } else .error (.plain "a key is given twice")

theorem readScript_eq_ok {t : SettingTable} {c : TaskConfig} :
    readScript t = .ok c ↔ t.KeysOnce ∧ c = { script := t.scriptText } := by
  unfold readScript
  split <;> simp_all [eq_comm]

theorem readScript_single {p : List String} {v : Setting} (hv : v.isLeaf = true) :
    readScript (single p v) = .ok { script := (single p v).scriptText } :=
  readScript_eq_ok.2 ⟨keysOnce_single hv p, rfl⟩

/-- A path that meets `script` starts with it. -/
theorem eq_script_of_meet {k : String} {r : List String} (h : Meet (k :: r) ["script"]) :
    k = "script" := by
  rcases h with h | h
  · exact (List.cons_prefix_cons.1 h).1
  · exact (List.cons_prefix_cons.1 h).1.symm

/-- A tree with something beneath `script` has no text there. -/
theorem scriptText_of_beneath {t : SettingTable} {k : String} {r : List String} {v : Setting}
    (h : t.find? ("script" :: k :: r) = some v) : t.scriptText = "" := by
  rw [find?_cons_cons] at h
  obtain ⟨sub, hsub, -⟩ := Option.bind_eq_some_iff.1 h
  have hget : t.find? ["script"] = some (.table sub) := get?_of_subtable? hsub
  rw [scriptText, hget]

/-- The leaf that meets `script` gives alone the script the tree gives. -/
theorem scriptText_single {t : SettingTable} {p : List String} {v : Setting} (hp : t.LeafAt p v)
    (hm : Meet p ["script"]) : (single p v).scriptText = t.scriptText := by
  match p, hp, hm with
  | [], hp, _ => cases hp.1
  | [k], hp, hm =>
    obtain rfl := eq_script_of_meet hm
    have hself : (single ["script"] v).find? ["script"] = some v :=
      find?_setAt_self v [] _ (List.cons_ne_nil _ _)
    rw [scriptText, scriptText, hself, hp.1]
  | k :: k' :: r, hp, hm =>
    obtain rfl := eq_script_of_meet hm
    have hself : (single ("script" :: k' :: r) v).find? ("script" :: k' :: r) = some v :=
      find?_setAt_self v [] _ (List.cons_ne_nil _ _)
    rw [scriptText_of_beneath hself, scriptText_of_beneath hp.1]

/-- A tree none of whose leaves meets `script` has no text there. -/
theorem scriptText_of_apart {t : SettingTable} (h : ∀ p v, t.LeafAt p v → ¬Meet p ["script"]) :
    t.scriptText = "" := by
  unfold scriptText
  split
  · next s hs => exact absurd (.inl (List.prefix_refl _)) (h _ _ ⟨hs, rfl⟩)
  · rfl

end SettingTable

open SettingTable in
/-- Reading the script alone goes leaf by leaf. -/
theorem readScript_leafwise : LeafwiseReading readScript where
  ok_iff t := by
    have hreads : ∀ t' : SettingTable, (∃ c, readScript t' = .ok c) ↔ t'.KeysOnce := fun t' =>
      ⟨fun ⟨_, h⟩ => (readScript_eq_ok.1 h).1, fun h => ⟨_, readScript_eq_ok.2 ⟨h, rfl⟩⟩⟩
    rw [hreads]
    exact ⟨fun h => ⟨h, fun p v hp => (hreads _).2 (keysOnce_single hp.2 p)⟩, And.left⟩
  mem_view_iff t c h o := by
    obtain ⟨-, rfl⟩ := readScript_eq_ok.1 h
    by_cases hm : ∃ p v, t.LeafAt p v ∧ Meet p o.1
    · -- a leaf meets the setting's path, and gives alone what the tree gives there
      obtain ⟨p, v, hp, hpo⟩ := hm
      have hagree : ∀ {p v}, t.LeafAt p v → Meet p o.1 →
          (o ∈ ({ script := (single p v).scriptText } : TaskConfig).view ↔
            o ∈ ({ script := t.scriptText } : TaskConfig).view) := fun hp hpo =>
        TaskConfig.mem_view_script_congr fun ho => scriptText_single hp (ho ▸ hpo)
      constructor
      · intro ho
        exact .inl ⟨p, v, _, hp, hpo, readScript_single hp.2, (hagree hp hpo).2 ho⟩
      · rintro (⟨p', v', c', hp', hpo', hc', ho'⟩ | ⟨-, hno⟩)
        · rw [readScript_single hp'.2] at hc'
          cases hc'
          exact (hagree hp' hpo').1 ho'
        · exact absurd hpo (hno p v hp)
    · -- no leaf meets the path, and the tree gives the default there
      have hno : ∀ p v, t.LeafAt p v → ¬Meet p o.1 := fun p v hp hpo => hm ⟨p, v, hp, hpo⟩
      have hdef : o ∈ ({ script := t.scriptText } : TaskConfig).view ↔
          o ∈ ({ script := "" } : TaskConfig).view :=
        TaskConfig.mem_view_script_congr fun ho =>
          scriptText_of_apart fun p v hp => ho ▸ hno p v hp
      rw [hdef]
      refine ⟨fun ho => .inr ⟨ho, hno⟩, ?_⟩
      rintro (⟨p, v, -, hp, hpo, -⟩ | ⟨ho, -⟩)
      · exact absurd hpo (hno p v hp)
      · exact ho

namespace Proofs

/-- Broadcasts are checked as a whole. A refused broadcast set or clear leaves a session's
broadcasts (their entries, counter and change log) as they were. And when setting trees are read
leaf by leaf, in every table that accepted sets, clears and expiries reach from an empty one,
every task whose own settings read and pass the check resolves at every point. -/
theorem broadcasts_checked_as_whole :
    (∀ (s : Session) (now : Option Int) (points scopes : List String)
        (settings : List (String × String)) (r : Refusal),
      (s.run now (.broadcastSet points scopes settings)).2.result = .error r →
        (s.run now (.broadcastSet points scopes settings)).1.broadcasts = s.broadcasts) ∧
    (∀ (s : Session) (now : Option Int) (points scopes keys : List String) (r : Refusal),
      (s.run now (.broadcastClear points scopes keys)).2.result = .error r →
        (s.run now (.broadcastClear points scopes keys)).1.broadcasts = s.broadcasts) ∧
    ∀ read : SettingTable → Except Failure TaskConfig, LeafwiseReading read →
      ∀ (wf : Workflow) (b : Broadcasts), b.ReachableBy read wf →
        ∀ (d : TaskDef) (c : TaskConfig), read d.settings = .ok c → c.problems = [] →
          ∀ pt : Point, ∃ c', b.resolve d pt read = .ok c' :=
  ⟨fun _ _ _ _ _ _ h =>
      Session.run_refused_broadcasts (fun _ _ => Session.perform_broadcastSet_refused) h,
    fun _ _ _ _ _ _ h =>
      Session.run_refused_broadcasts (fun _ _ => Session.perform_broadcastClear_refused) h,
    fun _ hr _ _ hb _ _ hd hc pt => Broadcasts.resolve_ok hr hb hd hc pt⟩

/-- Over the overlapping sets, with the script alone read: the three requests are accepted one
after another; a session holding the four broadcasts they leave refuses to set `inherit` and to
clear at a point that does not read, and keeps them; and task `a`, with a script of its own,
resolves at `1` under all four. -/
theorem overlapping_broadcasts_checked_as_whole :
    Broadcasts.setInTurn pairWorkflow Instant.zero SettingTable.readScript {} overlappingSets =
      .ok overlappingTable ∧
    ({ Session.make pairWorkflow with broadcasts := overlappingTable }.run none
      (.broadcastSet ["1"] ["a"] [("inherit", "b")])).1.broadcasts = overlappingTable ∧
    ({ Session.make pairWorkflow with broadcasts := overlappingTable }.run none
      (.broadcastClear ["x"] [] [])).1.broadcasts = overlappingTable ∧
    ∃ c, overlappingTable.resolve scriptedA ⟨.integer, 1⟩ SettingTable.readScript = .ok c := by
  have hsets := @setInTurn_overlappingSets SettingTable.readScript fun _ value =>
    ⟨_, SettingTable.readScript_single (Setting.ofValueText_isLeaf value),
      TaskConfig.problems_script _⟩
  obtain ⟨r, hset⟩ := Except.exists_error_of_isNone (by decide +kernel :
    ({ Session.make pairWorkflow with broadcasts := overlappingTable }.run none
      (.broadcastSet ["1"] ["a"] [("inherit", "b")])).2.result.toOption.isNone = true)
  obtain ⟨r', hclear⟩ := Except.exists_error_of_isNone (by decide +kernel :
    ({ Session.make pairWorkflow with broadcasts := overlappingTable }.run none
      (.broadcastClear ["x"] [] [])).2.result.toOption.isNone = true)
  have hown : SettingTable.readScript scriptedA.settings = .ok { script := "echo own" } :=
    SettingTable.readScript_single (p := ["script"]) (v := .leaf (.str "echo own")) rfl
  exact ⟨hsets, broadcasts_checked_as_whole.1 _ none _ _ _ r hset,
    broadcasts_checked_as_whole.2.1 _ none _ _ _ r' hclear,
    broadcasts_checked_as_whole.2.2 _ readScript_leafwise pairWorkflow _
      (Broadcasts.ReachableBy.empty.setInTurn hsets) scriptedA _ hown (TaskConfig.problems_script _)
      ⟨.integer, 1⟩⟩

end Proofs

end CycleSched
