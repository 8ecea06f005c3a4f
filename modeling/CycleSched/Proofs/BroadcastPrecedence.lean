import CycleSched.Proofs.BroadcastTable
import CycleSched.Proofs.SettingOverlay
import CycleSched.Proofs.Runs

/-!
# Which broadcast wins

A task's effective settings at a point are its own settings with the broadcasts that apply
written over them, the weakest first: all-points before point-specific, then by the rank of the
namespace pattern in the task's inheritance chain, then by sequence number (`WrittenBefore`).

In a reachable table no two entries share a sequence number, so this order is strict on the
applying broadcasts and there is exactly one way to list them in it. Resolving writes them in
that list (`resolve_eq_resolveIn`), whatever the order of the table's entries; and at the path of
a broadcast that comes after every other broadcast at, above or below that path, the written
settings hold that broadcast's value (`find?_overlaid_winner`).
-/

namespace CycleSched

open CycleSched.Graph

namespace Broadcasts

/-- One applying broadcast is written before another: it names every point where the other names
one, or else binds by a weaker namespace, or else is older. -/
def WrittenBefore (x y : BroadcastEntry × Nat × Nat) : Prop :=
  x.2.1 < y.2.1 ∨ x.2.1 = y.2.1 ∧ (x.2.2 < y.2.2 ∨ x.2.2 = y.2.2 ∧ x.1.seq < y.1.seq)

/-- Two setting paths meet when one of them is the other or lies beneath it. -/
def Meets (k k' : String) : Prop :=
  k.splitOn "." <+: k'.splitOn "." ∨ k'.splitOn "." <+: k.splitOn "."

theorem WrittenBefore.asymm {x y : BroadcastEntry × Nat × Nat} (h : WrittenBefore x y) :
    ¬WrittenBefore y x := by
  unfold WrittenBefore at *
  omega

theorem writtenNoLater_of_writtenBefore {x y : BroadcastEntry × Nat × Nat} (h : WrittenBefore x y) :
    writtenNoLater x y = true := by
  unfold WrittenBefore at h
  simp only [writtenNoLater, Bool.or_eq_true, Bool.and_eq_true, decide_eq_true_eq, beq_iff_eq]
  omega

theorem writtenBefore_of_writtenNoLater {x y : BroadcastEntry × Nat × Nat}
    (h : writtenNoLater x y = true) (hs : x.1.seq ≠ y.1.seq) : WrittenBefore x y := by
  simp only [writtenNoLater, Bool.or_eq_true, Bool.and_eq_true, decide_eq_true_eq, beq_iff_eq] at h
  unfold WrittenBefore
  omega

theorem writtenNoLater_antisymm {x y : BroadcastEntry × Nat × Nat} (h : writtenNoLater x y = true)
    (h' : writtenNoLater y x = true) : x.2 = y.2 ∧ x.1.seq = y.1.seq := by
  simp only [writtenNoLater, Bool.or_eq_true, Bool.and_eq_true, decide_eq_true_eq,
    beq_iff_eq] at h h'
  refine ⟨Prod.ext ?_ ?_, ?_⟩ <;> omega

/-! ## The applying broadcasts -/

variable {b : Broadcasts} {d : TaskDef} {pt : Point} {read : SettingTable → Except Failure TaskConfig}

/-- An applying broadcast is an entry of the table, listed with whether it names the point and
with the rank of its namespace pattern. -/
theorem mem_applying {m : BroadcastEntry × Nat × Nat} (h : m ∈ b.applying d pt) :
    m.1 ∈ b.entries ∧ m.2.1 = (if m.1.point == allPoints then 0 else 1) ∧
      rank d m.1.scope = some m.2.2 := by
  unfold applying at h
  obtain ⟨e, he, hm⟩ := List.mem_filterMap.1 h
  split at hm
  · cases hm
  · obtain ⟨r, hr, rfl⟩ := Option.map_eq_some_iff.1 hm
    exact ⟨he, rfl, hr⟩

/-- Keeping some elements of a list, each as it is, keeps a part of the list. -/
theorem filterMap_sublist_of_self {α : Type} {f : α → Option α}
    (hf : ∀ a a', f a = some a' → a' = a) :
    ∀ l : List α, (l.filterMap f).Sublist l
  | [] => List.Sublist.slnil
  | a :: l => by
    rw [List.filterMap_cons]
    split
    · exact (filterMap_sublist_of_self hf l).cons a
    · next a' ha => exact hf a a' ha ▸ (filterMap_sublist_of_self hf l).cons_cons a

/-- The entries of the applying broadcasts are a part of the table's entries. -/
theorem applying_fst_sublist (b : Broadcasts) (d : TaskDef) (pt : Point) :
    ((b.applying d pt).map (·.1)).Sublist b.entries := by
  unfold applying
  rw [List.map_filterMap]
  refine filterMap_sublist_of_self (fun e e' h => ?_) _
  split at h
  · cases h
  · obtain ⟨m, hm, rfl⟩ := Option.map_eq_some_iff.1 h
    obtain ⟨r, -, rfl⟩ := Option.map_eq_some_iff.1 hm
    rfl

/-- Distinct applying broadcasts have distinct sequence numbers, when the table's entries do. -/
theorem applying_seqs_nodup (hs : (b.entries.map (·.seq)).Nodup) :
    ((b.applying d pt).map (·.1.seq)).Nodup := by
  have := hs.sublist ((applying_fst_sublist b d pt).map (·.seq))
  rw [List.map_map] at this
  exact this

/-- An applying broadcast is fixed by its sequence number, when the table's entries are. -/
theorem eq_of_seq_eq (hs : (b.entries.map (·.seq)).Nodup) {m m' : BroadcastEntry × Nat × Nat}
    (hm : m ∈ b.applying d pt) (hm' : m' ∈ b.applying d pt) (h : m.1.seq = m'.1.seq) : m = m' := by
  obtain ⟨he, hs₁, hr⟩ := mem_applying hm
  obtain ⟨he', hs₁', hr'⟩ := mem_applying hm'
  have h1 : m.1 = m'.1 := List.inj_on_of_nodup_map hs he he' h
  have h2 : m.2.2 = m'.2.2 := Option.some.inj (hr.symm.trans (h1 ▸ hr'))
  exact Prod.ext h1 (Prod.ext (by rw [hs₁, hs₁', h1]) h2)

/-! ## The order they are written in -/

/-- Sorting lists the applying broadcasts with none written after one it comes before. -/
theorem pairwise_mergeSort_applying (b : Broadcasts) (d : TaskDef) (pt : Point) :
    ((b.applying d pt).mergeSort writtenNoLater).Pairwise (writtenNoLater · · = true) := by
  refine List.pairwise_mergeSort (fun x y z hxy hyz => ?_) (fun x y => ?_) _
  · simp only [writtenNoLater, Bool.or_eq_true, Bool.and_eq_true, decide_eq_true_eq,
      beq_iff_eq] at hxy hyz ⊢
    omega
  · simp only [writtenNoLater, Bool.or_eq_true, Bool.and_eq_true, decide_eq_true_eq, beq_iff_eq]
    omega

/-- With distinct sequence numbers, the sorted list is in strictly ascending precedence. -/
theorem mergeSort_applying_ascending (hs : (b.entries.map (·.seq)).Nodup) :
    ((b.applying d pt).mergeSort writtenNoLater).Pairwise WrittenBefore := by
  have hperm := List.mergeSort_perm (b.applying d pt) writtenNoLater
  have hn : (((b.applying d pt).mergeSort writtenNoLater).map (·.1.seq)).Nodup :=
    (hperm.map (·.1.seq)).nodup_iff.2 (applying_seqs_nodup hs)
  have hne : ((b.applying d pt).mergeSort writtenNoLater).Pairwise (·.1.seq ≠ ·.1.seq) :=
    List.pairwise_map.1 hn
  exact ((pairwise_mergeSort_applying b d pt).and hne).imp fun h =>
    writtenBefore_of_writtenNoLater h.1 h.2

/-- There is one list of the applying broadcasts in strictly ascending precedence: the sorted
one. -/
theorem eq_mergeSort_of_ascending (hs : (b.entries.map (·.seq)).Nodup)
    {ms : List (BroadcastEntry × Nat × Nat)} (hp : ms.Perm (b.applying d pt))
    (ha : ms.Pairwise WrittenBefore) : ms = (b.applying d pt).mergeSort writtenNoLater := by
  have hperm := List.mergeSort_perm (b.applying d pt) writtenNoLater
  have hle : ms.Pairwise (writtenNoLater · · = true) :=
    ha.imp writtenNoLater_of_writtenBefore
  refine List.Perm.eq_of_pairwise (fun x y hx hy hxy hyx => ?_) hle
    (pairwise_mergeSort_applying b d pt) (hp.trans hperm.symm)
  exact eq_of_seq_eq hs (hp.subset hx) (hperm.subset hy) (writtenNoLater_antisymm hxy hyx).2

/-- Resolving writes the applying broadcasts in strictly ascending precedence. -/
theorem resolve_eq_resolveIn (hs : (b.entries.map (·.seq)).Nodup)
    {ms : List (BroadcastEntry × Nat × Nat)} (hp : ms.Perm (b.applying d pt))
    (ha : ms.Pairwise WrittenBefore) : b.resolve d pt read = resolveIn d ms read := by
  rw [resolve, eq_mergeSort_of_ascending hs hp ha]

/-- Resolving does not depend on the order the table keeps its entries in. -/
theorem resolve_perm (hs : (b.entries.map (·.seq)).Nodup) {l : List BroadcastEntry}
    (hl : l.Perm b.entries) :
    ({ b with entries := l } : Broadcasts).resolve d pt read = b.resolve d pt read := by
  have hs' : (l.map (·.seq)).Nodup := (hl.map _).nodup_iff.2 hs
  have hp : (({ b with entries := l } : Broadcasts).applying d pt).Perm (b.applying d pt) :=
    hl.filterMap _
  rw [resolve_eq_resolveIn hs ((List.mergeSort_perm _ _).trans hp)
    (mergeSort_applying_ascending (b := { b with entries := l }) hs'), resolve]

/-! ## The written settings -/

end Broadcasts

theorem String.splitOnAux_ne_nil (s sep : String) (b i j : String.Pos.Raw) (r : List String) :
    String.splitOnAux s sep b i j r ≠ [] := by
  fun_induction String.splitOnAux s sep b i j r <;> simp_all

/-- Splitting a text gives at least one part. -/
theorem String.splitOn_ne_nil (s sep : String) : s.splitOn sep ≠ [] := by
  unfold String.splitOn
  split
  · simp
  · exact String.splitOnAux_ne_nil _ _ _ _ _ _

namespace SettingTable

/-- A checked setting path has no empty part, so it can be set in any table. -/
theorem setPath_of_checked {path value : String}
    {read : SettingTable → Except Failure TaskConfig} (h : checkSetting path value read = [])
    (t : SettingTable) :
    t.setPath path value = .ok (t.setAt (path.splitOn ".") (Setting.ofValueText value)) := by
  have hkeys : (path.splitOn ".").any (· == "") = false := by
    unfold checkSetting at h
    split at h
    · cases h
    · split at h
      · cases h
      · next t' ht =>
        unfold setPath at ht
        dsimp only at ht
        split at ht
        · cases ht
        · next hk => exact Bool.eq_false_iff.2 hk
  unfold setPath
  dsimp only
  rw [if_neg (by rw [hkeys]; exact Bool.false_ne_true)]

/-- Setting a path and reading it back gives the value set. -/
theorem find?_setAt_self (v : Setting) :
    ∀ (t : SettingTable) (path : List String), path ≠ [] → (t.setAt path v).find? path = some v
  | _, [], h => absurd rfl h
  | t, [k], _ => by
    show (t.put k v).get? k = some v
    rw [get?_put, if_pos rfl]
  | t, k :: k' :: rest, _ => by
    have hset : t.setAt (k :: k' :: rest) v =
        t.put k (.table (((t.subtable? k).getD []).setAt (k' :: rest) v)) := rfl
    rw [hset, find?_cons_cons, subtable?_of_get? (by rw [get?_put, if_pos rfl]), Option.bind_some]
    exact find?_setAt_self v _ (k' :: rest) (List.cons_ne_nil _ _)

/-- Setting a path leaves every path alone that neither lies beneath it nor above it. -/
theorem find?_setAt_apart (v : Setting) :
    ∀ (t : SettingTable) (p q : List String), ¬p <+: q → ¬q <+: p →
      (t.setAt p v).find? q = t.find? q
  | _, [], _, h, _ => absurd (List.nil_prefix) h
  | _, _ :: _, [], _, h' => absurd (List.nil_prefix) h'
  | t, k :: pr, k' :: qr, h, h' => by
    by_cases hk : k' = k
    · subst hk
      -- the same first key: the paths part further down, in the table under that key
      cases pr with
      | nil => exact absurd (List.cons_prefix_cons.2 ⟨rfl, List.nil_prefix⟩) h
      | cons k₂ pr =>
        cases qr with
        | nil => exact absurd (List.cons_prefix_cons.2 ⟨rfl, List.nil_prefix⟩) h'
        | cons k₃ qr =>
          have hset : t.setAt (k' :: k₂ :: pr) v =
              t.put k' (.table (((t.subtable? k').getD []).setAt (k₂ :: pr) v)) := rfl
          rw [hset, find?_cons_cons, find?_cons_cons,
            subtable?_of_get? (by rw [get?_put, if_pos rfl]), Option.bind_some,
            find?_setAt_apart v _ (k₂ :: pr) (k₃ :: qr)
              (fun hp => h (List.cons_prefix_cons.2 ⟨rfl, hp⟩))
              (fun hp => h' (List.cons_prefix_cons.2 ⟨rfl, hp⟩))]
          cases t.subtable? k' <;> simp [find?_empty]
    · -- another first key: the write does not touch the table under it
      have hget : (t.setAt (k :: pr) v).get? k' = t.get? k' := by
        cases pr with
        | nil => exact (get?_put t k k' v).trans (if_neg hk)
        | cons k₂ pr => exact (get?_put t k k' _).trans (if_neg hk)
      cases qr with
      | nil => exact hget
      | cons k₃ qr => rw [find?_cons_cons, find?_cons_cons, subtable?_congr hget]

end SettingTable

namespace Broadcasts

variable {d : TaskDef}

/-- Writes a broadcast's value at its setting path. -/
def writeAt (t : SettingTable) (m : BroadcastEntry × Nat × Nat) : SettingTable :=
  t.setAt (m.1.key.splitOn ".") (Setting.ofValueText m.1.value)

/-- Broadcasts whose settings passed the check are written one after another. -/
theorem overlaid_eq {ms : List (BroadcastEntry × Nat × Nat)}
    {read : SettingTable → Except Failure TaskConfig}
    (h : ∀ m ∈ ms, checkSetting m.1.key m.1.value read = []) :
    overlaid d ms = .ok (ms.foldl writeAt (d.settings.erase "inherit")) := by
  unfold overlaid
  generalize d.settings.erase "inherit" = t
  induction ms generalizing t with
  | nil => rfl
  | cons m ms ih =>
    rw [List.foldlM_cons, SettingTable.setPath_of_checked (h m List.mem_cons_self)]
    exact ih (fun m' hm' => h m' (List.mem_cons_of_mem _ hm')) _

/-- Writes at paths apart from a path leave what is found there. -/
theorem find?_foldl_writeAt_apart {path : List String} :
    ∀ {ms : List (BroadcastEntry × Nat × Nat)} (t : SettingTable),
      (∀ m ∈ ms, ¬m.1.key.splitOn "." <+: path ∧ ¬path <+: m.1.key.splitOn ".") →
      (ms.foldl writeAt t).find? path = t.find? path
  | [], _, _ => rfl
  | m :: ms, t, h => by
    rw [List.foldl_cons,
      find?_foldl_writeAt_apart _ fun m' hm' => h m' (List.mem_cons_of_mem _ hm')]
    exact SettingTable.find?_setAt_apart _ _ _ _ (h m List.mem_cons_self).1
      (h m List.mem_cons_self).2

/-- Written in strictly ascending precedence, a broadcast that comes after every other broadcast
at, above or below its path leaves its value at that path. -/
theorem find?_overlaid_winner {ms : List (BroadcastEntry × Nat × Nat)}
    (ha : ms.Pairwise WrittenBefore) {m : BroadcastEntry × Nat × Nat} (hm : m ∈ ms)
    (hwin : ∀ m' ∈ ms, m' ≠ m → Meets m'.1.key m.1.key → WrittenBefore m' m) (t : SettingTable) :
    (ms.foldl writeAt t).find? (m.1.key.splitOn ".") = some (Setting.ofValueText m.1.value) := by
  obtain ⟨pre, post, rfl⟩ := List.append_of_mem hm
  have hafter : ∀ m' ∈ post, WrittenBefore m m' := by
    intro m' hm'
    have := (List.pairwise_append.1 ha).2.1
    exact (List.pairwise_cons.1 this).1 m' hm'
  rw [List.foldl_append, List.foldl_cons, find?_foldl_writeAt_apart]
  · exact SettingTable.find?_setAt_self _ _ _ (String.splitOn_ne_nil _ _)
  · -- a later broadcast meeting the path would have to come before it
    intro m' hm'
    have hne : m' ≠ m := fun h => (hafter m' hm').asymm (h ▸ hafter m' hm')
    have hnot : ¬Meets m'.1.key m.1.key := fun hmeet =>
      (hafter m' hm').asymm
        (hwin m' (List.mem_append_right _ (List.mem_cons_of_mem _ hm')) hne hmeet)
    exact ⟨fun h => hnot (.inl h), fun h => hnot (.inr h)⟩

end Broadcasts

namespace TaskConfig

/-- The defaults pass the check. -/
theorem problems_default : ({} : TaskConfig).problems = [] := by
  decide +kernel

end TaskConfig

namespace Proofs

open Broadcasts

/-- A reading that gives every tree the defaults. -/
def readDefaults : SettingTable → Except Failure TaskConfig := fun _ => .ok {}

/-- Task `a` of the pair, with a script of its own. -/
def scriptedA : TaskDef :=
  { implicitTask "a" 0 onlyFirst [] with settings := [("script", .leaf (.str "echo own"))] }

/-- Broadcasts to the pair that overlap on task `a` at point `1`: a script to every task at every
point; another script and a time limit to `a` at `1`; a platform to every task at `1`. -/
def overlappingSets : List (List String × List String × List (String × String)) :=
  [([], [], [("script", "echo all")]),
   (["1"], ["a"], [("script", "echo one"), ("execution_time_limit", "PT1M")]),
   (["1"], ["root"], [("platform", "remote")])]

/-- The table the overlapping sets leave at instant zero: four entries, numbered in the order they
were written, two of them at `script`, and the change log of the four writes. -/
def overlappingTable : Broadcasts :=
  { entries := [⟨"*", "root", "script", "echo all", 1⟩, ⟨"1", "a", "script", "echo one", 2⟩,
      ⟨"1", "a", "execution_time_limit", "PT1M", 3⟩, ⟨"1", "root", "platform", "remote", 4⟩],
    seq := 4,
    changes := [⟨Instant.zero, true, "*", "root", "script", "echo all"⟩,
      ⟨Instant.zero, true, "1", "a", "script", "echo one"⟩,
      ⟨Instant.zero, true, "1", "a", "execution_time_limit", "PT1M"⟩,
      ⟨Instant.zero, true, "1", "root", "platform", "remote"⟩] }

/-- Under any reading in which a tree holding one setting reads into a configuration that passes
the check, the overlapping sets are accepted one after another and leave `overlappingTable`. -/
theorem setInTurn_overlappingSets {read : SettingTable → Except Failure TaskConfig}
    (hread : ∀ keys value, ∃ c,
      read (SettingTable.setAt [] keys (Setting.ofValueText value)) = .ok c ∧ c.problems = []) :
    setInTurn pairWorkflow Instant.zero read {} overlappingSets = .ok overlappingTable := by
  -- the keys are split a character at a time
  have hscript : "script".splitOn "." = ["script"] := by
    rw [String.splitOn, if_neg (by decide)]
    repeat (rw [String.splitOnAux.eq_1]; simp +decide only [↓reduceIte])
  have hlimit : "execution_time_limit".splitOn "." = ["execution_time_limit"] := by
    rw [String.splitOn, if_neg (by decide)]
    repeat (rw [String.splitOnAux.eq_1]; simp +decide only [↓reduceIte])
  have hplatform : "platform".splitOn "." = ["platform"] := by
    rw [String.splitOn, if_neg (by decide)]
    repeat (rw [String.splitOnAux.eq_1]; simp +decide only [↓reduceIte])
  have hchecked : ∀ k ∈ ["script", "execution_time_limit", "platform"], ∀ v,
      checkSetting k v read = [] := by
    intro k hk v
    obtain ⟨c, hc, hcp⟩ := hread (k.splitOn ".") v
    simp only [List.mem_cons, List.not_mem_nil, or_false] at hk
    rcases hk with rfl | rfl | rfl
    · exact checkSetting_eq_nil (by decide +kernel) (by rw [hscript]; decide) hc hcp
    · exact checkSetting_eq_nil (by decide +kernel) (by rw [hlimit]; decide) hc hcp
    · exact checkSetting_eq_nil (by decide +kernel) (by rw [hplatform]; decide) hc hcp
  have hone : canonicalPoint pairWorkflow "1" = .ok "1" :=
    Except.eq_ok_of_toOption (by decide +kernel)
  have hall : canonicalPoint pairWorkflow allPoints = .ok allPoints := rfl
  have ha : knownScope pairWorkflow "a" = true := by decide +kernel
  have hroot : knownScope pairWorkflow "root" = true := by decide +kernel
  have hw1 : writesFor pairWorkflow [] [] [("script", "echo all")] read =
      .ok [⟨allPoints, rootNamespace, "script", "echo all"⟩] :=
    writesFor_eq_ok (by simpa using hall) (fun ns hns => by simp at hns; subst hns; exact hroot)
      (by simp) (by simpa using hchecked "script" (by simp) "echo all")
  have hw2 : writesFor pairWorkflow ["1"] ["a"] [("script", "echo one"), ("execution_time_limit", "PT1M")]
      read = .ok [⟨"1", "a", "script", "echo one"⟩, ⟨"1", "a", "execution_time_limit", "PT1M"⟩] :=
    writesFor_eq_ok (by simpa using hone) (by simpa using ha) (by simp)
      (by simpa using ⟨hchecked "script" (by simp) "echo one",
        hchecked "execution_time_limit" (by simp) "PT1M"⟩)
  have hw3 : writesFor pairWorkflow ["1"] ["root"] [("platform", "remote")] read =
      .ok [⟨"1", "root", "platform", "remote"⟩] :=
    writesFor_eq_ok (by simpa using hone) (by simpa using hroot) (by simp)
      (by simpa using hchecked "platform" (by simp) "remote")
  simp only [overlappingSets, setInTurn, set_of_writesFor hw1, set_of_writesFor hw2,
    set_of_writesFor hw3, Except.bind]
  rfl

end Proofs

namespace Broadcasts

/-- Broadcast resolution follows its precedence, for any reading of setting trees that sets check
with (the YAML one of `Reachable` tables among them). In a reachable table the broadcasts that apply
to a task at a point can be listed in strictly ascending precedence; resolving is writing them in
any such list over the task's own settings and reading the result as a checked configuration,
and in the written settings each broadcast that comes after every other one at, above or below its
path holds that path. So resolving does not depend on the order the table keeps its entries in. -/
theorem resolve_by_precedence {read : SettingTable → Except Failure TaskConfig} {wf : Workflow}
    {b : Broadcasts} (hb : b.ReachableBy read wf) (d : TaskDef) (pt : Point) :
    (∃ ms : List (BroadcastEntry × Nat × Nat), ms.Perm (b.applying d pt) ∧
      ms.Pairwise WrittenBefore) ∧
    (∀ ms : List (BroadcastEntry × Nat × Nat), ms.Perm (b.applying d pt) →
      ms.Pairwise WrittenBefore → b.resolve d pt read = resolveIn d ms read ∧
      ∃ tree, overlaid d ms = .ok tree ∧
        ∀ m ∈ ms, (∀ m' ∈ ms, m' ≠ m → Meets m'.1.key m.1.key → WrittenBefore m' m) →
          tree.find? (m.1.key.splitOn ".") = some (Setting.ofValueText m.1.value)) ∧
    ∀ l : List BroadcastEntry, l.Perm b.entries →
      ({ b with entries := l } : Broadcasts).resolve d pt read = b.resolve d pt read := by
  have hs := hb.sound
  refine ⟨⟨_, List.mergeSort_perm _ _, mergeSort_applying_ascending hs.seqs_nodup⟩,
    fun ms hp ha => ⟨resolve_eq_resolveIn hs.seqs_nodup hp ha, ?_⟩,
    fun l hl => resolve_perm hs.seqs_nodup hl⟩
  have hchecked : ∀ m ∈ ms, checkSetting m.1.key m.1.value read = [] := fun m hm =>
    hs.accepted _ (mem_applying (hp.subset hm)).1
  exact ⟨_, overlaid_eq hchecked, fun m hm hwin => find?_overlaid_winner ha hm hwin _⟩

/-- Over the overlapping sets, read so that every tree gives the defaults: the three requests are
accepted one after another, and the four broadcasts they leave all apply to `a` at `1`, two of
them at `script`; resolving follows precedence over them. -/
theorem overlapping_sets_by_precedence :
    setInTurn Proofs.pairWorkflow Instant.zero Proofs.readDefaults {} Proofs.overlappingSets =
      .ok Proofs.overlappingTable ∧
    (Proofs.overlappingTable.applying Proofs.scriptedA ⟨.integer, 1⟩).length = 4 ∧
    (∃ ms : List (BroadcastEntry × Nat × Nat),
      ms.Perm (Proofs.overlappingTable.applying Proofs.scriptedA ⟨.integer, 1⟩) ∧
      ms.Pairwise WrittenBefore) ∧
    (∀ ms : List (BroadcastEntry × Nat × Nat),
      ms.Perm (Proofs.overlappingTable.applying Proofs.scriptedA ⟨.integer, 1⟩) →
      ms.Pairwise WrittenBefore →
      Proofs.overlappingTable.resolve Proofs.scriptedA ⟨.integer, 1⟩ Proofs.readDefaults =
        resolveIn Proofs.scriptedA ms Proofs.readDefaults ∧
      ∃ tree, overlaid Proofs.scriptedA ms = .ok tree ∧
        ∀ m ∈ ms, (∀ m' ∈ ms, m' ≠ m → Meets m'.1.key m.1.key → WrittenBefore m' m) →
          tree.find? (m.1.key.splitOn ".") = some (Setting.ofValueText m.1.value)) ∧
    ∀ l : List BroadcastEntry, l.Perm Proofs.overlappingTable.entries →
      ({ Proofs.overlappingTable with entries := l } : Broadcasts).resolve Proofs.scriptedA
          ⟨.integer, 1⟩ Proofs.readDefaults =
        Proofs.overlappingTable.resolve Proofs.scriptedA ⟨.integer, 1⟩ Proofs.readDefaults := by
  have hsets := @Proofs.setInTurn_overlappingSets Proofs.readDefaults fun _ _ =>
    ⟨{}, rfl, TaskConfig.problems_default⟩
  exact ⟨hsets, by decide +kernel,
    resolve_by_precedence (ReachableBy.empty.setInTurn hsets) Proofs.scriptedA ⟨.integer, 1⟩⟩

end Broadcasts

end CycleSched
