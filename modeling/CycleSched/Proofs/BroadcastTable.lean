import CycleSched.Broadcast
import CycleSched.Proofs.Enumeration
import CycleSched.Proofs.InheritanceChain
import Mathlib.Data.List.Nodup

/-!
# The broadcast table

A broadcast table keeps one entry for each point, namespace and key (its slot), and every write
takes the next sequence number. So in every table that sets, clears and expiries reach from an
empty one (`Broadcasts.Reachable`, or `Broadcasts.ReachableBy` for any reading of setting trees)
the slots are distinct, the sequence numbers are distinct and none is above the counter, and
every entry holds a setting that was checked when it was set (`Broadcasts.Sound`). A set checks its whole request before it writes anything
(`Broadcasts.writesFor`), so what it writes does not depend on the table it writes to.

Read by slot (`Broadcasts.entryAt`), a run of writes leaves each slot with the entry of its last
write, numbered from the counter on, and every other slot as it was (`entryAt_writes`).
-/

namespace CycleSched

open CycleSched.Graph

namespace BroadcastEntry

/-- The point, namespace and key an entry is kept under. -/
def slot (e : BroadcastEntry) : String × String × String := (e.point, e.scope, e.key)

/-- What an entry says, without its sequence number. -/
def unstamped (e : BroadcastEntry) : String × String × String × String :=
  (e.point, e.scope, e.key, e.value)

theorem sameKey_eq (a b : BroadcastEntry) : a.sameKey b = decide (a.slot = b.slot) := by
  rw [Bool.eq_iff_iff]
  simp [sameKey, slot, and_assoc]

end BroadcastEntry

/-- The slot a write goes to. -/
def BroadcastWrite.slot (w : BroadcastWrite) : String × String × String := (w.point, w.scope, w.key)

@[simp] theorem BroadcastWrite.slot_stamp (w : BroadcastWrite) (n : Int) :
    (w.stamp n).slot = w.slot := rfl

@[simp] theorem BroadcastWrite.seq_stamp (w : BroadcastWrite) (n : Int) : (w.stamp n).seq = n := rfl

namespace Broadcasts

/-- The entry kept under a slot. -/
def entryAt (b : Broadcasts) (s : String × String × String) : Option BroadcastEntry :=
  b.entries.find? (·.slot == s)

/-- The slots of a table, in its order. -/
def slots (b : Broadcasts) : List (String × String × String) := b.entries.map (·.slot)

/-! ## Writing and dropping one entry -/

theorem put_eq (b : Broadcasts) (e : BroadcastEntry) :
    b.put e = if e.slot ∈ b.slots then
      { b with entries := b.entries.map fun x => if x.slot = e.slot then e else x }
    else { b with entries := b.entries ++ [e] } := by
  have hany : b.entries.any (·.sameKey e) = decide (e.slot ∈ b.slots) := by
    rw [Bool.eq_iff_iff, List.any_eq_true, decide_eq_true_iff, slots, List.mem_map]
    simp only [BroadcastEntry.sameKey_eq, decide_eq_true_eq]
  unfold put
  rw [hany]
  simp only [BroadcastEntry.sameKey_eq, decide_eq_true_eq]

theorem find?_replace (l : List BroadcastEntry) (e : BroadcastEntry)
    (s : String × String × String) :
    (l.map fun x => if x.slot = e.slot then e else x).find? (·.slot == s) =
      if e.slot = s ∧ e.slot ∈ l.map (·.slot) then some e else l.find? (·.slot == s) := by
  induction l with
  | nil => simp
  | cons y l ih =>
    by_cases hy : y.slot = e.slot
    · have hmem : e.slot ∈ (y :: l).map (·.slot) := List.mem_map.2 ⟨y, List.mem_cons_self, hy⟩
      by_cases hs : e.slot = s
      · have h1 : (e.slot == s) = true := beq_iff_eq.2 hs
        rw [if_pos ⟨hs, hmem⟩, List.map_cons, if_pos hy, List.find?_cons, h1]
      · have h1 : (e.slot == s) = false := beq_eq_false_iff_ne.2 hs
        have h2 : (y.slot == s) = false := beq_eq_false_iff_ne.2 (hy ▸ hs)
        rw [List.map_cons, if_pos hy, List.find?_cons, h1, ih, List.find?_cons, h2]
        simp [hs]
    · have hey : e.slot ≠ y.slot := fun h => hy h.symm
      rw [List.map_cons, if_neg hy, List.find?_cons, List.find?_cons]
      by_cases hys : y.slot = s
      · have hes : e.slot ≠ s := fun h => hy (hys.trans h.symm)
        have h1 : (y.slot == s) = true := beq_iff_eq.2 hys
        simp [h1, hes]
      · have h1 : (y.slot == s) = false := beq_eq_false_iff_ne.2 hys
        simp only [h1, ih, List.map_cons, List.mem_cons, hey, false_or]

theorem slots_put (b : Broadcasts) (e : BroadcastEntry) :
    (b.put e).slots = if e.slot ∈ b.slots then b.slots else b.slots ++ [e.slot] := by
  rw [put_eq]
  split
  · simp only [slots, List.map_map]
    refine List.map_congr_left fun x _ => ?_
    by_cases hx : x.slot = e.slot <;> simp [hx]
  · simp [slots]

theorem entryAt_put (b : Broadcasts) (e : BroadcastEntry) (s : String × String × String) :
    (b.put e).entryAt s = if e.slot = s then some e else b.entryAt s := by
  rw [put_eq]
  split
  · next h =>
    simp only [slots] at h
    simp only [entryAt, find?_replace]
    by_cases hs : e.slot = s
    · rw [if_pos ⟨hs, h⟩, if_pos hs]
    · rw [if_neg (fun h' => hs h'.1), if_neg hs]
  · next h =>
    simp only [entryAt, List.find?_append]
    by_cases hs : e.slot = s
    · subst hs
      have hnone : b.entries.find? (·.slot == e.slot) = none := by
        rw [List.find?_eq_none]
        intro x hx hxe
        exact h (List.mem_map.2 ⟨x, hx, by simpa using hxe⟩)
      simp [hnone]
    · cases b.entries.find? (·.slot == s) <;> simp [hs]

theorem mem_put {b : Broadcasts} {e x : BroadcastEntry} (h : x ∈ (b.put e).entries) :
    x = e ∨ x ∈ b.entries ∧ x.slot ≠ e.slot := by
  rw [put_eq] at h
  split at h
  · obtain ⟨y, hy, rfl⟩ := List.mem_map.1 h
    by_cases hye : y.slot = e.slot
    · simp [hye]
    · simp only [hye, if_false]
      exact .inr ⟨hy, hye⟩
  · next hn =>
    rcases List.mem_append.1 h with hx | hx
    · exact .inr ⟨hx, fun h' => hn (h' ▸ List.mem_map_of_mem hx)⟩
    · exact .inl (List.mem_singleton.1 hx)

theorem entries_drop (b : Broadcasts) (now : Instant) (e : BroadcastEntry) :
    (b.drop now e).entries = b.entries.filter (!·.sameKey e) := rfl

/-! ## The invariant -/

/-- What every reachable table keeps: one entry per slot, distinct sequence numbers none above
the counter, and only settings that pass the check a set makes, with `read` giving setting trees
their type. -/
structure Sound (b : Broadcasts)
    (read : SettingTable → Except Failure TaskConfig := TaskConfig.ofTable) : Prop where
  slots_nodup : b.slots.Nodup
  seqs_nodup : (b.entries.map (·.seq)).Nodup
  seq_le : ∀ e ∈ b.entries, e.seq ≤ b.seq
  accepted : ∀ e ∈ b.entries, checkSetting e.key e.value read = []

variable {read : SettingTable → Except Failure TaskConfig}

theorem sound_empty : Sound {} read := ⟨List.nodup_nil, List.nodup_nil, by simp, by simp⟩

/-- Keeping a sublist of the entries, with the counter no lower, keeps a table sound. -/
theorem Sound.sublist {b b' : Broadcasts} (h : b.Sound read) (hs : b'.entries.Sublist b.entries)
    (hseq : b.seq ≤ b'.seq) : b'.Sound read where
  slots_nodup := h.slots_nodup.sublist (hs.map _)
  seqs_nodup := h.seqs_nodup.sublist (hs.map _)
  seq_le e he := Int.le_trans (h.seq_le e (hs.subset he)) hseq
  accepted e he := h.accepted e (hs.subset he)

theorem Sound.drop {b : Broadcasts} (h : b.Sound read) (now : Instant) (e : BroadcastEntry) :
    (b.drop now e).Sound read :=
  h.sublist (by rw [entries_drop]; exact List.filter_sublist) (Int.le_refl _)

theorem Sound.dropAll {b : Broadcasts} (h : b.Sound read) (now : Instant)
    (es : List BroadcastEntry) : (es.foldl (fun b e => b.drop now e) b).Sound read := by
  induction es generalizing b with
  | nil => exact h
  | cons e es ih => exact ih (h.drop now e)

/-- A write numbered above every entry keeps a table sound. -/
theorem Sound.write {b : Broadcasts} (h : b.Sound read) (now : Instant)
    (out : List BroadcastEntry) {w : BroadcastWrite} (hw : checkSetting w.key w.value read = []) :
    (write now (b, out) w).1.Sound read := by
  set e := w.stamp (b.seq + 1) with he
  have hfresh : ∀ x ∈ b.entries, x.seq < e.seq := fun x hx => by
    have := h.seq_le x hx
    simp only [he, BroadcastWrite.seq_stamp]
    omega
  have hmem : ∀ x ∈ (b.put e).entries, x = e ∨ x ∈ b.entries ∧ x.slot ≠ e.slot :=
    fun x hx => mem_put hx
  have hslots : (b.put e).slots.Nodup := by
    rw [slots_put]
    split
    · exact h.slots_nodup
    · next hn => exact h.slots_nodup.append (List.nodup_singleton _) (by simpa using hn)
  refine ⟨hslots, ?_, ?_, ?_⟩
  · show ((b.put e).entries.map (·.seq)).Nodup
    refine List.Nodup.map_on ?_ (List.Nodup.of_map BroadcastEntry.slot hslots)
    intro x hx y hy hxy
    rcases hmem x hx with rfl | ⟨hx', -⟩ <;> rcases hmem y hy with rfl | ⟨hy', -⟩
    · rfl
    · exact absurd hxy.symm (Int.ne_of_lt (hfresh y hy'))
    · exact absurd hxy (Int.ne_of_lt (hfresh x hx'))
    · exact List.inj_on_of_nodup_map h.seqs_nodup hx' hy' hxy
  · intro x hx
    rcases hmem x hx with rfl | ⟨hx', -⟩
    · exact Int.le_refl _
    · exact Int.le_of_lt (hfresh x hx')
  · intro x hx
    rcases hmem x hx with rfl | ⟨hx', -⟩
    · exact hw
    · exact h.accepted x hx'

theorem Sound.writes (now : Instant) {ws : List BroadcastWrite}
    (hws : ∀ w ∈ ws, checkSetting w.key w.value read = []) :
    ∀ {b : Broadcasts} (out : List BroadcastEntry), b.Sound read →
      (ws.foldl (Broadcasts.write now) (b, out)).1.Sound read := by
  induction ws with
  | nil => exact fun _ h => h
  | cons w ws ih =>
    intro b out h
    exact ih (fun w' hw' => hws w' (List.mem_cons_of_mem _ hw')) _
      (Sound.write h now out (hws w List.mem_cons_self))

/-! ## Requests -/

/-- A loop in `Except` that never stops early and ends without an error ran its body on every
element without one. -/
theorem forIn_ok_each {α ε : Type} {l : List α} {f : α → PUnit.{1} → Except ε (ForInStep PUnit.{1})}
    (hf : ∀ x r, f x PUnit.unit = .ok r → r = .yield PUnit.unit) {v : PUnit.{1}}
    (h : forIn l PUnit.unit f = .ok v) : ∀ x ∈ l, ∃ r, f x PUnit.unit = .ok r := by
  induction l with
  | nil => simp
  | cons y l ih =>
    rw [List.forIn_cons] at h
    obtain ⟨r, hr, hrest⟩ := Except.bind_eq_ok_iff.1 h
    rw [hf y r hr] at hrest
    intro x hx
    rcases List.mem_cons.1 hx with rfl | hx
    · exact ⟨r, hr⟩
    · exact ih hrest x hx

variable {wf : Workflow}

/-- Every setting a request writes passed the check. -/
theorem writesFor_checked {points scopes : List String} {settings : List (String × String)}
    {ws : List BroadcastWrite} (h : writesFor wf points scopes settings read = .ok ws) :
    ∀ w ∈ ws, checkSetting w.key w.value read = [] := by
  unfold writesFor at h
  simp only [Except.throw_bind] at h
  split at h
  · cases h
  · obtain ⟨canon, -, h⟩ := Except.bind_eq_ok_iff.1 h
    split at h
    · cases h
    · obtain ⟨u, hloop, h⟩ := Except.bind_eq_ok_iff.1 h
      cases h
      intro w hw
      simp only [List.mem_flatMap, List.mem_map] at hw
      obtain ⟨p, -, ns, -, s, hs, rfl⟩ := hw
      -- the check loop ran on the setting without refusing it
      obtain ⟨r, hr⟩ := forIn_ok_each (by
        intro x r hx
        split at hx
        · cases hx
        · exact (Except.ok.inj hx).symm) hloop s hs
      split at hr
      · cases hr
      · next hgood => simpa using hgood

/-- A setting passes the check when its path is not under `inherit` and has no empty part, and
the tree with the setting alone reads into a configuration that passes. -/
theorem checkSetting_eq_nil {path value : String}
    (hinherit : (path == "inherit" || path.startsWith "inherit.") = false)
    (hparts : ∀ k ∈ path.splitOn ".", k ≠ "") {c : TaskConfig}
    (hread : read (SettingTable.setAt [] (path.splitOn ".") (Setting.ofValueText value)) = .ok c)
    (hc : c.problems = []) : checkSetting path value read = [] := by
  have hkeys : (path.splitOn ".").any (· == "") = false :=
    List.any_eq_false.2 fun k hk hempty => hparts k hk (beq_iff_eq.1 hempty)
  unfold checkSetting SettingTable.setPath
  rw [if_neg (by rw [hinherit]; decide)]
  dsimp only
  rw [if_neg (by rw [hkeys]; decide)]
  dsimp only
  rw [hread]
  exact hc

/-- A loop in `Except` whose body goes on at every element ends without an error. -/
theorem forIn_ok_of_each {α ε : Type} {l : List α}
    {f : α → PUnit.{1} → Except ε (ForInStep PUnit.{1})}
    (h : ∀ x ∈ l, f x PUnit.unit = .ok (.yield PUnit.unit)) :
    forIn l PUnit.unit f = .ok PUnit.unit := by
  induction l with
  | nil => rfl
  | cons y l ih =>
    rw [List.forIn_cons, h y List.mem_cons_self]
    exact ih fun x hx => h x (List.mem_cons_of_mem _ hx)

theorem mapM_eq_ok_self {α ε : Type} {f : α → Except ε α} :
    ∀ {l : List α}, (∀ x ∈ l, f x = .ok x) → l.mapM f = .ok l
  | [], _ => rfl
  | x :: l, h => by
    rw [List.mapM_cons, h x List.mem_cons_self,
      mapM_eq_ok_self fun y hy => h y (List.mem_cons_of_mem _ hy)]
    rfl

/-- A request with settings, each passing the check, at points written as the workflow writes
them and to known namespaces, writes every setting to every namespace at every point (every
point and the root when none are given). -/
theorem writesFor_eq_ok {points scopes : List String} {settings : List (String × String)}
    (hpoints : ∀ p ∈ (if points.isEmpty then [allPoints] else points),
      canonicalPoint wf p = .ok p)
    (hscopes : ∀ ns ∈ (if scopes.isEmpty then [rootNamespace] else scopes),
      knownScope wf ns = true)
    (hne : settings ≠ []) (hchecked : ∀ s ∈ settings, checkSetting s.1 s.2 read = []) :
    writesFor wf points scopes settings read =
      .ok ((if points.isEmpty then [allPoints] else points).flatMap fun p =>
        (if scopes.isEmpty then [rootNamespace] else scopes).flatMap fun ns =>
          settings.map fun s => ⟨p, ns, s.1, s.2⟩) := by
  have hsettings : settings.isEmpty = false := List.isEmpty_eq_false_iff.2 hne
  have hknown : (if scopes.isEmpty then [rootNamespace] else scopes).find?
      (fun ns => !knownScope wf ns) = none :=
    List.find?_eq_none.2 fun ns hns => by rw [hscopes ns hns]; decide
  unfold writesFor
  simp only [Except.throw_bind, hsettings]
  rw [mapM_eq_ok_self fun p hp => by rw [hpoints p hp]; rfl]
  dsimp only [bind, Except.bind]
  rw [hknown]
  dsimp only
  rw [forIn_ok_of_each fun s hs => by rw [hchecked s hs]; rfl]
  rfl

/-- A set whose request yields its writes makes them one after another. -/
theorem set_of_writesFor {b : Broadcasts} {now : Instant} {points scopes : List String}
    {settings : List (String × String)} {ws : List BroadcastWrite}
    (h : writesFor wf points scopes settings read = .ok ws) :
    b.set wf now points scopes settings read = .ok (ws.foldl (write now) (b, [])) := by
  unfold set
  rw [h]
  rfl

theorem set_eq_ok {b b' : Broadcasts} {now : Instant} {points scopes : List String}
    {settings : List (String × String)} {out : List BroadcastEntry} :
    b.set wf now points scopes settings read = .ok (b', out) ↔
      ∃ ws, writesFor wf points scopes settings read = .ok ws ∧
        ws.foldl (write now) (b, []) = (b', out) := by
  unfold set
  rw [Except.bind_eq_ok_iff]
  simp only [pure, Except.pure, Except.ok.injEq]

theorem clear_eq_ok {b b' : Broadcasts} {now : Instant} {points scopes keys : List String}
    {out : List BroadcastEntry} (h : b.clear wf now points scopes keys = .ok (b', out)) :
    b' = out.foldl (fun b e => b.drop now e) b := by
  unfold clear at h
  obtain ⟨canon, -, h⟩ := Except.bind_eq_ok_iff.1 h
  simp only [Except.throw_bind] at h
  split at h
  · cases h
  · cases h
    rfl

/-- The broadcast tables that accepted sets, clears and expiries reach from an empty one. -/
inductive Reachable (wf : Workflow) : Broadcasts → Prop
  | empty : Reachable wf {}
  | set {b b' : Broadcasts} {now : Instant} {points scopes : List String}
      {settings : List (String × String)} {out : List BroadcastEntry} :
      Reachable wf b → b.set wf now points scopes settings = .ok (b', out) → Reachable wf b'
  | clear {b b' : Broadcasts} {now : Instant} {points scopes keys : List String}
      {out : List BroadcastEntry} :
      Reachable wf b → b.clear wf now points scopes keys = .ok (b', out) → Reachable wf b'
  | expire {b : Broadcasts} (now : Instant) (oldest : Point) :
      Reachable wf b → Reachable wf (b.expire wf now oldest).1

/-- The broadcast tables that accepted sets, clears and expiries reach from an empty one, when
`read` gives the setting trees that sets check their type. -/
inductive ReachableBy (read : SettingTable → Except Failure TaskConfig) (wf : Workflow) :
    Broadcasts → Prop
  | empty : ReachableBy read wf {}
  | set {b b' : Broadcasts} {now : Instant} {points scopes : List String}
      {settings : List (String × String)} {out : List BroadcastEntry} :
      ReachableBy read wf b → b.set wf now points scopes settings read = .ok (b', out) →
        ReachableBy read wf b'
  | clear {b b' : Broadcasts} {now : Instant} {points scopes keys : List String}
      {out : List BroadcastEntry} :
      ReachableBy read wf b → b.clear wf now points scopes keys = .ok (b', out) →
        ReachableBy read wf b'
  | expire {b : Broadcasts} (now : Instant) (oldest : Point) :
      ReachableBy read wf b → ReachableBy read wf (b.expire wf now oldest).1

/-- The tables reachable with the YAML reading of setting trees. -/
theorem Reachable.reachableBy {b : Broadcasts} (h : b.Reachable wf) :
    b.ReachableBy TaskConfig.ofTable wf := by
  induction h with
  | empty => exact .empty
  | set _ hs ih => exact .set ih hs
  | clear _ hc ih => exact .clear ih hc
  | expire now oldest _ ih => exact .expire now oldest ih

/-- Every reachable table is sound: the invariant holds initially and every accepted set, clear
and expiry keeps it. -/
theorem ReachableBy.sound {b : Broadcasts} (h : b.ReachableBy read wf) : b.Sound read := by
  induction h with
  | empty => exact sound_empty
  | set _ hs ih =>
    obtain ⟨ws, hws, hfold⟩ := set_eq_ok.1 hs
    have hb' := congrArg Prod.fst hfold
    dsimp only at hb'
    rw [← hb']
    exact Sound.writes _ (writesFor_checked hws) _ ih
  | clear _ hc ih =>
    rw [clear_eq_ok hc]
    exact ih.dropAll _ _
  | expire now oldest _ ih => exact ih.dropAll now _

theorem Reachable.sound {b : Broadcasts} (h : b.Reachable wf) : b.Sound :=
  h.reachableBy.sound

/-- Sets broadcasts as the requests ask, one request after another from `b`, each with its
points, namespaces and settings; answers the table once every request is accepted. -/
def setInTurn (wf : Workflow) (now : Instant) (read : SettingTable → Except Failure TaskConfig) :
    Broadcasts → List (List String × List String × List (String × String)) →
      Except Failure Broadcasts
  | b, [] => .ok b
  | b, (points, scopes, settings) :: rest =>
    (b.set wf now points scopes settings read).bind fun r => setInTurn wf now read r.1 rest

/-- Requests accepted one after another lead from a reachable table to a reachable table. -/
theorem ReachableBy.setInTurn {b b' : Broadcasts} {now : Instant}
    {reqs : List (List String × List String × List (String × String))}
    (hb : b.ReachableBy read wf) (h : Broadcasts.setInTurn wf now read b reqs = .ok b') :
    b'.ReachableBy read wf := by
  induction reqs generalizing b with
  | nil =>
    cases h
    exact hb
  | cons req rest ih =>
    obtain ⟨points, scopes, settings⟩ := req
    obtain ⟨⟨b₁, out⟩, hset, hrest⟩ := Except.bind_eq_ok_iff.1 h
    exact ih (hb.set hset) hrest

/-- The tables reachable with the YAML reading are the reachable tables. -/
theorem ReachableBy.reachable {b : Broadcasts} (h : b.ReachableBy TaskConfig.ofTable wf) :
    b.Reachable wf := by
  induction h with
  | empty => exact .empty
  | set _ hs ih => exact .set ih hs
  | clear _ hc ih => exact .clear ih hc
  | expire now oldest _ ih => exact .expire now oldest ih

theorem Reachable.setInTurn {b b' : Broadcasts} {now : Instant}
    {reqs : List (List String × List String × List (String × String))}
    (hb : b.Reachable wf) (h : Broadcasts.setInTurn wf now TaskConfig.ofTable b reqs = .ok b') :
    b'.Reachable wf :=
  (hb.reachableBy.setInTurn h).reachable

/-! ## A run of writes, read by slot -/

/-- The entry the last write to a slot makes, the writes numbered on from `c + 1`. -/
def lastStamp : List BroadcastWrite → Int → String × String × String → Option BroadcastEntry
  | [], _, _ => none
  | w :: ws, c, s =>
    (lastStamp ws (c + 1) s).or (if w.slot = s then some (w.stamp (c + 1)) else none)

theorem lastStamp_above {ws : List BroadcastWrite} {c : Int} {s : String × String × String}
    {e : BroadcastEntry} (h : lastStamp ws c s = some e) : c < e.seq ∧ e.slot = s := by
  induction ws generalizing c with
  | nil => cases h
  | cons w ws ih =>
    simp only [lastStamp] at h
    cases hl : lastStamp ws (c + 1) s with
    | some e' =>
      rw [hl, Option.some_or] at h
      cases h
      obtain ⟨hlt, hs⟩ := ih hl
      exact ⟨by omega, hs⟩
    | none =>
      rw [hl, Option.none_or] at h
      split at h
      · next hs =>
        cases h
        exact ⟨by rw [BroadcastWrite.seq_stamp]; omega, by simpa using hs⟩
      · cases h

/-- Numbering a run of writes `k` further on numbers each last write `k` further on. -/
theorem lastStamp_add (ws : List BroadcastWrite) (c k : Int) (s : String × String × String) :
    lastStamp ws (c + k) s = (lastStamp ws c s).map fun e => { e with seq := e.seq + k } := by
  induction ws generalizing c with
  | nil => rfl
  | cons w ws ih =>
    have hc : c + k + 1 = c + 1 + k := by omega
    simp only [lastStamp, hc, ih, Option.map_or]
    congr 1
    split <;> simp [BroadcastWrite.stamp]

theorem entries_write (now : Instant) (acc : Broadcasts × List BroadcastEntry)
    (w : BroadcastWrite) :
    (write now acc w).1.entries = (acc.1.put (w.stamp (acc.1.seq + 1))).entries := rfl

theorem seq_write (now : Instant) (acc : Broadcasts × List BroadcastEntry) (w : BroadcastWrite) :
    (write now acc w).1.seq = acc.1.seq + 1 := rfl

theorem seq_writes (now : Instant) (ws : List BroadcastWrite) :
    ∀ (b : Broadcasts) (out : List BroadcastEntry),
      (ws.foldl (write now) (b, out)).1.seq = b.seq + ws.length := by
  induction ws with
  | nil => simp
  | cons w ws ih =>
    intro b out
    rw [List.foldl_cons, ih, seq_write, List.length_cons]
    dsimp only
    omega

/-- After a run of writes a slot holds the entry of its last write, and else what it held. -/
theorem entryAt_writes (now : Instant) (ws : List BroadcastWrite) (s : String × String × String) :
    ∀ (b : Broadcasts) (out : List BroadcastEntry),
      (ws.foldl (write now) (b, out)).1.entryAt s = (lastStamp ws b.seq s).or (b.entryAt s) := by
  induction ws with
  | nil => simp [lastStamp]
  | cons w ws ih =>
    intro b out
    rw [List.foldl_cons, ih, seq_write]
    have hput : (write now (b, out) w).1.entryAt s =
        if w.slot = s then some (w.stamp (b.seq + 1)) else b.entryAt s := by
      simp only [entryAt, entries_write]
      exact entryAt_put b _ s
    rw [hput, lastStamp]
    cases lastStamp ws (b.seq + 1) s <;> split <;> simp

theorem slots_write (now : Instant) (acc : Broadcasts × List BroadcastEntry) (w : BroadcastWrite) :
    (write now acc w).1.slots =
      if w.slot ∈ acc.1.slots then acc.1.slots else acc.1.slots ++ [w.slot] := by
  show (acc.1.put (w.stamp (acc.1.seq + 1))).slots = _
  rw [slots_put, BroadcastWrite.slot_stamp]

theorem slots_subset_write (now : Instant) (acc : Broadcasts × List BroadcastEntry)
    (w : BroadcastWrite) : acc.1.slots ⊆ (write now acc w).1.slots := by
  rw [slots_write]
  split
  · exact fun _ h => h
  · exact fun _ h => List.mem_append_left _ h

theorem slot_mem_write (now : Instant) (acc : Broadcasts × List BroadcastEntry)
    (w : BroadcastWrite) : w.slot ∈ (write now acc w).1.slots := by
  rw [slots_write]
  split
  · next h => exact h
  · simp

/-- A run of writes to slots a table has keeps its slots as they are. -/
theorem slots_writes_of_mem (now : Instant) {ws : List BroadcastWrite} :
    ∀ {b : Broadcasts} (out : List BroadcastEntry), (∀ w ∈ ws, w.slot ∈ b.slots) →
      (ws.foldl (write now) (b, out)).1.slots = b.slots := by
  induction ws with
  | nil => simp
  | cons w ws ih =>
    intro b out h
    have hw : (write now (b, out) w).1.slots = b.slots := by
      rw [slots_write, if_pos (h w List.mem_cons_self)]
    rw [List.foldl_cons, ih _ (fun w' hw' => hw ▸ h w' (List.mem_cons_of_mem _ hw')), hw]

/-- A run of writes removes no slot. -/
theorem slots_subset_writes (now : Instant) (ws : List BroadcastWrite) :
    ∀ (b : Broadcasts) (out : List BroadcastEntry),
      b.slots ⊆ (ws.foldl (write now) (b, out)).1.slots := by
  induction ws with
  | nil => exact fun _ _ _ h => h
  | cons w ws ih =>
    intro b out t ht
    rw [List.foldl_cons]
    exact ih _ _ (slots_subset_write now (b, out) w ht)

/-- After a run of writes the table has the slot of every write. -/
theorem slot_mem_writes (now : Instant) {ws : List BroadcastWrite} :
    ∀ (b : Broadcasts) (out : List BroadcastEntry), ∀ w ∈ ws,
      w.slot ∈ (ws.foldl (write now) (b, out)).1.slots := by
  induction ws with
  | nil => simp
  | cons w ws ih =>
    intro b out x hx
    rw [List.foldl_cons]
    rcases List.mem_cons.1 hx with rfl | hx
    · exact slots_subset_writes now ws _ _ (slot_mem_write now (b, out) x)
    · exact ih _ _ x hx

/-- Two lists with one entry per slot, the same slots in the same order, and at each slot entries
related by a map that keeps the slot, are related entry by entry. -/
theorem eq_map_of_find? {g : BroadcastEntry → BroadcastEntry} (hg : ∀ e, (g e).slot = e.slot) :
    ∀ {l l' : List BroadcastEntry}, (l.map (·.slot)).Nodup → l'.map (·.slot) = l.map (·.slot) →
      (∀ s, l'.find? (·.slot == s) = (l.find? (·.slot == s)).map g) → l' = l.map g
  | [], l', _, hs, _ => by simpa using hs
  | x :: l, [], _, hs, _ => by simp at hs
  | x :: l, y :: l', hn, hs, ha => by
    simp only [List.map_cons, List.cons.injEq] at hs
    obtain ⟨hxy, hs⟩ := hs
    simp only [List.map_cons, List.nodup_cons] at hn
    have hy : y = g x := by
      have := ha x.slot
      simp only [List.find?_cons, hxy, beq_self_eq_true, Option.map_some] at this
      exact Option.some.inj this
    have hrest : ∀ s, l'.find? (·.slot == s) = (l.find? (·.slot == s)).map g := by
      intro s
      by_cases hsx : x.slot = s
      · subst hsx
        have hl : l.find? (·.slot == x.slot) = none :=
          List.find?_eq_none.2 fun z hz hzx => hn.1 (List.mem_map.2 ⟨z, hz, by simpa using hzx⟩)
        have hl' : l'.find? (·.slot == x.slot) = none :=
          List.find?_eq_none.2 fun z hz hzx =>
            hn.1 (hs ▸ List.mem_map.2 ⟨z, hz, by simpa using hzx⟩)
        rw [hl, hl', Option.map_none]
      · have := ha s
        have h1 : (x.slot == s) = false := beq_eq_false_iff_ne.2 hsx
        have h2 : (y.slot == s) = false := beq_eq_false_iff_ne.2 (hxy ▸ hsx)
        simpa only [List.find?_cons, h1, h2] using this
    rw [List.map_cons, hy, eq_map_of_find? hg hn.2 hs hrest]

end Broadcasts

end CycleSched
