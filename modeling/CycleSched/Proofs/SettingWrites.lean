import CycleSched.Proofs.BroadcastPrecedence

/-!
# What a write to a setting tree touches

Setting a dotted path splits it at its dots. With an empty part it is refused; otherwise the
value, read from its text, is found at the path afterwards (`find?_setAt_self`), every key on the
way holds a table (`find?_setAt_above`), and whatever lies neither above nor beneath the path is
found as before (`find?_setAt_apart`).

Laying one tree over another keeps each setting the source has at a path, other than a table
(`find?_overlay_of_source`). A setting of the destination is kept where the source has nothing
at its path and holds only tables above it (`find?_overlay_of_destination`): a source setting of
another kind above the path replaces what lay beneath it, and a source table at the path is laid
over it. Both need the source to keep each key once in each of its tables (`KeysOnce`), as a
mapping does. `setPath_overlay_frame` gathers these.
-/

namespace CycleSched

namespace SettingTable

/-- A key's table after an overlay, when the source holds a table there: the source's table laid
over the destination's, or the source's alone. -/
theorem subtable?_overlay {d s sub : SettingTable} (hs : (s.map (·.1)).Nodup) {k : String}
    (h : s.subtable? k = some sub) :
    (overlay d s).subtable? k = some ((d.subtable? k).elim sub fun o => overlay o sub) := by
  apply subtable?_of_get?
  rw [get?_overlay hs, get?_of_subtable? h]
  cases d.subtable? k <;> rfl

/-- Setting a path makes every key on the way hold a table. -/
theorem find?_setAt_above (v : Setting) :
    ∀ (t : SettingTable) (path q : List String), q ≠ [] → q <+: path → q ≠ path →
      ∃ sub, (t.setAt path v).find? q = some (.table sub)
  | _, _, [], hq, _, _ => absurd rfl hq
  | _, [], _ :: _, _, hpre, _ => absurd (List.eq_nil_of_prefix_nil hpre) (List.cons_ne_nil _ _)
  | t, k :: pr, k' :: qr, _, hpre, hne => by
    obtain ⟨rfl, hrest⟩ := List.cons_prefix_cons.1 hpre
    -- the path goes on below its first key, which receives a table
    cases pr with
    | nil =>
      obtain rfl := List.eq_nil_of_prefix_nil hrest
      exact absurd rfl hne
    | cons k₂ pr =>
      have hset : t.setAt (k' :: k₂ :: pr) v =
          t.put k' (.table (((t.subtable? k').getD []).setAt (k₂ :: pr) v)) := rfl
      cases qr with
      | nil => exact ⟨_, by rw [hset]; exact (get?_put t k' k' _).trans (if_pos rfl)⟩
      | cons k₃ qr =>
        rw [hset, find?_cons_cons, subtable?_of_get? (by rw [get?_put, if_pos rfl]),
          Option.bind_some]
        exact find?_setAt_above v _ (k₂ :: pr) (k₃ :: qr) (List.cons_ne_nil _ _) hrest
          fun h => hne (by rw [h])

/-- A dotted path without an empty part is set in any table. -/
theorem setPath_eq_ok {path : String} (h : ∀ k ∈ path.splitOn ".", k ≠ "") (t : SettingTable)
    (value : String) :
    t.setPath path value = .ok (t.setAt (path.splitOn ".") (Setting.ofValueText value)) := by
  have hkeys : (path.splitOn ".").any (· == "") = false :=
    List.any_eq_false.2 fun k hk hempty => h k hk (beq_iff_eq.1 hempty)
  unfold setPath
  dsimp only
  rw [if_neg (by rw [hkeys]; exact Bool.false_ne_true)]

/-- A dotted path with an empty part is refused. -/
theorem setPath_eq_error {path : String} (h : "" ∈ path.splitOn ".") (t : SettingTable)
    (value : String) : ∃ e, t.setPath path value = .error e := by
  have hkeys : (path.splitOn ".").any (· == "") = true := List.any_eq_true.2 ⟨"", h, rfl⟩
  unfold setPath
  dsimp only
  rw [if_pos hkeys]
  exact ⟨_, rfl⟩

/-- A setting other than a table that the source holds at a path is found there after the
overlay. -/
theorem find?_overlay_of_source {v : Setting} (hv : v.isTable = false) :
    ∀ {path : List String} {d s : SettingTable}, s.KeysOnce → s.find? path = some v →
      (overlay d s).find? path = some v
  | [], _, _, _, h => by cases h
  | [k], d, s, hs, h => by
    change s.get? k = some v at h
    change (overlay d s).get? k = some v
    rw [get?_overlay hs.1, h]
    -- a setting that is no table is laid as it is
    cases v with
    | table sub => cases hv
    | leaf a => rfl
    | list a => rfl
    | keyed a => rfl
  | k :: k' :: rest, d, s, hs, h => by
    rw [find?_cons_cons] at h ⊢
    obtain ⟨sub, hsub, hfind⟩ := Option.bind_eq_some_iff.1 h
    rw [subtable?_overlay hs.1 hsub, Option.bind_some]
    cases d.subtable? k with
    | none => exact hfind
    | some o => exact find?_overlay_of_source hv (hs.sub hsub) hfind

/-- A destination setting is found at its path after the overlay when the source has nothing at
that path and only tables above it. -/
theorem find?_overlay_of_destination {v : Setting} :
    ∀ {path : List String} {d s : SettingTable}, s.KeysOnce → d.find? path = some v →
      s.find? path = none →
      (∀ pre w, pre ≠ [] → pre <+: path → pre ≠ path → s.find? pre = some w → w.isTable = true) →
      (overlay d s).find? path = some v
  | [], _, _, _, h, _, _ => by cases h
  | [k], d, s, hs, h, hnone, _ => by
    change d.get? k = some v at h
    change s.get? k = none at hnone
    change (overlay d s).get? k = some v
    rw [get?_overlay hs.1, hnone, Option.map_none, Option.none_or, h]
  | k :: k' :: rest, d, s, hs, h, hnone, habove => by
    rw [find?_cons_cons] at h hnone ⊢
    obtain ⟨o, ho, hfind⟩ := Option.bind_eq_some_iff.1 h
    cases hk : s.get? k with
    | none =>
      -- the source leaves the key alone
      have hsame : (overlay d s).subtable? k = d.subtable? k :=
        subtable?_congr (by rw [get?_overlay hs.1, hk, Option.map_none, Option.none_or])
      rw [hsame, ho]
      exact hfind
    | some w =>
      -- the key is above the path, so the source holds a table there
      have hw := habove [k] w (List.cons_ne_nil _ _)
        (List.cons_prefix_cons.2 ⟨rfl, List.nil_prefix⟩) (by simp) hk
      cases w with
      | leaf a => cases hw
      | list a => cases hw
      | keyed a => cases hw
      | table sub =>
        have hsub := subtable?_of_get? hk
        rw [hsub, Option.bind_some] at hnone
        rw [subtable?_overlay hs.1 hsub, ho, Option.bind_some]
        refine find?_overlay_of_destination (hs.sub hsub) hfind hnone fun pre w' hpre hle hne hw' => ?_
        cases pre with
        | nil => exact absurd rfl hpre
        | cons k₁ pre =>
          refine habove (k :: k₁ :: pre) w' (List.cons_ne_nil _ _)
            (List.cons_prefix_cons.2 ⟨rfl, hle⟩) (fun heq => hne (List.cons.inj heq).2) ?_
          rw [find?_cons_cons, hsub, Option.bind_some]
          exact hw'

/-- A setting found under a key is an entry of the table. -/
theorem mem_of_get? {t : SettingTable} {k : String} {v : Setting} (h : t.get? k = some v) :
    (k, v) ∈ t := by
  obtain ⟨l₁, l₂, hsplit, -⟩ := List.lookup_eq_some_iff.1 h
  rw [hsplit]
  exact List.mem_append_right _ List.mem_cons_self

/-- A table of settings none of which is a table keeps each key once where its keys differ. -/
theorem keysOnce_of_flat {t : SettingTable} (hkeys : (t.map (·.1)).Nodup)
    (hflat : ∀ e ∈ t, e.2.isTable = false) : t.KeysOnce := by
  refine ⟨hkeys, fun path sub h => ?_⟩
  match path, h with
  | [k], h => cases hflat _ (mem_of_get? h)
  | k :: k' :: rest, h =>
    rw [find?_cons_cons] at h
    obtain ⟨e, he, -⟩ := Option.bind_eq_some_iff.1 h
    cases hflat _ (mem_of_get? (get?_of_subtable? he))

end SettingTable

namespace Proofs

open SettingTable

/-- Setting a dotted path without an empty part puts the value read from its text at the path,
a table at every key above it, and leaves whatever lies neither above nor beneath it; a path with
an empty part is refused. Laying a source tree, each of whose tables keeps its keys once, over a
destination keeps every setting of the source other than a table, and every setting of the
destination at a path where the source has nothing and holds only tables above. -/
theorem setPath_overlay_frame :
    (∀ (t : SettingTable) (path value : String), (∀ k ∈ path.splitOn ".", k ≠ "") →
      ∃ t', t.setPath path value = .ok t' ∧
        t'.find? (path.splitOn ".") = some (Setting.ofValueText value) ∧
        (∀ q, ¬ q <+: path.splitOn "." → ¬ path.splitOn "." <+: q → t'.find? q = t.find? q) ∧
        ∀ q, q ≠ [] → q <+: path.splitOn "." → q ≠ path.splitOn "." →
          ∃ sub, t'.find? q = some (.table sub)) ∧
    (∀ (t : SettingTable) (path value : String), "" ∈ path.splitOn "." →
      ∃ e, t.setPath path value = .error e) ∧
    ∀ d s : SettingTable, s.KeysOnce →
      (∀ q v, s.find? q = some v → v.isTable = false → (overlay d s).find? q = some v) ∧
      ∀ q v, d.find? q = some v → s.find? q = none →
        (∀ pre w, pre ≠ [] → pre <+: q → pre ≠ q → s.find? pre = some w → w.isTable = true) →
        (overlay d s).find? q = some v := by
  refine ⟨fun t path value hpath => ⟨_, setPath_eq_ok hpath t value, ?_, ?_, ?_⟩,
    fun t path value hpath => setPath_eq_error hpath t value,
    fun d s hs => ⟨fun q v h hv => find?_overlay_of_source hv hs h,
      fun q v h hnone habove => find?_overlay_of_destination hs h hnone habove⟩⟩
  · exact find?_setAt_self _ t _ (String.splitOn_ne_nil _ _)
  · exact fun q hq hq' => find?_setAt_apart _ t _ q hq' hq
  · exact find?_setAt_above _ t _

/-- The settings `script: text` of a task. -/
def scriptOnly (text : String) : SettingTable := [("script", .leaf (.str text))]

/-- Setting `environment.FOO` to `bar` over `script: A`, refusing `script.`, and laying
`script: B` over `script: A`, each write meets what its frame asks. -/
theorem setPath_overlay_frame_on_script :
    ((∀ k ∈ "environment.FOO".splitOn ".", k ≠ "") ∧
      ∃ t', (scriptOnly "A").setPath "environment.FOO" "bar" = .ok t' ∧
        t'.find? ("environment.FOO".splitOn ".") = some (Setting.ofValueText "bar") ∧
        (∀ q, ¬ q <+: "environment.FOO".splitOn "." → ¬ "environment.FOO".splitOn "." <+: q →
          t'.find? q = (scriptOnly "A").find? q) ∧
        ∀ q, q ≠ [] → q <+: "environment.FOO".splitOn "." → q ≠ "environment.FOO".splitOn "." →
          ∃ sub, t'.find? q = some (.table sub)) ∧
    ("" ∈ "script.".splitOn "." ∧ ∃ e, (scriptOnly "A").setPath "script." "x" = .error e) ∧
    (scriptOnly "B").KeysOnce ∧
      (∀ q v, (scriptOnly "B").find? q = some v → v.isTable = false →
        (overlay (scriptOnly "A") (scriptOnly "B")).find? q = some v) ∧
      ∀ q v, (scriptOnly "A").find? q = some v → (scriptOnly "B").find? q = none →
        (∀ pre w, pre ≠ [] → pre <+: q → pre ≠ q → (scriptOnly "B").find? pre = some w →
          w.isTable = true) →
        (overlay (scriptOnly "A") (scriptOnly "B")).find? q = some v := by
  -- the splits are worked out a character at a time
  have hsplit : "environment.FOO".splitOn "." = ["environment", "FOO"] := by
    rw [String.splitOn, if_neg (by decide)]
    repeat (rw [String.splitOnAux.eq_1]; simp +decide only [↓reduceIte])
  have hsplit' : "script.".splitOn "." = ["script", ""] := by
    rw [String.splitOn, if_neg (by decide)]
    repeat (rw [String.splitOnAux.eq_1]; simp +decide only [↓reduceIte])
  have hpath : ∀ k ∈ "environment.FOO".splitOn ".", k ≠ "" := by
    rw [hsplit]
    decide
  have hempty : "" ∈ "script.".splitOn "." := by
    rw [hsplit']
    decide
  have hkeys : (scriptOnly "B").KeysOnce := keysOnce_of_flat (by decide) (by decide)
  exact ⟨⟨hpath, setPath_overlay_frame.1 _ _ "bar" hpath⟩,
    ⟨hempty, setPath_overlay_frame.2.1 _ _ "x" hempty⟩, hkeys, setPath_overlay_frame.2.2 _ _ hkeys⟩

end Proofs

end CycleSched
