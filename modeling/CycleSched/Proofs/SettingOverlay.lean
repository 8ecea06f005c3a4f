import CycleSched.Settings.Basic

/-!
# Settings laid over one another

`overlay` lays a source table over a destination key by key: a table keyed by texts meets such a
table under the same key and is laid over it in turn, and any other setting replaces what was
there. Read at one key (`SettingTable.get?_overlay`), the result is the source's setting, laid
over the destination's when both are tables, or else the destination's. Read at a path of keys
(`SettingTable.find?`), a setting that is no table keyed by texts comes from the source where the
source has one at that path, and else from the destination (`SettingTable.find?_overlay`). Both
hold when every table of the source keeps each key once (`SettingTable.KeysOnce`), as the tables
of a mapping do.
-/

namespace CycleSched

/-- Whether a setting is a table keyed by texts: the settings that `overlay` merges key by key,
where any other setting replaces what was there. -/
def Setting.isTable : Setting → Bool
  | .table _ => true
  | _ => false

namespace SettingTable

/-- The setting at a path of keys, through tables keyed by texts. -/
def find? : SettingTable → List String → Option Setting
  | _, [] => none
  | t, [k] => t.get? k
  | t, k :: rest => (t.subtable? k).bind (find? · rest)

/-- The setting that `overlay` puts under a key: a table keyed by texts laid over the table there
before, if there was one, and any other setting as it is. -/
def entryValue (old : Option SettingTable) (v : Setting) : Setting :=
  match v, old with
  | .table sub, some o => .table (overlay o sub)
  | v, _ => v

/-- One entry laid over a table, as `overlay` lays each entry of its source. -/
def overlayEntry (acc : SettingTable) (e : String × Setting) : SettingTable :=
  acc.put e.1 (entryValue (acc.subtable? e.1) e.2)

theorem overlay_eq (dst src : SettingTable) : overlay dst src = src.foldl overlayEntry dst := by
  rw [overlay]
  refine Eq.trans ?_ (List.foldl_attach (l := src) (f := overlayEntry))
  congr 1
  funext acc x
  obtain ⟨⟨k, v⟩, h⟩ := x
  unfold overlayEntry entryValue
  dsimp only
  cases v <;> cases acc.subtable? k <;> rfl

/-- Looking a key up after every entry of key `k'` is replaced by `(k', v)`. -/
theorem lookup_map_replace (t : SettingTable) (k' k : String) (v : Setting) :
    (t.map fun e => if e.1 == k' then (k', v) else e).lookup k =
      if k = k' ∧ t.any (·.1 == k') then some v else t.lookup k := by
  induction t with
  | nil => simp
  | cons e t ih =>
    obtain ⟨a, b⟩ := e
    by_cases ha : a = k'
    · subst ha
      by_cases hk : k = a
      · subst hk
        simp
      · have hne : (k == a) = false := by simpa using hk
        simp only [List.map_cons, beq_self_eq_true, if_true, List.lookup_cons, hne, hk,
          false_and, if_false, ih]
    · have hne : (a == k') = false := by simpa using ha
      simp only [List.map_cons, hne, Bool.false_eq_true, if_false, List.lookup_cons, ih,
        List.any_cons, Bool.false_or]
      by_cases hk : k = a
      · subst hk
        simp [ha]
      · have hka : (k == a) = false := by simpa using hk
        simp only [hka]

theorem get?_put (t : SettingTable) (k' k : String) (v : Setting) :
    (t.put k' v).get? k = if k = k' then some v else t.get? k := by
  unfold put get?
  split
  · next hany =>
    rw [lookup_map_replace]
    by_cases hk : k = k'
    · simp [hk, hany]
    · simp [hk]
  · next hany =>
    rw [List.lookup_append]
    by_cases hk : k = k'
    · subst hk
      have hnone : t.lookup k = none := by
        simp only [List.lookup_eq_none_iff]
        intro p hp
        rw [bne_iff_ne]
        rintro rfl
        exact hany (List.any_eq_true.2 ⟨p, hp, beq_self_eq_true _⟩)
      simp [hnone]
    · cases t.lookup k <;> simp [hk]

theorem subtable?_congr {t t' : SettingTable} {k : String} (h : t.get? k = t'.get? k) :
    t.subtable? k = t'.subtable? k := by
  unfold subtable?
  rw [h]

theorem get?_of_subtable? {t e : SettingTable} {k : String} (h : t.subtable? k = some e) :
    t.get? k = some (.table e) := by
  unfold subtable? at h
  split at h
  · next hget =>
    cases h
    exact hget
  · cases h

theorem subtable?_of_get? {t e : SettingTable} {k : String} (h : t.get? k = some (.table e)) :
    t.subtable? k = some e := by
  unfold subtable?
  rw [h]

theorem subtable?_eq_none {t : SettingTable} {k : String} (h : t.get? k = none) :
    t.subtable? k = none := by
  unfold subtable?
  rw [h]

/-- Laying an entry of another key leaves a key's setting as it was. -/
theorem get?_overlayEntry_ne (acc : SettingTable) {k : String} {e : String × Setting}
    (h : e.1 ≠ k) : (acc.overlayEntry e).get? k = acc.get? k := by
  unfold overlayEntry
  rw [get?_put, if_neg (Ne.symm h)]

theorem get?_overlayEntry_self (acc : SettingTable) (k : String) (v : Setting) :
    (acc.overlayEntry (k, v)).get? k = some (entryValue (acc.subtable? k) v) := by
  unfold overlayEntry
  rw [get?_put, if_pos rfl]

/-- Entries of other keys leave a key's setting as it was. -/
theorem get?_foldl_overlayEntry_of_none {s : SettingTable} {k : String} (hk : s.get? k = none) :
    ∀ acc : SettingTable, (s.foldl overlayEntry acc).get? k = acc.get? k := by
  induction s with
  | nil => intro acc; rfl
  | cons e s ih =>
    intro acc
    obtain ⟨a, b⟩ := e
    have ha : a ≠ k := by
      rintro rfl
      simp [get?] at hk
    have hs : get? s k = none := by
      simpa [get?, List.lookup_cons, (by simpa using Ne.symm ha : (k == a) = false)] using hk
    rw [List.foldl_cons, ih hs, get?_overlayEntry_ne acc ha]

/-- The one entry of a key decides the key's setting after the entries are laid in turn. -/
theorem get?_foldl_overlayEntry {s : SettingTable} (hs : (s.map (·.1)).Nodup) {k : String}
    {v : Setting} (hk : s.get? k = some v) :
    ∀ acc : SettingTable, (s.foldl overlayEntry acc).get? k = some (entryValue (acc.subtable? k) v) := by
  induction s with
  | nil => simp [get?] at hk
  | cons e s ih =>
    intro acc
    obtain ⟨a, b⟩ := e
    rw [List.map_cons, List.nodup_cons] at hs
    rw [List.foldl_cons]
    by_cases ha : a = k
    · subst ha
      have hb : b = v := by simpa [get?] using hk
      subst hb
      have hrest : get? s a = none := by
        simp only [get?, List.lookup_eq_none_iff, bne_iff_ne]
        rintro p hp rfl
        exact hs.1 (List.mem_map.2 ⟨p, hp, rfl⟩)
      rw [get?_foldl_overlayEntry_of_none hrest, get?_overlayEntry_self]
    · have hs' : get? s k = some v := by
        simpa [get?, List.lookup_cons, (by simpa using Ne.symm ha : (k == a) = false)] using hk
      rw [ih hs.2 hs' _, subtable?_congr (get?_overlayEntry_ne acc ha)]

/-- A key's setting after an overlay: the source's, laid over what the destination had, or the
destination's when the source has none. -/
theorem get?_overlay {d s : SettingTable} (hs : (s.map (·.1)).Nodup) (k : String) :
    (overlay d s).get? k = ((s.get? k).map (entryValue (d.subtable? k))).or (d.get? k) := by
  rw [overlay_eq]
  cases hk : s.get? k with
  | none => simp [get?_foldl_overlayEntry_of_none hk]
  | some v => simp [get?_foldl_overlayEntry hs hk]

/-- Every table in a table, itself included, keeps each key once. -/
def KeysOnce (t : SettingTable) : Prop :=
  (t.map (·.1)).Nodup ∧ ∀ path sub, t.find? path = some (.table sub) → (sub.map (·.1)).Nodup

/-- Nothing is found in the empty table. -/
theorem find?_empty : ∀ path : List String, find? [] path = none
  | [] => rfl
  | [_] => rfl
  | _ :: _ :: _ => rfl

theorem find?_cons_cons (t : SettingTable) (k k' : String) (rest : List String) :
    t.find? (k :: k' :: rest) = (t.subtable? k).bind (·.find? (k' :: rest)) := rfl

theorem KeysOnce.sub {t sub : SettingTable} {k : String} (h : t.KeysOnce)
    (hk : t.subtable? k = some sub) : sub.KeysOnce := by
  refine ⟨h.2 [k] sub (get?_of_subtable? hk), fun path sub' hp => h.2 (k :: path) sub' ?_⟩
  cases path with
  | nil => cases hp
  | cons k' rest => rw [find?_cons_cons, hk]; exact hp

/-- A setting other than a table keyed by texts, found in an overlay, is the source's at that
path, or the destination's where the source has nothing. -/
theorem find?_overlay {v : Setting} (hv : v.isTable = false) :
    ∀ {path : List String} {d s : SettingTable}, s.KeysOnce → (overlay d s).find? path = some v →
      s.find? path = some v ∨ (s.find? path = none ∧ d.find? path = some v)
  | [], _, _, _, h => by cases h
  | [k], d, s, hs, h => by
    change (overlay d s).get? k = some v at h
    change s.get? k = some v ∨ (s.get? k = none ∧ d.get? k = some v)
    rw [get?_overlay hs.1] at h
    cases hk : s.get? k with
    | none => rw [hk] at h; exact .inr ⟨rfl, h⟩
    | some w =>
      rw [hk] at h
      -- a table of the source would have given a table
      cases w with
      | table sub =>
        cases hold : d.subtable? k <;> simp [hold, entryValue] at h <;> subst h <;> cases hv
      | leaf a => simpa [entryValue] using h
      | list a => simpa [entryValue] using h
      | keyed a => simpa [entryValue] using h
  | k :: k' :: rest, d, s, hs, h => by
    rw [find?_cons_cons] at h ⊢
    rw [find?_cons_cons]
    obtain ⟨e, he, hfind⟩ := Option.bind_eq_some_iff.1 h
    have hget := get?_of_subtable? he
    rw [get?_overlay hs.1] at hget
    cases hk : s.get? k with
    | none =>
      rw [hk] at hget
      rw [subtable?_eq_none hk, subtable?_of_get? hget]
      exact .inr ⟨rfl, hfind⟩
    | some w =>
      rw [hk] at hget
      cases w with
      | table sub =>
        have hsub : s.subtable? k = some sub := subtable?_of_get? hk
        rw [hsub]
        cases hold : d.subtable? k with
        | none =>
          simp only [hold, entryValue, Option.map_some, Option.some_or, Option.some.injEq,
            Setting.table.injEq] at hget
          subst hget
          exact .inl hfind
        | some o =>
          simp only [hold, entryValue, Option.map_some, Option.some_or, Option.some.injEq,
            Setting.table.injEq] at hget
          subst hget
          exact find?_overlay hv (hs.sub hsub) hfind
      | leaf a => simp [entryValue] at hget
      | list a => simp [entryValue] at hget
      | keyed a => simp [entryValue] at hget

theorem get?_erase (t : SettingTable) (k₀ k : String) :
    (t.erase k₀).get? k = if k = k₀ then none else t.get? k := by
  unfold erase get?
  induction t with
  | nil => simp
  | cons e t ih =>
    obtain ⟨a, b⟩ := e
    by_cases ha : a = k₀
    · rw [List.filter_cons_of_neg (by simp [ha]), ih]
      by_cases hk : k = k₀
      · rw [if_pos hk, if_pos hk]
      · rw [if_neg hk, if_neg hk, List.lookup_cons, (by simpa [ha] using hk : (k == a) = false)]
    · rw [List.filter_cons_of_pos (by simpa using ha), List.lookup_cons, List.lookup_cons, ih]
      by_cases hk : k = k₀
      · rw [if_pos hk, if_pos hk, (by simpa [hk] using Ne.symm ha : (k == a) = false)]
      · rw [if_neg hk, if_neg hk]

/-- What is found in a table with a key left out was found in the table. -/
theorem find?_erase {t : SettingTable} {k₀ : String} :
    ∀ {path : List String} {w : Setting}, (t.erase k₀).find? path = some w → t.find? path = some w
  | [], _, h => by cases h
  | [k], w, h => by
    change (t.erase k₀).get? k = some w at h
    change t.get? k = some w
    rw [get?_erase] at h
    split at h
    · cases h
    · exact h
  | k :: k' :: rest, w, h => by
    rw [find?_cons_cons] at h ⊢
    by_cases hk : k = k₀
    · rw [subtable?_eq_none (by rw [get?_erase, if_pos hk])] at h
      cases h
    · have hsub : (t.erase k₀).subtable? k = t.subtable? k :=
        subtable?_congr (by rw [get?_erase, if_neg hk])
      rwa [hsub] at h

theorem KeysOnce.erase {t : SettingTable} (h : t.KeysOnce) (k₀ : String) :
    (t.erase k₀).KeysOnce :=
  ⟨h.1.sublist (List.filter_sublist.map _), fun path sub hp => h.2 path sub (find?_erase hp)⟩

end SettingTable

end CycleSched
