import CycleSched.Proofs.BroadcastPrecedence

/-!
# Setting a broadcast twice

A request that a table accepts writes the same entries whatever the table, so a second copy of
it rewrites every slot the first wrote, with the same values, each under a sequence number
exactly as many places further on as the request has writes (`entries_set_twice`). The numbers
of the other entries are all below those of the written ones, so lifting the written numbers
keeps every comparison between numbers (`shiftAbove_le_iff`), and resolving only compares them:
applying the request twice resolves every task at every point as applying it once.
-/

namespace CycleSched

open CycleSched.Graph

namespace Broadcasts

/-- Lifts the sequence numbers above `c` by `n`. -/
def shiftAbove (c : Int) (n : Nat) (e : BroadcastEntry) : BroadcastEntry :=
  if c < e.seq then { e with seq := e.seq + n } else e

@[simp] theorem slot_shiftAbove (c : Int) (n : Nat) (e : BroadcastEntry) :
    (shiftAbove c n e).slot = e.slot := by
  unfold shiftAbove
  split <;> rfl

@[simp] theorem unstamped_shiftAbove (c : Int) (n : Nat) (e : BroadcastEntry) :
    (shiftAbove c n e).unstamped = e.unstamped := by
  unfold shiftAbove
  split <;> rfl

@[simp] theorem key_shiftAbove (c : Int) (n : Nat) (e : BroadcastEntry) :
    (shiftAbove c n e).key = e.key := by
  unfold shiftAbove
  split <;> rfl

@[simp] theorem value_shiftAbove (c : Int) (n : Nat) (e : BroadcastEntry) :
    (shiftAbove c n e).value = e.value := by
  unfold shiftAbove
  split <;> rfl

@[simp] theorem point_shiftAbove (c : Int) (n : Nat) (e : BroadcastEntry) :
    (shiftAbove c n e).point = e.point := by
  unfold shiftAbove
  split <;> rfl

@[simp] theorem scope_shiftAbove (c : Int) (n : Nat) (e : BroadcastEntry) :
    (shiftAbove c n e).scope = e.scope := by
  unfold shiftAbove
  split <;> rfl

/-- Lifting the numbers above a bound keeps their order. -/
theorem shiftAbove_le_iff (c : Int) (n : Nat) (x y : BroadcastEntry) :
    (shiftAbove c n x).seq ≤ (shiftAbove c n y).seq ↔ x.seq ≤ y.seq := by
  unfold shiftAbove
  split <;> split <;> simp only <;> omega

/-! ## The entries -/

variable {wf : Workflow}

/-- A second run of the writes a table took rewrites the slots they wrote with the same values,
each numbered as many places further on as there are writes, and leaves the other slots. -/
theorem entries_set_twice {T : Broadcasts} (hT : T.Sound) (now now' : Instant)
    {ws : List BroadcastWrite} (hws : ∀ w ∈ ws, checkSetting w.key w.value = []) :
    (ws.foldl (write now') ((ws.foldl (write now) (T, [])).1, [])).1.entries =
      (ws.foldl (write now) (T, [])).1.entries.map (shiftAbove T.seq ws.length) := by
  set T₁ := (ws.foldl (write now) (T, [])).1 with hT₁
  have hseq : T₁.seq = T.seq + ws.length := seq_writes now ws T []
  have hT₁s : T₁.Sound := Sound.writes now hws [] hT
  refine eq_map_of_find? (slot_shiftAbove _ _) hT₁s.slots_nodup ?_ fun s => ?_
  · exact slots_writes_of_mem now' [] fun w hw => slot_mem_writes now T [] w hw
  · change (ws.foldl (write now') (T₁, [])).1.entryAt s = (T₁.entryAt s).map _
    rw [entryAt_writes, hseq, lastStamp_add, hT₁, entryAt_writes]
    cases hl : lastStamp ws T.seq s with
    | some e =>
      -- a slot the writes reached holds a number above the old counter
      have habove := (lastStamp_above hl).1
      simp only [Option.map_some, Option.some_or, shiftAbove, if_pos habove]
    | none =>
      -- any other slot holds an old entry, numbered at most the old counter
      simp only [Option.map_none, Option.none_or]
      cases he : T.entryAt s with
      | none => rfl
      | some e =>
        have hle := hT.seq_le e (List.mem_of_find?_eq_some he)
        simp only [Option.map_some, shiftAbove, if_neg (Int.not_lt.2 hle)]

/-! ## Resolving -/

/-- The broadcasts that apply in a table with lifted numbers are those of the table, lifted. -/
theorem applying_shiftAbove {b b' : Broadcasts} {c : Int} {n : Nat}
    (h : b'.entries = b.entries.map (shiftAbove c n)) (d : TaskDef) (pt : Point) :
    b'.applying d pt = (b.applying d pt).map fun m => (shiftAbove c n m.1, m.2) := by
  simp only [applying, h, List.filterMap_map, List.map_filterMap]
  congr 1
  funext e
  simp only [Function.comp_apply, point_shiftAbove, scope_shiftAbove]
  split
  · rfl
  · simp [Option.map_map, Function.comp_def]

/-- Writing a broadcast reads its key and value, not its number. -/
theorem overlaid_shiftAbove (d : TaskDef) (c : Int) (n : Nat)
    (ms : List (BroadcastEntry × Nat × Nat)) :
    overlaid d (ms.map fun m => (shiftAbove c n m.1, m.2)) = overlaid d ms := by
  simp only [overlaid, List.foldlM_map, key_shiftAbove, value_shiftAbove]

/-- Resolving only compares sequence numbers, so lifting those above a bound changes nothing. -/
theorem resolve_shiftAbove {b b' : Broadcasts} {c : Int} {n : Nat}
    (h : b'.entries = b.entries.map (shiftAbove c n)) (d : TaskDef) (pt : Point) :
    b'.resolve d pt = b.resolve d pt := by
  have horder : ∀ x ∈ b.applying d pt, ∀ y ∈ b.applying d pt, writtenNoLater x y =
      writtenNoLater (shiftAbove c n x.1, x.2) (shiftAbove c n y.1, y.2) := by
    intro x _ y _
    simp only [writtenNoLater, decide_eq_decide.2 (shiftAbove_le_iff c n x.1 y.1).symm]
  rw [resolve, resolve, applying_shiftAbove h, ← List.map_mergeSort horder]
  simp only [resolveIn, overlaid_shiftAbove]

/-- In a reachable table, a set request that the table accepts is accepted again by the table it
leaves, and making it a second time leaves the same entries apart from their sequence numbers and
resolves every task at every point as making it once. -/
theorem set_again {T T₁ : Broadcasts} {now : Instant} {points scopes : List String}
    {settings : List (String × String)} {out : List BroadcastEntry} (hT : T.Reachable wf)
    (h : T.set wf now points scopes settings = .ok (T₁, out)) (now' : Instant) :
    ∃ T₂ out₂, T₁.set wf now' points scopes settings = .ok (T₂, out₂) ∧
      T₂.entries.map BroadcastEntry.unstamped = T₁.entries.map BroadcastEntry.unstamped ∧
      ∀ d pt, T₂.resolve d pt = T₁.resolve d pt := by
  obtain ⟨ws, hws, hfold⟩ := set_eq_ok.1 h
  have hT₁ : (ws.foldl (write now) (T, [])).1 = T₁ := congrArg Prod.fst hfold
  -- the request is checked against the workflow alone, so the second table accepts it too
  refine ⟨_, _, set_eq_ok.2 ⟨ws, hws, rfl⟩, ?_⟩
  have hentries := entries_set_twice hT.sound now now' (writesFor_checked hws)
  rw [hT₁] at hentries
  refine ⟨?_, fun d pt => ?_⟩
  · rw [hentries, List.map_map]
    exact List.map_congr_left fun e _ => unstamped_shiftAbove _ _ e
  · exact resolve_shiftAbove hentries d pt

/-- Setting a broadcast is idempotent. From a reachable table, making a set request twice gives
the same entries apart from their sequence numbers as making it once, and resolves every task at
every point the same way; a refused request is refused alike. -/
theorem set_idempotent {T : Broadcasts} (hT : T.Reachable wf) (now now' : Instant)
    (points scopes : List String) (settings : List (String × String)) :
    (T.set wf now points scopes settings >>= fun r => r.1.set wf now' points scopes settings).map
        (·.1.entries.map BroadcastEntry.unstamped) =
      (T.set wf now points scopes settings).map (·.1.entries.map BroadcastEntry.unstamped) ∧
    ∀ d pt,
      (T.set wf now points scopes settings >>= fun r => r.1.set wf now' points scopes settings).map
        (·.1.resolve d pt) = (T.set wf now points scopes settings).map (·.1.resolve d pt) := by
  cases h : T.set wf now points scopes settings with
  | error e => exact ⟨rfl, fun _ _ => rfl⟩
  | ok r =>
    obtain ⟨T₂, out₂, h₂, hentries, hresolve⟩ := set_again hT h now'
    refine ⟨?_, fun d pt => ?_⟩
    · show Except.map _ (r.1.set wf now' points scopes settings) = _
      rw [h₂]
      exact congrArg Except.ok hentries
    · show Except.map _ (r.1.set wf now' points scopes settings) = _
      rw [h₂]
      exact congrArg Except.ok (hresolve d pt)

theorem set_idempotent_from_empty :
    ({} : Broadcasts).Reachable Proofs.pairWorkflow ∧
      ((({} : Broadcasts).set Proofs.pairWorkflow ⟨0, 0⟩ ["1"] ["a"] [("script", "true")] >>=
          fun r => r.1.set Proofs.pairWorkflow ⟨1, 0⟩ ["1"] ["a"] [("script", "true")]).map
        (·.1.entries.map BroadcastEntry.unstamped) =
      (({} : Broadcasts).set Proofs.pairWorkflow ⟨0, 0⟩ ["1"] ["a"] [("script", "true")]).map
        (·.1.entries.map BroadcastEntry.unstamped) ∧
      ∀ d pt,
        (({} : Broadcasts).set Proofs.pairWorkflow ⟨0, 0⟩ ["1"] ["a"] [("script", "true")] >>=
          fun r => r.1.set Proofs.pairWorkflow ⟨1, 0⟩ ["1"] ["a"] [("script", "true")]).map
          (·.1.resolve d pt) =
        (({} : Broadcasts).set Proofs.pairWorkflow ⟨0, 0⟩ ["1"] ["a"] [("script", "true")]).map
          (·.1.resolve d pt)) :=
  ⟨.empty, set_idempotent .empty ⟨0, 0⟩ ⟨1, 0⟩ ["1"] ["a"] [("script", "true")]⟩

end Broadcasts

end CycleSched
