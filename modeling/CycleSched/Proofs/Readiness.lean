import Mathlib.Data.List.Sublists
import CycleSched.Pool.Query
import CycleSched.Proofs.PoolOrder

/-!
# Which instances are ready

`Pool.ready` goes once through the live instances in pool order with a count of active jobs per
queue. An instance is taken when it is waiting, not held, past its retry time and forced or with
its prerequisites met (`TaskInstance.isReady`); a forced one is taken at once, any other only
when its clock trigger has come and its queue has room, and a taken instance of a queue counts
as one more job of it.

So the forced instances taken are all the ready ones, the other instances of queues without a
limit are all the eligible ones (`Pool.eligible`), and of a queue with a limit the first eligible
instances are taken, as many as the limit leaves beside the queue's active jobs
(`Pool.ready_selects`). In a pool the session reaches, these come in pool order
(`Pool.ready_in_order_exactly`).
-/

namespace CycleSched

namespace Pool

/-! ## The pass over the live instances -/

/-- The count of a queue in the counts `ready` keeps. -/
def queueCount (active : List (String × Nat)) (q : String) : Nat := (active.lookup q).getD 0

/-- One more job of a queue. -/
def bumpQueue (active : List (String × Nat)) (q : String) : List (String × Nat) :=
  (q, queueCount active q + 1) :: active.filter (·.1 != q)

/-- The limit of a queue; zero when none is set. -/
def queueLimit (p : Pool) (q : String) : Int := (p.wf.queues.lookup q).getD 0

/-- The counts of active jobs per queue that `ready` starts from. -/
def activeCounts (p : Pool) : List (String × Nat) :=
  p.tasks.foldl (fun active t =>
    if t.state.isActive && t.task.queue != "" then bumpQueue active t.task.queue else active) []

/-- What `ready` does with one instance. -/
def readyStep (p : Pool) (now : Instant) (acc : List (String × Nat) × List TaskInstance)
    (t : TaskInstance) : List (String × Nat) × List TaskInstance :=
  if !t.isReady now then acc
  else if t.forced then (acc.1, acc.2 ++ [t])
  else if !clockReady t now then acc
  else if t.task.queue == "" then (acc.1, acc.2 ++ [t])
  else if p.queueLimit t.task.queue > 0 &&
      (queueCount acc.1 t.task.queue : Int) ≥ p.queueLimit t.task.queue then acc
  else (bumpQueue acc.1 t.task.queue, acc.2 ++ [t])

theorem ready_eq_foldl (p : Pool) (now : Instant) :
    p.ready now = (p.tasks.foldl (p.readyStep now) (p.activeCounts, [])).2 := rfl

theorem lookup_filter_of_ne {a : List (String × Nat)} {q q' : String} (h : q' ≠ q) :
    (a.filter (·.1 != q)).lookup q' = a.lookup q' := by
  induction a with
  | nil => rfl
  | cons e a ih =>
    obtain ⟨k, n⟩ := e
    by_cases hk : k = q
    · subst hk
      have : (q' == k) = false := by simpa using h
      simp [List.lookup_cons, this, ih]
    · have : (k != q) = true := by simpa using hk
      simp only [List.filter_cons, this, if_true, List.lookup_cons, ih]

@[simp] theorem queueCount_bumpQueue (a : List (String × Nat)) (q q' : String) :
    queueCount (bumpQueue a q) q' = if q' = q then queueCount a q + 1 else queueCount a q' := by
  by_cases h : q' = q
  · subst h
    simp [queueCount, bumpQueue]
  · have hne : (q' == q) = false := by simpa using h
    simp [queueCount, bumpQueue, List.lookup_cons, hne, h, lookup_filter_of_ne h]

/-- The active jobs of a queue. -/
def activeIn (p : Pool) (q : String) : Nat :=
  (p.tasks.filter fun t => t.state.isActive && t.task.queue == q).length

theorem queueCount_activeCounts (p : Pool) {q : String} (hq : q ≠ "") :
    queueCount p.activeCounts q = p.activeIn q := by
  -- the count of `q` grows by one at each active instance of `q`, from nothing
  have hfold : ∀ (l : List TaskInstance) (a : List (String × Nat)),
      queueCount (l.foldl (fun active t => if t.state.isActive && t.task.queue != "" then
        bumpQueue active t.task.queue else active) a) q =
      queueCount a q + (l.filter fun t => t.state.isActive && t.task.queue == q).length := by
    intro l
    induction l with
    | nil => simp
    | cons t l ih =>
      intro a
      rw [List.foldl_cons, ih, List.filter_cons]
      by_cases hact : t.state.isActive = true <;> by_cases htq : t.task.queue = q
      · subst htq
        simp [hact, hq]
        omega
      · have : q ≠ t.task.queue := Ne.symm htq
        by_cases hn : t.task.queue = "" <;> simp [hact, htq, hn, this, hq]
      · simp [hact]
      · simp [hact]
  unfold activeCounts activeIn
  rw [hfold p.tasks []]
  simp [queueCount]

/-! ## What is taken -/

/-- An instance may run on its own account: ready, not forced, and its clock trigger has come. -/
def eligible (now : Instant) (t : TaskInstance) : Bool :=
  t.isReady now && !t.forced && clockReady t now

/-- A queue limits its jobs: it is named and has a positive limit. -/
def limits (p : Pool) (q : String) : Bool := q != "" && decide (0 < p.queueLimit q)

/-- The room a queue has beside its active jobs. -/
def room (p : Pool) (q : String) : Nat := (p.queueLimit q - p.activeIn q).toNat

/-- `out` takes from `l` what `ready` takes, with `r q` instances left to take in each queue `q`
with a limit: in the order of `l`, every ready forced instance, every eligible instance of a
queue without a limit, and of a queue with a limit its first `r q` eligible instances. -/
structure Selects (p : Pool) (now : Instant) (l : List TaskInstance) (r : String → Nat)
    (out : List TaskInstance) : Prop where
  sublist : out.Sublist l
  forced : out.filter (·.forced) = l.filter fun t => t.isReady now && t.forced
  unlimited : out.filter (fun t => !t.forced && !p.limits t.task.queue) =
    l.filter fun t => eligible now t && !p.limits t.task.queue
  limited : ∀ q, p.limits q = true → out.filter (fun t => !t.forced && t.task.queue == q) =
    (l.filter fun t => eligible now t && t.task.queue == q).take (r q)

namespace Selects

variable {p : Pool} {now : Instant} {l : List TaskInstance} {r r' : String → Nat}
  {out : List TaskInstance} {t : TaskInstance}

theorem nil : Selects p now [] r [] := ⟨List.Sublist.slnil, rfl, rfl, fun _ _ => by simp⟩

/-- Only the room of the queues with a limit counts. -/
theorem congr (h : Selects p now l r out) (hr : ∀ q, p.limits q = true → r q = r' q) :
    Selects p now l r' out :=
  ⟨h.sublist, h.forced, h.unlimited, fun q hq => by rw [h.limited q hq, hr q hq]⟩

/-- An instance neither ready and forced nor eligible is not taken. -/
theorem skip (h : Selects p now l r out) (hf : (t.isReady now && t.forced) = false)
    (he : eligible now t = false) : Selects p now (t :: l) r out :=
  ⟨h.sublist.cons t, by simp [h.forced, hf], by simp [h.unlimited, he],
    fun q hq => by simp [h.limited q hq, he]⟩

/-- A ready forced instance is taken, whatever its queue. -/
theorem forced_cons (h : Selects p now l r out) (hr : t.isReady now = true) (hf : t.forced = true) :
    Selects p now (t :: l) r (t :: out) := by
  have he : eligible now t = false := by simp [eligible, hf]
  exact ⟨h.sublist.cons_cons t, by simp [h.forced, hr, hf], by simp [h.unlimited, hf, he],
    fun q hq => by simp [h.limited q hq, hf, he]⟩

/-- An eligible instance of a queue without a limit is taken. -/
theorem unlimited_cons (h : Selects p now l r out) (he : eligible now t = true)
    (hl : p.limits t.task.queue = false) : Selects p now (t :: l) r (t :: out) := by
  have hf : t.forced = false := by simp_all [eligible]
  refine ⟨h.sublist.cons_cons t, by simp [h.forced, hf], by simp [h.unlimited, hf, he, hl], ?_⟩
  intro q hq
  -- a queue with a limit is another queue
  have hne : (t.task.queue == q) = false := by
    by_contra hc
    simp only [Bool.not_eq_false, beq_iff_eq] at hc
    rw [hc, hq] at hl
    exact Bool.noConfusion hl
  simp [h.limited q hq, hf, he, hne]

/-- An eligible instance of a queue with a limit and no room left is not taken. -/
theorem full (h : Selects p now l r out) (he : eligible now t = true)
    (hl : p.limits t.task.queue = true) (hfull : r t.task.queue = 0) :
    Selects p now (t :: l) r out := by
  have hf : t.forced = false := by simp_all [eligible]
  refine ⟨h.sublist.cons t, by simp [h.forced, hf], by simp [h.unlimited, hl], fun q hq => ?_⟩
  rw [h.limited q hq, List.filter_cons]
  by_cases hq' : t.task.queue = q
  · subst hq'
    simp [he, hfull]
  · simp [hq']

/-- An eligible instance of a queue with a limit and room is taken, and leaves one place less in
its queue. -/
theorem taken_cons (h : Selects p now l r' out) (he : eligible now t = true)
    (hl : p.limits t.task.queue = true) (hroom : r t.task.queue = r' t.task.queue + 1)
    (hother : ∀ q, q ≠ t.task.queue → r q = r' q) : Selects p now (t :: l) r (t :: out) := by
  have hf : t.forced = false := by simp_all [eligible]
  refine ⟨h.sublist.cons_cons t, by simp [h.forced, hf], by simp [h.unlimited, hf, hl], fun q hq => ?_⟩
  rw [List.filter_cons, List.filter_cons, h.limited q hq]
  by_cases hq' : t.task.queue = q
  · subst hq'
    simp [hf, he, hroom]
  · simp [hq', hother q (Ne.symm hq')]

end Selects

variable {p : Pool} {now : Instant}

/-- The room the counts `active` leave in a queue. -/
def roomLeft (p : Pool) (active : List (String × Nat)) (q : String) : Nat :=
  (p.queueLimit q - queueCount active q).toNat

/-- The pass from the counts `active` on takes what they leave room for. -/
theorem readyStep_foldl_selects (p : Pool) (now : Instant) (l : List TaskInstance) (active : List (String × Nat))
    (out : List TaskInstance) :
    ∃ new, (l.foldl (p.readyStep now) (active, out)).2 = out ++ new ∧
      Selects p now l (p.roomLeft active) new := by
  induction l generalizing active out with
  | nil => exact ⟨[], by simp, Selects.nil⟩
  | cons t l ih =>
    rw [List.foldl_cons]
    -- an instance not taken leaves the counts; one taken goes on from the counts it leaves
    have skip (hs : p.readyStep now (active, out) t = (active, out))
        (hsel : ∀ {new}, Selects p now l (p.roomLeft active) new →
          Selects p now (t :: l) (p.roomLeft active) new) :
        ∃ new, (l.foldl (p.readyStep now) (p.readyStep now (active, out) t)).2 = out ++ new ∧
          Selects p now (t :: l) (p.roomLeft active) new := by
      obtain ⟨new, hnew, h⟩ := ih active out
      exact ⟨new, by rw [hs, hnew], hsel h⟩
    have take {active' : List (String × Nat)}
        (hs : p.readyStep now (active, out) t = (active', out ++ [t]))
        (hsel : ∀ {new}, Selects p now l (p.roomLeft active') new →
          Selects p now (t :: l) (p.roomLeft active) (t :: new)) :
        ∃ new, (l.foldl (p.readyStep now) (p.readyStep now (active, out) t)).2 = out ++ new ∧
          Selects p now (t :: l) (p.roomLeft active) new := by
      obtain ⟨new, hnew, h⟩ := ih active' (out ++ [t])
      exact ⟨t :: new, by rw [hs, hnew]; simp, hsel h⟩
    by_cases hready : t.isReady now = true
    swap
    · exact skip (by simp [readyStep, hready]) fun h => h.skip (by simp [hready])
        (by simp [eligible, hready])
    by_cases hf : t.forced = true
    · exact take (by simp [readyStep, hready, hf]) fun h => h.forced_cons hready hf
    by_cases hclock : clockReady t now = true
    swap
    · exact skip (by simp [readyStep, hready, hf, hclock]) fun h => h.skip (by simp [hf])
        (by simp [eligible, hclock])
    have he : eligible now t = true := by simp [eligible, hready, hf, hclock]
    set q := t.task.queue with hq
    by_cases hnamed : q = ""
    · exact take (by simp [readyStep, hready, hf, hclock, ← hq, hnamed])
        fun h => h.unlimited_cons he (by simp [limits, ← hq, hnamed])
    by_cases hfull : p.queueLimit q > 0 ∧ (queueCount active q : Int) ≥ p.queueLimit q
    · refine skip (by simp [readyStep, hready, hf, hclock, ← hq, hnamed, hfull]) fun h => ?_
      exact h.full he (by simp [limits, ← hq, hnamed, hfull.1]) (by simp only [roomLeft, ← hq]; omega)
    -- taken: one more job of `q`, and one place less in it
    have hstep : p.readyStep now (active, out) t = (bumpQueue active q, out ++ [t]) := by
      have : ¬ (p.queueLimit q > 0 ∧ (queueCount active q : Int) ≥ p.queueLimit q) := hfull
      simp only [readyStep, hready, hf, hclock, ← hq, hnamed, Bool.not_true, Bool.false_eq_true,
        if_false, beq_iff_eq, decide_eq_true_eq, Bool.and_eq_true]
      simp only [gt_iff_lt, ge_iff_le] at this
      rw [if_neg this]
    have hother : ∀ q', q' ≠ q → p.roomLeft active q' = p.roomLeft (bumpQueue active q) q' := by
      intro q' hq'
      simp [roomLeft, hq']
    refine take hstep fun h => ?_
    by_cases hlim : 0 < p.queueLimit q
    · refine h.taken_cons he (by simp [limits, ← hq, hnamed, hlim]) ?_ hother
      simp only [roomLeft, queueCount_bumpQueue, if_true, ← hq]
      omega
    · -- a queue without a positive limit takes every eligible instance
      have hl : p.limits q = false := by simp [limits, hlim]
      refine (h.congr fun q' hq' => (hother q' fun he' => ?_).symm).unlimited_cons he hl
      rw [he', hl] at hq'
      exact Bool.noConfusion hq'

/-- `ready` takes, in pool order, every ready forced instance, every eligible instance of a queue
without a limit, and of a queue with a limit its first eligible instances, as many as the limit
leaves beside the queue's active jobs. -/
theorem ready_selects (p : Pool) (now : Instant) : Selects p now p.tasks p.room (p.ready now) := by
  obtain ⟨new, hnew, h⟩ := readyStep_foldl_selects p now p.tasks p.activeCounts []
  rw [ready_eq_foldl, hnew, List.nil_append]
  refine h.congr fun q hq => ?_
  have hnamed : q ≠ "" := by
    intro h'
    simp [limits, h'] at hq
  rw [room, roomLeft, queueCount_activeCounts p hnamed]

/-- Of a queue with a limit as many instances are taken as it has eligible ones, up to its room. -/
theorem Selects.length_limited {l out : List TaskInstance} {r : String → Nat}
    (h : Selects p now l r out) {q : String} (hq : p.limits q = true) :
    (out.filter fun t => !t.forced && t.task.queue == q).length =
      min (l.filter fun t => eligible now t && t.task.queue == q).length (r q) := by
  rw [h.limited q hq, List.length_take, Nat.min_comm]

/-- In every pool a run reaches, `ready` answers in pool order exactly the instances it may
submit now: every ready forced instance, every eligible instance of a queue without a limit,
and of a queue with a limit the first eligible ones, as many as the limit leaves beside the
queue's active jobs when there are that many. -/
theorem ready_in_order_exactly {wf : Graph.Workflow} {s : Session}
    (h : Proofs.Reaches wf (fun _ => True) s) (now : Instant) :
    ((s.pool.ready now).map (·.key)).Pairwise s.pool.ListedBefore ∧
      Selects s.pool now s.pool.tasks s.pool.room (s.pool.ready now) ∧
      ∀ q, s.pool.limits q = true →
        ((s.pool.ready now).filter fun t => !t.forced && t.task.queue == q).length =
          min (s.pool.tasks.filter fun t => eligible now t && t.task.queue == q).length
            (s.pool.room q) := by
  have hord : s.pool.Ordered :=
    liveInvariant_ordered.reaches (ordered_make wf) (fun s _ _ _ _ => restoresKeep_ordered s) h
  have hsel := ready_selects s.pool now
  exact ⟨List.Pairwise.sublist (hsel.sublist.map _) hord, hsel, fun q hq => hsel.length_limited hq⟩

end Pool

namespace Proofs

open Pool

/-- The started pair `R1: a => b` at the zero instant: `ready` answers its instances in pool
order, exactly those it may submit. -/
theorem started_pair_ready :
    Reaches pairWorkflow (fun _ => True) (started pairWorkflow none) ∧
      (((started pairWorkflow none).pool.ready .zero).map (·.key)).Pairwise
          (started pairWorkflow none).pool.ListedBefore ∧
        Selects (started pairWorkflow none).pool .zero (started pairWorkflow none).pool.tasks
          (started pairWorkflow none).pool.room ((started pairWorkflow none).pool.ready .zero) ∧
        ∀ q, (started pairWorkflow none).pool.limits q = true →
          (((started pairWorkflow none).pool.ready .zero).filter
              fun t => !t.forced && t.task.queue == q).length =
            min ((started pairWorkflow none).pool.tasks.filter
                fun t => eligible .zero t && t.task.queue == q).length
              ((started pairWorkflow none).pool.room q) :=
  have hreach : Reaches pairWorkflow (fun _ => True) (started pairWorkflow none) := ⟨none, .refl⟩
  ⟨hreach, ready_in_order_exactly hreach .zero⟩

end Proofs

end CycleSched
