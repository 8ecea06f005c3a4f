import CycleSched.Proofs.FlowBound
import CycleSched.Proofs.PlainSession
import CycleSched.Proofs.Refusals

/-!
# Commands keep flow numbers below the next flow

A flow option hands out flow numbers: `new` takes the next flow number and raises it by one,
once for the whole command, and a list of numbers raises it past each number it reads. The
counter is a 64-bit word, so a raise wraps when the number raised past is the largest word,
`maxFlow`. A command whose flow option lists no number that large, and that reads `new` only
while the next flow number is below it, raises the counter without wrapping
(`Pool.FlowsBelow.flowsFor`): every flow the option gives is then below the raised number.

Triggering and setting outputs create, update and run their targets in such flows, so they
keep every flow number the pool carries below its next flow number, raised as the option
raised it (`Pool.FlowsBelow.trigger`, `Pool.FlowsBelow.setOutputs`). Holding, releasing,
removing and expiring change no flow at all.
-/

namespace CycleSched

/-- The largest flow number: the largest 64-bit word. -/
def maxFlow : Int := 9223372036854775807

/-- The numbers a flow option lists, each as read from its text. -/
def listedFlows (opt : String) : List Int :=
  ((opt.toList.splitOn ',').map String.ofList).filterMap fun f =>
    (Text.readDecimal (Text.trimBlank f)).inRange?.map (·.toInt)

/-- A raise of the counter past a number below `maxFlow` does not wrap. -/
theorem bmod_succ_of_lt {x : Int} (h₀ : 0 ≤ x) (h : x < maxFlow) :
    Int.bmod (x + 1) (Nat.pow 2 64) = x + 1 := by
  have hpow : (Nat.pow 2 64 : Nat) = 18446744073709551616 := rfl
  rw [hpow]
  unfold maxFlow at h
  exact Int.bmod_eq_of_le_mul_two (by omega) (by omega)

namespace Pool

variable {n : Int} {p q : Pool} {t : TaskInstance}

/-- Raising the next flow number keeps every flow the pool carries below it. -/
theorem FlowsBelow.raise (hp : p.FlowsBelow n) {n' : Int} (hn : n ≤ n') :
    ({ p with nextFlow := n' } : Pool).FlowsBelow n' where
  next := rfl
  first := Int.lt_of_lt_of_le hp.first hn
  live t ht := (hp.live t ht).mono hn
  deferred e he := (hp.deferred e he).mono hn
  traces e he := (hp.traces e he).mono hn

/-- Raising the counter past a number below `maxFlow` leaves it above that number and at least
where it was, and changes nothing else. -/
theorem raise_past (q : Pool) {v : Int} (h₀ : 0 ≤ v) (hv : v < maxFlow) :
    let q' := if v ≥ q.nextFlow then { q with nextFlow := Int.bmod (v + 1) (Nat.pow 2 64) } else q
    q.nextFlow ≤ q'.nextFlow ∧ v < q'.nextFlow ∧ q' = { q with nextFlow := q'.nextFlow } := by
  intro q'
  by_cases hge : v ≥ q.nextFlow
  · have hq' : q' = { q with nextFlow := v + 1 } := by
      simp only [q', if_pos hge, bmod_succ_of_lt h₀ hv]
    rw [hq']
    exact ⟨by dsimp only; omega, by dsimp only; omega, rfl⟩
  · have hq' : q' = q := by simp only [q', if_neg hge]
    rw [hq']
    exact ⟨Int.le_refl _, by omega, rfl⟩

theorem with_nextFlow_of_eq (hq : q = { p with nextFlow := q.nextFlow }) (m : Int) :
    ({ q with nextFlow := m } : Pool) = { p with nextFlow := m } := by
  rw [hq]

/-- The option `new`: the flow it gave an earlier target, or the next flow number, which goes
up by one without wrapping while it is below `maxFlow`. -/
theorem FlowsBelow.flowsFor_new (hp : p.FlowsBelow n) (existing : FlowSet)
    {newFlow : Option Int} (hnew : ∀ m, newFlow = some m → m < n)
    (hfit : newFlow = none → n < maxFlow) :
    ∃ n', n ≤ n' ∧ (p.flowsFor "new" existing newFlow).1.FlowsBelow n' ∧
      (∀ m, (p.flowsFor "new" existing newFlow).2.1 = some m → m < n') ∧
      (∀ f, (p.flowsFor "new" existing newFlow).2.2 = .ok f → f.Below n') ∧
      (p.flowsFor "new" existing newFlow).2.1 ≠ none := by
  unfold Pool.flowsFor
  rw [if_neg (by decide), if_pos (by decide)]
  cases newFlow with
  | some m =>
    refine ⟨n, Int.le_refl n, hp, hnew, fun f hf => ?_, Option.some_ne_none m⟩
    cases hf
    exact FlowSet.below_ofList fun x hx => by
      rw [List.mem_singleton.1 hx]
      exact hnew m rfl
  | none =>
    have hn := hfit rfl
    have hfirst := hp.first
    have hraise : Int.bmod (p.nextFlow + 1) (Nat.pow 2 64) = n + 1 := by
      rw [hp.next]
      exact bmod_succ_of_lt (by omega) hn
    have hpos : (p.nextFlow == 0) = false := by
      rw [hp.next]
      simpa using (show n ≠ 0 by omega)
    refine ⟨n + 1, by omega, ?_, fun m hm => ?_, fun f hf => ?_, ?_⟩
    · dsimp only
      rw [hraise]
      exact hp.raise (by omega)
    · dsimp only at hm
      rw [hpos, if_neg Bool.false_ne_true] at hm
      cases hm
      rw [hp.next]
      omega
    · dsimp only at hf
      cases hf
      exact FlowSet.below_ofList fun x hx => by
        rw [List.mem_singleton.1 hx, hp.next]
        omega
    · dsimp only
      rw [hpos]
      exact Option.some_ne_none _

/-- A list of flow numbers: each one read raises the counter past it, so the numbers read are
below the raised counter, and the rest of the pool stays as it was. -/
theorem FlowsBelow.flowsFor_list (hp : p.FlowsBelow n) {opt : String} (existing : FlowSet)
    (newFlow : Option Int) (hall : (opt == "" || opt == "all") = false)
    (hnew : (opt == "new") = false) (hnone : (opt == "none") = false)
    (hlist : ∀ m ∈ listedFlows opt, m < maxFlow) :
    ∃ n', n ≤ n' ∧ (p.flowsFor opt existing newFlow).1.FlowsBelow n' ∧
      (p.flowsFor opt existing newFlow).2.1 = newFlow ∧
      (∀ f, (p.flowsFor opt existing newFlow).2.2 = .ok f → f.Below n') := by
  unfold Pool.flowsFor
  rw [if_neg (ne_true_of_eq_false hall), if_neg (ne_true_of_eq_false hnew),
    if_neg (ne_true_of_eq_false hnone)]
  dsimp only
  generalize hres : List.foldl _ (p, (Except.ok [] : Except Failure (List Int))) _ = res
  -- the fold only raises the counter, past every number it gathers
  have hfold : res.1 = { p with nextFlow := res.1.nextFlow } ∧ n ≤ res.1.nextFlow ∧
      ∀ nums, res.2 = .ok nums → ∀ x ∈ nums, x < res.1.nextFlow := by
    rw [← hres]
    refine List.foldlRecOn (motive := fun (acc : Pool × Except Failure (List Int)) =>
        acc.1 = { p with nextFlow := acc.1.nextFlow } ∧ n ≤ acc.1.nextFlow ∧
          ∀ nums, acc.2 = .ok nums → ∀ x ∈ nums, x < acc.1.nextFlow) _ _
      ⟨rfl, hp.next.symm ▸ Int.le_refl n, fun nums h x hx => by
        cases h
        exact absurd hx List.not_mem_nil⟩ ?_
    rintro ⟨q, r⟩ ⟨hq, hle, hnums⟩ f hf
    cases r with
    | error e => exact ⟨hq, hle, fun _ h => by cases h⟩
    | ok nums =>
      dsimp only at hq hle hnums ⊢
      split
      next v hv =>
        split
        · exact ⟨hq, hle, fun _ h => by cases h⟩
        next hpos =>
          have hlisted : v.toInt ∈ listedFlows opt :=
            List.mem_filterMap.2 ⟨f, hf, by rw [hv]; rfl⟩
          obtain ⟨hup, hpast, hq'⟩ := raise_past q (by omega) (hlist _ hlisted)
          refine ⟨hq'.trans (with_nextFlow_of_eq hq _), Int.le_trans hle hup,
            fun nums' h x hx => ?_⟩
          cases h
          rcases List.mem_append.1 hx with hx | hx
          · exact Int.lt_of_lt_of_le (hnums nums rfl x hx) hup
          · rw [List.mem_singleton.1 hx]
            exact hpast
      · exact ⟨hq, hle, fun _ h => by cases h⟩
  obtain ⟨q, r⟩ := res
  obtain ⟨hq, hle, hnums⟩ := hfold
  refine ⟨_, hle, ?_, rfl, fun f hf => ?_⟩
  · rw [hq]
    exact hp.raise hle
  · obtain ⟨nums, hr, rfl⟩ := Except.map_eq_ok_iff.1 hf
    exact FlowSet.below_ofList (hnums nums hr)

/-- Reading a flow option raises the next flow number from `n` without wrapping, when the
option lists no number as large as `maxFlow` and reads `new` only below it, and every flow it
gives is below the raised number: the flows of the instance or of the live ones, the flow
`new` gave to an earlier target, a new flow, none, or the numbers listed. -/
theorem FlowsBelow.flowsFor (hp : p.FlowsBelow n) {opt : String} {existing : FlowSet}
    {newFlow : Option Int} (hex : existing.Below n) (hnew : ∀ m, newFlow = some m → m < n)
    (hfit : opt = "new" → newFlow = none → n < maxFlow)
    (hlist : ∀ m ∈ listedFlows opt, m < maxFlow) :
    ∃ n', n ≤ n' ∧ (p.flowsFor opt existing newFlow).1.FlowsBelow n' ∧
      (∀ m, (p.flowsFor opt existing newFlow).2.1 = some m → m < n') ∧
      (∀ f, (p.flowsFor opt existing newFlow).2.2 = .ok f → f.Below n') ∧
      (opt = "new" → (p.flowsFor opt existing newFlow).2.1 ≠ none) := by
  -- the options are told apart in the order the reading tries them
  cases hall : (opt == "" || opt == "all")
  case true =>
    -- the instance's own flows, or those of the live instances
    unfold Pool.flowsFor
    rw [if_pos hall]
    refine ⟨n, Int.le_refl n, hp, hnew, fun f hf => ?_, fun hopt => ?_⟩
    · cases hf
      split
      · exact hp.activeFlows
      · exact hex
    · subst hopt
      exact absurd hall (by decide)
  cases hnew' : (opt == "new")
  case true =>
    have hopt : opt = "new" := beq_iff_eq.1 hnew'
    subst hopt
    obtain ⟨n', hle, hq, hnf, hf, hsome⟩ := hp.flowsFor_new existing hnew (hfit rfl)
    exact ⟨n', hle, hq, hnf, hf, fun _ => hsome⟩
  have hnot : opt ≠ "new" := fun h => by simp [h] at hnew'
  cases hnone : (opt == "none")
  case true =>
    unfold Pool.flowsFor
    rw [if_neg (ne_true_of_eq_false hall), if_neg (ne_true_of_eq_false hnew'), if_pos hnone]
    exact ⟨n, Int.le_refl n, hp, hnew, fun f hf => by cases hf; exact FlowSet.below_none n,
      fun h => absurd h hnot⟩
  obtain ⟨n', hle, hq, hnf, hf⟩ := hp.flowsFor_list existing newFlow hall hnew' hnone hlist
  rw [hnf]
  exact ⟨n', hle, hq, fun m hm => Int.lt_of_lt_of_le (hnew m hm) hle, hf, fun h => absurd h hnot⟩

/-! ## Triggering -/

/-- A created instance is in the flows it is created in. -/
theorem FlowsBelow.create (hp : p.FlowsBelow n) {d : Graph.TaskDef} {pt : Point}
    {flows : FlowSet} (hflows : flows.Below n) :
    (p.create d pt flows).1.FlowsBelow n ∧ (p.create d pt flows).2.flows.Below n := by
  unfold Pool.create
  dsimp only
  set q : Pool := { p with deferred := p.deferred.filter (·.1 != ⟨pt, d.name⟩) }
  have hq : q.FlowsBelow n :=
    ⟨hp.next, hp.first, hp.live, fun e he => hp.deferred e (List.mem_filter.1 he).1, hp.traces⟩
  have ht := (sameSpawn_satisfyFromHistory q
    (TaskInstance.make d pt p.wf.context.initial flows)).below hflows
  exact ⟨hq.insert ht, (hq.insert ht).live_getD ht⟩

/-- A triggered instance keeps its flows, whether it waits for them or not. -/
theorem FlowsBelow.triggered (hq : q.FlowsBelow n) (ht : t.flows.Below n) {t' : TaskInstance}
    (htrig : t.trigger = .ok t') (wait : Bool) :
    ((q.update { t' with flowWait := wait }).touch { t' with flowWait := wait }).FlowsBelow n :=
  have ht' : ({ t' with flowWait := wait } : TaskInstance).flows.Below n :=
    (TaskInstance.frame_trigger htrig).spawn.below ht
  (hq.update ht').touch ht'

/-- A command's sweep from a pool whose next flow number was `n₀` keeps the flows below a next
flow number raised from `n₀`, and, while a `new` option has not yet been read, below `maxFlow`;
a refused sweep leaves a pool whose flows are below a raised number too. -/
def SweepBelow (n₀ : Int) (flow : String) : Except (Pool × Failure) Sweep → Prop
  | .ok s => ∃ n, n₀ ≤ n ∧ s.pool.FlowsBelow n ∧ (∀ m, s.newFlow = some m → m < n) ∧
      (flow = "new" → s.newFlow = none → n < maxFlow)
  | .error (q, _) => ∃ n, n₀ ≤ n ∧ q.FlowsBelow n

/-- A sweep starts from the pool with nothing read. -/
theorem SweepBelow.start (hp : p.FlowsBelow n) {flow : String} (hfit : flow = "new" → n < maxFlow) :
    SweepBelow n flow (.ok { pool := p }) :=
  ⟨n, Int.le_refl n, hp, fun _ h => absurd h (Option.some_ne_none _).symm, fun h _ => hfit h⟩

/-- A sweep goes on from a flow option read, with `new` read if it was asked for. -/
theorem SweepBelow.next {n₀ n' : Int} {flow : String} {nf : Option Int} (hn : n₀ ≤ n')
    (hq : q.FlowsBelow n') (hnf : ∀ m, nf = some m → m < n') (hsome : flow = "new" → nf ≠ none)
    (done : List TaskInstance) : SweepBelow n₀ flow (.ok ⟨q, nf, done⟩) :=
  ⟨n', hn, hq, hnf, fun h hnone => absurd hnone (hsome h)⟩

/-- The pool a sweep answers has its flows below a next flow number raised from `n₀`. -/
theorem SweepBelow.answer {n₀ : Int} {flow : String} {acc : Except (Pool × Failure) Sweep}
    (h : SweepBelow n₀ flow acc) : ∃ n, n₀ ≤ n ∧ (Sweep.answer acc).1.FlowsBelow n := by
  cases acc with
  | ok s =>
    obtain ⟨n, hn, hs, -⟩ := h
    exact ⟨n, hn, hs⟩
  | error x =>
    obtain ⟨q, e⟩ := x
    exact h

variable {n₀ : Int} {flow : String}

/-- Reading the flow option in a sweep leaves the pool, the flow `new` gave and the flows read
below a next flow number raised from `n₀`. -/
theorem SweepBelow.flowsFor (hlist : ∀ m ∈ listedFlows flow, m < maxFlow) {s : Sweep}
    (hs : SweepBelow n₀ flow (.ok s)) (existing : FlowSet)
    (hex : ∀ n, n₀ ≤ n → s.pool.FlowsBelow n → existing.Below n) :
    ∃ n', n₀ ≤ n' ∧ (s.pool.flowsFor flow existing s.newFlow).1.FlowsBelow n' ∧
      (∀ m, (s.pool.flowsFor flow existing s.newFlow).2.1 = some m → m < n') ∧
      (∀ f, (s.pool.flowsFor flow existing s.newFlow).2.2 = .ok f → f.Below n') ∧
      (flow = "new" → (s.pool.flowsFor flow existing s.newFlow).2.1 ≠ none) := by
  obtain ⟨n, hn₀, hp, hnew, hfit⟩ := hs
  obtain ⟨n', hnn', hrest⟩ := hp.flowsFor (hex n hn₀ hp) hnew hfit hlist
  exact ⟨n', Int.le_trans hn₀ hnn', hrest⟩

/-- A live target of a trigger keeps its flows or takes those the option gives. -/
theorem triggerTarget_live_below {wait : Bool} (hlist : ∀ m ∈ listedFlows flow, m < maxFlow)
    {s : Sweep} (hacc : SweepBelow n₀ flow (.ok s)) {t : TaskInstance} (ht : t.flows.Below n₀) :
    SweepBelow n₀ flow (triggerTarget flow wait (.ok s) (.live t)) := by
  obtain ⟨n', hn₀', hq, hnf, hflows, hsome⟩ := hacc.flowsFor hlist
    ((s.pool.live? t.key).getD t).flows fun _ hn hp => hp.live_getD (ht.mono hn)
  rcases hff : s.pool.flowsFor flow ((s.pool.live? t.key).getD t).flows s.newFlow with
    ⟨q, nf, r⟩
  rw [hff] at hq hnf hflows hsome
  cases r with
  | error e =>
    have hr : triggerTarget flow wait (.ok s) (.live t) =
        .error (q, .rejected "trigger" e.message) := by
      simp only [triggerTarget, bind, Except.bind, hff]
      rfl
    rw [hr]
    exact ⟨n', hn₀', hq⟩
  | ok f =>
    set cur := (q.live? t.key).getD t
    set t' := if (flow != "" && flow != "all") = true then { cur with flows := f } else cur
    have ht' : t'.flows.Below n' := by
      simp only [t']
      split
      · exact hflows f rfl
      · exact hq.live_getD (ht.mono hn₀')
    cases htrig : t'.trigger with
    | error e =>
      have hr : triggerTarget flow wait (.ok s) (.live t) = .error (q.update t', e) := by
        simp only [triggerTarget, bind, Except.bind, pure, Except.pure, hff, t', cur, htrig]
        rfl
      rw [hr]
      exact ⟨n', hn₀', hq.update ht'⟩
    | ok t'' =>
      have hr : triggerTarget flow wait (.ok s) (.live t) =
          .ok ⟨((q.update t').update { t'' with flowWait := wait }).touch
            { t'' with flowWait := wait }, nf, s.done ++ [{ t'' with flowWait := wait }]⟩ := by
        simp only [triggerTarget, bind, Except.bind, pure, Except.pure, hff, t', cur, htrig]
      rw [hr]
      exact SweepBelow.next hn₀' ((hq.update ht').triggered ht' htrig wait) hnf hsome _

/-- An absent target of a trigger is created in the flows the option gives. -/
theorem triggerTarget_absent_below {wait : Bool} (hlist : ∀ m ∈ listedFlows flow, m < maxFlow)
    {s : Sweep} (hacc : SweepBelow n₀ flow (.ok s)) (d : Graph.TaskDef) (pt : Point) :
    SweepBelow n₀ flow (triggerTarget flow wait (.ok s) (.absent d pt)) := by
  obtain ⟨n', hn₀', hq, hnf, hflows, hsome⟩ :=
    hacc.flowsFor hlist FlowSet.none fun n _ _ => FlowSet.below_none n
  rcases hff : s.pool.flowsFor flow FlowSet.none s.newFlow with ⟨q, nf, r⟩
  rw [hff] at hq hnf hflows hsome
  cases r with
  | error e =>
    have hr : triggerTarget flow wait (.ok s) (.absent d pt) =
        .error (q, .rejected "trigger" e.message) := by
      simp only [triggerTarget, bind, Except.bind, hff]
      rfl
    rw [hr]
    exact ⟨n', hn₀', hq⟩
  | ok f =>
    obtain ⟨hc, hct⟩ : (q.create d pt f).1.FlowsBelow n' ∧ (q.create d pt f).2.flows.Below n' :=
      hq.create (hflows f rfl)
    cases htrig : (q.create d pt f).2.trigger with
    | error e =>
      have hr : triggerTarget flow wait (.ok s) (.absent d pt) =
          .error ((q.create d pt f).1, e) := by
        simp only [triggerTarget, bind, Except.bind, pure, Except.pure, hff, htrig]
        rfl
      rw [hr]
      exact ⟨n', hn₀', hc⟩
    | ok t'' =>
      have hr : triggerTarget flow wait (.ok s) (.absent d pt) =
          .ok ⟨((q.create d pt f).1.update { t'' with flowWait := wait }).touch
            { t'' with flowWait := wait }, nf, s.done ++ [{ t'' with flowWait := wait }]⟩ := by
        simp only [triggerTarget, bind, Except.bind, pure, Except.pure, hff, htrig]
      rw [hr]
      exact SweepBelow.next hn₀' (hc.triggered hct htrig wait) hnf hsome _

/-- One target of a trigger, when its instance's flows are below `n₀`, keeps the sweep below a
raised next flow number. -/
theorem triggerTarget_below {wait : Bool} (hlist : ∀ m ∈ listedFlows flow, m < maxFlow)
    {acc : Except (Pool × Failure) Sweep} (hacc : SweepBelow n₀ flow acc) (tg : Target)
    (htg : ∀ t, tg = .live t → t.flows.Below n₀) :
    SweepBelow n₀ flow (triggerTarget flow wait acc tg) := by
  cases acc with
  | error x => exact hacc
  | ok s =>
    cases tg with
    | live t => exact triggerTarget_live_below hlist hacc (htg t rfl)
    | absent d pt => exact triggerTarget_absent_below hlist hacc d pt

theorem foldl_triggerTarget_below {wait : Bool} (hlist : ∀ m ∈ listedFlows flow, m < maxFlow)
    (ts : List Target) (hts : ∀ t, Target.live t ∈ ts → t.flows.Below n₀) :
    ∀ acc, SweepBelow n₀ flow acc → SweepBelow n₀ flow (ts.foldl (triggerTarget flow wait) acc) := by
  induction ts with
  | nil => exact fun _ h => h
  | cons tg ts ih =>
    intro acc hacc
    exact ih (fun t ht => hts t (List.mem_cons_of_mem _ ht)) _
      (triggerTarget_below hlist hacc tg fun t h => hts t (h ▸ List.mem_cons_self))

/-- A trigger whose flow option lists no number as large as `maxFlow`, and reads `new` only
below it, keeps the flows below the next flow number it raises. -/
theorem FlowsBelow.trigger (hp : p.FlowsBelow n) {patterns : List String} {wait : Bool}
    (hfit : flow = "new" → n < maxFlow) (hlist : ∀ m ∈ listedFlows flow, m < maxFlow) :
    ∃ n', n ≤ n' ∧ (p.trigger patterns flow wait).1.FlowsBelow n' := by
  rw [trigger_eq]
  rcases hts : p.targets "trigger" patterns with e | ts
  · exact ⟨n, Int.le_refl n, hp⟩
  dsimp only
  cases ts.findSome? busyTarget with
  | some t => exact ⟨n, Int.le_refl n, hp⟩
  | none =>
    -- the live targets are instances of the pool
    have hlive : ∀ t, Target.live t ∈ ts → t.flows.Below n :=
      fun t ht => hp.live t (mem_select (mem_targets_live hts ht))
    exact (foldl_triggerTarget_below hlist ts hlive _ (SweepBelow.start hp hfit)).answer

/-! ## Setting outputs -/

/-- One target of setting outputs: the live instance, or one created in the flows the flow
option gives, emits the outputs, which are then acted on. -/
def setTarget (outputs : List String) (flow : String) (now : Instant)
    (acc : Except (Pool × Failure) Sweep) (tg : Target) : Except (Pool × Failure) Sweep := do
  let s ← acc
  let (p, newFlow, t) ← match tg with
    | .live t => pure (s.pool, s.newFlow, (s.pool.live? t.key).getD t)
    | .absent d pt =>
      let (p, newFlow, flows) := s.pool.flowsFor flow FlowSet.none s.newFlow
      match flows with
      | .ok flows => let (p, t) := p.create d pt flows; pure (p, newFlow, t)
      | .error e => throw (p, .rejected "set" e.message)
  let names := if outputs.isEmpty then requiredOutputs t.task else outputs
  let (t, emitted) := t.setOutputs names now
  let p := p.update t
  let emitted ← match emitted with
    | .ok o => pure o
    | .error e => throw (p, .rejected "set" e.message)
  return { pool := p.processOutputs t emitted, newFlow, done := s.done ++ [t] }

/-- Setting outputs leaves the pool when it refuses up front, and otherwise answers what its
sweep over the targets leaves. -/
theorem setOutputs_cases (p : Pool) (patterns outputs : List String) (flow : String)
    (now : Instant) :
    (p.setOutputs patterns outputs flow now).1 = p ∨ ∃ ts, p.targets "set" patterns = .ok ts ∧
      p.setOutputs patterns outputs flow now =
        Sweep.answer (ts.foldl (setTarget outputs flow now) (.ok { pool := p })) := by
  unfold setOutputs
  rcases hts : p.targets "set" patterns with e | ts
  · exact .inl rfl
  · dsimp only
    -- an output that a target's task does not declare refuses the command up front
    generalize List.findSome? _ ts = undeclared
    cases undeclared with
    | some x => exact .inl rfl
    | none => exact .inr ⟨ts, rfl, rfl⟩

/-- The instance a target of setting outputs acts on, with its outputs set, and the outputs
it then emits keep the flows of the pool it is put in. -/
theorem FlowsBelow.setOn (hq : q.FlowsBelow n) (ht : t.flows.Below n) (names : List String)
    (now : Instant) :
    (q.update (t.setOutputs names now).1).FlowsBelow n ∧
      ∀ o, ((q.update (t.setOutputs names now).1).processOutputs (t.setOutputs names now).1
        o).FlowsBelow n := by
  have ht' := (TaskInstance.frame_setOutputs t names now).spawn.below ht
  exact ⟨hq.update ht', fun o => (hq.update ht').processOutputs ht' o⟩

/-- One target of setting outputs, when its instance's flows are below `n₀`, keeps the sweep
below a raised next flow number. -/
theorem setTarget_below {outputs : List String} {now : Instant}
    (hlist : ∀ m ∈ listedFlows flow, m < maxFlow) {acc : Except (Pool × Failure) Sweep}
    (hacc : SweepBelow n₀ flow acc) (tg : Target) (htg : ∀ t, tg = .live t → t.flows.Below n₀) :
    SweepBelow n₀ flow (setTarget outputs flow now acc tg) := by
  cases acc with
  | error x => exact hacc
  | ok s =>
    -- the outputs set on an instance in flows below `m`, from a sweep state below `m`
    have hset : ∀ (q : Pool) (m : Int) (nf : Option Int) (t : TaskInstance), n₀ ≤ m →
        q.FlowsBelow m → t.flows.Below m → (∀ x, nf = some x → x < m) →
        (flow = "new" → nf = none → m < maxFlow) →
        SweepBelow n₀ flow (do
          let names := if outputs.isEmpty then requiredOutputs t.task else outputs
          let (t, emitted) := t.setOutputs names now
          let p := q.update t
          let emitted ← match emitted with
            | .ok o => pure o
            | .error e => throw (p, .rejected "set" e.message)
          return { pool := p.processOutputs t emitted, newFlow := nf, done := s.done ++ [t] }) := by
      intro q m nf t hm hq ht hnf hfit'
      obtain ⟨hupd, hproc⟩ := hq.setOn ht (if outputs.isEmpty then requiredOutputs t.task else outputs)
        now
      dsimp only
      split
      · exact ⟨m, hm, hproc _, hnf, hfit'⟩
      · exact ⟨m, hm, hupd⟩
    cases tg with
    | live t =>
      obtain ⟨n, hn₀, hs, hnew, hfit⟩ := hacc
      exact hset s.pool n s.newFlow _ hn₀ hs (hs.live_getD ((htg t rfl).mono hn₀)) hnew hfit
    | absent d pt =>
      -- the instance is created in the flows the option gives
      obtain ⟨n', hn₀', hq, hnf, hflows, hsome⟩ :=
        hacc.flowsFor hlist FlowSet.none fun n _ _ => FlowSet.below_none n
      rcases hff : s.pool.flowsFor flow FlowSet.none s.newFlow with ⟨q, nf, r⟩
      rw [hff] at hq hnf hflows hsome
      cases r with
      | error e =>
        have hr : setTarget outputs flow now (.ok s) (.absent d pt) =
            .error (q, .rejected "set" e.message) := by
          simp only [setTarget, bind, Except.bind, hff]
          rfl
        rw [hr]
        exact ⟨n', hn₀', hq⟩
      | ok f =>
        obtain ⟨hc, hct⟩ : (q.create d pt f).1.FlowsBelow n' ∧ (q.create d pt f).2.flows.Below n' :=
          hq.create (hflows f rfl)
        have hr := hset (q.create d pt f).1 n' nf (q.create d pt f).2 hn₀' hc hct hnf
          (fun h hnone => absurd hnone (hsome h))
        simp only [setTarget, bind, Except.bind, pure, Except.pure, hff]
        exact hr

theorem foldl_setTarget_below {outputs : List String} {now : Instant}
    (hlist : ∀ m ∈ listedFlows flow, m < maxFlow) (ts : List Target)
    (hts : ∀ t, Target.live t ∈ ts → t.flows.Below n₀) :
    ∀ acc, SweepBelow n₀ flow acc →
      SweepBelow n₀ flow (ts.foldl (setTarget outputs flow now) acc) := by
  induction ts with
  | nil => exact fun _ h => h
  | cons tg ts ih =>
    intro acc hacc
    exact ih (fun t ht => hts t (List.mem_cons_of_mem _ ht)) _
      (setTarget_below hlist hacc tg fun t h => hts t (h ▸ List.mem_cons_self))

/-- Setting outputs with a flow option that lists no number as large as `maxFlow`, and reads
`new` only below it, keeps the flows below the next flow number it raises. -/
theorem FlowsBelow.setOutputs (hp : p.FlowsBelow n) {patterns outputs : List String}
    {now : Instant} (hfit : flow = "new" → n < maxFlow)
    (hlist : ∀ m ∈ listedFlows flow, m < maxFlow) :
    ∃ n', n ≤ n' ∧ (p.setOutputs patterns outputs flow now).1.FlowsBelow n' := by
  rcases setOutputs_cases p patterns outputs flow now with h | ⟨ts, hts, h⟩
  · rw [h]
    exact ⟨n, Int.le_refl n, hp⟩
  · rw [h]
    have hlive : ∀ t, Target.live t ∈ ts → t.flows.Below n :=
      fun t ht => hp.live t (mem_select (mem_targets_live hts ht))
    exact (foldl_setTarget_below hlist ts hlive _ (SweepBelow.start hp hfit)).answer

/-! ## Commands that change no flow -/

theorem FlowsBelow.setHeld (hp : p.FlowsBelow n) (ht : t.flows.Below n) (held : Bool) :
    (p.setHeld t held).FlowsBelow n := by
  unfold Pool.setHeld
  split
  · exact hp
  · exact (hp.update (t := { t with held }) ht).touch ht

/-- Holding or releasing selected instances keeps the flows. -/
theorem FlowsBelow.setHeld_selected (hp : p.FlowsBelow n) (patterns : List String)
    (held : Bool) : ((p.select patterns).1.foldl (fun q t => q.setHeld t held) p).FlowsBelow n :=
  FlowsBelow.foldlPool _ (fun _ u hu hq => hq.setHeld (hp.live u (mem_select hu)) held) hp

theorem FlowsBelow.hold (hp : p.FlowsBelow n) {patterns : List String} {k : Nat}
    (h : p.hold patterns = .ok (q, k)) : q.FlowsBelow n := by
  unfold Pool.hold at h
  dsimp only at h
  split at h
  · cases h
  · cases Except.ok.inj h
    -- holds of instances not yet spawned only grow the list of holds
    exact FlowsBelow.foldlPool _ (fun _ _ _ hq => by
      split
      · exact hq
      · exact hq.of_parts rfl rfl rfl rfl) (hp.setHeld_selected patterns true)

theorem FlowsBelow.release (hp : p.FlowsBelow n) {patterns : List String} {k : Nat}
    (h : p.release patterns = .ok (q, k)) : q.FlowsBelow n := by
  unfold Pool.release at h
  dsimp only at h
  split at h
  · cases h
  · cases Except.ok.inj h
    refine FlowsBelow.foldlPool _ (fun _ u hu hq => hq.setHeld (hp.live u (mem_select hu)) false) ?_
    -- dropping holds of instances not yet spawned changes only the list of holds
    refine FlowsBelow.foldl Prod.fst _ (fun x _ _ hx => ?_) (p, 0) hp
    split
    · split
      · exact hx.of_parts rfl rfl rfl rfl
      · exact hx
    · exact hx

theorem FlowsBelow.setHoldPoint (hp : p.FlowsBelow n) (pt : Point) :
    (p.setHoldPoint pt).FlowsBelow n := by
  unfold Pool.setHoldPoint
  dsimp only
  refine FlowsBelow.foldlPool _ (fun _ u hu hq => ?_) (hp.of_parts rfl rfl rfl rfl)
  split
  · exact hq.setHeld (hp.live u hu) true
  · exact hq

theorem FlowsBelow.releaseHoldPoint (hp : p.FlowsBelow n) : p.releaseHoldPoint.FlowsBelow n := by
  unfold Pool.releaseHoldPoint
  dsimp only
  exact FlowsBelow.foldlPool _ (fun _ u hu hq => hq.setHeld (hp.live u hu) false)
    (hp.of_parts rfl rfl rfl rfl)

theorem FlowsBelow.setStopPoint (hp : p.FlowsBelow n) (pt : Point) :
    (p.setStopPoint pt).FlowsBelow n :=
  hp.of_parts rfl rfl rfl rfl

theorem FlowsBelow.removeMatching (hp : p.FlowsBelow n) {patterns : List String} {k : Nat}
    (h : p.removeMatching patterns = .ok (q, k)) : q.FlowsBelow n := by
  unfold Pool.removeMatching at h
  dsimp only at h
  split at h
  · cases h
  · split at h
    · cases h
    · cases Except.ok.inj h
      exact FlowsBelow.foldlPool _ (fun _ u hu hq => hq.remove (hp.live u (mem_select hu))) hp

/-- Expiring instances moves them to expired and processes the output. -/
theorem FlowsBelow.expireTasks (hp : p.FlowsBelow n) (now : Instant) :
    (p.expireTasks now).1.FlowsBelow n := by
  unfold Pool.expireTasks
  refine FlowsBelow.foldlPool _ (fun q u hu hq => ?_) hp
  have hu := hq.live_getD (k := u.key) (hp.live u (List.mem_filter.1 hu).1)
  dsimp only
  split
  next u' outs hexp => exact hq.processOutputs ((TaskInstance.frame_expire hexp).spawn.below hu) outs
  next => exact hq

end Pool

end CycleSched
