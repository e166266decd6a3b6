import Blockwork.Proofs.Calls
import Mathlib.Algebra.Order.BigOperators.Group.List
import Mathlib.Algebra.Order.Ring.Nat
import Mathlib.Data.Finset.Card

/-!
Every slice ends when nothing is warp.

Each block has a cost: how many steps a slice can spend on it before the block is finished or the
slice ends.  A loop costs one turn, since it gives way after that.  A call costs the bodies it can
enter, and it can enter the body of a custom block only while that is not being run already; so the
cost of entering bodies is defined by recursion on the number of custom blocks that are not being
run (`enterCost`).  Every step that goes on lowers the total cost of the frames
(`Machine.step_cost`).
-/

namespace Blockwork

/-! ### Costs -/

/-- How many arguments a call passes. -/
def Operation.arity : Operation → Nat
  | .call d => d.params.length
  | _ => 0

mutual

/-- An upper bound for the steps that a block takes, where entering a body costs `e`. -/
def Block.cost (e : Nat) : Block → Nat
  | .mk p _ _ inputs => 3 + e + (3 + p.operation.arity) * (1 + Input.costs e inputs)

def Input.cost (e : Nat) : Input → Nat
  | .literal _ => 0
  | .block b => Block.cost e b
  | .stack bs => 1 + Block.costs e bs

def Block.costs (e : Nat) : List Block → Nat
  | [] => 0
  | b :: bs => 1 + Block.cost e b + Block.costs e bs

def Input.costs (e : Nat) : List (String × Input) → Nat
  | [] => 0
  | (_, i) :: rest => 1 + Input.cost e i + Input.costs e rest

end

/-- What it costs to enter a body while `k` custom blocks are not being run. -/
def enterCost (procedures : List Procedure) : Nat → Nat
  | 0 => 0
  | k + 1 =>
    (procedures.map fun p => p.body.elim 0 fun body =>
      Input.cost (enterCost procedures k) (.stack body)).sum

/-- How many custom blocks are not being run by the frames. -/
def idleCalls (ds : List Declaration) (frames : List Routine) : Nat :=
  ((ds.map (·.id)).toFinset \ ((frames.filterMap Routine.openCall?).map Prod.fst).toFinset).card

/-- An upper bound for the steps left to a routine, by the cost of entering a body from it and of
entering one more. -/
def Routine.cost (e e' : Nat) : Routine → Nat
  | .gather _ _ _ rest _ => 1 + Input.costs e rest
  | .relay => 1
  | .stack rest => 1 + Block.costs e rest
  | .repeatTimes b .start => 3 + (b.input "TIMES").cost e + (b.input "SUBSTACK").cost e
  | .repeatTimes b .count | .repeatTimes b (.body _) => 2 + (b.input "SUBSTACK").cost e
  | .repeatTimes _ (.pause _) => 1
  | .forever b false => 2 + (b.input "SUBSTACK").cost e
  | .forever _ true => 1
  | .branch b _ .test =>
    3 + (b.input "CONDITION").cost e + ((b.input "SUBSTACK").cost e + (b.input "SUBSTACK2").cost e)
  | .branch b _ .choose => 2 + ((b.input "SUBSTACK").cost e + (b.input "SUBSTACK2").cost e)
  | .branch _ _ .leave => 1
  | .repeatUntil b _ .test => 3 + (b.input "CONDITION").cost e + (b.input "SUBSTACK").cost e
  | .repeatUntil b _ .check => 2 + (b.input "SUBSTACK").cost e
  | .repeatUntil _ _ .body => 1
  | .call b _ (.arguments _ rest _) => 2 + e + (rest.map fun n => 1 + (b.input n).cost e).sum
  | .call _ _ (.enter _) => 2 + e + e'
  | .call _ _ .leave => 1
  | .ask _ | .askAtOnce _ | .fence _ => 0

/-- The total cost of frames. -/
def framesCost (ds : List Declaration) (procedures : List Procedure) : List Routine → Nat
  | [] => 0
  | r :: rest =>
    r.cost (enterCost procedures (idleCalls ds rest))
        (enterCost procedures (idleCalls ds rest + 1)) +
      framesCost ds procedures rest

/-! ### Blocks and inputs -/

theorem Input.cost_le_costs {e : Nat} {name : String} {i : Input} :
    ∀ {inputs : Table Input}, (name, i) ∈ inputs → i.cost e ≤ Input.costs e inputs
  | [], h => absurd h List.not_mem_nil
  | (n, j) :: rest, h => by
    rw [Input.costs]
    rcases List.mem_cons.mp h with h | h
    · cases h
      omega
    · have := cost_le_costs (e := e) h
      omega

theorem Block.cost_input_le (e : Nat) (b : Block) (name : String) :
    (b.input name).cost e ≤ Input.costs e b.inputs := by
  rw [Block.input]
  cases hg : Table.get? name b.inputs with
  | none => exact Nat.zero_le _
  | some i => exact Input.cost_le_costs (Table.mem_of_get? hg)

theorem Block.cost_eq (e : Nat) (b : Block) :
    b.cost e = 3 + e + (3 + b.operation.arity) * (1 + Input.costs e b.inputs) := by
  cases b
  rw [Block.cost]
  rfl

/-- A routine that has just been started costs at most what its block does. -/
theorem Block.cost_start {ds : List Declaration} {b : Block} (hb : b.Over ds) {r : Routine}
    (h : b.start = .ok r) (e e' : Nat) : r.cost e e' ≤ b.cost e := by
  have hcost := b.cost_eq e
  have hin := b.cost_input_le e
  have hthree : 3 * (1 + Input.costs e b.inputs) ≤
      (3 + b.operation.arity) * (1 + Input.costs e b.inputs) :=
    Nat.mul_le_mul_right _ (Nat.le_add_right ..)
  rw [Block.start] at h
  split at h
  · cases h
    rw [Routine.cost]
    omega
  · cases h
    have h₁ := hin "TIMES"
    have h₂ := hin "SUBSTACK"
    rw [Routine.cost]
    omega
  · cases h
    have h₁ := hin "SUBSTACK"
    rw [Routine.cost]
    omega
  · cases h
    have h₁ := hin "CONDITION"
    have h₂ := hin "SUBSTACK"
    have h₃ := hin "SUBSTACK2"
    rw [Routine.cost]
    omega
  · cases h
    have h₁ := hin "CONDITION"
    have h₂ := hin "SUBSTACK"
    rw [Routine.cost]
    omega
  · rename_i d hop
    cases h
    have hsum : (d.params.map fun n => 1 + (b.input n).cost e).sum ≤
        d.params.length * (1 + Input.costs e b.inputs) := by
      have hle := List.sum_le_card_nsmul (d.params.map fun n => 1 + (b.input n).cost e)
        (1 + Input.costs e b.inputs) fun x hx => by
          obtain ⟨n, -, rfl⟩ := List.mem_map.mp hx
          exact Nat.add_le_add_left (hin n) 1
      rw [List.length_map] at hle
      exact hle
    rw [hop, Operation.arity, Nat.add_mul] at hcost
    rw [Routine.cost]
    omega
  · rename_i hop
    have hk := hb.operation
    rw [hop] at hk
    cases hk
  · rename_i hop
    have hk := hb.operation
    rw [hop] at hk
    cases hk
  · cases h

theorem gather_cost {e : Nat} {name : String} {i : Input} {rest : Table Input} {args : Args} :
    ∀ {inputs : Table Input} {args₀ : Args}, gather inputs args₀ = .wants name i rest args →
      1 + i.cost e + Input.costs e rest ≤ Input.costs e inputs
  | [], _, h => by cases h
  | (n, .literal v) :: more, _, h => by
    rw [gather] at h
    have := gather_cost (e := e) h
    rw [Input.costs]
    omega
  | (n, .stack bs) :: more, _, h => by
    rw [gather] at h
    have := gather_cost (e := e) h
    rw [Input.costs]
    omega
  | (n, .block b) :: more, _, h => by
    cases h
    rw [Input.costs]

theorem passArguments_cost {e : Nat} {b : Block} {name : String} {i : Input} {rest : List String}
    {args : Args} :
    ∀ {names : List String} {args₀ : Args}, passArguments b names args₀ = .wants name i rest args →
      1 + i.cost e + (rest.map fun n => 1 + (b.input n).cost e).sum ≤
        (names.map fun n => 1 + (b.input n).cost e).sum
  | [], _, h => by cases h
  | n :: more, args₀, h => by
    rw [passArguments] at h
    rw [List.map_cons, List.sum_cons]
    split at h
    · have := passArguments_cost (e := e) h
      omega
    · cases h
      exact Nat.le_refl _

/-! ### Bodies -/

/-- A body is paid for by the cost of entering bodies. -/
theorem cost_body_le {s : Scene} {signature : String} {body : List Block}
    (h : s.bodyOf? signature = some body) (k : Nat) :
    Input.cost (enterCost s.procedures k) (.stack body) ≤ enterCost s.procedures (k + 1) := by
  obtain ⟨p, hp, hbody⟩ := Option.bind_eq_some_iff.mp h
  rw [enterCost]
  have hle := List.le_sum_of_mem (List.mem_map_of_mem
    (f := fun p : Procedure => p.body.elim 0 fun body =>
      Input.cost (enterCost s.procedures k) (.stack body)) (List.mem_of_find?_eq_some hp))
  rw [hbody] at hle
  exact hle

variable {ds : List Declaration}

theorem idleCalls_cons {r : Routine} (hr : r.openCall? = none) (rest : List Routine) :
    idleCalls ds (r :: rest) = idleCalls ds rest := by
  rw [idleCalls, List.filterMap_cons_none hr]
  rfl

/-- A call takes its custom block from the idle ones, or finds it being run already. -/
theorem idleCalls_leave {d : Declaration} (hd : d ∈ ds) (b : Block) (rest : List Routine) :
    idleCalls ds rest = idleCalls ds (.call b d .leave :: rest) + 1 ∨
      (idleCalls ds rest = idleCalls ds (.call b d .leave :: rest) ∧
        d.id ∈ (rest.filterMap Routine.openCall?).map Prod.fst) := by
  have hopen : (Routine.call b d .leave).openCall? = some (d.id, d.warp) := rfl
  rw [idleCalls, idleCalls, List.filterMap_cons_some hopen, List.map_cons, List.toFinset_cons,
    Finset.sdiff_insert]
  by_cases hmem : d.id ∈ (rest.filterMap Routine.openCall?).map Prod.fst
  · refine .inr ⟨?_, hmem⟩
    rw [Finset.erase_eq_of_notMem]
    intro h
    exact (Finset.mem_sdiff.mp h).2 (List.mem_toFinset.mpr hmem)
  · refine .inl ?_
    refine (Finset.card_erase_add_one ?_).symm
    refine Finset.mem_sdiff.mpr ⟨List.mem_toFinset.mpr (List.mem_map_of_mem hd), ?_⟩
    exact fun h => hmem (List.mem_toFinset.mp h)

/-! ### Steps -/

/-- What a step of the routine may still cost: a routine that asks for an evaluation pays for that
and for what it becomes. -/
def Flow.Paid (ds : List Declaration) (procedures : List Procedure) (flow : Flow) (r r' : Routine)
    (rest : List Routine) : Prop :=
  match flow with
  | .done _ => framesCost ds procedures rest < framesCost ds procedures (r :: rest)
  | .evaluate i =>
    i.cost (enterCost procedures (idleCalls ds (r' :: rest))) +
      framesCost ds procedures (r' :: rest) < framesCost ds procedures (r :: rest)
  | _ => True

theorem Routine.cost_pos {r : Routine} (hr : r.Over ds) (e e' : Nat) : 0 < r.cost e e' := by
  cases r with
  | gather | relay | stack => rw [cost]; omega
  | repeatTimes b phase => cases phase <;> rw [cost] <;> omega
  | forever b inBody => cases inBody <;> rw [cost] <;> omega
  | branch b hasElse phase => cases phase <;> rw [cost] <;> omega
  | repeatUntil b hasBody phase => cases phase <;> rw [cost] <;> omega
  | call b d phase => cases phase <;> rw [cost] <;> omega
  | ask | askAtOnce | fence => cases hr

theorem Flow.paid_done {procedures : List Procedure} {r : Routine} (hr : r.Over ds)
    (v : Value) (r' : Routine) (rest : List Routine) :
    (Flow.done v).Paid ds procedures r r' rest := by
  have hpos := r.cost_pos hr (enterCost procedures (idleCalls ds rest))
    (enterCost procedures (idleCalls ds rest + 1))
  simp only [Flow.Paid, framesCost]
  omega

/-- A routine that opens no call asks for less than it had. -/
theorem Flow.paid_evaluate {procedures : List Procedure} {r r' : Routine} {i : Input}
    {rest : List Routine} (hr' : r'.openCall? = none)
    (h : ∀ e e', i.cost e + r'.cost e e' < r.cost e e') :
    (Flow.evaluate i).Paid ds procedures r r' rest := by
  have hlt := h (enterCost procedures (idleCalls ds rest))
    (enterCost procedures (idleCalls ds rest + 1))
  simp only [Flow.Paid, framesCost, idleCalls_cons hr']
  omega

namespace Routine

/-- Entering a body is paid for by a call, whether its custom block is idle or being run already;
and with the arguments just there, only if it is idle. -/
theorem enterBody_paid {b : Block} {d : Declaration} (hd : d ∈ ds) {args : Args}
    {cx cx' : Context} {flow : Flow} {r r' : Routine} {rest : List Routine}
    (hcost : ∀ e e', 2 + e ≤ r.cost e e')
    (hopen : d.id ∈ (rest.filterMap openCall?).map Prod.fst → ∀ e e', 2 + e' ≤ r.cost e e')
    (h : enterBody b d args cx = (.ok (flow, r'), cx')) :
    flow.Paid ds cx.scene.procedures r r' rest := by
  rw [enterBody] at h
  split at h
  · cases h
  · rename_i body hbody
    cases h
    simp only [Flow.Paid, framesCost]
    have hleave : ∀ e e', (Routine.call b d .leave).cost e e' = 1 := fun _ _ => rfl
    have hbound := cost_body_le hbody (idleCalls ds (.call b d .leave :: rest))
    rw [hleave]
    rcases idleCalls_leave hd b rest with hidle | ⟨hidle, hmem⟩
    · rw [← hidle] at hbound
      have := hcost (enterCost cx.scene.procedures (idleCalls ds rest))
        (enterCost cx.scene.procedures (idleCalls ds rest + 1))
      omega
    · rw [← hidle] at hbound
      have := hopen hmem (enterCost cx.scene.procedures (idleCalls ds rest))
        (enterCost cx.scene.procedures (idleCalls ds rest + 1))
      rw [← hidle]
      omega

/-- A call that does not give way enters an idle custom block, since the guard would have made it
give way to one that is being run. -/
theorem guardCall_paid {b : Block} {d : Declaration} (hd : d ∈ ds) (hwarp : d.warp = false)
    {args : Args} {cx cx' : Context} {flow : Flow} {r r' : Routine} {rest : List Routine}
    (hc : cx.calls.Mirrors rest) (hcost : ∀ e e', 2 + e ≤ r.cost e e')
    (h : guardCall b d args cx = (.ok (flow, r'), cx')) :
    flow.Paid ds cx.scene.procedures r r' rest := by
  rw [guardCall] at h
  split at h
  · cases h
    trivial
  · rename_i hguard
    refine enterBody_paid hd hcost (fun hmem => absurd ?_ hguard) h
    rw [hwarp, Bool.not_false, Bool.true_and, CallStack.contains, List.any_eq_true]
    rw [← hc.calls, List.map_map] at hmem
    obtain ⟨c, hcmem, hid⟩ := List.mem_map.mp hmem
    exact ⟨c, hcmem, decide_eq_true hid⟩

/-- A loop pays for one turn. -/
theorem repeatBody_paid {procedures : List Procedure} {b : Block} {n : Int} {flow : Flow}
    {r r' : Routine} {rest : List Routine} (hr : r.Over ds)
    (hcost : ∀ e e', (b.input "SUBSTACK").cost e + 1 < r.cost e e')
    (h : repeatBody b n = (flow, r')) : flow.Paid ds procedures r r' rest := by
  rw [repeatBody] at h
  split at h
  · cases h
    exact Flow.paid_done hr _ _ rest
  · cases h
    exact Flow.paid_evaluate rfl hcost

/-- What the top routine asks for is paid for, if nothing is warp. -/
theorem resume_paid (hds : ∀ d ∈ ds, d.warp = false) {r r' : Routine} (hr : r.Over ds)
    {rest : List Routine} {v : Option Value} {cx cx' : Context} {flow : Flow}
    (hc : cx.calls.Mirrors (r :: rest)) (h : r.resume v cx = (.ok (flow, r'), cx')) :
    flow.Paid ds cx.scene.procedures r r' rest := by
  cases r with
  | gather b body waiting more args =>
    simp only [resume] at h
    split at h
    · rename_i hg
      cases h
      refine Flow.paid_evaluate rfl fun e e' => ?_
      have := gather_cost (e := e) hg
      simp only [cost]
      omega
    · split at h
      · rename_i hrun
        cases h
        have hplain := Body.isPlain_of_run hr.2.1 hrun
        cases flow with
        | done v => exact Flow.paid_done hr v _ rest
        | await | quit => trivial
        | evaluate | evaluateAtOnce | pause => cases hplain
      · cases h
  | relay =>
    cases h
    exact Flow.paid_done hr _ _ rest
  | stack more =>
    cases more with
    | nil =>
      cases h
      exact Flow.paid_done hr _ _ rest
    | cons b more =>
      cases h
      refine Flow.paid_evaluate rfl fun e e' => ?_
      simp only [cost, Input.cost, Block.costs]
      omega
  | repeatTimes b phase =>
    cases phase with
    | start =>
      cases h
      refine Flow.paid_evaluate rfl fun e e' => ?_
      simp only [cost]
      omega
    | count | body =>
      simp only [resume, Prod.mk.injEq, Except.ok.injEq] at h
      refine repeatBody_paid hr (fun e e' => ?_) h.1
      simp only [cost]
      omega
    | pause =>
      cases h
      trivial
  | forever b inBody =>
    cases inBody with
    | true =>
      cases h
      trivial
    | false =>
      cases h
      refine Flow.paid_evaluate rfl fun e e' => ?_
      simp only [cost]
      omega
  | branch b hasElse phase =>
    cases phase with
    | test =>
      cases h
      refine Flow.paid_evaluate rfl fun e e' => ?_
      simp only [cost]
      omega
    | choose =>
      simp only [resume] at h
      repeat' split at h
      · cases h
        refine Flow.paid_evaluate rfl fun e e' => ?_
        simp only [cost]
        omega
      · cases h
        refine Flow.paid_evaluate rfl fun e e' => ?_
        simp only [cost]
        omega
      · cases h
        exact Flow.paid_done hr _ _ rest
    | leave =>
      cases h
      exact Flow.paid_done hr _ _ rest
  | repeatUntil b hasBody phase =>
    cases phase with
    | test =>
      cases h
      refine Flow.paid_evaluate rfl fun e e' => ?_
      simp only [cost]
      omega
    | check =>
      simp only [resume] at h
      repeat' split at h
      · cases h
        exact Flow.paid_done hr _ _ rest
      · cases h
        refine Flow.paid_evaluate rfl fun e e' => ?_
        simp only [cost]
        omega
      · cases h
        trivial
    | body =>
      cases h
      trivial
  | call b d phase =>
    cases phase with
    | arguments waiting more args =>
      simp only [resume] at h
      split at h
      · rename_i hp
        cases h
        refine Flow.paid_evaluate rfl fun e e' => ?_
        have := passArguments_cost (e := e) hp
        simp only [cost]
        omega
      · refine guardCall_paid hr.2 (hds d hr.2) (hc.closed rfl) (fun e e' => ?_) h
        simp only [cost]
        omega
    | enter args =>
      refine enterBody_paid hr.2 (fun e e' => ?_) (fun _ e e' => ?_) h
      · simp only [cost]
        omega
      · simp only [cost]
        omega
    | leave =>
      cases h
      exact Flow.paid_done hr _ _ rest
  | ask | askAtOnce | fence => cases hr

end Routine

namespace Machine

/-- The total cost of the frames of a machine. -/
def cost (ds : List Declaration) (m : Machine) : Nat :=
  framesCost ds m.cx.scene.procedures m.stack.frames

theorem framesCost_evaluate {i : Input} (hi : i.Over ds) {frames : List Routine} {cx : Context}
    {m : Machine} (h : evaluate frames i cx = .next m) :
    m.cost ds ≤ i.cost (enterCost cx.scene.procedures (idleCalls ds frames)) +
      framesCost ds cx.scene.procedures frames := by
  cases hi with
  | literal v =>
    cases h
    exact Nat.le_add_left ..
  | @block b hb =>
    obtain ⟨r, hstart, -⟩ := hb.start
    simp only [evaluate, hstart] at h
    cases h
    exact Nat.add_le_add_right (Block.cost_start hb hstart _ _) _
  | @stack bs hbs =>
    cases bs with
    | nil =>
      cases h
      exact Nat.le_add_left ..
    | cons b bs =>
      cases h
      exact Nat.le_refl _

/-- If nothing is warp then no call is, and the machine is not in warp mode. -/
theorem Mirrored.warpDepth_eq_zero {m : Machine} (h : m.Mirrored) (hm : m.Over ds False)
    (hds : ∀ d ∈ ds, d.warp = false) : m.cx.calls.warpDepth = 0 := by
  rw [CallStack.Mirrors.warpDepth h, List.countP_eq_zero]
  intro c hc
  have hmem : (c.procedure, c.warp) ∈ m.stack.frames.filterMap Routine.openCall? := by
    rw [← CallStack.Mirrors.calls h]
    exact List.mem_map_of_mem hc
  obtain ⟨r, hr, hopen⟩ := List.mem_filterMap.mp hmem
  have hover := (hm.frames r hr).resolve_right fun hf => hf.1
  rw [Routine.openCall?.eq_def] at hopen
  split at hopen
  · simp only [Option.some.injEq, Prod.mk.injEq] at hopen
    rw [← hopen.2, hds _ hover.2]
    exact Bool.false_ne_true
  · cases hopen

/-- If nothing is warp, giving way ends the slice. -/
theorem Mirrored.follow_pause_ne_next {top : Routine} {rest : List Routine} {cx : Context}
    (h : Mirrored ⟨⟨top :: rest, none⟩, cx⟩) (hm : Machine.Over ds False ⟨⟨top :: rest, none⟩, cx⟩)
    (hds : ∀ d ∈ ds, d.warp = false) (m : Machine) : follow .pause top rest cx ≠ .next m := by
  intro heq
  have hdepth := h.warpDepth_eq_zero hm hds
  simp only at hdepth
  rw [follow, hdepth, if_neg (Nat.lt_irrefl 0)] at heq
  obtain ⟨result, hhalt, -⟩ := hm.suspend_eq .yielded "yielded"
  rw [hhalt] at heq
  cases heq

theorem cost_follow (hds : ∀ d ∈ ds, d.warp = false) {flow : Flow} {r r' : Routine}
    {rest : List Routine} {cx : Context} {m : Machine} (hflow : flow.Over ds)
    (hm : Machine.Over ds False ⟨⟨r' :: rest, none⟩, cx⟩) (hc : flow.Mirrors cx.calls r' rest)
    (hpaid : flow.Paid ds cx.scene.procedures r r' rest) (h : follow flow r' rest cx = .next m) :
    m.cost ds < framesCost ds cx.scene.procedures (r :: rest) := by
  have hsuspend : ∀ slice reason, suspend ⟨⟨r' :: rest, none⟩, cx⟩ slice reason ≠ .next m := by
    intro slice reason heq
    obtain ⟨result, hhalt, -⟩ := hm.suspend_eq slice reason
    rw [hhalt] at heq
    cases heq
  cases flow with
  | done v =>
    cases rest with
    | nil => cases h
    | cons r₁ rest =>
      cases h
      exact hpaid
  | evaluate i => exact Nat.lt_of_le_of_lt (framesCost_evaluate hflow h) hpaid
  | evaluateAtOnce i => cases hflow
  | pause =>
    have hmirrored : Mirrored ⟨⟨r' :: rest, none⟩, cx⟩ := hc
    exact absurd h (hmirrored.follow_pause_ne_next hm hds m)
  | await a => exact absurd h (hsuspend _ _)
  | quit => exact absurd h (hsuspend _ _)

/-- If nothing is warp, a step that goes on lowers the total cost. -/
theorem step_cost (hds : ∀ d ∈ ds, d.warp = false) {m m' : Machine} (hm : m.Over ds False)
    (hc : m.Mirrored) (h : m.step = .next m') : m'.cost ds < m.cost ds := by
  cases hframes : m.stack.frames with
  | nil =>
    rw [step, hframes] at h
    cases h
  | cons top rest =>
    obtain ⟨htop, hafter⟩ := hm.resume hframes
    rw [Mirrored, hframes] at hc
    cases hres : top.resume m.stack.resumed m.cx with
    | mk reply cx =>
      cases reply with
      | error e =>
        rw [step_of_error hframes hres] at h
        cases h
      | ok x =>
        obtain ⟨flow, top'⟩ := x
        obtain ⟨hflow, hover, hprocedures⟩ := hafter hres
        have hpaid := Routine.resume_paid hds htop hc hres
        rw [← hprocedures] at hpaid
        rw [step_of_ok hframes hres] at h
        have hlt := cost_follow hds hflow hover (Routine.resume_mirrors hc hres) hpaid h
        rw [hprocedures, ← hframes] at hlt
        exact hlt

/-- If nothing is warp, every slice ends, after at most as many steps as its frames cost. -/
theorem drive_isSome (hds : ∀ d ∈ ds, d.warp = false) :
    ∀ {n : Nat} {m : Machine}, m.Over ds False → m.Mirrored → m.cost ds ≤ n →
      (drive (n + 1) m).isSome = true
  | n, m, hm, hc, hn => by
    rw [drive]
    cases hstep : m.step with
    | halt result m' => rfl
    | next m' =>
      have hlt := step_cost hds hm hc hstep
      have hleads := leads_step hm
      rw [hstep] at hleads
      cases n with
      | zero => exact absurd (Nat.lt_of_lt_of_le hlt hn) (Nat.not_lt_zero _)
      | succ n =>
        exact drive_isSome hds hleads.1 (hc.next hstep)
          (Nat.le_of_lt_succ (Nat.lt_of_lt_of_le hlt hn))

end Machine

/-- If nothing is warp, every slice of every thread ends: whatever loops and recursive calls its
script and the bodies of the custom blocks hold, and on whatever scene it runs. -/
theorem slice_ends (ds : List Declaration) (hds : ∀ d ∈ ds, d.warp = false) {t : Thread}
    (ht : t.Arises ds) {w : World} (hw : w.scene.Over ds) :
    ∃ fuel, (Machine.drive fuel (t.machine w)).isSome = true ∧ (t.step fuel w).isSome = true := by
  obtain ⟨hover, hmirrored⟩ := ht.over_mirrored
  have hm : (t.machine w).Over ds False := ⟨fun r hr => .inl (hover.frames r hr), hw⟩
  have hdrive := Machine.drive_isSome hds hm hmirrored (Nat.le_refl _)
  refine ⟨_, hdrive, ?_⟩
  by_cases hr : t.status = .running
  · cases hknown : (w.scene.target? t.target).isNone with
    | true =>
      rw [Thread.step_of_unknown hr hknown]
      rfl
    | false =>
      rw [Thread.step_of_running hr hknown, Option.isSome_map]
      exact hdrive
  · rw [Thread.step_of_resting hr]
    rfl

/-- A custom block that calls itself. -/
def Declaration.endless : Declaration := ⟨"endless", "endless", [], false⟩

/-- Its call block. -/
def Block.endless : Block :=
  .mk { opcode := "endless", inputs := [], operation := .call .endless, returns := none,
        isPure := false, hat := none } "call" 0 []

theorem Block.endless_over : Block.endless.Over [.endless] :=
  .intro (.inr ⟨_, List.mem_singleton_self _, rfl⟩) fun _ he => absurd he List.not_mem_nil

/-- A scene that gives the custom block its body. -/
def Scene.endless : Scene :=
  { targets := [.stage], procedures := [⟨.endless, some [.endless]⟩] }

theorem Scene.endless_over : Scene.endless.Over [.endless] := by
  refine ⟨fun _ hx => absurd hx List.not_mem_nil, List.forall_mem_singleton.mpr ?_⟩
  rintro body ⟨⟩
  exact List.forall_mem_singleton.mpr Block.endless_over

/-- A thread whose script recurses for ever. -/
def Thread.endless : Thread := .launch 0 ⟨.endless, []⟩ 0 none

theorem slice_ends_endless :
    ∃ fuel, (Machine.drive fuel (Thread.endless.machine { scene := .endless })).isSome = true ∧
      (Thread.endless.step fuel { scene := .endless }).isSome = true := by
  refine slice_ends [.endless] ?_ (.launch 0 0 none ?_) Scene.endless_over
  · exact List.forall_mem_singleton.mpr rfl
  · exact List.forall_mem_singleton.mpr Block.endless_over

end Blockwork
