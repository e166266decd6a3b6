import Blockwork.Proofs.CallFrames

/-!
Recursion takes a slice for every level.

A call of a custom block that is being run already gives way at its guard, and enters the body when it
is resumed.  If nothing is warp, giving way ends the slice, so a call that has passed its guard stands
on top of the frames when a slice begins, and nowhere at any other time.  Hence a slice can re-enter a
custom block only with its first step, and only after a slice that ended at that guard.

The depth of the calls is bounded by what they can still reach without re-entering anything: one call
for every custom block that is not being run (`CallStack.reach`).  Entering an idle block leaves that as
it is, leaving a block can only lower it, and a re-entry raises it by one.
-/

namespace Blockwork

variable {ds : List Declaration}

/-! ### Re-entries -/

namespace Machine

/-- The call that the next step enters. -/
def entered? (m : Machine) : Option Call :=
  if m.cx.calls.depth < m.step.machine.cx.calls.depth then m.step.machine.cx.calls.top? else none

/-- The next step enters a custom block that is being run already. -/
def reenters (m : Machine) : Bool := m.entered?.any fun c => m.cx.calls.contains c.procedure

/-- How often a slice enters custom blocks that are being run already. -/
def reentries : Nat → Machine → Nat
  | 0, _ => 0
  | fuel + 1, m =>
    m.reenters.toNat +
      match m.step with
      | .next m' => reentries fuel m'
      | .halt .. => 0

end Machine

/-! ### The depth of the calls -/

/-- The ids of the custom blocks that are declared. -/
def Scene.procedureIds (s : Scene) : Finset String := (s.procedures.map (·.declaration.id)).toFinset

namespace CallStack

/-- How deep the calls can get without a re-entry: each custom block that is not being run can still be
entered. -/
def reach (ids : Finset String) (s : CallStack) : Nat :=
  s.depth + (ids \ (s.calls.map (·.procedure)).toFinset).card

variable {ids : Finset String} {s : CallStack} {c : Call}

theorem depth_le_reach (ids : Finset String) (s : CallStack) : s.depth ≤ s.reach ids :=
  Nat.le_add_right ..

theorem reach_le (ids : Finset String) (s : CallStack) : s.reach ids ≤ s.depth + ids.card :=
  Nat.add_le_add_left (Finset.card_le_card Finset.sdiff_subset) _

theorem contains_iff {procedure : String} :
    s.contains procedure = true ↔ procedure ∈ (s.calls.map (·.procedure)).toFinset := by
  rw [contains, List.any_eq_true, List.mem_toFinset, List.mem_map]
  exact exists_congr fun c => and_congr_right fun _ => decide_eq_true_iff

theorem reach_push (ids : Finset String) (c : Call) (s : CallStack) :
    (s.push c).reach ids =
      s.depth + 1 + ((ids \ (s.calls.map (·.procedure)).toFinset).erase c.procedure).card := by
  rw [← Finset.sdiff_insert, ← List.toFinset_cons]
  rfl

/-- A re-entry goes one deeper than what could be reached. -/
theorem reach_push_of_contains (h : s.contains c.procedure = true) :
    (s.push c).reach ids = s.reach ids + 1 := by
  have hnot : c.procedure ∉ ids \ (s.calls.map (·.procedure)).toFinset :=
    fun hmem => (Finset.mem_sdiff.mp hmem).2 (contains_iff.mp h)
  rw [reach_push, Finset.erase_eq_of_notMem hnot, reach]
  omega

/-- Entering a custom block that is not being run is one of the calls that could be reached. -/
theorem reach_push_of_new (hc : c.procedure ∈ ids) (h : s.contains c.procedure = false) :
    (s.push c).reach ids = s.reach ids := by
  have hmem : c.procedure ∈ ids \ (s.calls.map (·.procedure)).toFinset := by
    refine Finset.mem_sdiff.mpr ⟨hc, fun hin => ?_⟩
    rw [contains_iff.mpr hin] at h
    cases h
  rw [reach_push, reach, ← Finset.card_erase_add_one hmem]
  omega

theorem depth_pop_le (s : CallStack) : s.pop.2.depth ≤ s.depth := by
  rw [pop]
  split
  · exact Nat.le_refl _
  · rename_i hs
    rw [depth, depth, hs]
    exact Nat.le_succ _

/-- Leaving a custom block makes room for at most one call of it. -/
theorem reach_pop (ids : Finset String) (s : CallStack) : s.pop.2.reach ids ≤ s.reach ids := by
  cases hs : s.calls with
  | nil => rw [pop, hs]
  | cons c rest =>
    have hle := Finset.pred_card_le_card_erase (s := ids \ (rest.map (·.procedure)).toFinset)
      (a := c.procedure)
    rw [← Finset.sdiff_insert, ← List.toFinset_cons] at hle
    simp only [pop, reach, depth, hs, List.length_cons, List.map_cons]
    omega

end CallStack

/-! ### Calls that are about to enter -/

/-- The call has passed its guard, and enters the body when it is resumed. -/
def Routine.isEntering : Routine → Bool
  | .call _ _ (.enter _) => true
  | _ => false

theorem Block.isEntering_start {b : Block} {r : Routine} (h : b.start = .ok r) :
    r.isEntering = false := by
  rw [Block.start] at h
  split at h <;> cases h <;> rfl

namespace Routine

/-- Only the guard makes a call one that is about to enter. -/
theorem isEntering_of_resume {r r' : Routine} {v : Option Value} {cx cx' : Context} {flow : Flow}
    (h : r.resume v cx = (.ok (flow, r'), cx')) (hr' : r'.isEntering = true) :
    ∃ b d waiting more given args, r = .call b d (.arguments waiting more given) ∧
      r' = .call b d (.enter args) ∧ flow = .pause ∧ cx.calls.contains d.id = true := by
  have henter : ∀ b d args, enterBody b d args cx = (.ok (flow, r'), cx') → False := by
    intro b d args he
    rw [enterBody] at he
    split at he <;> cases he
    cases hr'
  cases r with
  | gather b body waiting more args =>
    simp only [resume] at h
    split at h
    · cases h
      cases hr'
    · split at h
      · cases h
        cases hr'
      · cases h
  | call b d phase =>
    cases phase with
    | arguments waiting more given =>
      simp only [resume] at h
      split at h
      · cases h
        cases hr'
      · rename_i args _
        rw [guardCall] at h
        split at h
        · rename_i hguard
          cases h
          exact ⟨b, d, waiting, more, given, args, rfl, rfl, rfl, (Bool.and_eq_true_iff.mp hguard).2⟩
        · exact (henter b d args h).elim
    | enter args => exact (henter b d args h).elim
    | leave =>
      cases h
      cases hr'
  | stack more =>
    cases more <;>
      · cases h
        cases hr'
  | repeatTimes b phase =>
    cases phase with
    | start | pause =>
      cases h
      cases hr'
    | count | body =>
      simp only [resume, repeatBody, Prod.mk.injEq, Except.ok.injEq] at h
      have hturn := h.1
      split at hturn <;>
        · cases hturn
          cases hr'
  | forever b inBody =>
    cases inBody <;>
      · cases h
        cases hr'
  | branch b hasElse phase =>
    simp only [resume] at h
    repeat' split at h
    all_goals
      cases h
      cases hr'
  | repeatUntil b hasBody phase =>
    simp only [resume] at h
    repeat' split at h
    all_goals
      cases h
      cases hr'
  | relay | ask | askAtOnce | fence =>
    cases h
    cases hr'

/-- A call is pushed by the routine of a custom block, for that block.  If the block is not warp and is
being run already, the routine has passed its guard. -/
theorem of_push {r : Routine} {v : Option Value} {cx : Context} {c : Call}
    (h : (r.resume v cx).2.calls = cx.calls.push c) :
    ∃ b d phase, r = .call b d phase ∧ c = ⟨d.id, c.args, d.warp⟩ ∧
      (d.warp = false → cx.calls.contains d.id = true → phase = .enter c.args) := by
  have hne : ∀ calls : CallStack, calls.depth ≤ cx.calls.depth → calls ≠ cx.calls.push c := by
    intro calls hle heq
    rw [heq] at hle
    exact Nat.not_succ_le_self _ hle
  have henter : ∀ b d args, (enterBody b d args cx).2.calls = cx.calls.push c →
      c = ⟨d.id, args, d.warp⟩ := by
    intro b d args he
    rw [enterBody] at he
    split at he
    · exact (hne _ (Nat.le_refl _) he).elim
    · exact (List.cons.inj (congrArg CallStack.calls he)).1.symm
  cases r with
  | call b d phase =>
    cases phase with
    | arguments waiting more given =>
      simp only [resume] at h
      split at h
      · exact (hne _ (Nat.le_refl _) h).elim
      · rename_i args _
        rw [guardCall] at h
        split at h
        · exact (hne _ (Nat.le_refl _) h).elim
        · rename_i hguard
          have hc := henter b d args h
          refine ⟨b, d, _, rfl, ?_, fun hwarp hcontains => absurd ?_ hguard⟩
          · rw [hc]
          · rw [hwarp, hcontains]
            rfl
    | enter args =>
      have hc := henter b d args h
      refine ⟨b, d, _, rfl, ?_, fun _ _ => ?_⟩ <;> rw [hc]
    | leave => exact (hne _ cx.calls.depth_pop_le h).elim
  | _ =>
    refine absurd h (hne _ ?_)
    rcases resume_calls _ v cx with heq | ⟨c', hc', -⟩ | ⟨b, d, hr, -⟩
    · rw [heq]
    · cases hc'
    · cases hr

end Routine

namespace Machine

/-- The machine is over the vocabulary, its calls mirror its frames, and no frame below the top one is
about to enter. -/
structure Guarded (ds : List Declaration) (m : Machine) : Prop where
  known : m.Over ds False
  mirrored : m.Mirrored
  below : ∀ r ∈ m.stack.frames.tail, r.isEntering = false

/-- Moreover, neither is the top one. -/
structure Settled (ds : List Declaration) (m : Machine) : Prop where
  known : m.Over ds False
  mirrored : m.Mirrored
  frames : ∀ r ∈ m.stack.frames, r.isEntering = false

theorem Settled.guarded {m : Machine} (h : m.Settled ds) : m.Guarded ds :=
  ⟨h.known, h.mirrored, fun r hr => h.frames r (List.mem_of_mem_tail hr)⟩

section

variable {frames : List Routine} (hframes : ∀ r ∈ frames, r.isEntering = false)
include hframes

theorem isEntering_evaluate (i : Input) (cx : Context) :
    ∀ r ∈ (evaluate frames i cx).machine.stack.frames, r.isEntering = false := by
  cases i with
  | literal v => exact hframes
  | block b =>
    rw [evaluate]
    split
    · rename_i r hstart
      exact List.forall_mem_cons.mpr ⟨Block.isEntering_start hstart, hframes⟩
    · exact hframes
  | stack bs =>
    cases bs with
    | nil => exact hframes
    | cons b bs => exact List.forall_mem_cons.mpr ⟨rfl, hframes⟩

theorem isEntering_evaluateAtOnce (i : Input) (cx : Context) :
    ∀ r ∈ (evaluateAtOnce frames i cx).machine.stack.frames, r.isEntering = false := by
  have hfence : ∀ opcode, ∀ r ∈ Routine.fence opcode :: frames, r.isEntering = false :=
    fun opcode => List.forall_mem_cons.mpr ⟨rfl, hframes⟩
  cases i with
  | literal v => exact hframes
  | block b => exact isEntering_evaluate (hfence b.opcode) (.block b) cx
  | stack bs =>
    cases bs with
    | nil => exact hframes
    | cons b bs => exact isEntering_evaluate (hfence b.opcode) (.stack (b :: bs)) cx

end

theorem isEntering_follow {flow : Flow} {top : Routine} {rest : List Routine} {cx : Context}
    (hall : ∀ r ∈ top :: rest, r.isEntering = false) :
    ∀ r ∈ (follow flow top rest cx).machine.stack.frames, r.isEntering = false := by
  cases flow with
  | done v => cases rest <;> exact fun r hr => hall r (List.mem_cons_of_mem _ hr)
  | evaluate i => exact isEntering_evaluate hall i cx
  | evaluateAtOnce i => exact isEntering_evaluateAtOnce hall i cx
  | pause =>
    rw [follow]
    split
    · exact hall
    · rw [suspend_machine]
      exact hall
  | await a =>
    rw [follow, suspend_machine]
    exact hall
  | quit =>
    rw [follow, suspend_machine]
    exact hall

/-- If nothing is warp, a step that goes on leaves no call about to enter: one that has just passed its
guard has ended the slice. -/
theorem Guarded.next (hds : ∀ d ∈ ds, d.warp = false) {m m' : Machine} (h : m.Guarded ds)
    (hstep : m.step = .next m') : m'.Settled ds := by
  have hleads := leads_step h.known
  rw [hstep] at hleads
  refine ⟨hleads.1, h.mirrored.next hstep, ?_⟩
  cases hframes : m.stack.frames with
  | nil =>
    rw [step, hframes] at hstep
    cases hstep
  | cons top rest =>
    have hrest := h.below
    rw [hframes] at hrest
    cases hres : top.resume m.stack.resumed m.cx with
    | mk reply cx =>
      cases reply with
      | error e =>
        rw [step_of_error hframes hres] at hstep
        cases hstep
      | ok x =>
        obtain ⟨flow, top'⟩ := x
        have hfollow := step_of_ok hframes hres
        rw [hstep] at hfollow
        cases htop : top'.isEntering with
        | true =>
          -- a call that has just passed its guard has given way, and the slice has ended
          exfalso
          obtain ⟨b, d, waiting, more, given, args, rfl, rfl, rfl, -⟩ :=
            Routine.isEntering_of_resume hres htop
          obtain ⟨-, hafter⟩ := h.known.resume hframes
          obtain ⟨-, hover, -⟩ := hafter hres
          have hm := h.mirrored
          rw [Mirrored, hframes] at hm
          have hmirrored : Mirrored ⟨⟨.call b d (.enter args) :: rest, none⟩, cx⟩ :=
            Routine.resume_mirrors hm hres
          exact hmirrored.follow_pause_ne_next hover hds m' hfollow.symm
        | false =>
          have hall : ∀ r ∈ top' :: rest, r.isEntering = false :=
            List.forall_mem_cons.mpr ⟨htop, hrest⟩
          have hm' := @isEntering_follow flow top' rest cx hall
          rw [← hfollow] at hm'
          exact hm'

theorem Guarded.reaches (hds : ∀ d ∈ ds, d.warp = false) {m m' : Machine} (h : m.Guarded ds)
    (hreach : m.Reaches m') : m'.Guarded ds := by
  induction hreach with
  | refl => exact h
  | tail _ hstep ih => exact (ih.next hds hstep).guarded

/-! ### What a step does to the calls -/

theorem entered?_of_push {m : Machine} {c : Call}
    (h : m.step.machine.cx.calls = m.cx.calls.push c) : m.entered? = some c := by
  rw [entered?, h]
  exact if_pos (Nat.lt_succ_self _)

theorem entered?_of_le {m : Machine} (h : m.step.machine.cx.calls.depth ≤ m.cx.calls.depth) :
    m.entered? = none := if_neg (Nat.not_lt.mpr h)

theorem reenters_of_push {m : Machine} {c : Call}
    (h : m.step.machine.cx.calls = m.cx.calls.push c) :
    m.reenters = m.cx.calls.contains c.procedure := by
  rw [reenters, entered?_of_push h]
  rfl

/-- If nothing is warp, a step leaves the calls alone, pops one, or pushes one of a custom block.  Where
that block is being run already, the step resumes a call that has passed its guard. -/
theorem Guarded.step_calls (hds : ∀ d ∈ ds, d.warp = false) {m : Machine} (h : m.Guarded ds) :
    m.step.machine.cx.calls = m.cx.calls ∨ m.step.machine.cx.calls = m.cx.calls.pop.2 ∨
      ∃ d ∈ ds, ∃ args, m.step.machine.cx.calls = m.cx.calls.push ⟨d.id, args, false⟩ ∧
        (m.cx.calls.contains d.id = true →
          ∃ b rest, m.stack.frames = .call b d (.enter args) :: rest) := by
  cases hframes : m.stack.frames with
  | nil =>
    rw [step, hframes]
    exact .inl rfl
  | cons top rest =>
    rw [step_cx hframes]
    rcases top.resume_calls m.stack.resumed m.cx with heq | ⟨c, -, heq⟩ | ⟨-, -, -, heq⟩
    · exact .inl heq
    · obtain ⟨b, d, phase, rfl, hc, hphase⟩ := Routine.of_push heq
      have hd : d ∈ ds := (h.known.resume hframes).1.2
      have hwarp := hds d hd
      rw [hwarp] at hc
      refine .inr (.inr ⟨d, hd, c.args, ?_, fun hcontains => ⟨b, rest, ?_⟩⟩)
      · rw [heq, ← hc]
      · rw [hphase hwarp hcontains]
    · exact .inr (.inl heq)

/-- A step that re-enters a custom block resumes the call that has passed its guard. -/
theorem Guarded.of_reenters (hds : ∀ d ∈ ds, d.warp = false) {m : Machine} (h : m.Guarded ds)
    (hre : m.reenters = true) :
    ∃ b d args rest, m.stack.frames = .call b d (.enter args) :: rest ∧
      m.entered? = some ⟨d.id, args, false⟩ := by
  have hnone : m.entered? ≠ none := by
    intro hnone
    rw [reenters, hnone] at hre
    cases hre
  rcases h.step_calls hds with heq | heq | ⟨d, -, args, hpush, hcall⟩
  · exact absurd (entered?_of_le (by rw [heq])) hnone
  · exact absurd (entered?_of_le (by rw [heq]; exact m.cx.calls.depth_pop_le)) hnone
  · rw [reenters_of_push hpush] at hre
    obtain ⟨b, rest, hframes⟩ := hcall hre
    exact ⟨b, d, args, rest, hframes, entered?_of_push hpush⟩

theorem Settled.not_reenters (hds : ∀ d ∈ ds, d.warp = false) {m : Machine} (h : m.Settled ds) :
    m.reenters = false := by
  rw [Bool.eq_false_iff]
  intro hre
  obtain ⟨b, d, args, rest, hframes, -⟩ := h.guarded.of_reenters hds hre
  have hall := h.frames
  rw [hframes] at hall
  cases hall _ List.mem_cons_self

/-- A step raises what the calls can reach only by a re-entry. -/
theorem Guarded.reach_step (hds : ∀ d ∈ ds, d.warp = false) {ids : Finset String}
    (hids : ∀ d ∈ ds, d.id ∈ ids) {m : Machine} (h : m.Guarded ds) :
    m.step.machine.cx.calls.reach ids ≤ m.cx.calls.reach ids + m.reenters.toNat := by
  rcases h.step_calls hds with heq | heq | ⟨d, hd, args, hpush, -⟩
  · rw [heq]
    exact Nat.le_add_right ..
  · rw [heq]
    exact Nat.le_add_right_of_le (m.cx.calls.reach_pop ids)
  · rw [hpush, reenters_of_push hpush]
    cases hcontains : m.cx.calls.contains d.id with
    | true => exact Nat.le_of_eq (CallStack.reach_push_of_contains hcontains)
    | false => exact Nat.le_of_eq (CallStack.reach_push_of_new (hids d hd) hcontains)

/-! ### Slices -/

/-- Without a re-entry, what the calls can reach never grows. -/
theorem Settled.reaches (hds : ∀ d ∈ ds, d.warp = false) {ids : Finset String}
    (hids : ∀ d ∈ ds, d.id ∈ ids) {m m' : Machine} (h : m.Settled ds) (hreach : m.Reaches m') :
    m'.Settled ds ∧ m'.cx.calls.reach ids ≤ m.cx.calls.reach ids := by
  induction hreach with
  | refl => exact ⟨h, Nat.le_refl _⟩
  | @tail m₁ m₂ _ hstep ih =>
    have hle := ih.1.guarded.reach_step hds hids
    rw [hstep, ih.1.not_reenters hds] at hle
    exact ⟨ih.1.guarded.next hds hstep, hle.trans ih.2⟩

/-- Within a slice what the calls can reach grows by one at most, by a re-entry in its first step. -/
theorem Guarded.reach_le (hds : ∀ d ∈ ds, d.warp = false) {ids : Finset String}
    (hids : ∀ d ∈ ds, d.id ∈ ids) {m m' : Machine} (h : m.Guarded ds) (hreach : m.Reaches m') :
    m'.cx.calls.reach ids ≤ m.cx.calls.reach ids + 1 ∧
      m'.step.machine.cx.calls.reach ids ≤ m.cx.calls.reach ids + 1 := by
  have hfirst := (h.reach_step hds hids).trans (Nat.add_le_add_left m.reenters.toNat_le _)
  rcases Relation.ReflTransGen.cases_head hreach with rfl | ⟨m₁, hstep, hrest⟩
  · exact ⟨Nat.le_succ _, hfirst⟩
  · rw [hstep] at hfirst
    obtain ⟨hsettled, hle⟩ := (h.next hds hstep).reaches hds hids hrest
    have hlast := hsettled.guarded.reach_step hds hids
    rw [hsettled.not_reenters hds] at hlast
    exact ⟨hle.trans hfirst, (hlast.trans hle).trans hfirst⟩

theorem Settled.reentries_eq_zero (hds : ∀ d ∈ ds, d.warp = false) :
    ∀ {fuel : Nat} {m : Machine}, m.Settled ds → m.reentries fuel = 0
  | 0, _, _ => rfl
  | fuel + 1, m, h => by
    rw [reentries, h.not_reenters hds]
    cases hstep : m.step with
    | next m' =>
      have hrest : m'.reentries fuel = 0 := reentries_eq_zero hds (h.guarded.next hds hstep)
      simp only [hrest, Bool.toNat_false]
    | halt result m' => rfl

/-- The re-entries of a slice are those of its first step. -/
theorem Guarded.reentries_le (hds : ∀ d ∈ ds, d.warp = false) {m : Machine} (h : m.Guarded ds)
    (fuel : Nat) : m.reentries fuel ≤ m.reenters.toNat := by
  cases fuel with
  | zero => exact Nat.zero_le _
  | succ fuel =>
    rw [reentries]
    cases hstep : m.step with
    | next m' =>
      have hrest : m'.reentries fuel = 0 := (h.next hds hstep).reentries_eq_zero hds
      simp only [hrest, Nat.add_zero, Nat.le_refl]
    | halt result m' => exact Nat.le_refl _

end Machine

/-! ### Runs of a thread -/

/-- A slice that was run: the machine that was driven, and the fuel for it. -/
structure Drive where
  start : Machine
  fuel : Nat

namespace Drive

/-- How often the slice entered custom blocks that were being run already. -/
def reentries (s : Drive) : Nat := s.start.reentries s.fuel

/-- The slice ended in a yield at the guard of the call: its last step resumed the call, whose arguments
were complete and whose custom block was being run already, and left it ready to enter. -/
def EndsAtGuard (s : Drive) (b : Block) (d : Declaration) (args : Args) (rest : List Routine) : Prop :=
  ∃ last m waiting more given, s.start.Reaches last ∧
    Machine.drive s.fuel s.start = some (.ok .yielded, m) ∧
    last.stack.frames = .call b d (.arguments waiting more given) :: rest ∧
    last.cx.calls.contains d.id = true ∧ last.step = .halt (.ok .yielded) m ∧
    m.stack.frames = .call b d (.enter args) :: rest

end Drive

namespace Thread

/-- The slice that a step of the thread runs, if it runs one. -/
def drives (t : Thread) (fuel : Nat) (w : World) : List Drive :=
  if t.status ≠ .running ∨ (w.scene.target? t.target).isNone then [] else [⟨t.machine w, fuel⟩]

/-- The threads that come of scripts over the vocabulary, whatever is done with them, with the slices
that they have run, the last one first. -/
inductive Lives (ds : List Declaration) : List Drive → Thread → Prop
  | launch {script : Script} (id target : Nat) (payload : Option Value) :
      script.Over ds → Lives ds [] (.launch id script target payload)
  | step {log : List Drive} {t t' : Thread} {w w' : World} {fuel : Nat}
      {outcome : Except ExecError Status} :
      Lives ds log t → w.scene.Over ds → t.step fuel w = some (outcome, t', w') →
      Lives ds (t.drives fuel w ++ log) t'
  | poll {log : List Drive} {t : Thread} (s : Signals) : Lives ds log t → Lives ds log (t.poll s).2
  | resolve {log : List Drive} {t : Thread} (generation : Nat) (v : Value) :
      Lives ds log t → Lives ds log (t.resolve generation v).2
  | restart {log : List Drive} {t : Thread} (payload : Option Value) :
      Lives ds log t → Lives ds log (t.restart payload)
  | retire {log : List Drive} {t : Thread} : Lives ds log t → Lives ds log t.retire

variable {log : List Drive} {t : Thread}

theorem Lives.arises (h : t.Lives ds log) : t.Arises ds := by
  induction h with
  | launch id target payload hscript => exact .launch id target payload hscript
  | step _ hw hstep ih => exact .step ih hw hstep
  | poll s _ ih => exact .poll s ih
  | resolve generation v _ ih => exact .resolve generation v ih
  | restart payload _ ih => exact .restart payload ih
  | retire _ ih => exact .retire ih

/-- Every slice was run by the thread as the slices before it had left it. -/
theorem Lives.before {later earlier : List Drive} {s : Drive} (h : t.Lives ds log)
    (hlog : log = later ++ s :: earlier) :
    ∃ t₀ w, Lives ds earlier t₀ ∧ w.scene.Over ds ∧ s.start = t₀.machine w := by
  induction h generalizing later with
  | launch => exact absurd hlog.symm (List.append_ne_nil_of_right_ne_nil _ (List.cons_ne_nil _ _))
  | @step log t t' w w' fuel outcome ht hw hstep ih =>
    rw [drives] at hlog
    split at hlog
    · exact ih hlog
    · rcases List.cons_eq_append_iff.mp hlog with ⟨-, hs⟩ | ⟨later', -, hrest⟩
      · cases hs
        exact ⟨t, w, ht, hw, rfl⟩
      · exact ih hrest
  | poll _ _ ih | resolve _ _ _ ih | restart _ _ ih => exact ih hlog
  | retire _ ih => exact ih hlog

/-- Among the frames of the thread only the top one may be about to enter, and then the last slice ended
at the guard of that call. -/
structure Guarded (log : List Drive) (frames : List Routine) : Prop where
  below : ∀ r ∈ frames.tail, r.isEntering = false
  top : ∀ b d args rest, frames = .call b d (.enter args) :: rest →
    ∃ s earlier, log = s :: earlier ∧ s.EndsAtGuard b d args rest

theorem guarded_of_settled {frames : List Routine} (h : ∀ r ∈ frames, r.isEntering = false) :
    Guarded log frames := by
  refine ⟨fun r hr => h r (List.mem_of_mem_tail hr), fun b d args rest hframes => ?_⟩
  rw [hframes] at h
  cases h _ List.mem_cons_self

theorem guarded_nil : Guarded log [] := guarded_of_settled fun _ hr => absurd hr List.not_mem_nil

theorem guarded_ofBlocks (blocks : List Block) : Guarded log (FrameStack.ofBlocks blocks).frames :=
  guarded_of_settled (List.forall_mem_singleton.mpr rfl)

/-- The frames that a slice leaves. -/
theorem guarded_drive (hds : ∀ d ∈ ds, d.warp = false) {s : Drive} {slice : Slice} {m : Machine}
    (hs : s.start.Guarded ds) (h : Machine.drive s.fuel s.start = some (.ok slice, m)) :
    Guarded (s :: log) m.stack.frames := by
  obtain ⟨last, hreach, hhalt⟩ :=
    Machine.drive_induction (I := s.start.Reaches) (fun _ _ hx hstep => hx.tail hstep) .refl h
  have hlast := hs.reaches hds hreach
  rcases Machine.halt_cases hhalt with
    ⟨-, -, hstack⟩ | ⟨top, rest, flow, top', hframes, hres, hstack, hflow⟩
  · rw [hstack]
    exact guarded_nil
  · have hrest := hlast.below
    rw [hframes] at hrest
    rw [hstack]
    refine ⟨hrest, fun b d args rest' heq => ?_⟩
    cases heq
    -- the top frame is about to enter, so the last step was that of the guard
    obtain ⟨b', d', waiting, more, given, args', rfl, heq, rfl, hcontains⟩ :=
      Routine.isEntering_of_resume hres rfl
    cases heq
    rcases hflow with ⟨-, rfl, -⟩ | ⟨a, ha, -⟩ | ⟨hq, -⟩
    · refine ⟨s, log, rfl, last, m, waiting, more, given, hreach, h, hframes, hcontains, hhalt, ?_⟩
      rw [hstack]
    · cases ha
    · cases hq

/-- What a slice makes of the thread. -/
theorem guarded_absorb (hds : ∀ d ∈ ds, d.warp = false) {s : Drive} {m : Machine}
    {result : Except ExecError Slice} (hs : s.start.Guarded ds)
    (h : Machine.drive s.fuel s.start = some (result, m)) :
    Guarded (s :: log) (t.absorb result m).stack.frames := by
  rcases result with e | slice
  · exact guarded_nil
  · cases slice with
    | finished v => exact guarded_nil
    | exited => exact guarded_nil
    | yielded => exact guarded_drive hds hs h
    | awaiting a =>
      have hsame := sameFrames_poll m.cx.world.signals
        ({ t with stack := m.stack, calls := m.cx.calls, status := .parked,
                  pending := some ⟨t.generation, a⟩ } : Thread)
      have hdrive : Guarded (s :: log) m.stack.frames := guarded_drive hds hs h
      rw [← hsame.frames] at hdrive
      exact hdrive

theorem Guarded.machine (h : Guarded log t.stack.frames) (ht : t.Arises ds) {w : World}
    (hw : w.scene.Over ds) : (t.machine w).Guarded ds := by
  obtain ⟨hover, hmirrored⟩ := ht.over_mirrored
  exact ⟨⟨fun r hr => .inl (hover.frames r hr), hw⟩, hmirrored, h.below⟩

/-- What the thread has run guards its frames, whatever is done with it. -/
theorem Lives.guarded (hds : ∀ d ∈ ds, d.warp = false) (h : t.Lives ds log) :
    Guarded log t.stack.frames := by
  induction h with
  | launch => exact guarded_ofBlocks _
  | @step log t t' w w' fuel outcome ht hw hstep ih =>
    rw [drives]
    split
    · -- no slice is run: the thread rests, or has lost its target and is done
      rename_i hno
      rw [Thread.step] at hstep
      split at hstep
      · cases hstep
        exact ih
      · rename_i hr
        rw [if_pos (hno.resolve_left hr)] at hstep
        cases hstep
        exact guarded_nil
    · rename_i hyes
      obtain ⟨hr, hknown⟩ := not_or.mp hyes
      rw [step_of_running (not_ne_iff.mp hr) (Bool.eq_false_iff.mpr hknown)] at hstep
      obtain ⟨⟨result, m⟩, hdrive, heq⟩ := Option.map_eq_some_iff.mp hstep
      cases heq
      exact guarded_absorb hds (ih.machine ht.arises hw) hdrive
  | @poll log t s _ ih =>
    rw [(sameFrames_poll s t).frames]
    exact ih
  | @resolve log t generation v _ ih =>
    rw [(sameFrames_resolve generation v t).frames]
    exact ih
  | restart => exact guarded_ofBlocks _
  | retire => exact guarded_nil

/-- Every slice starts from frames that the slices before it guard. -/
theorem Lives.slice (hds : ∀ d ∈ ds, d.warp = false) (h : t.Lives ds log)
    {later earlier : List Drive} {s : Drive} (hlog : log = later ++ s :: earlier) :
    s.start.Guarded ds ∧ Guarded earlier s.start.stack.frames := by
  obtain ⟨t₀, w, ht₀, hw, hstart⟩ := h.before hlog
  have hguarded := ht₀.guarded hds
  rw [hstart]
  exact ⟨hguarded.machine ht₀.arises hw, hguarded⟩

theorem Lives.start_guarded (hds : ∀ d ∈ ds, d.warp = false) (h : t.Lives ds log) {s : Drive}
    (hs : s ∈ log) : s.start.Guarded ds := by
  obtain ⟨later, earlier, hlog⟩ := List.append_of_mem hs
  exact (h.slice hds hlog).1

theorem Lives.reentries_le_one (hds : ∀ d ∈ ds, d.warp = false) (h : t.Lives ds log) {s : Drive}
    (hs : s ∈ log) : s.reentries ≤ 1 :=
  ((h.start_guarded hds hs).reentries_le hds s.fuel).trans s.start.reenters.toNat_le

/-- A slice that re-enters a custom block follows one that ended at the guard of the call. -/
theorem Lives.after_guard (hds : ∀ d ∈ ds, d.warp = false) (h : t.Lives ds log)
    {later earlier : List Drive} {s : Drive} (hlog : log = later ++ s :: earlier)
    (hre : s.start.reenters = true) :
    ∃ previous earlier' b d args rest, earlier = previous :: earlier' ∧
      previous.EndsAtGuard b d args rest ∧
      s.start.stack.frames = .call b d (.enter args) :: rest ∧
      s.start.entered? = some ⟨d.id, args, false⟩ := by
  obtain ⟨hstart, hguarded⟩ := h.slice hds hlog
  obtain ⟨b, d, args, rest, hframes, hentered⟩ := hstart.of_reenters hds hre
  obtain ⟨previous, earlier', hearlier, hends⟩ := hguarded.top b d args rest hframes
  exact ⟨previous, earlier', b, d, args, rest, hearlier, hends, hframes, hentered⟩

/-- The first slice that a thread runs re-enters nothing. -/
theorem Lives.first_reentries (hds : ∀ d ∈ ds, d.warp = false) {later : List Drive} {s : Drive}
    (h : t.Lives ds (later ++ [s])) : s.reentries = 0 := by
  have hle := (h.slice hds rfl).1.reentries_le hds s.fuel
  have hre : s.start.reenters = false := by
    rw [Bool.eq_false_iff]
    intro hre
    obtain ⟨previous, earlier', -, -, -, -, hnil, -⟩ := h.after_guard hds rfl hre
    cases hnil
  rw [hre] at hle
  exact Nat.le_zero.mp hle

/-- The re-entries of a run are fewer than its slices. -/
theorem Lives.sum_reentries (hds : ∀ d ∈ ds, d.warp = false) (h : t.Lives ds log)
    (hlog : log ≠ []) : (log.map Drive.reentries).sum + 1 ≤ log.length := by
  rcases List.eq_nil_or_concat' log with rfl | ⟨later, first, rfl⟩
  · exact absurd rfl hlog
  · have hlater : (later.map Drive.reentries).sum ≤ (later.map Drive.reentries).length * 1 := by
      refine List.sum_le_card_nsmul _ 1 fun n hn => ?_
      obtain ⟨s, hs, rfl⟩ := List.mem_map.mp hn
      exact h.reentries_le_one hds (List.mem_append_left _ hs)
    rw [List.length_map, Nat.mul_one] at hlater
    rw [List.map_append, List.sum_append, List.length_append, List.map_singleton,
      List.sum_singleton, h.first_reentries hds]
    exact Nat.succ_le_succ hlater

/-- The depth of the calls within a slice. -/
theorem Lives.depth_le (hds : ∀ d ∈ ds, d.warp = false) (h : t.Lives ds log) {s : Drive}
    (hs : s ∈ log) {ids : Finset String} (hids : ∀ d ∈ ds, d.id ∈ ids) {m : Machine}
    (hreach : s.start.Reaches m) :
    m.cx.calls.depth ≤ s.start.cx.calls.depth + (1 + ids.card) ∧
      m.step.machine.cx.calls.depth ≤ s.start.cx.calls.depth + (1 + ids.card) := by
  obtain ⟨hbefore, hafter⟩ := (h.start_guarded hds hs).reach_le hds hids hreach
  have hstart := s.start.cx.calls.reach_le ids
  have hm := m.cx.calls.depth_le_reach ids
  have hm' := m.step.machine.cx.calls.depth_le_reach ids
  omega

end Thread

/-- If nothing is warp, a thread re-enters a custom block at most once in a slice: in the first step of
the slice, right after a slice that ended in a yield at the guard of that call.  So `n` re-entries take
at least `n + 1` slices.  Within a slice, if the custom blocks are declared in the scene, the calls get
deeper by at most one more than there are ids of custom blocks in it. -/
theorem reentries_take_slices (ds : List Declaration) (hds : ∀ d ∈ ds, d.warp = false)
    {log : List Drive} {t : Thread} (ht : t.Lives ds log) :
    (∀ s ∈ log, s.reentries ≤ 1 ∧
      ∀ m m', s.start.Reaches m → m.step = .next m' → m'.reenters = false) ∧
    (∀ later s earlier, log = later ++ s :: earlier → s.start.reenters = true →
      ∃ previous earlier' b d args rest, earlier = previous :: earlier' ∧
        previous.EndsAtGuard b d args rest ∧
        s.start.stack.frames = .call b d (.enter args) :: rest ∧
        s.start.entered? = some ⟨d.id, args, false⟩) ∧
    (log ≠ [] → (log.map Drive.reentries).sum + 1 ≤ log.length) ∧
    ∀ s ∈ log, (∀ d ∈ ds, d.id ∈ s.start.cx.scene.procedureIds) → ∀ m, s.start.Reaches m →
      m.cx.calls.depth ≤ s.start.cx.calls.depth + (1 + s.start.cx.scene.procedureIds.card) ∧
      m.step.machine.cx.calls.depth ≤
        s.start.cx.calls.depth + (1 + s.start.cx.scene.procedureIds.card) := by
  refine ⟨fun s hs => ⟨ht.reentries_le_one hds hs, ?_⟩, ?_, ht.sum_reentries hds, ?_⟩
  · intro m m' hreach hstep
    exact ((ht.start_guarded hds hs).reaches hds hreach).next hds hstep |>.not_reenters hds
  · intro later s earlier hlog hre
    exact ht.after_guard hds hlog hre
  · intro s hs hids m hreach
    exact ht.depth_le hds hs hids hreach

/-- A thread that recurses for ever, after two slices: the first ends at the guard of the second call,
and the second enters it. -/
theorem reentries_take_slices_endless :
    ∃ first second t, Thread.Lives [.endless] [second, first] t ∧ second.reentries = 1 ∧
      ([second, first].map Drive.reentries).sum + 1 ≤ 2 ∧
      (∃ b d args rest, first.EndsAtGuard b d args rest ∧
        second.start.stack.frames = .call b d (.enter args) :: rest) ∧
      ∀ m, second.start.Reaches m → m.cx.calls.depth ≤ 1 + (1 + 1) := by
  have hds : ∀ d ∈ [Declaration.endless], d.warp = false := List.forall_mem_singleton.mpr rfl
  have hlaunched : Thread.endless.Lives [.endless] [] :=
    .launch 0 0 none (List.forall_mem_singleton.mpr Block.endless_over)
  have hfirst : Thread.endless.step 20 { scene := .endless } = some (.ok .running, _, _) := rfl
  have hgave : Thread.Lives [.endless] [⟨Thread.endless.machine { scene := .endless }, 20⟩] _ :=
    .step hlaunched Scene.endless_over hfirst
  have hentered := @Thread.Lives.step [.endless] _ _ _ { scene := .endless } _ 20 (.ok .running)
    hgave Scene.endless_over rfl
  have hids : ∀ d ∈ [Declaration.endless], d.id ∈ Scene.endless.procedureIds :=
    List.forall_mem_singleton.mpr (List.mem_toFinset.mpr List.mem_cons_self)
  obtain ⟨-, hafter, hsum, hdepth⟩ := reentries_take_slices [.endless] hds hentered
  obtain ⟨previous, earlier, b, d, args, rest, hlog, hends, hframes, -⟩ := hafter [] _ _ rfl rfl
  cases hlog
  exact ⟨_, _, _, hentered, rfl, hsum (List.cons_ne_nil _ _), ⟨b, d, args, rest, hends, hframes⟩,
    fun m hreach => (hdepth _ List.mem_cons_self hids m hreach).1⟩

end Blockwork
