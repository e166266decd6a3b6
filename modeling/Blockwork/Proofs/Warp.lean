import Blockwork.Proofs.WarpMode

/-!
Warp mode changes only scheduling, never results.

A thread that calls one custom block `P`, and is stepped alone until it ends, is compared with the
same thread on the program with `P` warp.  `RunsOn` strings its slices together.  The two machines
move in step (`Machine.step_inWarp`): where one pauses the other goes on, since it stays inside the
call of `P`.  Only a recursive call of `P` takes one step more, to give way, when `P` is not warp;
the machine with `P` warp waits for that (`Entering`).  So the whole run is one slice in warp mode.
-/

namespace Blockwork

variable {ds : List Declaration} {P : Declaration}

/-! ### Machines -/

/-- The machine on the world with the custom block warp. -/
def Machine.inWarp (P : Declaration) (calls : CallStack) (m : Machine) : Machine :=
  ⟨⟨m.stack.frames.map (Routine.inWarp P), m.stack.resumed⟩, m.cx.inWarp P calls⟩

/-- What a step is in warp mode: a pause goes on. -/
def Step.inWarp (P : Declaration) (calls : CallStack) : Step → Step
  | .next m => .next (m.inWarp P calls)
  | .halt (.ok .yielded) m => .next (m.inWarp P calls)
  | .halt result m => .halt result (m.inWarp P calls)

/-- The step goes on, or has only given way. -/
def Step.GoesOn (s : Step) (m : Machine) : Prop := s = .next m ∨ s = .halt (.ok .yielded) m

namespace Step

theorem GoesOn.machine_eq {s : Step} {m : Machine} (h : s.GoesOn m) : s.machine = m := by
  rcases h with rfl | rfl <;> rfl

theorem GoesOn.unique {s : Step} {m m' : Machine} (h : s.GoesOn m) (h' : s.GoesOn m') : m = m' :=
  h.machine_eq.symm.trans h'.machine_eq

theorem GoesOn.inWarp {s : Step} {m : Machine} (h : s.GoesOn m) (calls : CallStack) :
    s.inWarp P calls = .next (m.inWarp P calls) := by
  rcases h with rfl | rfl <;> rfl

theorem not_goesOn_halt {result : Except ExecError Slice} (h : result ≠ .ok .yielded)
    (m m' : Machine) : ¬ (Step.halt result m).GoesOn m' := by
  rintro (heq | heq)
  · cases heq
  · cases heq
    exact h rfl

theorem inWarp_halt {result : Except ExecError Slice} (h : result ≠ .ok .yielded) (m : Machine)
    (calls : CallStack) :
    (Step.halt result m).inWarp P calls = .halt result (m.inWarp P calls) := by
  rcases result with e | slice
  · rfl
  · cases slice with
    | yielded => exact absurd rfl h
    | _ => rfl

end Step

namespace Machine

theorem evaluate_inWarp (frames : List Routine) (i : Input) (cx : Context) (calls : CallStack) :
    evaluate (frames.map (Routine.inWarp P)) (i.inWarp P) (cx.inWarp P calls) =
      (evaluate frames i cx).inWarp P calls := by
  cases i with
  | literal v => rw [Input.inWarp]; rfl
  | block b =>
    rw [Input.inWarp, evaluate, evaluate, Block.start_inWarp]
    cases b.start <;> rfl
  | stack bs =>
    rw [Input.inWarp]
    cases bs with
    | nil => rfl
    | cons b bs =>
      rw [Block.allInWarp]
      show Step.next _ = Step.next _
      simp only [inWarp, List.map_cons, Routine.inWarp, Block.allInWarp]

theorem fence?_inWarp (calls : CallStack) (m : Machine) :
    (m.inWarp P calls).stack.fence? = m.stack.fence? := by
  rw [FrameStack.fence?, FrameStack.fence?, inWarp, List.findSome?_map]
  congr 1
  funext r
  cases r <;> rfl

theorem suspend_inWarp (calls : CallStack) (m : Machine) {slice : Slice} (hs : slice ≠ .yielded)
    (reason : String) :
    (m.inWarp P calls).suspend slice reason = (m.suspend slice reason).inWarp P calls := by
  rw [suspend, suspend, fence?_inWarp]
  cases m.stack.fence? with
  | some opcode => rfl
  | none =>
    cases slice with
    | yielded => exact absurd rfl hs
    | _ => rfl

/-- In warp mode a machine does what the flow asks for, and goes on where it would pause. -/
theorem follow_inWarp {flow : Flow} (hflow : flow.Over ds) (top : Routine) (rest : List Routine)
    (cx : Context) {calls : CallStack} (hm : Machine.Over ds False ⟨⟨top :: rest, none⟩, cx⟩)
    (hwarp : flow = .pause → 0 < calls.warpDepth) :
    follow (flow.inWarp P) (top.inWarp P) (rest.map (Routine.inWarp P)) (cx.inWarp P calls) =
      (follow flow top rest cx).inWarp P calls := by
  cases flow with
  | done v => cases rest <;> rfl
  | evaluate i => exact evaluate_inWarp (top :: rest) i cx calls
  | evaluateAtOnce i => cases hflow
  | pause =>
    have hpos : 0 < (cx.inWarp P calls).calls.warpDepth := hwarp rfl
    have hpause : Flow.pause.inWarp P = .pause := rfl
    rw [hpause, follow, follow, if_pos hpos]
    split
    · rfl
    · obtain ⟨result, heq, rfl | ⟨hf, -⟩⟩ := hm.suspend_eq .yielded "yielded"
      · rw [heq]
        rfl
      · exact hf.elim
  | await a => exact suspend_inWarp calls ⟨⟨top :: rest, none⟩, cx⟩ Slice.noConfusion _
  | quit => exact suspend_inWarp calls ⟨⟨top :: rest, none⟩, cx⟩ Slice.noConfusion _

theorem warpDepth_pos {calls : CallStack} {frames : List Routine} (h : calls.Mirrors frames)
    {b : Block} {d : Declaration} (hd : d.warp = true) (hmem : Routine.call b d .leave ∈ frames) :
    0 < calls.warpDepth := by
  rw [h.warpDepth, List.countP_pos_iff]
  have hopen : (d.id, d.warp) ∈ frames.filterMap Routine.openCall? :=
    List.mem_filterMap.mpr ⟨_, hmem, rfl⟩
  rw [← h.calls] at hopen
  obtain ⟨c, hc, heq⟩ := List.mem_map.mp hopen
  refine ⟨c, hc, ?_⟩
  rw [← hd]
  exact (Prod.mk.inj heq).2

/-- The machines move in step, as long as a pause finds the custom block on the call stack. -/
theorem step_inWarp {m : Machine} (hm : m.Over ds False) {top : Routine} {rest : List Routine}
    (hframes : m.stack.frames = top :: rest) {calls : CallStack}
    (hmatch : top.Matches P m.stack.resumed m.cx calls) (hmirror : (m.inWarp P calls).Mirrored)
    (hpause : ∀ top' cx, top.resume m.stack.resumed m.cx = (.ok (.pause, top'), cx) →
      ∃ b, Routine.call b P .leave ∈ rest) :
    ∃ calls', m.step.machine.cx.calls.Alike calls' ∧
      (m.inWarp P calls).step = m.step.inWarp P calls' := by
  obtain ⟨calls', halike, hres'⟩ := hmatch
  have hframes' : (m.inWarp P calls).stack.frames =
      top.inWarp P :: rest.map (Routine.inWarp P) := by
    rw [inWarp, hframes, List.map_cons]
  refine ⟨calls', ?_⟩
  cases hres : top.resume m.stack.resumed m.cx with
  | mk reply cx =>
    rw [hres] at halike hres'
    cases reply with
    | error e =>
      rw [step_of_error hframes hres, step_of_error hframes' hres']
      refine ⟨halike, ?_⟩
      rw [← List.map_cons]
      rfl
    | ok x =>
      obtain ⟨flow, top'⟩ := x
      obtain ⟨hflow, hover, -⟩ := (hm.resume hframes).2 hres
      rw [step_of_ok hframes hres, step_of_ok hframes' hres', follow_cx]
      refine ⟨halike, follow_inWarp hflow top' rest cx hover ?_⟩
      rintro rfl
      obtain ⟨b, hb⟩ := hpause top' cx hres
      rw [Mirrored, hframes'] at hmirror
      have hmirrors := Routine.resume_mirrors hmirror hres'
      have hleave : Routine.call (b.inWarp P) (P.inWarp P) .leave ∈ rest.map (Routine.inWarp P) :=
        List.mem_map.mpr ⟨_, hb, rfl⟩
      exact warpDepth_pos hmirrors (Declaration.inWarp_self P) (List.mem_cons_of_mem _ hleave)

/-! ### Runs -/

/-- The machine runs on, over its pauses, to the result. -/
inductive RunsOn : Machine → Except ExecError Slice → Machine → Prop
  | halt {m m' : Machine} {result : Except ExecError Slice} :
      m.step = .halt result m' → result ≠ .ok .yielded → RunsOn m result m'
  | on {m m₁ m' : Machine} {result : Except ExecError Slice} :
      m.step.GoesOn m₁ → RunsOn m₁ result m' → RunsOn m result m'

/-- The machine is inside the call that the script consists of. -/
def Within (P : Declaration) (m : Machine) : Prop :=
  ∃ above b, m.stack.frames = above ++ [.call b P .leave, .stack []]

/-- The machines are at the same point. -/
def Aligned (P : Declaration) (m n : Machine) : Prop :=
  ∃ calls, m.cx.calls.Alike calls ∧ n.Mirrored ∧ n = m.inWarp P calls

/-- A recursive call has given way in the first machine, and the second is about to make it. -/
def Entering (P : Declaration) (m n : Machine) : Prop :=
  ∃ b args rest calls waiting more args₀, m.stack.frames = .call b P (.enter args) :: rest ∧
    m.cx.calls.Alike calls ∧ n.Mirrored ∧ n.cx = m.cx.inWarp P calls ∧
    n.stack.frames = (Routine.call b P (.arguments waiting more args₀) :: rest).map
      (Routine.inWarp P) ∧
    passArguments b more (takeResumed waiting n.stack.resumed args₀) = .complete args

theorem RunsOn.of_goesOn {m m₁ m' : Machine} {result : Except ExecError Slice}
    (h : m.RunsOn result m') (hstep : m.step.GoesOn m₁) : m₁.RunsOn result m' := by
  cases h with
  | halt hhalt hne =>
    rw [hhalt] at hstep
    exact absurd hstep (Step.not_goesOn_halt hne _ _)
  | on hon hrun =>
    rw [hstep.unique hon]
    exact hrun

theorem RunsOn.of_halt {m m₁ m' : Machine} {result result₁ : Except ExecError Slice}
    (h : m.RunsOn result m') (hstep : m.step = .halt result₁ m₁) (hne : result₁ ≠ .ok .yielded) :
    result = result₁ ∧ m' = m₁ := by
  cases h with
  | halt hhalt _ =>
    rw [hhalt] at hstep
    cases hstep
    exact ⟨rfl, rfl⟩
  | on hon hrun =>
    rw [hstep] at hon
    exact absurd hon (Step.not_goesOn_halt hne _ _)

/-- What a step leaves of the frames: all but the top one, if there are others. -/
theorem step_frames {m : Machine} (hm : m.Over ds False) {top : Routine} {rest : List Routine}
    (hframes : m.stack.frames = top :: rest) (hrest : rest ≠ []) :
    ∃ new, m.step.machine.stack.frames = new ++ rest := by
  cases hres : top.resume m.stack.resumed m.cx with
  | mk reply cx =>
    cases reply with
    | error e =>
      rw [step_of_error hframes hres]
      exact ⟨[top], rfl⟩
    | ok x =>
      obtain ⟨flow, top'⟩ := x
      rw [step_of_ok hframes hres]
      cases flow with
      | done v =>
        cases rest with
        | nil => exact absurd rfl hrest
        | cons r rest => exact ⟨[], rfl⟩
      | evaluate i =>
        obtain ⟨new, v, heq, -⟩ := evaluate_over ((hm.resume hframes).2 hres).1 (top' :: rest) cx
        rw [follow, heq]
        refine ⟨new ++ [top'], ?_⟩
        rw [List.append_assoc]
        rfl
      | evaluateAtOnce i => exact ((hm.resume hframes).2 hres).1.elim
      | pause =>
        rw [follow]
        split
        · exact ⟨[top'], rfl⟩
        · rw [suspend_machine]
          exact ⟨[top'], rfl⟩
      | await a =>
        rw [follow, suspend_machine]
        exact ⟨[top'], rfl⟩
      | quit =>
        rw [follow, suspend_machine]
        exact ⟨[top'], rfl⟩

/-- The call returns, and its value is dropped with the rest of the script. -/
theorem leave_steps {m : Machine} {b : Block} {d : Declaration}
    (hframes : m.stack.frames = [.call b d .leave, .stack []]) :
    ∃ m₁, m.step = .next m₁ ∧
      m₁.step = .halt (.ok (.finished .null)) ⟨{}, m.cx.exitCall⟩ := by
  refine ⟨⟨⟨[.stack []], some .null⟩, m.cx.exitCall⟩, ?_, rfl⟩
  rw [step_of_ok hframes rfl]
  rfl

/-- The recursive call is made: both machines enter the body, or both find none. -/
theorem Entering.step {m n : Machine} (h : Entering P m n) :
    (∃ e m₁ n₁, m.step = .halt (.error e) m₁ ∧ n.step = .halt (.error e) n₁ ∧
      n₁.cx.world = m₁.cx.world.inWarp P) ∨
    ∃ m₁ n₁, m.step = .next m₁ ∧ n.step = .next n₁ ∧ Aligned P m₁ n₁ := by
  obtain ⟨b, args, rest, calls, waiting, more, args₀, hframes, halike, hmirror, hcx, hframes',
    hargs⟩ := h
  have hres : (Routine.call b P (.enter args)).resume m.stack.resumed m.cx =
      Routine.enterBody b P args m.cx := rfl
  have hres' : ((Routine.call b P (.arguments waiting more args₀)).inWarp P).resume
      n.stack.resumed n.cx = Routine.enterBody (b.inWarp P) (P.inWarp P) args n.cx := by
    simp only [Routine.inWarp, Routine.resume, passArguments_inWarp, hargs, Passed.inWarp,
      Routine.guardCall, Declaration.inWarp_self, Bool.not_true, Bool.false_and,
      Bool.false_eq_true, if_false]
  rw [List.map_cons] at hframes'
  obtain ⟨calls', halike', heq⟩ := Routine.enterBody_inWarp (P := P) b P args halike
  rw [hcx, heq] at hres'
  rw [Routine.enterBody] at hres hres' halike'
  cases hbody : m.cx.scene.bodyOf? P.signature with
  | none =>
    rw [hbody] at hres hres' halike'
    rw [step_of_error hframes hres, step_of_error hframes' (by rw [hcx]; exact hres')]
    exact .inl ⟨_, _, _, rfl, rfl, rfl⟩
  | some body =>
    rw [hbody] at hres hres' halike'
    have hstep := step_of_ok hframes hres
    have hstep' := step_of_ok hframes' (by rw [hcx]; exact hres')
    obtain ⟨m₁, hm₁⟩ : ∃ m₁, evaluate (.call b P .leave :: rest) (.stack body)
        (m.cx.enterCall ⟨P.id, args, P.warp⟩) = .next m₁ := by
      cases body <;> exact ⟨_, rfl⟩
    have hn₁ := evaluate_inWarp (P := P) (.call b P .leave :: rest) (.stack body)
      (m.cx.enterCall ⟨P.id, args, P.warp⟩) calls'
    rw [hm₁] at hn₁
    have hnext : n.step = .next (m₁.inWarp P calls') := hstep'.trans hn₁
    refine .inr ⟨m₁, _, hstep.trans hm₁, hnext, calls', ?_, hmirror.next hnext, rfl⟩
    have hcx₁ := evaluate_cx (.call b P .leave :: rest) (.stack body)
      (m.cx.enterCall ⟨P.id, args, P.warp⟩)
    rw [hm₁] at hcx₁
    have hcx₁ : m₁.cx = _ := hcx₁
    rw [hcx₁]
    exact halike'

/-- Inside the call the machines move in step, unless a recursive call gives way. -/
theorem Aligned.step {m n : Machine} (h : Aligned P m n) (hm : m.Over ds False) {top : Routine}
    {rest : List Routine} (hframes : m.stack.frames = top :: rest)
    (hleave : ∃ b, Routine.call b P .leave ∈ rest) :
    (∃ calls, m.step.machine.cx.calls.Alike calls ∧ n.step = m.step.inWarp P calls) ∨
      ∃ m₁, m.step.GoesOn m₁ ∧ Entering P m₁ n := by
  obtain ⟨calls, halike, hmirror, rfl⟩ := h
  rcases Routine.resume_inWarp (P := P) (hm.resume hframes).1 m.stack.resumed halike with
    hmatch | ⟨b, args, hgives⟩
  · exact .inl (step_inWarp hm hframes hmatch hmirror fun _ _ _ => hleave)
  · refine .inr ?_
    obtain ⟨waiting, more, args₀, rfl, hargs⟩ := hgives.arguments
    have hstep := step_of_ok hframes hgives.resume
    have hentering : Entering P ⟨⟨.call b P (.enter args) :: rest, none⟩, m.cx⟩
        (m.inWarp P calls) := by
      refine ⟨b, args, rest, calls, waiting, more, args₀, rfl, halike, hmirror, rfl, ?_, hargs⟩
      rw [inWarp, hframes]
    refine ⟨_, ?_, hentering⟩
    rw [hstep, follow]
    split
    · exact .inl rfl
    · obtain ⟨result, heq, rfl | ⟨hf, -⟩⟩ :=
        ((hm.resume hframes).2 hgives.resume).2.1.suspend_eq .yielded "yielded"
      · exact .inr heq
      · exact hf.elim

theorem Over.goesOn {m m₁ : Machine} (hm : m.Over ds False) (h : m.step.GoesOn m₁) :
    m₁.Over ds False := by
  have hleads := leads_step hm
  rcases h with h | h <;> rw [h] at hleads <;> exact hleads.1

theorem drive_of_next {n n₁ : Machine} (h : n.step = .next n₁) (fuel : Nat) :
    drive (fuel + 1) n = drive fuel n₁ := by
  rw [drive, h]

theorem drive_of_halt {n n₁ : Machine} {result : Except ExecError Slice}
    (h : n.step = .halt result n₁) (fuel : Nat) : drive (fuel + 1) n = some (result, n₁) := by
  rw [drive, h]

/-- The machine stays inside the call until the call returns. -/
theorem Within.goesOn {m m₁ : Machine} {top : Routine} {above : List Routine} {b : Block}
    (hm : m.Over ds False)
    (hframes : m.stack.frames = top :: above ++ [.call b P .leave, .stack []])
    (hon : m.step.GoesOn m₁) : m₁.Within P := by
  have hne : above ++ [Routine.call b P .leave, .stack []] ≠ [] :=
    List.append_ne_nil_of_right_ne_nil _ (List.cons_ne_nil _ _)
  rw [List.cons_append] at hframes
  obtain ⟨new, hnew⟩ := step_frames hm hframes hne
  rw [hon.machine_eq, ← List.append_assoc] at hnew
  exact ⟨_, _, hnew⟩

/-- Inside the call a machine that halts does so in warp mode too. -/
theorem halt_inWarp {m m' n : Machine} {result : Except ExecError Slice} (hm : m.Over ds False)
    (hw : m.Within P) (hn : Aligned P m n ∨ Entering P m n) (hhalt : m.step = .halt result m')
    (hne : result ≠ .ok .yielded) :
    ∃ n', n.step = .halt result n' ∧ n'.cx.world = m'.cx.world.inWarp P := by
  obtain ⟨above, b, hframes⟩ := hw
  rcases hn with haligned | hentering
  · cases above with
    | nil =>
      obtain ⟨m₁, hstep, -⟩ := leave_steps hframes
      rw [hhalt] at hstep
      cases hstep
    | cons top above =>
      rcases haligned.step hm hframes ⟨b, by simp⟩ with ⟨calls, -, hstep⟩ | ⟨m₁, hon, -⟩
      · rw [hhalt, Step.inWarp_halt hne] at hstep
        exact ⟨_, hstep, rfl⟩
      · rw [hhalt] at hon
        exact absurd hon (Step.not_goesOn_halt hne m' m₁)
  · rcases hentering.step with ⟨e, m₁, n₁, hm₁, hn₁, hworld⟩ | ⟨m₁, n₁, hm₁, -⟩
    · rw [hhalt] at hm₁
      cases hm₁
      exact ⟨n₁, hn₁, hworld⟩
    · rw [hhalt] at hm₁
      cases hm₁

/-- When the call returns, both machines finish. -/
theorem Aligned.leave {m m' n : Machine} {result : Except ExecError Slice} (h : Aligned P m n)
    {b : Block} (hframes : m.stack.frames = [.call b P .leave, .stack []])
    (hrun : m.RunsOn result m') :
    ∃ n', drive 2 n = some (result, n') ∧ n'.cx.world = m'.cx.world.inWarp P := by
  obtain ⟨calls, -, -, rfl⟩ := h
  obtain ⟨m₁, hstep, hhalt⟩ := leave_steps hframes
  obtain ⟨rfl, rfl⟩ := (hrun.of_goesOn (.inl hstep)).of_halt hhalt (by rintro ⟨⟩)
  obtain ⟨n₁, hstep', hhalt'⟩ := leave_steps (m := m.inWarp P calls) (b := b.inWarp P)
    (d := P.inWarp P) (by rw [Machine.inWarp, hframes]; rfl)
  refine ⟨⟨{}, (m.inWarp P calls).cx.exitCall⟩, ?_, rfl⟩
  rw [drive_of_next hstep', drive_of_halt hhalt']

/-- A run over pauses is one slice of the machine in warp mode. -/
theorem RunsOn.inWarp {m m' : Machine} {result : Except ExecError Slice} (h : m.RunsOn result m')
    (hm : m.Over ds False) (hw : m.Within P) {n : Machine}
    (hn : Aligned P m n ∨ Entering P m n) :
    ∃ fuel n', drive fuel n = some (result, n') ∧ n'.cx.world = m'.cx.world.inWarp P := by
  induction h generalizing n with
  | halt hhalt hne =>
    obtain ⟨n', hstep, hworld⟩ := halt_inWarp hm hw hn hhalt hne
    exact ⟨1, n', drive_of_halt hstep 0, hworld⟩
  | @on m m₁ m' result hon hrun ih =>
    have hm₁ := hm.goesOn hon
    obtain ⟨above, b, hframes⟩ := hw
    cases above with
    | nil =>
      rcases hn with haligned | ⟨b', args, rest, _, _, _, _, hframes', -⟩
      · exact ⟨2, haligned.leave hframes (.on hon hrun)⟩
      · rw [hframes] at hframes'
        cases hframes'
    | cons top above =>
      have hw₁ := Within.goesOn hm hframes hon
      have hnext : ∀ {n₁}, n.step = .next n₁ → Aligned P m₁ n₁ →
          ∃ fuel n', drive fuel n = some (result, n') ∧
            n'.cx.world = m'.cx.world.inWarp P := by
        intro n₁ hstep haligned
        obtain ⟨fuel, n', hdrive, hworld⟩ := ih hm₁ hw₁ (.inl haligned)
        refine ⟨fuel + 1, n', ?_, hworld⟩
        rw [drive_of_next hstep]
        exact hdrive
      rcases hn with haligned | hentering
      · rcases haligned.step hm hframes ⟨b, by simp⟩ with ⟨calls, halike, hstep⟩ | ⟨m₂, hon', hent⟩
        · rw [hon.inWarp] at hstep
          obtain ⟨_, _, hmirror, -⟩ := haligned
          rw [hon.machine_eq] at halike
          exact hnext hstep ⟨calls, halike, hmirror.next hstep, rfl⟩
        · -- the machine in warp mode waits while the other gives way
          rw [hon'.unique hon] at hent
          exact ih hm₁ hw₁ (.inr hent)
      · rcases hentering.step with ⟨e, m₂, n₁, hm₂, -, -⟩ | ⟨m₂, n₁, hm₂, hn₁, haligned⟩
        · rw [hm₂] at hon
          exact absurd hon (Step.not_goesOn_halt (by rintro ⟨⟩) m₂ m₁)
        · rw [← hon.unique (.inl hm₂)] at haligned
          exact hnext hn₁ haligned

end Machine

/-! ### Threads -/

/-- How a slice ends a thread: the outcome of the step, and the result of the thread. -/
def ending? : Except ExecError Slice → Option (Except ExecError Status × Option Value)
  | .error e => some (.error e, none)
  | .ok (.finished v) => some (.ok .done, some v)
  | .ok .exited => some (.ok .done, none)
  | .ok .yielded | .ok (.awaiting _) => none

/-- The thread is stepped alone, again and again.  It is left running every time but the last, when
it is done or fails. -/
inductive Thread.RunsTo :
    Thread → World → Except ExecError Status → Thread → World → Prop
  | last {t t' : Thread} {w w' : World} {fuel : Nat} {outcome : Except ExecError Status} :
      t.step fuel w = some (outcome, t', w') → (outcome = .ok .done ∨ ∃ e, outcome = .error e) →
      RunsTo t w outcome t' w'
  | again {t t₁ t' : Thread} {w w₁ w' : World} {fuel : Nat} {outcome : Except ExecError Status} :
      t.step fuel w = some (.ok .running, t₁, w₁) → RunsTo t₁ w₁ outcome t' w' →
      RunsTo t w outcome t' w'

namespace Machine

/-- A slice that does more than give way is a run; one that gives way begins one. -/
theorem drive_runsOn :
    ∀ {fuel : Nat} {m m' : Machine} {result : Except ExecError Slice},
      drive fuel m = some (result, m') →
      (result ≠ .ok .yielded → m.RunsOn result m') ∧
        (result = .ok .yielded → ∀ {r m''}, m'.RunsOn r m'' → m.RunsOn r m'')
  | 0, _, _, _, h => by cases h
  | fuel + 1, m, m', result, h => by
    rw [drive] at h
    split at h
    · rename_i m₁ hstep
      obtain ⟨hend, hyield⟩ := drive_runsOn h
      exact ⟨fun hne => .on (.inl hstep) (hend hne), fun heq _ _ hrun =>
        .on (.inl hstep) (hyield heq hrun)⟩
    · rename_i hstep
      cases h
      refine ⟨fun hne => .halt hstep hne, ?_⟩
      rintro rfl r m'' hrun
      exact .on (.inr hstep) hrun

end Machine

namespace Thread

theorem step_of_ending {t : Thread} {w : World} {fuel : Nat} {result : Except ExecError Slice}
    {m : Machine} {outcome : Except ExecError Status} {v : Option Value}
    (hr : t.status = .running) (hknown : (w.scene.target? t.target).isNone = false)
    (hdrive : Machine.drive fuel (t.machine w) = some (result, m))
    (hend : ending? result = some (outcome, v)) :
    t.step fuel w = some (outcome, t.finish v, m.cx.world) := by
  rw [step_of_running hr hknown, hdrive]
  rcases result with e | slice
  · cases hend
    rfl
  · cases slice <;> cases hend <;> rfl

/-- What a step comes to: it ends the thread, leaves it running where it gave way, or parks it. -/
theorem step_cases {t t' : Thread} {w w' : World} {fuel : Nat}
    {outcome : Except ExecError Status} (hr : t.status = .running) (ht : t.Over ds)
    (hw : w.scene.Over ds) (hknown : (w.scene.target? t.target).isNone = false)
    (h : t.step fuel w = some (outcome, t', w')) :
    ∃ result m, Machine.drive fuel (t.machine w) = some (result, m) ∧ w' = m.cx.world ∧
      ((∃ v, ending? result = some (outcome, v) ∧ t' = t.finish v) ∨
        (result = .ok .yielded ∧ outcome = .ok .running ∧
          t' = { t with stack := m.stack, calls := m.cx.calls }) ∨
        outcome = .ok .parked) := by
  rw [step_of_running hr hknown] at h
  obtain ⟨⟨result, m⟩, hdrive, heq⟩ := Option.map_eq_some_iff.mp h
  refine ⟨result, m, hdrive, ?_⟩
  cases heq
  refine ⟨rfl, ?_⟩
  have hm : (t.machine w).Over ds False := ⟨fun r hr => .inl (ht.frames r hr), hw⟩
  rcases result with e | slice
  · exact .inl ⟨none, rfl, rfl⟩
  · cases slice with
    | finished v => exact .inl ⟨some v, rfl, rfl⟩
    | exited => exact .inl ⟨none, rfl, rfl⟩
    | yielded => exact .inr (.inl ⟨rfl, congrArg Except.ok hr, rfl⟩)
    | awaiting a =>
      refine .inr (.inr ?_)
      obtain ⟨-, ⟨-, hna⟩ | ⟨token, hissues, hres | ⟨hf, -⟩⟩⟩ := Machine.drive_ended hm hdrive
      · exact absurd rfl (hna a)
      · cases hres
        exact congrArg (fun u : Thread => Except.ok u.status) (absorb_awaiting t hissues)
      · exact hf.elim

/-- After a slice that gave way, the thread goes on from where the machine stopped. -/
theorem machine_of_yielded {t : Thread} {w : World} {fuel : Nat} {m : Machine}
    {result : Except ExecError Slice} (h : Machine.drive fuel (t.machine w) = some (result, m)) :
    ({ t with stack := m.stack, calls := m.cx.calls } : Thread).machine m.cx.world = m := by
  have hstays := Machine.stays_drive h
  obtain ⟨stack, cx⟩ := m
  obtain ⟨world, target, calls, payload, thread⟩ := cx
  have htarget : target = t.target := hstays.target
  have hpayload : payload = t.payload := hstays.payload
  have hthread : thread = some t.id := hstays.thread
  rw [htarget, hpayload, hthread]
  rfl

/-- A thread that is stepped alone to its end is one run of its machine. -/
theorem RunsTo.runsOn {t t' : Thread} {w w' : World} {outcome : Except ExecError Status}
    (h : t.RunsTo w outcome t' w') (hr : t.status = .running) (ht : t.Over ds)
    (hw : w.scene.Over ds) (hknown : (w.scene.target? t.target).isNone = false) :
    ∃ result m v, (t.machine w).RunsOn result m ∧ ending? result = some (outcome, v) ∧
      t' = t.finish v ∧ w' = m.cx.world := by
  induction h with
  | last hstep hout =>
    obtain ⟨result, m, hdrive, rfl, ⟨v, hend, rfl⟩ | ⟨-, rfl, -⟩ | rfl⟩ :=
      step_cases hr ht hw hknown hstep
    · refine ⟨result, m, v, (Machine.drive_runsOn hdrive).1 ?_, hend, rfl, rfl⟩
      rintro rfl
      cases hend
    · rcases hout with hout | ⟨e, hout⟩ <;> cases hout
    · rcases hout with hout | ⟨e, hout⟩ <;> cases hout
  | @again t t₁ t' w w₁ w' fuel outcome hstep hrun ih =>
    have hstepped := step_stepped ht hw hr hstep
    obtain ⟨result, m, hdrive, rfl, ⟨v, hend, -⟩ | ⟨rfl, -, rfl⟩ | hout⟩ :=
      step_cases hr ht hw hknown hstep
    · rcases result with e | slice
      · cases hend
      · cases slice <;> cases hend
    · have hw₁ : m.cx.world.scene.Over ds := by
        rcases hstepped.waits with ⟨-, hq⟩ | ⟨token, -, -, hi⟩
        · exact hq.over hw
        · exact hi.over hw
      have hknown₁ : (m.cx.world.scene.target? t.target).isNone = false := by
        have hlength : m.cx.world.scene.targets.length = w.scene.targets.length :=
          (Machine.stays_drive hdrive).targets
        rw [Bool.eq_false_iff, Ne, Option.isNone_iff_eq_none, Scene.target?,
          List.getElem?_eq_none_iff] at hknown ⊢
        rw [hlength]
        exact hknown
      obtain ⟨result, m', v, hrunsOn, hend, rfl, rfl⟩ := ih hr hstepped.known hw₁ hknown₁
      rw [machine_of_yielded hdrive] at hrunsOn
      exact ⟨result, m', v, (Machine.drive_runsOn hdrive).2 rfl hrunsOn, hend, rfl, rfl⟩
    · cases hout

end Thread

/-! ### The script that calls the custom block -/

/-- The block calls the custom block, with literal arguments. -/
structure Block.Calls (P : Declaration) (b : Block) : Prop where
  prototype : P.callDefinition.build = .ok b.prototype
  literals : ∀ e ∈ b.inputs, ∃ v, e.2 = .literal v

namespace Block

theorem Calls.over {b : Block} (h : b.Calls P) (hP : P ∈ ds) : b.Over ds := by
  refine .intro (.inr ⟨P, hP, h.prototype⟩) fun e he => ?_
  obtain ⟨v, hv⟩ := h.literals e he
  rw [hv]
  exact .literal v

theorem Calls.hat {b : Block} (h : b.Calls P) : b.hat = none := by
  have hhat : ∀ {p : Prototype}, P.callDefinition.build = .ok p → p.hat = none := by
    intro p hp
    rw [Definition.build] at hp
    split at hp <;> cases hp
    rfl
  exact hhat h.prototype

theorem Calls.start {b : Block} (h : b.Calls P) :
    b.start = .ok (.call b P (.arguments none P.params [])) := by
  have hop : b.operation = .call P := Declaration.callDefinition_operation h.prototype
  rw [Block.start, hop]

theorem Calls.passArguments {b : Block} (h : b.Calls P) :
    ∀ (names : List String) (args : Args),
      ∃ args', Blockwork.passArguments b names args = .complete args'
  | [], args => ⟨args, rfl⟩
  | n :: rest, args => by
    have hinput : ∃ v, b.input n = .literal v := by
      rw [Block.input]
      cases hg : Table.get? n b.inputs with
      | none => exact ⟨.null, rfl⟩
      | some i => exact h.literals _ (Table.mem_of_get? hg)
    obtain ⟨v, hv⟩ := hinput
    rw [Blockwork.passArguments, hv]
    exact h.passArguments rest _

end Block

namespace Machine

/-- A call of the custom block by a thread that makes no other: the body is entered at once, or
there is none. -/
theorem call_steps {b : Block} (hb : b.Calls P) {m : Machine}
    (hframes : m.stack.frames = [.stack [b]]) (hcalls : m.cx.calls = {}) :
    ∃ m₁, m.step = .next m₁ ∧
      m₁.stack.frames = [.call b P (.arguments none P.params []), .stack []] ∧
      (∀ top' cx, (Routine.call b P (.arguments none P.params [])).resume m₁.stack.resumed m₁.cx ≠
        (.ok (.pause, top'), cx)) ∧
      ((∃ e m₂, m₁.step = .halt (.error e) m₂) ∨ ∃ m₂, m₁.step = .next m₂ ∧ m₂.Within P) := by
  obtain ⟨args, hargs⟩ := hb.passArguments P.params []
  obtain ⟨m₁, hm₁⟩ : ∃ m₁ : Machine,
      m₁ = ⟨⟨[.call b P (.arguments none P.params []), .stack []], none⟩, m.cx⟩ := ⟨_, rfl⟩
  have hframes₁ : m₁.stack.frames = [.call b P (.arguments none P.params []), .stack []] := by
    rw [hm₁]
  have hres : (Routine.call b P (.arguments none P.params [])).resume m₁.stack.resumed m₁.cx =
      Routine.enterBody b P args m.cx := by
    rw [hm₁]
    simp only [Routine.resume, takeResumed, hargs, Routine.guardCall, hcalls, CallStack.contains,
      List.any_nil, Bool.and_false, Bool.false_eq_true, if_false]
  refine ⟨m₁, ?_, hframes₁, ?_, ?_⟩
  · rw [hm₁, step_of_ok hframes rfl, follow]
    simp only [evaluate, hb.start]
  · intro top' cx h
    rw [hres, Routine.enterBody] at h
    split at h <;> cases h
  · rw [Routine.enterBody] at hres
    split at hres
    · exact .inl ⟨_, _, step_of_error hframes₁ hres⟩
    · rename_i body _
      refine .inr ?_
      rw [step_of_ok hframes₁ hres, follow]
      cases body with
      | nil => exact ⟨_, rfl, [], b, rfl⟩
      | cons c body => exact ⟨_, rfl, [.stack (c :: body)], b, rfl⟩

/-- The whole run of such a call is one slice in warp mode. -/
theorem RunsOn.call_inWarp {b : Block} (hb : b.Calls P) {m m' : Machine} (hm : m.Over ds False)
    (hframes : m.stack.frames = [.stack [b]]) (hcalls : m.cx.calls = {})
    {result : Except ExecError Slice} (h : m.RunsOn result m') :
    ∃ fuel n', drive fuel (m.inWarp P {}) = some (result, n') ∧
      n'.cx.world = m'.cx.world.inWarp P := by
  have hmirror : (m.inWarp P {}).Mirrored := by
    refine CallStack.mirrors_empty fun r hr => ?_
    rw [Machine.inWarp, hframes] at hr
    rw [List.mem_singleton.mp hr]
    rfl
  have halike : m.cx.calls.Alike {} := by
    rw [hcalls]
    rfl
  obtain ⟨m₁, hstep, hframes₁, hpause, hnext⟩ := call_steps hb hframes hcalls
  have hm₁ := hm.goesOn (.inl hstep)
  have hrun₁ := h.of_goesOn (.inl hstep)
  -- the first step starts the call
  have hmatch : (Routine.stack [b]).Matches P m.stack.resumed m.cx {} := ⟨{}, halike, rfl⟩
  obtain ⟨calls₁, halike₁, hstep₁⟩ := step_inWarp hm hframes hmatch hmirror fun _ _ hres => by
    cases hres
  rw [hstep] at halike₁ hstep₁
  have hmirror₁ := hmirror.next hstep₁
  -- the second one enters the body
  have hmatch₁ : (Routine.call b P (.arguments none P.params [])).Matches P m₁.stack.resumed m₁.cx
      calls₁ := by
    rcases Routine.resume_inWarp (hm₁.resume hframes₁).1 m₁.stack.resumed halike₁ with
      hmatch | ⟨b', args, hgives⟩
    · exact hmatch
    · exact absurd hgives.resume (hpause _ _)
  obtain ⟨calls₂, halike₂, hstep₂⟩ :=
    step_inWarp hm₁ hframes₁ hmatch₁ hmirror₁ fun _ _ hres => absurd hres (hpause _ _)
  rcases hnext with ⟨e, m₂, hhalt⟩ | ⟨m₂, hstep₃, hwithin⟩
  · rw [hhalt] at hstep₂
    obtain ⟨rfl, rfl⟩ := hrun₁.of_halt hhalt (by rintro ⟨⟩)
    refine ⟨2, m'.inWarp P calls₂, ?_, rfl⟩
    rw [drive_of_next hstep₁, drive_of_halt hstep₂]
  · rw [hstep₃] at halike₂ hstep₂
    have hmirror₂ := hmirror₁.next hstep₂
    obtain ⟨fuel, n', hdrive, hworld⟩ := (hrun₁.of_goesOn (.inl hstep₃)).inWarp
      (hm₁.goesOn (.inl hstep₃)) hwithin (.inl ⟨calls₂, halike₂, hmirror₂, rfl⟩)
    refine ⟨fuel + 2, n', ?_, hworld⟩
    rw [drive_of_next hstep₁, drive_of_next hstep₂]
    exact hdrive

end Machine

namespace Thread

theorem machine_launch_inWarp (id : Nat) (script : Script) (target : Nat) (payload : Option Value)
    (w : World) :
    (launch id (script.inWarp P) target payload).machine (w.inWarp P) =
      ((launch id script target payload).machine w).inWarp P {} := by
  simp only [machine, launch, Script.body_inWarp]
  rfl

end Thread

/-- Warp mode changes only scheduling.  A thread calls the custom block with literal arguments, and
is stepped alone until it is done or fails.  With the custom block warp, and everything else the
same, its first step comes to the same outcome, with the same result, and leaves the same world. -/
theorem warp_changes_only_scheduling (ds : List Declaration) {P : Declaration} (hP : P ∈ ds)
    {b : Block} (hb : b.Calls P) {w : World} (hw : w.scene.Over ds) {id target : Nat}
    {payload : Option Value} {outcome : Except ExecError Status} {t' : Thread} {w' : World}
    (hrun : (Thread.launch id ⟨b, []⟩ target payload).RunsTo w outcome t' w') :
    ∃ fuel, (Thread.launch id (Script.inWarp P ⟨b, []⟩) target payload).step fuel (w.inWarp P) =
      some (outcome, { t' with script := t'.script.inWarp P }, w'.inWarp P) := by
  have hknown' : ((w.inWarp P).scene.target? target).isNone = (w.scene.target? target).isNone := by
    rw [World.inWarp, Scene.target?_inWarp, Option.isNone_map]
  cases hknown : (w.scene.target? target).isNone with
  | true =>
    have hunknown := fun fuel => Thread.step_of_unknown (t := .launch id ⟨b, []⟩ target payload) rfl
      hknown fuel
    cases hrun with
    | last hstep hout =>
      rw [hunknown] at hstep
      cases hstep
      exact ⟨0, Thread.step_of_unknown rfl (hknown'.trans hknown) 0⟩
    | again hstep hrun =>
      rw [hunknown] at hstep
      cases hstep
  | false =>
    have hscript : Script.Over ds ⟨b, []⟩ := List.forall_mem_singleton.mpr (hb.over hP)
    have hover := Thread.over_launch hscript id target payload
    have hm : ((Thread.launch id ⟨b, []⟩ target payload).machine w).Over ds False :=
      ⟨fun r hr => .inl (hover.frames r hr), hw⟩
    have hbody : Script.body ⟨b, []⟩ = [b] := by
      rw [Script.body, Script.hat, hb.hat]
      rfl
    obtain ⟨result, m, v, hrunsOn, hend, rfl, rfl⟩ := hrun.runsOn rfl hover hw hknown
    obtain ⟨fuel, n', hdrive, hworld⟩ :=
      hrunsOn.call_inWarp hb hm (congrArg (fun bs => [Routine.stack bs]) hbody) rfl
    rw [← Thread.machine_launch_inWarp] at hdrive
    refine ⟨fuel, ?_⟩
    rw [Thread.step_of_ending rfl (hknown'.trans hknown) hdrive hend, hworld]
    rfl

/-- A custom block that loops, and calls itself in the loop. -/
def Declaration.settling : Declaration := ⟨"settling", "settling", [], false⟩

/-- Its call block. -/
def Block.settling : Block :=
  .mk { opcode := "settling", inputs := [], operation := .call .settling, returns := none,
        isPure := false, hat := none } "call" 0 []

/-- Reads whether the variable is set. -/
def Block.settled : Block :=
  .mk (Library.reporter "data_variable" [("VARIABLE", .field)] Library.storable .getVariable)
    "read" 1 [("VARIABLE", .literal (.str "settled"))]

/-- Sets the variable. -/
def Block.settle : Block :=
  .mk (Library.command "data_setvariableto" [("VARIABLE", .field), ("VALUE", .any)] .setVariable)
    "set" 2 [("VARIABLE", .literal (.str "settled")), ("VALUE", .literal (.bool true))]

/-- The body of the custom block: until the variable is set, set it and call the custom block. -/
def Block.untilSettled : Block :=
  .mk (Library.control "control_repeat_until" [("CONDITION", .condition), ("SUBSTACK", .substack)]
    (.repeatUntil true)) "loop" 3
    [("CONDITION", .block .settled), ("SUBSTACK", .stack [.settle, .settling])]

theorem Block.settling_calls : Block.settling.Calls .settling :=
  ⟨rfl, fun _ he => absurd he List.not_mem_nil⟩

theorem Block.settled_over : Block.settled.Over [.settling] := by
  refine .intro (.inl (List.mem_of_getElem? (i := 28) rfl)) ?_
  exact List.forall_mem_singleton.mpr (.literal _)

theorem Block.settle_over : Block.settle.Over [.settling] := by
  refine .intro (.inl (List.mem_of_getElem? (i := 29) rfl)) ?_
  exact List.forall_mem_cons.mpr ⟨.literal _, List.forall_mem_singleton.mpr (.literal _)⟩

theorem Block.untilSettled_over : Block.untilSettled.Over [.settling] := by
  have hcall : Block.settling.Over [.settling] :=
    Block.settling_calls.over (List.mem_singleton_self _)
  have hstack : Input.Over [.settling] (.stack [.settle, .settling]) :=
    .stack (List.forall_mem_cons.mpr ⟨Block.settle_over, List.forall_mem_singleton.mpr hcall⟩)
  refine .intro (.inl (List.mem_of_getElem? (i := 6) rfl)) ?_
  exact List.forall_mem_cons.mpr ⟨.block Block.settled_over, List.forall_mem_singleton.mpr hstack⟩

/-- A scene that gives the custom block its body. -/
def Scene.settling : Scene :=
  { targets := [{ Target.stage with vars := [("settled", .bool false)] }]
    procedures := [⟨.settling, some [.untilSettled]⟩] }

theorem Scene.settling_over : Scene.settling.Over [.settling] := by
  refine ⟨fun _ hx => absurd hx List.not_mem_nil, List.forall_mem_singleton.mpr ?_⟩
  rintro body ⟨⟩
  exact List.forall_mem_singleton.mpr Block.untilSettled_over

/-- The call gives way once for its recursion and once for its loop, and in warp mode not at all. -/
theorem warp_changes_only_scheduling_settling :
    ∃ t₁ w₁ t₂ w₂ t' w',
      (Thread.launch 0 ⟨.settling, []⟩ 0 none).step 20 { scene := .settling } =
        some (.ok .running, t₁, w₁) ∧
      t₁.step 20 w₁ = some (.ok .running, t₂, w₂) ∧
      t₂.step 20 w₂ = some (.ok .done, t', w') ∧
      ∃ fuel, (Thread.launch 0 (Script.inWarp .settling ⟨.settling, []⟩) 0 none).step fuel
        (World.inWarp .settling { scene := .settling }) =
          some (.ok .done, { t' with script := t'.script.inWarp .settling },
            w'.inWarp .settling) := by
  refine ⟨_, _, _, _, _, _, rfl, rfl, rfl, ?_⟩
  refine warp_changes_only_scheduling [.settling] (List.mem_singleton_self _) Block.settling_calls
    Scene.settling_over ?_
  exact @Thread.RunsTo.again _ _ _ _ _ _ 20 _ rfl (@Thread.RunsTo.again _ _ _ _ _ _ 20 _ rfl
    (@Thread.RunsTo.last _ _ _ _ 20 _ rfl (.inl rfl)))

end Blockwork
