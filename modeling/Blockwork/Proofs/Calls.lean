import Blockwork.Proofs.Slice

/-!
The call stack mirrors the frames.

A call is on the call stack exactly while its routine stands among the frames in its last phase: it
is pushed when the body is asked for, and popped when the routine is resumed after the body.  Every
step of a machine keeps this, and nothing else touches the call stack.  No step leaves the thread or
the target that its context is for.
-/

namespace Blockwork

/-- The custom block and the mode of a call whose body is being run. -/
def Routine.openCall? : Routine → Option (String × Bool)
  | .call _ d .leave => some (d.id, d.warp)
  | _ => none

/-- The calls are those of the frames, in the same order, and the warp ones are counted. -/
structure CallStack.Mirrors (s : CallStack) (frames : List Routine) : Prop where
  calls : s.calls.map (fun c => (c.procedure, c.warp)) = frames.filterMap Routine.openCall?
  warpDepth : s.warpDepth = s.calls.countP (·.warp)

/-- The call stack of the context mirrors the frames. -/
def Machine.Mirrored (m : Machine) : Prop := m.cx.calls.Mirrors m.stack.frames

namespace CallStack

theorem mirrors_empty {frames : List Routine} (h : ∀ r ∈ frames, r.openCall? = none) :
    ({} : CallStack).Mirrors frames :=
  ⟨(List.filterMap_eq_nil_iff.mpr h).symm, rfl⟩

variable {s : CallStack} {r : Routine} {frames : List Routine}

theorem Mirrors.closed (h : s.Mirrors (r :: frames)) (hr : r.openCall? = none) :
    s.Mirrors frames := by
  have hcalls := h.calls
  rw [List.filterMap_cons_none hr] at hcalls
  exact ⟨hcalls, h.warpDepth⟩

theorem Mirrors.cons (h : s.Mirrors frames) (hr : r.openCall? = none) :
    s.Mirrors (r :: frames) :=
  ⟨by rw [List.filterMap_cons_none hr]; exact h.calls, h.warpDepth⟩

theorem Mirrors.push (h : s.Mirrors frames) (c : Call)
    (hr : r.openCall? = some (c.procedure, c.warp)) : (s.push c).Mirrors (r :: frames) := by
  refine ⟨?_, ?_⟩
  · rw [List.filterMap_cons_some hr, ← h.calls]
    rfl
  · show (if c.warp then s.warpDepth + 1 else s.warpDepth) = (c :: s.calls).countP (·.warp)
    rw [List.countP_cons, h.warpDepth]
    split <;> rfl

theorem Mirrors.pop {x : String × Bool} (h : s.Mirrors (r :: frames))
    (hr : r.openCall? = some x) : s.pop.2.Mirrors frames := by
  have hcalls := h.calls
  have hdepth := h.warpDepth
  rw [List.filterMap_cons_some hr] at hcalls
  rw [CallStack.pop]
  cases hs : s.calls with
  | nil =>
    rw [hs] at hcalls
    cases hcalls
  | cons c rest =>
    rw [hs] at hcalls hdepth
    refine ⟨(List.cons.inj hcalls).2, ?_⟩
    rw [List.countP_cons] at hdepth
    simp only
    split
    · rename_i hwarp
      rw [hdepth, if_pos hwarp]
      rfl
    · rename_i hwarp
      rw [hdepth, if_neg hwarp]
      rfl

end CallStack

/-! ### Bodies -/

/-- The context is for the same thread and target as before, and the scene has as many targets. -/
structure Context.Stays (cx cx' : Context) : Prop where
  target : cx'.target = cx.target
  payload : cx'.payload = cx.payload
  thread : cx'.thread = cx.thread
  targets : cx'.scene.targets.length = cx.scene.targets.length

/-- Moreover, the calls are as before. -/
structure Context.Keeps (cx cx' : Context) : Prop extends cx.Stays cx' where
  calls : cx'.calls = cx.calls

namespace Context

theorem Stays.refl (cx : Context) : cx.Stays cx := ⟨rfl, rfl, rfl, rfl⟩

theorem Stays.trans {cx cx' cx'' : Context} (h : cx.Stays cx') (h' : cx'.Stays cx'') :
    cx.Stays cx'' :=
  ⟨h'.target.trans h.target, h'.payload.trans h.payload, h'.thread.trans h.thread,
    h'.targets.trans h.targets⟩

theorem Keeps.refl (cx : Context) : cx.Keeps cx := ⟨.refl cx, rfl⟩

theorem Keeps.trans {cx cx' cx'' : Context} (h : cx.Keeps cx') (h' : cx'.Keeps cx'') :
    cx.Keeps cx'' := ⟨h.toStays.trans h'.toStays, h'.calls.trans h.calls⟩

theorem keeps_services (cx : Context) (services : Services) : cx.Keeps (cx.withServices services) :=
  ⟨⟨rfl, rfl, rfl, rfl⟩, rfl⟩

theorem keeps_modifyTarget (cx : Context) (i : Nat) (f : Target → Target) :
    cx.Keeps (cx.withScene (cx.scene.modifyTarget i f)) :=
  ⟨⟨rfl, rfl, rfl, List.length_modify ..⟩, rfl⟩

theorem keeps_redrawIfVisible (cx : Context) : cx.Keeps cx.redrawIfVisible := by
  rw [redrawIfVisible]
  split
  · exact cx.keeps_services _
  · exact .refl cx

theorem keeps_setVariable {cx cx' : Context} {name : String} {v : Value}
    (h : cx.setVariable name v = .ok cx') : cx.Keeps cx' := by
  rw [setVariable] at h
  split at h
  · rename_i scene hs
    cases h
    obtain ⟨j, -, rfl⟩ := Option.map_eq_some_iff.mp hs
    exact cx.keeps_modifyTarget j _
  · cases h

theorem keeps_setList {cx cx' : Context} {name : String} {items : List Value}
    (h : cx.setList name items = .ok cx') : cx.Keeps cx' := by
  rw [setList] at h
  split at h
  · rename_i scene hs
    cases h
    obtain ⟨j, -, rfl⟩ := Option.map_eq_some_iff.mp hs
    exact cx.keeps_modifyTarget j _
  · cases h

end Context

namespace Body

theorem keeps_command {cx : Context} {x : Except ExecError Context}
    (hx : ∀ cx', x = .ok cx' → cx.Keeps cx') : cx.Keeps (command cx x).2 := by
  cases x with
  | error e => exact .refl cx
  | ok cx' => exact hx cx' rfl

theorem keeps_report (cx : Context) (x : Except ExecError Value) : cx.Keeps (report cx x).2 := by
  cases x <;> exact .refl cx

/-- No body touches the calls, or moves to another target. -/
theorem run_keeps (body : Body) (opcode : String) (args : Args) (cx : Context) :
    cx.Keeps (body.run opcode args cx).2 := by
  cases body with
  | extended e => cases e <;> exact ⟨⟨rfl, rfl, rfl, rfl⟩, rfl⟩
  | stop =>
    simp only [run]
    repeat' split
    all_goals first
      | exact .refl cx
      | exact cx.keeps_services _
  | costumeInfo =>
    simp only [run]
    repeat' split
    all_goals exact .refl cx
  | getVariable | itemOfList | lengthOfList => exact keeps_report cx _
  | setVariable => exact keeps_command fun cx' h => Context.keeps_setVariable h
  | clearList => exact keeps_command fun cx' h => Context.keeps_setList h
  | changeVariable =>
    refine keeps_command fun cx' h => ?_
    cases hv : cx.getVariable (args.text "VARIABLE") with
    | error e => rw [hv] at h; cases h
    | ok current => rw [hv] at h; exact Context.keeps_setVariable h
  | addToList =>
    refine keeps_command fun cx' h => ?_
    cases hv : cx.getList (args.text "LIST") with
    | error e => rw [hv] at h; cases h
    | ok items => rw [hv] at h; exact Context.keeps_setList h
  | motion | switchCostume | nextCostume =>
    exact (cx.keeps_modifyTarget cx.target _).trans (Context.keeps_redrawIfVisible _)
  | reveal | hide => exact (cx.keeps_modifyTarget cx.target _).trans (Context.keeps_services _ _)
  | wait | broadcastAndWait => exact ⟨⟨rfl, rfl, rfl, rfl⟩, rfl⟩
  | broadcast => exact cx.keeps_services _
  | resetTimer => exact ⟨⟨rfl, rfl, rfl, rfl⟩, rfl⟩
  | idle | binary | unary | timerAbove | reading | timer | parameter => exact .refl cx

end Body

/-! ### Routines -/

/-- What a routine leaves on the call stack: a finished one nothing of its own, and one that has
become another what the other stands for. -/
def Flow.Mirrors (flow : Flow) (s : CallStack) (top : Routine) (rest : List Routine) : Prop :=
  match flow with
  | .done _ => s.Mirrors rest
  | _ => s.Mirrors (top :: rest)

theorem Flow.mirrors_of_closed {s : CallStack} {r r' : Routine} {rest : List Routine}
    (h : s.Mirrors (r :: rest)) (hr : r.openCall? = none) (hr' : r'.openCall? = none)
    (flow : Flow) : flow.Mirrors s r' rest := by
  have hrest := h.closed hr
  cases flow with
  | done v => exact hrest
  | _ => exact hrest.cons hr'

theorem Block.openCall?_start {b : Block} {r : Routine} (h : b.start = .ok r) :
    r.openCall? = none := by
  rw [Block.start] at h
  split at h <;> cases h <;> rfl

namespace Routine

theorem enterBody_mirrors {b : Block} {d : Declaration} {args : Args} {cx cx' : Context}
    {rest : List Routine} {flow : Flow} {r' : Routine} (hc : cx.calls.Mirrors rest)
    (h : enterBody b d args cx = (.ok (flow, r'), cx')) : flow.Mirrors cx'.calls r' rest := by
  rw [enterBody] at h
  split at h
  · cases h
  · cases h
    exact hc.push ⟨d.id, args, d.warp⟩ rfl

/-- Resuming the top routine keeps the mirror. -/
theorem resume_mirrors {r r' : Routine} {rest : List Routine} {v : Option Value}
    {cx cx' : Context} {flow : Flow} (hc : cx.calls.Mirrors (r :: rest))
    (h : r.resume v cx = (.ok (flow, r'), cx')) : flow.Mirrors cx'.calls r' rest := by
  cases r with
  | gather b body waiting more args =>
    simp only [resume] at h
    split at h
    · cases h
      exact Flow.mirrors_of_closed hc rfl rfl _
    · rename_i args' _
      split at h
      · rename_i hrun
        cases h
        have hkeeps := Body.run_keeps body b.opcode args' cx
        rw [hrun] at hkeeps
        rw [hkeeps.calls]
        exact Flow.mirrors_of_closed hc rfl rfl _
      · cases h
  | stack more =>
    cases more <;> cases h <;> exact Flow.mirrors_of_closed hc rfl rfl _
  | repeatTimes b phase =>
    have hturn : ∀ n, repeatBody b n = (flow, r') → cx'.calls = cx.calls →
        flow.Mirrors cx'.calls r' rest := by
      intro n hn hcalls
      rw [hcalls]
      rw [repeatBody] at hn
      split at hn <;> cases hn <;> exact Flow.mirrors_of_closed hc rfl rfl _
    cases phase with
    | start | pause =>
      cases h
      exact Flow.mirrors_of_closed hc rfl rfl _
    | count | body =>
      simp only [resume, Prod.mk.injEq, Except.ok.injEq] at h
      exact hturn _ h.1 (by rw [h.2])
  | forever b inBody =>
    cases inBody <;> cases h <;> exact Flow.mirrors_of_closed hc rfl rfl _
  | branch b hasElse phase =>
    simp only [resume] at h
    repeat' split at h
    all_goals
      cases h
      exact Flow.mirrors_of_closed hc rfl rfl _
  | repeatUntil b hasBody phase =>
    simp only [resume] at h
    repeat' split at h
    all_goals
      cases h
      exact Flow.mirrors_of_closed hc rfl rfl _
  | call b d phase =>
    cases phase with
    | arguments waiting more args =>
      simp only [resume] at h
      split at h
      · cases h
        exact Flow.mirrors_of_closed hc rfl rfl _
      · rw [guardCall] at h
        split at h
        · cases h
          exact Flow.mirrors_of_closed hc rfl rfl _
        · exact enterBody_mirrors (hc.closed rfl) h
    | enter args => exact enterBody_mirrors (hc.closed rfl) h
    | leave =>
      cases h
      exact hc.pop rfl
  | relay | ask | askAtOnce | fence =>
    cases h
    exact Flow.mirrors_of_closed hc rfl rfl _

/-- A routine that fails leaves the calls as they are. -/
theorem resume_calls_of_error {r : Routine} {v : Option Value} {cx cx' : Context} {e : ExecError}
    (h : r.resume v cx = (.error e, cx')) : cx'.calls = cx.calls := by
  have henter : ∀ {b : Block} {d : Declaration} {args : Args},
      enterBody b d args cx = (.error e, cx') → cx'.calls = cx.calls := by
    intro b d args he
    rw [enterBody] at he
    split at he <;> cases he
    rfl
  cases r with
  | gather b body waiting more args =>
    simp only [resume] at h
    split at h
    · cases h
    · rename_i args' _
      split at h
      · cases h
      · rename_i hrun
        cases h
        have hkeeps := Body.run_keeps body b.opcode args' cx
        rw [hrun] at hkeeps
        exact hkeeps.calls
  | call b d phase =>
    cases phase with
    | arguments waiting more args =>
      simp only [resume] at h
      split at h
      · cases h
      · rw [guardCall] at h
        split at h
        · cases h
        · exact henter h
    | enter args => exact henter h
    | leave => cases h
  | stack more => cases more <;> cases h
  | repeatTimes b phase => cases phase <;> cases h
  | forever b inBody => cases inBody <;> cases h
  | branch b hasElse phase =>
    simp only [resume] at h
    repeat' split at h
    all_goals cases h
  | repeatUntil b hasBody phase =>
    simp only [resume] at h
    repeat' split at h
    all_goals cases h
  | relay | ask | askAtOnce | fence => cases h

theorem stays_enterBody (b : Block) (d : Declaration) (args : Args) (cx : Context) :
    cx.Stays (enterBody b d args cx).2 := by
  rw [enterBody]
  split <;> exact ⟨rfl, rfl, rfl, rfl⟩

/-- A routine runs for the same thread and target to its end. -/
theorem resume_stays (r : Routine) (v : Option Value) (cx : Context) :
    cx.Stays (r.resume v cx).2 := by
  cases r with
  | gather b body waiting more args =>
    simp only [resume]
    split
    · exact .refl cx
    · rename_i args' _
      have hkeeps := Body.run_keeps body b.opcode args' cx
      split
      · rename_i hrun
        rw [hrun] at hkeeps
        exact hkeeps.toStays
      · rename_i hrun
        rw [hrun] at hkeeps
        exact hkeeps.toStays
  | call b d phase =>
    cases phase with
    | arguments waiting more args =>
      simp only [resume]
      split
      · exact .refl cx
      · rw [guardCall]
        split
        · exact .refl cx
        · exact stays_enterBody b d _ cx
    | enter args => exact stays_enterBody b d args cx
    | leave => exact ⟨rfl, rfl, rfl, rfl⟩
  | stack more => cases more <;> exact .refl cx
  | repeatTimes b phase => cases phase <;> exact .refl cx
  | forever b inBody => cases inBody <;> exact .refl cx
  | branch b hasElse phase =>
    simp only [resume]
    repeat' split
    all_goals exact .refl cx
  | repeatUntil b hasBody phase =>
    simp only [resume]
    repeat' split
    all_goals exact .refl cx
  | relay | ask | askAtOnce | fence => exact .refl cx

/-! ### The body that is run -/

/-- The body that the routine runs when it is resumed, with its block and its inputs. -/
def runs? (r : Routine) (v : Option Value) : Option (Block × Body × Args) :=
  match r with
  | .gather b body waiting rest args =>
    match Blockwork.gather rest (takeResumed waiting v args) with
    | .wants .. => none
    | .complete args => some (b, body, args)
  | _ => none

theorem resume_of_runs {r : Routine} {v : Option Value} {b : Block} {body : Body} {args : Args}
    (h : r.runs? v = some (b, body, args)) (cx : Context) :
    r.resume v cx =
      ((body.run b.opcode args cx).1.map (·, .relay), (body.run b.opcode args cx).2) := by
  cases r with
  | gather b' body' waiting rest args' =>
    simp only [runs?] at h
    simp only [resume]
    cases hg : Blockwork.gather rest (takeResumed waiting v args') with
    | wants name i rest args =>
      rw [hg] at h
      cases h
    | complete args =>
      rw [hg] at h
      cases h
      simp only
      cases body.run b.opcode args cx with
      | mk reply cx' => cases reply <;> rfl
  | _ => cases h

section

variable {cx : Context} {f : Context → Context}
  (hbodies : ∀ signature, (f cx).scene.bodyOf? signature = cx.scene.bodyOf? signature)
  (hcalls : ∀ change : CallStack → CallStack,
    { f cx with calls := change (f cx).calls } = f { cx with calls := change cx.calls })
include hbodies hcalls

theorem enterBody_mapCx (b : Block) (d : Declaration) (args : Args) :
    enterBody b d args (f cx) = ((enterBody b d args cx).1, f (enterBody b d args cx).2) := by
  rw [enterBody, enterBody, hbodies]
  cases cx.scene.bodyOf? d.signature with
  | none => rfl
  | some body => exact congrArg (Prod.mk _) (hcalls (CallStack.push ⟨d.id, args, d.warp⟩))

/-- All that a routine reads of the context, unless it runs a body, are the custom blocks and the
calls. -/
theorem resume_mapCx (hsame : (f cx).calls = cx.calls) {r : Routine} {v : Option Value}
    (h : r.runs? v = none) : r.resume v (f cx) = ((r.resume v cx).1, f (r.resume v cx).2) := by
  cases r with
  | gather b body waiting rest args =>
    simp only [runs?] at h
    simp only [resume]
    cases hg : Blockwork.gather rest (takeResumed waiting v args) with
    | wants name i rest args => rfl
    | complete args =>
      rw [hg] at h
      cases h
  | stack rest => cases rest <;> rfl
  | repeatTimes b phase => cases phase <;> rfl
  | forever b inBody => cases inBody <;> rfl
  | branch b hasElse phase =>
    simp only [resume]
    repeat' split
    all_goals rfl
  | repeatUntil b hasBody phase =>
    simp only [resume]
    repeat' split
    all_goals rfl
  | call b d phase =>
    cases phase with
    | arguments waiting rest args =>
      simp only [resume]
      cases passArguments b rest (takeResumed waiting v args) with
      | wants name i rest args => rfl
      | complete args =>
        simp only [guardCall, hsame]
        split
        · rfl
        · exact enterBody_mapCx hbodies hcalls b d args
    | enter args => exact enterBody_mapCx hbodies hcalls b d args
    | leave => exact congrArg (Prod.mk _) (hcalls fun calls => calls.pop.2)
  | relay | ask | askAtOnce | fence => rfl

end

end Routine

/-! ### Steps -/

/-- The machine that a step leads to. -/
def Step.machine : Step → Machine
  | .next m | .halt _ m => m

namespace Machine

theorem evaluate_cx (frames : List Routine) (i : Input) (cx : Context) :
    (evaluate frames i cx).machine.cx = cx := by
  cases i with
  | literal v => rfl
  | block b =>
    rw [evaluate]
    split <;> rfl
  | stack bs => cases bs <;> rfl

theorem suspend_machine (m : Machine) (slice : Slice) (reason : String) :
    (m.suspend slice reason).machine = m := by
  rw [suspend]
  split <;> rfl

theorem follow_cx (flow : Flow) (top : Routine) (rest : List Routine) (cx : Context) :
    (follow flow top rest cx).machine.cx = cx := by
  cases flow with
  | done v => cases rest <;> rfl
  | evaluate i => exact evaluate_cx ..
  | evaluateAtOnce i =>
    cases i with
    | literal v => rfl
    | block b => exact evaluate_cx (.fence b.opcode :: top :: rest) (.block b) cx
    | stack bs =>
      cases bs with
      | nil => rfl
      | cons b bs => exact evaluate_cx (.fence b.opcode :: top :: rest) (.stack (b :: bs)) cx
  | pause =>
    rw [follow]
    split
    · rfl
    · rw [suspend_machine]
  | await a => rw [follow, suspend_machine]
  | quit => rw [follow, suspend_machine]

theorem stays_step (m : Machine) : m.cx.Stays m.step.machine.cx := by
  rw [step]
  split
  · exact .refl _
  · rename_i top rest hframes
    have hstays := top.resume_stays m.stack.resumed m.cx
    split
    · rename_i hres
      rw [hres] at hstays
      rw [follow_cx]
      exact hstays
    · rename_i hres
      rw [hres] at hstays
      exact hstays

/-! ### Steps in another context -/

/-- The same frames in another context. -/
def mapCx (f : Context → Context) (m : Machine) : Machine := ⟨m.stack, f m.cx⟩

end Machine

def Step.mapCx (f : Context → Context) : Step → Step
  | .next m => .next (m.mapCx f)
  | .halt result m => .halt result (m.mapCx f)

namespace Machine

variable (f : Context → Context)

theorem evaluate_mapCx (frames : List Routine) (i : Input) (cx : Context) :
    evaluate frames i (f cx) = (evaluate frames i cx).mapCx f := by
  cases i with
  | literal v => rfl
  | block b =>
    rw [evaluate, evaluate]
    cases b.start <;> rfl
  | stack bs => cases bs <;> rfl

theorem evaluateAtOnce_mapCx (frames : List Routine) (i : Input) (cx : Context) :
    evaluateAtOnce frames i (f cx) = (evaluateAtOnce frames i cx).mapCx f := by
  cases i with
  | literal v => rfl
  | block b => exact evaluate_mapCx f (.fence b.opcode :: frames) (.block b) cx
  | stack bs =>
    cases bs with
    | nil => rfl
    | cons b bs => exact evaluate_mapCx f (.fence b.opcode :: frames) (.stack (b :: bs)) cx

theorem suspend_mapCx (m : Machine) (slice : Slice) (reason : String) :
    (m.mapCx f).suspend slice reason = (m.suspend slice reason).mapCx f := by
  have hstack : (m.mapCx f).stack = m.stack := rfl
  rw [suspend, suspend, hstack]
  cases m.stack.fence? <;> rfl

/-- What a routine asks for depends on the context only through the calls. -/
theorem follow_mapCx {cx : Context} (hcalls : (f cx).calls = cx.calls) (flow : Flow)
    (top : Routine) (rest : List Routine) :
    follow flow top rest (f cx) = (follow flow top rest cx).mapCx f := by
  cases flow with
  | done v => cases rest <;> rfl
  | evaluate i => exact evaluate_mapCx ..
  | evaluateAtOnce i => exact evaluateAtOnce_mapCx ..
  | pause =>
    rw [follow, follow, hcalls]
    split
    · rfl
    · exact suspend_mapCx f ⟨⟨top :: rest, none⟩, cx⟩ _ _
  | await a => exact suspend_mapCx f ⟨⟨top :: rest, none⟩, cx⟩ _ _
  | quit => exact suspend_mapCx f ⟨⟨top :: rest, none⟩, cx⟩ _ _

variable {f} {g : Context → Context}

/-- A step commutes with a change of context if the resumption of the top routine does. -/
theorem step_mapCx {m : Machine} (hnil : m.stack.frames = [] → f m.cx = g m.cx)
    (hcalls : ∀ cx, (g cx).calls = cx.calls)
    (hresume : ∀ top rest, m.stack.frames = top :: rest →
      top.resume m.stack.resumed (f m.cx) =
        ((top.resume m.stack.resumed m.cx).1, g (top.resume m.stack.resumed m.cx).2)) :
    (m.mapCx f).step = m.step.mapCx g := by
  cases hframes : m.stack.frames with
  | nil =>
    have hframes' : (m.mapCx f).stack.frames = [] := hframes
    rw [step, step, hframes', hframes]
    exact congrArg (fun cx => Step.halt _ ⟨{}, cx⟩) (hnil hframes)
  | cons top rest =>
    have hframes' : (m.mapCx f).stack.frames = top :: rest := hframes
    have hres' := hresume top rest hframes
    cases hres : top.resume m.stack.resumed m.cx with
    | mk reply cx =>
      rw [hres] at hres'
      cases reply with
      | error e =>
        rw [step_of_error hframes hres, step_of_error hframes' hres']
        rfl
      | ok x =>
        rw [step_of_ok hframes hres, step_of_ok hframes' hres']
        exact follow_mapCx g (hcalls cx) ..

/-! ### The mirror along steps -/

theorem mirrored_evaluate {frames : List Routine} {cx : Context} (h : cx.calls.Mirrors frames)
    (i : Input) : (evaluate frames i cx).machine.Mirrored := by
  cases i with
  | literal v => exact h
  | block b =>
    rw [evaluate]
    split
    · rename_i r hstart
      exact h.cons (Block.openCall?_start hstart)
    · exact h
  | stack bs =>
    cases bs with
    | nil => exact h
    | cons b bs => exact h.cons rfl

theorem mirrored_evaluateAtOnce {frames : List Routine} {cx : Context}
    (h : cx.calls.Mirrors frames) (i : Input) : (evaluateAtOnce frames i cx).machine.Mirrored := by
  have hfence : ∀ opcode, cx.calls.Mirrors (.fence opcode :: frames) := fun _ => h.cons rfl
  cases i with
  | literal v => exact h
  | block b => exact mirrored_evaluate (hfence b.opcode) (.block b)
  | stack bs =>
    cases bs with
    | nil => exact h
    | cons b bs => exact mirrored_evaluate (hfence b.opcode) (.stack (b :: bs))

theorem mirrored_suspend {m : Machine} (h : m.Mirrored) (slice : Slice) (reason : String) :
    (m.suspend slice reason).machine.Mirrored := by
  rw [suspend_machine]
  exact h

theorem mirrored_follow {flow : Flow} {top : Routine} {rest : List Routine} {cx : Context}
    (h : flow.Mirrors cx.calls top rest) : (follow flow top rest cx).machine.Mirrored := by
  have hsuspend : cx.calls.Mirrors (top :: rest) → ∀ slice reason,
      (suspend ⟨⟨top :: rest, none⟩, cx⟩ slice reason).machine.Mirrored :=
    fun hc => mirrored_suspend hc
  cases flow with
  | done v => cases rest <;> exact h
  | evaluate i => exact mirrored_evaluate h i
  | evaluateAtOnce i => exact mirrored_evaluateAtOnce h i
  | pause =>
    rw [follow]
    split
    · exact h
    · exact hsuspend h _ _
  | await a => exact hsuspend h _ _
  | quit => exact hsuspend h _ _

/-- Every step keeps the mirror, also the one that ends a slice. -/
theorem Mirrored.step {m : Machine} (h : m.Mirrored) : m.step.machine.Mirrored := by
  rw [Machine.step]
  split
  · rename_i hframes
    rw [Mirrored, hframes] at h
    exact h
  · rename_i top rest hframes
    rw [Mirrored, hframes] at h
    split
    · rename_i hres
      exact mirrored_follow (Routine.resume_mirrors h hres)
    · rename_i e cx hres
      show cx.calls.Mirrors (top :: rest)
      rw [Routine.resume_calls_of_error hres]
      exact h

theorem Mirrored.next {m m' : Machine} (h : m.Mirrored) (hstep : m.step = .next m') :
    m'.Mirrored := by
  have hm' := h.step
  rw [hstep] at hm'
  exact hm'

theorem Mirrored.drive {fuel : Nat} {m m' : Machine} {result : Except ExecError Slice}
    (h : m.Mirrored) (hdrive : drive fuel m = some (result, m')) : m'.Mirrored := by
  obtain ⟨last, hlast, hhalt⟩ := drive_induction (fun _ _ hx hstep => hx.next hstep) h hdrive
  have hm' := hlast.step
  rw [hhalt] at hm'
  exact hm'

theorem stays_drive {fuel : Nat} {m m' : Machine} {result : Except ExecError Slice}
    (h : Machine.drive fuel m = some (result, m')) : m.cx.Stays m'.cx := by
  have hnext : ∀ x x' : Machine, m.cx.Stays x.cx → x.step = .next x' → m.cx.Stays x'.cx := by
    intro x x' hx hstep
    have hx' := x.stays_step
    rw [hstep] at hx'
    exact hx.trans hx'
  obtain ⟨last, hlast, hhalt⟩ := drive_induction hnext (.refl _) h
  have hm' := last.stays_step
  rw [hhalt] at hm'
  exact hlast.trans hm'

end Machine

/-! ### Threads -/

/-- The threads that come of scripts over the vocabulary, whatever is done with them and on whatever
scenes they run. -/
inductive Thread.Arises (ds : List Declaration) : Thread → Prop
  | launch {script : Script} (id target : Nat) (payload : Option Value) :
      script.Over ds → Arises ds (.launch id script target payload)
  | step {t t' : Thread} {w w' : World} {fuel : Nat} {outcome : Except ExecError Status} :
      Arises ds t → w.scene.Over ds → t.step fuel w = some (outcome, t', w') → Arises ds t'
  | poll {t : Thread} (s : Signals) : Arises ds t → Arises ds (t.poll s).2
  | resolve {t : Thread} (generation : Nat) (v : Value) :
      Arises ds t → Arises ds (t.resolve generation v).2
  | restart {t : Thread} (payload : Option Value) : Arises ds t → Arises ds (t.restart payload)
  | retire {t : Thread} : Arises ds t → Arises ds t.retire

namespace Thread

variable {ds : List Declaration}

/-- The thread has the same script, frames and calls. -/
structure SameFrames (t t' : Thread) : Prop where
  script : t'.script = t.script
  frames : t'.stack.frames = t.stack.frames
  calls : t'.calls = t.calls

theorem sameFrames_resolve (generation : Nat) (v : Value) (t : Thread) :
    t.SameFrames (t.resolve generation v).2 := by
  rw [resolve]
  split <;> exact ⟨rfl, rfl, rfl⟩

theorem sameFrames_poll (s : Signals) (t : Thread) : t.SameFrames (t.poll s).2 := by
  rw [poll]
  split
  · exact ⟨rfl, rfl, rfl⟩
  · split
    · rename_i p _ _ v _ _
      have h := sameFrames_resolve p.generation v { t with pending := none }
      exact ⟨h.script, h.frames, h.calls⟩
    · exact ⟨rfl, rfl, rfl⟩

/-- The call stack of the thread mirrors its frames. -/
def Mirrored (t : Thread) : Prop := t.calls.Mirrors t.stack.frames

theorem mirrored_finish (result : Option Value) (t : Thread) : (t.finish result).Mirrored :=
  CallStack.mirrors_empty fun _ hr => absurd hr List.not_mem_nil

theorem mirrored_ofBlocks {t : Thread} {blocks : List Block} (hs : t.stack = .ofBlocks blocks)
    (hc : t.calls = {}) : t.Mirrored := by
  rw [Mirrored, hs, hc]
  refine CallStack.mirrors_empty fun r hr => ?_
  rw [List.mem_singleton.mp hr]
  rfl

theorem SameFrames.mirrored {t t' : Thread} (h : t.SameFrames t') (ht : t.Mirrored) :
    t'.Mirrored := by
  rw [Mirrored, h.frames, h.calls]
  exact ht

theorem SameFrames.over {t t' : Thread} (h : t.SameFrames t') (ht : t.Over ds) : t'.Over ds :=
  ⟨by rw [h.script]; exact ht.script, by rw [h.frames]; exact ht.frames⟩

theorem mirrored_absorb {t : Thread} {result : Except ExecError Slice} {m : Machine}
    (hm : m.Mirrored) : (t.absorb result m).Mirrored := by
  rcases result with e | slice
  · exact mirrored_finish _ _
  · cases slice with
    | finished v => exact mirrored_finish _ _
    | exited => exact mirrored_finish _ _
    | yielded => exact hm
    | awaiting a => exact (sameFrames_poll _ _).mirrored hm

theorem Mirrored.step {t t' : Thread} {w w' : World} {fuel : Nat}
    {outcome : Except ExecError Status} (ht : t.Mirrored)
    (h : t.step fuel w = some (outcome, t', w')) : t'.Mirrored := by
  rw [Thread.step] at h
  split at h
  · cases h
    exact ht
  · split at h
    · cases h
      exact mirrored_finish _ _
    · obtain ⟨⟨result, m⟩, hdrive, heq⟩ := Option.map_eq_some_iff.mp h
      cases heq
      have hm : (t.machine w).Mirrored := ht
      exact mirrored_absorb (hm.drive hdrive)

/-- What is done with a thread keeps it over the vocabulary, and keeps the mirror. -/
theorem Arises.over_mirrored {t : Thread} (h : t.Arises ds) : t.Over ds ∧ t.Mirrored := by
  induction h with
  | launch id target payload hscript =>
    exact ⟨over_launch hscript id target payload, mirrored_ofBlocks rfl rfl⟩
  | @step t t' w w' fuel outcome ht hw hstep ih =>
    refine ⟨?_, ih.2.step hstep⟩
    by_cases hr : t.status = .running
    · exact (step_stepped ih.1 hw hr hstep).known
    · rw [step_of_resting hr] at hstep
      cases hstep
      exact ih.1
  | poll s _ ih => exact ⟨(sameFrames_poll s _).over ih.1, (sameFrames_poll s _).mirrored ih.2⟩
  | resolve generation v _ ih =>
    have hsame := sameFrames_resolve generation v
    exact ⟨(hsame _).over ih.1, (hsame _).mirrored ih.2⟩
  | restart payload _ ih => exact ⟨ih.1.restart payload, mirrored_ofBlocks rfl rfl⟩
  | retire _ ih => exact ⟨ih.1.finish none, mirrored_finish none _⟩

end Thread

end Blockwork
