import Blockwork.Proofs.CallFrames

/-!
A slice looks at no signal.

Running blocks never ask what has become of a signal: all they read is the next token, and all they do
is begin a signal and wait for it.  So the same slice on other signals, as many of them, does the same
and begins the same (`Machine.drive_withSignals`).  The only place where an outcome counts is the poll
of a parked thread.  This holds for every body, those that a host adds included.
-/

namespace Blockwork

/-- What a body begins: nothing, a signal, or a signal whose token the host holds. -/
inductive Beginning where
  | nothing
  | signal
  | hosted
  deriving DecidableEq

namespace Beginning

/-- The signals afterwards. -/
def apply (s : Signals) : Beginning → Signals
  | .nothing => s
  | .signal => s.fresh.2
  | .hosted => s.freshHosted.2

/-- A signal is begun exactly for a wait, which is for that signal.  `size` is the next token. -/
def Fits (size : Nat) (b : Beginning) : Option Awaitable → Prop
  | some (.waiting token) => token = size ∧ b ≠ .nothing
  | _ => b = .nothing

end Beginning

/-! ### Other signals -/

def World.withSignals (s : Signals) (w : World) : World := { w with signals := s }

namespace Context

def withSignals (s : Signals) (cx : Context) : Context := { cx with world := cx.world.withSignals s }

/-- The token of the next signal. -/
def nextToken (cx : Context) : Token := cx.world.signals.outcomes.size

theorem redrawIfVisible_withSignals (s : Signals) (cx : Context) :
    (cx.withSignals s).redrawIfVisible = cx.redrawIfVisible.withSignals s := by
  rw [redrawIfVisible, redrawIfVisible]
  show (if cx.self.visible then _ else _) = _
  split <;> rfl

theorem setVariable_withSignals (s : Signals) (name : String) (v : Value) (cx : Context) :
    (cx.withSignals s).setVariable name v = (cx.setVariable name v).map (withSignals s) := by
  have hscene : (cx.withSignals s).scene = cx.scene := rfl
  have htarget : (cx.withSignals s).target = cx.target := rfl
  rw [setVariable, setVariable, hscene, htarget]
  cases cx.scene.setVariable? cx.target name v <;> rfl

theorem setList_withSignals (s : Signals) (name : String) (items : List Value) (cx : Context) :
    (cx.withSignals s).setList name items = (cx.setList name items).map (withSignals s) := by
  have hscene : (cx.withSignals s).scene = cx.scene := rfl
  have htarget : (cx.withSignals s).target = cx.target := rfl
  rw [setList, setList, hscene, htarget]
  cases cx.scene.setList? cx.target name items <;> rfl

theorem modifySelf_withSignals (s : Signals) (f : Target → Target) (cx : Context) :
    (cx.withSignals s).modifySelf f = (cx.modifySelf f).withSignals s := rfl

section

variable {s : Signals} {cx : Context} (hs : s.outcomes.size = cx.nextToken)
include hs

theorem delay_withSignals (length : Nanos) :
    (cx.withSignals s).delay length = ((cx.delay length).1,
      (cx.delay length).2.withSignals s.fresh.2) := by
  have hsize : (cx.withSignals s).world.signals.outcomes.size = cx.nextToken := hs
  simp only [delay, Timers.delay, Signals.fresh, hsize]
  rfl

theorem freshSignal_withSignals :
    (cx.withSignals s).freshSignal = (cx.freshSignal.1, cx.freshSignal.2.withSignals s.fresh.2) :=
  congrArg (·, cx.withSignals s.fresh.2) hs

theorem freshHostedSignal_withSignals :
    (cx.withSignals s).freshHostedSignal =
      (cx.freshHostedSignal.1, cx.freshHostedSignal.2.withSignals s.freshHosted.2) :=
  congrArg (·, cx.withSignals s.freshHosted.2) hs

end

end Context

/-! ### Bodies -/

namespace Body

/-- What a body begins. -/
def begins : Body → Beginning
  | .wait | .broadcastAndWait => .signal
  | .extended .awaitHost => .hosted
  | _ => .nothing

theorem awaited_command (cx : Context) (x : Except ExecError Context) :
    awaited? (command cx x).1 = none := by
  cases x <;> rfl

theorem awaited_report (cx : Context) (x : Except ExecError Value) :
    awaited? (report cx x).1 = none := by
  cases x <;> rfl

theorem begins_fits (body : Body) (opcode : String) (args : Args) (cx : Context) :
    body.begins.Fits cx.nextToken (awaited? (body.run opcode args cx).1) := by
  cases body with
  | extended e =>
    cases e with
    | awaitHost => exact ⟨rfl, Beginning.noConfusion⟩
    | _ => rfl
  | wait | broadcastAndWait => exact ⟨rfl, Beginning.noConfusion⟩
  | stop | costumeInfo =>
    simp only [run]
    repeat' split
    all_goals rfl
  | getVariable | itemOfList | lengthOfList =>
    rw [run, awaited_report]
    rfl
  | setVariable | clearList | changeVariable | addToList =>
    rw [run, awaited_command]
    rfl
  | _ => rfl

theorem command_withSignals (s : Signals) (cx : Context) (x : Except ExecError Context) :
    command (cx.withSignals s) (x.map (Context.withSignals s)) =
      ((command cx x).1, (command cx x).2.withSignals s) := by
  cases x <;> rfl

theorem report_withSignals (s : Signals) (cx : Context) (x : Except ExecError Value) :
    report (cx.withSignals s) x = ((report cx x).1, (report cx x).2.withSignals s) := by
  cases x <;> rfl

/-- On other signals, as many of them, a body replies the same and begins the same. -/
theorem run_withSignals (body : Body) (opcode : String) (args : Args) (cx : Context) {s : Signals}
    (hs : s.outcomes.size = cx.nextToken) :
    body.run opcode args (cx.withSignals s) = ((body.run opcode args cx).1,
      (body.run opcode args cx).2.withSignals (body.begins.apply s)) := by
  have hget : ∀ name, (cx.withSignals s).getVariable name = cx.getVariable name := fun _ => rfl
  have hlist : ∀ name, (cx.withSignals s).getList name = cx.getList name := fun _ => rfl
  cases body with
  | extended e =>
    cases e with
    | awaitHost =>
      simp only [run, Extension.run, Context.freshHostedSignal_withSignals hs]
      rfl
    | _ => rfl
  | wait =>
    simp only [run, Context.delay_withSignals hs]
    rfl
  | broadcastAndWait =>
    simp only [run, Context.freshSignal_withSignals hs]
    rfl
  | stop | costumeInfo =>
    simp only [run]
    repeat' split
    all_goals rfl
  | getVariable | itemOfList | lengthOfList => exact report_withSignals s cx _
  | setVariable =>
    rw [run, Context.setVariable_withSignals]
    exact command_withSignals s cx _
  | clearList =>
    rw [run, Context.setList_withSignals]
    exact command_withSignals s cx _
  | changeVariable =>
    simp only [run, hget]
    cases cx.getVariable (args.text "VARIABLE") with
    | error e => rfl
    | ok current =>
      exact (congrArg (command _) (Context.setVariable_withSignals ..)).trans
        (command_withSignals s cx _)
  | addToList =>
    simp only [run, hlist]
    cases cx.getList (args.text "LIST") with
    | error e => rfl
    | ok items =>
      exact (congrArg (command _) (Context.setList_withSignals ..)).trans
        (command_withSignals s cx _)
  | motion | switchCostume | nextCostume =>
    simp only [run, Context.modifySelf_withSignals, Context.redrawIfVisible_withSignals]
    rfl
  | _ => rfl

end Body

/-! ### Routines -/

namespace Routine

/-- What a routine begins when it is resumed. -/
def begins (r : Routine) (v : Option Value) : Beginning :=
  match r with
  | .gather _ body waiting rest args =>
    match Blockwork.gather rest (takeResumed waiting v args) with
    | .wants .. => .nothing
    | .complete _ => body.begins
  | _ => .nothing

theorem begins_fits (r : Routine) (v : Option Value) (cx : Context) :
    (r.begins v).Fits cx.nextToken (awaited? ((r.resume v cx).1.map Prod.fst)) := by
  cases r with
  | gather b body waiting rest args =>
    simp only [resume, begins]
    cases Blockwork.gather rest (takeResumed waiting v args) with
    | wants name i rest args => rfl
    | complete args =>
      have hfits := body.begins_fits b.opcode args cx
      simp only
      cases hrun : body.run b.opcode args cx with
      | mk reply cx' =>
        rw [hrun] at hfits
        cases reply <;> exact hfits
  | stack rest => cases rest <;> rfl
  | repeatTimes b phase =>
    have hturn : ∀ n, awaited? (.ok (repeatBody b n).1) = none := by
      intro n
      rw [repeatBody]
      split <;> rfl
    cases phase with
    | start | pause => rfl
    | count | body =>
      simp only [resume, Except.map, hturn]
      rfl
  | forever b inBody => cases inBody <;> rfl
  | branch b hasElse phase =>
    simp only [resume]
    repeat' split
    all_goals rfl
  | repeatUntil b hasBody phase =>
    simp only [resume]
    repeat' split
    all_goals rfl
  | call b d phase =>
    cases phase with
    | arguments waiting rest args =>
      simp only [resume]
      split
      · rfl
      · rw [guardCall, enterBody]
        repeat' split
        all_goals rfl
    | enter args =>
      simp only [resume, enterBody]
      split <;> rfl
    | leave => rfl
  | relay | ask | askAtOnce | fence => rfl

theorem begins_of_none {r : Routine} {v : Option Value} (h : r.runs? v = none) :
    r.begins v = .nothing := by
  cases r with
  | gather b body waiting rest args =>
    simp only [runs?] at h
    simp only [begins]
    split
    · rfl
    · rename_i hg
      rw [hg] at h
      cases h
  | _ => rfl

theorem begins_of_runs {r : Routine} {v : Option Value} {b : Block} {body : Body} {args : Args}
    (h : r.runs? v = some (b, body, args)) : r.begins v = body.begins := by
  cases r with
  | gather b' body' waiting rest args' =>
    simp only [runs?] at h
    simp only [begins]
    split
    · rename_i hg
      rw [hg] at h
      cases h
    · rename_i hg
      rw [hg] at h
      cases h
      rfl
  | _ => cases h

/-- On other signals, as many of them, a routine replies the same and begins the same. -/
theorem resume_withSignals (r : Routine) (v : Option Value) (cx : Context) {s : Signals}
    (hs : s.outcomes.size = cx.nextToken) :
    r.resume v (cx.withSignals s) =
      ((r.resume v cx).1, (r.resume v cx).2.withSignals ((r.begins v).apply s)) := by
  cases hruns : r.runs? v with
  | none =>
    rw [begins_of_none hruns]
    exact resume_mapCx (fun _ => rfl) (fun _ => rfl) rfl hruns
  | some run =>
    obtain ⟨b, body, args⟩ := run
    rw [resume_of_runs hruns, resume_of_runs hruns, begins_of_runs hruns,
      Body.run_withSignals body b.opcode args cx hs]

end Routine

/-! ### Machines -/

def Machine.withSignals (s : Signals) (m : Machine) : Machine := ⟨m.stack, m.cx.withSignals s⟩

def Step.withSignals (s : Signals) : Step → Step
  | .next m => .next (m.withSignals s)
  | .halt result m => .halt result (m.withSignals s)

namespace Machine

/-- What a step begins. -/
def begins (m : Machine) : Beginning :=
  match m.stack.frames with
  | [] => .nothing
  | top :: _ => top.begins m.stack.resumed

theorem begins_of_frames {m : Machine} {top : Routine} {rest : List Routine}
    (h : m.stack.frames = top :: rest) : m.begins = top.begins m.stack.resumed := by
  rw [begins, h]

/-- On other signals, as many of them, a step does the same and begins the same. -/
theorem step_withSignals (m : Machine) {s : Signals} (hs : s.outcomes.size = m.cx.nextToken) :
    (m.withSignals s).step = m.step.withSignals (m.begins.apply s) := by
  have hstep : (m.mapCx (Context.withSignals s)).step =
      m.step.mapCx (Context.withSignals (m.begins.apply s)) := by
    refine step_mapCx (fun hnil => ?_) (fun _ => rfl) fun top rest hframes => ?_
    · rw [begins, hnil]
      rfl
    · rw [begins_of_frames hframes]
      exact top.resume_withSignals m.stack.resumed m.cx hs
  refine hstep.trans ?_
  cases m.step <;> rfl

/-- A step that goes on begins nothing. -/
theorem begins_of_next {m m' : Machine} (h : m.step = .next m') : m.begins = .nothing := by
  cases hframes : m.stack.frames with
  | nil =>
    rw [begins, hframes]
  | cons top rest =>
    have hfits := top.begins_fits m.stack.resumed m.cx
    rw [begins_of_frames hframes]
    cases hres : top.resume m.stack.resumed m.cx with
    | mk reply cx =>
      rw [hres] at hfits
      cases reply with
      | error e => exact hfits
      | ok x =>
        obtain ⟨flow, top'⟩ := x
        rw [step_of_ok hframes hres] at h
        cases flow with
        | await a =>
          rw [follow, suspend] at h
          split at h <;> cases h
        | _ => exact hfits

/-- A slice that ends in a wait has begun what it waits for. -/
theorem begins_of_awaiting {m m' : Machine} {a : Awaitable}
    (h : m.step = .halt (.ok (.awaiting a)) m') : m.begins.Fits m.cx.nextToken (some a) := by
  rcases halt_cases h with ⟨v, hv, -⟩ | ⟨top, rest, flow, top', hframes, hres, -, hend⟩
  · cases hv
  · have hfits := top.begins_fits m.stack.resumed m.cx
    rw [hres] at hfits
    rw [begins_of_frames hframes]
    rcases hend with ⟨-, hy, -⟩ | ⟨a', rfl, ha⟩ | ⟨-, hq⟩
    · cases hy
    · cases ha
      exact hfits
    · cases hq

theorem nextToken_of_next {m m' : Machine} (h : m.step = .next m') :
    m'.cx.nextToken = m.cx.nextToken := by
  have hstep : m.step = m.step.withSignals (m.begins.apply m.cx.world.signals) :=
    m.step_withSignals rfl
  rw [begins_of_next h, h] at hstep
  rw [Step.next.inj hstep]
  rfl

/-- A slice on other signals, as many of them, does the same and begins the same.  If it ends in a
wait, that is what it has begun. -/
theorem drive_withSignals (fuel : Nat) (m : Machine) :
    ∃ b : Beginning,
      (∀ a m', drive fuel m = some (.ok (.awaiting a), m') → b.Fits m.cx.nextToken (some a)) ∧
      ∀ s : Signals, s.outcomes.size = m.cx.nextToken →
        drive fuel (m.withSignals s) =
          (drive fuel m).map fun x => (x.1, x.2.withSignals (b.apply s)) := by
  induction fuel generalizing m with
  | zero => exact ⟨.nothing, fun a m' h => (by cases h), fun s _ => rfl⟩
  | succ fuel ih =>
    cases hstep : m.step with
    | next m₁ =>
      obtain ⟨b, hfits, hsame⟩ := ih m₁
      rw [nextToken_of_next hstep] at hfits hsame
      refine ⟨b, fun a m' h => ?_, fun s hs => ?_⟩
      · rw [drive, hstep] at h
        exact hfits a m' h
      · rw [drive, drive, m.step_withSignals hs, hstep, begins_of_next hstep]
        exact hsame s hs
    | halt result m₁ =>
      refine ⟨m.begins, fun a m' h => ?_, fun s hs => ?_⟩
      · rw [drive, hstep] at h
        cases h
        exact begins_of_awaiting hstep
      · rw [drive, drive, m.step_withSignals hs, hstep]
        rfl

theorem signals_of_drive {fuel : Nat} {m m' : Machine} {result : Except ExecError Slice}
    {b : Beginning} (hsame : ∀ s : Signals, s.outcomes.size = m.cx.nextToken →
      drive fuel (m.withSignals s) = (drive fuel m).map fun x => (x.1, x.2.withSignals (b.apply s)))
    (h : drive fuel m = some (result, m')) : m'.cx.world.signals = b.apply m.cx.world.signals := by
  have hown : drive fuel m = _ := hsame m.cx.world.signals rfl
  rw [h] at hown
  exact congrArg (fun x : Except ExecError Slice × Machine => x.2.cx.world.signals)
    (Option.some.inj hown)

end Machine

end Blockwork
