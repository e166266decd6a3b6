import Blockwork.Proofs.CallFrames

/-!
What no block can change about a scene.

A running block moves targets, switches their costumes and gives new values to their variables and
lists.  It adds and removes nothing: the outline of a scene, which is its targets with their scripts
and the names of their variables and lists, the stage, and the custom blocks, is the same after every
body, every step of the machine, every slice and every check of an edge hat.
-/

namespace Blockwork

/-! ### Outlines -/

/-- A target without what blocks can change. -/
structure Target.Outline where
  name : String
  isStage : Bool
  costumes : List String
  vars : List String
  lists : List String
  scripts : List Script

/-- A scene without what blocks can change. -/
structure Scene.Outline where
  targets : List Target.Outline
  stage : Option Nat
  registry : Registry
  procedures : List Procedure

namespace Target

def outline (t : Target) : Outline :=
  { name := t.name
    isStage := t.isStage
    costumes := t.costumes
    vars := Table.names t.vars
    lists := Table.names t.lists
    scripts := t.scripts }

theorem outline_nextCostume (t : Target) : t.nextCostume.outline = t.outline := by
  obtain ⟨n, h⟩ := t.nextCostume_eq
  rw [h]
  rfl

theorem outline_switchCostume (v : Value) (t : Target) :
    (t.switchCostume v).outline = t.outline := by
  obtain ⟨n, h⟩ := t.switchCostume_eq v
  rw [h]
  rfl

theorem outline_motion (m : Motion) (args : Args) (t : Target) :
    (m.apply args t).outline = t.outline := by
  cases m <;> rfl

end Target

namespace Scene

def outline (s : Scene) : Outline :=
  { targets := s.targets.map Target.outline
    stage := s.stage
    registry := s.registry
    procedures := s.procedures }

theorem outline_target? (s : Scene) (i : Nat) :
    s.outline.targets[i]? = (s.target? i).map Target.outline := List.getElem?_map

/-- Every script with its target, as read off the outline. -/
theorem scripts_eq (s : Scene) :
    s.scripts = s.outline.targets.zipIdx.flatMap fun x => x.1.scripts.map (x.2, ·) := by
  rw [outline, List.zipIdx_map, List.flatMap_map]
  rfl

/-- A change of one target that keeps its outline keeps that of the scene. -/
theorem outline_modifyTarget {s : Scene} {i : Nat} {f : Target → Target}
    (hf : ∀ t, s.target? i = some t → (f t).outline = t.outline) :
    (s.modifyTarget i f).outline = s.outline := by
  have htargets : (s.targets.modify i f).map Target.outline = s.targets.map Target.outline := by
    apply List.ext_getElem?
    intro j
    rw [List.getElem?_map, List.getElem?_map, List.getElem?_modify]
    by_cases hij : i = j
    · subst hij
      cases ht : s.targets[i]? with
      | none => rfl
      | some t =>
        simp only [if_true, Option.map_eq_map, Option.map_some]
        rw [hf t ht]
    · simp [hij]
  rw [outline, modifyTarget, htargets]
  rfl

/-- Who owns a name has it. -/
theorem has_of_owner? {s : Scene} {i j : Nat} {has : Target → Bool}
    (h : s.owner? i has = some j) : (s.target? j).any has = true := by
  rw [owner?] at h
  split at h
  · rename_i hi
    cases h
    exact hi
  · obtain ⟨-, hj⟩ := Option.filter_eq_some_iff.mp h
    exact hj

theorem outline_setVariable? {s s' : Scene} {i : Nat} {name : String} {v : Value}
    (h : s.setVariable? i name v = some s') : s'.outline = s.outline := by
  obtain ⟨j, howner, rfl⟩ := Option.map_eq_some_iff.mp h
  have hhas := has_of_owner? howner
  refine outline_modifyTarget fun t ht => ?_
  rw [ht] at hhas
  simp only [Target.outline, Table.names_insert_of_contains v hhas]

theorem outline_setList? {s s' : Scene} {i : Nat} {name : String} {items : List Value}
    (h : s.setList? i name items = some s') : s'.outline = s.outline := by
  obtain ⟨j, howner, rfl⟩ := Option.map_eq_some_iff.mp h
  have hhas := has_of_owner? howner
  refine outline_modifyTarget fun t ht => ?_
  rw [ht] at hhas
  simp only [Target.outline, Table.names_insert_of_contains items hhas]

end Scene

/-! ### Bodies -/

namespace Context

theorem outline_modifySelf (cx : Context) {f : Target → Target}
    (hf : ∀ t, (f t).outline = t.outline) : (cx.modifySelf f).scene.outline = cx.scene.outline :=
  Scene.outline_modifyTarget fun t _ => hf t

theorem redrawIfVisible_scene (cx : Context) : cx.redrawIfVisible.scene = cx.scene := by
  rw [redrawIfVisible]
  split <;> rfl

theorem outline_setVariable {cx cx' : Context} {name : String} {v : Value}
    (h : cx.setVariable name v = .ok cx') : cx'.scene.outline = cx.scene.outline := by
  rw [setVariable] at h
  split at h
  · rename_i hs
    cases h
    exact Scene.outline_setVariable? hs
  · cases h

theorem outline_setList {cx cx' : Context} {name : String} {items : List Value}
    (h : cx.setList name items = .ok cx') : cx'.scene.outline = cx.scene.outline := by
  rw [setList] at h
  split at h
  · rename_i hs
    cases h
    exact Scene.outline_setList? hs
  · cases h

end Context

namespace Body

theorem outline_command {cx : Context} {x : Except ExecError Context}
    (hx : ∀ cx', x = .ok cx' → cx'.scene.outline = cx.scene.outline) :
    (command cx x).2.scene.outline = cx.scene.outline := by
  cases x with
  | error e => rfl
  | ok cx' => exact hx cx' rfl

theorem outline_report (cx : Context) (x : Except ExecError Value) :
    (report cx x).2.scene.outline = cx.scene.outline := by
  cases x <;> rfl

theorem run_outline (body : Body) (opcode : String) (args : Args) (cx : Context) :
    (body.run opcode args cx).2.scene.outline = cx.scene.outline := by
  cases body with
  | extended e => cases e <;> rfl
  | stop =>
    simp only [run]
    repeat' split
    all_goals rfl
  | costumeInfo =>
    simp only [run]
    repeat' split
    all_goals rfl
  | getVariable | itemOfList | lengthOfList => exact outline_report cx _
  | setVariable => exact outline_command fun cx' h => Context.outline_setVariable h
  | clearList => exact outline_command fun cx' h => Context.outline_setList h
  | changeVariable =>
    refine outline_command fun cx' h => ?_
    cases hv : cx.getVariable (args.text "VARIABLE") with
    | error e => rw [hv] at h; cases h
    | ok current => rw [hv] at h; exact Context.outline_setVariable h
  | addToList =>
    refine outline_command fun cx' h => ?_
    cases hv : cx.getList (args.text "LIST") with
    | error e => rw [hv] at h; cases h
    | ok items => rw [hv] at h; exact Context.outline_setList h
  | motion m =>
    simp only [run, Context.redrawIfVisible_scene]
    exact cx.outline_modifySelf (Target.outline_motion m args)
  | switchCostume =>
    simp only [run, Context.redrawIfVisible_scene]
    exact cx.outline_modifySelf (Target.outline_switchCostume _)
  | nextCostume =>
    simp only [run, Context.redrawIfVisible_scene]
    exact cx.outline_modifySelf Target.outline_nextCostume
  | reveal => exact cx.outline_modifySelf (f := fun t => { t with visible := true }) fun _ => rfl
  | hide => exact cx.outline_modifySelf (f := fun t => { t with visible := false }) fun _ => rfl
  | wait | broadcast | broadcastAndWait | resetTimer => rfl
  | idle | binary | unary | timerAbove | reading | timer | parameter => rfl

end Body

/-! ### Steps -/

namespace Routine

theorem enterBody_world (b : Block) (d : Declaration) (args : Args) (cx : Context) :
    (enterBody b d args cx).2.world = cx.world := by
  rw [enterBody]
  split <;> rfl

/-- Resuming a routine that runs no body leaves the world alone. -/
theorem resume_world_of_none {r : Routine} {v : Option Value} (h : r.runs? v = none) (cx : Context) :
    (r.resume v cx).2.world = cx.world := by
  cases r with
  | gather b body waiting more args =>
    simp only [runs?] at h
    simp only [resume]
    split
    · rfl
    · rename_i hg
      rw [hg] at h
      cases h
  | call b d phase =>
    cases phase with
    | arguments waiting more args =>
      simp only [resume]
      split
      · rfl
      · rw [guardCall]
        split
        · rfl
        · exact enterBody_world b d _ cx
    | enter args => exact enterBody_world b d args cx
    | leave => rfl
  | stack more => cases more <;> rfl
  | repeatTimes b phase => cases phase <;> rfl
  | forever b inBody => cases inBody <;> rfl
  | branch b hasElse phase =>
    simp only [resume]
    repeat' split
    all_goals rfl
  | repeatUntil b hasBody phase =>
    simp only [resume]
    repeat' split
    all_goals rfl
  | relay | ask | askAtOnce | fence => rfl

/-- Resuming a routine leaves the world alone, unless it runs the body of an eager block. -/
theorem resume_world (r : Routine) (v : Option Value) (cx : Context) :
    (r.resume v cx).2.world = cx.world ∨
      ∃ (b : Block) (body : Body) (args : Args),
        (r.resume v cx).2 = (body.run b.opcode args cx).2 := by
  cases hruns : r.runs? v with
  | none => exact .inl (resume_world_of_none hruns cx)
  | some run =>
    obtain ⟨b, body, args⟩ := run
    exact .inr ⟨b, body, args, congrArg Prod.snd (resume_of_runs hruns cx)⟩

theorem resume_outline (r : Routine) (v : Option Value) (cx : Context) :
    (r.resume v cx).2.scene.outline = cx.scene.outline := by
  rcases r.resume_world v cx with hworld | ⟨b, body, args, hrun⟩
  · rw [Context.scene, hworld]
    rfl
  · rw [hrun]
    exact body.run_outline b.opcode args cx

end Routine

namespace Machine

theorem step_outline (m : Machine) : m.step.machine.cx.scene.outline = m.cx.scene.outline := by
  cases hframes : m.stack.frames with
  | nil =>
    rw [step, hframes]
    rfl
  | cons top rest =>
    rw [step_cx hframes]
    exact top.resume_outline m.stack.resumed m.cx

theorem drive_outline {fuel : Nat} {m m' : Machine} {result : Except ExecError Slice}
    (h : drive fuel m = some (result, m')) : m'.cx.scene.outline = m.cx.scene.outline := by
  have hnext : ∀ x x' : Machine, x.cx.scene.outline = m.cx.scene.outline → x.step = .next x' →
      x'.cx.scene.outline = m.cx.scene.outline := by
    intro x x' hx hstep
    have hx' := x.step_outline
    rw [hstep] at hx'
    exact hx'.trans hx
  obtain ⟨last, hlast, hhalt⟩ := drive_induction hnext rfl h
  have hm' := last.step_outline
  rw [hhalt] at hm'
  exact hm'.trans hlast

theorem driveFrom_outline {fuel : Nat} {step : Step} {m' : Machine}
    {result : Except ExecError Slice} (h : driveFrom fuel step = some (result, m')) :
    m'.cx.scene.outline = step.machine.cx.scene.outline := by
  cases step with
  | next m => exact drive_outline h
  | halt r m =>
    cases h
    rfl

theorem evaluateAtOnce_cx (frames : List Routine) (i : Input) (cx : Context) :
    (evaluateAtOnce frames i cx).machine.cx = cx := by
  cases i with
  | literal v => rfl
  | block b => exact evaluate_cx (.fence b.opcode :: frames) (.block b) cx
  | stack bs =>
    cases bs with
    | nil => rfl
    | cons b bs => exact evaluate_cx (.fence b.opcode :: frames) (.stack (b :: bs)) cx

end Machine

/-! ### Threads and edge hats -/

theorem Thread.step_outline {t t' : Thread} {fuel : Nat} {w w' : World}
    {outcome : Except ExecError Status} (h : t.step fuel w = some (outcome, t', w')) :
    w'.scene.outline = w.scene.outline := by
  rw [Thread.step] at h
  split at h
  · cases h
    rfl
  · split at h
    · cases h
      rfl
    · obtain ⟨⟨result, m⟩, hdrive, heq⟩ := Option.map_eq_some_iff.mp h
      cases heq
      exact Machine.drive_outline hdrive

/-- Checking an edge hat is a drive inside a fence, on behalf of no thread. -/
theorem Interpreter.checkEdge_cases {s s' : Interpreter} {fuel target : Nat} {script : Script}
    {r : Except ExecError Bool} (h : s.checkEdge fuel target script = some (r, s')) :
    ∃ result m, Machine.driveFrom fuel (Machine.evaluateAtOnce [] (.block script.top)
        { world := s.world, target }) = some (result, m) ∧
      s' = { s with world := m.cx.world } ∧
      ∀ e, r = .error e → result = .error e := by
  obtain ⟨⟨reply, cx⟩, heval, heq⟩ := Option.map_eq_some_iff.mp h
  obtain ⟨⟨result, m⟩, hdrive, hreply⟩ := Option.map_eq_some_iff.mp heval
  refine ⟨result, m, hdrive, ?_⟩
  rcases result with e | slice
  · cases hreply
    simp only [Prod.mk.injEq] at heq
    obtain ⟨rfl, rfl⟩ := heq
    refine ⟨rfl, fun e' he => ?_⟩
    split at he <;> cases he
    rfl
  · cases slice <;> cases hreply <;> cases heq <;> exact ⟨rfl, fun e he => by cases he⟩

theorem Interpreter.checkEdge_outline {s s' : Interpreter} {fuel target : Nat} {script : Script}
    {r : Except ExecError Bool} (h : s.checkEdge fuel target script = some (r, s')) :
    s'.world.scene.outline = s.world.scene.outline := by
  obtain ⟨result, m, hdrive, rfl, -⟩ := checkEdge_cases h
  refine (Machine.driveFrom_outline hdrive).trans ?_
  rw [Machine.evaluateAtOnce_cx]
  rfl

end Blockwork
