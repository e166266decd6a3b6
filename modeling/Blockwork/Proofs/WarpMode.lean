import Blockwork.Proofs.Calls

/-!
The same program with one custom block in warp mode.

`inWarp P` declares the custom block `P` warp wherever a program mentions it, and leaves everything
else as it is.  What a routine does on the two programs is the same, up to that mark: it asks for
the same evaluations, changes the world in the same way and fails with the same errors.  Only the
guard that makes a call of `P` give way looks at the mark (`Routine.resume_inWarp`).
-/

namespace Blockwork

/-! ### Programs -/

/-- Declares one custom block warp. -/
def Declaration.inWarp (d P : Declaration) : Declaration :=
  if d = P then { d with warp := true } else d

def Operation.inWarp (P : Declaration) : Operation → Operation
  | .call d => .call (d.inWarp P)
  | op => op

def Prototype.inWarp (P : Declaration) (p : Prototype) : Prototype :=
  { p with operation := p.operation.inWarp P }

mutual

/-- The block with the custom block warp in all its tree. -/
def Block.inWarp (P : Declaration) : Block → Block
  | .mk p id stamp inputs => .mk (p.inWarp P) id stamp (Input.allInWarp P inputs)

def Input.inWarp (P : Declaration) : Input → Input
  | .literal v => .literal v
  | .block b => .block (Block.inWarp P b)
  | .stack bs => .stack (Block.allInWarp P bs)

def Block.allInWarp (P : Declaration) : List Block → List Block
  | [] => []
  | b :: bs => Block.inWarp P b :: Block.allInWarp P bs

def Input.allInWarp (P : Declaration) : List (String × Input) → List (String × Input)
  | [] => []
  | (name, i) :: rest => (name, Input.inWarp P i) :: Input.allInWarp P rest

end

def Script.inWarp (P : Declaration) (s : Script) : Script :=
  ⟨s.top.inWarp P, Block.allInWarp P s.rest⟩

def Target.inWarp (P : Declaration) (t : Target) : Target :=
  { t with scripts := t.scripts.map (Script.inWarp P) }

def Procedure.inWarp (P : Declaration) (p : Procedure) : Procedure :=
  ⟨p.declaration.inWarp P, p.body.map (Block.allInWarp P)⟩

def Registry.inWarp (P : Declaration) (r : Registry) : Registry :=
  ⟨r.prototypes.map fun (opcode, p) => (opcode, p.inWarp P)⟩

/-- The scene with the custom block warp in all its programs.  Its variables, lists, positions and
costumes stay. -/
def Scene.inWarp (P : Declaration) (s : Scene) : Scene :=
  { s with
    targets := s.targets.map (Target.inWarp P)
    registry := s.registry.inWarp P
    procedures := s.procedures.map (Procedure.inWarp P) }

/-- The world with the custom block warp.  Services, signals and the clock stay. -/
def World.inWarp (P : Declaration) (w : World) : World := { w with scene := w.scene.inWarp P }

def Routine.inWarp (P : Declaration) : Routine → Routine
  | .gather b body waiting rest args =>
    .gather (b.inWarp P) body waiting (Input.allInWarp P rest) args
  | .relay => .relay
  | .stack rest => .stack (Block.allInWarp P rest)
  | .repeatTimes b phase => .repeatTimes (b.inWarp P) phase
  | .forever b inBody => .forever (b.inWarp P) inBody
  | .branch b hasElse phase => .branch (b.inWarp P) hasElse phase
  | .repeatUntil b hasBody phase => .repeatUntil (b.inWarp P) hasBody phase
  | .call b d phase => .call (b.inWarp P) (d.inWarp P) phase
  | .ask i => .ask (i.inWarp P)
  | .askAtOnce i => .askAtOnce (i.inWarp P)
  | .fence opcode => .fence opcode

def Flow.inWarp (P : Declaration) : Flow → Flow
  | .evaluate i => .evaluate (i.inWarp P)
  | .evaluateAtOnce i => .evaluateAtOnce (i.inWarp P)
  | flow => flow

variable {ds : List Declaration} {P : Declaration}

namespace Declaration

theorem inWarp_self (P : Declaration) : (P.inWarp P).warp = true := by
  rw [inWarp, if_pos rfl]

theorem inWarp_of_ne {d : Declaration} (h : d ≠ P) : d.inWarp P = d := if_neg h

theorem inWarp_id (d : Declaration) : (d.inWarp P).id = d.id := by
  rw [inWarp]
  split <;> rfl

theorem inWarp_signature (d : Declaration) : (d.inWarp P).signature = d.signature := by
  rw [inWarp]
  split <;> rfl

theorem inWarp_params (d : Declaration) : (d.inWarp P).params = d.params := by
  rw [inWarp]
  split <;> rfl

end Declaration

/-! ### Looking up -/

theorem Table.get?_allInWarp (name : String) :
    ∀ inputs : Table Input,
      Table.get? name (Input.allInWarp P inputs) = (Table.get? name inputs).map (Input.inWarp P)
  | [] => rfl
  | (n, i) :: rest => by
    rw [Input.allInWarp, Table.get?, Table.get?, get?_allInWarp name rest]
    split <;> rfl

namespace Block

theorem inputs_inWarp (b : Block) : (b.inWarp P).inputs = Input.allInWarp P b.inputs := by
  cases b
  rw [inWarp]
  rfl

theorem operation_inWarp (b : Block) : (b.inWarp P).operation = b.operation.inWarp P := by
  cases b
  rw [inWarp]
  rfl

theorem opcode_inWarp (b : Block) : (b.inWarp P).opcode = b.opcode := by
  cases b
  rw [inWarp]
  rfl

theorem hat_inWarp (b : Block) : (b.inWarp P).hat = b.hat := by
  cases b
  rw [inWarp]
  rfl

theorem input_inWarp (b : Block) (name : String) :
    (b.inWarp P).input name = (b.input name).inWarp P := by
  rw [input, input, inputs_inWarp, Table.get?_allInWarp]
  cases Table.get? name b.inputs with
  | none =>
    rw [Option.map_none, Option.getD_none, Input.inWarp]
  | some i => rfl

/-- Blocks start alike. -/
theorem start_inWarp (b : Block) : (b.inWarp P).start = b.start.map (Routine.inWarp P) := by
  rw [start, start, operation_inWarp]
  cases b.operation with
  | eager body =>
    simp only [Operation.inWarp, inputs_inWarp]
    rfl
  | call d =>
    simp only [Operation.inWarp, Declaration.inWarp_params]
    rfl
  | evaluateInput name =>
    simp only [Operation.inWarp, input_inWarp]
    rfl
  | evaluateAtOnce name =>
    simp only [Operation.inWarp, input_inWarp]
    rfl
  | refuse text =>
    simp only [Operation.inWarp, opcode_inWarp]
    rfl
  | repeatTimes | forever | branch | repeatUntil => rfl

end Block

theorem Script.body_inWarp (s : Script) : (s.inWarp P).body = Block.allInWarp P s.body := by
  have hhat : (s.inWarp P).hat = s.hat := s.top.hat_inWarp
  rw [body, body, hhat]
  split
  · rfl
  · rw [Block.allInWarp]
    rfl

def Gathered.inWarp (P : Declaration) : Gathered → Gathered
  | .complete args => .complete args
  | .wants name i rest args => .wants name (i.inWarp P) (Input.allInWarp P rest) args

def Passed.inWarp (P : Declaration) : Passed → Passed
  | .complete args => .complete args
  | .wants name i rest args => .wants name (i.inWarp P) rest args

theorem gather_inWarp : ∀ (inputs : Table Input) (args : Args),
    gather (Input.allInWarp P inputs) args = (gather inputs args).inWarp P
  | [], args => rfl
  | (n, .literal v) :: rest, args => by
    rw [Input.allInWarp, Input.inWarp, gather, gather, gather_inWarp rest]
  | (n, .stack bs) :: rest, args => by
    rw [Input.allInWarp, Input.inWarp, gather, gather, gather_inWarp rest]
  | (n, .block b) :: rest, args => by
    rw [Input.allInWarp, Input.inWarp, gather, gather, Gathered.inWarp, Input.inWarp]

theorem passArguments_inWarp (b : Block) : ∀ (names : List String) (args : Args),
    passArguments (b.inWarp P) names args = (passArguments b names args).inWarp P
  | [], args => rfl
  | n :: rest, args => by
    rw [passArguments, passArguments, Block.input_inWarp]
    cases b.input n with
    | literal v =>
      rw [Input.inWarp]
      exact passArguments_inWarp b rest _
    | block b' => rw [Input.inWarp]; simp only [Passed.inWarp, Input.inWarp]
    | stack bs => rw [Input.inWarp]; simp only [Passed.inWarp, Input.inWarp]

namespace Scene

theorem target?_inWarp (s : Scene) (i : Nat) :
    (s.inWarp P).target? i = (s.target? i).map (Target.inWarp P) := List.getElem?_map

theorem bodyOf?_inWarp (s : Scene) (signature : String) :
    (s.inWarp P).bodyOf? signature = (s.bodyOf? signature).map (Block.allInWarp P) := by
  have hfind : (s.inWarp P).procedure? signature =
      (s.procedure? signature).map (Procedure.inWarp P) := by
    rw [procedure?, procedure?, inWarp, List.find?_map]
    congr 2
    funext p
    exact congrArg (fun name => decide (name = signature)) (Declaration.inWarp_signature _)
  rw [bodyOf?, bodyOf?, hfind]
  cases s.procedure? signature <;> rfl

theorem modifyTarget_inWarp (s : Scene) (i : Nat) {f : Target → Target}
    (hf : ∀ t, f (t.inWarp P) = (f t).inWarp P) :
    (s.inWarp P).modifyTarget i f = (s.modifyTarget i f).inWarp P := by
  have htargets : (s.targets.map (Target.inWarp P)).modify i f =
      (s.targets.modify i f).map (Target.inWarp P) := by
    apply List.ext_getElem?
    intro j
    rw [List.getElem?_map, List.getElem?_modify, List.getElem?_modify, List.getElem?_map]
    cases s.targets[j]? with
    | none => rfl
    | some t =>
      by_cases hij : i = j
      · simp [hij, hf]
      · simp [hij]
  rw [modifyTarget, modifyTarget, inWarp, inWarp, htargets]

theorem owner?_inWarp (s : Scene) (i : Nat) {has : Target → Bool}
    (hhas : ∀ t : Target, has (t.inWarp P) = has t) :
    (s.inWarp P).owner? i has = s.owner? i has := by
  have hany : ∀ j, ((s.inWarp P).target? j).any has = (s.target? j).any has := by
    intro j
    rw [target?_inWarp]
    cases s.target? j with
    | none => rfl
    | some t => exact hhas t
  rw [owner?, owner?, hany]
  simp only [hany]
  rfl

theorem getVariable?_inWarp (s : Scene) (i : Nat) (name : String) :
    (s.inWarp P).getVariable? i name = s.getVariable? i name := by
  rw [getVariable?, getVariable?, variableOwner?, variableOwner?, owner?_inWarp s i fun _ => rfl]
  cases s.owner? i _ with
  | none => rfl
  | some j =>
    rw [Option.bind_some, Option.bind_some, target?_inWarp]
    cases s.target? j <;> rfl

theorem setVariable?_inWarp (s : Scene) (i : Nat) (name : String) (v : Value) :
    (s.inWarp P).setVariable? i name v = (s.setVariable? i name v).map (Scene.inWarp P) := by
  rw [setVariable?, setVariable?, variableOwner?, variableOwner?, owner?_inWarp s i fun _ => rfl]
  cases s.owner? i _ with
  | none => rfl
  | some j =>
    exact congrArg some (modifyTarget_inWarp s j fun _ => rfl)

theorem getList?_inWarp (s : Scene) (i : Nat) (name : String) :
    (s.inWarp P).getList? i name = s.getList? i name := by
  rw [getList?, getList?, listOwner?, listOwner?, owner?_inWarp s i fun _ => rfl]
  cases s.owner? i _ with
  | none => rfl
  | some j =>
    rw [Option.bind_some, Option.bind_some, target?_inWarp]
    cases s.target? j <;> rfl

theorem setList?_inWarp (s : Scene) (i : Nat) (name : String) (items : List Value) :
    (s.inWarp P).setList? i name items = (s.setList? i name items).map (Scene.inWarp P) := by
  rw [setList?, setList?, listOwner?, listOwner?, owner?_inWarp s i fun _ => rfl]
  cases s.owner? i _ with
  | none => rfl
  | some j =>
    exact congrArg some (modifyTarget_inWarp s j fun _ => rfl)

end Scene

/-! ### Bodies -/

/-- The same calls with the same arguments, whether warp or not. -/
def CallStack.Alike (s s' : CallStack) : Prop :=
  s'.calls.map (fun c => (c.procedure, c.args)) = s.calls.map fun c => (c.procedure, c.args)

/-- The context with the custom block warp, and with other marks on its calls. -/
def Context.inWarp (P : Declaration) (calls : CallStack) (cx : Context) : Context :=
  { cx with world := cx.world.inWarp P, calls }

namespace CallStack

variable {s s' : CallStack}

theorem Alike.push (h : s.Alike s') (procedure : String) (args : Table Value) (warp warp' : Bool) :
    (s.push ⟨procedure, args, warp⟩).Alike (s'.push ⟨procedure, args, warp'⟩) :=
  congrArg (List.cons (procedure, args)) h

theorem Alike.pop (h : s.Alike s') : s.pop.2.Alike s'.pop.2 := by
  rw [Alike] at h
  rw [CallStack.pop, CallStack.pop]
  cases hs : s.calls with
  | nil =>
    rw [hs, List.map_nil, List.map_eq_nil_iff] at h
    rw [h, Alike, hs, h]
  | cons c rest =>
    rw [hs] at h
    cases hs' : s'.calls with
    | nil =>
      rw [hs'] at h
      cases h
    | cons c' rest' =>
      rw [hs'] at h
      exact (List.cons.inj h).2

theorem Alike.contains (h : s.Alike s') (procedure : String) :
    s'.contains procedure = s.contains procedure := by
  have hany : ∀ u : CallStack, u.contains procedure =
      (u.calls.map fun c => (c.procedure, c.args)).any fun x => decide (x.1 = procedure) := by
    intro u
    rw [List.any_map]
    rfl
  rw [hany, hany, h]

end CallStack

namespace Context

theorem argument?_inWarp {cx : Context} {calls : CallStack} (h : cx.calls.Alike calls)
    (name : String) : (cx.inWarp P calls).argument? name = cx.argument? name := by
  have hhead : ∀ u : CallStack, (u.top?.bind fun c => Table.get? name c.args) =
      (u.calls.map fun c => (c.procedure, c.args)).head?.bind fun x => Table.get? name x.2 := by
    intro u
    rw [CallStack.top?, List.head?_map]
    cases u.calls.head? <;> rfl
  rw [argument?, argument?, hhead, hhead, ← h]
  rfl

theorem scene_inWarp (cx : Context) (calls : CallStack) :
    (cx.inWarp P calls).scene = cx.scene.inWarp P := rfl

theorem target_inWarp (cx : Context) (calls : CallStack) :
    (cx.inWarp P calls).target = cx.target := rfl

theorem self_inWarp (cx : Context) (calls : CallStack) :
    (cx.inWarp P calls).self = cx.self.inWarp P := by
  rw [self, self, scene_inWarp, target_inWarp, Scene.target?_inWarp]
  cases cx.scene.target? cx.target <;> rfl

theorem modifySelf_inWarp (cx : Context) (calls : CallStack) {f : Target → Target}
    (hf : ∀ t, f (t.inWarp P) = (f t).inWarp P) :
    (cx.inWarp P calls).modifySelf f = (cx.modifySelf f).inWarp P calls := by
  rw [modifySelf, modifySelf, scene_inWarp, target_inWarp, Scene.modifyTarget_inWarp _ _ hf]
  rfl

theorem redrawIfVisible_inWarp (cx : Context) (calls : CallStack) :
    (cx.inWarp P calls).redrawIfVisible = cx.redrawIfVisible.inWarp P calls := by
  have hvisible : (cx.inWarp P calls).self.visible = cx.self.visible := by
    rw [self_inWarp]
    rfl
  rw [redrawIfVisible, redrawIfVisible, hvisible]
  split <;> rfl

theorem getVariable_inWarp (cx : Context) (calls : CallStack) (name : String) :
    (cx.inWarp P calls).getVariable name = cx.getVariable name := by
  rw [getVariable, scene_inWarp, target_inWarp, Scene.getVariable?_inWarp]
  rfl

theorem getList_inWarp (cx : Context) (calls : CallStack) (name : String) :
    (cx.inWarp P calls).getList name = cx.getList name := by
  rw [getList, scene_inWarp, target_inWarp, Scene.getList?_inWarp]
  rfl

theorem setVariable_inWarp (cx : Context) (calls : CallStack) (name : String) (v : Value) :
    (cx.inWarp P calls).setVariable name v =
      (cx.setVariable name v).map (Context.inWarp P calls) := by
  rw [setVariable, setVariable, scene_inWarp, target_inWarp, Scene.setVariable?_inWarp]
  cases cx.scene.setVariable? cx.target name v <;> rfl

theorem setList_inWarp (cx : Context) (calls : CallStack) (name : String) (items : List Value) :
    (cx.inWarp P calls).setList name items =
      (cx.setList name items).map (Context.inWarp P calls) := by
  rw [setList, setList, scene_inWarp, target_inWarp, Scene.setList?_inWarp]
  cases cx.scene.setList? cx.target name items <;> rfl

end Context

/-- A reply on the world with the custom block warp. -/
def Reply.inWarp (P : Declaration) (calls : CallStack) (x : Reply Flow) : Reply Flow :=
  (x.1, x.2.inWarp P calls)

namespace Body

theorem command_inWarp (cx : Context) (calls : CallStack) (x : Except ExecError Context) :
    command (cx.inWarp P calls) (x.map (Context.inWarp P calls)) =
      Reply.inWarp P calls (command cx x) := by
  cases x <;> rfl

theorem report_inWarp (cx : Context) (calls : CallStack) (x : Except ExecError Value) :
    report (cx.inWarp P calls) x = Reply.inWarp P calls (report cx x) := by
  cases x <;> rfl

theorem apply_inWarp (m : Motion) (args : Args) (t : Target) :
    m.apply args (t.inWarp P) = (m.apply args t).inWarp P := by
  cases m <;> rfl

theorem nextCostume_inWarp (t : Target) : (t.inWarp P).nextCostume = t.nextCostume.inWarp P := by
  rw [Target.nextCostume, Target.nextCostume]
  show (if t.costumes.isEmpty then _ else _) = _
  split <;> rfl

theorem setCostumeNumber_inWarp (n : Float) (t : Target) :
    (t.inWarp P).setCostumeNumber n = (t.setCostumeNumber n).inWarp P := by
  rw [Target.setCostumeNumber, Target.setCostumeNumber]
  show (if t.costumes.isEmpty || !n.isFinite then _ else _) = _
  split <;> rfl

theorem setCostumeName_inWarp (name : String) (t : Target) :
    (t.inWarp P).setCostumeName name =
      ((t.setCostumeName name).1, (t.setCostumeName name).2.inWarp P) := by
  have hindex : (t.inWarp P).costumeIndex? name = t.costumeIndex? name := rfl
  rw [Target.setCostumeName, Target.setCostumeName, hindex]
  split <;> rfl

theorem switchCostume_inWarp (v : Value) (t : Target) :
    (t.inWarp P).switchCostume v = (t.switchCostume v).inWarp P := by
  have hnumber : ∀ n, (t.inWarp P).setCostumeNumber n = (t.setCostumeNumber n).inWarp P :=
    fun n => setCostumeNumber_inWarp n t
  cases v <;>
    simp only [Target.switchCostume, setCostumeName_inWarp, hnumber, nextCostume_inWarp]
  all_goals
    repeat' split
    all_goals rfl

/-- A standard body does the same on both worlds. -/
theorem run_inWarp {body : Body} (hb : body.isStandard = true) (opcode : String) (args : Args)
    {cx : Context} {calls : CallStack} (hc : cx.calls.Alike calls) :
    body.run opcode args (cx.inWarp P calls) =
      Reply.inWarp P calls (body.run opcode args cx) := by
  cases body with
  | extended e => cases hb
  | stop =>
    simp only [run]
    repeat' split
    all_goals rfl
  | costumeInfo =>
    simp only [run, Context.self_inWarp]
    repeat' split
    all_goals rfl
  | getVariable =>
    simp only [run, Context.getVariable_inWarp]
    exact report_inWarp cx calls _
  | itemOfList | lengthOfList =>
    simp only [run, Context.getList_inWarp]
    exact report_inWarp cx calls _
  | setVariable =>
    simp only [run, Context.setVariable_inWarp]
    exact command_inWarp cx calls _
  | clearList =>
    simp only [run, Context.setList_inWarp]
    exact command_inWarp cx calls _
  | changeVariable =>
    simp only [run, Context.getVariable_inWarp, Context.setVariable_inWarp]
    cases cx.getVariable (args.text "VARIABLE") with
    | error e => rfl
    | ok current => exact command_inWarp cx calls (cx.setVariable _ _)
  | addToList =>
    simp only [run, Context.getList_inWarp, Context.setList_inWarp]
    cases cx.getList (args.text "LIST") with
    | error e => rfl
    | ok items => exact command_inWarp cx calls (cx.setList _ _)
  | motion m =>
    simp only [run, Context.modifySelf_inWarp cx calls (apply_inWarp m args),
      Context.redrawIfVisible_inWarp]
    rfl
  | switchCostume =>
    simp only [run, Context.modifySelf_inWarp cx calls (switchCostume_inWarp _),
      Context.redrawIfVisible_inWarp]
    rfl
  | nextCostume =>
    simp only [run, Context.modifySelf_inWarp cx calls nextCostume_inWarp,
      Context.redrawIfVisible_inWarp]
    rfl
  | reveal =>
    simp only [run]
    rw [Context.modifySelf_inWarp cx calls (f := fun t => { t with visible := true }) fun _ => rfl]
    rfl
  | hide =>
    simp only [run]
    rw [Context.modifySelf_inWarp cx calls (f := fun t => { t with visible := false }) fun _ => rfl]
    rfl
  | reading r =>
    simp only [run, Context.self_inWarp]
    cases r <;> rfl
  | parameter =>
    simp only [run, Context.argument?_inWarp hc]
    rfl
  | idle | binary | unary | wait | timerAbove | broadcast | broadcastAndWait | timer
  | resetTimer => rfl

end Body

/-! ### Routines -/

namespace Routine

/-- The reply of a routine on the world with the custom block warp. -/
def replyInWarp (P : Declaration) (calls : CallStack) (x : Reply (Flow × Routine)) :
    Reply (Flow × Routine) :=
  (x.1.map fun y => (y.1.inWarp P, y.2.inWarp P), x.2.inWarp P calls)

/-- The routine does on the world with the custom block warp what it does on the world without. -/
def Matches (P : Declaration) (r : Routine) (v : Option Value) (cx : Context) (calls : CallStack) :
    Prop :=
  ∃ calls', (r.resume v cx).2.calls.Alike calls' ∧
    (r.inWarp P).resume v (cx.inWarp P calls) = replyInWarp P calls' (r.resume v cx)

/-- A call of the custom block that gives way here does not give way if it is warp. -/
structure GivesWay (P : Declaration) (r : Routine) (v : Option Value) (cx : Context) (b : Block)
    (args : Args) : Prop where
  arguments : ∃ waiting more args₀, r = .call b P (.arguments waiting more args₀) ∧
    passArguments b more (takeResumed waiting v args₀) = .complete args
  resume : r.resume v cx = (.ok (.pause, .call b P (.enter args)), cx)

theorem enterBody_inWarp (b : Block) (d : Declaration) (args : Args) {cx : Context}
    {calls : CallStack} (hc : cx.calls.Alike calls) :
    ∃ calls', (enterBody b d args cx).2.calls.Alike calls' ∧
      enterBody (b.inWarp P) (d.inWarp P) args (cx.inWarp P calls) =
        replyInWarp P calls' (enterBody b d args cx) := by
  rw [enterBody, enterBody, Declaration.inWarp_signature, Declaration.inWarp_id,
    Context.scene_inWarp, Scene.bodyOf?_inWarp]
  cases cx.scene.bodyOf? d.signature with
  | none => exact ⟨calls, hc, rfl⟩
  | some body =>
    refine ⟨calls.push ⟨d.id, args, (d.inWarp P).warp⟩, hc.push d.id args d.warp _, ?_⟩
    simp only [Option.map_some, replyInWarp, Except.map, Flow.inWarp, Input.inWarp]
    rfl

theorem guardCall_inWarp (b : Block) (d : Declaration) (args : Args) {cx : Context}
    {calls : CallStack} (hc : cx.calls.Alike calls) :
    (∃ calls', (guardCall b d args cx).2.calls.Alike calls' ∧
      guardCall (b.inWarp P) (d.inWarp P) args (cx.inWarp P calls) =
        replyInWarp P calls' (guardCall b d args cx)) ∨
    (d = P ∧ guardCall b d args cx = (.ok (.pause, .call b d (.enter args)), cx)) := by
  have hcontains : (cx.inWarp P calls).calls.contains d.id = cx.calls.contains d.id :=
    hc.contains d.id
  by_cases hd : d = P
  · by_cases hguard : (!d.warp && cx.calls.contains d.id) = true
    · refine .inr ⟨hd, ?_⟩
      rw [guardCall, if_pos hguard]
    · refine .inl ?_
      have hwarp : (d.inWarp P).warp = true := by
        rw [hd]
        exact Declaration.inWarp_self P
      rw [guardCall, guardCall, if_neg hguard, hwarp, Bool.not_true, Bool.false_and,
        if_neg Bool.false_ne_true]
      exact enterBody_inWarp b d args hc
  · refine .inl ?_
    have henter := enterBody_inWarp (P := P) b d args hc
    rw [Declaration.inWarp_of_ne hd] at henter ⊢
    rw [guardCall, guardCall, hcontains]
    split
    · refine ⟨calls, hc, ?_⟩
      simp only [replyInWarp, Except.map, Flow.inWarp, inWarp, Declaration.inWarp_of_ne hd]
    · exact henter

theorem repeatBody_inWarp (b : Block) (n : Int) :
    repeatBody (b.inWarp P) n = ((repeatBody b n).1.inWarp P, (repeatBody b n).2.inWarp P) := by
  rw [repeatBody, repeatBody, Block.input_inWarp]
  split <;> rfl

/-- A routine does the same on both worlds, unless a call of the custom block gives way. -/
theorem resume_inWarp {r : Routine} (hr : r.Over ds) (v : Option Value) {cx : Context}
    {calls : CallStack} (hc : cx.calls.Alike calls) :
    r.Matches P v cx calls ∨ ∃ b args, r.GivesWay P v cx b args := by
  cases r with
  | gather b body waiting more args =>
    refine .inl ?_
    simp only [Matches, inWarp, resume, gather_inWarp, Block.opcode_inWarp]
    cases Blockwork.gather more (takeResumed waiting v args) with
    | wants name i rest' args' => exact ⟨calls, hc, rfl⟩
    | complete args' =>
      have hrun := Body.run_inWarp (P := P) hr.2.1 b.opcode args' hc
      have hkeeps := Body.run_keeps body b.opcode args' cx
      have hplain : ∀ flow cx', body.run b.opcode args' cx = (.ok flow, cx') →
          flow.inWarp P = flow := by
        intro flow cx' h
        have hflow := Body.isPlain_of_run hr.2.1 h
        cases flow <;> first | rfl | cases hflow
      simp only [Gathered.inWarp, hrun]
      generalize body.run b.opcode args' cx = reply at hkeeps hplain
      obtain ⟨flow, cx'⟩ := reply
      have hcalls : cx'.calls.Alike calls := by
        rw [hkeeps.calls]
        exact hc
      cases flow with
      | error e => exact ⟨calls, hcalls, rfl⟩
      | ok flow =>
        refine ⟨calls, hcalls, ?_⟩
        simp only [Reply.inWarp, replyInWarp, Except.map, hplain flow cx' rfl]
        rfl
  | call b d phase =>
    cases phase with
    | arguments waiting more args =>
      cases hp : passArguments b more (takeResumed waiting v args) with
      | wants name i rest' args' =>
        refine .inl ⟨calls, ?_⟩
        simp only [inWarp, resume, passArguments_inWarp, hp]
        exact ⟨hc, rfl⟩
      | complete args' =>
        rcases guardCall_inWarp (P := P) b d args' hc with hmatch | ⟨rfl, hguard⟩
        · refine .inl ?_
          simp only [Matches, inWarp, resume, passArguments_inWarp, hp, Passed.inWarp]
          exact hmatch
        · refine .inr ⟨b, args', ⟨waiting, more, args, rfl, hp⟩, ?_⟩
          simp only [resume, hp]
          exact hguard
    | enter args => exact .inl (enterBody_inWarp b d args hc)
    | leave => exact .inl ⟨calls.pop.2, hc.pop, rfl⟩
  | stack more => cases more <;> exact .inl ⟨calls, hc, rfl⟩
  | repeatTimes b phase =>
    refine .inl ⟨calls, ?_⟩
    cases phase <;> simp only [inWarp, resume, Block.input_inWarp, repeatBody_inWarp] <;>
      exact ⟨hc, rfl⟩
  | forever b inBody =>
    refine .inl ⟨calls, ?_⟩
    cases inBody <;> simp only [inWarp, resume, Block.input_inWarp] <;> exact ⟨hc, rfl⟩
  | branch b hasElse phase =>
    refine .inl ⟨calls, ?_⟩
    simp only [inWarp, resume, Block.input_inWarp]
    repeat' split
    all_goals exact ⟨hc, rfl⟩
  | repeatUntil b hasBody phase =>
    refine .inl ⟨calls, ?_⟩
    simp only [inWarp, resume, Block.input_inWarp]
    repeat' split
    all_goals exact ⟨hc, rfl⟩
  | relay => exact .inl ⟨calls, hc, rfl⟩
  | ask | askAtOnce | fence => cases hr

end Routine

end Blockwork
