import Blockwork.Proofs.Primitives

/-!
Every step of a machine deals in primitive values.

`Machine.Primitive` says that the routines of a machine hold blocks that have been built from the registry
of the scene, and that their arguments, the value for the top one and all that its context holds are
primitive.  Every step keeps that.  The one literal that is not primitive, an empty list in a mouth, gets
no further than to the loop or branch that asks for it, and those discard what they are resumed with.
-/

namespace Blockwork

variable {ds : List Declaration} {r : Registry}

/-! ### Routines -/

def CallPhase.Primitive : CallPhase → Prop
  | .arguments _ _ args | .enter args => Args.Primitive args
  | .leave => True

/-- What a routine holds has been built from the registry, and is primitive. -/
def Routine.Primitive (r : Registry) : Routine → Prop
  | .gather b body _ rest args =>
    b.Built r ∧ b.operation = .eager body ∧ (∀ e ∈ rest, e ∈ b.inputs) ∧ Args.Primitive args
  | .stack rest => ∀ b ∈ rest, b.Built r
  | .repeatTimes b _ | .forever b _ | .branch b _ _ | .repeatUntil b _ _ => b.Built r
  | .call b d phase => b.Built r ∧ b.operation = .call d ∧ phase.Primitive
  | .relay | .fence _ => True
  | .ask _ | .askAtOnce _ => False

/-- Whether the routine never keeps or reports what it is resumed with. -/
def Routine.discards : Routine → Bool
  | .repeatTimes .. | .forever .. | .branch .. | .repeatUntil .. => true
  | _ => false

/-- The routine may be resumed with that: it is primitive, or is discarded. -/
def Routine.Admits (f : Routine) (resumed : Option Value) : Prop :=
  ∀ v, resumed = some v → v.IsPrimitive ∨ f.discards = true

/-- What a routine over the registry may ask for, and become when it does. -/
def Flow.Primitive (r : Registry) (top : Routine) : Flow → Prop
  | .done v => v.IsPrimitive
  | .evaluate i => i.Built r ∧ ∀ v, i = .literal v → top.Admits (some v)
  | .evaluateAtOnce _ => False
  | .await a => a.Primitive
  | .pause | .quit => True

def Gathered.Primitive (inputs : Table Input) : Gathered → Prop
  | .complete args => Args.Primitive args
  | .wants name i rest args =>
    (name, i) ∈ inputs ∧ (∀ v, i ≠ .literal v) ∧ (∀ e ∈ rest, e ∈ inputs) ∧ Args.Primitive args

def Passed.Primitive (b : Block) : Passed → Prop
  | .complete args => Args.Primitive args
  | .wants name i _ args => i = b.input name ∧ (∀ v, i ≠ .literal v) ∧ Args.Primitive args

theorem gather_primitive {inputs : Table Input}
    (hinputs : ∀ name v, (name, .literal v) ∈ inputs → v.IsPrimitive) :
    ∀ {rest : Table Input} {args : Args}, (∀ e ∈ rest, e ∈ inputs) → Args.Primitive args →
      (gather rest args).Primitive inputs
  | [], _, _, hargs => hargs
  | (name, .literal v) :: rest, args, hrest, hargs => by
    rw [gather]
    exact gather_primitive hinputs (fun e he => hrest e (List.mem_cons_of_mem _ he))
      (hargs.insert (hinputs name v (hrest _ (List.mem_cons_self ..))) name)
  | (name, .stack bs) :: rest, args, hrest, hargs => by
    rw [gather]
    exact gather_primitive hinputs (fun e he => hrest e (List.mem_cons_of_mem _ he))
      (hargs.insert (v := .null) rfl name)
  | (name, .block b) :: rest, args, hrest, hargs => by
    rw [gather]
    exact ⟨hrest _ (List.mem_cons_self ..), fun v hv => Input.noConfusion hv,
      fun e he => hrest e (List.mem_cons_of_mem _ he), hargs⟩

theorem passArguments_primitive {b : Block}
    (hinputs : ∀ name v, b.input name = .literal v → v.IsPrimitive) :
    ∀ {names : List String} {args : Args}, Args.Primitive args →
      (passArguments b names args).Primitive b
  | [], _, hargs => hargs
  | name :: rest, args, hargs => by
    rw [passArguments]
    split
    · rename_i v hv
      exact passArguments_primitive hinputs (hargs.insert (hinputs name v hv) name)
    · rename_i hliteral
      exact ⟨rfl, fun v hv => hliteral v hv, hargs⟩

theorem Block.Built.start {b : Block} (hb : b.Built r) (hr : r.Over ds) {f : Routine}
    (h : b.start = .ok f) : f.Primitive r := by
  have hknown := (hb.over hr).operation
  rw [Block.start] at h
  split at h
  · rename_i body hop
    cases h
    exact ⟨hb, hop, fun e he => he, fun e he => absurd he List.not_mem_nil⟩
  all_goals rename_i hop
  · cases h
    exact hb
  · cases h
    exact hb
  · cases h
    exact hb
  · cases h
    exact hb
  · cases h
    exact ⟨hb, hop, fun e he => absurd he List.not_mem_nil⟩
  all_goals
    rw [hop] at hknown
    cases hknown

namespace Routine

variable {f f' : Routine} {resumed : Option Value} {cx cx' : Context}

theorem admits_none (f : Routine) : f.Admits none := fun _ hv => by cases hv

theorem admits_of_isPrimitive {v : Value} (h : v.IsPrimitive) (f : Routine) :
    f.Admits (some v) := by
  rintro v' ⟨⟩
  exact .inl h

theorem admits_of_discards (h : f.discards = true) (resumed : Option Value) : f.Admits resumed :=
  fun _ _ => .inr h

theorem Admits.value (h : f.Admits resumed) (hf : f.discards = false) :
    (resumed.getD .null).IsPrimitive := by
  cases resumed with
  | none => rfl
  | some v =>
    refine (h v rfl).resolve_right ?_
    rw [hf]
    exact Bool.false_ne_true

theorem Admits.takeResumed (h : f.Admits resumed) (hf : f.discards = false) {args : Args}
    (hargs : Args.Primitive args) (waiting : Option String) :
    Args.Primitive (takeResumed waiting resumed args) := by
  cases waiting with
  | none => exact hargs
  | some name => exact hargs.insert (h.value hf) name

/-- What an eager block gathers next is primitive. -/
theorem Primitive.gathered {b : Block} {body : Body} {waiting : Option String} {rest : Table Input}
    {args : Args} (hf : (gather b body waiting rest args).Primitive r) (hr : r.Over ds)
    (hv : (gather b body waiting rest args).Admits resumed) :
    (Blockwork.gather rest (takeResumed waiting resumed args)).Primitive b.inputs := by
  obtain ⟨hb, hop, hrest, hargs⟩ := hf
  have htakes : b.operation.takesValues = true := by rw [hop]; rfl
  exact gather_primitive (fun name v => hb.literal hr htakes) hrest (hv.takeResumed rfl hargs waiting)

/-- What a call passes next is primitive. -/
theorem Primitive.passed {b : Block} {d : Declaration} {waiting : Option String} {rest : List String}
    {args : Args} (hf : (call b d (.arguments waiting rest args)).Primitive r) (hr : r.Over ds)
    (hv : (call b d (.arguments waiting rest args)).Admits resumed) :
    (passArguments b rest (takeResumed waiting resumed args)).Primitive b := by
  obtain ⟨hb, hop, hargs⟩ := hf
  have htakes : b.operation.takesValues = true := by rw [hop]; rfl
  exact passArguments_primitive (fun name v => hb.input_literal hr htakes)
    (hv.takeResumed rfl hargs waiting)

/-- The body that a routine runs is a standard one, on primitive inputs. -/
theorem Primitive.runs (hf : f.Primitive r) (hr : r.Over ds) (hv : f.Admits resumed) {b : Block}
    {body : Body} {args : Args} (h : f.runs? resumed = some (b, body, args)) :
    b.Built r ∧ b.operation = .eager body ∧ Args.Primitive args := by
  cases f with
  | gather b' body' waiting rest args' =>
    have hgather := hf.gathered hr hv
    obtain ⟨hb, hop, -⟩ := hf
    simp only [runs?] at h
    split at h
    · cases h
    · rename_i hg
      cases h
      rw [hg] at hgather
      exact ⟨hb, hop, hgather⟩
  | _ => cases h

theorem isStandard_of_eager {b : Block} {body : Body} (hb : b.Built r) (hr : r.Over ds)
    (hop : b.operation = .eager body) : body.isStandard = true := by
  have hknown := (hb.over hr).operation
  rw [hop] at hknown
  cases hknown with
  | eager hbody => exact hbody

theorem resume_gather_primitive {b : Block} {body : Body} {waiting : Option String} {rest : Table Input}
    {args : Args} {flow : Flow} (hf : (gather b body waiting rest args).Primitive r) (hr : r.Over ds)
    (hv : (gather b body waiting rest args).Admits resumed) (hcx : cx.Primitive)
    (h : (gather b body waiting rest args).resume resumed cx = (.ok (flow, f'), cx')) :
    flow.Primitive r f' ∧ f'.Primitive r := by
  have hgather := hf.gathered hr hv
  obtain ⟨hb, hop, -⟩ := hf
  simp only [resume] at h
  split at h
  · rename_i name i rest' args' hg
    cases h
    rw [hg] at hgather
    obtain ⟨hi, hliteral, hrest', hargs'⟩ := hgather
    exact ⟨⟨hb.inputs _ hi, fun v hv => absurd hv (hliteral v)⟩, hb, hop, hrest', hargs'⟩
  · split at h
    · rename_i hrun
      cases h
      have hbody := isStandard_of_eager hb hr hop
      have hplain := Body.isPlain_of_run hbody hrun
      refine ⟨?_, trivial⟩
      cases flow with
      | done v => exact Body.isPrimitive_of_kinds _ (Body.kind_of_run hbody hcx hrun)
      | await a => exact Body.await_of_run hbody hrun
      | quit => trivial
      | evaluate | evaluateAtOnce | pause => cases hplain
    · cases h

theorem resume_call_primitive {b : Block} {d : Declaration} {phase : CallPhase} {flow : Flow}
    (hf : (call b d phase).Primitive r) (hr : r.Over ds) (hv : (call b d phase).Admits resumed)
    (hbodies : ∀ signature body, cx.scene.bodyOf? signature = some body → ∀ b ∈ body, b.Built r)
    (h : (call b d phase).resume resumed cx = (.ok (flow, f'), cx')) :
    flow.Primitive r f' ∧ f'.Primitive r := by
  obtain ⟨hb, hop, hphase⟩ := hf
  have henter : ∀ args, enterBody b d args cx = (.ok (flow, f'), cx') →
      flow.Primitive r f' ∧ f'.Primitive r := by
    intro args he
    rw [enterBody] at he
    split at he <;> cases he
    rename_i body hbody
    exact ⟨⟨.stack (hbodies _ _ hbody), fun v hv => Input.noConfusion hv⟩, hb, hop, trivial⟩
  cases phase with
  | arguments waiting rest args =>
    have hpassed := Primitive.passed ⟨hb, hop, hphase⟩ hr hv
    simp only [resume] at h
    split at h
    · rename_i hp
      cases h
      rw [hp] at hpassed
      obtain ⟨rfl, hliteral, hargs⟩ := hpassed
      exact ⟨⟨hb.input _, fun v hv => absurd hv (hliteral v)⟩, hb, hop, hargs⟩
    · rename_i args' hp
      rw [hp] at hpassed
      rw [guardCall] at h
      split at h
      · cases h
        exact ⟨trivial, hb, hop, hpassed⟩
      · exact henter args' h
  | enter args => exact henter args h
  | leave =>
    cases h
    exact ⟨rfl, trivial⟩

/-- Loops and branches discard whatever they ask for. -/
theorem primitive_asks {b : Block} (hb : b.Built r) (hf : f'.discards = true) (name : String) :
    (Flow.evaluate (b.input name)).Primitive r f' :=
  ⟨hb.input name, fun _ _ => admits_of_discards hf _⟩

/-- What a primitive routine asks for and what it becomes is primitive. -/
theorem resume_primitive {flow : Flow} (hf : f.Primitive r) (hr : r.Over ds)
    (hv : f.Admits resumed) (hcx : cx.Primitive)
    (hbodies : ∀ signature body, cx.scene.bodyOf? signature = some body → ∀ b ∈ body, b.Built r)
    (h : f.resume resumed cx = (.ok (flow, f'), cx')) : flow.Primitive r f' ∧ f'.Primitive r := by
  cases f with
  | gather b body waiting rest args => exact resume_gather_primitive hf hr hv hcx h
  | call b d phase => exact resume_call_primitive hf hr hv hbodies h
  | relay =>
    cases h
    exact ⟨hv.value rfl, trivial⟩
  | fence opcode =>
    cases h
    exact ⟨hv.value rfl, trivial⟩
  | stack rest =>
    cases rest with
    | nil =>
      cases h
      exact ⟨hv.value rfl, hf⟩
    | cons b rest =>
      cases h
      exact ⟨⟨.block (hf b (List.mem_cons_self ..)), fun v hv => Input.noConfusion hv⟩,
        fun b' hb' => hf b' (List.mem_cons_of_mem _ hb')⟩
  | repeatTimes b phase =>
    have hturn : ∀ n, repeatBody b n = (flow, f') → flow.Primitive r f' ∧ f'.Primitive r := by
      intro n hn
      rw [repeatBody] at hn
      split at hn <;> cases hn
      · exact ⟨rfl, trivial⟩
      · exact ⟨primitive_asks hf rfl _, hf⟩
    cases phase with
    | start =>
      cases h
      exact ⟨primitive_asks hf rfl _, hf⟩
    | count =>
      simp only [resume, Prod.mk.injEq, Except.ok.injEq] at h
      exact hturn _ h.1
    | body remaining =>
      simp only [resume, Prod.mk.injEq, Except.ok.injEq] at h
      exact hturn _ h.1
    | pause remaining =>
      cases h
      exact ⟨trivial, hf⟩
  | forever b inBody =>
    cases inBody with
    | true =>
      cases h
      exact ⟨trivial, hf⟩
    | false =>
      cases h
      exact ⟨primitive_asks hf rfl _, hf⟩
  | branch b hasElse phase =>
    simp only [resume] at h
    repeat' split at h
    all_goals
      cases h
      first
        | exact ⟨primitive_asks hf rfl _, hf⟩
        | exact ⟨rfl, hf⟩
  | repeatUntil b hasBody phase =>
    simp only [resume] at h
    repeat' split at h
    all_goals
      cases h
      first
        | exact ⟨primitive_asks hf rfl _, hf⟩
        | exact ⟨trivial, hf⟩
        | exact ⟨rfl, trivial⟩
  | ask i => exact hf.elim
  | askAtOnce i => exact hf.elim

/-- A custom block is entered with primitive arguments. -/
theorem Primitive.entering (hf : f.Primitive r) (hr : r.Over ds) (hv : f.Admits resumed) {args : Args}
    (h : f.entering? resumed = some args) : Args.Primitive args := by
  cases f with
  | call b d phase =>
    cases phase with
    | arguments waiting rest args' =>
      have hpassed := hf.passed hr hv
      simp only [entering?] at h
      split at h <;> cases h
      rename_i hp
      rw [hp] at hpassed
      exact hpassed
    | enter args' =>
      cases h
      exact hf.2.2
    | leave => cases h
  | _ => cases h

/-- A routine leaves a primitive context, whether it fails or not. -/
theorem resume_context (hf : f.Primitive r) (hr : r.Over ds) (hv : f.Admits resumed)
    (hcx : cx.Primitive) : (f.resume resumed cx).2.Primitive := by
  cases hruns : f.runs? resumed with
  | some run =>
    obtain ⟨b, body, args⟩ := run
    obtain ⟨hb, hop, hargs⟩ := hf.runs hr hv hruns
    rw [resume_of_runs hruns]
    exact Body.run_primitive (isStandard_of_eager hb hr hop) hcx hargs b.opcode
  | none =>
    have hworld := resume_world_of_none hruns cx
    refine ⟨by rw [Context.scene, hworld]; exact hcx.stored, ?_, by rw [hworld]; exact hcx.signals⟩
    rcases f.resume_calls resumed cx with heq | ⟨c, hc, heq⟩ | ⟨b, d, -, heq⟩
    · rw [heq]
      exact hcx.args
    · rw [heq]
      exact List.forall_mem_cons.mpr ⟨hf.entering hr hv hc, hcx.args⟩
    · rw [heq]
      intro c hc
      rw [CallStack.pop] at hc
      split at hc
      · exact hcx.args c hc
      · rename_i hcalls
        refine hcx.args c ?_
        rw [hcalls]
        exact List.mem_cons_of_mem _ hc

end Routine

/-! ### Machines -/

namespace Machine

/-- All that the machine holds has been built from the registry of the scene, or is primitive. -/
structure Primitive (scene : Scene) (m : Machine) : Prop where
  frames : ∀ f ∈ m.stack.frames, f.Primitive scene.registry
  resumed : ∀ top ∈ m.stack.frames.head?, top.Admits m.stack.resumed
  context : m.cx.Primitive
  program : m.cx.scene.outline = scene.outline

variable {scene : Scene} {frames : List Routine} {cx : Context}

theorem primitive_of_none (hframes : ∀ f ∈ frames, f.Primitive scene.registry) (hcx : cx.Primitive)
    (hprogram : cx.scene.outline = scene.outline) : Primitive scene ⟨⟨frames, none⟩, cx⟩ :=
  ⟨hframes, fun top _ => top.admits_none, hcx, hprogram⟩

theorem primitive_of_some {v : Value} (hv : v.IsPrimitive)
    (hframes : ∀ f ∈ frames, f.Primitive scene.registry) (hcx : cx.Primitive)
    (hprogram : cx.scene.outline = scene.outline) : Primitive scene ⟨⟨frames, some v⟩, cx⟩ :=
  ⟨hframes, fun top _ => Routine.admits_of_isPrimitive hv top, hcx, hprogram⟩

/-- The bodies of the custom blocks stay those of the scene. -/
theorem Primitive.bodies {m : Machine} (h : m.Primitive scene) (hscene : scene.Built)
    {signature : String} {body : List Block} (hbody : m.cx.scene.bodyOf? signature = some body) :
    ∀ b ∈ body, b.Built scene.registry := by
  have hprocedures : m.cx.scene.procedures = scene.procedures :=
    congrArg Scene.Outline.procedures h.program
  obtain ⟨p, hp, hb⟩ := Option.bind_eq_some_iff.mp hbody
  rw [Scene.procedure?, hprocedures] at hp
  exact hscene.bodies p (List.mem_of_find?_eq_some hp) body hb

section

variable (hr : scene.registry.Over ds)
include hr

theorem primitive_evaluate {i : Input} (hi : i.Built scene.registry)
    (hliteral : ∀ v, i = .literal v → ∀ top ∈ frames.head?, top.Admits (some v))
    (hframes : ∀ f ∈ frames, f.Primitive scene.registry) (hcx : cx.Primitive)
    (hprogram : cx.scene.outline = scene.outline) :
    (evaluate frames i cx).machine.Primitive scene := by
  cases hi with
  | literal v => exact ⟨hframes, hliteral v rfl, hcx, hprogram⟩
  | @block b hb =>
    rw [evaluate]
    split
    · rename_i f hstart
      exact primitive_of_none (List.forall_mem_cons.mpr ⟨hb.start hr hstart, hframes⟩) hcx hprogram
    · exact primitive_of_none hframes hcx hprogram
  | @stack bs hbs =>
    cases bs with
    | nil => exact primitive_of_some (v := .null) rfl hframes hcx hprogram
    | cons b bs => exact primitive_of_none (List.forall_mem_cons.mpr ⟨hbs, hframes⟩) hcx hprogram

theorem primitive_follow {flow : Flow} {top : Routine} {rest : List Routine}
    (hflow : flow.Primitive scene.registry top) (htop : top.Primitive scene.registry)
    (hrest : ∀ f ∈ rest, f.Primitive scene.registry) (hcx : cx.Primitive)
    (hprogram : cx.scene.outline = scene.outline) :
    (follow flow top rest cx).machine.Primitive scene := by
  have hframes : ∀ f ∈ top :: rest, f.Primitive scene.registry :=
    List.forall_mem_cons.mpr ⟨htop, hrest⟩
  cases flow with
  | done v =>
    cases rest with
    | nil => exact primitive_of_none hrest hcx hprogram
    | cons f rest => exact primitive_of_some hflow hrest hcx hprogram
  | evaluate i =>
    refine primitive_evaluate hr hflow.1 (fun v hv => ?_) hframes hcx hprogram
    rintro top' ⟨⟩
    exact hflow.2 v hv
  | evaluateAtOnce i => exact hflow.elim
  | pause =>
    rw [follow]
    split
    · exact primitive_of_none hframes hcx hprogram
    · rw [suspend_machine]
      exact primitive_of_none hframes hcx hprogram
  | await a =>
    rw [follow, suspend_machine]
    exact primitive_of_none hframes hcx hprogram
  | quit =>
    rw [follow, suspend_machine]
    exact primitive_of_none hframes hcx hprogram

variable (hscene : scene.Built) {m m' : Machine}
include hscene

/-- Every step keeps a machine primitive, also the one that ends a slice. -/
theorem Primitive.step (h : m.Primitive scene) : m.step.machine.Primitive scene := by
  have hprogram := m.step_outline.trans h.program
  cases hframes : m.stack.frames with
  | nil =>
    rw [Machine.step, hframes]
    exact primitive_of_none (fun f hf => absurd hf List.not_mem_nil) h.context h.program
  | cons top rest =>
    have hall := h.frames
    have hadmits := h.resumed
    rw [hframes] at hall hadmits
    obtain ⟨htop, hrest⟩ := List.forall_mem_cons.mp hall
    have hadmits := hadmits top rfl
    have hcx := Routine.resume_context htop hr hadmits h.context
    rw [step_cx hframes] at hprogram
    cases hres : top.resume m.stack.resumed m.cx with
    | mk reply cx =>
      rw [hres] at hcx hprogram
      cases reply with
      | error e =>
        rw [step_of_error hframes hres]
        exact primitive_of_none (List.forall_mem_cons.mpr ⟨htop, hrest⟩) hcx hprogram
      | ok x =>
        rw [step_of_ok hframes hres]
        obtain ⟨hflow, htop'⟩ := Routine.resume_primitive htop hr hadmits h.context
          (fun _ _ hb => h.bodies hscene hb) hres
        exact primitive_follow hr hflow htop' hrest hcx hprogram

theorem Primitive.next (h : m.Primitive scene) (hstep : m.step = .next m') :
    m'.Primitive scene := by
  have hm' := h.step hr hscene
  rw [hstep] at hm'
  exact hm'

theorem Primitive.reaches (h : m.Primitive scene) (hreaches : m.Reaches m') : m'.Primitive scene := by
  induction hreaches with
  | refl => exact h
  | tail _ hstep ih => exact ih.next hr hscene hstep

/-- A slice leaves a primitive machine, and waits for nothing that is not. -/
theorem Primitive.drive {fuel : Nat} {result : Except ExecError Slice} (h : m.Primitive scene)
    (hdrive : Machine.drive fuel m = some (result, m')) :
    m'.Primitive scene ∧ ∀ a, result = .ok (.awaiting a) → a.Primitive := by
  obtain ⟨last, hlast, hhalt⟩ :=
    drive_induction (fun _ _ hx hstep => Primitive.next hr hscene hx hstep) h hdrive
  have hm' := hlast.step hr hscene
  rw [hhalt] at hm'
  refine ⟨hm', ?_⟩
  rintro a rfl
  rcases halt_cases hhalt with ⟨v, hv, -⟩ | ⟨top, rest, flow, top', hframes, hres, -, hend⟩
  · cases hv
  · have hall := hlast.frames
    have hadmits := hlast.resumed
    rw [hframes] at hall hadmits
    obtain ⟨hflow, -⟩ := Routine.resume_primitive (hall top (List.mem_cons_self ..)) hr
      (hadmits top rfl) hlast.context (fun _ _ hb => hlast.bodies hscene hb) hres
    rcases hend with ⟨-, hyielded, -⟩ | ⟨a', rfl, ha⟩ | ⟨-, hexited⟩
    · cases hyielded
    · cases ha
      exact hflow
    · cases hexited

end

end Machine

end Blockwork
