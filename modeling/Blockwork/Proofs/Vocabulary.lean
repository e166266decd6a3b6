import Blockwork.Engine.Interpreter
import Blockwork.Library

/-!
Programs over a vocabulary.

The vocabulary of a program is the standard library and the custom blocks it declares.  A block is
over a vocabulary if every block in its tree is of a kind that the vocabulary has.  The machine
never leaves a vocabulary: what a routine over it asks for, and what it becomes, is over it again.
-/

namespace Blockwork

/-! ### Kinds of blocks -/

/-- Whether a body belongs to the standard library, and was not added by a host. -/
def Body.isStandard : Body → Bool
  | .extended _ => false
  | _ => true

/-- Whether an operation belongs to the standard library. -/
def Operation.isStandard : Operation → Bool
  | .eager body => body.isStandard
  | .repeatTimes | .forever | .branch _ | .repeatUntil _ => true
  | .call _ | .evaluateInput _ | .evaluateAtOnce _ | .refuse _ => false

/-- A prototype of the standard library, or of the call block of a declared custom block. -/
def Prototype.IsKnown (ds : List Declaration) (p : Prototype) : Prop :=
  p ∈ Library.blocks ∨ ∃ d ∈ ds, d.callDefinition.build = .ok p

/-- What a library block does on evaluated inputs, if it has its inputs evaluated first. -/
def Library.perform (opcode : String) (args : Args) (cx : Context) : Option (Reply Flow) :=
  match (Library.registry.get? opcode).map Prototype.operation with
  | some (.eager body) => some (body.run opcode args cx)
  | _ => none

theorem Library.blocks_isStandard :
    Library.blocks.all (fun p => p.operation.isStandard) = true := by decide

theorem Declaration.callDefinition_operation {d : Declaration} {p : Prototype}
    (h : d.callDefinition.build = .ok p) : p.operation = .call d := by
  rw [Definition.build] at h
  split at h
  · cases h
  · cases h
    rfl

/-- The operations of a vocabulary. -/
inductive Operation.Known (ds : List Declaration) : Operation → Prop
  | eager {body : Body} : body.isStandard = true → Known ds (.eager body)
  | repeatTimes : Known ds .repeatTimes
  | forever : Known ds .forever
  | branch (hasElse : Bool) : Known ds (.branch hasElse)
  | repeatUntil (hasBody : Bool) : Known ds (.repeatUntil hasBody)
  | call {d : Declaration} : d ∈ ds → Known ds (.call d)

variable {ds : List Declaration}

theorem Operation.known_of_isStandard {op : Operation} (h : op.isStandard = true) :
    op.Known ds := by
  cases op with
  | eager body => exact .eager h
  | repeatTimes => exact .repeatTimes
  | forever => exact .forever
  | branch hasElse => exact .branch hasElse
  | repeatUntil hasBody => exact .repeatUntil hasBody
  | call d => cases h
  | evaluateInput input => cases h
  | evaluateAtOnce input => cases h
  | refuse text => cases h

theorem Prototype.IsKnown.operation {p : Prototype} (h : p.IsKnown ds) : p.operation.Known ds := by
  rcases h with h | ⟨d, hd, hp⟩
  · exact Operation.known_of_isStandard (List.all_eq_true.mp Library.blocks_isStandard p h)
  · rw [Declaration.callDefinition_operation hp]
    exact .call hd

/-! ### Blocks, scripts and scenes -/

mutual

/-- Every block in the tree is of a known kind. -/
inductive Block.Over (ds : List Declaration) : Block → Prop
  | intro {b : Block} :
      b.prototype.IsKnown ds → (∀ e ∈ b.inputs, Input.Over ds e.2) → Block.Over ds b

/-- Every block that stands in the input is over the vocabulary. -/
inductive Input.Over (ds : List Declaration) : Input → Prop
  | literal (v : Value) : Input.Over ds (.literal v)
  | block {b : Block} : Block.Over ds b → Input.Over ds (.block b)
  | stack {bs : List Block} : (∀ b ∈ bs, Block.Over ds b) → Input.Over ds (.stack bs)

end

theorem Block.Over.operation {b : Block} (h : b.Over ds) : b.operation.Known ds := by
  obtain ⟨hp, -⟩ := h
  exact hp.operation

theorem Block.Over.inputs {b : Block} (h : b.Over ds) : ∀ e ∈ b.inputs, e.2.Over ds := by
  obtain ⟨-, hi⟩ := h
  exact hi

theorem Table.mem_of_get? {α : Type} {name : String} {a : α} :
    ∀ {t : Table α}, Table.get? name t = some a → (name, a) ∈ t
  | [], h => by cases h
  | (n, b) :: rest, h => by
    rw [Table.get?] at h
    split at h
    · rename_i hn
      cases h
      rw [hn]
      exact List.mem_cons_self ..
    · exact List.mem_cons_of_mem _ (mem_of_get? h)

theorem Block.Over.input {b : Block} (h : b.Over ds) (name : String) : (b.input name).Over ds := by
  rw [Block.input]
  cases hg : Table.get? name b.inputs with
  | none => exact .literal _
  | some i => exact h.inputs _ (Table.mem_of_get? hg)

/-- Every block of the script is over the vocabulary. -/
def Script.Over (ds : List Declaration) (s : Script) : Prop := ∀ b ∈ s.blocks, b.Over ds

theorem Script.Over.body {s : Script} (h : s.Over ds) : ∀ b ∈ s.body, b.Over ds := by
  intro b hb
  rw [Script.body] at hb
  split at hb
  · exact h b (List.mem_cons_of_mem _ hb)
  · exact h b hb

/-- The scripts of the scene and the bodies of its custom blocks are over the vocabulary. -/
structure Scene.Over (ds : List Declaration) (s : Scene) : Prop where
  scripts : ∀ x ∈ s.scripts, x.2.Over ds
  bodies : ∀ p ∈ s.procedures, ∀ body, p.body = some body → ∀ b ∈ body, b.Over ds

/-- The bodies of the custom blocks are over the vocabulary, whatever the scripts are. -/
def Scene.BodiesOver (ds : List Declaration) (s : Scene) : Prop :=
  ∀ p ∈ s.procedures, ∀ body, p.body = some body → ∀ b ∈ body, b.Over ds

theorem Scene.BodiesOver.bodyOf {s : Scene} (h : s.BodiesOver ds) {signature : String}
    {body : List Block} (hb : s.bodyOf? signature = some body) : ∀ b ∈ body, b.Over ds := by
  obtain ⟨p, hp, hbody⟩ := Option.bind_eq_some_iff.mp hb
  exact h p (List.mem_of_find?_eq_some hp) body hbody

/-- Scenes with the same scripts and custom blocks are over the same vocabularies. -/
theorem Scene.Over.of_eq {s s' : Scene} (h : s.Over ds) (hs : s'.scripts = s.scripts)
    (hp : s'.procedures = s.procedures) : s'.Over ds :=
  ⟨by rw [hs]; exact h.scripts, by rw [hp]; exact h.bodies⟩

/-! ### Routines -/

/-- A routine for a block over the vocabulary. -/
def Routine.Over (ds : List Declaration) : Routine → Prop
  | .gather b body _ rest _ => b.Over ds ∧ body.isStandard = true ∧ ∀ e ∈ rest, e.2.Over ds
  | .relay => True
  | .stack rest => ∀ b ∈ rest, b.Over ds
  | .repeatTimes b _ | .forever b _ | .branch b _ _ | .repeatUntil b _ _ => b.Over ds
  | .call b d _ => b.Over ds ∧ d ∈ ds
  | .ask _ | .askAtOnce _ | .fence _ => False

/-- What a routine over the vocabulary may ask for: nothing outside it, and no evaluation at
once. -/
def Flow.Over (ds : List Declaration) : Flow → Prop
  | .evaluate i => i.Over ds
  | .evaluateAtOnce _ => False
  | _ => True

theorem Block.Over.start {b : Block} (h : b.Over ds) : ∃ r, b.start = .ok r ∧ r.Over ds := by
  rw [Block.start]
  cases hop : b.operation with
  | eager body =>
    have hk := h.operation
    rw [hop] at hk
    cases hk with
    | eager hb => exact ⟨_, rfl, h, hb, h.inputs⟩
  | call d =>
    have hk := h.operation
    rw [hop] at hk
    cases hk with
    | call hd => exact ⟨_, rfl, h, hd⟩
  | repeatTimes => exact ⟨_, rfl, h⟩
  | forever => exact ⟨_, rfl, h⟩
  | branch hasElse => exact ⟨_, rfl, h⟩
  | repeatUntil hasBody => exact ⟨_, rfl, h⟩
  | evaluateInput input => have hk := h.operation; rw [hop] at hk; cases hk
  | evaluateAtOnce input => have hk := h.operation; rw [hop] at hk; cases hk
  | refuse text => have hk := h.operation; rw [hop] at hk; cases hk

theorem gather_over {name : String} {i : Input} {rest : Table Input} {args : Args} :
    ∀ {inputs : Table Input} {args₀ : Args}, gather inputs args₀ = .wants name i rest args →
      (∀ e ∈ inputs, e.2.Over ds) → i.Over ds ∧ ∀ e ∈ rest, e.2.Over ds
  | [], _, h, _ => by cases h
  | (n, .literal v) :: more, _, h, hi => by
    rw [gather] at h
    exact gather_over h fun e he => hi e (List.mem_cons_of_mem _ he)
  | (n, .stack bs) :: more, _, h, hi => by
    rw [gather] at h
    exact gather_over h fun e he => hi e (List.mem_cons_of_mem _ he)
  | (n, .block b) :: more, _, h, hi => by
    cases h
    exact ⟨hi _ (List.mem_cons_self ..), fun e he => hi e (List.mem_cons_of_mem _ he)⟩

theorem passArguments_over {b : Block} (hb : b.Over ds) {name : String} {i : Input}
    {rest : List String} {args : Args} :
    ∀ {names : List String} {args₀ : Args}, passArguments b names args₀ = .wants name i rest args →
      i.Over ds
  | [], _, h => by cases h
  | n :: more, args₀, h => by
    have hn := hb.input n
    rw [passArguments] at h
    split at h
    · exact passArguments_over hb h
    · cases h
      exact hn

/-- Standard bodies finish, wait or end the script; they ask for nothing else. -/
def Flow.isPlain : Flow → Bool
  | .done _ | .await _ | .quit => true
  | _ => false

theorem Body.isPlain_of_command {cx cx' : Context} {x : Except ExecError Context} {flow : Flow}
    (h : Body.command cx x = (.ok flow, cx')) : flow.isPlain = true := by
  cases x <;> cases h
  rfl

theorem Body.isPlain_of_report {cx cx' : Context} {x : Except ExecError Value} {flow : Flow}
    (h : Body.report cx x = (.ok flow, cx')) : flow.isPlain = true := by
  cases x <;> cases h
  rfl

theorem Body.isPlain_of_run {body : Body} (hb : body.isStandard = true) {opcode : String}
    {args : Args} {cx cx' : Context} {flow : Flow}
    (h : body.run opcode args cx = (.ok flow, cx')) : flow.isPlain = true := by
  cases body with
  | extended e => cases hb
  | stop =>
    rw [Body.run] at h
    repeat' split at h
    all_goals cases h
    all_goals rfl
  | costumeInfo =>
    rw [Body.run] at h
    repeat' split at h
    all_goals cases h
    all_goals rfl
  | getVariable | itemOfList | lengthOfList => exact isPlain_of_report h
  | setVariable | changeVariable | addToList | clearList => exact isPlain_of_command h
  | _ => cases h; rfl

theorem Routine.resume_over {r r' : Routine} {v : Option Value} {cx cx' : Context} {flow : Flow}
    (hr : r.Over ds) (hs : cx.scene.BodiesOver ds) (h : r.resume v cx = (.ok (flow, r'), cx')) :
    flow.Over ds ∧ r'.Over ds := by
  cases r with
  | gather b body waiting rest args =>
    obtain ⟨hb, hbody, hrest⟩ := hr
    simp only [Routine.resume] at h
    split at h
    · rename_i name i rest' args' hg
      cases h
      obtain ⟨hi, hrest'⟩ := gather_over hg hrest
      exact ⟨hi, hb, hbody, hrest'⟩
    · split at h
      · rename_i hrun
        cases h
        have hp := Body.isPlain_of_run hbody hrun
        refine ⟨?_, trivial⟩
        cases flow <;> trivial
      · cases h
  | relay => cases h; exact ⟨trivial, trivial⟩
  | stack rest =>
    cases rest with
    | nil => cases h; exact ⟨trivial, hr⟩
    | cons b rest =>
      cases h
      exact ⟨.block (hr b (List.mem_cons_self ..)), fun c hc => hr c (List.mem_cons_of_mem _ hc)⟩
  | repeatTimes b phase =>
    have hturn : ∀ n, Routine.repeatBody b n = (flow, r') → flow.Over ds ∧ r'.Over ds := by
      intro n hn
      rw [Routine.repeatBody] at hn
      split at hn
      · cases hn; exact ⟨trivial, trivial⟩
      · cases hn; exact ⟨Block.Over.input hr _, hr⟩
    cases phase with
    | start => cases h; exact ⟨Block.Over.input hr _, hr⟩
    | count =>
      simp only [Routine.resume, Prod.mk.injEq, Except.ok.injEq] at h
      exact hturn _ h.1
    | body remaining =>
      simp only [Routine.resume, Prod.mk.injEq, Except.ok.injEq] at h
      exact hturn _ h.1
    | pause remaining => cases h; exact ⟨trivial, hr⟩
  | forever b inBody =>
    cases inBody with
    | true => cases h; exact ⟨trivial, hr⟩
    | false => cases h; exact ⟨Block.Over.input hr _, hr⟩
  | branch b hasElse phase =>
    cases phase with
    | test => cases h; exact ⟨Block.Over.input hr _, hr⟩
    | choose =>
      simp only [Routine.resume] at h
      repeat' split at h
      · cases h; exact ⟨Block.Over.input hr _, hr⟩
      · cases h; exact ⟨Block.Over.input hr _, hr⟩
      · cases h; exact ⟨trivial, hr⟩
    | leave => cases h; exact ⟨trivial, hr⟩
  | repeatUntil b hasBody phase =>
    cases phase with
    | test => cases h; exact ⟨Block.Over.input hr _, hr⟩
    | check =>
      simp only [Routine.resume] at h
      repeat' split at h
      · cases h; exact ⟨trivial, trivial⟩
      · cases h; exact ⟨Block.Over.input hr _, hr⟩
      · cases h; exact ⟨trivial, hr⟩
    | body => cases h; exact ⟨trivial, hr⟩
  | call b d phase =>
    have henter : ∀ args, Routine.enterBody b d args cx = (.ok (flow, r'), cx') →
        flow.Over ds ∧ r'.Over ds := by
      intro args he
      rw [Routine.enterBody] at he
      split at he
      · cases he
      · rename_i body hbody
        cases he
        exact ⟨.stack (hs.bodyOf hbody), hr⟩
    cases phase with
    | arguments waiting rest args =>
      simp only [Routine.resume] at h
      split at h
      · rename_i name i rest' args' hp
        cases h
        exact ⟨passArguments_over hr.1 hp, hr⟩
      · rw [Routine.guardCall] at h
        split at h
        · cases h; exact ⟨trivial, hr⟩
        · exact henter _ h
    | enter args => exact henter _ h
    | leave => cases h; exact ⟨trivial, trivial⟩
  | ask i => cases hr
  | askAtOnce i => cases hr
  | fence opcode => cases hr

end Blockwork
