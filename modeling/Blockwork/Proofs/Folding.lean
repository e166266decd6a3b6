import Blockwork.Proofs.AtOnce
import Blockwork.Proofs.SceneBuilding

/-!
Constant blocks can be folded.

A constant block is a tree of pure operators over literals.  `Block.folded` computes its value from the
tree alone.  The machine, wherever it evaluates the block, gets to that value above the same frames and
in the same context, as the induction over the tree shows (`Block.evaluates`).  So a loader may put
the value in the place of the block, and the value is of a kind that the block declares.
-/

namespace Blockwork

variable {ds : List Declaration}

/-! ### Pure operators -/

/-- The kind of what an operator reports. -/
def BinaryOp.kind : BinaryOp → Kind
  | .add | .subtract | .multiply | .divide | .modulo => .number
  | .less | .greater | .equals | .both | .either => .boolean
  | .join => .string

def UnaryOp.kind : UnaryOp → Kind
  | .negation => .boolean
  | .length | .round => .number

theorem BinaryOp.kind_apply (op : BinaryOp) (a b : Value) : (op.apply a b).kind = op.kind := by
  cases op <;> rfl

theorem UnaryOp.kind_apply (op : UnaryOp) (a : Value) : (op.apply a).kind = op.kind := by
  cases op <;> rfl

namespace Body

/-- The kind of what a pure operator reports; other bodies are none. -/
def operatorKind? : Body → Option Kind
  | .binary op _ _ => some op.kind
  | .unary op _ => some op.kind
  | _ => none

/-- What a pure operator makes of its inputs. -/
def fold (args : Args) : Body → Value
  | .binary op left right => op.apply (args.value left) (args.value right)
  | .unary op operand => op.apply (args.value operand)
  | _ => .null

variable {body : Body} {kind : Kind}

theorem kind_fold (h : body.operatorKind? = some kind) (args : Args) :
    (body.fold args).kind = kind := by
  cases body <;> cases h
  · exact BinaryOp.kind_apply ..
  · exact UnaryOp.kind_apply ..

/-- A pure operator looks at its inputs only, and changes nothing. -/
theorem run_of_operator (h : body.operatorKind? = some kind) (opcode : String) (args : Args)
    (cx : Context) : body.run opcode args cx = (.ok (.done (body.fold args)), cx) := by
  cases body <;> cases h <;> rfl

end Body

namespace Prototype

/-- A pure operator that declares the kind of what it reports. -/
def IsOperator (p : Prototype) : Prop :=
  ∃ body kind, p.operation = .eager body ∧ body.operatorKind? = some kind ∧ p.returns = some [kind]

/-- Whether the prototype is a pure operator that declares the kind of what it reports. -/
def isOperator (p : Prototype) : Bool :=
  match p.operation with
  | .eager body => body.operatorKind?.any fun kind => p.returns = some [kind]
  | _ => false

theorem isOperator_iff {p : Prototype} : p.isOperator = true ↔ p.IsOperator := by
  rw [isOperator, IsOperator]
  cases p.operation <;> simp [Option.any_eq_true]

end Prototype

theorem Library.blocks_pure :
    Library.blocks.all (fun p => !p.isPure || p.isOperator) = true := by decide

theorem Declaration.callDefinition_isPure {d : Declaration} {p : Prototype}
    (h : d.callDefinition.build = .ok p) : p.isPure = false := by
  rw [Definition.build] at h
  split at h
  · cases h
  · cases h
    rfl

/-- What is pure in a vocabulary is an operator of the standard library. -/
theorem Prototype.IsKnown.isOperator {p : Prototype} (h : p.IsKnown ds) (hpure : p.isPure = true) :
    p.IsOperator := by
  rcases h with h | ⟨d, -, hp⟩
  · have hall := List.all_eq_true.mp Library.blocks_pure p h
    rw [hpure] at hall
    exact isOperator_iff.mp hall
  · rw [Declaration.callDefinition_isPure hp] at hpure
    cases hpure

/-! ### Folding -/

mutual

/-- The value of a constant block, computed from its tree. -/
def Block.folded : Block → Value
  | .mk p _ _ inputs =>
    match p.operation with
    | .eager body => body.fold (foldInputs inputs [])
    | _ => .null

def Input.folded : Input → Value
  | .literal v => v
  | .block b => b.folded
  | .stack _ => .null

def foldInputs : List (String × Input) → Args → Args
  | [], args => args
  | (name, i) :: rest, args => foldInputs rest (Table.insert name i.folded args)

end

theorem Block.folded_eq {b : Block} {body : Body} (h : b.operation = .eager body) :
    b.folded = body.fold (foldInputs b.inputs []) := by
  obtain ⟨p, id, stamp, inputs⟩ := b
  have hp : p.operation = .eager body := h
  rw [folded, hp]
  rfl

theorem Block.isConstant_eq (b : Block) :
    b.isConstant = (b.prototype.isPure && areConstant b.inputs) := by
  cases b
  rfl

/-- The value of a constant block is of a kind that the block declares. -/
theorem Block.Over.kind_folded {b : Block} (hb : b.Over ds) (hc : b.isConstant = true) :
    ∃ kinds, b.prototype.returns = some kinds ∧ b.folded.kind ∈ kinds := by
  rw [isConstant_eq, Bool.and_eq_true] at hc
  obtain ⟨hknown, -⟩ := hb
  obtain ⟨body, kind, hop, hkind, hreturns⟩ := hknown.isOperator hc.1
  refine ⟨[kind], hreturns, ?_⟩
  rw [folded_eq hop, Body.kind_fold hkind]
  exact List.mem_singleton_self kind

/-! ### Evaluation -/

open Machine in
mutual

/-- Wherever a constant block is evaluated, the machine gets to its value. -/
theorem Block.evaluates (top : Routine) (rest : List Routine) (cx : Context) :
    ∀ b : Block, b.Over ds → b.isConstant = true →
      (evaluate (top :: rest) (.block b) cx).GetsTo (.next ⟨⟨top :: rest, some b.folded⟩, cx⟩)
  | .mk p id stamp inputs, hb, hc => by
    rw [Block.isConstant_eq, Bool.and_eq_true] at hc
    obtain ⟨hknown, hinputs⟩ := hb
    obtain ⟨body, kind, hop, hkind, -⟩ := hknown.isOperator hc.1
    have hop : (Block.mk p id stamp inputs).operation = .eager body := hop
    rw [Block.folded_eq hop, evaluate, Block.start, hop]
    exact .head ⟨_, rfl, rfl⟩
      (evaluates_inputs top rest cx hkind inputs hinputs hc.2 (fun _ => rfl))

/-- The inputs of an operator are evaluated in order, and then it runs. -/
theorem evaluates_inputs (top : Routine) (rest : List Routine) (cx : Context) {body : Body}
    {kind : Kind} (hkind : body.operatorKind? = some kind) {b : Block} :
    ∀ inputs : List (String × Input), (∀ e ∈ inputs, e.2.Over ds) →
      Block.areConstant inputs = true → ∀ {args : Args} {r : Routine} {resumed : Option Value},
      (∀ cx, r.resume resumed cx = (Routine.gather b body none inputs args).resume none cx) →
      (Machine.mk ⟨r :: top :: rest, resumed⟩ cx).step.GetsTo
        (.next ⟨⟨top :: rest, some (body.fold (foldInputs inputs args))⟩, cx⟩)
  | [], _, _, args, r, resumed, hr => by
    have hres : r.resume resumed cx = (.ok (.done (body.fold args), .relay), cx) := by
      rw [hr]
      simp only [Routine.resume, gather, takeResumed, body.run_of_operator hkind]
    rw [step_of_ok rfl hres]
    exact .refl
  | (name, .literal v) :: more, hover, hc, args, r, resumed, hr =>
    -- a literal is taken without a step of its own
    evaluates_inputs top rest cx hkind more (fun e he => hover e (.tail _ he)) hc hr
  | (name, .stack bs) :: more, hover, hc, args, r, resumed, hr => by cases hc
  | (name, .block c) :: more, hover, hc, args, r, resumed, hr => by
    rw [Block.areConstant, Bool.and_eq_true] at hc
    have hinput : (Input.block c).Over ds := hover _ (.head _)
    cases hinput with
    | block hover' =>
      have hres : r.resume resumed cx =
          (.ok (.evaluate (.block c), .gather b body (some name) more args), cx) := hr cx
      rw [step_of_ok rfl hres]
      refine (Block.evaluates _ (top :: rest) cx c hover' hc.1).trans (.head ⟨_, rfl, rfl⟩ ?_)
      exact evaluates_inputs top rest cx hkind more (fun e he => hover e (.tail _ he)) hc.2
        (fun _ => rfl)

end

/-- A run from a step on returns what the step gets to. -/
theorem Step.GetsTo.driveFrom {s : Step} {result : Except ExecError Slice} {m : Machine}
    (h : s.GetsTo (.halt result m)) : ∃ fuel, Machine.driveFrom fuel s = some (result, m) := by
  induction h using Relation.ReflTransGen.head_induction_on with
  | refl => exact ⟨0, rfl⟩
  | head hstep _ ih =>
    obtain ⟨m', rfl, rfl⟩ := hstep
    obtain ⟨fuel, hfuel⟩ := ih
    refine ⟨fuel + 1, ?_⟩
    rw [Machine.driveFrom, Machine.drive]
    cases hs : m'.step <;> rw [hs] at hfuel <;> exact hfuel

/-- Evaluated at once, a constant block comes to its value, and the context is as it was. -/
theorem Block.Over.evaluateAtOnce {b : Block} (hb : b.Over ds) (hc : b.isConstant = true)
    (cx : Context) : ∃ fuel, cx.evaluateAtOnce fuel (.block b) = some (.ok b.folded, cx) := by
  have hvalue := Block.evaluates (.fence b.opcode) [] cx b hb hc
  have hend : (Step.next ⟨⟨[.fence b.opcode], some b.folded⟩, cx⟩).GetsTo
      (.halt (.ok (.finished b.folded)) ⟨{}, cx⟩) := .single ⟨_, rfl, rfl⟩
  obtain ⟨fuel, hfuel⟩ := Step.GetsTo.driveFrom (hvalue.trans hend)
  refine ⟨fuel, ?_⟩
  rw [Context.evaluateAtOnce, Machine.evaluateAtOnce, hfuel]
  rfl

/-- Constant folding is sound.  Evaluated at once in any context, inside of warp calls and outside, a
constant block that is built from the standard library comes to the value that its tree alone
determines.  The scene, the services and the calls stay as they are, and the value is of a kind that the
block declares. -/
theorem constant_block_folds {b : Block} (hb : b.Built Library.registry)
    (hc : b.isConstant = true) :
    (∀ cx : Context, (∃ fuel, (cx.evaluateAtOnce fuel (.block b)).isSome) ∧
      ∀ fuel reply, cx.evaluateAtOnce fuel (.block b) = some reply → reply = (.ok b.folded, cx)) ∧
    ∃ kinds, b.prototype.returns = some kinds ∧ b.folded.kind ∈ kinds := by
  have hover : b.Over [] := hb.over (Library.registry_over [])
  refine ⟨fun cx => ?_, hover.kind_folded hc⟩
  obtain ⟨fuel, hfuel⟩ := hover.evaluateAtOnce hc cx
  refine ⟨⟨fuel, by rw [hfuel]; rfl⟩, fun fuel' reply hreply => ?_⟩
  obtain ⟨r, hstart, -⟩ := hover.start
  exact Context.evaluateAtOnce_unique hstart hreply hfuel

/-- Whether neither of two empty slots holds. -/
def Block.neither : Block :=
  .mk (Library.unary "operator_not" "OPERAND" .condition .boolean .negation) "neither" 0
    [("OPERAND", .block (.mk (Library.binary "operator_or" "OPERAND1" "OPERAND2" .condition .boolean
      .either) "either" 1 [("OPERAND1", .literal .null), ("OPERAND2", .literal .null)]))]

/-- The answer to that, in words. -/
def Block.verdict : Block :=
  .mk (Library.binary "operator_join" "STRING1" "STRING2" .any .string .join) "verdict" 2
    [("STRING1", .literal (.str "That is ")), ("STRING2", .block .neither)]

theorem Block.verdict_built : verdict.Built Library.registry := by
  have heither : Block.Built Library.registry (.mk (Library.binary "operator_or" "OPERAND1" "OPERAND2"
      .condition .boolean .either) "either" 1
      [("OPERAND1", .literal .null), ("OPERAND2", .literal .null)]) :=
    .of_parts rfl
      (List.forall_mem_cons.mpr ⟨.literal _, List.forall_mem_singleton.mpr (.literal _)⟩) rfl
  have hneither : neither.Built Library.registry :=
    .of_parts rfl (List.forall_mem_singleton.mpr (.block heither)) rfl
  exact .of_parts rfl
    (List.forall_mem_cons.mpr ⟨.literal _, List.forall_mem_singleton.mpr (.block hneither)⟩) rfl

/-- The answer is a text, also inside of a warp call. -/
theorem constant_block_folds_verdict :
    Block.verdict.Built Library.registry ∧ Block.verdict.isConstant = true ∧
      (∃ fuel, Context.settling.evaluateAtOnce fuel (.block .verdict) =
        some (.ok (.str "That is true"), .settling)) ∧
      ∃ kinds, Block.verdict.prototype.returns = some kinds ∧ Kind.string ∈ kinds := by
  have hc : Block.verdict.isConstant = true := rfl
  have hvalue : Block.verdict.folded = .str "That is true" := rfl
  obtain ⟨hfolds, hkinds⟩ := constant_block_folds Block.verdict_built hc
  rw [hvalue] at hfolds hkinds
  obtain ⟨⟨fuel, hsome⟩, hreply⟩ := hfolds .settling
  obtain ⟨reply, heval⟩ := Option.isSome_iff_exists.mp hsome
  rw [hreply fuel reply heval] at heval
  exact ⟨Block.verdict_built, hc, ⟨fuel, heval⟩, hkinds⟩

end Blockwork
