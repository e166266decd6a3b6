import Blockwork.Proofs.PrimitiveSessions

/-!
The kinds of what reporters report.

A reporter declares the kinds of what it may report.  Two reporters hand on what has been stored and one
what has been passed to a custom block, and they declare less than may have been put there: an empty slot
stores null, and a custom block takes null and truth values too (`undeclared_kinds_reported`).  The other
reporters of the standard library keep to what they declare, whatever program they stand in
(`reporters_report_declared_kinds`).
-/

namespace Blockwork

variable {ds : List Declaration}

/-! ### What is declared -/

/-- Whether the body reports whenever it does not fail. -/
def Body.reports : Body → Bool
  | .binary .. | .unary .. | .timerAbove | .getVariable | .itemOfList | .lengthOfList | .reading _
  | .costumeInfo | .timer | .parameter => true
  | _ => false

theorem Body.done_of_run {body : Body} (h : body.reports = true) {opcode : String} {args : Args}
    {cx cx' : Context} {flow : Flow} (hrun : body.run opcode args cx = (.ok flow, cx')) :
    ∃ v, flow = .done v := by
  have hreport : ∀ {x : Except ExecError Value}, report cx x = (.ok flow, cx') → ∃ v, flow = .done v := by
    intro x hx
    cases x <;> cases hx
    exact ⟨_, rfl⟩
  cases body with
  | binary | unary | timerAbove | reading | timer | parameter =>
    cases hrun
    exact ⟨_, rfl⟩
  | getVariable | itemOfList | lengthOfList => exact hreport hrun
  | costumeInfo =>
    rw [run] at hrun
    repeat' split at hrun
    all_goals cases hrun
    all_goals exact ⟨_, rfl⟩
  | _ => cases h

namespace Library

/-- The reporters that do not declare a kind that they may report, with that kind. -/
def undeclared : List (String × Kind) := [
  ("data_variable", .null),
  ("data_itemoflist", .null),
  ("argument_reporter_string_number", .null),
  ("argument_reporter_string_number", .boolean)]

/-- Whether a reporter runs a body that reports, and declares the kinds of that or is listed. -/
def declaresKinds (p : Prototype) : Bool :=
  match p.operation, p.returns with
  | _, none => true
  | .eager body, some kinds =>
    body.reports && body.kinds.all fun kind => kinds.contains kind || undeclared.contains (p.opcode, kind)
  | _, some _ => false

theorem blocks_declareKinds : blocks.all declaresKinds = true := by decide

end Library

theorem Declaration.callDefinition_returns {d : Declaration} {p : Prototype}
    (h : d.callDefinition.build = .ok p) : p.returns = none := by
  rw [Definition.build] at h
  split at h <;> cases h
  rfl

theorem Prototype.IsKnown.declaresKinds {p : Prototype} (h : p.IsKnown ds) :
    Library.declaresKinds p = true := by
  rcases h with h | ⟨d, -, hp⟩
  · exact List.all_eq_true.mp Library.blocks_declareKinds p h
  · rw [Library.declaresKinds, Declaration.callDefinition_returns hp]

/-! ### What is reported -/

/-- All variables and list items are of the kinds. -/
def Scene.Stores (kinds : List Kind) (s : Scene) : Prop :=
  ∀ t ∈ s.targets, (∀ e ∈ t.vars, e.2.kind ∈ kinds) ∧ ∀ e ∈ t.lists, ∀ v ∈ e.2, v.kind ∈ kinds

theorem Scene.Stores.primitive {s : Scene} (h : s.Stores Library.storable) : s.StoresPrimitive := by
  have hkind : ∀ kind ∈ Library.storable, kind.isPrimitive = true := by decide
  intro t ht
  obtain ⟨hvars, hlists⟩ := h t ht
  exact ⟨fun e he => hkind _ (hvars e he), fun e he v hv => hkind _ (hlists e he v hv)⟩

/-- The machine runs the body of the block on its evaluated inputs, and this is what the body asks for. -/
def Machine.Answers (m : Machine) (b : Block) (flow : Flow) : Prop :=
  ∃ top rest body args, m.stack.frames = top :: rest ∧
    top.runs? m.stack.resumed = some (b, body, args) ∧ (body.run b.opcode args m.cx).1 = .ok flow

/-- On a primitive machine a reporter reports one of the kinds of its body. -/
theorem Machine.Primitive.reports {scene : Scene} {m : Machine} (hm : m.Primitive scene)
    (hr : scene.registry.Over ds) {b : Block} {flow : Flow} {kinds : List Kind}
    (h : m.Answers b flow) (hreturns : b.prototype.returns = some kinds) :
    ∃ v, flow = .done v ∧ (v.kind ∈ kinds ∨ (b.opcode, v.kind) ∈ Library.undeclared) := by
  obtain ⟨top, rest, body, args, hframes, hruns, hflow⟩ := h
  have hall := hm.frames
  have hadmits := hm.resumed
  rw [hframes] at hall hadmits
  obtain ⟨hb, hop, -⟩ := (hall top (List.mem_cons_self ..)).runs hr (hadmits top rfl) hruns
  obtain ⟨opcode, hrequire⟩ := hb.require
  have hdeclares := (hr.require hrequire).declaresKinds
  have hop' : b.prototype.operation = .eager body := hop
  rw [Library.declaresKinds, hop', hreturns] at hdeclares
  obtain ⟨hreports, hkinds⟩ := Bool.and_eq_true_iff.mp hdeclares
  have hrun : body.run b.opcode args m.cx = (.ok flow, (body.run b.opcode args m.cx).2) :=
    Prod.ext hflow rfl
  obtain ⟨v, rfl⟩ := Body.done_of_run hreports hrun
  have hkind := Body.kind_of_run (Routine.isStandard_of_eager hb hr hop) hm.context hrun
  have hdeclared := List.all_eq_true.mp hkinds v.kind hkind
  rw [Bool.or_eq_true, List.contains_iff_mem, List.contains_iff_mem] at hdeclared
  exact ⟨v, rfl, hdeclared⟩

/-- Reporters of the standard library report what they declare, with three exceptions.  Take a scene that
is made of its own blocks and that stores texts, numbers and truth values, and a session that plays it.
When a machine at work runs the body of a reporter, and that does not fail, it reports a value; the value
is of a kind that the reporter declares, or is null and has been read from a variable or a list, or is
null or a truth value and has been passed to a custom block. -/
theorem reporters_report_declared_kinds {scene : Scene} {s : Interpreter} {fuel : Nat} {c : Command}
    {m : Machine} {b : Block} {flow : Flow} {kinds : List Kind} (hmade : scene.Made)
    (hstored : scene.Stores Library.storable) (hs : s.Plays scene) (hworks : s.Works fuel c m)
    (hanswers : m.Answers b flow) (hreturns : b.prototype.returns = some kinds) :
    ∃ v, flow = .done v ∧ (v.kind ∈ kinds ∨ (b.opcode, v.kind) ∈ Library.undeclared) := by
  have hprimitive := hs.primitive hmade.built hmade.registry_over hstored.primitive
  have hm := hworks.primitive hmade.built hmade.registry_over hprimitive
  exact hm.reports hmade.registry_over hanswers hreturns

/-- The machine some steps later, or where the slice ends before that. -/
def Machine.after : Nat → Machine → Machine
  | 0, m => m
  | n + 1, m =>
    match m.step with
    | .next m' => m'.after n
    | .halt _ _ => m

theorem Machine.reaches_after : ∀ (n : Nat) (m : Machine), m.Reaches (m.after n)
  | 0, m => .refl
  | n + 1, m => by
    rw [after]
    split
    · rename_i m' hstep
      exact .head hstep (reaches_after n m')
    · exact .refl

/-- A custom block that notes down what it is given. -/
def Declaration.noting : Declaration := ⟨"note", "note", ["word"], false⟩

def Prototype.noting : Prototype :=
  { opcode := "note", inputs := [("word", .any)], operation := .call .noting, returns := none,
    isPure := false, hat := none }

/-- Sets the variable. -/
def Block.keeping (id : String) (value : Input) : Block :=
  .mk (Library.command "data_setvariableto" [("VARIABLE", .field), ("VALUE", .any)] .setVariable) id 0
    [("VARIABLE", .literal (.str "seen")), ("VALUE", value)]

/-- Reports what the custom block is given. -/
def Block.word : Block :=
  .mk (Library.reporter "argument_reporter_string_number" [("VALUE", .field)] [.number, .string]
    .parameter) "word" 1 [("VALUE", .literal (.str "word"))]

/-- Reports the variable. -/
def Block.seen : Block :=
  .mk (Library.reporter "data_variable" [("VARIABLE", .field)] Library.storable .getVariable) "seen" 2
    [("VARIABLE", .literal (.str "seen"))]

/-- Reports the last item of the list. -/
def Block.last : Block :=
  .mk (Library.reporter "data_itemoflist" [("LIST", .field), ("INDEX", .slot .number)]
    Library.storable .itemOfList) "last" 3
    [("LIST", .literal (.str "all")), ("INDEX", .literal (.str "last"))]

/-- Adds nothing to the list. -/
def Block.adding : Block :=
  .mk (Library.command "data_addtolist" [("LIST", .field), ("ITEM", .any)] .addToList) "add" 4
    [("LIST", .literal (.str "all")), ("ITEM", .literal .null)]

/-- Notes down a truth value and nothing, and then reads both the variable and the list after nothing has
been put there. -/
def Script.noting : Script :=
  ⟨.mk .noting "yes" 5 [("word", .literal (.bool true))],
    [.mk .noting "nothing" 6 [("word", .literal .null)], .keeping "copy" (.block .seen), .adding,
      .keeping "item" (.block .last)]⟩

/-- A scene with the custom block, which sets the variable. -/
def Scene.noting : Scene :=
  { targets := [{ Target.stage with
      vars := [("seen", .str "")], lists := [("all", [])], scripts := [.noting] }]
    stage := some 0
    registry := { prototypes := Library.registry.prototypes ++ [("note", .noting)] }
    procedures := [⟨.noting, some [.keeping "note" (.block .word)]⟩] }

theorem Scene.noting_made : noting.Made := by
  have hdeclare : Scene.declare { registry := Library.registry } .noting = .ok
    { registry := noting.registry, procedures := [⟨.noting, none⟩] } := rfl
  have htarget : Scene.addTarget { registry := noting.registry, procedures := [⟨.noting, none⟩] }
    { Target.stage with vars := [("seen", .str "")], lists := [("all", [])], scripts := [.noting] } =
      .ok (0, { noting with procedures := [⟨.noting, none⟩] }) := rfl
  have hdefine : Scene.define { noting with procedures := [⟨.noting, none⟩] } "note"
    [.keeping "note" (.block .word)] = .ok noting := rfl
  have hone : ∀ {name : String} {v}, ∀ e ∈ [(name, Input.literal v)], e.2.Built noting.registry :=
    List.forall_mem_singleton.mpr (.literal _)
  have htwo : ∀ {name name' : String} {v i}, Input.Built noting.registry i →
      ∀ e ∈ [(name, Input.literal v), (name', i)], e.2.Built noting.registry :=
    fun hi => List.forall_mem_cons.mpr ⟨.literal _, List.forall_mem_singleton.mpr hi⟩
  have hword : Block.word.Built noting.registry := .of_parts rfl hone rfl
  have hseen : Block.seen.Built noting.registry := .of_parts rfl hone rfl
  have hlast : Block.last.Built noting.registry := .of_parts rfl (htwo (.literal _)) rfl
  refine .define (.addTarget (.declare .new hdeclare) ?_ htarget) ?_ hdefine
  · refine List.forall_mem_singleton.mpr ⟨Script.noting.blocks, ?_, rfl⟩
    refine List.forall_mem_cons.mpr ⟨.of_parts rfl hone rfl, ?_⟩
    refine List.forall_mem_cons.mpr ⟨.of_parts rfl hone rfl, ?_⟩
    refine List.forall_mem_cons.mpr ⟨.of_parts rfl (htwo (.block hseen)) rfl, ?_⟩
    refine List.forall_mem_cons.mpr ⟨.of_parts rfl (htwo (.literal _)) rfl, ?_⟩
    exact List.forall_mem_singleton.mpr (.of_parts rfl (htwo (.block hlast)) rfl)
  · exact List.forall_mem_singleton.mpr (.of_parts rfl (htwo (.block hword)) rfl)

theorem Scene.noting_stores : noting.Stores Library.storable := by
  refine List.forall_mem_singleton.mpr ⟨List.forall_mem_singleton.mpr (by decide), ?_⟩
  exact List.forall_mem_singleton.mpr fun v hv => absurd hv List.not_mem_nil

/-- A session in which the script has been started. -/
def Interpreter.noting : Interpreter :=
  (Interpreter.launch .noting 0 none false (.fresh .noting {} {})).2

theorem Interpreter.noting_plays : noting.Plays .noting := by
  have hscript : Script.noting.Built Scene.noting.registry :=
    Scene.noting_made.built.scripts (0, .noting) (List.mem_singleton.mpr rfl)
  exact @Plays.perform _ 1 (.launch .noting 0 none false) _ _ (.fresh {} {}) hscript rfl

/-- The machine that the script starts on. -/
def Machine.noting : Machine :=
  (Thread.launch 0 .noting 0 none).machine Interpreter.noting.beginFrame.world

theorem Machine.noting_works (n : Nat) :
    Interpreter.noting.Works 1 (.stepThreads (.rounds 1)) (noting.after n) :=
  .slice (t := .launch 0 .noting 0 none) .first (.nil ..) (fun _ hu => absurd hu List.not_mem_nil)
    rfl rfl rfl (reaches_after n _)

/-- What the custom block is given at first is a truth value, which is on the list. -/
theorem reporters_report_declared_kinds_noting :
    Interpreter.noting.Works 1 (.stepThreads (.rounds 1)) (Machine.noting.after 4) ∧
      (Machine.noting.after 4).Answers .word (.done (.bool true)) ∧
      ∃ v, Flow.done (.bool true) = .done v ∧
        (v.kind ∈ [Kind.number, Kind.string] ∨ (Block.word.opcode, v.kind) ∈ Library.undeclared) := by
  have hworks := Machine.noting_works 4
  have hanswers : (Machine.noting.after 4).Answers .word (.done (.bool true)) :=
    ⟨_, _, _, _, rfl, rfl, rfl⟩
  exact ⟨hworks, hanswers, reporters_report_declared_kinds Scene.noting_made Scene.noting_stores
    Interpreter.noting_plays hworks hanswers rfl⟩

/-- Every exception occurs: in this session each of the reporters on the list reports a value of a kind
that it does not declare. -/
theorem undeclared_kinds_reported :
    Scene.noting.Made ∧ Scene.noting.Stores Library.storable ∧ Interpreter.noting.Plays .noting ∧
      ∀ x ∈ Library.undeclared, ∃ m b v kinds,
        Interpreter.noting.Works 1 (.stepThreads (.rounds 1)) m ∧ m.Answers b (.done v) ∧
        b.prototype.returns = some kinds ∧ (b.opcode, v.kind) = x ∧ v.kind ∉ kinds := by
  refine ⟨Scene.noting_made, Scene.noting_stores, Interpreter.noting_plays, ?_⟩
  have hworks := Machine.noting_works
  refine List.forall_mem_cons.mpr ⟨?_, List.forall_mem_cons.mpr ⟨?_, List.forall_mem_cons.mpr ⟨?_,
    List.forall_mem_singleton.mpr ?_⟩⟩⟩
  · exact ⟨_, .seen, .null, _, hworks 18, ⟨_, _, _, _, rfl, rfl, rfl⟩, rfl, rfl, by decide⟩
  · exact ⟨_, .last, .null, _, hworks 24, ⟨_, _, _, _, rfl, rfl, rfl⟩, rfl, rfl, by decide⟩
  · exact ⟨_, .word, .null, _, hworks 12, ⟨_, _, _, _, rfl, rfl, rfl⟩, rfl, rfl, by decide⟩
  · exact ⟨_, .word, .bool true, _, hworks 4, ⟨_, _, _, _, rfl, rfl, rfl⟩, rfl, rfl, by decide⟩

end Blockwork
