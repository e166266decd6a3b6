import Blockwork.Proofs.Folding
import Blockwork.Proofs.Outline
import Blockwork.Proofs.Tokens

/-!
The values that a run deals in.

A value is primitive if it is null, a truth value, a number or a text.  A program that is built from the
standard library and from calls of its custom blocks never gets hold of another value, if none is stored
when it starts.  The literals that its blocks work with are primitive, because the shapes of their inputs
allow no others (`Block.Built.literal`).  A standard body that reads and is given primitive values only
reports a value of one of its kinds, and stores primitive values only.
-/

namespace Blockwork

variable {ds : List Declaration} {r : Registry}

/-- Null, a truth value, a number or a text. -/
def Value.IsPrimitive (v : Value) : Prop := v.kind.isPrimitive = true

/-! ### Literals -/

namespace Shape

mutual

/-- Whether the shape allows no literals but primitive ones. -/
def isScalar : Shape → Bool
  | .kind k => k.isPrimitive
  | .block => true
  | .union members => areScalar members
  | .arrayOf _ | .objectOf _ | .literal _ => false

def areScalar : List Shape → Bool
  | [] => true
  | shape :: rest => isScalar shape && areScalar rest

end

mutual

theorem isPrimitive_of_acceptsValue {v : Value} : ∀ {shape : Shape}, shape.isScalar = true →
    shape.acceptsValue v = true → v.IsPrimitive
  | .kind k, hscalar, haccepts => by
    rw [acceptsValue, decide_eq_true_eq] at haccepts
    rw [Value.IsPrimitive, haccepts]
    exact hscalar
  | .block, _, haccepts => by cases haccepts
  | .union _, hscalar, haccepts => isPrimitive_of_anyAcceptsValue hscalar haccepts
  | .arrayOf _, hscalar, _ => by cases hscalar
  | .objectOf _, hscalar, _ => by cases hscalar
  | .literal _, hscalar, _ => by cases hscalar

theorem isPrimitive_of_anyAcceptsValue {v : Value} : ∀ {shapes : List Shape},
    areScalar shapes = true → anyAcceptsValue shapes v = true → v.IsPrimitive
  | [], _, haccepts => by cases haccepts
  | shape :: rest, hscalar, haccepts => by
    rw [areScalar, Bool.and_eq_true] at hscalar
    rw [anyAcceptsValue, Bool.or_eq_true] at haccepts
    rcases haccepts with h | h
    · exact isPrimitive_of_acceptsValue hscalar.1 h
    · exact isPrimitive_of_anyAcceptsValue hscalar.2 h

end

end Shape

/-- Whether the operation works with the values of its inputs themselves.  Loops and branches only test
them, or count by them. -/
def Operation.takesValues : Operation → Bool
  | .eager _ | .call _ => true
  | _ => false

theorem Library.blocks_isScalar :
    Library.blocks.all (fun p => !p.operation.takesValues || p.inputs.all (·.2.isScalar)) = true := by
  decide

/-- What is declared for the inputs is among what was written down for them. -/
theorem Definition.forall_checkInputs {P : Shape → Prop} {opcode : String} :
    ∀ {given : List (String × Except ShapeError Shape)} {done inputs : Table Shape},
      (∀ e ∈ given, ∀ shape, e.2.bind Shape.checked = .ok shape → P shape) →
      (∀ e ∈ done, P e.2) → checkInputs opcode given done = .ok inputs → ∀ e ∈ inputs, P e.2
  | [], _, _, _, hdone, h => by
    cases h
    exact hdone
  | (name, shape) :: rest, done, inputs, hgiven, hdone, h => by
    rw [checkInputs] at h
    split at h
    · cases h
    · rename_i shape' hshape
      split at h
      · cases h
      · refine forall_checkInputs (fun e he => hgiven e (List.mem_cons_of_mem _ he)) ?_ h
        intro e he
        rcases Table.mem_insert he with hnew | hold
        · rw [hnew]
          exact hgiven _ (List.mem_cons_self ..) shape' hshape
        · exact hdone e hold

theorem Declaration.callDefinition_isScalar {d : Declaration} {p : Prototype}
    (h : d.callDefinition.build = .ok p) : ∀ e ∈ p.inputs, e.2.isScalar = true := by
  rw [Definition.build] at h
  split at h
  · cases h
  · rename_i inputs hinputs
    cases h
    refine Definition.forall_checkInputs (P := fun shape => shape.isScalar = true)
      (fun e he shape hshape => ?_) (fun e he => absurd he List.not_mem_nil) hinputs
    obtain ⟨name, -, rfl⟩ := List.mem_map.mp he
    cases hshape
    rfl

theorem Prototype.IsKnown.isScalar {p : Prototype} (h : p.IsKnown ds)
    (hop : p.operation.takesValues = true) : ∀ e ∈ p.inputs, e.2.isScalar = true := by
  rcases h with h | ⟨d, -, hp⟩
  · have hall := List.all_eq_true.mp Library.blocks_isScalar p h
    rw [hop] at hall
    exact List.all_eq_true.mp hall
  · exact Declaration.callDefinition_isScalar hp

namespace Block.Built

variable {b : Block} (hb : b.Built r) (hr : r.Over ds)
include hb hr

/-- The literals that a block works with are primitive. -/
theorem literal (hop : b.operation.takesValues = true) {name : String} {v : Value}
    (h : (name, .literal v) ∈ b.inputs) : v.IsPrimitive := by
  obtain ⟨opcode, hrequire⟩ := hb.require
  obtain ⟨shape, hshape, haccepts⟩ := hb.accepts _ h
  rw [Shape.accepts_literal] at haccepts
  exact Shape.isPrimitive_of_acceptsValue ((hr.require hrequire).isScalar hop _ hshape) haccepts

theorem input_literal (hop : b.operation.takesValues = true) {name : String} {v : Value}
    (h : b.input name = .literal v) : v.IsPrimitive := by
  rw [Block.input] at h
  cases hget : Table.get? name b.inputs with
  | none =>
    rw [hget] at h
    cases h
    rfl
  | some i =>
    rw [hget] at h
    cases h
    exact hb.literal hr hop (Table.mem_of_get? hget)

end Block.Built

theorem Block.Built.input {b : Block} (hb : b.Built r) (name : String) : (b.input name).Built r := by
  rw [Block.input]
  cases hget : Table.get? name b.inputs with
  | none => exact .literal _
  | some i => exact hb.inputs _ (Table.mem_of_get? hget)

/-! ### What is stored -/

/-- The variables and the items of the lists are primitive. -/
structure Target.StoresPrimitive (t : Target) : Prop where
  vars : ∀ e ∈ t.vars, e.2.IsPrimitive
  lists : ∀ e ∈ t.lists, ∀ v ∈ e.2, v.IsPrimitive

def Scene.StoresPrimitive (s : Scene) : Prop := ∀ t ∈ s.targets, t.StoresPrimitive

def Args.Primitive (args : Args) : Prop := ∀ e ∈ args, e.2.IsPrimitive

/-- What has been settled has been settled with primitive values. -/
def Signals.Primitive (s : Signals) : Prop := ∀ t v, s.outcome t = .settled v → v.IsPrimitive

/-- All that a body can read is primitive. -/
structure Context.Primitive (cx : Context) : Prop where
  stored : cx.scene.StoresPrimitive
  args : ∀ c ∈ cx.calls.calls, Args.Primitive c.args
  signals : cx.world.signals.Primitive

namespace Scene.StoresPrimitive

variable {s s' : Scene} {i : Nat} {name : String}

theorem modifyTarget (h : s.StoresPrimitive) {f : Target → Target}
    (hf : ∀ t : Target, t.StoresPrimitive → (f t).StoresPrimitive) (i : Nat) :
    (s.modifyTarget i f).StoresPrimitive := by
  intro t' ht'
  obtain ⟨t, ht, rfl | rfl⟩ := Scene.mem_modifyTarget ht'
  · exact h t' ht
  · exact hf t (h t ht)

theorem getVariable? (h : s.StoresPrimitive) {v : Value} (hv : s.getVariable? i name = some v) :
    v.IsPrimitive := by
  obtain ⟨j, -, hj⟩ := Option.bind_eq_some_iff.mp hv
  obtain ⟨t, ht, hget⟩ := Option.bind_eq_some_iff.mp hj
  exact (h t (List.mem_of_getElem? ht)).vars _ (Table.mem_of_get? hget)

theorem getList? (h : s.StoresPrimitive) {items : List Value}
    (hitems : s.getList? i name = some items) : ∀ v ∈ items, v.IsPrimitive := by
  obtain ⟨j, -, hj⟩ := Option.bind_eq_some_iff.mp hitems
  obtain ⟨t, ht, hget⟩ := Option.bind_eq_some_iff.mp hj
  exact (h t (List.mem_of_getElem? ht)).lists _ (Table.mem_of_get? hget)

theorem setVariable? (h : s.StoresPrimitive) {v : Value} (hv : v.IsPrimitive)
    (hs : s.setVariable? i name v = some s') : s'.StoresPrimitive := by
  obtain ⟨j, -, rfl⟩ := Option.map_eq_some_iff.mp hs
  refine h.modifyTarget ?_ j
  refine fun t ht => ⟨fun e he => ?_, ht.lists⟩
  rcases Table.mem_insert he with hnew | hold
  · rw [hnew]
    exact hv
  · exact ht.vars e hold

theorem setList? (h : s.StoresPrimitive) {items : List Value} (hitems : ∀ v ∈ items, v.IsPrimitive)
    (hs : s.setList? i name items = some s') : s'.StoresPrimitive := by
  obtain ⟨j, -, rfl⟩ := Option.map_eq_some_iff.mp hs
  refine h.modifyTarget ?_ j
  refine fun t ht => ⟨ht.vars, fun e he => ?_⟩
  rcases Table.mem_insert he with hnew | hold
  · rw [hnew]
    exact hitems
  · exact ht.lists e hold

end Scene.StoresPrimitive

theorem Args.Primitive.value {args : Args} (h : Args.Primitive args) (name : String) :
    (args.value name).IsPrimitive := by
  rw [Args.value]
  cases hget : Table.get? name args with
  | none => rfl
  | some v => exact h _ (Table.mem_of_get? hget)

theorem Args.Primitive.insert {args : Args} (h : Args.Primitive args) {v : Value}
    (hv : v.IsPrimitive) (name : String) : Args.Primitive (Table.insert name v args) := by
  intro e he
  rcases Table.mem_insert he with hnew | hold
  · rw [hnew]
    exact hv
  · exact h e hold

namespace Signals.Primitive

variable {s s' : Signals}

theorem of_outcomes (h : s.Primitive) (ho : s'.outcomes = s.outcomes) : s'.Primitive :=
  fun t v hv => h t v (by rw [← Moment.outcome_eq_of_outcomes ho]; exact hv)

theorem push (h : s.Primitive) (ho : s'.outcomes = s.outcomes.push .pending) : s'.Primitive := by
  intro t v hv
  rw [Moment.outcome_push ho] at hv
  split at hv
  · cases hv
  · exact h t v hv

theorem conclude (h : s.Primitive) {o : Outcome} (ho : ∀ v, o = .settled v → v.IsPrimitive)
    (t : Token) : (s.conclude t o).Primitive := by
  intro u v hv
  by_cases hpending : s.outcome u = .pending
  · by_cases hut : u = t
    · subst hut
      rw [outcome_conclude_self hpending] at hv
      exact ho v hv
    · rw [outcome_conclude_of_ne hut] at hv
      exact h u v hv
  · rw [outcome_conclude_of_ne_pending hpending] at hv
    exact h u v hv

theorem concludeAll {o : Outcome} (ho : ∀ v, o = .settled v → v.IsPrimitive) (ts : List Token) :
    ∀ {s : Signals}, s.Primitive → (s.concludeAll ts o).Primitive := by
  induction ts with
  | nil => exact fun h => h
  | cons t ts ih => exact fun h => ih (h.conclude ho t)

end Signals.Primitive

/-! ### Bodies -/

/-- There is nothing primitive to be handed out but a primitive value. -/
def Awaitable.Primitive (a : Awaitable) : Prop := ∀ v, a = .ready (some v) → v.IsPrimitive

namespace Body

/-- The kinds of what a standard body reports where all that it reads is primitive.  Commands report
null. -/
def kinds : Body → List Kind
  | .binary op _ _ => [op.kind]
  | .unary op _ => [op.kind]
  | .timerAbove => [.boolean]
  | .getVariable | .itemOfList | .parameter => [.null, .boolean, .number, .string]
  | .lengthOfList | .reading _ | .timer => [.number]
  | .costumeInfo => [.number, .string]
  | _ => [.null]

theorem isPrimitive_of_kinds {body : Body} : ∀ kind ∈ body.kinds, kind.isPrimitive = true := by
  cases body with
  | binary op => exact List.forall_mem_singleton.mpr (by cases op <;> rfl)
  | unary op => exact List.forall_mem_singleton.mpr (by cases op <;> rfl)
  | _ =>
    simp only [kinds]
    decide

theorem kind_mem_of_isPrimitive {v : Value} (h : v.IsPrimitive) :
    v.kind ∈ [Kind.null, .boolean, .number, .string] := by
  rw [Value.IsPrimitive] at h
  cases hkind : v.kind with
  | list | object =>
    rw [hkind] at h
    cases h
  | _ => decide

theorem eq_of_report {cx cx' : Context} {x : Except ExecError Value} {v : Value}
    (h : report cx x = (.ok (.done v), cx')) : x = .ok v := by
  cases x <;> cases h
  rfl

theorem report_context (cx : Context) (x : Except ExecError Value) : (report cx x).2 = cx := by
  cases x <;> rfl

theorem kind_of_command {cx cx' : Context} {x : Except ExecError Context} {v : Value}
    (h : command cx x = (.ok (.done v), cx')) : v.kind = .null := by
  cases x <;> cases h
  rfl

variable {body : Body} {cx cx' : Context} {args : Args} {opcode : String}

/-- A standard body reports one of its kinds. -/
theorem kind_of_run (hb : body.isStandard = true) (hcx : cx.Primitive) {v : Value}
    (h : body.run opcode args cx = (.ok (.done v), cx')) : v.kind ∈ body.kinds := by
  cases body with
  | extended e => cases hb
  | binary op left right =>
    cases h
    exact List.mem_singleton.mpr (BinaryOp.kind_apply ..)
  | unary op operand =>
    cases h
    exact List.mem_singleton.mpr (UnaryOp.kind_apply ..)
  | stop =>
    rw [run] at h
    repeat' split at h
    all_goals
      cases h
      try exact List.mem_singleton_self _
  | costumeInfo =>
    rw [run] at h
    repeat' split at h
    · cases h
      exact List.mem_cons_self ..
    · cases h
      exact List.mem_cons_of_mem _ (List.mem_singleton_self _)
    · cases h
  | getVariable =>
    have hread := eq_of_report h
    rw [Context.getVariable] at hread
    split at hread <;> cases hread
    rename_i hget
    exact kind_mem_of_isPrimitive (hcx.stored.getVariable? hget)
  | itemOfList =>
    have hread := eq_of_report h
    rw [Context.getList] at hread
    split at hread <;> cases hread
    rename_i items hget
    refine kind_mem_of_isPrimitive ?_
    cases hitem : (listIndex? (args.value "INDEX") items.length).bind fun i => items[i]? with
    | none => rfl
    | some item =>
      obtain ⟨i, -, hi⟩ := Option.bind_eq_some_iff.mp hitem
      exact hcx.stored.getList? hget item (List.mem_of_getElem? hi)
  | lengthOfList =>
    have hread := eq_of_report h
    rw [Context.getList] at hread
    split at hread <;> cases hread
    exact List.mem_singleton_self _
  | parameter =>
    cases h
    refine kind_mem_of_isPrimitive ?_
    cases hargument : cx.argument? (args.text "VALUE") with
    | none => rfl
    | some v =>
      obtain ⟨c, hc, hget⟩ := Option.bind_eq_some_iff.mp hargument
      exact hcx.args c (List.mem_of_mem_head? hc) _ (Table.mem_of_get? hget)
  | setVariable | changeVariable | addToList | clearList =>
    exact List.mem_singleton.mpr (kind_of_command h)
  | _ =>
    cases h
    try exact List.mem_singleton_self _

theorem stored_command {x : Except ExecError Context} (hcx : cx.scene.StoresPrimitive)
    (hx : ∀ cx', x = .ok cx' → cx'.scene.StoresPrimitive) :
    (command cx x).2.scene.StoresPrimitive := by
  cases x with
  | error e => exact hcx
  | ok cx' => exact hx cx' rfl

theorem stored_setVariable (hcx : cx.scene.StoresPrimitive) {name : String} {v : Value}
    (hv : v.IsPrimitive) (h : cx.setVariable name v = .ok cx') : cx'.scene.StoresPrimitive := by
  rw [Context.setVariable] at h
  split at h <;> cases h
  rename_i hs
  exact hcx.setVariable? hv hs

theorem stored_setList (hcx : cx.scene.StoresPrimitive) {name : String} {items : List Value}
    (hitems : ∀ v ∈ items, v.IsPrimitive) (h : cx.setList name items = .ok cx') :
    cx'.scene.StoresPrimitive := by
  rw [Context.setList] at h
  split at h <;> cases h
  rename_i hs
  exact hcx.setList? hitems hs

/-- A standard body stores primitive values only. -/
theorem run_stored (hb : body.isStandard = true) (hcx : cx.Primitive) (hargs : Args.Primitive args)
    (opcode : String) : (body.run opcode args cx).2.scene.StoresPrimitive := by
  have hself : ∀ {f : Target → Target}, (∀ t : Target, t.StoresPrimitive → (f t).StoresPrimitive) →
      (cx.modifySelf f).scene.StoresPrimitive := fun hf => hcx.stored.modifyTarget hf cx.target
  cases body with
  | extended e => cases hb
  | stop | costumeInfo =>
    simp only [run]
    repeat' split
    all_goals exact hcx.stored
  | getVariable | itemOfList | lengthOfList =>
    simp only [run, report_context]
    exact hcx.stored
  | setVariable =>
    exact stored_command hcx.stored fun cx' h => stored_setVariable hcx.stored (hargs.value _) h
  | clearList =>
    exact stored_command hcx.stored fun cx' h =>
      stored_setList hcx.stored (fun v hv => absurd hv List.not_mem_nil) h
  | changeVariable =>
    refine stored_command hcx.stored fun cx' h => ?_
    cases hread : cx.getVariable (args.text "VARIABLE") with
    | error e => rw [hread] at h; cases h
    | ok current =>
      rw [hread] at h
      exact stored_setVariable hcx.stored (v := .num _) rfl h
  | addToList =>
    refine stored_command hcx.stored fun cx' h => ?_
    cases hread : cx.getList (args.text "LIST") with
    | error e => rw [hread] at h; cases h
    | ok items =>
      rw [hread] at h
      refine stored_setList hcx.stored ?_ h
      rw [Context.getList] at hread
      split at hread <;> cases hread
      rename_i hget
      exact List.forall_mem_append.mpr ⟨hcx.stored.getList? hget,
        List.forall_mem_singleton.mpr (hargs.value _)⟩
  | motion m =>
    simp only [run, Context.redrawIfVisible_scene]
    refine hself fun t ht => ?_
    cases m <;> exact ⟨ht.vars, ht.lists⟩
  | switchCostume =>
    simp only [run, Context.redrawIfVisible_scene]
    refine hself fun t ht => ?_
    obtain ⟨n, hn⟩ := t.switchCostume_eq (args.value "COSTUME")
    rw [hn]
    exact ⟨ht.vars, ht.lists⟩
  | nextCostume =>
    simp only [run, Context.redrawIfVisible_scene]
    refine hself fun t ht => ?_
    obtain ⟨n, hn⟩ := t.nextCostume_eq
    rw [hn]
    exact ⟨ht.vars, ht.lists⟩
  | reveal => exact hself (f := fun t => { t with visible := true }) fun t ht => ⟨ht.vars, ht.lists⟩
  | hide => exact hself (f := fun t => { t with visible := false }) fun t ht => ⟨ht.vars, ht.lists⟩
  | wait | broadcast | broadcastAndWait | resetTimer => exact hcx.stored
  | idle | binary | unary | timerAbove | reading | timer | parameter => exact hcx.stored

theorem run_primitive (hb : body.isStandard = true) (hcx : cx.Primitive)
    (hargs : Args.Primitive args) (opcode : String) : (body.run opcode args cx).2.Primitive := by
  refine ⟨run_stored hb hcx hargs opcode, ?_, ?_⟩
  · rw [(body.run_keeps opcode args cx).calls]
    exact hcx.args
  · have hanswers := run_answers hb opcode args cx
    cases hawaited : awaited? (body.run opcode args cx).1 with
    | none =>
      rw [hawaited] at hanswers
      exact hcx.signals.of_outcomes hanswers.outcomes
    | some a =>
      rw [hawaited] at hanswers
      obtain ⟨t, -, hissues⟩ := hanswers
      exact hcx.signals.push hissues.outcomes

/-- A standard body waits for signals only. -/
theorem await_of_run (hb : body.isStandard = true) {a : Awaitable}
    (h : body.run opcode args cx = (.ok (.await a), cx')) : a.Primitive := by
  have hanswers := run_answers hb opcode args cx
  rw [h] at hanswers
  obtain ⟨t, rfl, -⟩ := hanswers
  exact fun v hv => by cases hv

end Body

end Blockwork
