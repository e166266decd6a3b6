import Blockwork.Proofs.Faults
import Blockwork.Proofs.SceneBuilding
import Mathlib.Data.List.Nodup

/-!
What blocks can be built.

A declared input that is not given counts as null, and for a shape it makes no difference whether null
stands in an input or is the value itself (`Shape.accepts_literal`).  So a declared input is judged by
one test only: whether its shape accepts what is bound to its name (`Block.bindInput_eq_ite`).  A checked
definition declares every name once, so although the inputs are taken out of what is given one after
another, each is looked up as if none had been taken (`Block.bindInputs_eq`), and building a block comes
down to two searches: one for a given name that is not declared, one for a declared input that does not
fit.
-/

namespace Blockwork

/-! ### Tables of distinct names -/

namespace Table

variable {α : Type}

theorem get?_erase_of_ne {name other : String} (h : other ≠ name) :
    ∀ t : Table α, get? other (erase name t) = get? other t
  | [] => rfl
  | (n, a) :: rest => by
    rw [erase]
    by_cases hn : n = name
    · rw [if_pos hn, get?, if_neg (hn ▸ h.symm)]
    · rw [if_neg hn, get?, get?, get?_erase_of_ne h rest]

/-- A new name comes last. -/
theorem insert_of_new {name : String} (a : α) :
    ∀ {t : Table α}, contains name t = false → insert name a t = t ++ [(name, a)]
  | [], _ => rfl
  | (n, b) :: rest, h => by
    rw [contains, get?] at h
    by_cases hn : n = name
    · rw [if_pos hn] at h
      cases h
    · rw [if_neg hn] at h
      rw [insert, if_neg hn]
      exact congrArg ((n, b) :: ·) (insert_of_new a h)

theorem names_insert_of_new {name : String} (a : α) {t : Table α} (h : contains name t = false) :
    names (insert name a t) = names t ++ [name] := by
  rw [insert_of_new a h, names, List.map_append]
  rfl

end Table

namespace Definition

/-- The checked inputs have the names that were written down, in that order, and no name twice. -/
theorem names_checkInputs {opcode : String} :
    ∀ {declared : List (String × Except ShapeError Shape)} {done inputs : Table Shape},
      checkInputs opcode declared done = .ok inputs → (Table.names done).Nodup →
      Table.names inputs = Table.names done ++ declared.map Prod.fst ∧ (Table.names inputs).Nodup
  | [], done, inputs, h, hdone => by
    cases h
    exact ⟨(List.append_nil _).symm, hdone⟩
  | (name, shape) :: rest, done, inputs, h, hdone => by
    rw [checkInputs] at h
    split at h
    · cases h
    · rename_i shape' _
      split at h
      · cases h
      · rename_i hnew
        have hnames := Table.names_insert_of_new shape' (Bool.eq_false_iff.mpr hnew)
        have hnodup : (Table.names (Table.insert name shape' done)).Nodup := by
          rw [hnames]
          refine List.Nodup.append hdone (List.nodup_singleton name) ?_
          exact List.disjoint_singleton.mpr fun hmem => hnew (Table.contains_iff.mpr hmem)
        obtain ⟨heq, hinputs⟩ := names_checkInputs h hnodup
        exact ⟨by rw [heq, hnames, List.append_assoc]; rfl, hinputs⟩

theorem names_build {d : Definition} {p : Prototype} (h : d.build = .ok p) :
    Table.names p.inputs = d.inputs.map Prod.fst ∧ (Table.names p.inputs).Nodup := by
  rw [build] at h
  split at h
  · cases h
  · rename_i inputs hinputs
    have hp : p.inputs = inputs := by
      dsimp only at h
      split at h <;> cases h <;> rfl
    rw [hp]
    exact names_checkInputs hinputs List.nodup_nil

end Definition

/-! ### Binding -/

namespace Block

variable {id opcode : String} {given : Table Input}

/-- What a name is bound to: what is given for it, else null. -/
def bound (given : Table Input) (name : String) : Input :=
  (Table.get? name given).getD (.literal .null)

/-- What is wrong with a declared input that does not fit: it has been given, or it is missing. -/
def misfit (id opcode name : String) : Option Input → DefinitionError
  | some _ => .invalidInput id opcode name
  | none => .missingInput id opcode name

/-- Whether the shape does not accept what is bound to the name. -/
def fails (given : Table Input) (e : String × Shape) : Bool := !e.2.accepts (bound given e.1)

/-- A missing input is judged as if null stood in it. -/
theorem bindInput_eq_ite (given : Table Input) (name : String) (shape : Shape) :
    bindInput id opcode name shape (Table.get? name given) =
      if fails given (name, shape) then .error (misfit id opcode name (Table.get? name given))
      else .ok (bound given name) := by
  rw [fails, bound]
  cases Table.get? name given with
  | none =>
    rw [Option.getD_none, Shape.accepts_literal, bindInput]
    cases shape.acceptsValue .null <;> rfl
  | some i =>
    rw [Option.getD_some, bindInput]
    cases shape.accepts i <;> rfl

/-- The inputs are bound to what is given or null, unless one of them does not fit; the first that does
not is at fault.  `given` may have lost the names that come before these shapes. -/
theorem bindInputs_eq (whole : Table Input) :
    ∀ {given : Table Input} {shapes : Table Shape}, (Table.names shapes).Nodup →
      (∀ name ∈ Table.names shapes, Table.get? name given = Table.get? name whole) →
      bindInputs id opcode given shapes =
        match shapes.find? (fails whole) with
        | none => .ok (shapes.map fun e => (e.1, bound whole e.1))
        | some e => .error (misfit id opcode e.1 (Table.get? e.1 whole))
  | _, [], _, _ => rfl
  | given, (name, shape) :: rest, hnodup, hget => by
    obtain ⟨hnew, hrest⟩ := List.nodup_cons.mp hnodup
    have hkept : ∀ other ∈ Table.names rest,
        Table.get? other (Table.erase name given) = Table.get? other whole := by
      intro other hother
      have hne : other ≠ name := fun heq => hnew (heq ▸ hother)
      rw [Table.get?_erase_of_ne hne]
      exact hget other (List.mem_cons_of_mem _ hother)
    have hmore := bindInputs_eq whole hrest hkept
    rw [bindInputs, hget name (List.mem_cons_self ..), bindInput_eq_ite, hmore, List.find?_cons]
    cases fails whole (name, shape) with
    | true => rfl
    | false => cases rest.find? (fails whole) <;> rfl

/-- Building looks for a name that is not declared, then for an input that does not fit. -/
theorem build_eq_searches {d : Definition} {p : Prototype} (hp : d.build = .ok p) (id : String)
    (stamp : Nat) (given : Table Input) :
    Block.build p id stamp given =
      match (Table.names given).find? fun name => !Table.contains name p.inputs with
      | some name => .error (.unexpectedInput id p.opcode name)
      | none =>
        match p.inputs.find? (fails given) with
        | some e => .error (misfit id p.opcode e.1 (Table.get? e.1 given))
        | none => .ok (.mk p id stamp (p.inputs.map fun e => (e.1, bound given e.1))) := by
  rw [Block.build, bindInputs_eq given (Definition.names_build hp).2 fun _ _ => rfl]
  cases p.inputs.find? (fails given) <;> rfl

/-- What is given for a declared input has its shape, and if nothing is given, null has it. -/
def Fits (given : Table Input) (e : String × Shape) : Prop :=
  (∀ i, Table.get? e.1 given = some i → e.2.accepts i = true) ∧
    (e.1 ∉ Table.names given → e.2.acceptsValue .null = true)

theorem fits_iff {e : String × Shape} : Fits given e ↔ fails given e = false := by
  rw [fails, bound, Bool.not_eq_false', Fits, ← Table.contains_iff, Table.contains]
  cases Table.get? e.1 given with
  | none => simp [Shape.accepts_literal]
  | some i => simp

section

variable {d : Definition} {p : Prototype} (hp : d.build = .ok p)
include hp

/-- A block is built just when all that is given is declared and all that is declared fits. -/
theorem build_eq_ok_iff {stamp : Nat} {b : Block} :
    Block.build p id stamp given = .ok b ↔
      (∀ name ∈ Table.names given, name ∈ Table.names p.inputs) ∧ (∀ e ∈ p.inputs, Fits given e) ∧
        b = .mk p id stamp (p.inputs.map fun e => (e.1, bound given e.1)) := by
  have hdeclared : ((Table.names given).find? fun name => !Table.contains name p.inputs) = none ↔
      ∀ name ∈ Table.names given, name ∈ Table.names p.inputs := by
    simp only [List.find?_eq_none, Bool.not_eq_true', Bool.not_eq_false, Table.contains_iff]
  have hfits : p.inputs.find? (fails given) = none ↔ ∀ e ∈ p.inputs, Fits given e := by
    simp only [List.find?_eq_none, Bool.not_eq_true, fits_iff]
  rw [build_eq_searches hp, ← hdeclared, ← hfits]
  cases (Table.names given).find? fun name => !Table.contains name p.inputs with
  | some name => simp
  | none =>
    cases p.inputs.find? (fails given) with
    | some e => simp
    | none => simp [eq_comm]

/-- A name that is not declared comes before an input that does not fit, and earlier ones before later
ones. -/
theorem build_eq_error {stamp : Nat} {e : DefinitionError}
    (h : Block.build p id stamp given = .error e) :
    (∃ before name after, Table.names given = before ++ name :: after ∧
      (∀ other ∈ before, other ∈ Table.names p.inputs) ∧ name ∉ Table.names p.inputs ∧
      e = .unexpectedInput id p.opcode name) ∨
    (∀ name ∈ Table.names given, name ∈ Table.names p.inputs) ∧
      ∃ before name shape after, p.inputs = before ++ (name, shape) :: after ∧
        (∀ other ∈ before, Fits given other) ∧ ¬Fits given (name, shape) ∧
        e = misfit id p.opcode name (Table.get? name given) := by
  rw [build_eq_searches hp] at h
  cases hundeclared : (Table.names given).find? fun name => !Table.contains name p.inputs with
  | some name =>
    rw [hundeclared] at h
    cases h
    obtain ⟨hname, before, after, hnames, hbefore⟩ := List.find?_eq_some_iff_append.mp hundeclared
    refine .inl ⟨before, name, after, hnames, fun other hother => ?_, ?_, rfl⟩
    · exact Table.contains_iff.mp (by simpa using hbefore other hother)
    · rw [← Table.contains_iff]
      simpa using hname
  | none =>
    refine .inr ⟨fun name hname => ?_, ?_⟩
    · exact Table.contains_iff.mp (by simpa using List.find?_eq_none.mp hundeclared name hname)
    · rw [hundeclared] at h
      cases hmisfit : p.inputs.find? (fails given) with
      | none =>
        rw [hmisfit] at h
        cases h
      | some x =>
        rw [hmisfit] at h
        cases h
        obtain ⟨hx, before, after, hinputs, hbefore⟩ := List.find?_eq_some_iff_append.mp hmisfit
        refine ⟨before, x.1, x.2, after, hinputs, fun other hother => ?_, ?_, rfl⟩
        · exact fits_iff.mpr (by simpa using hbefore other hother)
        · rw [fits_iff, hx]
          exact Bool.noConfusion

/-- Of what is given, only the names and what they bind matter. -/
theorem build_congr {given' : Table Input} {id' : String} {stamp stamp' : Nat} {b : Block}
    (hnames : (∀ name ∈ Table.names given, name ∈ Table.names p.inputs) →
      ∀ name ∈ Table.names given', name ∈ Table.names p.inputs)
    (hbound : bound given' = bound given) (h : Block.build p id stamp given = .ok b) :
    Block.build p id' stamp' given' = .ok (.mk p id' stamp' b.inputs) := by
  obtain ⟨hdeclared, hfits, rfl⟩ := (build_eq_ok_iff hp).mp h
  have hfails : fails given' = fails given := by
    funext e
    rw [fails, fails, hbound]
  refine (build_eq_ok_iff hp).mpr ⟨hnames hdeclared, fun e he => ?_, ?_⟩
  · rw [fits_iff, hfails]
    exact fits_iff.mp (hfits e he)
  · rw [hbound]
    rfl

end

/-- The second table also gives null for some of the declared names that the first leaves out. -/
def FillsWithNull (p : Prototype) (given given' : Table Input) : Prop :=
  ∀ name, Table.get? name given' = Table.get? name given ∨
    name ∈ Table.names p.inputs ∧ Table.get? name given = none ∧
      Table.get? name given' = some (.literal .null)

namespace FillsWithNull

variable {p : Prototype} {given' : Table Input} (h : FillsWithNull p given given')
include h

theorem bound_eq : bound given' = bound given := by
  funext name
  rw [bound, bound]
  rcases h name with heq | ⟨-, hnone, hnull⟩
  · rw [heq]
  · rw [hnone, hnull]
    rfl

theorem declared_iff : (∀ name ∈ Table.names given', name ∈ Table.names p.inputs) ↔
    ∀ name ∈ Table.names given, name ∈ Table.names p.inputs := by
  refine forall_congr' fun name => ?_
  rw [← Table.contains_iff, Table.contains, ← Table.contains_iff (t := given), Table.contains]
  rcases h name with heq | ⟨hname, -⟩
  · rw [heq]
  · exact ⟨fun _ _ => hname, fun _ _ => hname⟩

end FillsWithNull

end Block

/-- Building accepts exactly the inputs that fit.  For a prototype that was built from a definition, a
block can be built just when every given name is declared, every given input has its shape, and null has
the shape of every declared input that is left out.  The block then binds the declared names in the order
of their declaration, each to what is given or to null, and each to what has its shape.  To leave inputs
out is the same as to give null for them, since a literal has a shape when its value has it.  And when no
block can be built, the first given name that is not declared is at fault, or, if all are declared, the
first declared input that does not fit. -/
theorem build_binds_what_fits {d : Definition} {p : Prototype} (hp : d.build = .ok p) (id : String)
    (stamp : Nat) (given : Table Input) :
    ((∃ b, Block.build p id stamp given = .ok b) ↔
      (∀ name ∈ Table.names given, name ∈ Table.names p.inputs) ∧
        ∀ e ∈ p.inputs, Block.Fits given e) ∧
    (∀ b, Block.build p id stamp given = .ok b →
      Table.names b.inputs = d.inputs.map Prod.fst ∧
        b = .mk p id stamp (p.inputs.map fun e =>
          (e.1, (Table.get? e.1 given).getD (.literal .null))) ∧
        List.Forall₂ (fun e x => e.1 = x.1 ∧ e.2.accepts x.2 = true) p.inputs b.inputs) ∧
    (∀ given' id' stamp', Block.FillsWithNull p given given' →
      (Block.build p id' stamp' given').toOption.map Block.inputs =
        (Block.build p id stamp given).toOption.map Block.inputs) ∧
    (∀ (shape : Shape) (v : Value), shape.accepts (.literal v) = shape.acceptsValue v) ∧
    ∀ e, Block.build p id stamp given = .error e →
      (∃ before name after, Table.names given = before ++ name :: after ∧
        (∀ other ∈ before, other ∈ Table.names p.inputs) ∧ name ∉ Table.names p.inputs ∧
        e = .unexpectedInput id p.opcode name) ∨
      (∀ name ∈ Table.names given, name ∈ Table.names p.inputs) ∧
        ∃ before name shape after, p.inputs = before ++ (name, shape) :: after ∧
          (∀ other ∈ before, Block.Fits given other) ∧ ¬Block.Fits given (name, shape) ∧
          e = Block.misfit id p.opcode name (Table.get? name given) := by
  refine ⟨?accepts, ?binds, ?omits, fun shape v => Shape.accepts_literal v shape,
    fun e he => Block.build_eq_error hp he⟩
  case accepts =>
    constructor
    · rintro ⟨b, hb⟩
      obtain ⟨hdeclared, hfits, -⟩ := (Block.build_eq_ok_iff hp).mp hb
      exact ⟨hdeclared, hfits⟩
    · rintro ⟨hdeclared, hfits⟩
      exact ⟨_, (Block.build_eq_ok_iff hp).mpr ⟨hdeclared, hfits, rfl⟩⟩
  case binds =>
    intro b hb
    obtain ⟨-, hfits, rfl⟩ := (Block.build_eq_ok_iff hp).mp hb
    refine ⟨?_, rfl, ?_⟩
    · rw [← (Definition.names_build hp).1, Block.inputs, Table.names, List.map_map]
      rfl
    · rw [Block.inputs, List.forall₂_map_right_iff, List.forall₂_same]
      intro e he
      have hfails := Block.fits_iff.mp (hfits e he)
      rw [Block.fails, Bool.not_eq_false'] at hfails
      exact ⟨rfl, hfails⟩
  case omits =>
    intro given' id' stamp' hnull
    cases hb : Block.build p id stamp given with
    | ok b =>
      rw [Block.build_congr hp hnull.declared_iff.mpr hnull.bound_eq hb]
      rfl
    | error e =>
      cases hb' : Block.build p id' stamp' given' with
      | error e' => rfl
      | ok b' =>
        rw [Block.build_congr hp hnull.declared_iff.mp hnull.bound_eq.symm hb'] at hb
        cases hb

/-- A block with a slot for a number and a mouth. -/
def Definition.looping : Definition where
  opcode := "demo_loop"
  inputs := [("TIMES", .ok (.slot .number)), ("BODY", .ok .substack)]
  operation := some (.eager .idle)

/-- An empty mouth holds null, given or not, but the slot must be filled. -/
theorem build_binds_what_fits_looping : ∃ p, Definition.looping.build = .ok p ∧
    (∃ b, Block.build p "loop" 0 [("TIMES", .literal (.str "3"))] = .ok b ∧
      b.inputs = [("TIMES", .literal (.str "3")), ("BODY", .literal .null)] ∧
      (Block.build p "loop" 1 [("BODY", .literal .null), ("TIMES", .literal (.str "3"))]).toOption.map
        Block.inputs = some b.inputs) ∧
    ¬∃ b, Block.build p "loop" 2 [("BODY", .stack [])] = .ok b := by
  have hp : Definition.looping.build = .ok _ := rfl
  obtain ⟨-, hbinds, homits, -, -⟩ :=
    build_binds_what_fits hp "loop" 0 [("TIMES", .literal (.str "3"))]
  obtain ⟨haccepts, -, -, -, -⟩ := build_binds_what_fits hp "loop" 2 [("BODY", .stack [])]
  refine ⟨_, hp, ⟨_, rfl, ?_, ?_⟩, ?_⟩
  · rw [(hbinds _ rfl).2.1]
    rfl
  · refine homits _ "loop" 1 fun name => ?_
    by_cases hbody : name = "BODY"
    · subst hbody
      exact .inr ⟨by decide, rfl, rfl⟩
    · refine .inl ?_
      rw [Table.get?, if_neg (Ne.symm hbody)]
  · intro hbuilds
    have hslot := (haccepts.mp hbuilds).2 ("TIMES", .slot .number) (List.mem_cons_self ..)
    exact absurd (hslot.2 (by decide)) (by decide)

end Blockwork
