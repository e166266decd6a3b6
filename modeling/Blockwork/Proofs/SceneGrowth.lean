import Blockwork.Proofs.InputBinding

/-!
How scenes grow in place.

A host makes one scene and changes it by calls: it adds targets, registers blocks, and declares and
defines custom blocks.  A call writes to the scene as it goes along, and what it has written stays when
it fails further on (`Scene.Stand`).  That no call leaves the scene half changed is therefore something
to prove: every check stands before the first write, so that a call in place comes to the same as one
change of the whole scene (`Scene.Consistent.run_eq`).  What a call can add, and what it can fail for,
is said once (`Scene.Call.Adds`, `Scene.Call.Fault`).  From that it follows that the parts of a scene
keep what they promise one another (`Scene.Consistent`), and that nothing a scene has is ever lost
(`Scene.KeptIn`).
-/

namespace Blockwork

/-! ### Call blocks -/

/-- The call block of a custom block: it has the parameters as inputs, in their order, and calls. -/
def Declaration.callPrototype (d : Declaration) : Prototype :=
  { opcode := d.signature
    inputs := d.params.map (·, Shape.any)
    operation := .call d
    returns := none
    isPure := false
    hat := none }

/-- The name is the first one that comes a second time. -/
def Repeats (names : List String) (name : String) : Prop :=
  ∃ before after, names = before ++ name :: after ∧ before.Nodup ∧ name ∈ before

theorem Repeats.not_nodup {names : List String} {name : String} (h : Repeats names name) :
    ¬names.Nodup := by
  obtain ⟨before, after, rfl, -, hmem⟩ := h
  intro hnodup
  exact List.disjoint_of_nodup_append hnodup hmem (List.mem_cons_self ..)

/-- Names of which none comes twice do not reach beyond the first one that does. -/
theorem length_le_of_mem {before before' after rest : List String} {name : String}
    (h : before ++ name :: after = before' ++ rest) (hmem : name ∈ before) (hnodup : before'.Nodup) :
    before'.length ≤ before.length := by
  by_contra hlt
  have hprefix : before ++ [name] <+: before' := by
    have hlong : before ++ [name] <+: before' ++ rest :=
      ⟨after, by rw [← h, List.append_assoc]; rfl⟩
    refine List.prefix_of_prefix_length_le hlong (List.prefix_append ..) ?_
    rw [List.length_append, List.length_singleton]
    omega
  have hsub := hnodup.sublist hprefix.sublist
  exact List.disjoint_of_nodup_append hsub hmem (List.mem_singleton_self name)

theorem Repeats.unique {names : List String} {name other : String} (h : Repeats names name)
    (h' : Repeats names other) : name = other := by
  obtain ⟨before, after, rfl, hnodup, hmem⟩ := h
  obtain ⟨before', after', heq, hnodup', hmem'⟩ := h'
  have hlength : before.length = before'.length :=
    le_antisymm (length_le_of_mem heq.symm hmem' hnodup) (length_le_of_mem heq hmem hnodup')
  exact (List.cons.inj (List.append_inj heq hlength).2).1

/-- Parameters become inputs of any shape, unless one of them comes twice. -/
theorem Definition.checkInputs_params (opcode : String) (params : List String) (done : Table Shape)
    (hdone : (Table.names done).Nodup) :
    ((Table.names done ++ params).Nodup ∧
      checkInputs opcode (params.map fun p => (p, .ok Shape.any)) done =
        .ok (done ++ params.map (·, Shape.any))) ∨
    ∃ name, Repeats (Table.names done ++ params) name ∧
      checkInputs opcode (params.map fun p => (p, .ok Shape.any)) done =
        .error (.malformedDescriptor opcode name "input declared twice") := by
  induction params generalizing done with
  | nil =>
    rw [List.map_nil, List.map_nil, List.append_nil, List.append_nil]
    exact .inl ⟨hdone, rfl⟩
  | cons name rest ih =>
    have hshape : (Except.ok Shape.any : Except ShapeError Shape).bind Shape.checked =
        .ok Shape.any := rfl
    rw [List.map_cons, checkInputs, hshape]
    cases hnew : Table.contains name done with
    | true => exact .inr ⟨name, ⟨_, rest, rfl, hdone, Table.contains_iff.mp hnew⟩, rfl⟩
    | false =>
      have hnames := Table.names_insert_of_new Shape.any hnew
      have hnodup : (Table.names (Table.insert name Shape.any done)).Nodup := by
        rw [hnames]
        refine List.Nodup.append hdone (List.nodup_singleton name) ?_
        refine List.disjoint_singleton.mpr fun hmem => ?_
        rw [Table.contains_iff.mpr hmem] at hnew
        cases hnew
      have hrest := ih (Table.insert name Shape.any done) hnodup
      rw [hnames, List.append_assoc, List.singleton_append] at hrest
      simp only [Bool.false_eq_true, if_false]
      rcases hrest with ⟨hall, hok⟩ | hrepeats
      · refine .inl ⟨hall, ?_⟩
        rw [hok, Table.insert_of_new Shape.any hnew, List.append_assoc]
        rfl
      · exact .inr hrepeats

namespace Declaration

variable {d : Declaration}

theorem build_callDefinition : d.params.Nodup ∧ d.callDefinition.build = .ok d.callPrototype ∨
    ∃ name, Repeats d.params name ∧ d.callDefinition.build =
      .error (.malformedDescriptor d.signature name "input declared twice") := by
  rw [Definition.build]
  rcases Definition.checkInputs_params d.signature d.params [] List.nodup_nil with
    ⟨hnodup, hok⟩ | ⟨name, hrepeats, herror⟩
  · exact .inl ⟨hnodup, by simp only [callDefinition, hok]; rfl⟩
  · exact .inr ⟨name, hrepeats, by simp only [callDefinition, herror]⟩

theorem build_of_nodup (h : d.params.Nodup) : d.callDefinition.build = .ok d.callPrototype := by
  rcases d.build_callDefinition with ⟨-, hok⟩ | ⟨name, hrepeats, -⟩
  · exact hok
  · exact absurd h hrepeats.not_nodup

theorem build_of_repeats {name : String} (h : Repeats d.params name) : d.callDefinition.build =
    .error (.malformedDescriptor d.signature name "input declared twice") := by
  rcases d.build_callDefinition with ⟨hnodup, -⟩ | ⟨other, hrepeats, herror⟩
  · exact absurd hnodup h.not_nodup
  · rw [h.unique hrepeats, herror]

end Declaration

/-- Parameters make the inputs of a call block, each once. -/
example : (Declaration.callDefinition ⟨"def", "jump", ["height", "height"], false⟩).build =
    .error (.malformedDescriptor "jump" "height" "input declared twice") := rfl

/-- Registers a prototype, of which there is none under its opcode yet. -/
def Registry.adding (p : Prototype) (r : Registry) : Registry :=
  ⟨Table.insert p.opcode p r.prototypes⟩

namespace Scene

/-! ### Calls in place -/

/-- What a call comes to, and the scene as it leaves it: if it fails, with what was written so far. -/
abbrev Stand (α : Type) := Except DefinitionError α × Scene

namespace InPlace

/-- Adds a target and says where it is.  The place of a stage is noted before the target is there. -/
def addTarget (t : Target) (s : Scene) : Stand Nat :=
  let push (s : Scene) : Stand Nat :=
    (.ok s.targets.length, { s with targets := s.targets ++ [t] })
  if t.isStage then
    match s.stage with
    | some i => (.error (.duplicateStage ((s.target? i).elim "" Target.name) t.name), s)
    | none => push { s with stage := some s.targets.length }
  else push s

/-- Adds a prototype whose opcode is new. -/
def register (p : Prototype) (s : Scene) : Stand Unit :=
  if s.registry.contains p.opcode then (.error (.duplicateOpcode p.opcode), s)
  else (.ok (), { s with registry := s.registry.adding p })

/-- Declares a custom block: its call block is registered first, and then the block itself is listed. -/
def declare (d : Declaration) (s : Scene) : Stand Unit :=
  match d.callDefinition.build with
  | .error e => (.error e, s)
  | .ok p =>
    match register p s with
    | (.error e, s) => (.error e, s)
    | (.ok _, s) => (.ok (), { s with procedures := s.procedures ++ [{ declaration := d }] })

/-- Attaches a body to the first custom block with the signature, and to no other. -/
def define (signature : String) (body : List Block) (s : Scene) : Stand Unit :=
  match s.procedures.findIdx? (·.declaration.signature = signature) with
  | none => (.error (.unknownOpcode signature), s)
  | some k =>
    if (s.procedures[k]?.bind Procedure.body).isSome then
      (.error (.bodyAlreadyDefined signature), s)
    else
      (.ok (), { s with procedures := s.procedures.modify k fun p => { p with body := some body } })

end InPlace

/-- A call by which a host builds a scene. -/
inductive Call where
  | addTarget (t : Target)
  | register (d : Definition)
  | declare (d : Declaration)
  | define (signature : String) (body : List Block)

namespace Call

/-- Carries the call out in place.  Only a call that adds a target has something to say. -/
def run (s : Scene) : Call → Stand (Option Nat)
  | .addTarget t =>
    let (r, s) := InPlace.addTarget t s
    (r.map some, s)
  | .register d =>
    match d.build with
    | .error e => (.error e, s)
    | .ok p =>
      let (r, s) := InPlace.register p s
      (r.map fun _ => none, s)
  | .declare d =>
    let (r, s) := InPlace.declare d s
    (r.map fun _ => none, s)
  | .define signature body =>
    let (r, s) := InPlace.define signature body s
    (r.map fun _ => none, s)

/-- The call as one change of the whole scene. -/
def reply (s : Scene) : Call → Except DefinitionError (Option Nat × Scene)
  | .addTarget t => (s.addTarget t).map fun (i, s) => (some i, s)
  | .register d => do
    let p ← d.build
    let registry ← s.registry.register p
    pure (none, { s with registry })
  | .declare d => (s.declare d).map (none, ·)
  | .define signature body => (s.define signature body).map (none, ·)

/-- The changed scene, if the call succeeds, and else the scene as it was. -/
def settle (s : Scene) (c : Call) : Stand (Option Nat) :=
  match c.reply s with
  | .ok (r, s') => (.ok r, s')
  | .error e => (.error e, s)

/-- What the calls add to a scene, what they say, and the scene they leave. -/
inductive Adds (s : Scene) : Call → Option Nat → Scene → Prop
  | target {t : Target} : t.isStage = false →
      Adds s (.addTarget t) (some s.targets.length) { s with targets := s.targets ++ [t] }
  | stage {t : Target} : t.isStage = true → s.stage = none →
      Adds s (.addTarget t) (some s.targets.length)
        { s with targets := s.targets ++ [t], stage := some s.targets.length }
  | prototype {d : Definition} {p : Prototype} : d.build = .ok p →
      s.registry.contains p.opcode = false →
      Adds s (.register d) none { s with registry := s.registry.adding p }
  | procedure {d : Declaration} : d.params.Nodup → s.registry.contains d.signature = false →
      Adds s (.declare d) none
        { s with
          registry := s.registry.adding d.callPrototype
          procedures := s.procedures ++ [{ declaration := d }] }
  | body {k : Nat} {p : Procedure} {blocks : List Block} : s.procedures[k]? = some p →
      p.body = none →
      Adds s (.define p.declaration.signature blocks) none
        { s with procedures := s.procedures.modify k fun p => { p with body := some blocks } }

/-- What the calls fail for. -/
inductive Fault (s : Scene) : Call → DefinitionError → Prop
  | secondStage {t t₀ : Target} {i : Nat} : t.isStage = true → s.stage = some i →
      s.target? i = some t₀ → Fault s (.addTarget t) (.duplicateStage t₀.name t.name)
  | malformed {d : Definition} {e : DefinitionError} : d.build = .error e → Fault s (.register d) e
  | knownOpcode {d : Definition} {p : Prototype} : d.build = .ok p →
      s.registry.contains p.opcode = true → Fault s (.register d) (.duplicateOpcode p.opcode)
  | repeatedParameter {d : Declaration} {name : String} : Repeats d.params name →
      Fault s (.declare d) (.malformedDescriptor d.signature name "input declared twice")
  | knownSignature {d : Declaration} : d.params.Nodup → s.registry.contains d.signature = true →
      Fault s (.declare d) (.duplicateOpcode d.signature)
  | undeclared {signature : String} {blocks : List Block} : s.procedure? signature = none →
      Fault s (.define signature blocks) (.unknownOpcode signature)
  | secondBody {signature : String} {blocks : List Block} : (s.bodyOf? signature).isSome →
      Fault s (.define signature blocks) (.bodyAlreadyDefined signature)

end Call

/-- The scene after the calls, whether they succeed or fail. -/
def after (calls : List Call) (s : Scene) : Scene := calls.foldl (fun s c => (c.run s).2) s

/-- The scene that a host starts with: without any blocks, or with the standard library. -/
def start (bare : Bool) : Scene := if bare then {} else { registry := Library.registry }

/-! ### What the parts of a scene promise one another -/

/-- The target is a stage, and no other one is. -/
def IsOnlyStage (s : Scene) (i : Nat) : Prop :=
  ∃ t, s.target? i = some t ∧ t.isStage = true ∧
    ∀ j t', s.target? j = some t' → t'.isStage = true → j = i

structure Consistent (s : Scene) : Prop where
  /-- The noted place is that of the one and only stage. -/
  stage_iff : ∀ i, s.stage = some i ↔ s.IsOnlyStage i
  /-- There is no stage beside the noted one. -/
  noted : ∀ i t, s.target? i = some t → t.isStage = true → s.stage = some i
  /-- Opcodes are unique. -/
  opcodes : (Table.names s.registry.prototypes).Nodup
  /-- A prototype is registered under its own opcode. -/
  keyed : ∀ opcode p, s.registry.get? opcode = some p → p.opcode = opcode
  /-- Signatures are unique. -/
  signatures : (s.declarations.map Declaration.signature).Nodup
  /-- The call block of every custom block is registered under its signature. -/
  calls : ∀ d ∈ s.declarations, s.registry.get? d.signature = some d.callPrototype

/-- Nothing of the first scene is lost in the second one, and only missing bodies are filled in. -/
structure KeptIn (s s' : Scene) : Prop where
  targets : ∀ i t, s.target? i = some t → s'.target? i = some t
  stage : ∀ i, s.stage = some i → s'.stage = some i
  prototypes : ∀ opcode p, s.registry.get? opcode = some p → s'.registry.get? opcode = some p
  procedures : ∀ (k : Nat) (p : Procedure), s.procedures[k]? = some p →
    ∃ p' : Procedure, s'.procedures[k]? = some p' ∧ p'.declaration = p.declaration ∧
      ∀ blocks, p.body = some blocks → p'.body = some blocks

theorem KeptIn.refl (s : Scene) : s.KeptIn s where
  targets _ _ h := h
  stage _ h := h
  prototypes _ _ h := h
  procedures _ p h := ⟨p, h, rfl, fun _ h => h⟩

theorem KeptIn.trans {s s' s'' : Scene} (h : s.KeptIn s') (h' : s'.KeptIn s'') : s.KeptIn s'' where
  targets i t ht := h'.targets i t (h.targets i t ht)
  stage i hi := h'.stage i (h.stage i hi)
  prototypes opcode p hp := h'.prototypes opcode p (h.prototypes opcode p hp)
  procedures k p hp := by
    obtain ⟨p', hp', hd, hbody⟩ := h.procedures k p hp
    obtain ⟨p'', hp'', hd', hbody'⟩ := h'.procedures k p' hp'
    exact ⟨p'', hp'', hd'.trans hd, fun blocks hb => hbody' blocks (hbody blocks hb)⟩

variable {s s' : Scene} {c : Call} {r : Option Nat} {e : DefinitionError}

/-- The noted place is that of the only stage, if it is that of a stage and of every stage. -/
theorem stage_iff_of_noted
    (hfound : ∀ i, s.stage = some i → ∃ t, s.target? i = some t ∧ t.isStage = true)
    (hnoted : ∀ i t, s.target? i = some t → t.isStage = true → s.stage = some i) (i : Nat) :
    s.stage = some i ↔ s.IsOnlyStage i := by
  constructor
  · intro hi
    obtain ⟨t, ht, hstage⟩ := hfound i hi
    refine ⟨t, ht, hstage, fun j t' ht' hstage' => ?_⟩
    exact Option.some.inj ((hnoted j t' ht' hstage').symm.trans hi)
  · rintro ⟨t, ht, hstage, -⟩
    exact hnoted i t ht hstage

theorem Consistent.found (hs : s.Consistent) {i : Nat} (hi : s.stage = some i) :
    ∃ t, s.target? i = some t ∧ t.isStage = true := by
  obtain ⟨t, ht, hstage, -⟩ := (hs.stage_iff i).mp hi
  exact ⟨t, ht, hstage⟩

/-! ### In place and as a whole -/

/-- Of custom blocks with different signatures, the first one with a signature is the only one. -/
theorem Consistent.attach_eq_modify (hs : s.Consistent) {k : Nat} {p : Procedure}
    (hp : s.procedures[k]? = some p) (f : Procedure → Procedure) :
    (s.procedures.map fun q =>
      if q.declaration.signature = p.declaration.signature then f q else q) =
      s.procedures.modify k f := by
  have hsignature : ∀ {j : Nat} {q : Procedure}, s.procedures[j]? = some q →
      (s.declarations.map Declaration.signature)[j]? = some q.declaration.signature := by
    intro j q hq
    rw [declarations, List.getElem?_map, List.getElem?_map, hq]
    rfl
  refine List.ext_getElem? fun j => ?_
  rw [List.getElem?_map, List.getElem?_modify]
  cases hq : s.procedures[j]? with
  | none => rfl
  | some q =>
    have hiff : q.declaration.signature = p.declaration.signature ↔ k = j := by
      constructor
      · intro heq
        have hlt := (List.getElem?_eq_some_iff.mp (hsignature hp)).1
        refine (List.getElem?_inj hlt hs.signatures).mp ?_
        rw [hsignature hp, hsignature hq, heq]
      · rintro rfl
        rw [hp] at hq
        rw [Option.some.inj hq]
    simp only [Option.map_some, hiff]
    rfl

/-- The custom block with a signature is the one at the first place where it stands. -/
theorem procedure?_eq_bind (signature : String) : s.procedure? signature =
    (s.procedures.findIdx? (·.declaration.signature = signature)).bind (s.procedures[·]?) :=
  List.find?_eq_bind_findIdx?_getElem?

/-- The call adds something, or it fails and the scene is as it was; in place and as a whole alike. -/
def Call.IsWhole (s : Scene) (c : Call) : Prop :=
  (∃ r s', c.run s = (.ok r, s') ∧ c.reply s = .ok (r, s') ∧ c.Adds s r s') ∨
    ∃ e, c.run s = (.error e, s) ∧ c.reply s = .error e ∧ c.Fault s e

theorem Consistent.isWhole_addTarget (hs : s.Consistent) (t : Target) :
    (Call.addTarget t).IsWhole s := by
  rw [Call.IsWhole, Call.run, InPlace.addTarget, Call.reply, Scene.addTarget]
  cases ht : t.isStage with
  | false => exact .inl ⟨_, _, rfl, rfl, .target ht⟩
  | true =>
    cases hstage : s.stage with
    | none => exact .inl ⟨_, _, rfl, rfl, .stage ht hstage⟩
    | some i =>
      obtain ⟨t₀, ht₀, -⟩ := hs.found hstage
      simp only [ht₀, Option.elim_some]
      exact .inr ⟨_, rfl, rfl, .secondStage ht hstage ht₀⟩

theorem isWhole_register (s : Scene) (d : Definition) : (Call.register d).IsWhole s := by
  rw [Call.IsWhole, Call.run, Call.reply]
  cases hd : d.build with
  | error e => exact .inr ⟨e, rfl, rfl, .malformed hd⟩
  | ok p =>
    simp only [InPlace.register, bind, Except.bind, Registry.register]
    cases hp : s.registry.contains p.opcode with
    | true => exact .inr ⟨_, rfl, rfl, .knownOpcode hd hp⟩
    | false => exact .inl ⟨_, _, rfl, rfl, .prototype hd hp⟩

theorem isWhole_declare (s : Scene) (d : Declaration) : (Call.declare d).IsWhole s := by
  rw [Call.IsWhole, Call.run, InPlace.declare, Call.reply, Scene.declare]
  rcases d.build_callDefinition with ⟨hparams, hok⟩ | ⟨name, hrepeats, herror⟩
  · simp only [hok, InPlace.register, bind, Except.bind, Registry.register]
    cases hp : s.registry.contains d.callPrototype.opcode with
    | true => exact .inr ⟨_, rfl, rfl, .knownSignature hparams hp⟩
    | false => exact .inl ⟨_, _, rfl, rfl, .procedure hparams hp⟩
  · rw [herror]
    exact .inr ⟨_, rfl, rfl, .repeatedParameter hrepeats⟩

theorem Consistent.isWhole_define (hs : s.Consistent) (signature : String) (blocks : List Block) :
    (Call.define signature blocks).IsWhole s := by
  rw [Call.IsWhole, Call.run, InPlace.define, Call.reply, Scene.define]
  have hprocedure := s.procedure?_eq_bind signature
  cases hk : s.procedures.findIdx? (·.declaration.signature = signature) with
  | none =>
    rw [hk, Option.bind_none] at hprocedure
    rw [hprocedure]
    exact .inr ⟨_, rfl, rfl, .undeclared hprocedure⟩
  | some k =>
    obtain ⟨hlt, hsignature, -⟩ := List.findIdx?_eq_some_iff_getElem.mp hk
    have hp : s.procedures[k]? = some s.procedures[k] := List.getElem?_eq_getElem hlt
    obtain rfl := of_decide_eq_true hsignature
    rw [hk, Option.bind_some, hp] at hprocedure
    simp only [hprocedure, hp, Option.bind_some]
    cases hbody : s.procedures[k].body with
    | some b =>
      refine .inr ⟨_, rfl, rfl, .secondBody ?_⟩
      rw [bodyOf?, hprocedure, Option.bind_some, hbody]
      rfl
    | none =>
      rw [hs.attach_eq_modify hp]
      exact .inl ⟨_, _, rfl, rfl, .body hp hbody⟩

theorem Consistent.isWhole (hs : s.Consistent) (c : Call) : c.IsWhole s := by
  cases c with
  | addTarget t => exact hs.isWhole_addTarget t
  | register d => exact isWhole_register s d
  | declare d => exact isWhole_declare s d
  | define signature blocks => exact hs.isWhole_define signature blocks

/-- In place or as a whole, a call comes to the same. -/
theorem Consistent.run_eq (hs : s.Consistent) (c : Call) : c.run s = c.settle s := by
  rw [Call.settle]
  rcases hs.isWhole c with ⟨r, s', hrun, hreply, -⟩ | ⟨e, hrun, hreply, -⟩
  · rw [hrun, hreply]
  · rw [hrun, hreply]

/-- Whatever a call can fail for makes it fail. -/
theorem Call.Fault.run (h : c.Fault s e) : c.run s = (.error e, s) := by
  cases h with
  | secondStage ht hi ht₀ => simp [Call.run, InPlace.addTarget, ht, hi, ht₀, Except.map]
  | malformed hd => rw [Call.run, hd]
  | knownOpcode hd hp => simp [Call.run, hd, InPlace.register, hp, Except.map]
  | repeatedParameter hrepeats =>
    simp [Call.run, InPlace.declare, Declaration.build_of_repeats hrepeats, Except.map]
  | @knownSignature d hnodup hp =>
    have hregister : InPlace.register d.callPrototype s = (.error (.duplicateOpcode d.signature), s) :=
      if_pos hp
    simp [Call.run, InPlace.declare, Declaration.build_of_nodup hnodup, hregister, Except.map]
  | @undeclared signature _ hnone =>
    rw [procedure?_eq_bind] at hnone
    cases hk : s.procedures.findIdx? (·.declaration.signature = signature) with
    | none => simp [Call.run, InPlace.define, hk, Except.map]
    | some k =>
      obtain ⟨hlt, -, -⟩ := List.findIdx?_eq_some_iff_getElem.mp hk
      rw [hk, Option.bind_some, List.getElem?_eq_getElem hlt] at hnone
      cases hnone
  | @secondBody signature _ hbody =>
    rw [bodyOf?, procedure?_eq_bind] at hbody
    cases hk : s.procedures.findIdx? (·.declaration.signature = signature) with
    | none =>
      rw [hk] at hbody
      cases hbody
    | some k =>
      rw [hk, Option.bind_some] at hbody
      simp [Call.run, InPlace.define, hk, hbody, Except.map]

theorem Consistent.run_eq_error_iff (hs : s.Consistent) :
    c.run s = (.error e, s') ↔ s' = s ∧ c.Fault s e := by
  constructor
  · intro h
    rcases hs.isWhole c with ⟨_, _, hrun, -, -⟩ | ⟨e', hrun, -, hfault⟩
    · rw [hrun] at h
      cases h
    · rw [hrun] at h
      cases h
      exact ⟨rfl, hfault⟩
  · rintro ⟨rfl, hfault⟩
    exact hfault.run

theorem Consistent.adds (hs : s.Consistent) (h : c.run s = (.ok r, s')) : c.Adds s r s' := by
  rcases hs.isWhole c with ⟨_, _, hrun, -, hadds⟩ | ⟨e', hrun, -, -⟩
  · rw [hrun] at h
    cases h
    exact hadds
  · rw [hrun] at h
    cases h

/-! ### What calls keep -/

section

variable {r : Registry} {p : Prototype} (hp : r.contains p.opcode = false)
include hp

theorem get?_adding {opcode : String} {q : Prototype} (hq : r.get? opcode = some q) :
    (r.adding p).get? opcode = some q := by
  have hne : opcode ≠ p.opcode := by
    rintro rfl
    rw [Registry.contains, Table.contains] at hp
    rw [Registry.get?] at hq
    rw [hq] at hp
    cases hp
  rw [Registry.get?, Registry.adding, Table.get?_insert_of_ne _ _ hne]
  exact hq

theorem nodup_adding (hr : (Table.names r.prototypes).Nodup) :
    (Table.names (r.adding p).prototypes).Nodup := by
  rw [Registry.adding, Table.names_insert_of_new p hp]
  refine List.Nodup.append hr (List.nodup_singleton _) (List.disjoint_singleton.mpr fun hmem => ?_)
  rw [Registry.contains, Table.contains_iff.mpr hmem] at hp
  cases hp

omit hp in
theorem keyed_adding (hr : ∀ opcode q, r.get? opcode = some q → q.opcode = opcode) :
    ∀ opcode q, (r.adding p).get? opcode = some q → q.opcode = opcode := by
  intro opcode q hq
  rw [Registry.get?, Registry.adding] at hq
  by_cases hne : opcode = p.opcode
  · rw [hne, Table.get?_insert_self] at hq
    rw [← Option.some.inj hq, hne]
  · rw [Table.get?_insert_of_ne _ _ hne] at hq
    exact hr opcode q hq

end

theorem getElem?_concat_of_some {α : Type} {l : List α} {i : Nat} {a b : α} (h : l[i]? = some a) :
    (l ++ [b])[i]? = some a := by
  rw [List.getElem?_append_left (List.getElem?_eq_some_iff.mp h).1, h]

theorem Call.Adds.keptIn (h : c.Adds s r s') : s.KeptIn s' := by
  cases h with
  | target _ => exact { KeptIn.refl s with targets := fun _ _ ht => getElem?_concat_of_some ht }
  | stage _ hnone =>
    refine { KeptIn.refl s with targets := fun _ _ ht => getElem?_concat_of_some ht, stage := ?_ }
    intro i hi
    rw [hnone] at hi
    cases hi
  | prototype _ hp => exact { KeptIn.refl s with prototypes := fun _ _ hq => get?_adding hp hq }
  | procedure _ hp =>
    refine { KeptIn.refl s with prototypes := fun _ _ hq => get?_adding hp hq, procedures := ?_ }
    intro k p hk
    exact ⟨p, getElem?_concat_of_some hk, rfl, fun _ h => h⟩
  | @body k p blocks hk hbody =>
    refine { KeptIn.refl s with procedures := ?_ }
    intro j q hq
    refine ⟨_, by rw [List.getElem?_modify, hq]; rfl, ?_⟩
    split
    · rename_i hkj
      rw [hkj, hq] at hk
      obtain rfl := Option.some.inj hk
      refine ⟨rfl, fun b hb => ?_⟩
      rw [hbody] at hb
      cases hb
    · exact ⟨rfl, fun _ h => h⟩

theorem getElem?_concat_eq_some {α : Type} {l : List α} {i : Nat} {a b : α}
    (h : (l ++ [b])[i]? = some a) : l[i]? = some a ∨ i = l.length ∧ a = b := by
  rw [List.getElem?_append] at h
  split at h
  · exact .inl h
  · obtain ⟨hi, ha⟩ := List.getElem?_eq_some_iff.mp h
    rw [List.length_singleton] at hi
    rw [List.getElem_singleton] at ha
    exact .inr ⟨by omega, ha.symm⟩

theorem declarations_modify (procedures : List Procedure) (k : Nat) (blocks : List Block) :
    (procedures.modify k fun p => { p with body := some blocks }).map Procedure.declaration =
      procedures.map Procedure.declaration := by
  refine List.ext_getElem? fun j => ?_
  rw [List.getElem?_map, List.getElem?_map, List.getElem?_modify]
  cases procedures[j]? with
  | none => rfl
  | some p =>
    simp only [Option.map_eq_map, Option.map_some]
    split <;> rfl

theorem Call.Adds.consistent (hs : s.Consistent) (h : c.Adds s r s') : s'.Consistent := by
  cases h with
  | @target t ht =>
    have hnoted : ∀ i t', (s.targets ++ [t])[i]? = some t' → t'.isStage = true →
        s.stage = some i := by
      intro i t' ht' hstage
      rcases getElem?_concat_eq_some ht' with hold | ⟨-, rfl⟩
      · exact hs.noted i t' hold hstage
      · rw [ht] at hstage
        cases hstage
    refine { hs with stage_iff := stage_iff_of_noted (fun i hi => ?_) hnoted, noted := hnoted }
    obtain ⟨t', ht', hstage⟩ := hs.found hi
    exact ⟨t', getElem?_concat_of_some ht', hstage⟩
  | @stage t ht hnone =>
    have hnoted : ∀ i t', (s.targets ++ [t])[i]? = some t' → t'.isStage = true →
        some s.targets.length = some i := by
      intro i t' ht' hstage
      rcases getElem?_concat_eq_some ht' with hold | ⟨rfl, -⟩
      · rw [hs.noted i t' hold hstage] at hnone
        cases hnone
      · rfl
    refine { hs with stage_iff := stage_iff_of_noted (fun i hi => ?_) hnoted, noted := hnoted }
    cases hi
    exact ⟨t, List.getElem?_concat_length, ht⟩
  | prototype _ hp =>
    exact { hs with
      opcodes := nodup_adding hp hs.opcodes
      keyed := keyed_adding hs.keyed
      calls := fun d hd => get?_adding hp (hs.calls d hd) }
  | @procedure d _ hp =>
    refine { hs with
      opcodes := nodup_adding hp hs.opcodes
      keyed := keyed_adding hs.keyed
      signatures := ?_
      calls := ?_ }
    · rw [declarations, List.map_append, List.map_append]
      refine List.Nodup.append hs.signatures (List.nodup_singleton _) ?_
      refine List.disjoint_singleton.mpr fun hmem => ?_
      obtain ⟨d', hd', hsignature⟩ := List.mem_map.mp hmem
      have hget := hs.calls d' hd'
      rw [Registry.contains, Table.contains, ← hsignature] at hp
      rw [Registry.get?] at hget
      rw [hget] at hp
      cases hp
    · intro d' hd'
      rw [declarations, List.map_append] at hd'
      rcases List.mem_append.mp hd' with hold | hnew
      · exact get?_adding hp (hs.calls d' hold)
      · rw [List.mem_singleton.mp hnew]
        exact Table.get?_insert_self ..
  | @body k p blocks hk hbody =>
    refine { hs with signatures := ?_, calls := ?_ }
    · rw [declarations, declarations_modify]
      exact hs.signatures
    · rw [declarations, declarations_modify]
      exact hs.calls

/-! ### Runs -/

theorem nodup_library : (Table.names Library.registry.prototypes).Nodup := by decide

theorem keyed_library (opcode : String) (p : Prototype)
    (h : Library.registry.get? opcode = some p) : p.opcode = opcode := by
  obtain ⟨q, -, heq⟩ := List.mem_map.mp (Table.mem_of_get? h)
  cases heq
  rfl

theorem consistent_start (bare : Bool) : (start bare).Consistent where
  stage_iff i := by
    cases bare
    all_goals exact ⟨fun h => (nomatch h), fun ⟨t, ht, _⟩ => (nomatch ht)⟩
  noted i t ht := by cases bare <;> cases ht
  opcodes := by
    cases bare with
    | true => exact List.nodup_nil
    | false => exact nodup_library
  keyed opcode p hp := by
    cases bare with
    | true => cases hp
    | false => exact keyed_library opcode p hp
  signatures := by cases bare <;> exact List.nodup_nil
  calls d hd := by cases bare <;> cases hd

theorem after_append (calls more : List Call) (s : Scene) :
    s.after (calls ++ more) = (s.after calls).after more := List.foldl_append ..

theorem Consistent.after (hs : s.Consistent) (calls : List Call) :
    (s.after calls).Consistent ∧ s.KeptIn (s.after calls) := by
  induction calls generalizing s with
  | nil => exact ⟨hs, .refl s⟩
  | cons c rest ih =>
    rcases hs.isWhole c with ⟨r, s', hrun, -, hadds⟩ | ⟨e, hrun, -, -⟩
    · obtain ⟨hconsistent, hkept⟩ := ih (hadds.consistent hs)
      rw [Scene.after, List.foldl_cons, hrun]
      exact ⟨hconsistent, hadds.keptIn.trans hkept⟩
    · rw [Scene.after, List.foldl_cons, hrun]
      exact ih hs

end Scene

/-- Calls that build a scene keep it consistent, whichever of them fail.  The place noted for the stage
is that of the one and only stage target, opcodes and signatures are unique, and the call block of every
custom block is registered with its parameters as inputs.  Nothing that a scene has is lost or replaced
by further calls, so that the place of a target that a call has given out names this target for good.
A call in place comes to the same as one change of the whole scene; it fails for a fault of its own and
for nothing else, and then the scene is as it was. -/
theorem scenes_grow_by_whole_calls (bare : Bool) (calls : List Scene.Call) :
    ((Scene.start bare).after calls).Consistent ∧
    (∀ more, ((Scene.start bare).after calls).KeptIn ((Scene.start bare).after (calls ++ more))) ∧
    (∀ (t : Target) (i : Nat) (s : Scene),
      (Scene.Call.addTarget t).run ((Scene.start bare).after calls) = (.ok (some i), s) →
      ∀ more, (s.after more).target? i = some t) ∧
    (∀ c : Scene.Call, c.run ((Scene.start bare).after calls) =
      c.settle ((Scene.start bare).after calls)) ∧
    ∀ (c : Scene.Call) (e : DefinitionError) (s : Scene),
      c.run ((Scene.start bare).after calls) = (.error e, s) ↔
        s = (Scene.start bare).after calls ∧ c.Fault ((Scene.start bare).after calls) e := by
  have hs := ((Scene.consistent_start bare).after calls).1
  refine ⟨hs, fun more => ?kept, ?named, hs.run_eq, fun c e s => hs.run_eq_error_iff⟩
  case kept =>
    rw [Scene.after_append]
    exact (hs.after more).2
  case named =>
    intro t i s hrun more
    have hadds := hs.adds hrun
    have ht : s.target? i = some t := by
      cases hadds with
      | target _ => exact List.getElem?_concat_length
      | stage _ _ => exact List.getElem?_concat_length
    exact ((hadds.consistent hs).after more).2.targets i t ht

/-- A stage keeps its place while a second one is refused, and a custom block that would take the opcode
of a library block is neither registered nor listed. -/
theorem scenes_grow_by_whole_calls_refusing :
    (∃ s, (Scene.Call.addTarget .stage).run ((Scene.start false).after []) = (.ok (some 0), s) ∧
      (s.after [.addTarget (.sprite "Cat"), .addTarget .stage]).target? 0 = some .stage) ∧
    (Scene.Call.declare ⟨"def", "looks_show", ["who"], false⟩).run ((Scene.start false).after []) =
      (.error (.duplicateOpcode "looks_show"), Scene.start false) := by
  obtain ⟨-, -, hnamed, -, hfails⟩ := scenes_grow_by_whole_calls false []
  constructor
  · exact ⟨_, rfl, hnamed _ _ _ rfl _⟩
  · refine (hfails _ _ _).mpr ⟨rfl, .knownSignature (List.nodup_singleton _) ?_⟩
    decide

end Blockwork
