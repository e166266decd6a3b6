import Blockwork.Proofs.TaggedValues
import Blockwork.Shape.Descriptor

/-!
The grammar of descriptors.

A descriptor spells a shape out level by level (`Shape.Describes`), and so a parsed shape gives away
its descriptor (`Shape.ofDescriptor_inv`).  The parser checks each level as it leaves it, but a
shape that is well formed is so at every level below; so what is parsed is just what describes a
well-formed shape (`Shape.ofDescriptor_eq_ok_iff`), and these descriptions are the grammar
(`Shape.isDescriptor_iff`).
-/

namespace Blockwork

/-! ### The grammar -/

/-- The descriptors of shapes. -/
inductive Json.IsDescriptor : Json → Prop
  | name {s : String} : s ∈ ["null", "boolean", "number", "string", "block"] → IsDescriptor (.str s)
  | union {items : List Json} : items ≠ [] → (∀ d ∈ items, IsDescriptor d) →
      IsDescriptor (.obj [("union", .arr items)])
  | array {d : Json} : IsDescriptor d → IsDescriptor (.obj [("array", d)])
  | object {fields : List (String × Json)} : (∀ f ∈ fields, f.1 ≠ "") →
      (∀ f ∈ fields, IsDescriptor f.2) → IsDescriptor (.obj [("object", .obj fields)])
  | literal (j : Json) : IsDescriptor (.obj [("literal", j)])

namespace Shape

mutual

/-- The descriptor spells the shape out, part by part. -/
inductive Describes : Json → Shape → Prop
  | kind (k : Kind) : Describes (.str k.name) (.kind k)
  | block : Describes (.str "block") .block
  | union {items : List Json} {members : List Shape} : DescribesAll items members →
      Describes (.obj [("union", .arr items)]) (.union members)
  | array {d : Json} {element : Shape} : Describes d element →
      Describes (.obj [("array", d)]) (.arrayOf element)
  | object {descriptors : List (String × Json)} {fields : List (String × Shape)} :
      DescribesFields descriptors fields →
      Describes (.obj [("object", .obj descriptors)]) (.objectOf fields)
  | literal (j : Json) : Describes (.obj [("literal", j)]) (.literal (Value.ofJson j))

/-- Each descriptor spells out the shape at its place. -/
inductive DescribesAll : List Json → List Shape → Prop
  | nil : DescribesAll [] []
  | cons {d : Json} {s : Shape} {items : List Json} {members : List Shape} :
      Describes d s → DescribesAll items members → DescribesAll (d :: items) (s :: members)

/-- Each descriptor spells out the shape of the field of its name and place. -/
inductive DescribesFields : List (String × Json) → List (String × Shape) → Prop
  | nil : DescribesFields [] []
  | cons {name : String} {d : Json} {s : Shape} {descriptors : List (String × Json)}
      {fields : List (String × Shape)} : Describes d s → DescribesFields descriptors fields →
      DescribesFields ((name, d) :: descriptors) ((name, s) :: fields)

end

/-! ### Well-formed shapes -/

theorem checked_eq_ok_iff {s s' : Shape} : checked s = .ok s' ↔ s' = s ∧ s.check = .ok () := by
  rw [checked]
  cases h : s.check with
  | ok u => simp [eq_comm]
  | error e => simp

theorem check_union {members : List Shape} :
    (Shape.union members).check = .ok () ↔ members ≠ [] ∧ checkAll members = .ok () := by
  cases members <;> simp [check]

theorem check_objectOf {fields : List (String × Shape)} :
    (Shape.objectOf fields).check = .ok () ↔
      (∀ f ∈ fields, f.1 ≠ "") ∧ checkFields fields = .ok () := by
  have hnamed : fields.any (·.1 = "") = false ↔ ∀ f ∈ fields, f.1 ≠ "" := by
    simp only [List.any_eq_false, decide_eq_true_eq, ne_eq]
  rw [check, ← hnamed]
  cases fields.any (·.1 = "") <;> simp

theorem checkAll_cons {s : Shape} {rest : List Shape} :
    checkAll (s :: rest) = .ok () ↔ s.check = .ok () ∧ checkAll rest = .ok () := by
  rw [checkAll]
  cases s.check <;> simp

theorem checkFields_cons {name : String} {s : Shape} {rest : List (String × Shape)} :
    checkFields ((name, s) :: rest) = .ok () ↔ s.check = .ok () ∧ checkFields rest = .ok () := by
  rw [checkFields]
  cases s.check <;> simp

/-! ### Parsing -/

theorem ofName?_eq_some_iff {name : String} {k : Kind} :
    Kind.ofName? name = some k ↔ name = k.name := by
  constructor
  · intro h
    have hname := List.find?_some h
    exact (of_decide_eq_true hname).symm
  · rintro rfl
    cases k <;> rfl

theorem ofDescriptors_cons {d : Json} {rest : List Json} {members : List Shape} :
    ofDescriptors (d :: rest) = .ok members ↔
      ∃ s more, members = s :: more ∧ ofDescriptor d = .ok s ∧ ofDescriptors rest = .ok more := by
  rw [ofDescriptors]
  cases ofDescriptor d with
  | error e => simp [bind, Except.bind]
  | ok s => cases ofDescriptors rest <;> simp [bind, Except.bind, pure, Except.pure, eq_comm]

theorem ofFieldDescriptors_cons {name : String} {d : Json} {rest : List (String × Json)}
    {fields : List (String × Shape)} :
    ofFieldDescriptors ((name, d) :: rest) = .ok fields ↔
      ∃ s more, fields = (name, s) :: more ∧ ofDescriptor d = .ok s ∧
        ofFieldDescriptors rest = .ok more := by
  rw [ofFieldDescriptors]
  cases ofDescriptor d with
  | error e => simp [bind, Except.bind]
  | ok s => cases ofFieldDescriptors rest <;> simp [bind, Except.bind, pure, Except.pure, eq_comm]

/-- What a shape was parsed from, as far as its top level goes. -/
theorem ofDescriptor_inv {j : Json} {s : Shape} (h : ofDescriptor j = .ok s) :
    s.check = .ok () ∧
      match s with
      | .kind k => j = .str k.name
      | .block => j = .str "block"
      | .union members =>
        ∃ items, j = .obj [("union", .arr items)] ∧ ofDescriptors items = .ok members
      | .arrayOf element => ∃ d, j = .obj [("array", d)] ∧ ofDescriptor d = .ok element
      | .objectOf fields =>
        ∃ ds, j = .obj [("object", .obj ds)] ∧ ofFieldDescriptors ds = .ok fields
      | .literal v => ∃ d, j = .obj [("literal", d)] ∧ v = Value.ofJson d := by
  unfold ofDescriptor at h
  split at h
  · rename_i name
    split at h
    · rename_i hname
      cases h
      exact ⟨rfl, congrArg Json.str hname⟩
    · split at h
      · rename_i k hk
        obtain ⟨rfl, hcheck⟩ := checked_eq_ok_iff.mp h
        exact ⟨hcheck, congrArg Json.str (ofName?_eq_some_iff.mp hk)⟩
      · cases h
  · rename_i items _
    cases hitems : ofDescriptors items with
    | error e => rw [hitems] at h; cases h
    | ok members =>
      rw [hitems] at h
      obtain ⟨rfl, hcheck⟩ := checked_eq_ok_iff.mp h
      exact ⟨hcheck, items, rfl, hitems⟩
  · rename_i d _
    cases hd : ofDescriptor d with
    | error e => rw [hd] at h; cases h
    | ok element =>
      rw [hd] at h
      obtain ⟨rfl, hcheck⟩ := checked_eq_ok_iff.mp h
      exact ⟨hcheck, d, rfl, hd⟩
  · rename_i ds _
    cases hds : ofFieldDescriptors ds with
    | error e => rw [hds] at h; cases h
    | ok fields =>
      rw [hds] at h
      obtain ⟨rfl, hcheck⟩ := checked_eq_ok_iff.mp h
      exact ⟨hcheck, ds, rfl, hds⟩
  · rename_i d _
    cases h
    exact ⟨rfl, d, rfl, rfl⟩
  · cases h

-- The recursion is on the shape, since the parser refuses most documents in one case.
mutual

/-- What is parsed is described by its descriptor. -/
theorem describes_of_ofDescriptor :
    ∀ {s : Shape} {j : Json}, ofDescriptor j = .ok s → Describes j s
  | .kind k, j, h => by
    have hj : j = .str k.name := (ofDescriptor_inv h).2
    rw [hj]
    exact .kind k
  | .block, j, h => by
    have hj : j = .str "block" := (ofDescriptor_inv h).2
    rw [hj]
    exact .block
  | .union _, _, h => by
    obtain ⟨-, items, rfl, hitems⟩ := ofDescriptor_inv h
    exact .union (describesAll_of_ofDescriptors hitems)
  | .arrayOf _, _, h => by
    obtain ⟨-, d, rfl, hd⟩ := ofDescriptor_inv h
    exact .array (describes_of_ofDescriptor hd)
  | .objectOf _, _, h => by
    obtain ⟨-, ds, rfl, hds⟩ := ofDescriptor_inv h
    exact .object (describesFields_of_ofFieldDescriptors hds)
  | .literal v, _, h => by
    obtain ⟨-, d, rfl, hv⟩ := ofDescriptor_inv h
    rw [hv]
    exact .literal d

theorem describesAll_of_ofDescriptors :
    ∀ {members : List Shape} {items : List Json}, ofDescriptors items = .ok members →
      DescribesAll items members
  | [], [], _ => .nil
  | _ :: _, [], h => by cases h
  | [], _ :: _, h => by
    obtain ⟨s, more, hmembers, -⟩ := ofDescriptors_cons.mp h
    cases hmembers
  | _ :: _, _ :: _, h => by
    obtain ⟨s, more, hmembers, hd, hrest⟩ := ofDescriptors_cons.mp h
    cases hmembers
    exact .cons (describes_of_ofDescriptor hd) (describesAll_of_ofDescriptors hrest)

theorem describesFields_of_ofFieldDescriptors :
    ∀ {fields : List (String × Shape)} {ds : List (String × Json)},
      ofFieldDescriptors ds = .ok fields → DescribesFields ds fields
  | [], [], _ => .nil
  | _ :: _, [], h => by cases h
  | [], _ :: _, h => by
    obtain ⟨s, more, hfields, -⟩ := ofFieldDescriptors_cons.mp h
    cases hfields
  | (_, _) :: _, (_, _) :: _, h => by
    obtain ⟨s, more, hfields, hd, hrest⟩ := ofFieldDescriptors_cons.mp h
    cases hfields
    exact .cons (describes_of_ofDescriptor hd) (describesFields_of_ofFieldDescriptors hrest)

end

mutual

/-- What describes a well-formed shape is parsed. -/
theorem ofDescriptor_of_describes :
    ∀ {s : Shape} {j : Json}, Describes j s → s.check = .ok () → ofDescriptor j = .ok s
  | .kind k, _, .kind _, hcheck => by
    have hname : k.name ≠ "block" := by cases k <;> decide
    rw [ofDescriptor, if_neg hname, ofName?_eq_some_iff.mpr rfl]
    exact checked_eq_ok_iff.mpr ⟨rfl, hcheck⟩
  | .block, _, .block, _ => by rw [ofDescriptor, if_pos rfl]
  | .union _, _, .union hall, hcheck => by
    rw [ofDescriptor, ofDescriptors_of_describesAll hall (check_union.mp hcheck).2]
    exact checked_eq_ok_iff.mpr ⟨rfl, hcheck⟩
  | .arrayOf _, _, .array hd, hcheck => by
    rw [ofDescriptor, ofDescriptor_of_describes hd (by rwa [check] at hcheck)]
    exact checked_eq_ok_iff.mpr ⟨rfl, hcheck⟩
  | .objectOf _, _, .object hall, hcheck => by
    rw [ofDescriptor, ofFieldDescriptors_of_describesFields hall (check_objectOf.mp hcheck).2]
    exact checked_eq_ok_iff.mpr ⟨rfl, hcheck⟩
  | .literal _, _, .literal _, _ => by rw [ofDescriptor]

theorem ofDescriptors_of_describesAll :
    ∀ {members : List Shape} {items : List Json}, DescribesAll items members →
      checkAll members = .ok () → ofDescriptors items = .ok members
  | [], _, .nil, _ => rfl
  | _ :: _, _, .cons hd hrest, hcheck => by
    obtain ⟨hs, hmore⟩ := checkAll_cons.mp hcheck
    exact ofDescriptors_cons.mpr
      ⟨_, _, rfl, ofDescriptor_of_describes hd hs, ofDescriptors_of_describesAll hrest hmore⟩

theorem ofFieldDescriptors_of_describesFields :
    ∀ {fields : List (String × Shape)} {ds : List (String × Json)}, DescribesFields ds fields →
      checkFields fields = .ok () → ofFieldDescriptors ds = .ok fields
  | [], _, .nil, _ => rfl
  | _ :: _, _, .cons hd hrest, hcheck => by
    obtain ⟨hs, hmore⟩ := checkFields_cons.mp hcheck
    exact ofFieldDescriptors_cons.mpr ⟨_, _, rfl, ofDescriptor_of_describes hd hs,
      ofFieldDescriptors_of_describesFields hrest hmore⟩

end

theorem ofDescriptor_eq_ok_iff {j : Json} {s : Shape} :
    ofDescriptor j = .ok s ↔ Describes j s ∧ s.check = .ok () :=
  ⟨fun h => ⟨describes_of_ofDescriptor h, (ofDescriptor_inv h).1⟩,
    fun h => ofDescriptor_of_describes h.1 h.2⟩

/-! ### Descriptions and the grammar -/

theorem describes_name {name : String}
    (h : name ∈ ["null", "boolean", "number", "string", "block"]) :
    ∃ s, Describes (.str name) s ∧ s.check = .ok () := by
  simp only [List.mem_cons, List.not_mem_nil, or_false] at h
  rcases h with rfl | rfl | rfl | rfl | rfl
  · exact ⟨_, .kind .null, rfl⟩
  · exact ⟨_, .kind .boolean, rfl⟩
  · exact ⟨_, .kind .number, rfl⟩
  · exact ⟨_, .kind .string, rfl⟩
  · exact ⟨_, .block, rfl⟩

theorem describesAll_of_forall {items : List Json}
    (h : ∀ d ∈ items, ∃ s, Describes d s ∧ s.check = .ok ()) :
    ∃ members, DescribesAll items members ∧ checkAll members = .ok () := by
  induction items with
  | nil => exact ⟨[], .nil, rfl⟩
  | cons d rest ih =>
    obtain ⟨s, hs, hcheck⟩ := h d (List.mem_cons_self ..)
    obtain ⟨members, hmembers, hall⟩ := ih fun d hd => h d (List.mem_cons_of_mem _ hd)
    exact ⟨s :: members, .cons hs hmembers, checkAll_cons.mpr ⟨hcheck, hall⟩⟩

theorem describesFields_of_forall {ds : List (String × Json)}
    (h : ∀ f ∈ ds, ∃ s, Describes f.2 s ∧ s.check = .ok ()) :
    ∃ fields, DescribesFields ds fields ∧ checkFields fields = .ok () := by
  induction ds with
  | nil => exact ⟨[], .nil, rfl⟩
  | cons f rest ih =>
    obtain ⟨s, hs, hcheck⟩ := h f (List.mem_cons_self ..)
    obtain ⟨fields, hfields, hall⟩ := ih fun f hf => h f (List.mem_cons_of_mem _ hf)
    exact ⟨(f.1, s) :: fields, .cons hs hfields, checkFields_cons.mpr ⟨hcheck, hall⟩⟩

theorem DescribesAll.eq_nil_iff {items : List Json} {members : List Shape}
    (h : DescribesAll items members) : items = [] ↔ members = [] := by
  cases h <;> simp

theorem DescribesFields.names_eq {ds : List (String × Json)} {fields : List (String × Shape)}
    (h : DescribesFields ds fields) : ds.map Prod.fst = fields.map Prod.fst := by
  induction ds generalizing fields with
  | nil => cases h; rfl
  | cons d rest ih =>
    cases h with
    | cons _ hrest => simp [ih hrest]

/-- No name is empty on one side just when none is on the other. -/
theorem DescribesFields.named_iff {ds : List (String × Json)} {fields : List (String × Shape)}
    (h : DescribesFields ds fields) : (∀ f ∈ ds, f.1 ≠ "") ↔ ∀ f ∈ fields, f.1 ≠ "" := by
  have hds : (∀ name ∈ ds.map Prod.fst, name ≠ "") ↔ ∀ f ∈ ds, f.1 ≠ "" := List.forall_mem_map
  have hfields : (∀ name ∈ fields.map Prod.fst, name ≠ "") ↔ ∀ f ∈ fields, f.1 ≠ "" :=
    List.forall_mem_map
  rw [← hds, ← hfields, h.names_eq]

/-- A descriptor of the grammar describes a well-formed shape. -/
theorem describes_of_isDescriptor {d : Json} (h : d.IsDescriptor) :
    ∃ s, Describes d s ∧ s.check = .ok () := by
  induction h with
  | name hname => exact describes_name hname
  | union hne _ ih =>
    obtain ⟨members, hmembers, hall⟩ := describesAll_of_forall ih
    exact ⟨_, .union hmembers, check_union.mpr ⟨mt hmembers.eq_nil_iff.mpr hne, hall⟩⟩
  | array _ ih =>
    obtain ⟨s, hs, hcheck⟩ := ih
    exact ⟨_, .array hs, by rwa [check]⟩
  | object hnamed _ ih =>
    obtain ⟨fields, hfields, hall⟩ := describesFields_of_forall ih
    exact ⟨_, .object hfields, check_objectOf.mpr ⟨hfields.named_iff.mp hnamed, hall⟩⟩
  | literal j => exact ⟨_, .literal j, rfl⟩

mutual

/-- What describes a well-formed shape is a descriptor of the grammar. -/
theorem isDescriptor_of_describes :
    ∀ {s : Shape} {d : Json}, Describes d s → s.check = .ok () → d.IsDescriptor
  | .kind k, _, .kind _, hcheck => by
    refine .name ?_
    cases k with
    | null | boolean | number | string => decide
    | list | object => cases hcheck
  | .block, _, .block, _ => .name (by decide)
  | .union _, _, .union hall, hcheck => by
    obtain ⟨hne, hmembers⟩ := check_union.mp hcheck
    exact .union (mt hall.eq_nil_iff.mp hne) (forall_isDescriptor hall hmembers)
  | .arrayOf _, _, .array hd, hcheck => by
    rw [check] at hcheck
    exact .array (isDescriptor_of_describes hd hcheck)
  | .objectOf _, _, .object hall, hcheck => by
    obtain ⟨hnamed, hfields⟩ := check_objectOf.mp hcheck
    exact .object (hall.named_iff.mpr hnamed) (forall_field_isDescriptor hall hfields)
  | .literal _, _, .literal j, _ => .literal j

theorem forall_isDescriptor :
    ∀ {members : List Shape} {items : List Json}, DescribesAll items members →
      checkAll members = .ok () → ∀ d ∈ items, d.IsDescriptor
  | [], _, .nil, _ => by simp
  | _ :: _, _, .cons hd hrest, hcheck => by
    obtain ⟨hs, hmore⟩ := checkAll_cons.mp hcheck
    rw [List.forall_mem_cons]
    exact ⟨isDescriptor_of_describes hd hs, forall_isDescriptor hrest hmore⟩

theorem forall_field_isDescriptor :
    ∀ {fields : List (String × Shape)} {ds : List (String × Json)}, DescribesFields ds fields →
      checkFields fields = .ok () → ∀ f ∈ ds, f.2.IsDescriptor
  | [], _, .nil, _ => by simp
  | _ :: _, _, .cons hd hrest, hcheck => by
    obtain ⟨hs, hmore⟩ := checkFields_cons.mp hcheck
    rw [List.forall_mem_cons]
    exact ⟨isDescriptor_of_describes hd hs, forall_field_isDescriptor hrest hmore⟩

end

theorem isDescriptor_iff {d : Json} :
    d.IsDescriptor ↔ ∃ s, Describes d s ∧ s.check = .ok () :=
  ⟨describes_of_isDescriptor, fun ⟨_, hs, hcheck⟩ => isDescriptor_of_describes hs hcheck⟩

end Shape

/-! ### Spelling shapes out -/

namespace Value

mutual

/-- The document that looks like the value.  A number that is not finite has none and becomes
null. -/
def toJson : Value → Json
  | .null => .null
  | .bool b => .bool b
  | .num n => if n.isFinite then .real n else .null
  | .str s => .str s
  | .list items => .arr (toJsonItems items)
  | .obj fields => .obj (toJsonFields fields)

def toJsonItems : List Value → List Json
  | [] => []
  | v :: rest => toJson v :: toJsonItems rest

def toJsonFields : List (String × Value) → List (String × Json)
  | [] => []
  | (name, v) :: rest => (name, toJson v) :: toJsonFields rest

end

mutual

theorem ofJson_toJson : ∀ {v : Value}, v.isFinite = true → ofJson v.toJson = v
  | .null, _ => rfl
  | .bool _, _ => rfl
  | .num n, h => by
    rw [isFinite] at h
    rw [toJson, if_pos h, ofJson]
  | .str _, _ => rfl
  | .list items, h => by
    rw [isFinite] at h
    rw [toJson, ofJson, ofJsonItems_toJsonItems h]
  | .obj fields, h => by
    rw [isFinite] at h
    rw [toJson, ofJson, ofJsonFields_toJsonFields h]

theorem ofJsonItems_toJsonItems :
    ∀ {items : List Value}, areFinite items = true → ofJsonItems (toJsonItems items) = items
  | [], _ => rfl
  | v :: rest, h => by
    rw [areFinite, Bool.and_eq_true] at h
    rw [toJsonItems, ofJsonItems, ofJson_toJson h.1, ofJsonItems_toJsonItems h.2]

theorem ofJsonFields_toJsonFields :
    ∀ {fields : List (String × Value)}, fieldsAreFinite fields = true →
      ofJsonFields (toJsonFields fields) = fields
  | [], _ => rfl
  | (name, v) :: rest, h => by
    rw [fieldsAreFinite, Bool.and_eq_true] at h
    rw [toJsonFields, ofJsonFields, ofJson_toJson h.1, ofJsonFields_toJsonFields h.2]

end

end Value

namespace Shape

mutual

/-- The descriptor that spells a shape out. -/
def descriptor : Shape → Json
  | .kind k => .str k.name
  | .block => .str "block"
  | .union members => .obj [("union", .arr (descriptors members))]
  | .arrayOf element => .obj [("array", descriptor element)]
  | .objectOf fields => .obj [("object", .obj (fieldDescriptors fields))]
  | .literal v => .obj [("literal", v.toJson)]

def descriptors : List Shape → List Json
  | [] => []
  | s :: rest => descriptor s :: descriptors rest

def fieldDescriptors : List (String × Shape) → List (String × Json)
  | [] => []
  | (name, s) :: rest => (name, descriptor s) :: fieldDescriptors rest

end

mutual

/-- Whether the literals in a shape hold finite numbers only. -/
def isFinite : Shape → Bool
  | .kind _ | .block => true
  | .union members => areFinite members
  | .arrayOf element => isFinite element
  | .objectOf fields => fieldsAreFinite fields
  | .literal v => v.isFinite

def areFinite : List Shape → Bool
  | [] => true
  | s :: rest => isFinite s && areFinite rest

def fieldsAreFinite : List (String × Shape) → Bool
  | [] => true
  | (_, s) :: rest => isFinite s && fieldsAreFinite rest

end

mutual

theorem describes_descriptor : ∀ {s : Shape}, s.isFinite = true → Describes s.descriptor s
  | .kind k, _ => .kind k
  | .block, _ => .block
  | .union members, h => by
    rw [isFinite] at h
    exact .union (describesAll_descriptors h)
  | .arrayOf element, h => by
    rw [isFinite] at h
    exact .array (describes_descriptor h)
  | .objectOf fields, h => by
    rw [isFinite] at h
    exact .object (describesFields_fieldDescriptors h)
  | .literal v, h => by
    rw [isFinite] at h
    have hliteral := Describes.literal v.toJson
    rwa [Value.ofJson_toJson h] at hliteral

theorem describesAll_descriptors :
    ∀ {members : List Shape}, areFinite members = true → DescribesAll (descriptors members) members
  | [], _ => .nil
  | s :: rest, h => by
    rw [areFinite, Bool.and_eq_true] at h
    exact .cons (describes_descriptor h.1) (describesAll_descriptors h.2)

theorem describesFields_fieldDescriptors :
    ∀ {fields : List (String × Shape)}, fieldsAreFinite fields = true →
      DescribesFields (fieldDescriptors fields) fields
  | [], _ => .nil
  | (name, s) :: rest, h => by
    rw [fieldsAreFinite, Bool.and_eq_true] at h
    exact .cons (describes_descriptor h.1) (describesFields_fieldDescriptors h.2)

end

end Shape

/-- The parser takes exactly the descriptors of the grammar.  It makes of each the shape that it
spells out, part by part, and this shape is well formed.  In turn a well-formed shape is what any
descriptor that spells it out is parsed to; and there is one as long as the numbers in its literals
are finite, which is a descriptor of the grammar then. -/
theorem descriptors_parsed_by_grammar :
    (∀ d : Json, (∃ s, Shape.ofDescriptor d = .ok s) ↔ d.IsDescriptor) ∧
    (∀ (d : Json) (s : Shape), Shape.ofDescriptor d = .ok s →
      Shape.Describes d s ∧ s.check = .ok ()) ∧
    (∀ (d : Json) (s : Shape), Shape.Describes d s → s.check = .ok () →
      Shape.ofDescriptor d = .ok s) ∧
    ∀ s : Shape, s.check = .ok () → s.isFinite = true →
      s.descriptor.IsDescriptor ∧ Shape.Describes s.descriptor s ∧
        Shape.ofDescriptor s.descriptor = .ok s := by
  refine ⟨?accepts, fun d s => Shape.ofDescriptor_eq_ok_iff.mp,
    fun d s h hcheck => Shape.ofDescriptor_eq_ok_iff.mpr ⟨h, hcheck⟩, ?spelled⟩
  case accepts =>
    intro d
    rw [Shape.isDescriptor_iff]
    exact exists_congr fun s => Shape.ofDescriptor_eq_ok_iff
  case spelled =>
    intro s hcheck hfinite
    have hdescribes := Shape.describes_descriptor hfinite
    exact ⟨Shape.isDescriptor_of_describes hdescribes hcheck, hdescribes,
      Shape.ofDescriptor_eq_ok_iff.mpr ⟨hdescribes, hcheck⟩⟩

/-- A record of a name, a size, which is a number or the word `auto`, and the version 2. -/
def Shape.sized : Shape :=
  .objectOf [("name", .string), ("size", .union [.number, .literal (.str "auto")]),
    ("version", .literal (.num 2))]

/-- A shape comes back from its descriptor, and an array of an empty union is no descriptor. -/
theorem descriptors_parsed_by_grammar_sized :
    Shape.sized.check = .ok () ∧ Shape.sized.isFinite = true ∧
    Shape.ofDescriptor Shape.sized.descriptor = .ok Shape.sized ∧
    ¬(Json.obj [("array", .obj [("union", .arr [])])]).IsDescriptor := by
  obtain ⟨haccepts, -, -, hspelled⟩ := descriptors_parsed_by_grammar
  have hcheck : Shape.sized.check = .ok () := rfl
  have hfinite : Shape.sized.isFinite = true := by decide +kernel
  refine ⟨hcheck, hfinite, (hspelled _ hcheck hfinite).2.2, ?_⟩
  rw [← haccepts]
  rintro ⟨s, hs⟩
  cases hs

end Blockwork
