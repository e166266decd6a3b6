import Blockwork.Value.Tree
import Mathlib.Data.List.Nodup

/-!
Tagged trees read back as what was written.

A node is found by its tag and its content, wherever these stand among its fields, and other fields
are passed over (`Spells`).  A tree spells a value if each of its nodes does.  Of the numbers only
the finite ones are written; the others leave a null, which no node for a number takes.  So a tree
reads back as the value that it spells if every number in that value is finite, and else not at all
(`ofTagged?_of_spells`), by one induction over the value.
-/

namespace Blockwork.Value

/-! ### Finite values -/

mutual

/-- Whether every number in the value is finite. -/
def isFinite : Value → Bool
  | .num n => n.isFinite
  | .list items => areFinite items
  | .obj fields => fieldsAreFinite fields
  | .null | .bool _ | .str _ => true

/-- Whether every number in the items is finite. -/
def areFinite : List Value → Bool
  | [] => true
  | v :: rest => isFinite v && areFinite rest

/-- Whether every number in the fields is finite. -/
def fieldsAreFinite : List (String × Value) → Bool
  | [] => true
  | (_, v) :: rest => isFinite v && fieldsAreFinite rest

end

/-! ### Spellings -/

/-- The fields of a node: a tag, the content if there is one, and whatever other fields, in any
order. -/
structure IsNode (kind : Kind) (content : Option Json) (fields : List (String × Json)) : Prop where
  distinct : (fields.map Prod.fst).Nodup
  tag : Record.get? "t" fields = some (.str (tag kind))
  content : Record.get? "v" fields = content

mutual

/-- The document is a tagged tree for the value. -/
inductive Spells : Json → Value → Prop
  | null {fields : List (String × Json)} : IsNode .null none fields → Spells (.obj fields) .null
  | bool {fields : List (String × Json)} {b : Bool} :
      IsNode .boolean (some (.bool b)) fields → Spells (.obj fields) (.bool b)
  | num {fields : List (String × Json)} {n : Float} :
      IsNode .number (some (if n.isFinite then .real n else .null)) fields →
      Spells (.obj fields) (.num n)
  | str {fields : List (String × Json)} {s : String} :
      IsNode .string (some (.str s)) fields → Spells (.obj fields) (.str s)
  | list {fields : List (String × Json)} {trees : List Json} {items : List Value} :
      IsNode .list (some (.arr trees)) fields → SpellsItems trees items →
      Spells (.obj fields) (.list items)
  | obj {fields trees : List (String × Json)} {values : List (String × Value)} :
      IsNode .object (some (.obj trees)) fields → SpellsFields trees values →
      Spells (.obj fields) (.obj values)

/-- Each document is a tagged tree for the item at its place. -/
inductive SpellsItems : List Json → List Value → Prop
  | nil : SpellsItems [] []
  | cons {j : Json} {v : Value} {trees : List Json} {items : List Value} :
      Spells j v → SpellsItems trees items → SpellsItems (j :: trees) (v :: items)

/-- Each document is a tagged tree for the field of its name and place. -/
inductive SpellsFields : List (String × Json) → List (String × Value) → Prop
  | nil : SpellsFields [] []
  | cons {name : String} {j : Json} {v : Value} {trees : List (String × Json)}
      {values : List (String × Value)} :
      Spells j v → SpellsFields trees values →
      SpellsFields ((name, j) :: trees) ((name, v) :: values)

end

variable {kind : Kind} {content : Option Json} {fields fields' : List (String × Json)}

theorem isNode_node (kind : Kind) (content : Option Json) :
    IsNode kind content (("t", .str (Value.tag kind)) :: content.toList.map ("v", ·)) := by
  cases content with
  | none => exact ⟨by simp, by simp [Record.get?], by simp [Record.get?]⟩
  | some j => exact ⟨by simp, by simp [Record.get?], by simp [Record.get?]⟩

mutual

/-- What is written for a value spells it. -/
theorem spells_toTagged : ∀ v : Value, Spells v.toTagged v
  | .null => .null (isNode_node .null none)
  | .bool _ => .bool (isNode_node .boolean _)
  | .num _ => .num (isNode_node .number _)
  | .str _ => .str (isNode_node .string _)
  | .list items => .list (isNode_node .list _) (spellsItems_toTagged items)
  | .obj fields => .obj (isNode_node .object _) (spellsFields_toTagged fields)

theorem spellsItems_toTagged : ∀ items : List Value, SpellsItems (toTaggedItems items) items
  | [] => .nil
  | v :: rest => .cons (spells_toTagged v) (spellsItems_toTagged rest)

theorem spellsFields_toTagged :
    ∀ fields : List (String × Value), SpellsFields (toTaggedFields fields) fields
  | [] => .nil
  | (_, v) :: rest => .cons (spells_toTagged v) (spellsFields_toTagged rest)

end

/-! ### Fields in another order, and other fields -/

theorem get?_of_perm (hperm : fields.Perm fields') (h : (fields.map Prod.fst).Nodup)
    (name : String) :
    Record.get? name fields' = Record.get? name fields := by
  induction hperm with
  | nil => rfl
  | cons e _ ih =>
    obtain ⟨n, j⟩ := e
    simp only [Record.get?, ih (List.nodup_cons.mp h).2]
  | swap e e' rest =>
    obtain ⟨n, j⟩ := e
    obtain ⟨n', j'⟩ := e'
    have hne : n' ≠ n := by
      rintro rfl
      simp at h
    by_cases hn : n = name
    · subst hn
      simp [Record.get?, hne]
    · simp [Record.get?, hn]
  | trans hp _ ih ih' =>
    have hmid := (hp.map Prod.fst).nodup_iff.mp h
    rw [ih' hmid, ih h]

theorem IsNode.perm (h : IsNode kind content fields) (hperm : fields.Perm fields') :
    IsNode kind content fields' where
  distinct := (hperm.map Prod.fst).nodup_iff.mp h.distinct
  tag := by rw [get?_of_perm hperm h.distinct, h.tag]
  content := by rw [get?_of_perm hperm h.distinct, h.content]

theorem IsNode.cons (h : IsNode kind content fields) {name : String} (j : Json)
    (hnew : name ∉ fields.map Prod.fst) (ht : name ≠ "t") (hv : name ≠ "v") :
    IsNode kind content ((name, j) :: fields) where
  distinct := List.nodup_cons.mpr ⟨hnew, h.distinct⟩
  tag := by rw [Record.get?, if_neg ht, h.tag]
  content := by rw [Record.get?, if_neg hv, h.content]

/-- A spelling is one of its value for any other fields that make the same nodes. -/
theorem Spells.of_isNode {v : Value} (h : Spells (.obj fields) v)
    (hnode : ∀ kind content, IsNode kind content fields → IsNode kind content fields') :
    Spells (.obj fields') v := by
  cases h with
  | null h => exact .null (hnode _ _ h)
  | bool h => exact .bool (hnode _ _ h)
  | num h => exact .num (hnode _ _ h)
  | str h => exact .str (hnode _ _ h)
  | list h hitems => exact .list (hnode _ _ h) hitems
  | obj h hfields => exact .obj (hnode _ _ h) hfields

/-! ### Reading -/

theorem kindOfTag?_tag (kind : Kind) : kindOfTag? (Value.tag kind) = some kind := by
  cases kind <;> rfl

/-- Reads the content of a node, which only a node for null may lack. -/
def ofContentOrNone? (kind : Kind) : Option Json → Option Value
  | some j => ofContent? kind j
  | none => if kind = .null then some .null else none

theorem findContent?_eq (kind : Kind) (fields : List (String × Json)) :
    findContent? kind fields = ofContentOrNone? kind (Record.get? "v" fields) := by
  induction fields with
  | nil => rw [findContent?]; rfl
  | cons e rest ih =>
    obtain ⟨name, j⟩ := e
    rw [findContent?, Record.get?]
    by_cases hname : name = "v"
    · simp [hname, ofContentOrNone?]
    · simp [hname, ih]

/-- A node is read by its tag and its content. -/
theorem IsNode.ofTagged? (h : IsNode kind content fields) :
    ofTagged? (.obj fields) = ofContentOrNone? kind content := by
  rw [Value.ofTagged?, h.tag, Option.bind_some, readTag?, kindOfTag?_tag, Option.bind_some,
    findContent?_eq, h.content]

mutual

/-- A tree reads back as the value it spells if this is finite, and else not at all. -/
theorem ofTagged?_of_spells :
    ∀ {v : Value} {j : Json}, Spells j v → ofTagged? j = if v.isFinite then some v else none
  | .null, _, .null h => by rw [h.ofTagged?]; rfl
  | .bool b, _, .bool h => by rw [h.ofTagged?]; simp [ofContentOrNone?, ofContent?, isFinite]
  | .num n, _, .num h => by
    rw [h.ofTagged?]
    by_cases hn : n.isFinite = true <;> simp [hn, ofContentOrNone?, ofContent?, isFinite]
  | .str s, _, .str h => by rw [h.ofTagged?]; simp [ofContentOrNone?, ofContent?, isFinite]
  | .list items, _, .list h hitems => by
    rw [h.ofTagged?]
    simp only [ofContentOrNone?, ofContent?, if_true, ofTaggedItems?_of_spells hitems, isFinite]
    by_cases hfinite : areFinite items = true <;> simp [hfinite]
  | .obj values, _, .obj h hfields => by
    rw [h.ofTagged?]
    simp only [ofContentOrNone?, ofContent?, if_true, ofTaggedFields?_of_spells hfields, isFinite]
    by_cases hfinite : fieldsAreFinite values = true <;> simp [hfinite]

theorem ofTaggedItems?_of_spells :
    ∀ {items : List Value} {trees : List Json}, SpellsItems trees items →
      ofTaggedItems? trees = if areFinite items then some items else none
  | [], _, .nil => rfl
  | v :: rest, _, .cons h hrest => by
    rw [ofTaggedItems?, ofTagged?_of_spells h, ofTaggedItems?_of_spells hrest, areFinite]
    cases v.isFinite <;> cases areFinite rest <;> rfl

theorem ofTaggedFields?_of_spells :
    ∀ {values : List (String × Value)} {trees : List (String × Json)}, SpellsFields trees values →
      ofTaggedFields? trees = if fieldsAreFinite values then some values else none
  | [], _, .nil => rfl
  | (name, v) :: rest, _, .cons h hrest => by
    rw [ofTaggedFields?, ofTagged?_of_spells h, ofTaggedFields?_of_spells hrest, fieldsAreFinite]
    cases v.isFinite <;> cases fieldsAreFinite rest <;> rfl

end

end Blockwork.Value

namespace Blockwork

/-- Tagged trees read back exactly, both zeros included: the one that is written for a value, and
every other that spells it, with the fields of any nodes in another order and with other fields
among them.  If there is a number in the value that is not finite, which leaves a null in the tree,
the tree is refused. -/
theorem tagged_values_read_back :
    (∀ v : Value, v.isFinite = true → Value.ofTagged? v.toTagged = some v) ∧
    (∀ v : Value, v.isFinite = false → Value.ofTagged? v.toTagged = none) ∧
    (∀ v : Value, Value.Spells v.toTagged v) ∧
    (∀ (v : Value) (fields fields' : List (String × Json)), Value.Spells (.obj fields) v →
      fields.Perm fields' → Value.Spells (.obj fields') v) ∧
    (∀ (v : Value) (fields : List (String × Json)) (name : String) (j : Json),
      Value.Spells (.obj fields) v → name ∉ fields.map Prod.fst → name ≠ "t" → name ≠ "v" →
      Value.Spells (.obj ((name, j) :: fields)) v) ∧
    ∀ (v : Value) (j : Json), Value.Spells j v →
      (v.isFinite = true → Value.ofTagged? j = some v) ∧
      (v.isFinite = false → Value.ofTagged? j = none) := by
  have hreads : ∀ (v : Value) (j : Json), Value.Spells j v →
      (v.isFinite = true → Value.ofTagged? j = some v) ∧
      (v.isFinite = false → Value.ofTagged? j = none) := by
    intro v j h
    rw [Value.ofTagged?_of_spells h]
    constructor
    · intro hfinite
      rw [if_pos hfinite]
    · intro hfinite
      simp [hfinite]
  refine ⟨fun v => (hreads v _ (Value.spells_toTagged v)).1,
    fun v => (hreads v _ (Value.spells_toTagged v)).2, Value.spells_toTagged, ?order, ?others,
    hreads⟩
  case order =>
    intro v fields fields' h hperm
    exact h.of_isNode fun _ _ hnode => hnode.perm hperm
  case others =>
    intro v fields name j h hnew ht hv
    exact h.of_isNode fun _ _ hnode => hnode.cons j hnew ht hv

/-- A list of negative zero and a record, in a tree with one node turned around and a field added to
another, reads back; with an infinity in the record it does not. -/
theorem tagged_values_read_back_turned :
    Value.ofTagged? (.obj [("v", .arr [.obj [("t", .str "Num"), ("v", .real (-0))],
        .obj [("note", .int 1), ("t", .str "Obj"), ("v", .obj [("a", .obj [("t", .str "Null")])])]]),
      ("t", .str "List")]) = some (.list [.num (-0), .obj [("a", .null)]]) ∧
    Value.ofTagged? (Value.list [.num (-0), .obj [("a", .num infinity)]]).toTagged = none := by
  obtain ⟨-, hrefused, hwritten, horder, hothers, hspelled⟩ := tagged_values_read_back
  refine ⟨?_, hrefused _ (by decide +kernel)⟩
  have hrecord : Value.Spells (.obj [("note", .int 1), ("t", .str "Obj"),
      ("v", .obj [("a", .obj [("t", .str "Null")])])]) (.obj [("a", .null)]) :=
    hothers _ _ "note" (.int 1) (hwritten (.obj [("a", .null)])) (by decide) (by decide) (by decide)
  have hlist := Value.Spells.list (Value.isNode_node .list _)
    (.cons (hwritten (.num (-0))) (.cons hrecord .nil))
  exact (hspelled _ _ (horder _ _ _ hlist (.swap _ _ _))).1 (by decide +kernel)

end Blockwork
