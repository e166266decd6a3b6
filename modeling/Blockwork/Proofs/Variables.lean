import Blockwork.Proofs.Doubles
import Blockwork.Proofs.Faults
import Blockwork.Proofs.WriteFrame

/-!
Variables and lists as targets see them.

Variables and lists are two tables that every target has, and both are looked up in the same way:
the owner of a name is the target itself if it has the name, else the stage if that has it
(`Scene.owner?_eq_some_iff`).  Reading and writing find the same owner, and a write replaces an
entry that is there, so it changes who owns what for no target.  A lookup after a write then depends
on its owner only: it sees what was written if that is the same one, and else what it saw before
(`Scene.put?_given`).  The blocks are read off these two lookups.
-/

namespace Blockwork

variable {α β : Type}

/-! ### Owners -/

namespace Scene

/-- The target has an entry of the name. -/
def Has (s : Scene) (entries : Target → Table α) (name : String) (i : Nat) : Prop :=
  ∃ t, s.target? i = some t ∧ name ∈ Table.names (entries t)

/-- A name resolves to the target itself if it has an entry of the name, else to the stage if that
has one. -/
def Resolves (s : Scene) (entries : Target → Table α) (i : Nat) (name : String) (j : Nat) : Prop :=
  s.Has entries name i ∧ j = i ∨ ¬s.Has entries name i ∧ s.stage = some j ∧ s.Has entries name j

variable {s s' : Scene} {entries : Target → Table α} {i j k : Nat} {name m : String}

theorem has_iff :
    s.Has entries name i ↔ ((s.target? i).any fun t => Table.contains name (entries t)) = true := by
  cases h : s.target? i with
  | none => simp [Has, h]
  | some t => simp [Has, h, Table.contains_iff]

theorem owner?_eq_some_iff :
    (s.owner? i fun t => Table.contains name (entries t)) = some j ↔
      s.Resolves entries i name j := by
  rw [owner?, Resolves, has_iff]
  split
  · rename_i hi
    simp [hi, eq_comm]
  · rename_i hi
    simp [hi, has_iff, Option.filter_eq_some_iff]

theorem Resolves.unique (h : s.Resolves entries i name j) (h' : s.Resolves entries i name k) :
    j = k := by
  rw [← owner?_eq_some_iff] at h h'
  exact Option.some_inj.mp (h.symm.trans h')

theorem Resolves.has (h : s.Resolves entries i name j) : s.Has entries name j := by
  rcases h with ⟨hi, rfl⟩ | ⟨-, -, hj⟩
  · exact hi
  · exact hj

end Scene

/-! ### Tables of targets -/

/-- A table that every target has. -/
structure Target.Store (α : Type) where
  entries : Target → Table α
  change : (Table α → Table α) → Target → Target
  entries_change : ∀ f t, entries (change f t) = f (entries t)

def Target.variableStore : Store Value where
  entries := vars
  change f t := { t with vars := f t.vars }
  entries_change _ _ := rfl

def Target.listStore : Store (List Value) where
  entries := lists
  change f t := { t with lists := f t.lists }
  entries_change _ _ := rfl

namespace Scene

/-- The entry of a name as a target sees it. -/
def find? (store : Target.Store α) (s : Scene) (i : Nat) (name : String) : Option α :=
  (s.owner? i fun t => Table.contains name (store.entries t)).bind fun j =>
    (s.target? j).bind fun t => Table.get? name (store.entries t)

/-- Replaces the entry of a name as a target sees it. -/
def put? (store : Target.Store α) (s : Scene) (i : Nat) (name : String) (a : α) : Option Scene :=
  (s.owner? i fun t => Table.contains name (store.entries t)).map fun j =>
    s.modifyTarget j (store.change (Table.insert name a))

variable {store : Target.Store α} {s s' : Scene} {i j k : Nat} {name m : String} {a : α}

theorem find?_eq_some_iff : find? store s i name = some a ↔
    ∃ j t, s.Resolves store.entries i name j ∧ s.target? j = some t ∧
      Table.get? name (store.entries t) = some a := by
  simp [find?, Option.bind_eq_some_iff, owner?_eq_some_iff]

theorem put?_eq_some_iff : put? store s i name a = some s' ↔
    ∃ j, s.Resolves store.entries i name j ∧
      s' = s.modifyTarget j (store.change (Table.insert name a)) := by
  simp only [put?, Option.map_eq_some_iff, owner?_eq_some_iff]
  exact exists_congr fun _ => and_congr_right fun _ => eq_comm

/-- The owner of a name has an entry to read. -/
theorem isSome_find? : (find? store s i name).isSome = true ↔
    ∃ j, s.Resolves store.entries i name j := by
  rw [Option.isSome_iff_exists]
  constructor
  · rintro ⟨a, h⟩
    obtain ⟨j, -, hj, -⟩ := find?_eq_some_iff.mp h
    exact ⟨j, hj⟩
  · rintro ⟨j, hj⟩
    obtain ⟨t, ht, hname⟩ := hj.has
    obtain ⟨a, ha⟩ := Option.isSome_iff_exists.mp (Table.contains_iff.mpr hname)
    exact ⟨a, find?_eq_some_iff.mpr ⟨j, t, hj, ht, ha⟩⟩

theorem isSome_put? : (put? store s i name a).isSome = (find? store s i name).isSome := by
  rw [Bool.eq_iff_iff, isSome_find?, Option.isSome_iff_exists]
  simp only [put?_eq_some_iff]
  constructor
  · rintro ⟨_, j, hj, -⟩
    exact ⟨j, hj⟩
  · rintro ⟨j, hj⟩
    exact ⟨_, j, hj, rfl⟩

theorem exists_put?_iff :
    (∃ s', put? store s i name a = some s') ↔ ∃ b, find? store s i name = some b := by
  rw [← Option.isSome_iff_exists, ← Option.isSome_iff_exists, isSome_put?]

/-! ### Lookups after a write -/

/-- After a write through one target, lookups by whichever target see what was written if they
resolve to the same owner and name, and else see what they saw before.  So an entry of the target's
own hides what is written elsewhere, and what is written to the stage is seen by all that have no
entry of their own. -/
structure Given (entries : Target → Table α) (look : Scene → Nat → String → Option α) (i : Nat)
    (name : String) (a : α) (s s' : Scene) : Prop where
  seen : ∀ j k, s.Resolves entries i name j → s.Resolves entries k name j → look s' k name = some a
  kept : ∀ k m, (∀ j, s.Resolves entries i name j → s.Resolves entries k m j → m ≠ name) →
    look s' k m = look s k m
  hidden : ∀ k, s.Has entries name k → ¬s.Resolves entries i name k → look s' k name = look s k name
  shared : ∀ k, ¬s.Has entries name i → ¬s.Has entries name k → look s' k name = some a

theorem target?_put (h : put? store s i name a = some s') :
    ∃ j t, s.Resolves store.entries i name j ∧ s.target? j = some t ∧
      name ∈ Table.names (store.entries t) ∧
      s'.target? j = some (store.change (Table.insert name a) t) ∧
      ∀ k, k ≠ j → s'.target? k = s.target? k := by
  obtain ⟨j, hj, rfl⟩ := put?_eq_some_iff.mp h
  obtain ⟨t, ht, hname⟩ := hj.has
  refine ⟨j, t, hj, ht, hname, ?_, fun k hk => target?_modifyTarget_of_ne hk _ s⟩
  rw [target?_modifyTarget_self, ht]
  rfl

/-- The names that a target has are the same after a write. -/
theorem has_put (h : put? store s i name a = some s') :
    s'.Has store.entries m k ↔ s.Has store.entries m k := by
  obtain ⟨j, t, -, ht, hname, ht', hothers⟩ := target?_put h
  by_cases hk : k = j
  · subst hk
    simp only [Has, ht, ht', Option.some.injEq, exists_eq_left', store.entries_change]
    rw [Table.names_insert_of_contains a (Table.contains_iff.mpr hname)]
  · simp only [Has, hothers k hk]

theorem resolves_put (h : put? store s i name a = some s') :
    s'.Resolves store.entries k m j ↔ s.Resolves store.entries k m j := by
  have hstage : s'.stage = s.stage := by
    obtain ⟨_, -, rfl⟩ := put?_eq_some_iff.mp h
    rfl
  simp only [Resolves, has_put h, hstage]

/-- A lookup after a write is a lookup at the same owner. -/
theorem find?_put (h : put? store s i name a = some s') (k : Nat) (m : String) :
    (∀ j, s.Resolves store.entries i name j → s.Resolves store.entries k m j → m = name →
      find? store s' k m = some a) ∧
    ((∀ j, s.Resolves store.entries i name j → s.Resolves store.entries k m j → m ≠ name) →
      find? store s' k m = find? store s k m) := by
  obtain ⟨j, t, hj, ht, hname, ht', hothers⟩ := target?_put h
  constructor
  · rintro j' hj' hk rfl
    obtain rfl := hj.unique hj'
    refine find?_eq_some_iff.mpr ⟨j, _, (resolves_put h).mpr hk, ht', ?_⟩
    rw [store.entries_change, Table.get?_insert_self]
  · intro hne
    apply Option.ext
    intro b
    simp only [find?_eq_some_iff, resolves_put h]
    refine exists_congr fun j' => ?_
    by_cases hjj : j' = j
    · subst hjj
      by_cases hk : s.Resolves store.entries k m j'
      · simp [hk, ht, ht', store.entries_change, Table.get?_insert_of_ne _ _ (hne j' hj hk)]
      · simp [hk]
    · rw [hothers j' hjj]

theorem put?_given (h : put? store s i name a = some s') :
    Given store.entries (find? store) i name a s s' where
  seen j k hj hk := (find?_put h k name).1 j hj hk rfl
  kept k m hne := (find?_put h k m).2 hne
  hidden k hk howner := by
    refine (find?_put h k name).2 fun j hj hjk => ?_
    rcases hjk with ⟨-, rfl⟩ | ⟨hnot, -⟩
    · exact absurd hj howner
    · exact absurd hk hnot
  shared k hi hk := by
    obtain ⟨j, -, hj, -⟩ := target?_put h
    rcases hj with ⟨hown, -⟩ | ⟨-, hstage, hhas⟩
    · exact absurd hown hi
    · exact (find?_put h k name).1 j (.inr ⟨hi, hstage, hhas⟩) (.inr ⟨hk, hstage, hhas⟩) rfl

theorem find?_put_self (h : put? store s i name a = some s') : find? store s' i name = some a := by
  obtain ⟨j, hj, -⟩ := put?_eq_some_iff.mp h
  exact (find?_put h i name).1 j hj hj rfl

/-- A lookup depends on the entries of the targets and on where the stage is. -/
theorem find?_congr (hstage : s'.stage = s.stage)
    (hentries : ∀ l, (s'.target? l).map store.entries = (s.target? l).map store.entries) :
    find? store s' i name = find? store s i name := by
  have hany : ∀ l, ((s'.target? l).any fun t => Table.contains name (store.entries t)) =
      (s.target? l).any fun t => Table.contains name (store.entries t) := by
    intro l
    simpa [Option.any_map] using congrArg (Option.any (Table.contains name)) (hentries l)
  have hget : ∀ l, ((s'.target? l).bind fun t => Table.get? name (store.entries t)) =
      (s.target? l).bind fun t => Table.get? name (store.entries t) := by
    intro l
    simpa [Option.bind_map] using congrArg (Option.bind · (Table.get? name)) (hentries l)
  simp only [find?, owner?, hany, hget, hstage]

/-- A write to one table leaves another alone. -/
theorem find?_put_other (other : Target.Store β)
    (hother : ∀ f t, other.entries (store.change f t) = other.entries t)
    (h : put? store s i name a = some s') (k : Nat) (m : String) :
    find? other s' k m = find? other s k m := by
  obtain ⟨j, -, rfl⟩ := put?_eq_some_iff.mp h
  refine find?_congr rfl fun l => ?_
  by_cases hl : l = j
  · subst hl
    rw [target?_modifyTarget_self, Option.map_map]
    exact congrArg (Option.map · _) (funext fun t => hother _ t)
  · rw [target?_modifyTarget_of_ne hl]

end Scene

/-! ### Positions in a list -/

namespace Value

/-- The word `last`, in whatever case. -/
def IsLast (index : Value) : Prop := ∃ s, index = .str s ∧ Text.eqIgnoringCase s "last" = true

/-- The number of the value, rounded down. -/
def IsPosition (index : Value) (k : ℤ) : Prop :=
  ∃ d, Dyad.ofFloat? index.toNumber = some d ∧ ⌊d.value⌋ = k

variable {index : Value} {items : List Value} {item : Value} {k l : ℤ}

theorem IsPosition.unique (h : index.IsPosition k) (h' : index.IsPosition l) : k = l := by
  obtain ⟨d, hd, rfl⟩ := h
  obtain ⟨d', hd', rfl⟩ := h'
  rw [hd] at hd'
  cases hd'
  rfl

theorem isPosition_doubleOfNat {n : ℕ} (h : n ≤ 2 ^ 53) :
    (Value.num (doubleOfNat n)).IsPosition n := by
  obtain ⟨d, hd, hvalue⟩ := ofFloat?_doubleOfNat h
  have hnumber : (Value.num (doubleOfNat n)).toNumber = doubleOfNat n :=
    if_neg (ne_true_of_eq_false (Dyad.isNaN_of_ofFloat? hd))
  exact ⟨d, by rw [hnumber, hd], by rw [hvalue, Int.floor_natCast]⟩

theorem eq_or_eq_toUpper {c d : Char} (h : c.toLower = d) : c = d ∨ c = d.toUpper := by
  by_cases hupper : c.isUpper
  · right
    rw [← h, Char.toUpper_toLower_eq_toUpper,
      Char.toUpper_eq_of_not_isLower (Char.not_isLower_of_isUpper hupper)]
  · left
    rw [← h, Char.toLower_eq_of_not_isUpper hupper]

/-- No number is spelled with the letters of `last`, in whatever case. -/
theorem spelledNumber?_last {s : String} (hs : Text.eqIgnoringCase s "last" = true) :
    spelledNumber? s = none := by
  have hletters : s.toList.map Char.toLower = ['l', 'a', 's', 't'] := eq_of_beq hs
  obtain ⟨c₁, rest₁, hs₁, h₁, hletters⟩ := List.map_eq_cons_iff.mp hletters
  obtain ⟨c₂, rest₂, rfl, h₂, hletters⟩ := List.map_eq_cons_iff.mp hletters
  obtain ⟨c₃, rest₃, rfl, h₃, hletters⟩ := List.map_eq_cons_iff.mp hletters
  obtain ⟨c₄, rest₄, rfl, h₄, hletters⟩ := List.map_eq_cons_iff.mp hletters
  obtain rfl := List.map_eq_nil_iff.mp hletters
  rw [spelledNumber?, hs₁]
  rcases eq_or_eq_toUpper h₁ with rfl | rfl <;>
    rcases eq_or_eq_toUpper h₂ with rfl | rfl <;>
    rcases eq_or_eq_toUpper h₃ with rfl | rfl <;>
    rcases eq_or_eq_toUpper h₄ with rfl | rfl <;> rfl

/-- As a number, the word `last` is zero. -/
theorem IsLast.isPosition (h : index.IsLast) : index.IsPosition 0 := by
  obtain ⟨s, rfl, hs⟩ := h
  refine ⟨⟨false, 0, -1074⟩, ?_, by simp [Dyad.value, Dyad.signed]⟩
  simp only [toNumber, spelledNumber?_last hs]
  decide +kernel

/-- The item that an index selects: the last one for the word `last`, else the one at the position,
else the empty text. -/
inductive Selects (index : Value) (items : List Value) : Value → Prop where
  | last {item : Value} (h : index.IsLast) (hitem : items.getLast? = some item) :
    Selects index items item
  | position {k : ℕ} {item : Value} (h : index.IsPosition (k + 1)) (hitem : items[k]? = some item) :
    Selects index items item
  | nothing (hlast : index.IsLast → items = [])
    (hposition : ∀ k < items.length, ¬index.IsPosition (k + 1)) : Selects index items (.str "")

theorem IsLast.not_isPosition (h : index.IsLast) (k : ℕ) : ¬index.IsPosition (k + 1) := by
  intro hk
  have h0 := h.isPosition.unique hk
  omega

end Value

/-- The position that is counted from 1, if it is one in the list. -/
theorem listIndex?_of_not_isLast {index : Value} (h : ¬index.IsLast) (length p : ℕ) :
    listIndex? index length = some p ↔ index.IsPosition (p + 1) ∧ p < length := by
  have hbyNumber : listIndex? index length = (Dyad.ofFloat? index.toNumber).bind fun d =>
      if 1 ≤ d.floor ∧ d.floor ≤ length then some (d.floor.toNat - 1) else none := by
    cases index with
    | str s =>
      have hs : ¬Text.eqIgnoringCase s "last" = true := fun hs => h ⟨s, rfl, hs⟩
      rw [listIndex?]
      simp only [if_neg hs]
      cases Dyad.ofFloat? (Value.str s).toNumber <;> rfl
    | null | bool | num | list | obj =>
      unfold listIndex?
      cases Dyad.ofFloat? (Value.toNumber _) <;> rfl
  rw [hbyNumber, Option.bind_eq_some_iff, Value.IsPosition]
  constructor
  · rintro ⟨d, hd, hp⟩
    obtain ⟨hrange, hp⟩ := Option.ite_none_right_eq_some.mp hp
    rw [Option.some.injEq] at hp
    exact ⟨⟨d, hd, by rw [← Dyad.floor_eq]; omega⟩, by omega⟩
  · rintro ⟨⟨d, hd, hfloor⟩, hp⟩
    rw [← Dyad.floor_eq] at hfloor
    refine ⟨d, hd, ?_⟩
    rw [if_pos (by omega), Option.some.injEq]
    omega

theorem listIndex?_of_isLast {index : Value} (h : index.IsLast) (length p : ℕ) :
    listIndex? index length = some p ↔ p + 1 = length := by
  obtain ⟨s, rfl, hs⟩ := h
  rw [listIndex?]
  simp only [if_pos hs]
  split
  · simp
    omega
  · simp
    omega

/-- No position is out of range. -/
theorem lt_of_listIndex? {index : Value} {length p : ℕ} (h : listIndex? index length = some p) :
    p < length := by
  by_cases hlast : index.IsLast
  · have := (listIndex?_of_isLast hlast length p).mp h
    omega
  · exact ((listIndex?_of_not_isLast hlast length p).mp h).2

/-- An index selects one item only. -/
theorem Value.Selects.unique {items : List Value} {index item item' : Value}
    (h : index.Selects items item) (h' : index.Selects items item') : item = item' := by
  cases h with
  | last h hitem =>
    cases h' with
    | last _ hitem' => exact Option.some_inj.mp (hitem.symm.trans hitem')
    | position h' _ => exact absurd h' (h.not_isPosition _)
    | nothing hlast _ => simp [hlast h] at hitem
  | @position k _ h hitem =>
    cases h' with
    | last h' _ => exact absurd h (h'.not_isPosition _)
    | @position k' _ h' hitem' =>
      obtain rfl : k = k' := by
        have := h.unique h'
        omega
      exact Option.some_inj.mp (hitem.symm.trans hitem')
    | nothing _ hposition =>
      exact absurd h (hposition k (List.getElem?_eq_some_iff.mp hitem).1)
  | nothing hlast hposition =>
    cases h' with
    | last h hitem => simp [hlast h] at hitem
    | position h hitem => exact absurd h (hposition _ (List.getElem?_eq_some_iff.mp hitem).1)
    | nothing => rfl

/-- The position of an index is the one of the item that it selects. -/
theorem selects_listIndex? (items : List Value) (index : Value) : index.Selects items
    (((listIndex? index items.length).bind fun p => items[p]?).getD (.str "")) := by
  cases hp : listIndex? index items.length with
  | none =>
    refine .nothing (fun hlast => ?_) fun k hk hposition => ?_
    · by_contra hne
      have hpos : items.length - 1 + 1 = items.length := by
        have := List.length_pos_iff.mpr hne
        omega
      rw [(listIndex?_of_isLast hlast _ _).mpr hpos] at hp
      cases hp
    · have hlast : ¬index.IsLast := fun hlast => hlast.not_isPosition k hposition
      rw [(listIndex?_of_not_isLast hlast _ _).mpr ⟨hposition, hk⟩] at hp
      cases hp
  | some p =>
    have hlt : p < items.length := lt_of_listIndex? hp
    rw [Option.bind_some, List.getElem?_eq_getElem hlt, Option.getD_some]
    by_cases hlast : index.IsLast
    · have hlength := (listIndex?_of_isLast hlast _ _).mp hp
      refine .last hlast ?_
      rw [List.getLast?_eq_getElem?, ← hlength, Nat.add_sub_cancel, List.getElem?_eq_getElem hlt]
    · exact .position ((listIndex?_of_not_isLast hlast _ _).mp hp).1 (List.getElem?_eq_getElem hlt)

theorem selects_iff {items : List Value} {index item : Value} : index.Selects items item ↔
    ((listIndex? index items.length).bind fun p => items[p]?).getD (.str "") = item := by
  constructor
  · intro h
    exact (selects_listIndex? items index).unique h
  · rintro rfl
    exact selects_listIndex? items index

/-! ### The blocks -/

/-- Reading finds the entry of the owner of a name, and writing replaces it.  So either both succeed
or neither does. -/
structure Target.Store.IsKeptBy (store : Store α) (look : Scene → Nat → String → Option α)
    (write : Scene → Nat → String → α → Option Scene) : Prop where
  look_iff : ∀ s i name a, look s i name = some a ↔
    ∃ j t, s.Resolves store.entries i name j ∧ s.target? j = some t ∧
      Table.get? name (store.entries t) = some a
  write_iff : ∀ s i name a s', write s i name a = some s' ↔
    ∃ j, s.Resolves store.entries i name j ∧
      s' = s.modifyTarget j (store.change (Table.insert name a))
  isSome_write : ∀ s i name a, (write s i name a).isSome = (look s i name).isSome

theorem Target.Store.isKeptBy (store : Store α) :
    store.IsKeptBy (Scene.find? store) (Scene.put? store) where
  look_iff _ _ _ _ := Scene.find?_eq_some_iff
  write_iff _ _ _ _ _ := Scene.put?_eq_some_iff
  isSome_write _ _ _ _ := Scene.isSome_put?

theorem Scene.getVariable?_eq : getVariable? = find? Target.variableStore := rfl

theorem Scene.setVariable?_eq : setVariable? = put? Target.variableStore := rfl

theorem Scene.setList?_eq : setList? = put? Target.listStore := rfl

namespace Context

/-- The library block reports the value and leaves everything as it is. -/
def Reports (cx : Context) (opcode : String) (args : Args) (v : Value) : Prop :=
  Library.perform opcode args cx = some (.ok (.done v), cx)

/-- The library block succeeds and leaves this context. -/
def Succeeds (cx : Context) (opcode : String) (args : Args) (cx' : Context) : Prop :=
  ∃ flow, Library.perform opcode args cx = some (.ok flow, cx')

variable {cx cx' : Context} {args : Args} {v : Value} {items : List Value}

theorem getVariable_eq_ok {name : String} :
    cx.getVariable name = .ok v ↔ cx.scene.getVariable? cx.target name = some v := by
  rw [getVariable]
  split <;> simp_all

theorem getList_eq_ok {name : String} :
    cx.getList name = .ok items ↔ cx.scene.getList? cx.target name = some items := by
  rw [getList]
  split <;> simp_all

theorem setVariable_eq_ok {name : String} : cx.setVariable name v = .ok cx' ↔
    ∃ s', cx.scene.setVariable? cx.target name v = some s' ∧ cx.withScene s' = cx' := by
  rw [setVariable]
  split <;> simp_all

theorem setList_eq_ok {name : String} : cx.setList name items = .ok cx' ↔
    ∃ s', cx.scene.setList? cx.target name items = some s' ∧ cx.withScene s' = cx' := by
  rw [setList]
  split <;> simp_all

variable {opcode : String}

theorem reports_iff {x : Except ExecError Value}
    (h : Library.perform opcode args cx = some (Body.report cx x)) :
    cx.Reports opcode args v ↔ x = .ok v := by
  rw [Reports, h, Option.some_inj]
  cases x <;> simp [Body.report]

theorem succeeds_iff {x : Except ExecError Context}
    (h : Library.perform opcode args cx = some (Body.command cx x)) :
    cx.Succeeds opcode args cx' ↔ x = .ok cx' := by
  simp only [Succeeds, h, Option.some_inj]
  cases x <;> simp [Body.command]

theorem reports_variable : cx.Reports "data_variable" args v ↔
    cx.scene.getVariable? cx.target (args.text "VARIABLE") = some v :=
  (reports_iff rfl).trans getVariable_eq_ok

theorem reports_length : cx.Reports "data_lengthoflist" args v ↔
    ∃ items, cx.scene.getList? cx.target (args.text "LIST") = some items ∧
      .num (doubleOfNat items.length) = v := by
  rw [reports_iff rfl]
  simp only [← getList_eq_ok]
  cases cx.getList (args.text "LIST") <;> simp [bind, Except.bind, pure, Except.pure]

theorem reports_item : cx.Reports "data_itemoflist" args v ↔
    ∃ items, cx.scene.getList? cx.target (args.text "LIST") = some items ∧
      (args.value "INDEX").Selects items v := by
  rw [reports_iff rfl]
  simp only [← getList_eq_ok]
  cases cx.getList (args.text "LIST") with
  | error e => simp [bind, Except.bind]
  | ok items => simp [bind, Except.bind, pure, Except.pure, selects_iff]

theorem succeeds_setVariable : cx.Succeeds "data_setvariableto" args cx' ↔
    ∃ s', cx.scene.setVariable? cx.target (args.text "VARIABLE") (args.value "VALUE") = some s' ∧
      cx.withScene s' = cx' :=
  (succeeds_iff rfl).trans setVariable_eq_ok

theorem succeeds_addToList : cx.Succeeds "data_addtolist" args cx' ↔
    ∃ items, cx.scene.getList? cx.target (args.text "LIST") = some items ∧
    ∃ s', cx.scene.setList? cx.target (args.text "LIST") (items ++ [args.value "ITEM"]) = some s' ∧
      cx.withScene s' = cx' := by
  rw [succeeds_iff rfl]
  simp only [← getList_eq_ok, ← setList_eq_ok]
  cases cx.getList (args.text "LIST") <;> simp [bind, Except.bind]

/-- What is set is read by the targets that find the same variable, and no list changes. -/
theorem Succeeds.given_variable (h : cx.Succeeds "data_setvariableto" args cx') :
    cx'.target = cx.target ∧
    cx'.scene.getVariable? cx.target (args.text "VARIABLE") = some (args.value "VALUE") ∧
    Scene.Given Target.vars Scene.getVariable? cx.target (args.text "VARIABLE") (args.value "VALUE")
      cx.scene cx'.scene ∧
    ∀ k m, cx'.scene.getList? k m = cx.scene.getList? k m := by
  obtain ⟨s', hs, rfl⟩ := succeeds_setVariable.mp h
  rw [Scene.setVariable?_eq] at hs
  exact ⟨rfl, Scene.find?_put_self hs, Scene.put?_given hs,
    Scene.find?_put_other Target.listStore (fun _ _ => rfl) hs⟩

theorem Succeeds.given_list (h : cx.Succeeds "data_addtolist" args cx') :
    cx'.target = cx.target ∧ ∃ items,
      cx.scene.getList? cx.target (args.text "LIST") = some items ∧
      cx'.scene.getList? cx.target (args.text "LIST") = some (items ++ [args.value "ITEM"]) ∧
      Scene.Given Target.lists Scene.getList? cx.target (args.text "LIST")
        (items ++ [args.value "ITEM"]) cx.scene cx'.scene ∧
      ∀ k m, cx'.scene.getVariable? k m = cx.scene.getVariable? k m := by
  obtain ⟨items, hitems, s', hs, rfl⟩ := succeeds_addToList.mp h
  rw [Scene.setList?_eq] at hs
  exact ⟨rfl, items, hitems, Scene.find?_put_self hs, Scene.put?_given hs,
    Scene.find?_put_other Target.variableStore (fun _ _ => rfl) hs⟩

/-- Setting a variable succeeds where reading it does. -/
theorem exists_succeeds_setVariable : (∃ cx', cx.Succeeds "data_setvariableto" args cx') ↔
    ∃ v, cx.Reports "data_variable" args v := by
  simp only [succeeds_setVariable, reports_variable, Scene.setVariable?_eq, Scene.getVariable?_eq]
  rw [← Scene.exists_put?_iff (a := args.value "VALUE"), exists_comm]
  simp

end Context

/-- Variables and lists are read and written at the owner of the name, so that setting a variable
succeeds where reading it does.  What is set is then read by the targets that resolve the name to
the same owner, and nothing else changes.  An item that is added is the last one of the list, with
the others where they were.  An index selects the last item by the word `last` and else an item by
its position, never one out of range. -/
theorem variables_and_lists_keep_to_owners :
    Target.variableStore.IsKeptBy Scene.getVariable? Scene.setVariable? ∧
    Target.listStore.IsKeptBy Scene.getList? Scene.setList? ∧
    (∀ (cx : Context) (args : Args) (v : Value), cx.Reports "data_variable" args v ↔
      cx.scene.getVariable? cx.target (args.text "VARIABLE") = some v) ∧
    (∀ (cx : Context) (args : Args), (∃ cx', cx.Succeeds "data_setvariableto" args cx') ↔
      ∃ v, cx.Reports "data_variable" args v) ∧
    (∀ (cx cx' : Context) (args : Args), cx.Succeeds "data_setvariableto" args cx' →
      cx'.target = cx.target ∧
      Scene.Given Target.vars Scene.getVariable? cx.target (args.text "VARIABLE")
        (args.value "VALUE") cx.scene cx'.scene ∧
      (∀ k m, cx'.scene.getList? k m = cx.scene.getList? k m) ∧
      ∀ args' : Args, args'.text "VARIABLE" = args.text "VARIABLE" →
        cx'.Reports "data_variable" args' (args.value "VALUE")) ∧
    (∀ (cx cx' : Context) (args : Args), cx.Succeeds "data_addtolist" args cx' →
      cx'.target = cx.target ∧ ∃ items,
        cx.scene.getList? cx.target (args.text "LIST") = some items ∧
        Scene.Given Target.lists Scene.getList? cx.target (args.text "LIST")
          (items ++ [args.value "ITEM"]) cx.scene cx'.scene ∧
        (∀ k m, cx'.scene.getVariable? k m = cx.scene.getVariable? k m) ∧
        ∀ args' : Args, args'.text "LIST" = args.text "LIST" →
          cx.Reports "data_lengthoflist" args' (.num (doubleOfNat items.length)) ∧
          cx'.Reports "data_lengthoflist" args' (.num (doubleOfNat (items.length + 1))) ∧
          ((args'.value "INDEX").IsLast ∨ (args'.value "INDEX").IsPosition (items.length + 1) →
            cx'.Reports "data_itemoflist" args' (args.value "ITEM")) ∧
          ∀ (k : ℕ) (item : Value), items[k]? = some item →
            (args'.value "INDEX").IsPosition (k + 1) →
            cx.Reports "data_itemoflist" args' item ∧ cx'.Reports "data_itemoflist" args' item) ∧
    (∀ (cx : Context) (args : Args) (items : List Value),
      cx.scene.getList? cx.target (args.text "LIST") = some items →
      ∀ v, cx.Reports "data_itemoflist" args v ↔ (args.value "INDEX").Selects items v) ∧
    (∀ (index : Value) (items : List Value), ∃! item, index.Selects items item) ∧
    (∀ (index : Value) (length p : ℕ), listIndex? index length = some p → p < length) ∧
    ∀ n : ℕ, n ≤ 2 ^ 53 → (Value.num (doubleOfNat n)).IsPosition n := by
  refine ⟨Target.variableStore.isKeptBy, Target.listStore.isKeptBy,
    fun _ _ _ => Context.reports_variable, fun _ _ => Context.exists_succeeds_setVariable,
    ?set, ?add, ?item, ?one, fun _ _ _ => lt_of_listIndex?, fun _ => Value.isPosition_doubleOfNat⟩
  case set =>
    intro cx cx' args h
    obtain ⟨htarget, hread, hgiven, hlists⟩ := h.given_variable
    refine ⟨htarget, hgiven, hlists, fun args' hname => Context.reports_variable.mpr ?_⟩
    rw [htarget, hname, hread]
  case add =>
    intro cx cx' args h
    obtain ⟨htarget, items, hbefore, hafter, hgiven, hvariables⟩ := h.given_list
    refine ⟨htarget, items, hbefore, hgiven, hvariables, fun args' hname => ?_⟩
    rw [← hname] at hbefore hafter
    rw [← htarget] at hafter
    refine ⟨Context.reports_length.mpr ⟨items, hbefore, rfl⟩,
      Context.reports_length.mpr ⟨_, hafter, by simp⟩, ?new, ?old⟩
    case new =>
      intro hindex
      refine Context.reports_item.mpr ⟨_, hafter, ?_⟩
      rcases hindex with hlast | hposition
      · exact .last hlast List.getLast?_concat
      · exact .position hposition List.getElem?_concat_length
    case old =>
      intro k item hitem hposition
      have hlt : k < items.length := (List.getElem?_eq_some_iff.mp hitem).1
      refine ⟨Context.reports_item.mpr ⟨items, hbefore, .position hposition hitem⟩,
        Context.reports_item.mpr ⟨_, hafter, .position hposition ?_⟩⟩
      rw [List.getElem?_append_left hlt, hitem]
  case item =>
    intro cx args items hitems v
    simp [Context.reports_item, hitems]
  case one =>
    intro index items
    exact ⟨_, selects_listIndex? items index, fun _ h => h.unique (selects_listIndex? items index)⟩

/-- A stage with a score and a list, a sprite with a score of its own, and a sprite without. -/
def Scene.scored : Scene where
  targets := [
    { Target.stage with vars := [("score", .num 0)], lists := [("names", [.str "Ann"])] },
    { Target.sprite "Cat" with vars := [("score", .num 1)] },
    Target.sprite "Dog"]
  stage := some 0

def Context.scored (i : Nat) : Context := { world := { scene := .scored }, target := i }

/-- A score that the second sprite sets is the stage's, and is hidden from the first one.  A name
that the first sprite adds is the last one, and the one before it is found by its position. -/
theorem variables_and_lists_keep_to_owners_scored :
    (∃ cx', (Context.scored 2).Succeeds "data_setvariableto"
        [("VARIABLE", .str "score"), ("VALUE", .str "won")] cx' ∧
      cx'.scene.getVariable? 0 "score" = some (.str "won") ∧
      cx'.scene.getVariable? 1 "score" = some (.num 1)) ∧
    ∃ cx', (Context.scored 1).Succeeds "data_addtolist"
        [("LIST", .str "names"), ("ITEM", .str "Bob")] cx' ∧
      cx'.Reports "data_lengthoflist" [("LIST", .str "names")] (.num (doubleOfNat 2)) ∧
      cx'.Reports "data_itemoflist" [("LIST", .str "names"), ("INDEX", .str "LAST")] (.str "Bob") ∧
      cx'.Reports "data_itemoflist" [("LIST", .str "names"), ("INDEX", .num (doubleOfNat 1))]
        (.str "Ann") := by
  obtain ⟨-, -, -, hsettable, hset, hadd, -, -, -, hnumber⟩ := variables_and_lists_keep_to_owners
  constructor
  · obtain ⟨cx', h⟩ := (hsettable (Context.scored 2)
      [("VARIABLE", .str "score"), ("VALUE", .str "won")]).mpr ⟨.num 0, rfl⟩
    obtain ⟨-, hgiven, -, -⟩ := hset _ _ _ h
    have hdog : Scene.scored.Resolves Target.vars 2 "score" 0 := Scene.owner?_eq_some_iff.mp rfl
    have hstage : Scene.scored.Resolves Target.vars 0 "score" 0 := Scene.owner?_eq_some_iff.mp rfl
    have hcat : Scene.scored.Resolves Target.vars 1 "score" 1 := Scene.owner?_eq_some_iff.mp rfl
    have hhidden : cx'.scene.getVariable? 1 "score" = Scene.scored.getVariable? 1 "score" :=
      hgiven.hidden 1 hcat.has fun hother => absurd (hother.unique hdog) (by decide)
    exact ⟨cx', h, hgiven.seen 0 0 hdog hstage, hhidden⟩
  · obtain ⟨cx', h⟩ : ∃ cx', (Context.scored 1).Succeeds "data_addtolist"
      [("LIST", .str "names"), ("ITEM", .str "Bob")] cx' := ⟨_, .done .null, rfl⟩
    obtain ⟨-, items, hitems, -, -, hreports⟩ := hadd _ _ _ h
    cases hitems
    have hone : (Value.num (doubleOfNat 1)).IsPosition ((0 : ℕ) + 1) := hnumber 1 (by norm_num)
    obtain ⟨-, hlength, -, -⟩ := hreports [("LIST", .str "names")] rfl
    obtain ⟨-, -, hlast, -⟩ := hreports [("LIST", .str "names"), ("INDEX", .str "LAST")] rfl
    obtain ⟨-, -, -, hkept⟩ :=
      hreports [("LIST", .str "names"), ("INDEX", .num (doubleOfNat 1))] rfl
    exact ⟨cx', h, hlength, hlast (.inl ⟨"LAST", rfl, by decide⟩), (hkept 0 _ rfl hone).2⟩

end Blockwork
