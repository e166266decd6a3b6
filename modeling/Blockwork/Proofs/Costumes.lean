import Blockwork.Proofs.Independence
import Blockwork.Proofs.Variables
import Blockwork.Proofs.WholeDoubles

/-!
Selecting costumes.

The costumes of a target stand in a ring, and whatever selects one turns the target to a position on
that ring (`Target.turnedTo`): by a rounded number, by a name, or by one step.  So what selects a
costume stays in the list and touches nothing else (`CostumeMove.Goes.turns`), and a step back undoes
a step forward (`Target.InRange.turnedTo_turnedTo`).  The numbers on the way are whole and small enough
for their sums to be exact.
-/

namespace Blockwork

/-! ### The ring of costumes -/

namespace Target

/-- The target with the costume at a position, counted around the list. -/
def turnedTo (t : Target) (k : ℤ) : Target :=
  { t with costume := (k % (t.costumes.length : ℤ)).toNat }

/-- The current costume is one of the list. -/
def InRange (t : Target) : Prop := t.costume < t.costumes.length

variable {t : Target}

theorem InRange.lt (h : t.InRange) (k : ℤ) :
    (k % (t.costumes.length : ℤ)).toNat < t.costumes.length := by
  rw [InRange] at h
  have hnonneg := Int.emod_nonneg k (b := t.costumes.length) (by omega)
  have hlt := Int.emod_lt_of_pos k (b := t.costumes.length) (by omega)
  omega

theorem InRange.isEmpty (h : t.InRange) : t.costumes.isEmpty = false := by
  rw [List.isEmpty_eq_false_iff_exists_mem]
  exact ⟨_, List.getElem_mem h⟩

theorem turnedTo_natCast {i : ℕ} (h : i < t.costumes.length) :
    t.turnedTo i = { t with costume := i } := by
  rw [turnedTo, ← Int.natCast_emod, Int.toNat_natCast, Nat.mod_eq_of_lt h]

theorem InRange.turnedTo_self (h : t.InRange) : t.turnedTo t.costume = t := turnedTo_natCast h

/-- A turn by some steps from a position is a turn to the sum. -/
theorem InRange.turnedTo_turnedTo (h : t.InRange) (j k : ℤ) :
    (t.turnedTo j).turnedTo ((t.turnedTo j).costume + k) = t.turnedTo (j + k) := by
  have hnonneg : 0 ≤ j % (t.costumes.length : ℤ) :=
    Int.emod_nonneg j (by rw [InRange] at h; omega)
  simp only [turnedTo, Int.toNat_of_nonneg hnonneg, Int.emod_add_emod]

theorem costumeIndex?_lt {name : String} {i : ℕ} (h : t.costumeIndex? name = some i) :
    i < t.costumes.length := (List.findIdx?_eq_some_iff_getElem.mp h).1

theorem costumeIndex?_eq_none {name : String} (h : name ∉ t.costumes) :
    t.costumeIndex? name = none := by
  rw [costumeIndex?, List.findIdx?_eq_none_iff]
  intro c hc
  exact decide_eq_false fun heq => h (heq ▸ hc)

theorem setCostumeName_of_not_found {name : String} (h : ¬ (t.setCostumeName name).1 = true) :
    (t.setCostumeName name).2 = t := by
  rw [setCostumeName] at h ⊢
  cases hindex : t.costumeIndex? name with
  | none => rfl
  | some i =>
    rw [hindex] at h
    exact absurd rfl h

theorem setCostumeName_of_not_mem {name : String} (h : name ∉ t.costumes) :
    t.setCostumeName name = (false, t) := by
  rw [setCostumeName, costumeIndex?_eq_none h]

/-- What is not a number is taken for a name first, then for a menu word, then for the number that it
spells. -/
theorem switchCostume_eq_ite {v : Value} (hv : ∀ n, v ≠ .num n) (t : Target) :
    t.switchCostume v =
      if (t.setCostumeName v.text).1 then (t.setCostumeName v.text).2
      else if v.text = "next costume" then t.nextCostume
      else if v.text = "previous costume" then
        t.setCostumeNumber (doubleOfNat t.costume + doubleOfNat t.costumes.length)
      else if v.isNumeric then t.setCostumeNumber v.toNumber
      else t := by
  cases v with
  | num n => exact absurd rfl (hv n)
  | _ => rfl

theorem InRange.nextCostume_eq (h : t.InRange) : t.nextCostume = t.turnedTo (t.costume + 1) := by
  rw [nextCostume, if_neg (ne_true_of_eq_false h.isEmpty), turnedTo, ← Nat.cast_succ,
    ← Int.natCast_emod, Int.toNat_natCast]

theorem InRange.setCostumeNumber_eq {x : Float} (h : t.InRange) :
    t.setCostumeNumber x = if x.isFinite then t.turnedTo (roundInt64 x - 1) else t := by
  rw [setCostumeNumber, h.isEmpty, Bool.false_or]
  cases x.isFinite <;> rfl

theorem InRange.setCostumeNumber_of_hasValue {x : Float} {k : ℤ} (h : t.InRange)
    (hx : HasValue x k) (hk : fitsInt64 k = true) : t.setCostumeNumber x = t.turnedTo (k - 1) := by
  rw [h.setCostumeNumber_eq, hx.isFinite, if_pos rfl, roundInt64_of_hasValue hx hk]

/-! ### Single steps -/

theorem InRange.setCostumeNumber_sum {a b : ℕ} (h : t.InRange) (hsum : a + b < 2 ^ 53) :
    t.setCostumeNumber (doubleOfNat a + doubleOfNat b) = t.turnedTo ((a + b : ℕ) - 1) := by
  have hfits : fitsInt64 ((a + b : ℕ) : ℤ) = true := fitsInt64_of_natAbs_lt (by omega)
  exact h.setCostumeNumber_of_hasValue (hasValue_doubleOfNat_add hsum) hfits

theorem InRange.switchCostume_next (h : t.InRange) (hname : "next costume" ∉ t.costumes) :
    t.switchCostume (.str "next costume") = t.turnedTo (t.costume + 1) := by
  rw [switchCostume_eq_ite (by rintro _ ⟨⟩), Value.text, setCostumeName_of_not_mem hname,
    if_neg Bool.false_ne_true, if_pos rfl, h.nextCostume_eq]

theorem InRange.switchCostume_previous (h : t.InRange) (hlen : t.costumes.length < 2 ^ 52)
    (hname : "previous costume" ∉ t.costumes) :
    t.switchCostume (.str "previous costume") = t.turnedTo (t.costume + -1) := by
  have hlt := h
  rw [InRange] at hlt
  have hturn : ((t.costume + t.costumes.length : ℕ) : ℤ) - 1 =
      t.costume + -1 + t.costumes.length := by omega
  rw [switchCostume_eq_ite (by rintro _ ⟨⟩), Value.text, setCostumeName_of_not_mem hname,
    if_neg Bool.false_ne_true, if_neg (by decide), if_pos rfl, h.setCostumeNumber_sum (by omega),
    hturn, turnedTo, turnedTo, Int.add_emod_right]

/-- A step back undoes a step forward, and the other way around. -/
theorem InRange.turnedTo_back (h : t.InRange) {j k : ℤ} (hjk : j + k = 0) :
    (t.turnedTo (t.costume + j)).turnedTo ((t.turnedTo (t.costume + j)).costume + k) = t := by
  rw [h.turnedTo_turnedTo, add_assoc, hjk, add_zero, h.turnedTo_self]

end Target

/-! ### Moves -/

/-- What selects a costume: the operations of a target, and the blocks of the library. -/
inductive CostumeMove where
  | numbered (x : Float)
  | named (name : String)
  | next
  | switchBlock (v : Value)
  | nextBlock

namespace CostumeMove

/-- What a move does to the target. -/
def apply : CostumeMove → Target → Target
  | .numbered x, t => t.setCostumeNumber x
  | .named name, t => (t.setCostumeName name).2
  | .switchBlock v, t => t.switchCostume v
  | .next, t | .nextBlock, t => t.nextCostume

/-- A move of the running target, or the run of a library block. -/
def run (m : CostumeMove) (cx : Context) : Option (Reply Flow) :=
  match m with
  | .switchBlock v => Library.perform "looks_switchcostumeto" [("COSTUME", v)] cx
  | .nextBlock => Library.perform "looks_nextcostume" [] cx
  | m => some (.ok (.done .null), cx.modifySelf m.apply)

/-- The number that a move is given is not finite, or above a bound of nineteen digits. -/
def Bounded : CostumeMove → Prop
  | .numbered x => ∀ q, HasValue x q → -9200000000000000000 < q
  | .switchBlock v => v.isNumeric = true → ∀ q, HasValue v.toNumber q → -9200000000000000000 < q
  | .named _ | .next | .nextBlock => True

variable {t : Target} {m : CostumeMove} {x : Float} {q : ℚ}

/-- The number that a move selects by, if it selects by one: the number that it is given; or, for a
switch to something that is neither a number nor the name of a costume, the position and the length
together if that asks for the previous costume, and else the number that it spells. -/
def number? (t : Target) : CostumeMove → Option Float
  | .numbered x | .switchBlock (.num x) => some x
  | .switchBlock v =>
    if (t.setCostumeName v.text).1 then none
    else if v.text = "next costume" then none
    else if v.text = "previous costume" then
      some (doubleOfNat t.costume + doubleOfNat t.costumes.length)
    else if v.isNumeric then some v.toNumber
    else none
  | .named _ | .next | .nextBlock => none

/-- How a move selects: by its number, where what is computed from a finite one stays in 64 bits; and,
if it has none, by a name, which does nothing if no costume has it, or by one step. -/
inductive Goes (m : CostumeMove) (t : Target) : Prop where
  | byNumber {x : Float} (hnumber : m.number? t = some x)
    (hfits : x.isFinite = true → fitsInt64 (roundInt64 x - 1) = true)
    (happly : m.apply t = t.setCostumeNumber x)
  | byName (name : String) (hnumber : m.number? t = none)
    (happly : m.apply t = (t.setCostumeName name).2)
  | oneStep (hnumber : m.number? t = none) (happly : m.apply t = t.nextCostume)

theorem number?_switchBlock {v : Value} (hv : ∀ n, v ≠ .num n) (t : Target) :
    (switchBlock v).number? t =
      if (t.setCostumeName v.text).1 then none
      else if v.text = "next costume" then none
      else if v.text = "previous costume" then
        some (doubleOfNat t.costume + doubleOfNat t.costumes.length)
      else if v.isNumeric then some v.toNumber
      else none := by
  cases v with
  | num n => exact absurd rfl (hv n)
  | _ => rfl

theorem fitsInt64_of_lt (h : ∀ q, HasValue x q → -9200000000000000000 < q)
    (hx : x.isFinite = true) : fitsInt64 (roundInt64 x - 1) = true := by
  obtain ⟨q, hq⟩ := hasValue_of_isFinite hx
  have hlow := neg_le_roundInt64 hq (k := 9200000000000000000) (by norm_num)
    (by exact_mod_cast (h q hq).le)
  have hhigh := roundInt64_lt x
  rw [fitsInt64, Bool.and_eq_true, decide_eq_true_eq, decide_eq_true_eq, pow2_eq]
  omega

/-- A switch goes by its number, by a name or to the next costume. -/
theorem goes_switchBlock (h : t.InRange) (hlen : t.costumes.length < 2 ^ 52) (v : Value)
    (hv : (switchBlock v).Bounded) : (switchBlock v).Goes t := by
  by_cases hnum : ∃ n, v = .num n
  · obtain ⟨n, rfl⟩ := hnum
    refine .byNumber rfl (fitsInt64_of_lt fun q hq => ?_) rfl
    exact hv hq.isNumeric q (hq.toNumber.symm ▸ hq)
  have hne : ∀ n, v ≠ .num n := fun n hn => hnum ⟨n, hn⟩
  have hswitch := Target.switchCostume_eq_ite hne t
  have hnumber := number?_switchBlock hne t
  by_cases hfound : (t.setCostumeName v.text).1 = true
  · rw [if_pos hfound] at hswitch hnumber
    exact .byName v.text hnumber hswitch
  rw [if_neg hfound] at hswitch hnumber
  by_cases hnext : v.text = "next costume"
  · rw [if_pos hnext] at hswitch hnumber
    exact .oneStep hnumber hswitch
  rw [if_neg hnext] at hswitch hnumber
  by_cases hprevious : v.text = "previous costume"
  · rw [if_pos hprevious] at hswitch hnumber
    refine .byNumber hnumber (fitsInt64_of_lt fun q hq => ?_) hswitch
    rw [Target.InRange] at h
    have hsum := hq.unique (hasValue_doubleOfNat_add (by omega))
    have hnonneg : 0 ≤ q := hsum ▸ by positivity
    linarith
  rw [if_neg hprevious] at hswitch hnumber
  by_cases hnumeric : v.isNumeric = true
  · rw [if_pos hnumeric] at hswitch hnumber
    exact .byNumber hnumber (fitsInt64_of_lt (hv hnumeric)) hswitch
  · rw [if_neg hnumeric] at hswitch hnumber
    refine .byName v.text hnumber (hswitch.trans ?_)
    rw [Target.setCostumeName_of_not_found hfound]

theorem goes (h : t.InRange) (hlen : t.costumes.length < 2 ^ 52) (hm : m.Bounded) : m.Goes t := by
  cases m with
  | numbered x => exact .byNumber rfl (fitsInt64_of_lt hm) rfl
  | named name => exact .byName name rfl rfl
  | next => exact .oneStep rfl rfl
  | switchBlock v => exact goes_switchBlock h hlen v hm
  | nextBlock => exact .oneStep rfl rfl

/-- However a move selects, it turns the target. -/
theorem Goes.turns (hm : m.Goes t) (h : t.InRange) : ∃ k, m.apply t = t.turnedTo k := by
  have hself : ∃ k, t = t.turnedTo k := ⟨t.costume, h.turnedTo_self.symm⟩
  cases hm with
  | byNumber _ _ happly =>
    rw [happly, h.setCostumeNumber_eq]
    split
    · exact ⟨_, rfl⟩
    · exact hself
  | byName name _ happly =>
    rw [happly, Target.setCostumeName]
    cases hi : t.costumeIndex? name with
    | some i => exact ⟨i, (Target.turnedTo_natCast (Target.costumeIndex?_lt hi)).symm⟩
    | none => exact hself
  | oneStep _ happly => exact ⟨_, happly.trans h.nextCostume_eq⟩

/-! ### Sequences of moves -/

theorem foldl_apply_eq (h : t.InRange) (hlen : t.costumes.length < 2 ^ 52)
    (moves : List CostumeMove) (hmoves : ∀ m ∈ moves, m.Bounded) :
    ∃ k, moves.foldl (fun t m => m.apply t) t = t.turnedTo k := by
  induction moves using List.reverseRecOn with
  | nil => exact ⟨t.costume, h.turnedTo_self.symm⟩
  | append_singleton moves m ih =>
    obtain ⟨j, hj⟩ := ih fun m' hm' => hmoves m' (List.mem_append_left _ hm')
    rw [List.foldl_append, List.foldl_cons, List.foldl_nil, hj]
    have hrange : (t.turnedTo j).InRange := h.lt j
    have hgoes := goes hrange hlen (hmoves m (List.mem_append_right _ (List.mem_singleton_self m)))
    obtain ⟨k, hk⟩ := hgoes.turns hrange
    have hturn := h.turnedTo_turnedTo j (k - (t.turnedTo j).costume)
    rw [add_sub_cancel] at hturn
    exact ⟨_, hk.trans hturn⟩

theorem run_eq (m : CostumeMove) (cx : Context) : ∃ cx',
    m.run cx = some (.ok (.done .null), cx') ∧ cx'.target = cx.target ∧
      cx'.scene = cx.scene.modifyTarget cx.target m.apply := by
  have hredraw (cx : Context) : cx.redrawIfVisible.target = cx.target := by
    rw [Context.redrawIfVisible]
    split <;> rfl
  cases m with
  | numbered x => exact ⟨_, rfl, rfl, rfl⟩
  | named name => exact ⟨_, rfl, rfl, rfl⟩
  | next => exact ⟨_, rfl, rfl, rfl⟩
  | switchBlock v => exact ⟨_, rfl, hredraw _, Context.redrawIfVisible_scene _⟩
  | nextBlock => exact ⟨_, rfl, hredraw _, Context.redrawIfVisible_scene _⟩

end CostumeMove

/-- The context after moves, one after the other. -/
def Context.afterMoves (cx : Context) (moves : List CostumeMove) : Context :=
  moves.foldl (fun cx m => (m.run cx).elim cx Prod.snd) cx

theorem Scene.modifyTarget_of_target? {s : Scene} {i : ℕ} {t : Target} (h : s.target? i = some t)
    (f : Target → Target) : s.modifyTarget i f = s.modifyTarget i fun _ => f t := by
  calc s.modifyTarget i f = (s.modifyTarget i fun _ => t).modifyTarget i f := by
        have hown := s.modifyTarget_own i
        rw [h, Option.getD_some] at hown
        rw [hown]
    _ = s.modifyTarget i fun _ => f t := s.modifyTarget_modifyTarget i _ f

/-- Only the running target takes part, and it goes through the moves. -/
theorem Context.scene_afterMoves {cx : Context} {t : Target}
    (ht : cx.scene.target? cx.target = some t) (moves : List CostumeMove) :
    (cx.afterMoves moves).scene =
      cx.scene.modifyTarget cx.target fun _ => moves.foldl (fun t m => m.apply t) t := by
  induction moves generalizing cx t with
  | nil =>
    have hown := cx.scene.modifyTarget_own cx.target
    rw [ht] at hown
    exact hown.symm
  | cons m rest ih =>
    obtain ⟨cx', hrun, htarget, hscene⟩ := m.run_eq cx
    rw [Scene.modifyTarget_of_target? ht] at hscene
    have ht' : cx'.scene.target? cx'.target = some (m.apply t) := by
      rw [htarget, hscene, Scene.target?_modifyTarget_self, ht]
      rfl
    have hafter : cx.afterMoves (m :: rest) = cx'.afterMoves rest := by
      rw [Context.afterMoves, List.foldl_cons, hrun]
      rfl
    rw [hafter, ih ht', htarget, hscene, Scene.modifyTarget_modifyTarget]
    rfl

/-- The costumes of a target are selected around a ring.  Whatever selects one, as operations of the
target or as blocks of the library, leaves it in the list and changes nothing else of the scene; and
as long as the given numbers are not finite or above a bound of nineteen digits, what is computed from
them stays in 64 bits.  A whole number selects the position before it, counted around the list; the
number that is reported for a costume selects it again; and, unless costumes have these names, a switch
to the next and one to the previous costume undo each other. -/
theorem costumes_turn_in_a_ring {cx : Context} {t : Target}
    (ht : cx.scene.target? cx.target = some t) (h : t.InRange)
    (hlen : t.costumes.length < 2 ^ 52) :
    (∀ moves : List CostumeMove, (∀ m ∈ moves, m.Bounded) →
      ∃ c < t.costumes.length,
        (cx.afterMoves moves).scene =
          cx.scene.modifyTarget cx.target (fun _ => { t with costume := c }) ∧
        ∀ m : CostumeMove, m.Bounded →
          m.run (cx.afterMoves moves) =
            some (.ok (.done .null), cx.afterMoves (moves ++ [m])) ∧
          m.Goes { t with costume := c }) ∧
    (∀ k : ℤ, k.natAbs ≤ 2 ^ 53 → HasValue (doubleOfInt k) k ∧ ∀ x, HasValue x k →
      t.setCostumeNumber x =
        { t with costume := ((k - 1) % (t.costumes.length : ℤ)).toNat }) ∧
    (∃ x, cx.Reports "looks_costumenumbername" [("NUMBER_NAME", .str "number")] (.num x) ∧
      HasValue x ((t.costume + 1 : ℕ) : ℤ) ∧
      (cx.afterMoves [.switchBlock (.num x)]).scene = cx.scene) ∧
    ("next costume" ∉ t.costumes → "previous costume" ∉ t.costumes →
      (cx.afterMoves [.switchBlock (.str "next costume"),
        .switchBlock (.str "previous costume")]).scene = cx.scene ∧
      (cx.afterMoves [.switchBlock (.str "previous costume"),
        .switchBlock (.str "next costume")]).scene = cx.scene) := by
  have hlt := h
  rw [Target.InRange] at hlt
  have hself : cx.self = t := by rw [Context.self, ht, Option.getD_some]
  have hown : (cx.scene.modifyTarget cx.target fun _ => t) = cx.scene := by
    have hmodify := cx.scene.modifyTarget_own cx.target
    rwa [ht] at hmodify
  refine ⟨fun moves hmoves => ?moves, fun k hk => ⟨hasValue_doubleOfInt_of_le hk, fun x hx => ?number⟩,
    ?reported, fun hnext hprevious => ⟨?forward, ?backward⟩⟩
  case moves =>
    obtain ⟨k, hk⟩ := CostumeMove.foldl_apply_eq h hlen moves hmoves
    refine ⟨_, h.lt k, ?_, fun m hm => ⟨?_, ?_⟩⟩
    · rw [Context.scene_afterMoves ht, hk, Target.turnedTo]
    · obtain ⟨cx', hrun, -⟩ := m.run_eq (cx.afterMoves moves)
      rw [Context.afterMoves, Context.afterMoves, List.foldl_append, List.foldl_cons, List.foldl_nil,
        ← Context.afterMoves, hrun]
      rfl
    · exact CostumeMove.goes (t := t.turnedTo k) (h.lt k) hlen hm
  case number =>
    have hsmall : k.natAbs < 2 ^ 63 := lt_of_le_of_lt hk (by norm_num)
    exact h.setCostumeNumber_of_hasValue hx (fitsInt64_of_natAbs_lt hsmall)
  case reported =>
    have hone : (1 : Float) = doubleOfNat 1 := by decide +kernel
    refine ⟨doubleOfNat t.costume + doubleOfNat 1, ?_, hasValue_doubleOfNat_add (by omega), ?_⟩
    · rw [← hone, ← hself]
      rfl
    · have hturn : ((t.costume + 1 : ℕ) : ℤ) - 1 = t.costume := by omega
      rw [Context.scene_afterMoves ht, List.foldl_cons, List.foldl_nil, CostumeMove.apply,
        Target.switchCostume, h.setCostumeNumber_sum (by omega), hturn, h.turnedTo_self, hown]
  case forward =>
    rw [Context.scene_afterMoves ht, List.foldl_cons, List.foldl_cons, List.foldl_nil,
      CostumeMove.apply, CostumeMove.apply, h.switchCostume_next hnext,
      Target.InRange.switchCostume_previous (t := t.turnedTo _) (h.lt _) hlen hprevious,
      h.turnedTo_back (add_neg_cancel 1), hown]
  case backward =>
    rw [Context.scene_afterMoves ht, List.foldl_cons, List.foldl_cons, List.foldl_nil,
      CostumeMove.apply, CostumeMove.apply, h.switchCostume_previous hlen hprevious,
      Target.InRange.switchCostume_next (t := t.turnedTo _) (h.lt _) hnext,
      h.turnedTo_back (neg_add_cancel 1), hown]

/-- A sprite in the last of three costumes. -/
def Target.trio : Target :=
  { Target.sprite "Cat" with costumes := ["front", "side", "back"], costume := 2 }

def Context.trio : Context := { world := { scene := { targets := [.trio] } }, target := 0 }

/-- Counted around three costumes, the number -4 selects the second one.  Moves by an infinity, by a
text that spells a number and by one step leave some costume of the three, and a step from the last
one and back ends at the last one. -/
theorem costumes_turn_in_a_ring_trio :
    Target.trio.setCostumeNumber (doubleOfInt (-4)) = { Target.trio with costume := 1 } ∧
    (∃ c < 3, (Context.trio.afterMoves
        [.numbered negInfinity, .switchBlock (.str " -2 "), .nextBlock]).scene =
      Context.trio.scene.modifyTarget 0 fun _ => { Target.trio with costume := c }) ∧
    (Context.trio.afterMoves [.switchBlock (.str "next costume"),
      .switchBlock (.str "previous costume")]).scene = Context.trio.scene := by
  have hrange : Target.trio.InRange := Nat.lt_succ_self 2
  have ht : Context.trio.scene.target? Context.trio.target = some .trio := rfl
  obtain ⟨hmoves, hnumber, -, hback⟩ := costumes_turn_in_a_ring ht hrange (by decide)
  obtain ⟨hvalue, hselects⟩ := hnumber (-4) (by decide)
  refine ⟨hselects _ hvalue, ?_, (hback (by decide) (by decide)).1⟩
  have hinfinite : (CostumeMove.numbered negInfinity).Bounded := by
    rintro q ⟨d, hd, -⟩
    have hnone : Dyad.ofFloat? negInfinity = none := by decide +kernel
    rw [hnone] at hd
    cases hd
  have hspelled : (CostumeMove.switchBlock (.str " -2 ")).Bounded := by
    rintro - q hq
    have hminus : HasValue (Value.str " -2 ").toNumber (-2) :=
      ⟨⟨true, 2 ^ 52, -51⟩, by decide +kernel, by norm_num [Dyad.value, Dyad.signed]⟩
    rw [hq.unique hminus]
    norm_num
  obtain ⟨c, hc, hscene, -⟩ :=
    hmoves [.numbered negInfinity, .switchBlock (.str " -2 "), .nextBlock] (by
      simp only [List.mem_cons, List.not_mem_nil, or_false, forall_eq_or_imp, forall_eq]
      exact ⟨hinfinite, hspelled, trivial⟩)
  exact ⟨c, hc, hscene⟩

end Blockwork
