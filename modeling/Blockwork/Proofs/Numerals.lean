import Blockwork.Proofs.LooseOrder
import Blockwork.Proofs.Variables
import Blockwork.Proofs.WholeDoubles

/-!
Whole numbers through text.

A whole double below `10 ^ 16` has its plain numeral as its text (`numberText_of_hasValue`).  A numeral
of so few digits is read as the double of its value, whatever blanks stand around it
(`spelledNumber?_numeral`): its digits have this value, no word is spelled with digits, and the
rounding is exact, because the number was a double to begin with.  So a whole number that has been
stored as text is the same number again wherever a number is read.
-/

namespace Blockwork

/-! ### Blanks -/

namespace Text

theorem dropWhile_isBlank_append {u : List Char} (hu : u.all isBlank = true) {c : Char}
    (hc : isBlank c = false) (rest : List Char) :
    (u ++ c :: rest).dropWhile isBlank = c :: rest := by
  rw [List.dropWhile_append_of_pos (List.all_eq_true.mp hu), List.dropWhile_cons, hc,
    if_neg Bool.false_ne_true]

/-- Blanks around a text without blanks are what is cut off. -/
theorem trim_append {u w cs : List Char} (hu : u.all isBlank = true) (hw : w.all isBlank = true)
    (hne : cs ≠ []) (hcs : ∀ c ∈ cs, isBlank c = false) : trim (u ++ cs ++ w) = cs := by
  obtain ⟨first, rest, hfirst⟩ := List.exists_cons_of_ne_nil hne
  obtain ⟨last, before, hlast⟩ := List.exists_cons_of_ne_nil (List.reverse_ne_nil_iff.mpr hne)
  have hleft : (u ++ cs ++ w).dropWhile isBlank = cs ++ w := by
    rw [List.append_assoc, hfirst, List.cons_append]
    exact dropWhile_isBlank_append hu (hcs first (hfirst ▸ List.mem_cons_self ..)) _
  have hright : (cs ++ w).reverse.dropWhile isBlank = cs.reverse := by
    have hmem : last ∈ cs := List.mem_reverse.mp (hlast ▸ List.mem_cons_self ..)
    rw [List.reverse_append, hlast]
    exact dropWhile_isBlank_append (by rwa [List.all_reverse]) (hcs last hmem) _
  rw [trim, hleft, hright, List.reverse_reverse]

end Text

theorem isBlank_of_isDigit {c : Char} (h : c.isDigit = true) : Text.isBlank c = false := by
  have hcode : 48 ≤ c.toNat ∧ c.toNat ≤ 57 := by
    rw [Char.isDigit] at h
    simpa [UInt32.le_iff_toNat_le] using h
  simp only [Text.isBlank, Bool.or_eq_false_iff, Bool.and_eq_false_iff, decide_eq_false_iff_not]
  omega

theorem not_isUpper_of_isDigit {c : Char} (h : c.isDigit = true) : ¬c.isUpper = true := by
  rw [Char.isDigit, Bool.and_eq_true, decide_eq_true_eq, decide_eq_true_eq] at h
  rw [Char.isUpper, decide_eq_true_eq]
  rintro ⟨hletter, -⟩
  exact absurd (UInt32.le_trans hletter h.2) (by decide)

/-! ### Reading numerals -/

theorem digitsValue_toDigits (n : ℕ) : digitsValue (Nat.toDigits 10 n) = n :=
  Nat.ofDigitChars_ten_toDigits

theorem isDigit_toDigits (n : ℕ) : ∀ c ∈ Nat.toDigits 10 n, c.isDigit = true :=
  fun _ => Nat.isDigit_of_mem_toDigits (by decide) (by decide)

theorem decimalDouble_whole (negative : Bool) {n : ℕ} (h : n < 10 ^ 16) :
    decimalDouble negative n 0 = nearest negative n 1 := by
  have hlen : (Nat.toDigits 10 n).length ≤ 16 :=
    (Nat.length_toDigits_le_iff (by decide) (by decide)).mpr h
  rw [decimalDouble]
  simp only [Int.add_zero]
  by_cases hzero : n = 0
  · rw [if_pos (.inl hzero), hzero]
  · rw [if_neg (by omega), if_neg (by omega)]
    simp [pow10]

theorem readUnsigned_toDigits (negative : Bool) {n : ℕ} (h : n < 10 ^ 16) :
    readUnsigned negative (Nat.toDigits 10 n) = some (nearest negative n 1) := by
  have htake : (Nat.toDigits 10 n).takeWhile Char.isDigit = Nat.toDigits 10 n :=
    List.takeWhile_eq_self_iff.mpr (isDigit_toDigits n)
  have hdrop : (Nat.toDigits 10 n).dropWhile Char.isDigit = [] :=
    List.dropWhile_eq_nil_iff.mpr (isDigit_toDigits n)
  rw [readUnsigned]
  simp [htake, hdrop, Nat.toDigits_ne_nil, readExponent, digitsValue_toDigits,
    decimalDouble_whole negative h]

/-- A run of digits is none of the words that spell a double. -/
theorem ofList_ne_of_isDigit {ds : List Char} (hds : ∀ c ∈ ds, c.isDigit = true) {word : String}
    (hword : word.toList.any (fun c => !c.isDigit) = true) :
    String.ofList (ds.map Char.toLower) ≠ word := by
  have hlower : ds.map Char.toLower = ds := by
    refine (List.map_congr_left fun c hc => ?_).trans (List.map_id ds)
    exact Char.toLower_eq_of_not_isUpper (not_isUpper_of_isDigit (hds c hc))
  rw [hlower]
  rintro rfl
  rw [String.toList_ofList] at hword
  obtain ⟨c, hc, hletter⟩ := List.any_eq_true.mp hword
  rw [hds c hc] at hletter
  cases hletter

theorem readDouble_of_readSign {cs : List Char} {negative : Bool} {n : ℕ} (h : n < 10 ^ 16)
    (hsign : readSign cs = (negative, Nat.toDigits 10 n)) :
    readDouble cs = some (nearest negative n 1) := by
  have hdigits := isDigit_toDigits n
  simp only [readDouble, hsign]
  rw [if_neg, if_neg (ofList_ne_of_isDigit hdigits rfl), readUnsigned_toDigits negative h]
  exact not_or.mpr ⟨ofList_ne_of_isDigit hdigits rfl, ofList_ne_of_isDigit hdigits rfl⟩

theorem toList_toString (k : ℤ) :
    (toString k).toList = (if k < 0 then ['-'] else []) ++ Nat.toDigits 10 k.natAbs := by
  rw [Int.toString_eq_repr, Int.repr_eq_if]
  by_cases h : k < 0
  · rw [if_neg (by omega), if_pos h, String.toList_append, Nat.toList_repr,
      show (-k).toNat = k.natAbs by omega]
    rfl
  · rw [if_pos (by omega), if_neg h, Nat.toList_repr, show k.toNat = k.natAbs by omega]
    rfl

theorem readSign_toString (k : ℤ) :
    readSign (toString k).toList = (decide (k < 0), Nat.toDigits 10 k.natAbs) := by
  rw [toList_toString]
  by_cases h : k < 0
  · rw [if_pos h, decide_eq_true h]
    rfl
  · rw [if_neg h, decide_eq_false h, List.nil_append]
    have hne : Nat.toDigits 10 k.natAbs ≠ [] := Nat.toDigits_ne_nil
    obtain ⟨c, rest, hcons⟩ := List.exists_cons_of_ne_nil hne
    have hdigit := isDigit_toDigits k.natAbs c (hcons ▸ List.mem_cons_self ..)
    rw [hcons, readSign]
    · rintro rest' ⟨⟩
      exact absurd hdigit (by decide)
    · rintro rest' ⟨⟩
      exact absurd hdigit (by decide)

theorem readDouble_toString {k : ℤ} (hk : k.natAbs < 10 ^ 16) :
    readDouble (toString k).toList = some (doubleOfInt k) :=
  readDouble_of_readSign hk (readSign_toString k)

theorem isBlank_toString (k : ℤ) : ∀ c ∈ (toString k).toList, Text.isBlank c = false := by
  intro c hc
  rw [toList_toString, List.mem_append] at hc
  rcases hc with hsign | hdigit
  · split at hsign
    · rw [List.mem_singleton.mp hsign]
      rfl
    · cases hsign
  · exact isBlank_of_isDigit (isDigit_toDigits _ c hdigit)

theorem toList_toString_ne_nil (k : ℤ) : (toString k).toList ≠ [] := by
  rw [toList_toString]
  exact List.append_ne_nil_of_right_ne_nil _ Nat.toDigits_ne_nil

/-! ### Text of whole numbers -/

section

variable {x : Float} {k : ℤ} (hx : HasValue x k) (hk : k.natAbs < 10 ^ 16)
include hx hk

theorem hasValue_doubleOfInt_of_hasValue : HasValue (doubleOfInt k) k := by
  have hlog : k.natAbs.log2 ≤ 63 := log2_le_of_lt (lt_trans hk (by norm_num))
  exact hx.doubleOfInt (by omega)

theorem eq_doubleOfInt_of_hasValue (hneg : x ≠ -0) : x = doubleOfInt k := by
  have hlog : k.natAbs.log2 ≤ 63 := log2_le_of_lt (lt_trans hk (by norm_num))
  exact hx.eq_doubleOfInt (by omega) hneg

theorem numberText_of_hasValue : numberText x = toString k := by
  obtain ⟨d, hd, hvalue⟩ := hx
  rw [numberText, hd]
  simp only [Dyad.toInt?_of_value hvalue]
  exact if_pos hk

theorem spelledNumber?_numeral {u w : String} (hu : u.toList.all Text.isBlank = true)
    (hw : w.toList.all Text.isBlank = true) :
    spelledNumber? (u ++ toString k ++ w) = some (doubleOfInt k) := by
  have hnan := (hasValue_doubleOfInt_of_hasValue hx hk).isNaN
  rw [spelledNumber?, String.toList_append, String.toList_append,
    Text.trim_append hu hw (toList_toString_ne_nil k) (isBlank_toString k), readDouble_toString hk,
    Option.filter_some, hnan]
  rfl

end

/-! ### Values that read back -/

/-- The value reads as a number that is the given one: of the same exact value, equal as a number and
loosely, and the same double unless this is negative zero. -/
structure Value.ReadsBack (v : Value) (x : Float) (k : ℤ) : Prop where
  isNumeric : v.isNumeric = true
  value : HasValue v.toNumber k
  beq : (v.toNumber == x) = true
  eq : x ≠ -0 → v.toNumber = x
  looseEq : v.looseEq (.num x) = true
  looseEq_symm : (Value.num x).looseEq v = true

theorem Value.order_of_beq {a b : Value} (ha : a.isNumeric = true) (hb : b.isNumeric = true)
    (h : (a.toNumber == b.toNumber) = true) : a.order b = .eq := by
  have hplace : a.place = b.place :=
    (Place.beq_iff (toNumber_ne_nan ha) (toNumber_ne_nan hb)).mp h
  rw [order_of_numeric ha hb, hplace, compare_eq_iff_eq]

theorem readsBack_numeral {x : Float} {k : ℤ} (hx : HasValue x k) (hk : k.natAbs < 10 ^ 16)
    {u w : String} (hu : u.toList.all Text.isBlank = true) (hw : w.toList.all Text.isBlank = true) :
    (Value.str (u ++ toString k ++ w)).ReadsBack x k := by
  have hspelled := spelledNumber?_numeral hx hk hu hw
  have hdouble := hasValue_doubleOfInt_of_hasValue hx hk
  have hnumeric : (Value.str (u ++ toString k ++ w)).isNumeric = true := by
    rw [Value.isNumeric, hspelled]
    rfl
  have hnumber : (Value.str (u ++ toString k ++ w)).toNumber = doubleOfInt k := by
    rw [Value.toNumber, hspelled]
    rfl
  have horder : (Value.str (u ++ toString k ++ w)).order (.num x) = .eq := by
    refine Value.order_of_beq hnumeric hx.isNumeric ?_
    rw [hnumber, hx.toNumber]
    exact hdouble.beq hx
  refine ⟨hnumeric, hnumber ▸ hdouble, hnumber ▸ hdouble.beq hx, fun hneg => ?_, ?_, ?_⟩
  · rw [hnumber, ← eq_doubleOfInt_of_hasValue hx hk hneg]
  · rw [Value.looseEq, horder]
    rfl
  · rw [Value.looseEq, Value.order_swap, horder]
    rfl

/-! ### Number slots -/

namespace Shape

/-- Whether the shape is that of a slot for numbers. -/
def isNumberSlot : Shape → Bool
  | .union (.kind .number :: _) => true
  | _ => false

end Shape

/-- Arithmetic operators read their operands as numbers. -/
def BinaryOp.isArithmetic : BinaryOp → Bool
  | .add | .subtract | .multiply | .divide | .modulo => true
  | .less | .greater | .equals | .both | .either | .join => false

/-- Whether a body reads the input of this name as a number or a position, if at all. -/
def Body.readsAsNumber (name : String) : Body → Bool
  | .binary op _ _ => op.isArithmetic
  | .unary op _ => op = .round
  | .wait | .motion _ => true
  | .timerAbove => name ≠ "WHENGREATERTHANMENU"
  | .changeVariable => name ≠ "VARIABLE"
  | .itemOfList => name ≠ "LIST"
  | _ => false

/-- In the library, an input with a slot for numbers is read as a number, or counts a loop. -/
theorem Library.numberSlots_readAsNumbers :
    Library.blocks.all (fun p => p.inputs.all fun e => !e.2.isNumberSlot ||
      match p.operation with
      | .eager body => body.readsAsNumber e.1
      | .repeatTimes => true
      | _ => false) = true := by decide

/-- The inputs are the same, but for one that is the same as a number and as a position. -/
structure Args.SameAsNumber (name : String) (args args' : Args) : Prop where
  value : ∀ other ≠ name, args.value other = args'.value other
  number : ∀ other, args.number other = args'.number other
  position : ∀ other length,
    listIndex? (args.value other) length = listIndex? (args'.value other) length

theorem Motion.apply_of_sameAsNumber {name : String} {args args' : Args}
    (h : args.SameAsNumber name args') (m : Motion) : m.apply args = m.apply args' := by
  funext t
  cases m <;> simp only [Motion.apply, h.number]

theorem BinaryOp.apply_of_toNumber {op : BinaryOp} (hop : op.isArithmetic = true) {a b a' b' : Value}
    (ha : a.toNumber = a'.toNumber) (hb : b.toNumber = b'.toNumber) :
    op.apply a b = op.apply a' b' := by
  cases op with
  | less | greater | equals | both | either | join => cases hop
  | _ => simp only [BinaryOp.apply, ha, hb]

theorem Body.run_of_sameAsNumber {name : String} {args args' : Args}
    (h : args.SameAsNumber name args') {body : Body} (hbody : body.readsAsNumber name = true)
    (opcode : String) (cx : Context) : body.run opcode args cx = body.run opcode args' cx := by
  have htext {other : String} (hne : name ≠ other) : args.text other = args'.text other := by
    rw [Args.text, h.value other hne.symm, Args.text]
  cases body with
  | binary op left right =>
    simp only [Body.run, BinaryOp.apply_of_toNumber hbody (h.number left) (h.number right)]
  | unary op operand =>
    obtain rfl := of_decide_eq_true hbody
    have hoperand : (args.value operand).toNumber = (args'.value operand).toNumber :=
      h.number operand
    simp only [Body.run, UnaryOp.apply, hoperand]
  | wait => simp only [Body.run, h.number]
  | motion m => simp only [Body.run, Motion.apply_of_sameAsNumber h]
  | timerAbove => simp only [Body.run, h.number, htext (of_decide_eq_true hbody)]
  | changeVariable => simp only [Body.run, h.number, htext (of_decide_eq_true hbody)]
  | itemOfList => simp only [Body.run, h.position, htext (of_decide_eq_true hbody)]
  | _ => cases hbody

theorem listIndex?_of_toNumber {a b : Value} (ha : ¬a.IsLast) (hb : ¬b.IsLast)
    (h : a.toNumber = b.toNumber) (length : ℕ) : listIndex? a length = listIndex? b length := by
  refine Option.ext fun p => ?_
  rw [listIndex?_of_not_isLast ha, listIndex?_of_not_isLast hb, Value.IsPosition, Value.IsPosition, h]

theorem Args.sameAsNumber_insert {a b : Value} (ha : ¬a.IsLast) (hb : ¬b.IsLast)
    (h : a.toNumber = b.toNumber) (name : String) (args : Args) :
    Args.SameAsNumber name (Table.insert name a args) (Table.insert name b args) := by
  have hself (v : Value) : Args.value (Table.insert name v args) name = v := by
    rw [Args.value, Table.get?_insert_self, Option.getD_some]
  have hother {other : String} (hne : other ≠ name) (v : Value) :
      Args.value (Table.insert name v args) other = args.value other := by
    rw [Args.value, Table.get?_insert_of_ne _ _ hne, Args.value]
  refine ⟨fun other hne => ?_, fun other => ?_, fun other length => ?_⟩
  · rw [hother hne, hother hne]
  · rw [Args.number, Args.number]
    rcases eq_or_ne other name with rfl | hne
    · rw [hself, hself, h]
    · rw [hother hne, hother hne]
  · rcases eq_or_ne other name with rfl | hne
    · rw [hself, hself, listIndex?_of_toNumber ha hb h]
    · rw [hother hne, hother hne]

/-- A block of the library does the same on inputs that are the same to a slot for numbers. -/
theorem Library.perform_of_sameAsNumber {opcode name : String} {p : Prototype}
    (hp : Library.registry.get? opcode = some p) (hslot : (name, Shape.slot .number) ∈ p.inputs)
    {args args' : Args} (h : args.SameAsNumber name args') (cx : Context) :
    Library.perform opcode args cx = Library.perform opcode args' cx := by
  obtain ⟨q, hq, heq⟩ := List.mem_map.mp (Table.mem_of_get? hp)
  cases heq
  have hreads := List.all_eq_true.mp
    (List.all_eq_true.mp Library.numberSlots_readAsNumbers p hq) _ hslot
  rw [Library.perform, Library.perform, hp]
  cases hop : p.operation with
  | eager body =>
    rw [hop] at hreads
    simp only [Option.map_some, hop, Body.run_of_sameAsNumber h hreads]
  | _ => simp only [Option.map_some, hop]

/-- A whole number survives being stored as text.  Its text is the plain numeral, which is also what
joining it with the empty text gives.  With any blanks around it this text reads as the number: of the
same value, equal to it also loosely, and as the same double unless it is negative zero.  So a library
block does the same with the text in a slot for numbers as with the number, and a counted loop runs as
often. -/
theorem whole_numbers_survive_text {x : Float} {k : ℤ} (hx : HasValue x k)
    (hk : k.natAbs < 10 ^ 16) :
    (Value.num x).text = toString k ∧
    (∀ u w : String, u.toList.all Text.isBlank = true → w.toList.all Text.isBlank = true →
      (Value.str (u ++ (Value.num x).text ++ w)).ReadsBack x k) ∧
    (∀ cx : Context,
      cx.Reports "operator_join" [("STRING1", .num x), ("STRING2", .str "")] (.str (toString k)) ∧
      cx.Reports "operator_join" [("STRING1", .str ""), ("STRING2", .num x)] (.str (toString k))) ∧
    (∀ opcode p name, Library.registry.get? opcode = some p →
      (name, Shape.slot .number) ∈ p.inputs → x ≠ -0 → ∀ (args : Args) (cx : Context),
        Library.perform opcode (Table.insert name (.str (toString k)) args) cx =
          Library.perform opcode (Table.insert name (.num x) args) cx) ∧
    ∀ (b : Block) (cx : Context),
      (Routine.repeatTimes b .count).resume (some (.str (toString k))) cx =
        (Routine.repeatTimes b .count).resume (some (.num x)) cx := by
  have htext : (Value.num x).text = toString k := by
    rw [Value.text, numberText_of_hasValue hx hk]
  have hbare : (Value.str (toString k)).ReadsBack x k := by
    have hpadded := readsBack_numeral hx hk (u := "") (w := "") rfl rfl
    rwa [String.empty_append, String.append_empty] at hpadded
  refine ⟨htext, ?padded, ?joined, ?slots, ?loop⟩
  case padded =>
    intro u w hu hw
    rw [htext]
    exact readsBack_numeral hx hk hu hw
  case joined =>
    intro cx
    have hjoin (a b : Value) : Library.perform "operator_join" [("STRING1", a), ("STRING2", b)] cx =
        some (.ok (.done (.str (a.text ++ b.text))), cx) := rfl
    constructor
    · rw [Context.Reports, hjoin, htext, Value.text, String.append_empty]
    · rw [Context.Reports, hjoin, htext, Value.text, String.empty_append]
  case slots =>
    intro opcode p name hp hslot hneg args cx
    have hnumber : (Value.str (toString k)).toNumber = (Value.num x).toNumber := by
      rw [hbare.eq hneg, hx.toNumber]
    have hnot : ¬(Value.str (toString k)).IsLast := by
      rintro ⟨s, hs, hlast⟩
      cases hs
      have hnumeric := hbare.isNumeric
      rw [Value.isNumeric, Value.spelledNumber?_last hlast] at hnumeric
      cases hnumeric
    have hnot' : ¬(Value.num x).IsLast := by
      rintro ⟨s, hs, -⟩
      cases hs
    exact Library.perform_of_sameAsNumber hp hslot
      (Args.sameAsNumber_insert hnot hnot' hnumber name args) cx
  case loop =>
    intro b cx
    have hfits : fitsInt64 k = true := fitsInt64_of_natAbs_lt (lt_trans hk (by norm_num))
    simp only [Routine.resume, Option.elim_some, hx.toNumber,
      roundInt64_of_hasValue hbare.value hfits, roundInt64_of_hasValue hx hfits]

/-- A negative number beyond `2 ^ 53` is stored, read back between blanks, and multiplied. -/
theorem whole_numbers_survive_text_negative :
    (Value.num (doubleOfInt (-9007199254740994))).text = "-9007199254740994" ∧
    (Value.str "\t-9007199254740994\n").toNumber = doubleOfInt (-9007199254740994) ∧
    ∀ cx, Library.perform "operator_multiply"
        [("NUM1", .str "-9007199254740994"), ("NUM2", .num 3)] cx =
      Library.perform "operator_multiply"
        [("NUM1", .num (doubleOfInt (-9007199254740994))), ("NUM2", .num 3)] cx := by
  have hvalue : HasValue (doubleOfInt (-9007199254740994)) (-9007199254740994 : ℤ) :=
    hasValue_doubleOfInt (by decide) (by decide)
  obtain ⟨htext, hpadded, -, hslots, -⟩ := whole_numbers_survive_text hvalue (by decide)
  have hneg : doubleOfInt (-9007199254740994) ≠ -0 := by decide +kernel
  refine ⟨htext, ?_, fun cx => ?_⟩
  · have hback := hpadded "\t" "\n" rfl rfl
    rw [htext] at hback
    exact hback.eq hneg
  · exact hslots "operator_multiply" _ "NUM1" rfl (List.mem_cons_self ..) hneg
      [("NUM1", .null), ("NUM2", .num 3)] cx

end Blockwork
