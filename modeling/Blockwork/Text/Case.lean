import Blockwork.Text.CaseData
import Blockwork.Text.Ranges

/-!
Letter case: full Unicode lower-casing, and comparison that ignores the case of ASCII letters only.
-/

namespace Blockwork.Text

def isCased (c : Char) : Bool := inRanges casedRanges c

def isCaseIgnorable (c : Char) : Bool := inRanges caseIgnorableRanges c

/-- Lower-case form of one character out of context.  Capital I with a dot keeps its dot as a mark. -/
def lowerChar (c : Char) : List Char :=
  if c.toNat < 0x80 then [c.toLower]
  else if c.toNat = 0x130 then ['i', Char.ofNat 0x307]
  else
    let n := c.toNat
    match lowerRuns.find? fun r => decide (r.first ≤ n) && decide (n ≤ r.last) with
    | some r => if (n - r.first) % r.step = 0 then [Char.ofNat (n + r.shift).toNat] else [c]
    | none => [c]

/-- Whether the first character that is not case-ignorable is a cased one. -/
def meetsCased (cs : List Char) : Bool :=
  match cs.dropWhile isCaseIgnorable with
  | c :: _ => isCased c
  | [] => false

/-- Lower-cases the text after `before`, which is kept reversed.  A capital sigma that ends a word
becomes a final sigma. -/
def lowerFrom (before : List Char) : List Char → List Char
  | [] => []
  | c :: rest =>
    let lowered :=
      if c.toNat = 0x3a3 then
        [Char.ofNat (if meetsCased before && !meetsCased rest then 0x3c2 else 0x3c3)]
      else lowerChar c
    lowered ++ lowerFrom (c :: before) rest

/-- Full Unicode lower-casing. -/
def lowercase (s : String) : String := String.ofList (lowerFrom [] s.toList)

/-- Equality up to the case of ASCII letters. -/
def eqIgnoringCase (a b : String) : Bool := a.toList.map Char.toLower == b.toList.map Char.toLower

end Blockwork.Text
