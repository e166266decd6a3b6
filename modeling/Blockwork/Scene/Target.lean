import Blockwork.Scene.Script

/-!
Targets: the sprites and the stage, with the state that scripts read and change.
-/

namespace Blockwork

/-- An angle in degrees, wrapped into `(-180, 180]`.  What is not finite points right. -/
def normalizeDirection (degrees : Float) : Float :=
  if !degrees.isFinite then 90
  else
    let r := remainder degrees 360
    let wrapped := if r < 0 then r + 360 else r
    if 180 < wrapped then wrapped - 360 else wrapped

/-- A sprite or the stage. -/
structure Target where
  name : String
  isStage : Bool
  x : Float := 0
  y : Float := 0
  /-- Heading in degrees. -/
  direction : Float := 90
  visible : Bool
  /-- Position in the list of costumes. -/
  costume : Nat := 0
  costumes : List String := []
  vars : Table Value := []
  lists : Table (List Value) := []
  scripts : List Script := []
  deriving Inhabited

namespace Target

def sprite (name : String) : Target := { name, isStage := false, visible := true }

def stage : Target := { name := "Stage", isStage := true, visible := false }

def setDirection (degrees : Float) (t : Target) : Target :=
  { t with direction := normalizeDirection degrees }

/-- The name of the current costume. -/
def costumeName? (t : Target) : Option String := t.costumes[t.costume]?

/-- Selects a costume by its number, counted from 1 and around the list.  The subtraction is that of the
integers, so a number that rounds to `-2 ^ 63` selects a costume too, where 64 bits would overflow. -/
def setCostumeNumber (number : Float) (t : Target) : Target :=
  if t.costumes.isEmpty || !number.isFinite then t
  else { t with costume := ((roundInt64 number - 1) % (t.costumes.length : Int)).toNat }

/-- The position of a costume by name. -/
def costumeIndex? (name : String) (t : Target) : Option Nat :=
  t.costumes.findIdx? (· = name)

/-- Selects a costume by its name, and says whether there is one. -/
def setCostumeName (name : String) (t : Target) : Bool × Target :=
  match t.costumeIndex? name with
  | some i => (true, { t with costume := i })
  | none => (false, t)

/-- Selects the next costume, around the list. -/
def nextCostume (t : Target) : Target :=
  if t.costumes.isEmpty then t
  else { t with costume := (t.costume + 1) % t.costumes.length }

/-- Selects the costume that a value calls for: a number by number; a text by name, else `next
costume`, else `previous costume`, else the number it spells. -/
def switchCostume (v : Value) (t : Target) : Target :=
  match v with
  | .num n => t.setCostumeNumber n
  | other =>
    let (found, named) := t.setCostumeName other.text
    if found then named
    else if other.text = "next costume" then t.nextCostume
    else if other.text = "previous costume" then
      t.setCostumeNumber (doubleOfNat t.costume + doubleOfNat t.costumes.length)
    else if other.isNumeric then t.setCostumeNumber other.toNumber
    else t

end Target

end Blockwork
