import Blockwork.Operation

/-!
The meaning of the pure operators.
-/

namespace Blockwork

/-- Floored remainder: it takes the sign of the divisor. -/
def modulo (n m : Float) : Float := n - m * floorDouble (n / m)

/-- Nearest whole number; a half goes up. -/
def roundHalfUp (n : Float) : Float := floorDouble (n + 0.5)

namespace BinaryOp

/-- The value of an operator on two operands. -/
def apply (op : BinaryOp) (a b : Value) : Value :=
  match op with
  | .add => .num (a.toNumber + b.toNumber)
  | .subtract => .num (a.toNumber - b.toNumber)
  | .multiply => .num (a.toNumber * b.toNumber)
  | .divide => .num (a.toNumber / b.toNumber)
  | .modulo => .num (Blockwork.modulo a.toNumber b.toNumber)
  | .less => .bool (a.order b == .lt)
  | .greater => .bool (a.order b == .gt)
  | .equals => .bool (a.looseEq b)
  | .both => .bool (a.toBool && b.toBool)
  | .either => .bool (a.toBool || b.toBool)
  | .join => .str (a.text ++ b.text)

end BinaryOp

namespace UnaryOp

/-- The value of an operator on one operand. -/
def apply (op : UnaryOp) (a : Value) : Value :=
  match op with
  | .negation => .bool (!a.toBool)
  | .length => .num (doubleOfNat a.text.length)
  | .round => .num (roundHalfUp a.toNumber)

end UnaryOp

end Blockwork
