import Blockwork.Text.Ranges
import Blockwork.Text.WordData

/-!
The characters of words and names, as Unicode classes them.
-/

namespace Blockwork.Text

/-- Whether a character is a letter, or a number that is written with one. -/
def isLetter (c : Char) : Bool := inRanges letterRanges c

/-- Whether a character is alphabetic or numeric. -/
def isAlphanumeric (c : Char) : Bool := isLetter c || inRanges otherAlphanumericRanges c

/-- Whether a character may follow the first letter of a name. -/
def isNameTail (c : Char) : Bool := isLetter c || inRanges nameTailRanges c

end Blockwork.Text
