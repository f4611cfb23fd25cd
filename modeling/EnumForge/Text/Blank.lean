/-!
White space in the sense of Unicode, and the two things done with it: cutting it off at the ends of
a text and cutting a text into words.
-/

namespace EnumForge.Text

/-- The characters with the property `White_Space`. -/
def isBlank (c : Char) : Bool :=
  let n := c.toNat
  (0x9 ≤ n && n ≤ 0xD) || n == 0x20 || n == 0x85 || n == 0xA0 || n == 0x1680 ||
    (0x2000 ≤ n && n ≤ 0x200A) || n == 0x2028 || n == 0x2029 || n == 0x202F || n == 0x205F ||
    n == 0x3000

/-- The text without blanks at either end. -/
def trim (s : String) : String :=
  .ofList ((s.toList.dropWhile isBlank).reverse.dropWhile isBlank).reverse

/-- The longest runs of characters that are not blank. -/
def words (s : String) : List String :=
  ((s.toList.splitOnP isBlank).filter (!·.isEmpty)).map .ofList

end EnumForge.Text
