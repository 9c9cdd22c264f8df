/-
White space in the sense of Unicode.

* `isWhiteSpace`: the characters with the property `White_Space`.
* `isBlankText`, `trimEnd`: texts of nothing else, and texts without such an
  end.
-/
namespace ClosureCalc

/-- Whether a character has the Unicode property `White_Space`. -/
def isWhiteSpace (c : Char) : Bool :=
  let n := c.toNat
  (decide (0x9 ≤ n) && decide (n ≤ 0xd)) || n == 0x20 || n == 0x85 || n == 0xa0 ||
    n == 0x1680 || (decide (0x2000 ≤ n) && decide (n ≤ 0x200a)) || n == 0x2028 ||
    n == 0x2029 || n == 0x202f || n == 0x205f || n == 0x3000

/-- Whether a text holds nothing but white space. -/
def isBlankText (text : String) : Bool := text.toList.all isWhiteSpace

/-- A text without the white space at its end. -/
def trimEnd (text : String) : String :=
  String.ofList (text.toList.reverse.dropWhile isWhiteSpace).reverse

end ClosureCalc
