namespace FrenchNim

/-!
# White space

White space at the ends of a text is the Unicode property of that name. The
zero width space does not have it.
-/

/-- A white space character. -/
def isWhiteSpace (c : Char) : Bool :=
  let code := c.toNat
  (0x09 ≤ code && code ≤ 0x0D) || code = 0x20 || code = 0x85 || code = 0xA0 ||
    code = 0x1680 || (0x2000 ≤ code && code ≤ 0x200A) || code = 0x2028 || code = 0x2029 ||
    code = 0x202F || code = 0x205F || code = 0x3000

/-- Drop white space at both ends. -/
def trimSpace (text : List Char) : List Char :=
  (((text.dropWhile isWhiteSpace).reverse).dropWhile isWhiteSpace).reverse

/-- Drop white space at both ends of a string. -/
def trimText (text : String) : String :=
  String.ofList (trimSpace text.toList)

end FrenchNim
