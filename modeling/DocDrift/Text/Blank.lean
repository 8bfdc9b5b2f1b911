/-!
# Blank characters

The Unicode property White_Space, and the removal of blanks at the ends of a text.
-/

namespace DocDrift.Text

/-- Whether the character has the property White_Space. -/
def isBlank (c : Char) : Bool :=
  let n := c.toNat
  (9 ≤ n && n ≤ 13) || n == 32 || n == 0x85 || n == 0xA0 || n == 0x1680 ||
    (0x2000 ≤ n && n ≤ 0x200A) || n == 0x2028 || n == 0x2029 || n == 0x202F || n == 0x205F ||
    n == 0x3000

def trimRight (s : List Char) : List Char :=
  (s.reverse.dropWhile isBlank).reverse

def trim (s : List Char) : List Char :=
  trimRight (s.dropWhile isBlank)

def isBlankLine (s : List Char) : Bool :=
  s.all isBlank

end DocDrift.Text
