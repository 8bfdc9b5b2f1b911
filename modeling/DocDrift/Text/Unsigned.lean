/-!
# Unsigned numbers in text

One or more decimal digits, with a plus sign before them if need be, up to a largest value.
-/

namespace DocDrift.Text

/-- The value of a list of decimal digits behind the value `n`. -/
def digitsValue (n : Nat) : List Char → Option Nat
  | [] => some n
  | c :: rest => if c.isDigit then digitsValue (10 * n + (c.toNat - '0'.toNat)) rest else none

/-- The number that the text writes, if it is not above `largest`. -/
def unsigned? (largest : Nat) (s : List Char) : Option Nat :=
  let digits := match s with
    | '+' :: rest => rest
    | _ => s
  match digits with
  | [] => none
  | _ => (digitsValue 0 digits).filter (· ≤ largest)

end DocDrift.Text
