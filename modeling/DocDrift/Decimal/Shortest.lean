/-!
# Shortest decimals

Among the decimals that read back as a binary floating-point number, the ones with the fewest
digits, and of those the nearest one.
-/

namespace DocDrift

/-- A number `digits * 10 ^ exponent` with a sign. -/
structure Decimal where
  negative : Bool
  digits : Nat
  exponent : Int
deriving DecidableEq, Repr

namespace Decimal

/-- A number `significand * 2 ^ exponent` with a sign, and whether its lower neighbour is only half
as far away as its upper one. -/
structure Binary where
  negative : Bool
  significand : Nat
  exponent : Int
  closeBelow : Bool
deriving DecidableEq, Repr

/-- The number behind the 64 bits of a finite floating-point number. -/
def Binary.ofBits (bits : Nat) : Binary :=
  let fraction : Nat := bits % Nat.pow 2 52
  let scale : Nat := bits / Nat.pow 2 52 % Nat.pow 2 11
  if scale = 0 then ⟨bits / Nat.pow 2 63 = 1, fraction, -1074, false⟩
  else
    ⟨bits / Nat.pow 2 63 = 1, Nat.pow 2 52 + fraction, (scale : Int) - 1075, fraction = 0 ∧ 1 < scale⟩

/-- The quotient `2 ^ q / 10 ^ e` as a fraction of natural numbers. -/
def scaleFraction (q e : Int) : Nat × Nat :=
  (Nat.pow 2 q.toNat * Nat.pow 10 (-e).toNat, Nat.pow 2 (-q).toNat * Nat.pow 10 e.toNat)

/-- Whether `10 ^ e` is not above the number. -/
def Binary.reaches (b : Binary) (e : Int) : Bool :=
  let s := scaleFraction b.exponent e
  s.2 ≤ b.significand * s.1

/-- The decimal point's place: the least `e` not below `start` with the number under `10 ^ e`. -/
def Binary.magnitude (b : Binary) (start : Int) : Nat → Int
  | 0 => start
  | fuel + 1 => if b.reaches start then b.magnitude (start + 1) fuel else start

/-- The decimal with `n` digits nearest to the number, if it reads back as the number. -/
def Binary.withDigits? (b : Binary) (magnitude : Int) (n : Nat) : Option Decimal :=
  let e := magnitude - n
  let s := scaleFraction b.exponent e
  let value := 4 * b.significand * s.1
  let unit := 4 * s.2
  let low := (4 * b.significand - (if b.closeBelow then 1 else 2)) * s.1
  let high := (4 * b.significand + 2) * s.1
  let inside (d : Nat) : Bool :=
    let x := d * unit
    if b.significand % 2 = 0 then low ≤ x && x ≤ high else low < x && x < high
  let below := value / unit
  let decimal (d : Nat) : Decimal := ⟨b.negative, d, e⟩
  let upper := (below + 1) * unit - value
  let lower := value - below * unit
  if inside below && (!inside (below + 1) || lower < upper || (lower = upper && below % 2 = 0)) then
    some (decimal below)
  else if inside (below + 1) then some (decimal (below + 1))
  else none

/-- The decimal without zeros at its end. -/
def stripped (d : Decimal) : Nat → Decimal
  | 0 => d
  | fuel + 1 =>
    if d.digits % 10 = 0 ∧ d.digits ≠ 0 then
      stripped ⟨d.negative, d.digits / 10, d.exponent + 1⟩ fuel
    else d

/-- The shortest decimal that reads back as the number. -/
def Binary.shortest (b : Binary) : Decimal :=
  if b.significand = 0 then ⟨b.negative, 0, 0⟩
  else
    let magnitude := b.magnitude (-324) 700
    let found := (List.range 17).findSome? fun n => b.withDigits? magnitude (n + 1)
    (found.getD ⟨b.negative, b.significand, 0⟩).stripped 20

/-- The shortest decimal that reads back as a finite floating-point number. -/
def shortest (f : Float) : Decimal := (Binary.ofBits f.toBits.toNat).shortest

structure Format where
  /-- Numbers from `10 ^ largest` on have an exponent. -/
  largest : Option Int
  /-- Numbers under `10 ^ smallest` have an exponent. -/
  smallest : Option Int

/-- Without exponents. -/
def Format.positional : Format := ⟨none, none⟩

/-- With exponents for numbers from `10 ^ 16` on and under `10 ^ -5`. -/
def Format.compact : Format := ⟨some 16, some (-5)⟩

/-- The digits with a point behind the first `n` of them. -/
def pointed (digits : List Char) (n : Int) : List Char :=
  if n ≤ 0 then "0.".toList ++ List.replicate (-n).toNat '0' ++ digits
  else if digits.length ≤ n.toNat then
    digits ++ List.replicate (n.toNat - digits.length) '0' ++ ".0".toList
  else digits.take n.toNat ++ '.' :: digits.drop n.toNat

/-- The text of a decimal; there is always a point or an exponent. -/
def render (format : Format) (d : Decimal) : String :=
  let digits := (toString d.digits).toList
  let magnitude := if d.digits = 0 then 1 else d.exponent + digits.length
  let large := format.largest.any (· < magnitude)
  let small := format.smallest.any (magnitude ≤ ·)
  let sign := if d.negative then ['-'] else []
  if large || small then
    let mantissa := match digits with
      | [] => []
      | first :: [] => [first]
      | first :: rest => first :: '.' :: rest
    String.ofList (sign ++ mantissa ++ 'e' :: (toString (magnitude - 1)).toList)
  else String.ofList (sign ++ pointed digits magnitude)

end Decimal

end DocDrift
