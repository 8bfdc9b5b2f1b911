/-!
# UTF-8

Octets as characters. A maximal run of octets that begins a character without completing it, and an
octet that can begin none, count as one fault each.
-/

namespace DocDrift.Text

def octets : List Char → Nat
  | [] => 0
  | c :: rest => c.utf8Size + octets rest

namespace Utf8

structure Pending where
  /-- How many octets it lacks. -/
  owed : Nat
  /-- The least value of the next octet. -/
  low : Nat
  /-- The greatest value of the next octet. -/
  high : Nat
  /-- The bits that the octets so far contribute. -/
  value : Nat
deriving DecidableEq, Repr

structure Step where
  /-- The characters completed by the octet, or `none` for a fault. -/
  out : List (Option Char)
  pending : Option Pending

def first (b : Nat) : Step :=
  if b < 0x80 then ⟨[some (Char.ofNat b)], none⟩
  else if 0xC2 ≤ b ∧ b ≤ 0xDF then ⟨[], some ⟨1, 0x80, 0xBF, b - 0xC0⟩⟩
  else if b = 0xE0 then ⟨[], some ⟨2, 0xA0, 0xBF, 0⟩⟩
  else if b = 0xED then ⟨[], some ⟨2, 0x80, 0x9F, 0xD⟩⟩
  else if 0xE1 ≤ b ∧ b ≤ 0xEF then ⟨[], some ⟨2, 0x80, 0xBF, b - 0xE0⟩⟩
  else if b = 0xF0 then ⟨[], some ⟨3, 0x90, 0xBF, 0⟩⟩
  else if 0xF1 ≤ b ∧ b ≤ 0xF3 then ⟨[], some ⟨3, 0x80, 0xBF, b - 0xF0⟩⟩
  else if b = 0xF4 then ⟨[], some ⟨3, 0x80, 0x8F, 4⟩⟩
  else ⟨[none], none⟩

/-- Reads one octet. An octet that does not go on with a character that has begun is read again as
the first one of another. -/
def step (pending : Option Pending) (b : Nat) : Step :=
  match pending with
  | none => first b
  | some p =>
    if p.low ≤ b ∧ b ≤ p.high then
      let value := 64 * p.value + (b - 0x80)
      if p.owed ≤ 1 then ⟨[some (Char.ofNat value)], none⟩
      else ⟨[], some ⟨p.owed - 1, 0x80, 0xBF, value⟩⟩
    else { first b with out := none :: (first b).out }

/-- The characters of a list of octets, with `none` for each fault. -/
def decodeFrom (pending : Option Pending) : List UInt8 → List (Option Char)
  | [] => if pending.isSome then [none] else []
  | b :: rest =>
    let s := step pending b.toNat
    s.out ++ decodeFrom s.pending rest

/-- The characters of a list of octets, if there is no fault. -/
def decode? (octets : List UInt8) : Option (List Char) := (decodeFrom none octets).mapM id

/-- The characters of a list of octets, with the replacement character for each fault. -/
def decode (octets : List UInt8) : List Char :=
  (decodeFrom none octets).map (·.getD '\uFFFD')

end Utf8

end DocDrift.Text
