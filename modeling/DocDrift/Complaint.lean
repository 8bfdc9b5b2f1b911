import DocDrift.Decimal.Shortest

/-!
# Complaints

The wording of complaints about values that do not have the expected form, whatever notation they
are written in.
-/

namespace DocDrift.Complaint

/-- Text in double quotes, with the escapes that a debugger would show. -/
def shown (s : String) : String :=
  let char (c : Char) : String :=
    match c with
    | '"' => "\\\""
    | '\\' => "\\\\"
    | '\n' => "\\n"
    | '\r' => "\\r"
    | '\t' => "\\t"
    | '\x00' => "\\0"
    | c =>
      if c.toNat < 32 ∨ (127 ≤ c.toNat ∧ c.toNat < 160) ∨ c = '\u00AD' ∨ c = '\uFEFF' ∨
          (0x200B ≤ c.toNat ∧ c.toNat ≤ 0x200F) ∨ (0x2028 ≤ c.toNat ∧ c.toNat ≤ 0x202E) ∨
          (0x2060 ≤ c.toNat ∧ c.toNat ≤ 0x206F) then
        "\\u\x7b" ++ String.ofList (Nat.toDigits 16 c.toNat) ++ "\x7d"
      else c.toString
  "\"" ++ String.join (s.toList.map char) ++ "\""

/-- A name in grave accents. -/
def ticked (s : String) : String := "\x60" ++ s ++ "\x60"

/-- The names among which one had to be chosen. -/
def oneOf (names : List String) : String :=
  match names with
  | [] => "none"
  | [a] => ticked a
  | [a, b] => ticked a ++ " or " ++ ticked b
  | names => "one of " ++ ", ".intercalate (names.map ticked)

def wrongType (found expected : String) : String := s!"invalid type: {found}, expected {expected}"

def wrongValue (found expected : String) : String :=
  s!"invalid value: {found}, expected {expected}"

def unknownVariant (name : String) (known : List String) : String :=
  s!"unknown variant {ticked name}, expected {oneOf known}"

def unknownField (name : String) (known : List String) : String :=
  if known.isEmpty then s!"unknown field {ticked name}, there are no fields"
  else s!"unknown field {ticked name}, expected {oneOf known}"

def duplicateField (name : String) : String := s!"duplicate field {ticked name}"

def missingField (name : String) : String := s!"missing field {ticked name}"

/-- The complaint about a list with too few items for the fields of a record. -/
def tooShort (title : String) (fields found : Nat) : String :=
  s!"invalid length {found}, expected {title} with {fields} " ++
    (if fields = 1 then "element" else "elements")

def integer (n : Int) : String := "integer " ++ ticked (toString n)

def float (format : Decimal.Format) (f : Float) : String :=
  let digits :=
    if f.isNaN then "NaN"
    else if f.isInf then (if f < 0 then "-inf" else "inf")
    else (Decimal.shortest f).render format
  "floating point " ++ ticked digits

def boolean (b : Bool) : String := "boolean " ++ ticked (toString b)

def text (s : String) : String := "string " ++ shown s

end DocDrift.Complaint
