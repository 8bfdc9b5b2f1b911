import DocDrift.Complaint
import DocDrift.Json.Reader
import DocDrift.Json.Value

/-!
# Codecs

A codec says how the values of a type are written and how they are read. Records are written as
objects with their fields in order, and read from objects, in any order, or from arrays.
-/

namespace DocDrift.Json

open Complaint
open Text (octets)

structure Codec (α : Type) where
  write : α → Json
  read : Reader α

namespace Reader

def Number.describe : Number → String
  | .natural n => Complaint.integer n
  | .negative n => Complaint.integer (-n)
  | .float f => Complaint.float .compact f

/-- Complains that the next value, whatever it is, is not of the expected type. -/
def refuse {α : Type} (expected : String) : Reader α :=
  settled do
    match ← look with
    | some 'n' => skip; wordRest "ull".toList; complain (wrongType "null" expected)
    | some 't' =>
      skip; wordRest "rue".toList; complain (wrongType (boolean true) expected)
    | some 'f' =>
      skip; wordRest "alse".toList; complain (wrongType (boolean false) expected)
    | some '-' => skip; complain (wrongType (← number false).describe expected)
    | some '"' => skip; complain (wrongType (text (← stringBody)) expected)
    | some '[' => complain (wrongType "sequence" expected)
    | some '\x7b' => complain (wrongType "map" expected)
    | some c =>
      if c.isDigit then complain (wrongType (← number true).describe expected)
      else failNext .expectedValue
    | none => failNext .expectedValue

def peekValue : Reader Char := do
  match ← peek with
  | some c => pure c
  | none => failHere .endInValue

def string (expected : String) : Reader String := do
  if (← peekValue) = '"' then skip; stringBody else refuse expected

def bool : Reader Bool := do
  match ← peekValue with
  | 't' => skip; wordRest "rue".toList; pure true
  | 'f' => skip; wordRest "alse".toList; pure false
  | _ => refuse "a boolean"

def natural (largest : Nat) (expected : String) : Reader Nat :=
  settled do
    let c ← peekValue
    let check (n : Number) : Reader Nat :=
      match n with
      | .natural m => if m ≤ largest then pure m else complain (wrongValue n.describe expected)
      | .negative _ => complain (wrongValue n.describe expected)
      | .float _ => complain (wrongType n.describe expected)
    if c = '-' then skip; check (← number false)
    else if c.isDigit then check (← number true)
    else refuse expected

def optional {α : Type} (r : Reader α) : Reader (Option α) := do
  match ← peek with
  | some 'n' => skip; wordRest "ull".toList; pure none
  | _ => return some (← r)

def endList : Reader Unit := do
  match ← peek with
  | some ']' => skip
  | some ',' =>
    skip
    match ← peek with
    | some ']' => failNext .trailingComma
    | _ => failNext .trailingCharacters
  | some _ => failNext .trailingCharacters
  | none => failHere .endInList

def endObject : Reader Unit := do
  match ← peek with
  | some '\x7d' => skip
  | some ',' => failNext .trailingComma
  | some _ => failNext .trailingCharacters
  | none => failHere .endInObject

/-- Reads what stands between brackets. A complaint about it is placed behind the blanks and the
closing bracket that may follow the place where reading stopped. -/
def enclosed {α : Type} (body : Reader α) (finish : Reader Unit) (settle : List Char → Nat) :
    Reader α := fun s =>
  match body s with
  | .ok (a, s) =>
    match finish s with
    | .ok (_, s) => .ok (a, s)
    | .error e => .error e
  | .error ⟨fault, .inValue rest⟩ => .error ⟨fault, .octetsLeft (settle rest)⟩
  | .error e => .error e

/-- The octets left once blanks and a closing square bracket have been taken. A comma is taken too,
with the blanks behind it. -/
def leftBehindList (s : List Char) : Nat :=
  match s.dropWhile isSpace with
  | ']' :: rest => octets rest
  | ',' :: rest => octets (rest.dropWhile isSpace)
  | rest => octets rest

/-- The octets left once blanks and a closing brace have been taken. -/
def leftBehindObject (s : List Char) : Nat :=
  match s.dropWhile isSpace with
  | '\x7d' :: rest => octets rest
  | rest => octets rest

def inList {α : Type} (body : Reader α) : Reader α := do
  skip
  enclosed body endList leftBehindList

def inObject {α : Type} (body : Reader α) : Reader α := do
  skip
  enclosed body endObject leftBehindObject

/-- Whether a list has a further item; `first` says that none has been read. -/
def nextItem (first : Bool) : Reader Bool := do
  match ← peek with
  | none => failHere .endInList
  | some ']' => pure false
  | some c =>
    if first then pure true
    else if c = ',' then
      skip
      match ← peek with
      | some ']' => failNext .trailingComma
      | some _ => pure true
      | none => failHere .endInValue
    else failNext .expectedListEnd

def nextName (first : Bool) : Reader (Option String) := do
  match ← peek with
  | none => failHere .endInObject
  | some '\x7d' => pure none
  | some c =>
    if first then
      if c = '"' then skip; return some (← stringBody) else failNext .keyNotString
    else if c = ',' then
      skip
      match ← peek with
      | some '"' => skip; return some (← stringBody)
      | some '\x7d' => failNext .trailingComma
      | some _ => failNext .keyNotString
      | none => failHere .endInValue
    else failNext .expectedObjectEnd

def colon : Reader Unit := do
  match ← peek with
  | some ':' => skip
  | some _ => failNext .expectedColon
  | none => failHere .endInObject

def items {α : Type} (r : Reader α) (first : Bool) : Nat → Reader (List α)
  | 0 => pure []
  | fuel + 1 => do
    if ← nextItem first then
      let a ← r
      return a :: (← items r false fuel)
    else pure []

/-- Reads a list. Each item takes a character at least. -/
def list {α : Type} (r : Reader α) : Reader (List α) := do
  if (← peekValue) = '[' then inList fun s => items r true (s.length + 1) s
  else refuse "a sequence"

/-- Reads one of some names: a string, or an object with that name and null. -/
def choice {α : Type} (known : List (String × α)) : Reader α := do
  match ← peek with
  | none => failHere .endInValue
  | some '"' => name
  | some '\x7b' =>
    skip
    let a ← name
    colon
    nullValue
    match ← peek with
    | some '\x7d' => skip; pure a
    | some _ => failHere .expectedValue
    | none => failHere .endInObject
  | some _ => failNext .expectedValue
where
  /-- Reads the name itself. -/
  name : Reader α :=
    settled do
      if (← peekValue) = '"' then
        skip
        let s ← stringBody
        match known.lookup s with
        | some a => pure a
        | none => complain (unknownVariant s (known.map Prod.fst))
      else refuse "variant identifier"
  /-- Reads null. -/
  nullValue : Reader Unit := do
    match ← peekValue with
    | 'n' => skip; wordRest "ull".toList
    | _ => refuse "unit"

/-- Reads a text that holds one value. -/
def whole {α : Type} (r : Reader α) (text : String) : Except ReadError α :=
  let body : Reader α := do
    let a ← r
    match ← peek with
    | none => pure a
    | some _ => failNext .trailingCharacters
  (body.run text.toList).map Prod.fst

end Reader

/-- The fields of a record, each with a codec and perhaps a value to stand in when it is absent. -/
inductive Record : Type → Type 1 where
  | done : Record Unit
  | field {α β : Type} (name : String) (codec : Codec α) (fallback : Option α)
      (rest : Record β) : Record (α × β)

namespace Record

def names : {α : Type} → Record α → List String
  | _, done => []
  | _, field name _ _ rest => name :: rest.names

def members : {α : Type} → Record α → α → List (String × Json)
  | _, done, _ => []
  | _, field name codec _ rest, (a, b) => (name, codec.write a) :: rest.members b

/-- The fields that have been read so far. -/
def Slots : {α : Type} → Record α → Type
  | _, done => Unit
  | _, field (α := α) _ _ _ rest => Option α × rest.Slots

def empty : {α : Type} → (r : Record α) → r.Slots
  | _, done => ()
  | _, field _ _ _ rest => (none, rest.empty)

/-- Reads the value of the field with this name into its slot; `unknown` reads that of any other. -/
def readField (name : String) (unknown : Reader Unit) :
    {α : Type} → (r : Record α) → r.Slots → Reader r.Slots
  | _, done, _ => unknown
  | _, field key codec _ rest, slots =>
    if name = key then
      if slots.1.isSome then Reader.complain (duplicateField key)
      else do
        Reader.colon
        return (some (← codec.read), slots.2)
    else do return (slots.1, ← readField name unknown rest slots.2)

/-- The record in the slots, or the name of the first field that is missing. -/
def complete : {α : Type} → (r : Record α) → r.Slots → Except String α
  | _, done, _ => .ok ()
  | _, field name _ fallback rest, slots =>
    match slots.1.or fallback with
    | none => .error name
    | some a => (complete rest slots.2).map (a, ·)

def readMembers {α : Type} (r : Record α) (strict first : Bool) (slots : r.Slots) :
    Nat → Reader r.Slots
  | 0 => pure slots
  | fuel + 1 => do
    match ← Reader.nextName first with
    | none => pure slots
    | some name =>
      let unknown : Reader Unit :=
        if strict then Reader.complain (unknownField name r.names)
        else do
          Reader.colon
          Reader.skipValue
      let slots ← readField name unknown r slots
      readMembers r strict false slots fuel

/-- Reads the fields from the items of a list. A missing item is an error unless its field has a
value that stands in. -/
def readItems (complaint : Nat → String) :
    {α : Type} → (r : Record α) → (index : Nat) → (first : Bool) → Reader α
  | _, done, _, _ => pure ()
  | _, field _ codec fallback rest, index, first => do
    if ← Reader.nextItem first then
      let a ← codec.read
      return (a, ← readItems complaint rest (index + 1) false)
    else
      match fallback with
      | some a => return (a, ← readItems complaint rest (index + 1) first)
      | none => Reader.complain (complaint index)

/-- Reads a record called `title`. -/
def read {α : Type} (title : String) (strict : Bool) (r : Record α) : Reader α := do
  match ← Reader.peekValue with
  | '[' => Reader.inList (readItems (tooShort title r.names.length) r 0 true)
  | '\x7b' =>
    Reader.inObject fun s => (do
      let slots ← readMembers r strict true r.empty (s.length + 1)
      match r.complete slots with
      | .ok a => pure a
      | .error name => Reader.complain (missingField name) : Reader α) s
  | _ => Reader.refuse title

end Record

namespace Codec

def string : Codec String := ⟨.string, .string "a string"⟩

def bool : Codec Bool := ⟨.bool, .bool⟩

/-- Whole numbers up to `largest`; `title` names their type. -/
def natural (largest : Nat) (title : String) : Codec Nat := ⟨.number, .natural largest title⟩

def list {α : Type} (c : Codec α) : Codec (List α) := ⟨fun l => .array (l.map c.write), .list c.read⟩

def optional {α : Type} (c : Codec α) : Codec (Option α) where
  write
    | some a => c.write a
    | none => .null
  read := .optional c.read

/-- Values that are written by their name and read by any name in the list. -/
def choice {α : Type} (name : α → String) (known : List (String × α)) : Codec α :=
  ⟨fun a => .string (name a), .choice known⟩

/-- Records of a type that is put together from its fields. A strict record has no other fields. -/
def record {α β : Type} (title : String) (strict : Bool) (r : Record β) (make : β → α)
    (fields : α → β) : Codec α where
  write a := .object (r.members (fields a))
  read := do return make (← r.read title strict)

def encode {α : Type} (c : Codec α) (l : Layout) (a : α) : String := (c.write a).render l

def decode {α : Type} (c : Codec α) (text : String) : Except ReadError α := c.read.whole text

end Codec

end DocDrift.Json
