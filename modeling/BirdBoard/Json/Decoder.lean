import BirdBoard.Json.ReadError

/-! # Decoders

  Readers of typed data on raw JSON. A decoder looks at the parts of a node in the order of the text and reports the
  first thing that is wrong, so a complaint about the data hides a later break of the text.

  - `byte`, `flag`, `text` and `choice` read single values; `optional` and `list` build on other decoders.
  - A `Record` reads an object by the names of its fields, or a list by their order. Unknown names are refused, or
    skipped by a lenient record; a name may occur once.
  - `ofText` reads a whole text, behind which only blanks may stand.
-/

namespace BirdBoard.Json

/-- A reader of typed data. -/
abbrev Decoder (α : Type) := Node → Except ReadError α

/-- The complaint about a value of the wrong kind. A number that is too large, a string that is no text and a broken
value are no JSON of any kind. -/
def Node.mismatch (n : Node) (expected : String) : ReadError :=
  let wrong := fun (f : Found) => ReadError.data (.wrongType f expected)
  match n with
  | .null => wrong .null
  | .bool b => wrong (.bool b)
  | .number l =>
    match l.number? with
    | some (.integer i) => wrong (.integer i)
    | some (.float negative magnitude) => wrong (.float negative magnitude)
    | none => .malformed
  | .string (some s) => wrong (.string s)
  | .string none => .malformed
  | .array _ _ => wrong .sequence
  | .object _ _ => wrong .map
  | .broken => .malformed

namespace Decoder

/-! ### Single values -/

/-- An integer from 0 to 255. -/
def byte : Decoder UInt8
  | .number l =>
    match l.number? with
    | some (.integer n) =>
      if 0 ≤ n ∧ n < 256 then .ok (UInt8.ofNat n.toNat) else .error (.data (.wrongValue (.integer n) "u8"))
    | _ => .error (Node.mismatch (.number l) "u8")
  | n => .error (n.mismatch "u8")

/-- A string that is a text. -/
def text : Decoder String
  | .string (some s) => .ok s
  | n => .error (n.mismatch "a string")

/-- A truth value. -/
def flag : Decoder Bool
  | .bool b => .ok b
  | n => .error (n.mismatch "a boolean")

/-- Null, or a value of another decoder. -/
def optional {α : Type} (d : Decoder α) : Decoder (Option α)
  | .null => .ok none
  | n => (d n).map some

/-- A byte that a further check takes. -/
def checked {α : Type} (check : UInt8 → Except Fault α) : Decoder α := fun n =>
  match byte n with
  | .ok b => (check b).mapError fun f => .data (.refused f)
  | .error e => .error e

/-! ### Choices -/

/-- The value of a name. -/
def lookup {α : Type} (names : List (String × α)) (name : String) : Except ReadError α :=
  match List.lookup name names with
  | some a => .ok a
  | none => .error (.data (.unknownName name (names.map (·.1))))

/-- A name, given as a string or as the only member of an object whose value is null. -/
def choice {α : Type} (names : List (String × α)) : Decoder α
  | .string (some name) => lookup names name
  | .object ((some name, value) :: members) closed =>
    match lookup names name with
    | .error e => .error e
    | .ok a =>
      match value with
      | .null => if members.isEmpty && closed then .ok a else .error .malformed
      | v => .error (v.mismatch "unit")
  | _ => .error .malformed

/-! ### Lists -/

/-- The values of a list of nodes. -/
def items {α : Type} (d : Decoder α) : List Node → Except ReadError (List α)
  | [] => .ok []
  | n :: ns =>
    match d n with
    | .error e => .error e
    | .ok a => (items d ns).map (a :: ·)

/-- A list of values. -/
def list {α : Type} (d : Decoder α) : Decoder (List α)
  | .array ns closed =>
    match items d ns with
    | .error e => .error e
    | .ok as => if closed then .ok as else .error .malformed
  | n => .error (n.mismatch "a sequence")

end Decoder

/-! ### Records -/

/-- A field of a record that is collected in a draft of type `σ`. -/
structure Field (σ : Type) where
  name : String
  /-- Whether a list has to give the field. -/
  needed : Bool
  /-- Reads the value of the field into the draft. -/
  store : Node → σ → Except ReadError σ

/-- A field with its decoder and the place in the draft. -/
def Field.of {σ α : Type} (name : String) (needed : Bool) (d : Decoder α) (set : α → σ → σ) : Field σ :=
  { name, needed, store := fun n s => (d n).map fun a => set a s }

/-- A record of type `α` that is collected in a draft of type `σ`. -/
structure Record (σ α : Type) where
  /-- The name of the record in messages. -/
  name : String
  fields : List (Field σ)
  /-- Whether unknown members are skipped. -/
  lenient : Bool
  /-- The draft at the beginning. -/
  start : σ
  /-- The record of a complete draft, or the first field that is missing. -/
  finish : σ → Except ReadError α

/-- The value of a field that a record cannot do without. -/
def require {α : Type} (name : String) : Option α → Except ReadError α
  | some a => .ok a
  | none => .error (.data (.missingField name))

namespace Record

variable {σ α : Type}

/-- Collects the members of an object in order. The names that were there before are in `seen`. -/
def readMembers (r : Record σ α) (seen : List String) (s : σ) : List (Option String × Node) → Except ReadError σ
  | [] => .ok s
  | (some key, value) :: members =>
    match r.fields.find? (·.name == key) with
    | some field =>
      if seen.contains key then .error (.data (.duplicateField key))
      else
        match field.store value s with
        | .error e => .error e
        | .ok s => readMembers r (key :: seen) s members
    | none =>
      if !r.lenient then .error (.data (.unknownField key (r.fields.map (·.name))))
      else if value.isWhole then readMembers r seen s members
      else .error .malformed
  | (none, _) :: _ => .error .malformed

/-- Collects the items of a list, one for each of the remaining fields. Where the list ends too early, a field that is
not needed keeps its value from the start. -/
def readItems (r : Record σ α) (s : σ) (closed : Bool) : List (Field σ) → List Node → Except ReadError σ
  | [], [] => if closed then .ok s else .error .malformed
  | [], _ :: _ => .error .malformed
  | field :: fields, [] =>
    if !closed then .error .malformed
    else if field.needed then
      .error (.data (.wrongLength (r.fields.length - (fields.length + 1))
        ("struct " ++ r.name ++ " with " ++ toString r.fields.length ++ " elements")))
    else readItems r s closed fields []
  | field :: fields, n :: ns =>
    match field.store n s with
    | .error e => .error e
    | .ok s => readItems r s closed fields ns

/-- Reads a record. -/
def decoder (r : Record σ α) : Decoder α
  | .object members closed =>
    match r.readMembers [] r.start members with
    | .error e => .error e
    | .ok s => if closed then r.finish s else .error .malformed
  | .array items closed =>
    match r.readItems r.start closed r.fields items with
    | .error e => .error e
    | .ok s => r.finish s
  | n => .error (n.mismatch ("struct " ++ r.name))

end Record

/-! ### Whole texts -/

/-- Reads a text that holds one value and blanks around it. -/
def Decoder.ofChars {α : Type} (d : Decoder α) (cs : List Char) : Except ReadError α :=
  let (node, rest) := Node.read cs
  match d node with
  | .error e => .error e
  | .ok a => if rest.any fun cs => (skipSpace cs).isEmpty then .ok a else .error .malformed

/-- Reads a text that holds one value and blanks around it. -/
def Decoder.ofText {α : Type} (d : Decoder α) (s : String) : Except ReadError α := d.ofChars s.toList

end BirdBoard.Json
