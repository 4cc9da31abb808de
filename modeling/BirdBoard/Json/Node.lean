import BirdBoard.Json.Number

/-! # Raw JSON

  JSON text as a tree of nodes, read from left to right up to the first place where it stops being JSON. That place is
  a `broken` node, or a list or an object that is not closed, and nothing behind it is read. So a reader of typed data
  that walks the tree in order meets its own complaints and the broken place in the order of the text.

  - `Node.read` takes one value off the front of a text; `Node.isWhole` says that nothing in it is broken.
  - Numbers stay literals, since a number too large for a binary fraction is still JSON.
  - A string may hold an escaped surrogate without its partner. That is JSON too, but no text: its node has none.
  - The name of a member is a string, so an object ends, unclosed, where another kind of name begins.
-/

namespace BirdBoard.Json

/-- A value of JSON text. -/
inductive Node where
  | null
  | bool (b : Bool)
  | number (literal : Literal)
  /-- A string, without text if it holds an unpaired surrogate. -/
  | string (text : Option String)
  /-- A list, and whether it is closed behind its last item. -/
  | array (items : List Node) (closed : Bool)
  /-- An object, and whether it is closed behind its last member. A name has no text if it holds an unpaired
  surrogate. -/
  | object (members : List (Option String × Node)) (closed : Bool)
  /-- Text that is no value. -/
  | broken

/-! ### Blanks and strings -/

/-- The four blanks of JSON. -/
def isSpace (c : Char) : Bool := c == ' ' || c == '\n' || c == '\t' || c == '\r'

/-- Drops blanks from the front of a text. -/
def skipSpace (cs : List Char) : List Char := cs.dropWhile isSpace

/-- A piece of a string. -/
inductive Piece where
  | char (c : Char)
  /-- An escaped UTF-16 unit. -/
  | unit (u : Nat)
  deriving DecidableEq, Repr

/-- The value of a hexadecimal digit. -/
def hexValue? (c : Char) : Option Nat :=
  if c.isDigit then some (c.toNat - '0'.toNat)
  else if 'a' ≤ c ∧ c ≤ 'f' then some (c.toNat - 'a'.toNat + 10)
  else if 'A' ≤ c ∧ c ≤ 'F' then some (c.toNat - 'A'.toNat + 10)
  else none

/-- The value of four hexadecimal digits. -/
def hexUnit? (a b c d : Char) : Option Nat := do
  return ((← hexValue? a) * 16 + (← hexValue? b)) * 256 + ((← hexValue? c) * 16 + (← hexValue? d))

/-- The character of a short escape. -/
def escaped? (c : Char) : Option Char :=
  if c == '"' || c == '\\' || c == '/' then some c
  else if c == 'b' then some '\x08'
  else if c == 'f' then some '\x0c'
  else if c == 'n' then some '\n'
  else if c == 'r' then some '\r'
  else if c == 't' then some '\t'
  else none

/-- Takes the pieces of a string and its closing quote off the front of a text. Raw control characters and unknown
escapes are refused. -/
def scanPieces : List Char → Option (List Piece × List Char)
  | [] => none
  | '"' :: rest => some ([], rest)
  | '\\' :: 'u' :: a :: b :: c :: d :: rest =>
    match hexUnit? a b c d, scanPieces rest with
    | some u, some (ps, rest) => some (.unit u :: ps, rest)
    | _, _ => none
  | '\\' :: e :: rest =>
    match escaped? e, scanPieces rest with
    | some c, some (ps, rest) => some (.char c :: ps, rest)
    | _, _ => none
  | c :: rest =>
    if c.toNat < 0x20 || c == '\\' then none
    else
      match scanPieces rest with
      | some (ps, rest) => some (.char c :: ps, rest)
      | none => none

/-- Whether a UTF-16 unit is the first half of a pair. -/
def isLeading (u : Nat) : Bool := 0xD800 ≤ u && u ≤ 0xDBFF

/-- Whether a UTF-16 unit is the second half of a pair. -/
def isTrailing (u : Nat) : Bool := 0xDC00 ≤ u && u ≤ 0xDFFF

/-- The text of pieces, where two halves that follow each other are one character; nothing if a half stands alone. -/
def joinPieces : List Piece → Option (List Char)
  | [] => some []
  | .char c :: ps => (joinPieces ps).map (c :: ·)
  | .unit u :: .unit v :: ps =>
    if isLeading u then
      if isTrailing v then
        (joinPieces ps).map (Char.ofNat (0x10000 + (u - 0xD800) * 0x400 + (v - 0xDC00)) :: ·)
      else none
    else if isTrailing u then none
    else (joinPieces (.unit v :: ps)).map (Char.ofNat u :: ·)
  | .unit u :: ps =>
    if isLeading u || isTrailing u then none else (joinPieces ps).map (Char.ofNat u :: ·)

/-- Takes a string off the front of a text that has lost its opening quote. -/
def scanString (cs : List Char) : Option (Option String × List Char) :=
  match scanPieces cs with
  | some (pieces, rest) => some ((joinPieces pieces).map String.ofList, rest)
  | none => none

/-! ### Reading -/

namespace Node

/-- A value and the text behind it; no text when the value is not whole. -/
abbrev Step (α : Type) := α × Option (List Char)

/-- Takes a string value off the front of a text that has lost its opening quote. -/
def readString (cs : List Char) : Step Node :=
  match scanString cs with
  | some (text, rest) => (.string text, some rest)
  | none => (.broken, none)

/-- Takes a number off the front of a text. -/
def readNumber (cs : List Char) : Step Node :=
  match Literal.scan cs with
  | some (literal, rest) => (.number literal, some rest)
  | none => (.broken, none)

/-- Takes a name or a number off the front of a text. -/
def readAtom : List Char → Step Node
  | 'n' :: 'u' :: 'l' :: 'l' :: rest => (.null, some rest)
  | 't' :: 'r' :: 'u' :: 'e' :: rest => (.bool true, some rest)
  | 'f' :: 'a' :: 'l' :: 's' :: 'e' :: rest => (.bool false, some rest)
  | cs => readNumber cs

mutual

/-- Takes a value off the front of a text. The fuel bounds the number of nested steps. -/
def readValue : Nat → List Char → Step Node
  | 0, _ => (.broken, none)
  | fuel + 1, cs =>
    match skipSpace cs with
    | '"' :: rest => readString rest
    | '[' :: rest =>
      match skipSpace rest with
      | ']' :: rest => (.array [] true, some rest)
      | rest =>
        let ((items, closed), rest) := readItems fuel rest
        (.array items closed, rest)
    | '\x7b' :: rest =>
      match skipSpace rest with
      | '\x7d' :: rest => (.object [] true, some rest)
      | rest =>
        let ((members, closed), rest) := readMembers fuel rest
        (.object members closed, rest)
    | cs => readAtom cs

/-- Takes the items of a list and its end off the front of a text. -/
def readItems : Nat → List Char → Step (List Node × Bool)
  | 0, _ => (([], false), none)
  | fuel + 1, cs =>
    match readValue fuel cs with
    | (item, none) => (([item], false), none)
    | (item, some rest) =>
      match skipSpace rest with
      | ',' :: rest =>
        let ((items, closed), rest) := readItems fuel rest
        ((item :: items, closed), rest)
      | ']' :: rest => (([item], true), some rest)
      | _ => (([item], false), none)

/-- Takes the members of an object and its end off the front of a text. -/
def readMembers : Nat → List Char → Step (List (Option String × Node) × Bool)
  | 0, _ => (([], false), none)
  | fuel + 1, cs =>
    match skipSpace cs with
    | '"' :: rest =>
      match scanString rest with
      | none => (([], false), none)
      | some (name, rest) =>
        match skipSpace rest with
        | ':' :: rest =>
          match readValue fuel rest with
          | (value, none) => (([(name, value)], false), none)
          | (value, some rest) =>
            match skipSpace rest with
            | ',' :: rest =>
              let ((members, closed), rest) := readMembers fuel rest
              (((name, value) :: members, closed), rest)
            | '\x7d' :: rest => (([(name, value)], true), some rest)
            | _ => (([(name, value)], false), none)
        | _ => (([(name, .broken)], false), none)
    | _ => (([], false), none)

end

/-- Takes a value off the front of a text. Every nested step but every second one takes a character. -/
def read (cs : List Char) : Step Node := readValue (2 * cs.length + 1) cs

/-! ### Whole nodes -/

mutual

/-- Whether nothing in a value is broken. -/
def isWhole : Node → Bool
  | null | bool _ | number _ | string _ => true
  | array items closed => closed && areWhole items
  | object members closed => closed && areWholeMembers members
  | broken => false

/-- Whether nothing in a list of values is broken. -/
def areWhole : List Node → Bool
  | [] => true
  | n :: ns => isWhole n && areWhole ns

/-- Whether nothing in a list of members is broken. -/
def areWholeMembers : List (Option String × Node) → Bool
  | [] => true
  | (_, n) :: ms => isWhole n && areWholeMembers ms

end

end Node

end BirdBoard.Json
