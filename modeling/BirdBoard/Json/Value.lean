/-! # JSON values and their texts

  The values that the board writes as JSON, and their two texts.

  - `Value.compact` has no blanks at all.
  - `Value.pretty` puts every entry of a list or an object on a line of its own, two spaces deeper than its parent;
    an empty list stays on one line.
  - In a string the double quote, the backslash and the control characters below U+0020 are escaped, and nothing else.
-/

namespace BirdBoard.Json

/-- A JSON value. Objects keep their members in order. -/
inductive Value where
  | null
  | bool (b : Bool)
  | nat (n : Nat)
  | string (s : String)
  | array (items : List Value)
  | object (members : List (String × Value))
  deriving Repr

namespace Value

/-! ### Strings and numbers -/

/-- The lower-case hexadecimal digit of a number below sixteen. -/
def hexDigit (n : Nat) : Char := Char.ofNat (if n < 10 then '0'.toNat + n else 'a'.toNat + (n - 10))

/-- A character as it stands in a string. -/
def escapeChar (c : Char) : List Char :=
  if c == '"' then ['\\', '"']
  else if c == '\\' then ['\\', '\\']
  else if c == '\x08' then ['\\', 'b']
  else if c == '\x0c' then ['\\', 'f']
  else if c == '\n' then ['\\', 'n']
  else if c == '\r' then ['\\', 'r']
  else if c == '\t' then ['\\', 't']
  else if c.toNat < 0x20 then ['\\', 'u', '0', '0', hexDigit (c.toNat / 16), hexDigit (c.toNat % 16)]
  else [c]

/-- A string between double quotes. -/
def stringText (s : String) : List Char := '"' :: (s.toList.flatMap escapeChar ++ ['"'])

/-- The decimal digits of a number. -/
def natText (n : Nat) : List Char := Nat.toDigits 10 n

/-- The name of a truth value. -/
def boolText (b : Bool) : List Char := if b then ['t', 'r', 'u', 'e'] else ['f', 'a', 'l', 's', 'e']

/-- The name of null. -/
def nullText : List Char := ['n', 'u', 'l', 'l']

/-! ### The compact text -/

mutual

/-- A value without any blanks. -/
def compact : Value → List Char
  | null => nullText
  | bool b => boolText b
  | nat n => natText n
  | string s => stringText s
  | array [] => ['[', ']']
  | array (v :: vs) => '[' :: (compact v ++ compactItems vs)
  | object [] => ['\x7b', '\x7d']
  | object ((k, v) :: ms) => '\x7b' :: (stringText k ++ ':' :: (compact v ++ compactMembers ms))

/-- The rest of a list after an item. -/
def compactItems : List Value → List Char
  | [] => [']']
  | v :: vs => ',' :: (compact v ++ compactItems vs)

/-- The rest of an object after a member. -/
def compactMembers : List (String × Value) → List Char
  | [] => ['\x7d']
  | (k, v) :: ms => ',' :: (stringText k ++ ':' :: (compact v ++ compactMembers ms))

end

/-! ### The pretty text -/

/-- The end of a line and the indent of the next one. -/
def newLine (depth : Nat) : List Char := '\n' :: List.replicate (2 * depth) ' '

mutual

/-- A value on lines of its own, below a line of the given depth. -/
def pretty (depth : Nat) : Value → List Char
  | null => nullText
  | bool b => boolText b
  | nat n => natText n
  | string s => stringText s
  | array [] => ['[', ']']
  | array (v :: vs) => '[' :: (newLine (depth + 1) ++ pretty (depth + 1) v ++ prettyItems depth vs)
  | object [] => ['\x7b', '\x7d']
  | object ((k, v) :: ms) =>
    '\x7b' :: (newLine (depth + 1) ++ stringText k ++ ':' :: ' ' :: (pretty (depth + 1) v ++ prettyMembers depth ms))

/-- The rest of a list after an item. -/
def prettyItems (depth : Nat) : List Value → List Char
  | [] => newLine depth ++ [']']
  | v :: vs => ',' :: (newLine (depth + 1) ++ pretty (depth + 1) v ++ prettyItems depth vs)

/-- The rest of an object after a member. -/
def prettyMembers (depth : Nat) : List (String × Value) → List Char
  | [] => newLine depth ++ ['\x7d']
  | (k, v) :: ms =>
    ',' :: (newLine (depth + 1) ++ stringText k ++ ':' :: ' ' :: (pretty (depth + 1) v ++ prettyMembers depth ms))

end

/-- The compact text of a value. -/
def text (v : Value) : String := String.ofList v.compact

/-- The pretty text of a value. -/
def prettyText (v : Value) : String := String.ofList (v.pretty 0)

/-- A value, or null for nothing. -/
def ofOption {α : Type} (f : α → Value) : Option α → Value
  | some a => f a
  | none => null

end Value

end BirdBoard.Json
