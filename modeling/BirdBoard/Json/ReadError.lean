import BirdBoard.Fault
import BirdBoard.Json.Node
import BirdBoard.Text.Quoted

/-! # Errors of reading typed data

  Why JSON text is not the data that was asked for: either the text is no JSON, or it is and says something that the
  data does not allow.
-/

namespace BirdBoard.Json

/-- What was found in the place of something else. -/
inductive Found where
  | null
  | bool (b : Bool)
  | integer (n : Int)
  | float (negative : Bool) (magnitude : Decimal.Binary64)
  | string (s : String)
  | sequence
  | map
  deriving DecidableEq, Repr

/-- How a message names what was found. -/
def Found.text : Found → String
  | null => "null"
  | bool b => "boolean `" ++ (if b then "true" else "false") ++ "`"
  | integer n => "integer `" ++ toString n ++ "`"
  | float negative magnitude => "floating point `" ++ floatText negative magnitude ++ "`"
  | string s => "string " ++ Text.quoted s
  | sequence => "sequence"
  | map => "map"

/-- What well-formed JSON text may say that the data does not allow. -/
inductive DataError where
  /-- A member that the record does not have. -/
  | unknownField (name : String) (expected : List String)
  /-- A member that was there before. -/
  | duplicateField (name : String)
  /-- A member that the record needs and the object lacks. -/
  | missingField (name : String)
  /-- A name that is none of the choices. -/
  | unknownName (name : String) (expected : List String)
  /-- A value of the wrong kind. -/
  | wrongType (found : Found) (expected : String)
  /-- A value of the right kind that is out of range. -/
  | wrongValue (found : Found) (expected : String)
  /-- A list that ends before the record is complete. -/
  | wrongLength (length : Nat) (expected : String)
  /-- A value that the coordinate space refuses. -/
  | refused (fault : Fault)
  deriving DecidableEq, Repr

/-- The choices of a message, each between backquotes: `a`, two joined by "or", more after "one of". -/
def choices : List String → String
  | [a] => "`" ++ a ++ "`"
  | [a, b] => "`" ++ a ++ "` or `" ++ b ++ "`"
  | names => "one of " ++ String.intercalate ", " (names.map fun a => "`" ++ a ++ "`")

/-- The wording of a data error. -/
def DataError.message : DataError → String
  | unknownField name expected => "unknown field `" ++ name ++ "`, expected " ++ choices expected
  | duplicateField name => "duplicate field `" ++ name ++ "`"
  | missingField name => "missing field `" ++ name ++ "`"
  | unknownName name expected => "unknown variant `" ++ name ++ "`, expected " ++ choices expected
  | wrongType found expected => "invalid type: " ++ found.text ++ ", expected " ++ expected
  | wrongValue found expected => "invalid value: " ++ found.text ++ ", expected " ++ expected
  | wrongLength length expected => "invalid length " ++ toString length ++ ", expected " ++ expected
  | refused fault => fault.message

/-- Why JSON text cannot be read as data. -/
inductive ReadError where
  /-- The text is not JSON. -/
  | malformed
  /-- The text is JSON, but not the data. -/
  | data (cause : DataError)
  deriving DecidableEq, Repr

end BirdBoard.Json
