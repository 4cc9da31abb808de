import BirdBoard.Listing

/-! # Invocations

  What the arguments of the command line ask for.

  - There are three commands, each with options of its own. An option is given at most once, as `--name value` or as
    `--name=value`; a flag takes no value. Nothing may stand beside the options, and names are not abbreviated.
  - `-v` and `--verbose` may stand anywhere, as often as one likes. `--version` and `-V` stand before the command.
  - `Invocation.ofArgs?` refuses every other list of arguments.
-/

namespace BirdBoard.CommandLine

/-! ### Options -/

/-- The options of a command: a name, and the value unless it is a flag. -/
abbrev Given := List (String × Option String)

/-- The name of a long option and the value that is attached to it, if any. -/
def longOption? (arg : String) : Option (String × Option String) :=
  match arg.toList with
  | '-' :: '-' :: c :: cs =>
    let name := (c :: cs).takeWhile (· != '=')
    match (c :: cs).dropWhile (· != '=') with
    | _ :: value => some (String.ofList name, some (String.ofList value))
    | [] => some (String.ofList name, none)
  | _ => none

/-- Whether an argument is `-v`, `-vv` and so on. -/
def isVerbosity (arg : String) : Bool :=
  match arg.toList with
  | '-' :: c :: cs => (c :: cs).all (· == 'v')
  | _ => false

/-- Whether an argument can be the value of the option before it: it has no dash in front, or is a dash alone. -/
def isValue (arg : String) : Bool := arg.toList.head? != some '-' || arg == "-"

/-- Reads the options of a command. A double dash ends them, and nothing may follow it. -/
def readOptions (flags valued : List String) : List String → Option Given
  | [] => some []
  | arg :: rest =>
    if arg == "--" then (if rest.isEmpty then some [] else none)
    else if isVerbosity arg then readOptions flags valued rest
    else
      match longOption? arg with
      | none => none
      | some (name, some value) =>
        if valued.contains name then (readOptions flags valued rest).map ((name, some value) :: ·) else none
      | some (name, none) =>
        if name == "verbose" then readOptions flags valued rest
        else if flags.contains name then (readOptions flags valued rest).map ((name, none) :: ·)
        else if valued.contains name then
          match rest with
          | value :: rest =>
            if isValue value then (readOptions flags valued rest).map ((name, some value) :: ·) else none
          | [] => none
        else none

/-- Reads the options of a command, each of which is given at most once. -/
def options? (flags valued : List String) (args : List String) : Option Given := do
  let given ← readOptions flags valued args
  if (given.map (·.1)).Nodup then return given else none

/-- Whether a flag is given. -/
def hasFlag (given : Given) (name : String) : Bool := given.any (·.1 == name)

/-- The value of an option. -/
def valueOf (given : Given) (name : String) : Option String := (given.lookup name).join

/-- The value of an option after a check; a value that fails it is refused. -/
def checkedValue? {α : Type} (given : Given) (name : String) (check : String → Option α) : Option (Option α) :=
  match valueOf given name with
  | none => some none
  | some value => (check value).map some

/-- A path, which is not empty. -/
def path? (value : String) : Option String := if value.isEmpty then none else some value

/-! ### Commands -/

/-- What the program is asked to do. -/
inductive Invocation where
  | version
  /-- Compile a stylesheet, into a file or to the standard output. -/
  | compile (input output : Option String) (fingerprint : Bool)
  | states (input : Option String) (filter : StateFilter) (json : Bool)
  /-- List edges, maybe only those at the state of a label that is still to be read. -/
  | transitions (input : Option String) (label : Option String) (axis : Option Axis) (json : Bool)
  deriving DecidableEq, Repr

namespace Invocation

/-- Reads the arguments of the compile command. -/
def compile? (args : List String) : Option Invocation := do
  let given ← options? ["fingerprint"] ["in", "out"] args
  let input ← checkedValue? given "in" path?
  let output ← checkedValue? given "out" path?
  return .compile input output (hasFlag given "fingerprint")

/-- Reads the arguments of the command that lists states. -/
def states? (args : List String) : Option Invocation := do
  let given ← options? ["birds-only", "json"] ["in", "variant"] args
  let input ← checkedValue? given "in" path?
  let variant ← checkedValue? given "variant" fun t => (Variant.ofText t).toOption
  return .states input { variant, birdsOnly := hasFlag given "birds-only" } (hasFlag given "json")

/-- Reads the arguments of the command that lists edges. -/
def transitions? (args : List String) : Option Invocation := do
  let given ← options? ["json"] ["in", "state", "axis"] args
  let input ← checkedValue? given "in" path?
  let axis ← checkedValue? given "axis" fun t => (Axis.ofText t).toOption
  return .transitions input (valueOf given "state") axis (hasFlag given "json")

/-- Reads the arguments of the program. -/
def ofArgs? : List String → Option Invocation
  | [] => none
  | arg :: rest =>
    if arg == "--version" then some .version
    else if arg == "--verbose" || isVerbosity arg then ofArgs? rest
    else if arg == "compile" then compile? rest
    else if arg == "states" then states? rest
    else if arg == "transitions" then transitions? rest
    else
      match arg.toList with
      | '-' :: cs => if (cs.dropWhile (· == 'v')).head? == some 'V' then some .version else none
      | _ => none

end Invocation

end BirdBoard.CommandLine
