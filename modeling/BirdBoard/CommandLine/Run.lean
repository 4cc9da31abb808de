import BirdBoard.CommandLine.Files
import BirdBoard.CommandLine.Invocation
import BirdBoard.Document.Json
import BirdBoard.Document.Replay
import BirdBoard.Fingerprint

/-! # Running the command line

  What each invocation reads, writes and prints, over any file operations.

  - Without an input path the model is the bare base grid.
  - Nothing is printed or written before everything that can fail has succeeded, except that directories for the output
    file may have been made.
  - A failure is reported with its cause on indented lines, and the exit code is 1; arguments that are refused give 2.
-/

namespace BirdBoard.CommandLine

/-! ### Failures -/

/-- Why a run fails. -/
inductive Failure where
  /-- The document cannot be opened. -/
  | unopened (path : String) (cause : OsError)
  /-- The document cannot be read from its file. -/
  | unread (path : String) (cause : OsError)
  /-- The document is not what a document should be. -/
  | unparsed (path : String) (cause : Json.ReadError)
  /-- The document cannot be replayed. -/
  | unapplied (path : String) (cause : Fault)
  /-- The label of the state to look at cannot be read. -/
  | badLabel (cause : Fault)
  /-- The directory of the output file cannot be made. -/
  | noDirectory (path : String) (cause : OsError)
  /-- The output file cannot be written. -/
  | unwritten (path : String) (cause : OsError)
  deriving DecidableEq, Repr

/-- The wording of a document that cannot be parsed. -/
def unparsedText (detail : String) : String :=
  FaultKind.serialization.message ("parse model document JSON: " ++ detail)

/-- The wording of an error of reading. -/
def readErrorText : Json.ReadError → String
  | .malformed => "malformed JSON"
  | .data cause => cause.message

/-- The head line of a failure and, if there is one, the text of its cause. -/
def Failure.parts : Failure → String × Option String
  | unopened path cause =>
    ("read model document '" ++ path ++ "'",
      some (FaultKind.validation.message ("open model document '" ++ path ++ "': " ++ cause.text)))
  | unread path cause => ("read model document '" ++ path ++ "'", some (unparsedText cause.text))
  | unparsed path cause => ("read model document '" ++ path ++ "'", some (unparsedText (readErrorText cause)))
  | unapplied path cause => ("apply model document '" ++ path ++ "'", some cause.message)
  | badLabel cause => (cause.message, none)
  | noDirectory path cause => ("create output dir '" ++ path ++ "'", some cause.text)
  | unwritten path cause => ("write css '" ++ path ++ "'", some cause.text)

/-- Indents every line of a text by four spaces. -/
def indented (s : String) : String :=
  String.ofList ("    ".toList ++ s.toList.flatMap fun c => if c == '\n' then "\n    ".toList else [c])

/-- The report of a failure. -/
def Failure.report (f : Failure) : String :=
  match f.parts with
  | (head, some cause) => "Error: " ++ head ++ "\n\nCaused by:\n" ++ indented cause ++ "\n"
  | (head, none) => "Error: " ++ head ++ "\n"

/-! ### Outcomes -/

/-- What a run gives back. -/
structure Outcome where
  exitCode : Nat := 0
  /-- What is printed to the standard output. -/
  stdout : String := ""
  /-- What is printed to the standard error. -/
  stderr : String := ""
  deriving DecidableEq, Repr

/-- The outcome of a failure. -/
def Outcome.failed (f : Failure) : Outcome := { exitCode := 1, stderr := f.report }

/-- The outcome for arguments that are refused. -/
def Outcome.refused : Outcome := { exitCode := 2, stderr := "error: invalid arguments\n" }

/-- The text that shows the version. -/
def versionText : String := "roofvogel 0.1.0\n"

/-! ### Commands -/

variable {m : Type → Type} [Monad m]

/-- The model of an input path. -/
def load (fs : FileAccess m) : Option String → m (Except Failure Model)
  | none => return .ok Model.initial
  | some path => do
    match ← fs.read path with
    | .error e => return .error (.unopened path e)
    | .ok (.error e) => return .error (.unread path e)
    | .ok (.ok bytes) =>
      match Document.ofBytes bytes with
      | .error e => return .error (.unparsed path e)
      | .ok d => return d.build.mapError (.unapplied path)

/-- Writes a text to a file, whose directory is made first. -/
def save (fs : FileAccess m) (path text : String) : m (Except Failure Unit) := do
  let parent := (parentPath? path).getD ""
  match ← fs.makeDirs parent with
  | .error e => return .error (.noDirectory parent e)
  | .ok () =>
    match ← fs.write path text.toUTF8 with
    | .error e => return .error (.unwritten path e)
    | .ok () => return .ok ()

/-- The line that shows the fingerprint of a text, if it is asked for. -/
def fingerprintLine (wanted : Bool) (text : String) : String :=
  if wanted then "fingerprint " ++ (Fingerprint.ofText text).text ++ "\n" else ""

/-- Delivers a stylesheet to a file or to the standard output. -/
def deliver (fs : FileAccess m) (output : Option String) (fingerprint : Bool) (css : String) : m Outcome := do
  match output with
  | none => return { stdout := css, stderr := fingerprintLine fingerprint css }
  | some path =>
    match ← save fs path css with
    | .error f => return Outcome.failed f
    | .ok () => return { stderr := "wrote " ++ path ++ "\n" ++ fingerprintLine fingerprint css }

/-- The listing of edges, once the label of the state to look at has been read. -/
def listTransitions (model : Model) (label : Option String) (axis : Option Axis) (json : Bool) : Outcome :=
  match label.map StateKey.ofLabel with
  | none => { stdout := model.transitionListing { axis } json }
  | some (.ok k) => { stdout := model.transitionListing { state := some k, axis } json }
  | some (.error f) => Outcome.failed (.badLabel f)

/-- Carries out an invocation. -/
def Invocation.run (fs : FileAccess m) : Invocation → m Outcome
  | .version => return { stdout := versionText }
  | .compile input output fingerprint => do
    match ← load fs input with
    | .error f => return Outcome.failed f
    | .ok model => deliver fs output fingerprint model.stylesheet
  | .states input filter json => do
    match ← load fs input with
    | .error f => return Outcome.failed f
    | .ok model => return { stdout := model.stateListing filter json }
  | .transitions input label axis json => do
    match ← load fs input with
    | .error f => return Outcome.failed f
    | .ok model => return listTransitions model label axis json

/-- Runs the program on its arguments. -/
def run (fs : FileAccess m) (args : List String) : m Outcome :=
  match Invocation.ofArgs? args with
  | some invocation => invocation.run fs
  | none => return Outcome.refused

end BirdBoard.CommandLine
