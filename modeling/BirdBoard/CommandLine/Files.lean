/-! # Files

  The files that the command line reads and writes.

  - `FileAccess` lists the four operations that it needs, in any monad; `FileAccess.makeDirs` builds on them.
  - `Directory` is a tree of files as a value, and `Directory.access` gives the operations on it. A path is followed
    component by component from the top of the tree; what lies above the top is out of reach.
-/

namespace BirdBoard.CommandLine

/-! ### Errors -/

/-- Why the operating system refuses a file operation. -/
inductive OsError where
  /-- Nothing has this name. -/
  | noEntry
  /-- Something has this name already. -/
  | taken
  /-- A file stands in the place of a directory. -/
  | notDirectory
  /-- A directory stands in the place of a file. -/
  | isDirectory
  /-- A name or a path is too long. -/
  | nameTooLong
  /-- Any other refusal, in its own words. -/
  | other (text : String)
  deriving DecidableEq, Repr

/-- The wording of a refusal, with its number. -/
def OsError.text : OsError → String
  | noEntry => "No such file or directory (os error 2)"
  | taken => "File exists (os error 17)"
  | notDirectory => "Not a directory (os error 20)"
  | isDirectory => "Is a directory (os error 21)"
  | nameTooLong => "File name too long (os error 36)"
  | other text => text

/-! ### Paths -/

/-- The parts between the slashes of a path, empty ones included. -/
def segments : List Char → List (List Char)
  | [] => [[]]
  | c :: cs =>
    match c == '/', segments cs with
    | true, parts => [] :: parts
    | false, part :: parts => (c :: part) :: parts
    | false, [] => [[c]]

/-- Drops from a reversed path every last component that is empty or a single dot, with the slash before it. The fuel
is the length of the path. -/
def dropIdle : Nat → List Char → List Char
  | 0, cs => cs
  | fuel + 1, cs =>
    let component := cs.takeWhile (· != '/')
    if cs.isEmpty || !(component == [] || component == ['.']) then cs
    else dropIdle fuel ((cs.dropWhile (· != '/')).drop 1)

/-- The path of the directory of a path, written with the same characters: the last component goes, and so does
everything idle around it. A path without a component has none. -/
def parentPath? (path : String) : Option String :=
  let cs := path.toList
  let anchor := match cs with
    | '/' :: _ => ['/']
    | ['.'] => ['.']
    | '.' :: '/' :: _ => ['.']
    | _ => []
  let body := (cs.drop anchor.length).reverse
  match dropIdle body.length body with
  | [] => if anchor == ['.'] then some "" else none
  | c :: rest =>
    let before := ((c :: rest).dropWhile (· != '/')).drop 1
    some (String.ofList (anchor ++ (dropIdle before.length before).reverse))

/-! ### Operations -/

/-- The file operations in a monad. -/
structure FileAccess (m : Type → Type) where
  /-- Opens a file, then reads it; each of the two may be refused. -/
  read : String → m (Except OsError (Except OsError ByteArray))
  /-- Writes a file, which is made or emptied first. -/
  write : String → ByteArray → m (Except OsError Unit)
  /-- Makes a directory. -/
  makeDir : String → m (Except OsError Unit)
  /-- Whether a path leads to a directory. -/
  isDir : String → m Bool

namespace FileAccess

variable {m : Type → Type} [Monad m]

/-- Makes a directory and every directory above it that is missing; one that is there is left alone. The fuel bounds
the number of directories. -/
def makeDirsFuel (fs : FileAccess m) : Nat → String → m (Except OsError Unit)
  | 0, _ => return .ok ()
  | fuel + 1, path => do
    if path.isEmpty then return .ok ()
    match ← fs.makeDir path with
    | .ok () => return .ok ()
    | .error .noEntry =>
      match parentPath? path with
      | none => return .error (.other "failed to create whole tree")
      | some parent =>
        match ← makeDirsFuel fs fuel parent with
        | .error e => return .error e
        | .ok () =>
          match ← fs.makeDir path with
          | .ok () => return .ok ()
          | .error e => if ← fs.isDir path then return .ok () else return .error e
    | .error e => if ← fs.isDir path then return .ok () else return .error e

/-- Makes a directory and every directory above it that is missing. -/
def makeDirs (fs : FileAccess m) (path : String) : m (Except OsError Unit) :=
  fs.makeDirsFuel (path.length + 1) path

end FileAccess

/-! ### Directories as values -/

/-- What stands in a directory. -/
inductive Entry where
  | file (bytes : ByteArray)
  | folder

/-- A tree of files: each entry under the names that lead to it. The top itself is always there. -/
structure Directory where
  entries : List (List String × Entry)

/-- A directory that a path leads to: one in the tree, or one above it. -/
inductive Place where
  /-- A directory in the tree. -/
  | inside (names : List String)
  /-- A directory above the tree. -/
  | outside
  deriving DecidableEq, Repr

/-- What a path leads to. -/
inductive Target where
  /-- A directory that the path names by dots or slashes alone. -/
  | place (place : Place)
  /-- A name in a directory, and whether a slash follows it. -/
  | name (names : List String) (name : String) (slash : Bool)
  deriving DecidableEq, Repr

namespace Directory

/-- The entry under names. -/
def get? (d : Directory) (names : List String) : Option Entry := d.entries.lookup names

/-- Puts an entry under names. -/
def put (d : Directory) (names : List String) (e : Entry) : Directory :=
  { entries := (names, e) :: d.entries.filter (·.1 != names) }

/-- The greatest number of bytes in a name. -/
def nameLimit : Nat := 255

/-- The greatest number of bytes in a path. -/
def pathLimit : Nat := 4095

/-- The directory above a place. -/
def up : Place → Place
  | .inside names => if names.isEmpty then .outside else .inside names.dropLast
  | .outside => .outside

/-- Goes from a place into one component of a path, which has to lead to a directory. -/
def enter (d : Directory) (place : Place) (component : String) : Except OsError Place :=
  if component == "." then .ok place
  else if component == ".." then .ok (up place)
  else if component.utf8ByteSize > nameLimit then .error .nameTooLong
  else
    match place with
    | .outside => .error .noEntry
    | .inside names =>
      match d.get? (names ++ [component]) with
      | some .folder => .ok (.inside (names ++ [component]))
      | some (.file _) => .error .notDirectory
      | none => .error .noEntry

/-- Follows a path. -/
def target (d : Directory) (path : String) : Except OsError Target :=
  if path.isEmpty then .error .noEntry
  else if path.utf8ByteSize > pathLimit then .error .nameTooLong
  else
    let start : Place := if path.toList.head? == some '/' then .outside else .inside []
    let components := ((segments path.toList).filter (!·.isEmpty)).map String.ofList
    let slash := path.toList.getLast? == some '/'
    match components.getLast? with
    | none => .ok (.place start)
    | some last => do
      let place ← components.dropLast.foldlM d.enter start
      if last == "." || last == ".." then return .place (← d.enter place last)
      match place with
      | .outside => throw .noEntry
      | .inside names => return .name names last slash

/-- The entry of a name in a directory. -/
def find (d : Directory) (names : List String) (name : String) : Except OsError (Option Entry) :=
  if name.utf8ByteSize > nameLimit then .error .nameTooLong else .ok (d.get? (names ++ [name]))

/-- Opens and reads a file. A directory opens like a file and is refused when it is read. -/
def read (d : Directory) (path : String) : Except OsError (Except OsError ByteArray) := do
  match ← d.target path with
  | .place _ => return .error .isDirectory
  | .name names name slash =>
    match ← d.find names name with
    | none => throw .noEntry
    | some .folder => return .error .isDirectory
    | some (.file bytes) => if slash then throw .notDirectory else return .ok bytes

/-- Writes a file. -/
def write (d : Directory) (path : String) (bytes : ByteArray) : Except OsError Directory := do
  match ← d.target path with
  | .place _ => throw .isDirectory
  | .name names name slash =>
    if slash then throw .isDirectory
    match ← d.find names name with
    | some .folder => throw .isDirectory
    | _ => return d.put (names ++ [name]) (.file bytes)

/-- Makes a directory. -/
def makeDir (d : Directory) (path : String) : Except OsError Directory := do
  match ← d.target path with
  | .place _ => throw .taken
  | .name names name _ =>
    match ← d.find names name with
    | some _ => throw .taken
    | none => return d.put (names ++ [name]) .folder

/-- Whether a path leads to a directory. -/
def isDir (d : Directory) (path : String) : Bool :=
  match d.target path with
  | .ok (.place _) => true
  | .ok (.name names name _) =>
    match d.get? (names ++ [name]) with
    | some .folder => true
    | _ => false
  | .error _ => false

/-- An operation that changes the directory if it succeeds. -/
def change (op : Directory → Except OsError Directory) : StateM Directory (Except OsError Unit) := fun d =>
  match op d with
  | .ok d' => (.ok (), d')
  | .error e => (.error e, d)

/-- The file operations on a directory. -/
def access : FileAccess (StateM Directory) where
  read path := fun d => (d.read path, d)
  write path bytes := change fun d => d.write path bytes
  makeDir path := change fun d => d.makeDir path
  isDir path := fun d => (d.isDir path, d)

/-- Puts a file under a path, and every directory above it. -/
def putFile (d : Directory) (path : String) (bytes : ByteArray) : Directory :=
  let names := ((segments path.toList).filter (!·.isEmpty)).map String.ofList
  let folders := (List.range (names.length - 1)).map fun i => names.take (i + 1)
  (folders.foldl (fun d names => d.put names .folder) d).put names (.file bytes)

/-- The names and the bytes of all files. -/
def files (d : Directory) : List (List String × ByteArray) :=
  d.entries.filterMap fun e =>
    match e.2 with
    | .file bytes => some (e.1, bytes)
    | .folder => none

end Directory

end BirdBoard.CommandLine
