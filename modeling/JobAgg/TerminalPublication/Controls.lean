import JobAgg.Foundation.Demand
import JobAgg.Foundation.JsonEquality

/-! # Publication controls

What `_Controls` of `terminal_publication.py` reads: a control is a JSON object in a private
regular file below directories. A control that is missing is no error of its own; whatever
is unsafe or no object raises. -/

namespace JobAgg.TerminalPublication

abbrev Fields := List (String × Json)

/-- A path of `pathlib`; the root of a relative path is empty. -/
structure PurePath where
  root : String
  parts : List String
  deriving DecidableEq

namespace PurePath

/-- `Path(text)` -/
def ofText (text : String) : PurePath :=
  let slashes := (text.toList.takeWhile (· == '/')).length
  { root := if slashes = 0 then "" else if slashes = 2 then "//" else "/"
    parts := ((text.toList.splitOn '/').map String.ofList).filter fun part =>
      part != "" && part != "." }

/-- `str(path)` -/
def text (path : PurePath) : String :=
  if path.root = "" ∧ path.parts = [] then "." else path.root ++ "/".intercalate path.parts

def isAbsolute (path : PurePath) : Bool := path.root != ""

/-- `path / name` -/
def child (path : PurePath) (name : String) : PurePath :=
  { path with parts := path.parts ++ [name] }

/-- `path / other` -/
def join (path other : PurePath) : PurePath :=
  if other.isAbsolute then other else { path with parts := path.parts ++ other.parts }

def name (path : PurePath) : String := path.parts.getLastD ""

def parent (path : PurePath) : PurePath := { path with parts := path.parts.dropLast }

/-- The parents of a path, from the root on -/
def ancestors (path : PurePath) : List PurePath :=
  path.parts.inits.dropLast.map (PurePath.mk path.root)

/-- `path.parents[2]` -/
def thirdParent (path : PurePath) : Except String PurePath :=
  if path.parts.length < 3 then .error "IndexError"
  else .ok { path with parts := path.parts.take (path.parts.length - 3) }

def isRelativeTo (path root : PurePath) : Bool :=
  path.root == root.root && root.parts.isPrefixOf path.parts

end PurePath

/-- `_path` -/
def pathOf (value : Json) : Except String PurePath :=
  match value with
  | .string text => do
    require (text != "") "missing path"
    let path := PurePath.ofText text
    require (path.isAbsolute && !path.parts.contains "..") "path must be absolute"
    return path
  | _ => .error "missing path"

def samePath (value : Json) (expected : PurePath) : Except String Bool := do
  let path ← pathOf value
  return path == expected

/-! ## Files -/

/-- A private regular file: what its JSON says, if it is JSON, its SHA-256 and its size -/
structure File where
  content : Option Json
  sha256 : String
  sizeBytes : ℕ

inductive Entry
  | missing
  | directory
  | file (file : File)
  | unsafeEntry

def Entry.isDirectory : Entry → Bool
  | directory => true
  | _ => false

abbrev FileSystem := PurePath → Entry

structure Control where
  value : Fields
  sha256 : String
  sizeBytes : ℕ

inductive Stop
  | raised (message : String)
  | missing (path : PurePath)

/-- The answer as far as it is known -/
structure Report where
  result : Option Fields := none
  controls : List (PurePath × Control) := []
  generationIds : List Json := []
  knownDeficits : List (String × PurePath) := []
  noWriteStatePending : Bool := false

abbrev Flow := Logged Report Stop

def Report.record (path : PurePath) (control : Control) (report : Report) : Report :=
  if report.controls.any (·.1 == path) then report
  else { report with controls := report.controls ++ [(path, control)] }

/-- What stands at a path, before it is recorded -/
def find (fileSystem : FileSystem) (path : PurePath) : Except Stop (Option Control) :=
  if !path.isAbsolute || path.parts.contains ".." then .error (.raised "path must be absolute")
  else
    match path.ancestors.find? fun parent => !(fileSystem parent).isDirectory with
    | some parent =>
      match fileSystem parent with
      | .missing => .ok none
      | _ => .error (.raised "unsafe control parent")
    | none =>
      match fileSystem path with
      | .missing => .ok none
      | .file file =>
        match file.content with
        | some (.object fields) => .ok (some ⟨fields, file.sha256, file.sizeBytes⟩)
        | some _ => .error (.raised "control is not an object")
        | none => .error (.raised "invalid JSON")
      | _ => .error (.raised "control is not a private regular file")

/-- `controls.read(path, optional=True)`; files do not change while they are read. -/
def look (fileSystem : FileSystem) (path : PurePath) : Flow (Option Control) := do
  let found ← Logged.ofExcept (find fileSystem path)
  match found with
  | none => return none
  | some control =>
    .note (Report.record path control)
    return some control

/-- `controls.read(path)` -/
def need (fileSystem : FileSystem) (path : PurePath) : Flow Control := do
  match ← look fileSystem path with
  | none => .ofExcept (.error (.missing path))
  | some control => return control

abbrev Reading := Demand PurePath Control

def Reading.on {Result : Type} (reading : Reading Result) (fileSystem : FileSystem) :
    Flow Result :=
  reading.run .raised (need fileSystem)

/-! ## Values -/

/-- `value == 1` -/
def isOne (value : Json) : Bool := value.pythonEqual (.number "1")

/-- `value in texts` -/
def isAmong (value : Json) (texts : List String) : Bool :=
  match value with
  | .string text => texts.contains text
  | _ => false

/-- The value of an `int` that is no `bool` -/
def intOf : Json → Option ℤ
  | .number numeral =>
    let digits := numeral.toList.dropWhile (· == '-')
    if digits.all Char.isDigit then
      match readNumeral numeral with
      | .finite value => some value.num
      | _ => none
    else none
  | _ => none

def isHexadecimal (size : ℕ) (text : String) : Bool :=
  text.length == size &&
    text.toList.all fun letter => letter.isDigit || (decide ('a' ≤ letter) && decide (letter ≤ 'f'))

def sha (value : Json) : Except String String :=
  match value with
  | .string text => do
    require (isSha256 text) "invalid SHA-256"
    return text
  | _ => .error "invalid SHA-256"

/-- `_GENERATION.fullmatch(str(value))` -/
def isGeneration (value : Json) : Bool := value.asText.any (isHexadecimal 32)

/-- A dictionary that has to be one -/
def objectOf (value : Json) (message : String) : Except String Fields :=
  match value with
  | .object fields => .ok fields
  | _ => .error message

def has (key : String) (fields : Fields) : Bool := (lookup key fields).isSome

def reference (value : Json) (root expected : Option PurePath) : Reading (PurePath × Control) := do
  let fields ← Demand.ofExcept (objectOf value "missing control reference")
  let given ← Demand.ofExcept <| match Json.get "path" fields with
    | .string text => if text = "" then .error "missing reference path" else .ok (PurePath.ofText text)
    | _ => .error "missing reference path"
  .check (!given.parts.contains "..") "reference traverses parent"
  .check (given.isAbsolute || root.isSome) "relative reference lacks root"
  let path := (root.map (·.join given)).getD given
  .check (root.all path.isRelativeTo) "reference escapes run"
  .check (expected.all (· == path)) "reference points to another control"
  let control ← Demand.read path
  let sha256 ← Demand.ofExcept (sha (Json.get "sha256" fields))
  .check (control.sha256 == sha256) "control reference digest differs"
  .check (!has "size_bytes" fields ||
    intOf (Json.get "size_bytes" fields) == some (control.sizeBytes : ℤ))
    "control reference size differs"
  return (path, control)

end JobAgg.TerminalPublication
