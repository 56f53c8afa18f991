import AsmLens.Fault
import AsmLens.Ledger

/-!
# Folders

The files that a run of the program can see, by their places: below the folder that it
runs in, or elsewhere. A folder is there if a file lies below it or if it is listed.

* `resolve` — what a path leads to, or the obstacle on the way
* `read`, `write` — a file's bytes
-/

namespace AsmLens

/-- Why a file cannot be opened. -/
inductive Obstacle
  | absent | isFolder | notFolder | nameTooLong
deriving DecidableEq, Repr

namespace Obstacle

/-- The number and the wording of an obstacle. -/
def description : Obstacle → Nat × String
  | absent => (2, "No such file or directory")
  | isFolder => (21, "Is a directory")
  | notFolder => (20, "Not a directory")
  | nameTooLong => (36, "File name too long")

/-- The wording of an obstacle to opening a path. -/
def message (o : Obstacle) (path : String) : String :=
  "[Errno " ++ toString o.description.1 ++ "] " ++ o.description.2 ++ ": " ++ Text.quoted path

/-- The fault that an obstacle is where nothing else was expected. -/
def fault (o : Obstacle) (path : String) : Fault :=
  .cannotOpen
    (match o with
      | absent => .absent
      | isFolder => .isFolder
      | notFolder => .notFolder
      | nameTooLong => .system)
    (o.message path)

end Obstacle

/-- A place in the file system: the parts of a path from the current folder, or from the top. -/
structure Place where
  fromTop : Bool
  parts : List String
deriving DecidableEq, Repr

namespace Place

/-- The current folder. -/
def here : Place := ⟨false, []⟩

/-- The top of the file system. -/
def top : Place := ⟨true, []⟩

/-- A place below another one. -/
def below (p : Place) (part : String) : Place := { p with parts := p.parts ++ [part] }

/-- Whether a place is another one or above it. -/
def isAbove (p q : Place) : Bool := p.fromTop == q.fromTop && p.parts.isPrefixOf q.parts

end Place

/-- A folder in which a program runs, and the files and folders that it can see. -/
structure Folder where
  /-- The path of the folder. -/
  root : String
  /-- Contents by place. -/
  files : Ledger Place ByteArray
  /-- Folders besides those that hold files. -/
  folders : List Place := []

namespace Folder

/-- A folder without files. -/
def empty (root : String) : Folder := { root, files := ∅ }

/-! ## Places -/

/-- What is at a place. -/
inductive Entry
  | file (content : ByteArray)
  | folder

/-- The parts of a path. -/
def partsOf (path : String) : List String :=
  (path.splitOn "/").filter fun p => p ≠ "" && p ≠ "."

/-- The place of the folder, from the top. -/
def rootPlace (f : Folder) : Place := ⟨true, partsOf f.root⟩

/-- What is at a place. -/
def entry? (f : Folder) (p : Place) : Option Entry :=
  match f.files.find? p with
  | some content => some (.file content)
  | none =>
    if p.isAbove f.rootPlace || p.isAbove .here || (f.files.keys ++ f.folders).any p.isAbove then
      some .folder
    else none

/-- The place where a path starts, and the rest of the path. -/
def origin (f : Folder) (path : String) : Place × String :=
  if path = f.root then (.here, "")
  else if path.startsWith (f.root ++ "/") then (.here, (path.drop (f.root.length + 1)).toString)
  else if path.startsWith "/" then (.top, path)
  else (.here, path)

/-- The place above another one. -/
def above (f : Folder) (p : Place) : Place :=
  let p := if p = .here then f.rootPlace else p
  { p with parts := p.parts.dropLast }

/-- Whether a path can only name a folder. -/
def namesFolder (path : String) : Bool :=
  match (path.splitOn "/").getLast? with
  | some last => last = "" || last = "."
  | none => false

/-- The longest name of a file, in bytes. -/
def nameLimit : Nat := 255

/-- The place that a walk from a folder ends at. -/
def walk (f : Folder) (p : Place) : List String → Except Obstacle Place
  | [] => .ok p
  | part :: parts =>
    if part = ".." then f.walk (f.above p) parts
    else if nameLimit < part.utf8ByteSize then .error .nameTooLong
    else
      match f.entry? (p.below part) with
      | none => .error .absent
      | some .folder => f.walk (p.below part) parts
      | some (.file _) => if parts.isEmpty then .ok (p.below part) else .error .notFolder

/-- What a path leads to. -/
def resolve (f : Folder) (path : String) : Except Obstacle Entry := do
  if path.isEmpty then throw .absent
  let (start, rest) := f.origin path
  match f.entry? (← f.walk start (partsOf rest)) with
  | some (.file content) => if namesFolder rest then throw .notFolder else return .file content
  | _ => return .folder

/-! ## Files -/

/-- The bytes of a file. -/
def read (f : Folder) (path : String) : Except Obstacle ByteArray := do
  match ← f.resolve path with
  | .file content => return content
  | .folder => throw .isFolder

/-- The place of a file to be written. -/
def target (f : Folder) (path : String) : Except Obstacle Place := do
  if path.isEmpty then throw .absent
  let (start, rest) := f.origin path
  let parts := partsOf rest
  match parts.getLast? with
  | none => throw .isFolder
  | some name =>
    let p ← f.walk start parts.dropLast
    if let some (.file _) := f.entry? p then throw .notFolder
    if name = ".." then throw .isFolder
    if nameLimit < name.utf8ByteSize then throw .nameTooLong
    match f.entry? (p.below name) with
    | some .folder => throw .isFolder
    | _ => return p.below name

/-- The folder with a file written. -/
def write (f : Folder) (path : String) (content : ByteArray) : Except Obstacle Folder := do
  return { f with files := f.files.insert (← f.target path) content }

/-- The parts of a path after its steps upwards were taken, without a look at the folders. -/
def settleParts : List String → List String → List String
  | done, [] => done.reverse
  | done, part :: parts =>
    if part = ".." then settleParts done.tail parts else settleParts (part :: done) parts

/-- The place of a path, without a look at the folders. -/
def placeOf (f : Folder) (path : String) : Place :=
  let (start, rest) := f.origin path
  let base := if start.fromTop then [] else partsOf f.root
  let parts := settleParts [] (base ++ partsOf rest)
  if !start.fromTop && base.isPrefixOf parts then ⟨false, parts.drop base.length⟩ else ⟨true, parts⟩

/-- The path of a place. -/
def pathOf (f : Folder) (p : Place) : String :=
  (if p.fromTop then "" else f.root) ++ String.join (p.parts.map ("/" ++ ·))

/-- A path in full and without steps upwards. -/
def absolute (f : Folder) (path : String) : String := f.pathOf (f.placeOf path)

/-- The folder with a file that is there. -/
def add (f : Folder) (path : String) (content : ByteArray) : Folder :=
  { f with files := f.files.insert (f.placeOf path) content }

/-- The folder with another folder that is there. -/
def addFolder (f : Folder) (path : String) : Folder :=
  { f with folders := f.placeOf path :: f.folders }

/-! ## Texts -/

/-- The text that some bytes are. -/
def decode (content : ByteArray) : Except Fault String :=
  match String.fromUTF8? content with
  | some s => .ok s
  | none => .error .notText

/-- A text with every line end, of whatever kind, made a newline. -/
def unifyLines : List Char → List Char
  | [] => []
  | '\r' :: '\n' :: cs => '\n' :: unifyLines cs
  | '\r' :: cs => '\n' :: unifyLines cs
  | c :: cs => c :: unifyLines cs

/-! ## Paths -/

/-- A path without empty parts and parts that lead nowhere else. -/
def tidy (path : String) : String :=
  let parts := partsOf path
  if path.startsWith "/" then "/" ++ "/".intercalate parts
  else if parts.isEmpty then "."
  else "/".intercalate parts

/-- The last part of a path. -/
def baseName (path : String) : String := (partsOf path).getLastD ""

end Folder

end AsmLens
