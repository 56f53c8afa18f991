import AsmLens.Folder
import AsmLens.Settings.Basic
import AsmLens.Yaml.Reader
import AsmLens.Yaml.Writer

/-!
# Settings files

Settings are kept in a YAML file. Without a choice of file it is the one of a fixed name
in the current folder, which need not exist; a file that was chosen has to. A service
address from outside takes the place of the file's. What a YAML text denotes is up to a
parser.
-/

namespace AsmLens.Settings

open Yaml

/-- The name of the settings file. -/
def fileName : String := "solbolt.config.yaml"

/-- The settings file: the one chosen, or that of the fixed name. -/
def filePath (folder : Folder) (chosen : Option String) : String :=
  match chosen with
  | some path => if path.isEmpty then folder.root ++ "/" ++ fileName else Folder.tidy path
  | none => folder.root ++ "/" ++ fileName

/-- Whether a settings file was chosen. -/
def isChosen (chosen : Option String) : Bool := chosen.any fun path => !path.isEmpty

/-- The value that a settings file holds. -/
def fileValue (parser : Parser) (folder : Folder) (path : String) : Result Value := do
  match folder.read path with
  | .error o => Failure.raise (.unreadableSettings (o.message path) path)
  | .ok content =>
    let text ← Folder.decode content
    match parser (Folder.unifyLines text.toList) with
    | .ok v => return v
    | .error (.inl e) => Failure.raise (.unreadableSettings e.message path)
    | .error (.inr f) => throw (.fault f)

/-- The settings that a value from a file makes. A value of a wrong type is a problem of the file. -/
def readFrom (path : String) (v : Value) : Traced Settings :=
  match v.orElse (.mapping []) with
  | .mapping es =>
    let read := read (.mapping es)
    match read.outcome with
    | .error (.fault f) =>
      if f.kind = .type then ⟨read.notes, Failure.raise (.invalidSettings f path)⟩ else read
    | _ => read
  | _ => Traced.fail (.settingsNotMapping path)

/-- The settings with the service's address from outside, unless it is empty. -/
def withUrl (s : Settings) : Option String → Settings
  | some url => if url.isEmpty then s else { s with service := { s.service with url := .text url } }
  | none => s

/-- The settings from a file. -/
def load (folder : Folder) (chosen url : Option String) (parser : Parser := Yaml.read) :
    Traced Settings := do
  let path := filePath folder chosen
  match folder.resolve path with
  | .ok _ =>
    let s ← readFrom path (← fileValue parser folder path)
    Traced.note .debug origin ("Loaded configuration from " ++ path)
    return s.withUrl url
  | .error .nameTooLong => Traced.fault (Obstacle.nameTooLong.fault path)
  | .error _ =>
    if isChosen chosen then Traced.fail (.settingsNotFound path path)
    else return default.withUrl url

/-- The settings written to a file: the folder with it, and its path. -/
def save (s : Settings) (folder : Folder) (chosen : Option String) : Traced (Folder × String) := do
  let path := filePath folder chosen
  match folder.write path (Yaml.write s.toValue).toUTF8 with
  | .error o => Traced.fail (.unwritableSettings (o.message path) path)
  | .ok folder =>
    Traced.note .info origin ("Configuration saved to " ++ path)
    return (folder, path)

end AsmLens.Settings
