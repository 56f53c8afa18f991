import AsmLens.Folder
import AsmLens.Log.Setup
import AsmLens.Log.Traced
import AsmLens.Service.Client
import AsmLens.Yaml.Reader

/-!
# The console

What a command works with: the files it can see, the replies the service will give, and
what it has written so far. A command that fails halfway has written what it wrote.

* `Console` — the state
* `Action` — what a command is made of: it changes the state and gives a value or fails
-/

namespace AsmLens.CommandLine

/-- What a command works with. -/
structure Console where
  folder : Folder
  /-- Whether the standard output has colors. -/
  color : Bool
  /-- Whether the standard error has colors. -/
  errorColor : Bool
  /-- The service's address from outside. -/
  serviceUrl : Option String
  /-- What the service will reply. -/
  replies : List Reply
  /-- What the service replies after that. -/
  closing : Reply
  /-- Whether time passes while the command waits. -/
  timePasses : Bool
  /-- The time that log lines carry. -/
  time : String
  log : LogSetup
  /-- What was written to the standard output. -/
  output : String
  /-- What was written to the standard error. -/
  errors : String
  requests : List (Request × Yaml.Value)
  /-- How the text of a settings file is read. -/
  parser : Yaml.Parser := Yaml.read
  /-- Whether the timers of a session have threads of their own. -/
  threads : Bool := false

namespace Console

/-- The console with a line written to the standard output. -/
def print (c : Console) (line : String) : Console := { c with output := c.output ++ line ++ "\n" }

/-- The console with a line written to the standard error. -/
def complain (c : Console) (line : String) : Console := { c with errors := c.errors ++ line ++ "\n" }

/-- A folder with text added to the end of a file. -/
def append (folder : Folder) (path text : String) : Except Obstacle Folder :=
  let before := (folder.read path).toOption.getD .empty
  folder.write path (before ++ text.toUTF8)

/-- The console after some notes. -/
def tell (c : Console) (notes : List Note) : Console :=
  let folder := match c.log.logFile? with
    | some path =>
      ((append c.folder (c.folder.absolute path) (c.log.fileLines c.time notes)).toOption).getD c.folder
    | none => c.folder
  { c with folder, errors := c.errors ++ c.log.consoleLines c.errorColor notes }

end Console

/-- A part of a command. -/
def Action (α : Type) : Type := Console → Console × Result α

namespace Action

variable {α β : Type}

/-- A value and nothing done. -/
protected def pure (a : α) : Action α := fun c => (c, .ok a)

/-- One action after another. -/
protected def bind (x : Action α) (f : α → Action β) : Action β := fun c =>
  match x c with
  | (c, .ok a) => f a c
  | (c, .error e) => (c, .error e)

instance : Monad Action where
  pure := Action.pure
  bind := Action.bind

/-- An outcome with nothing done. -/
def ofResult (r : Result α) : Action α := fun c => (c, r)

instance : MonadLift (Except Failure) Action where
  monadLift := ofResult

instance : MonadLift (Except Problem) Action where
  monadLift r := ofResult (liftM r)

instance : MonadLift (Except Fault) Action where
  monadLift r := ofResult (liftM r)

instance : MonadLift Traced Action where
  monadLift t := fun c => (c.tell t.notes, t.outcome)

/-- The console as it is. -/
def look : Action Console := fun c => (c, .ok c)

/-- The console changed. -/
def change (f : Console → Console) : Action Unit := fun c => (f c, .ok ())

/-- The folder changed, and what is noted on that told afterwards. -/
def changeFolder (f : Folder → Traced (Folder × α)) : Action α := fun c =>
  let t := f c.folder
  match t.outcome with
  | .ok (folder, a) => ({ c with folder }.tell t.notes, .ok a)
  | .error e => (c.tell t.notes, .error e)

/-- A line on the standard output. -/
def print (line : String) : Action Unit := change (·.print line)

/-- A document on the standard output. -/
def printJson (d : Doc) : Action Unit := print (d.toJson (some 2))

/-- A note from the program as a whole. -/
def note (level : LogLevel) (message : String) : Action Unit :=
  change (·.tell [⟨level, "", message⟩])

/-- A failure that is a problem. -/
def fail (p : Problem) : Action α := ofResult (Failure.raise p)

/-- A problem told: on the standard error, in color where the standard output has colors, or as a
document on the standard output. -/
def tellProblem (json : Bool) (p : Problem) : Action Unit :=
  if json then print p.report.toJson
  else change fun c => c.complain (Terminal.Tone.error.paint c.color p.report.text)

/-- The code with which the program ends after a problem. -/
def problemCode : Nat := 1

/-- An action whose problems are told and end the command; `next` takes its value otherwise. -/
def guarded (json : Bool) (x : Action α) (next : α → Action Nat) : Action Nat := fun c =>
  match x c with
  | (c, .ok a) => next a c
  | (c, .error (.problem p)) => (do tellProblem json p; return problemCode : Action Nat) c
  | (c, .error (.fault f)) => (c, .error (.fault f))

end Action

end AsmLens.CommandLine
