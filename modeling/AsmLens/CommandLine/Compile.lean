import AsmLens.CommandLine.Input
import AsmLens.CommandLine.Invocation
import AsmLens.CommandLine.Show
import AsmLens.Session.Conversation
import AsmLens.Settings.File
import AsmLens.View.Wire

/-!
# Compile

Has a source compiled by the service, and one of its contracts executed symbolically,
and shows the tables.

A conversation with the service is run on the console: what it asks and notes is written
to the console, and the replies it uses up are gone from there. Whatever happens, the
session is closed before the command ends.
-/

namespace AsmLens.CommandLine

open Terminal (Tone)

/-- A conversation on a console. -/
def converse (c : Console) (s : Session) : Conversation where
  session := s
  script := c.replies.map fun r => ⟨[], r⟩
  closing := c.closing
  prompt := c.timePasses
  requests := []
  notes := []
  threads := c.threads

/-- The console after a conversation on it. -/
def Console.after (c : Console) (d : Conversation) : Console :=
  let c := c.tell d.notes
  { c with
    replies := d.script.map (·.reply)
    requests := c.requests ++ d.requests.map fun r => (r, d.session.client.timeout) }

/-- A part of a command that works with a session; the session is there even after a failure. -/
def Talk (α : Type) : Type := Session → Console → (Console × Session) × Result α

namespace Talk

variable {α β : Type}

/-- One part after another. -/
protected def bind (x : Talk α) (f : α → Talk β) : Talk β := fun s c =>
  match x s c with
  | ((c, s), .ok a) => f a s c
  | (state, .error e) => (state, .error e)

instance : Monad Talk where
  pure a := fun s c => ((c, s), .ok a)
  bind := Talk.bind

instance : MonadLift Action Talk where
  monadLift x := fun s c =>
    let (c, r) := x c
    ((c, s), r)

/-- The session as it is. -/
def look : Talk Session := fun s c => ((c, s), .ok s)

/-- An outcome. -/
def ofResult (r : Result α) : Talk α := fun s c => ((c, s), r)

/-- A conversation with the service. -/
def say (f : Conversation → Conversation × Result α) : Talk α := fun s c =>
  let (d, r) := f (converse c s)
  ((c.after d, d.session), r)

/-- What a session makes of itself, run as an action; the session is closed at the end. -/
def run (x : Talk α) (s : Session) (atEnd : Result α → Action β) : Action β := fun c =>
  let ((c, s), r) := x s c
  let (c, b) := atEnd r c
  (c.tell s.close.2, b)

end Talk

/-- The settings that a command works with. -/
def loadSettings (o : CompileOptions) : Action Settings := do
  let c ← Action.look
  let s ← Settings.load c.folder o.settings c.serviceUrl c.parser
  return s.withUrl o.serviceUrl

/-- The settings written to the settings file. -/
def saveSettings (o : CompileOptions) (s : Settings) : Action Unit := do
  let path ← Action.changeFolder fun folder => s.save folder none
  if !o.json then
    Action.print (Tone.success.paint (← Action.look).color ("✓ Configuration saved to " ++ Folder.baseName path))

/-- The service's address as it is shown. -/
def shownUrl (s : Settings) : String := s.service.url.display

/-- A line on what is done, unless a document is asked for. -/
def announce (o : CompileOptions) (what subject : String) : Action Unit := do
  if !o.json then Action.print (what ++ " " ++ Tone.info.paint (← Action.look).color subject)

/-- The line on a job that the service does not know any more. -/
def vanished (what : String) : String :=
  what ++ " task disappeared from the service, please try again"

/-- Waits for a job; whether the service still knew it. -/
def waitFor (o : CompileOptions) (kind : JobKind) (what : String) : Talk Bool := do
  match ← Talk.ofResult ((← Talk.look).wait kind o.timeout) with
  | .idle =>
    Action.print (Tone.warning.paint (← Action.look).color (vanished what))
    return false
  | _ => return true

/-- The compilation, and the symbolic execution if one is asked for; whether both were done. -/
def runJobs (o : CompileOptions) (source : String) : Talk Bool := do
  announce o "Compiling with" (shownUrl (← Talk.look).settings)
  let _ ← Talk.say (·.compile source)
  if !(← waitFor o .compile "Compile") then return false
  match o.symexec.filter fun name => !name.isEmpty with
  | none => return true
  | some contract =>
    announce o "Running symbolic execution of" contract
    let _ ← Talk.say (·.symexec contract (some source))
    waitFor o .symexec "Symbolic execution"

/-- The jobs run; the session afterwards, or nothing if a job is not known any more. -/
def runAll (o : CompileOptions) (source : String) : Talk (Option Session) := do
  if ← runJobs o source then return some (← Talk.look) else return none

/-- What `compile` shows of a session. -/
def showCompiled (o : CompileOptions) (s : Session) : Action Nat := do
  match s.store.installed with
  | none => return 0
  | some c =>
    Action.note .debug ("Compilation produced " ++ toString c.tables.size ++ " contract(s)")
    if o.json then Action.printJson (← c.toDoc none true)
    else c.tables.values.forM printWithSummary
    return 0

/-- How the jobs ended: what the session is then, or the code with which the command ends. -/
def settleJobs (o : CompileOptions) : Result (Option Session) → Action (Nat ⊕ Session)
  | .ok (some s) => return .inr s
  | .ok none => return .inl Action.problemCode
  | .error (.problem p) => do
    Action.tellProblem o.json p
    return .inl Action.problemCode
  | .error (.fault f) => Action.ofResult (.error (.fault f))

/-- The source, and a session with the settings that a command works with. -/
def prepare (o : CompileOptions) : Action (String × Session) := do
  let settings ← loadSettings o
  if o.saveSettings then saveSettings o settings
  let source ← Action.readSource o.source
  return (source, ← Session.new settings)

/-- The command `compile`. -/
def compile (o : CompileOptions) : Action Nat :=
  Action.guarded o.json (prepare o) fun (source, session) => do
    match ← (runAll o source).run session (settleJobs o) with
    | .inl code => return code
    | .inr session => showCompiled o session

end AsmLens.CommandLine
