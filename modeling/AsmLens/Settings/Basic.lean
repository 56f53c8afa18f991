import AsmLens.Settings.Compiler
import AsmLens.Settings.Symexec

/-!
# Settings

All settings: those of compilations, those of symbolic executions, and where the service
is. Written out they are a mapping of three sections.
-/

namespace AsmLens

open Yaml

/-- Where the service is and how long it may take to answer. -/
structure ServiceSettings where
  url : Value := .text "http://127.0.0.1:5000"
  timeout : Value := .int 30

namespace ServiceSettings

open Settings

/-- The settings without a choice made. -/
def default : ServiceSettings := {}

/-- The names and values of the settings. -/
def members (s : ServiceSettings) : List (String × Value) :=
  [("url", s.url), ("timeout", s.timeout)]

/-- The names of the settings. -/
def names : List String := default.members.map Prod.fst

/-- The settings as entries set them. -/
def ofEntries (es : List (Value × Value)) : ServiceSettings where
  url := setting es "url" default.url
  timeout := setting es "timeout" default.timeout

/-- The settings as a value. -/
def toValue (s : ServiceSettings) : Value := .mapping (entriesFrom s.members)

/-- The settings that a value makes. -/
def read (v : Value) : Traced ServiceSettings := do
  return ofEntries (← knownEntries "service" names (.mapping (← entriesOf (v.orElse (.mapping [])))))

end ServiceSettings

/-- All settings. -/
structure Settings where
  compiler : CompilerSettings := {}
  symexec : SymexecSettings := {}
  service : ServiceSettings := {}

namespace Settings

/-- The settings without a choice made. -/
def default : Settings := {}

/-- The settings as a value. -/
def toValue (s : Settings) : Value :=
  .mapping (entriesFrom [("compiler", s.compiler.toValue), ("symexec", s.symexec.toValue),
    ("service", s.service.toValue)])

/-- One section of the settings. -/
def sectionOf (name : String) : Value → Except Fault Value
  | .mapping es => .ok (setting es name .null)
  | v => .error (.noAttribute v.shape "get")

/-- The settings that a value makes. -/
def read (v : Value) : Traced Settings := do
  let v := v.orElse (.mapping [])
  let compiler ← CompilerSettings.read (← sectionOf "compiler" v)
  let symexec ← SymexecSettings.read (← sectionOf "symexec" v)
  let service ← ServiceSettings.read (← sectionOf "service" v)
  return { compiler, symexec, service }

end Settings

end AsmLens
