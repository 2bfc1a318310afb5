import Rendezvous.Settings.Convert
import Rendezvous.Settings.Sources

/-!
# Loading settings

Settings come from a file, if there is one, and from the environment; a variable of the environment
wins over the file, and a setting that neither has is at its default.  Only valid settings are
loaded.
-/

namespace Rendezvous.Settings

/-- A file of settings, as far as it can be read. -/
structure SettingsFile where
  path : String
  text? : Option String

/-- Why settings cannot be loaded. -/
inductive LoadError
  /-- The file cannot be read. -/
  | unreadable (path : String)
  /-- The file is not a document. -/
  | notDocument (path : String)
  | misfit (m : Misfit)
  | invalid (i : Invalid)
deriving DecidableEq, Repr

/-- The error as a line of text. -/
def LoadError.message : LoadError → String
  | .unreadable path => "Configuration error: configuration file \"" ++ path ++ "\" not found"
  | .notDocument path => "Configuration error: " ++ path ++ " is not valid TOML"
  | .misfit m => "Configuration error: " ++ m.message
  | .invalid i => i.message

/-- The settings in a file, as a tree. -/
def readFile (file : SettingsFile) : Except LoadError Members :=
  match file.text? with
  | none => .error (.unreadable file.path)
  | some text =>
      match Toml.document? text with
      | none => .error (.notDocument file.path)
      | some document => .ok (overDocument (.file file.path) document [])

/-- The settings in a file and in the environment, as a tree. -/
def gather (file? : Option SettingsFile) (environment : List (String × String)) :
    Except LoadError Members := do
  let ms ← match file? with
    | none => .ok []
    | some file => readFile file
  return environment.foldl overVariable ms

/-- Loads settings. -/
def load (file? : Option SettingsFile) (environment : List (String × String)) :
    Except LoadError Settings := do
  let settings ← (ofMembers (← gather file? environment)).mapError .misfit
  match settings.objection? with
  | some objection => .error (.invalid objection)
  | none => .ok settings

end Rendezvous.Settings
