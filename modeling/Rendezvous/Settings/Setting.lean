import Rendezvous.Settings.Load

/-!
# Settings, one by one

A setting has a name, in a file perhaps within the table of its group, and a variable of the
environment.  A source that gives settings and nothing else gives a single value for each of them.

* `Setting.read`: what a single value is as the content of a setting;
* `givenIn?`: the settings that a document gives, if it gives nothing else;
* `givenBy`: the settings that the variables of an environment give;
* `Sources`: a file and an environment that give each setting at most once;
* `Layered`: settings that come from the environment, then the file, then the defaults.
-/

namespace Rendezvous

/-- A setting. -/
inductive Setting
  | caseTtlSecs
  | sweepIntervalMs
  | resultTtlSecs
  | offerCacheTtlSecs
  | parkedEventTtlSecs
  | destinationType
  | logFilter
  | logJson
deriving DecidableEq, Repr

namespace Setting

/-- All settings. -/
def all : List Setting :=
  [.caseTtlSecs, .sweepIntervalMs, .resultTtlSecs, .offerCacheTtlSecs, .parkedEventTtlSecs,
   .destinationType, .logFilter, .logJson]

/-- The table that a setting stands in. -/
def group? : Setting → Option String
  | .destinationType => some "transfer"
  | .logFilter | .logJson => some "logging"
  | .caseTtlSecs | .sweepIntervalMs | .resultTtlSecs | .offerCacheTtlSecs | .parkedEventTtlSecs =>
      none

/-- The name of a setting within its group. -/
def name : Setting → String
  | .caseTtlSecs => "case_ttl_secs"
  | .sweepIntervalMs => "sweep_interval_ms"
  | .resultTtlSecs => "result_ttl_secs"
  | .offerCacheTtlSecs => "offer_cache_ttl_secs"
  | .parkedEventTtlSecs => "parked_event_ttl_secs"
  | .destinationType => "destination_type"
  | .logFilter => "filter"
  | .logJson => "json"

/-- The names that lead to a setting. -/
def names (x : Setting) : List String := x.group?.toList ++ [x.name]

/-- The name of a setting at the top of a file. -/
def dotted (x : Setting) : String := ".".intercalate x.names

/-- The variable of a setting, in small letters. -/
def variableName (x : Setting) : String := "cp_adapter_" ++ "__".intercalate x.names

/-- What a setting can be. -/
def Content : Setting → Type
  | .caseTtlSecs | .sweepIntervalMs | .resultTtlSecs | .offerCacheTtlSecs | .parkedEventTtlSecs =>
      Nat
  | .destinationType | .logFilter => String
  | .logJson => Bool

/-- The content of a setting. -/
def get (s : Settings) : (x : Setting) → x.Content
  | .caseTtlSecs => s.caseTtlSecs
  | .sweepIntervalMs => s.sweepIntervalMs
  | .resultTtlSecs => s.resultTtlSecs
  | .offerCacheTtlSecs => s.offerCacheTtlSecs
  | .parkedEventTtlSecs => s.parkedEventTtlSecs
  | .destinationType => s.transfer.destinationType
  | .logFilter => s.logging.filter
  | .logJson => s.logging.json

open Settings (Scalar) in
/-- A single value as the content of a setting. -/
def read (v : Scalar) : (x : Setting) → Except (String × String) x.Content
  | .caseTtlSecs | .sweepIntervalMs | .resultTtlSecs | .offerCacheTtlSecs | .parkedEventTtlSecs =>
      v.toNatural
  | .destinationType | .logFilter => .ok v.toText
  | .logJson => v.toBoolean

/-- The setting with a name within a group. -/
def within? (group name : String) : Option Setting :=
  all.find? fun x => x.group? = some group ∧ x.name = name

/-- The setting with a name at the top of a file. -/
def ofDotted? (name : String) : Option Setting := all.find? fun x => x.dotted = name

/-- The setting of a variable, whose name can be written in letters of any size. -/
def ofVariable? (name : String) : Option Setting :=
  all.find? fun x => Text.small name = x.variableName

end Setting

namespace Settings

/-- A single value from a file. -/
def Scalar.ofToml? : Toml.Value → Option Scalar
  | .text s => some (.text s)
  | .whole n => some (.whole n)
  | .real x => some (.real x)
  | .boolean b => some (.boolean b)
  | .moment s => some (.text s)
  | .list _ | .table _ => none

/-- The settings that the table of a group gives, if it gives nothing else. -/
def givenInGroup? (group : String) (members : List (String × Toml.Value)) :
    Option (List (Setting × Scalar)) :=
  members.mapM fun (name, v) => do
    return (← Setting.within? group (Text.small name), ← Scalar.ofToml? v)

/-- The groups of settings. -/
def groups : List String := ["transfer", "logging"]

/-- The settings that a member of a document gives, if it gives nothing else. -/
def givenAt? (name : String) : Toml.Value → Option (List (Setting × Scalar))
  | .table members => if name ∈ groups then givenInGroup? name members else none
  | v => do return [(← Setting.ofDotted? name, ← Scalar.ofToml? v)]

/-- The settings that a document gives, if it gives nothing else. -/
def givenIn? : List (String × Toml.Value) → Option (List (Setting × Scalar))
  | [] => some []
  | (name, v) :: document => do
      return (← givenAt? (Text.small name) v) ++ (← givenIn? document)

/-- The settings that the variables of an environment give. -/
def givenBy (environment : List (String × String)) : List (Setting × Scalar) :=
  environment.filterMap fun v => (Setting.ofVariable? v.1).map (·, Scalar.ofText v.2)

/-- Whether the name of a variable begins like those of the settings, in letters of any size. -/
def isOurs (name : String) : Bool := "cp_adapter_".toList.isPrefixOf (Text.small name).toList

/-- The document in a file; without a file it is empty. -/
def documentOf? : Option SettingsFile → Option (List (String × Toml.Value))
  | none => some []
  | some file => file.text?.bind Toml.document?

/-- A file and an environment that give settings and nothing else, each setting at most once in
either and with values that can be read. -/
structure Sources (file? : Option SettingsFile) (environment : List (String × String))
    (given : List (Setting × Scalar)) : Prop where
  file : (documentOf? file?).bind givenIn? = some given
  onceInFile : (given.map Prod.fst).Nodup
  known : ∀ v ∈ environment, isOurs v.1 → (Setting.ofVariable? v.1).isSome
  onceInEnvironment : ((givenBy environment).map Prod.fst).Nodup
  readable : ∀ p ∈ given ++ givenBy environment, ∃ c, p.1.read p.2 = .ok c

/-- Settings of which each comes from the uppermost layer that has it. -/
structure Layered (environment file : List (Setting × Scalar)) (settings : Settings) : Prop where
  ofVariable : ∀ x v, environment.lookup x = some v → x.read v = .ok (x.get settings)
  ofFile : ∀ x v, environment.lookup x = none → file.lookup x = some v →
    x.read v = .ok (x.get settings)
  ofDefault : ∀ x, environment.lookup x = none → file.lookup x = none → x.get settings = x.get {}

end Settings

end Rendezvous
