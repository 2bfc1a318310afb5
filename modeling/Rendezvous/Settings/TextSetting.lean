import Rendezvous.Settings.Setting
import Rendezvous.Toml.Quoted

/-!
# Settings that are texts

The kind of the destination and the filter of the log are texts.  A file gives a text between
quotes; a variable gives one too, but what it gives can be the spelling of a boolean or a number.

* `TextSetting.inFile`: a file with nothing but one text in it;
* `taken`: the text that is taken from a variable;
* `Spells`: what else a text can be the spelling of.
-/

namespace Rendezvous

/-- A setting that is a text. -/
inductive TextSetting
  | destinationType
  | logFilter
deriving DecidableEq, Repr

namespace TextSetting

def setting : TextSetting → Setting
  | .destinationType => .destinationType
  | .logFilter => .logFilter

/-- The table that the setting stands in. -/
def group : TextSetting → String
  | .destinationType => "transfer"
  | .logFilter => "logging"

/-- The text in some settings. -/
def of (s : Settings) : TextSetting → String
  | .destinationType => s.transfer.destinationType
  | .logFilter => s.logging.filter

/-- The default settings but for a text. -/
def alone (text : String) : TextSetting → Settings
  | .destinationType => { transfer := { destinationType := text } }
  | .logFilter => { logging := { filter := text } }

/-- A file with nothing but a text for a setting. -/
def inFile (text : String) (x : TextSetting) : String :=
  String.ofList (("[" ++ x.group ++ "]\n" ++ x.setting.name ++ " = ").toList
    ++ Toml.quoted text ++ ['\n'])

end TextSetting

namespace Settings

/-- The text that is taken from a variable with a text in it. -/
def taken (s : String) : String := (Scalar.ofText s).toText

/-- What a text is the spelling of, written as it is taken. -/
inductive Spells (s : String) : String → Prop
  /-- A boolean in letters of any size. -/
  | boolean (b : Bool) (h : Text.small s = toString b) : Spells s (toString b)
  | whole (n : Int) (h : whole? s.toList = some n) : Spells s (toString n)
  /-- A number with a point or an exponent, or one that is too large for a whole number. -/
  | real (x : Binary64) (hwhole : whole? s.toList = none) (h : Binary64.read? s.toList = some x) :
      Spells s x.plain

end Settings

end Rendezvous
