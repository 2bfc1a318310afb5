import Rendezvous.Report.Writer
import Rendezvous.Settings.Convert

/-!
# The arguments of the command line

The program is called with the file of requests and with options.  An option is followed by its
value, as the next argument or after an equals sign; the options that list assets can be repeated,
the others cannot.  After `--` nothing is an option any more.  Arguments are looked at one after the
other: the first thing wrong, or the first call for help, decides.
-/

namespace Rendezvous.CommandLine

/-- What the program is to do with the requests in a file. -/
structure Args where
  input : String
  config? : Option String := none
  catalog : List String := []
  decline : List String := []
  silent : List String := []
  latencyMs : Nat := 5
  timeoutSecs : Nat := 30
  format : Report.Format := .csv
deriving DecidableEq, Repr

/-- What the program is called for. -/
inductive Command
  | run (a : Args)
  | help
  | version
deriving DecidableEq, Repr

/-- Why the program cannot be called with some arguments. -/
inductive UsageError
  | unexpected (arg : String)
  | missingValue (option : String)
  | repeated (option : String)
  | invalidValue (value option : String)
  | missingInput
deriving DecidableEq, Repr

/-- The error as a line of text. -/
def UsageError.message : UsageError → String
  | .unexpected arg => "error: unexpected argument '" ++ arg ++ "' found"
  | .missingValue option =>
      "error: a value is required for '" ++ option ++ "' but none was supplied"
  | .repeated option => "error: the argument '" ++ option ++ "' cannot be used multiple times"
  | .invalidValue value option => "error: invalid value '" ++ value ++ "' for '" ++ option ++ "'"
  | .missingInput => "error: the following required arguments were not provided: <INPUT>"

/-- The arguments that have been looked at. -/
structure Draft where
  input? : Option String := none
  config? : Option String := none
  catalog : List String := []
  decline : List String := []
  silent : List String := []
  latencyMs? : Option Nat := none
  timeoutSecs? : Option Nat := none
  format? : Option Report.Format := none

/-! ### Single options -/

/-- The option that is set by a value, unless it is set already or the value is not one. -/
def once {α : Type} (option : String) (read? : String → Option α) (old? : Option α)
    (value : String) : Except UsageError (Option α) :=
  match old?, read? value with
  | some _, _ => .error (.repeated option)
  | none, none => .error (.invalidValue value option)
  | none, some a => .ok (some a)

/-- A path; it cannot be empty. -/
def path? (s : String) : Option String := if s.isEmpty then none else some s

/-- The name of a format. -/
def formatNamed? : String → Option Report.Format
  | "csv" => some .csv
  | "json" => some .json
  | _ => none

/-- The assets in a list with commas. -/
def assets (s : String) : List String := (s.toList.splitOn ',').map String.ofList

/-- Sets an option; nothing if there is no option of that name. -/
def Draft.set? (d : Draft) (name value : String) : Option (Except UsageError Draft) :=
  let number (s : String) : Option Nat := Settings.natural? s.toList
  match name with
  | "--config" => some ((once name path? d.config? value).map fun config? => { d with config? })
  | "--catalog" => some (.ok { d with catalog := d.catalog ++ assets value })
  | "--decline" => some (.ok { d with decline := d.decline ++ assets value })
  | "--silent" => some (.ok { d with silent := d.silent ++ assets value })
  | "--latency-ms" =>
      some ((once name number d.latencyMs? value).map fun latencyMs? => { d with latencyMs? })
  | "--timeout-secs" =>
      some ((once name number d.timeoutSecs? value).map fun timeoutSecs? => { d with timeoutSecs? })
  | "--format" =>
      some ((once name formatNamed? d.format? value).map fun format? => { d with format? })
  | _ => none

/-- Takes the file of requests. -/
def Draft.setInput (d : Draft) (arg : String) : Except UsageError Draft :=
  match d.input? with
  | some _ => .error (.unexpected arg)
  | none => (once "<INPUT>" path? none arg).map fun input? => { d with input? }

/-! ### Reading arguments -/

/-- What an argument looks like. -/
inductive Shape
  /-- Two dashes: only files follow. -/
  | onlyFiles
  /-- Two dashes and a name, perhaps with a value after an equals sign. -/
  | long (name : String) (value? : Option String)
  /-- One dash and letters. -/
  | short (first : Char)
  | plain
deriving DecidableEq, Repr

/-- The shape of an argument. -/
def Shape.of (arg : String) : Shape :=
  match arg.toList with
  | ['-', '-'] => .onlyFiles
  | '-' :: '-' :: cs =>
      match cs.span (· ≠ '=') with
      | (name, []) => .long ("--" ++ String.ofList name) none
      | (name, _ :: value) => .long ("--" ++ String.ofList name) (some (String.ofList value))
  | '-' :: c :: _ => .short c
  | _ => .plain

/-- What has been found out about the arguments. -/
inductive Reading
  | draft (d : Draft)
  | help
  | version

/-- Takes arguments of which none is an option. -/
def readFiles : Draft → List String → Except UsageError Reading
  | d, [] => .ok (.draft d)
  | d, arg :: args => do readFiles (← d.setInput arg) args

/-- Sets an option to the value that stands with it, or to the next argument. -/
def Draft.setLong (d : Draft) (name : String) (value? next? : Option String) :
    Except UsageError Draft :=
  let value? := value? <|> next?.filter fun arg => Shape.of arg = .plain
  match d.set? name (value?.getD ""), value? with
  | none, _ => .error (.unexpected name)
  | some _, none => .error (.missingValue name)
  | some d?, some _ => d?

/-- Looks at the arguments one after the other. -/
def readArgs : Draft → List String → Except UsageError Reading
  | d, [] => .ok (.draft d)
  | d, arg :: args =>
      match Shape.of arg with
      | .onlyFiles => readFiles d args
      | .plain => do readArgs (← d.setInput arg) args
      | .short 'h' | .long "--help" none => .ok .help
      | .short 'V' | .long "--version" none => .ok .version
      | .short _ => .error (.unexpected arg)
      | .long name (some value) => do readArgs (← d.setLong name (some value) none) args
      | .long name none =>
          match args with
          | [] => do readArgs (← d.setLong name none none) []
          | next :: rest => do readArgs (← d.setLong name none (some next)) rest

/-- The variable that names the file of settings unless an option does. -/
def configVariable : String := "CP_ADAPTER_CONFIG"

/-- The value of a variable. -/
def lookup? (environment : List (String × String)) (name : String) : Option String :=
  (environment.find? fun v => v.1 = name).map Prod.snd

/-- The file of settings: that of the option or, without one, that of the variable. -/
def Draft.settingsPath? (d : Draft) (environment : List (String × String)) :
    Except UsageError (Option String) :=
  match d.config?, lookup? environment configVariable with
  | some path, _ => .ok (some path)
  | none, some path => once "--config" path? none path
  | none, none => .ok none

/-- What the program is called for by its arguments. -/
def parse (environment : List (String × String)) (args : List String) :
    Except UsageError Command := do
  match ← readArgs {} args with
  | .help => return .help
  | .version => return .version
  | .draft d =>
      let config? ← d.settingsPath? environment
      match d.input? with
      | none => .error .missingInput
      | some input =>
          let a : Args := { input }
          return .run
            { input
              config?
              catalog := d.catalog
              decline := d.decline
              silent := d.silent
              latencyMs := d.latencyMs?.getD a.latencyMs
              timeoutSecs := d.timeoutSecs?.getD a.timeoutSecs
              format := d.format?.getD a.format }

end Rendezvous.CommandLine
