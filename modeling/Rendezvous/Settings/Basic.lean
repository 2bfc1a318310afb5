import Rendezvous.Text.Blank
import Rendezvous.Time

/-!
# Settings

How long things are kept, where transfers go and what is logged.  Settings can be read with any
values; they are valid if every time that must pass is positive and the destination has a kind.
-/

namespace Rendezvous

/-- Where transfers go. -/
structure TransferSettings where
  destinationType : String := "HttpProxy"
deriving DecidableEq, Repr

/-- What is logged. -/
structure LoggingSettings where
  /-- Which events are logged, unless the environment says otherwise. -/
  filter : String := "info,cp_adapter=debug"
  json : Bool := false
deriving DecidableEq, Repr

/-- The settings of an engine. -/
structure Settings where
  /-- How long a case may live. -/
  caseTtlSecs : Nat := 300
  /-- The time between two sweeps. -/
  sweepIntervalMs : Nat := 1000
  /-- How long an outcome can be read. -/
  resultTtlSecs : Nat := 600
  /-- How long an offer is reused; zero looks up every time. -/
  offerCacheTtlSecs : Nat := 60
  /-- How long an early confirmation is kept. -/
  parkedEventTtlSecs : Nat := 30
  transfer : TransferSettings := {}
  logging : LoggingSettings := {}
deriving DecidableEq, Repr

namespace Settings

/-- Why settings are not valid. -/
inductive Invalid
  | notPositive (name : String)
  | noDestination
deriving DecidableEq, Repr

/-- The objection as a line of text. -/
def Invalid.message : Invalid → String
  | .notPositive name => "Invalid configuration: " ++ name ++ " must be positive"
  | .noDestination => "Invalid configuration: transfer.destination_type must not be empty"

/-- The times that must be positive, in the order in which they are looked at. -/
def positive (s : Settings) : List (String × Nat) :=
  [("case_ttl_secs", s.caseTtlSecs), ("sweep_interval_ms", s.sweepIntervalMs),
   ("result_ttl_secs", s.resultTtlSecs), ("parked_event_ttl_secs", s.parkedEventTtlSecs)]

/-- The first objection to the settings, if there is one. -/
def objection? (s : Settings) : Option Invalid :=
  match s.positive.find? fun p => p.2 = 0 with
  | some (name, _) => some (.notPositive name)
  | none => if Text.allBlank s.transfer.destinationType then some .noDestination else none

/-- How long a case may live. -/
def caseTtl (s : Settings) : Nat := seconds s.caseTtlSecs

/-- The time between two sweeps. -/
def sweepInterval (s : Settings) : Nat := s.sweepIntervalMs

/-- How long an outcome can be read. -/
def resultTtl (s : Settings) : Nat := seconds s.resultTtlSecs

/-- How long an offer is reused. -/
def offerCacheTtl (s : Settings) : Nat := seconds s.offerCacheTtlSecs

/-- How long an early confirmation is kept. -/
def parkedEventTtl (s : Settings) : Nat := seconds s.parkedEventTtlSecs

end Settings

end Rendezvous
