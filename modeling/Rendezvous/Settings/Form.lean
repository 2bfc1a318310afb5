import Rendezvous.Json.Form
import Rendezvous.Settings.Basic

/-!
# Settings as JSON values

Settings are written as a record in which each field may be missing; a missing field has its
default.
-/

namespace Rendezvous

open Json

/-- The fields of the settings for transfers. -/
def TransferSettings.fields : List Form.Field :=
  [⟨"destination_type", String, Form.text, some ({} : TransferSettings).destinationType⟩]

/-- The settings for transfers as a record. -/
def TransferSettings.form : Form TransferSettings :=
  Form.record "TransferConfig" TransferSettings.fields
    (fun (destinationType, ()) => { destinationType })
    fun s => (s.destinationType, ())

/-- The fields of the settings for logging. -/
def LoggingSettings.fields : List Form.Field :=
  [⟨"filter", String, Form.text, some ({} : LoggingSettings).filter⟩,
   ⟨"json", Bool, Form.boolean, some ({} : LoggingSettings).json⟩]

/-- The settings for logging as a record. -/
def LoggingSettings.form : Form LoggingSettings :=
  Form.record "LoggingConfig" LoggingSettings.fields
    (fun (filter, json, ()) => { filter, json })
    fun s => (s.filter, s.json, ())

/-- The fields of the settings. -/
def Settings.fields : List Form.Field :=
  let d : Settings := {}
  [⟨"case_ttl_secs", Nat, Form.natural, some d.caseTtlSecs⟩,
   ⟨"sweep_interval_ms", Nat, Form.natural, some d.sweepIntervalMs⟩,
   ⟨"result_ttl_secs", Nat, Form.natural, some d.resultTtlSecs⟩,
   ⟨"offer_cache_ttl_secs", Nat, Form.natural, some d.offerCacheTtlSecs⟩,
   ⟨"parked_event_ttl_secs", Nat, Form.natural, some d.parkedEventTtlSecs⟩,
   ⟨"transfer", TransferSettings, TransferSettings.form, some {}⟩,
   ⟨"logging", LoggingSettings, LoggingSettings.form, some {}⟩]

/-- Settings as a record. -/
def Settings.form : Form Settings :=
  Form.record "AdapterConfig" Settings.fields
    (fun (caseTtlSecs, sweepIntervalMs, resultTtlSecs, offerCacheTtlSecs, parkedEventTtlSecs,
        transfer, logging, ()) =>
      { caseTtlSecs, sweepIntervalMs, resultTtlSecs, offerCacheTtlSecs, parkedEventTtlSecs,
        transfer, logging })
    fun s =>
      (s.caseTtlSecs, s.sweepIntervalMs, s.resultTtlSecs, s.offerCacheTtlSecs, s.parkedEventTtlSecs,
        s.transfer, s.logging, ())

end Rendezvous
