import Rendezvous.Views
import Rendezvous.Json.Protocol
import Rendezvous.Main
import Rendezvous.Proofs.Confirmations
import Rendezvous.Proofs.Conservation
import Rendezvous.Proofs.Eviction
import Rendezvous.Proofs.Faults
import Rendezvous.Proofs.Fetching
import Rendezvous.Provider.Rehearsal
import Rendezvous.Provider.Script
import Rendezvous.Settings.Form
import Rendezvous.Proofs.Lifetime
import Rendezvous.Proofs.Redelivery
import Rendezvous.Proofs.Postings
import Rendezvous.Proofs.DeadLetters
import Rendezvous.Proofs.Turns
import Rendezvous.Proofs.Undisturbed
import Rendezvous.Proofs.Sweeping
import Rendezvous.Proofs.Loads
import Rendezvous.Proofs.HandlerTurns
import Rendezvous.Proofs.LoopbackTurns
import Rendezvous.Proofs.Courses
import Rendezvous.Proofs.CourseTurns
import Rendezvous.Proofs.EndToEnd
import Rendezvous.Proofs.Waiting
import Rendezvous.Proofs.Sessions
import Rendezvous.KeyLocks.Slots
import Rendezvous.Proofs.Lines
import Rendezvous.Proofs.Slots
import Rendezvous.Proofs.Rounds
import Rendezvous.Proofs.Leftovers
import Rendezvous.Bus.Traffic
import Rendezvous.Proofs.Traffic
import Rendezvous.Registry.States
import Rendezvous.Proofs.States
import Rendezvous.OutcomeBoard.Lobby
import Rendezvous.Proofs.Lobby
import Rendezvous.Proofs.Readers
import Rendezvous.Engine.Serve
import Rendezvous.Proofs.Edits
import Rendezvous.Proofs.Locality
import Rendezvous.Proofs.Exactness
import Rendezvous.Proofs.Independence
import Rendezvous.Proofs.Expiry
import Rendezvous.Proofs.Misfits
import Rendezvous.Proofs.Offers
import Rendezvous.CommandLine.Inquiries
import Rendezvous.Proofs.CommandLine
import Rendezvous.Csv.Pull
import Rendezvous.Proofs.Cells
import Rendezvous.Proofs.Columns
import Rendezvous.Proofs.BrokenSources
import Rendezvous.Proofs.EnclosedRows
import Rendezvous.Csv.Strict
import Rendezvous.Proofs.StrictRecords
import Rendezvous.Proofs.Decoding
import Rendezvous.Proofs.FullSinks
import Rendezvous.Settings.Setting
import Rendezvous.Proofs.Layers
import Rendezvous.Toml.Quoted
import Rendezvous.Settings.TextSetting
import Rendezvous.Proofs.TomlTexts
import Rendezvous.Proofs.TextSettings
import Rendezvous.Time.Clock
import Rendezvous.Proofs.Arguments
import Rendezvous.Proofs.TimeArithmetic
import Rendezvous.Json.Spelling
import Rendezvous.Proofs.NamedTexts
import Rendezvous.Proofs.Forms
import Rendezvous.Proofs.RecordForms
import Rendezvous.Proofs.Terms
