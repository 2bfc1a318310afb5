import Rendezvous.Assoc
import Rendezvous.Provider.Services

/-!
# Scripted services

Services that answer from a script and never call back: whoever runs the engine delivers the
callbacks.  Refusals, substitute assets and negotiation ids can be scripted; the rest is answered by
rule.
-/

namespace Rendezvous

/-- The answers to give. -/
structure Script where
  /-- The assets without an offer, and what the catalog says about them. -/
  noOffer : Assoc String String := {}
  /-- The assets whose offer is for another asset. -/
  substitute : Assoc String String := {}
  noNegotiation : Assoc String String := {}
  noTransfer : Assoc String String := {}
  /-- The ids of the first negotiations. -/
  ids : List String := []
  negotiations : Nat := 0
  transfers : Nat := 0

namespace Script

/-- Refuses what is listed and otherwise gives `answer`. -/
def unlessRefused {α : Type} (refusals : Assoc String String) (asset : AssetId) (answer : α) :
    Except EngineError α :=
  match refusals.get? asset.text with
  | some text => .error (.collaborator text)
  | none => .ok answer

instance : Services Script where
  respond s
    | .resolve provider asset =>
        let offered : AssetId := ⟨(s.substitute.get? asset.text).getD asset.text⟩
        let offer : ContractOffer := { id := "offer-" ++ asset.text, asset := offered, provider }
        (.offer (unlessRefused s.noOffer asset offer), [], s)
    | .negotiate offer =>
        let n := s.negotiations + 1
        let id := (s.ids[s.negotiations]?).getD ("neg-" ++ toString n)
        (.negotiation (unlessRefused s.noNegotiation offer.asset ⟨id⟩), [],
          { s with negotiations := n })
    | .transfer request =>
        let n := s.transfers + 1
        let id : TransferProcessId := ⟨"tp-" ++ toString n⟩
        (.transfer (unlessRefused s.noTransfer request.asset id), [], { s with transfers := n })

end Script

end Rendezvous
