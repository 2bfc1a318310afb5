import Rendezvous.Proofs.RecordForms

/-!
# The terms of an exchange are read as they are written

Keys and ids are spelled by their text only.  A reason for failure is spelled by its name and its
text, and requests, offers, destinations, orders and references are spelled by their members, in any
order and among others, or by their contents without names; a reference can do without properties.
Each of them is read from exactly its spellings and is written as one of them, so what was written
is read back, and what was read and written anew means the same and stays as it is from then on.

* `terms_are_read_back`: the forms of all terms are faithful.
-/

namespace Rendezvous

open Json

/-! ## Texts and reasons -/

theorem CorrelationKey.faithful_form :
    CorrelationKey.form.Faithful fun key v => v = .text key.text :=
  Form.faithful_through_text (fun _ => rfl) fun _ => rfl

theorem AssetId.faithful_form : AssetId.form.Faithful fun asset v => v = .text asset.text :=
  Form.faithful_through_text (fun _ => rfl) fun _ => rfl

theorem NegotiationId.faithful_form : NegotiationId.form.Faithful fun n v => v = .text n.text :=
  Form.faithful_through_text (fun _ => rfl) fun _ => rfl

theorem ContractId.faithful_form : ContractId.form.Faithful fun c v => v = .text c.text :=
  Form.faithful_through_text (fun _ => rfl) fun _ => rfl

theorem TransferProcessId.faithful_form :
    TransferProcessId.form.Faithful fun t v => v = .text t.text :=
  Form.faithful_through_text (fun _ => rfl) fun _ => rfl

theorem FailureReason.faithful_form : FailureReason.form.Faithful FailureReason.SpelledBy := by
  apply Form.faithful_of_read_iff
  · intro reason v
    apply (Form.read_choice_iff (by decide)).trans
    cases reason with
    | timeout => simp [Form.Variant.SpelledBy, SpelledBy]
    | offerUnavailable text | negotiationFailed text | transferFailed text | internal text =>
      simp [Form.Variant.SpelledBy, SpelledBy]
  · intro reason
    cases reason with
    | timeout => exact .inl rfl
    | offerUnavailable text | negotiationFailed text | transferFailed text | internal text => rfl

/-! ## Records -/

theorem DataRequest.faithful_form :
    DataRequest.form.FaithfulRecord DataRequest.fields
      fun r => (r.key, r.asset, r.provider, ()) := by
  apply Form.faithful_record
  · decide
  · simp [DataRequest.fields, CorrelationKey.faithful_form.roundTrips,
      AssetId.faithful_form.roundTrips, Form.roundTrips_text]
  · exact fun _ => rfl
  · exact fun _ => rfl

theorem ContractOffer.faithful_form :
    ContractOffer.form.FaithfulRecord ContractOffer.fields
      fun o => (o.id, o.asset, o.provider, ()) := by
  apply Form.faithful_record
  · decide
  · simp [ContractOffer.fields, AssetId.faithful_form.roundTrips, Form.roundTrips_text]
  · exact fun _ => rfl
  · exact fun _ => rfl

theorem TransferDestination.faithful_form :
    TransferDestination.form.FaithfulRecord TransferDestination.fields
      fun d => (d.kind, d.properties, ()) := by
  apply Form.faithful_record
  · decide
  · simp [TransferDestination.fields, Form.faithful_properties.roundTrips, Form.roundTrips_text]
  · exact fun _ => rfl
  · exact fun _ => rfl

theorem TransferRequest.faithful_form :
    TransferRequest.form.FaithfulRecord TransferRequest.fields
      fun r => (r.contract, r.asset, r.provider, r.destination, ()) := by
  apply Form.faithful_record
  · decide
  · simp [TransferRequest.fields, ContractId.faithful_form.roundTrips,
      AssetId.faithful_form.roundTrips, TransferDestination.faithful_form.roundTrips,
      Form.roundTrips_text]
  · exact fun _ => rfl
  · exact fun _ => rfl

theorem DataReference.faithful_form :
    DataReference.form.FaithfulRecord DataReference.fields
      fun r => (r.id, r.endpoint, r.authKey, r.authCode, r.properties, ()) := by
  apply Form.faithful_record
  · decide
  · simp [DataReference.fields, Form.faithful_properties.roundTrips, Form.roundTrips_text]
  · exact fun _ => rfl
  · exact fun _ => rfl

/-- A reference without properties needs no member for them. -/
theorem DataReference.read_bare (id endpoint authKey authCode : String) :
    DataReference.form.read
        (.record [("id", .text id), ("endpoint", .text endpoint), ("auth_key", .text authKey),
          ("auth_code", .text authCode)]) = .ok { id, endpoint, authKey, authCode } ∧
      DataReference.form.read
        (.list [.text id, .text endpoint, .text authKey, .text authCode]) =
          .ok { id, endpoint, authKey, authCode } := by
  constructor
  · apply (DataReference.faithful_form.read_iff _ _).2
    exact ⟨rfl, rfl, rfl, rfl, rfl, trivial⟩
  · apply (DataReference.faithful_form.read_iff _ _).2
    exact ⟨rfl, rfl, rfl, rfl, rfl, rfl⟩

/-! ## All terms -/

/-- Every term is read from exactly its spellings and written as one of them.  So whatever was
written is read back, and a value that was read and written anew is read as before and written the
same again. -/
theorem terms_are_read_back :
    CorrelationKey.form.Faithful (fun key v => v = .text key.text) ∧
    AssetId.form.Faithful (fun asset v => v = .text asset.text) ∧
    NegotiationId.form.Faithful (fun n v => v = .text n.text) ∧
    ContractId.form.Faithful (fun c v => v = .text c.text) ∧
    TransferProcessId.form.Faithful (fun t v => v = .text t.text) ∧
    FailureReason.form.Faithful FailureReason.SpelledBy ∧
    Form.properties.Faithful Properties.SpelledBy ∧
    DataRequest.form.FaithfulRecord DataRequest.fields
      (fun r => (r.key, r.asset, r.provider, ())) ∧
    ContractOffer.form.FaithfulRecord ContractOffer.fields
      (fun o => (o.id, o.asset, o.provider, ())) ∧
    TransferDestination.form.FaithfulRecord TransferDestination.fields
      (fun d => (d.kind, d.properties, ())) ∧
    TransferRequest.form.FaithfulRecord TransferRequest.fields
      (fun r => (r.contract, r.asset, r.provider, r.destination, ())) ∧
    DataReference.form.FaithfulRecord DataReference.fields
      (fun r => (r.id, r.endpoint, r.authKey, r.authCode, r.properties, ())) ∧
    ∀ id endpoint authKey authCode : String,
      DataReference.form.read
          (.record [("id", .text id), ("endpoint", .text endpoint), ("auth_key", .text authKey),
            ("auth_code", .text authCode)]) = .ok { id, endpoint, authKey, authCode } ∧
        DataReference.form.read
          (.list [.text id, .text endpoint, .text authKey, .text authCode]) =
            .ok { id, endpoint, authKey, authCode } :=
  ⟨CorrelationKey.faithful_form, AssetId.faithful_form, NegotiationId.faithful_form,
    ContractId.faithful_form, TransferProcessId.faithful_form, FailureReason.faithful_form,
    Form.faithful_properties, DataRequest.faithful_form, ContractOffer.faithful_form,
    TransferDestination.faithful_form, TransferRequest.faithful_form, DataReference.faithful_form,
    DataReference.read_bare⟩

-- the members of a destination in another order, with one that is passed over
example :
    TransferDestination.form.read (.record [("note", .null),
      ("properties", .record [("b", .text "1"), ("a", .text "2"), ("b", .text "3")]),
      ("kind", .text "HttpProxy")]) =
    .ok { kind := "HttpProxy", properties := .ofList [("a", "2"), ("b", "3")] } := by
  decide +kernel

end Rendezvous
