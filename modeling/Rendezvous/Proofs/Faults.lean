import Rendezvous.Proofs.Passages

/-!
# Handlers do not go wrong

The store and the registry can refuse: a key has one case and one record, and a confirmation needs
the record of its case.  A handler that is refused ends with an error, which goes to the dead
letters as a fault, and closes whatever its key still has.  None of this ever happens: on a coherent
key no refusal is possible, and the bus stays open.

* `Event.IsSettled`: what an event of a healthy engine is like;
* `Message.Routed`: what a message may bring to the two channels of outcomes;
* `no_handler_faults`: after every schedule all events are settled, and all messages are routed.
-/

namespace Rendezvous

/-- No handler goes wrong by the event: no error ends a handler, every message published belongs on
its channel, and no outcome is an internal failure. -/
def Event.IsSettled : Event → Prop
  | .faulted .. => False
  | .published m => m.isRegular
  | .recorded _ (.error (.internal _)) => False
  | _ => True

/-- A message that is no fault, and brings to the dead letters only the failure of a case and to the
results only the completion of one. -/
structure Message.Routed (m : Message) : Prop where
  noFault : ∀ text, m.payload ≠ .fault text
  dlq : m.channel = .dlq → ∃ reason, m.payload = .failed reason
  result : m.channel = .result → ∃ reference, m.payload = .completed reference

theorem Message.routed_of_isRegular {m : Message} (h : m.isRegular) : m.Routed := by
  obtain ⟨key, channel, payload⟩ := m
  cases channel <;> cases payload <;> simp [Message.isRegular] at h <;>
    exact ⟨by simp, by simp, by simp⟩

namespace Engine

variable {e : Engine} {a : Action}

/-- Whatever an action writes into the history of a sound engine is settled. -/
theorem Writes.isSettled {ev : Event} (hw : e.Writes a ev) (h : Sound e) : ev.IsSettled := by
  cases hw with
  | routine hroutine => cases ev <;> simp_all [Event.isRoutine, Event.IsSettled]
  | submitted r => exact rfl
  | forwarded c key => exact (isRegular_message c key).1
  | accepted p | registered p | called p | evicted => exact trivial
  | followed p next hp hexit =>
      have hproper := (h.leaving hp).1.proper
      rw [hexit] at hproper
      exact hproper.2
  | expired => exact rfl
  | recorded t key o ha hold =>
      -- the message that the outcome came with belonged on its channel
      have hregular := h.regular.tasks t _ (by rw [hold]; rfl)
      cases o with
      | success reference => exact trivial
      | error reason =>
          cases reason with
          | internal text => simp [Outcome.message, Message.failed, Message.isRegular] at hregular
          | timeout | offerUnavailable | negotiationFailed | transferFailed => exact trivial

/-- No passage through a section ends in a fault. -/
theorem Sound.no_fault (h : Sound e) {p : Passage} (hp : e.passage? a = some p)
    (error : EngineError) : p.result.2 ≠ .fault error := by
  intro hexit
  have hproper := (h.leaving hp).1.proper
  rw [hexit] at hproper
  exact hproper

/-- Whatever the schedule and whatever the services answer: no passage through the section of a
handler ends in a fault, no handler has ended with an error, every message published or on its way
is routed, and no outcome recorded is an internal failure. -/
theorem no_handler_faults (s : Settings) (as : List Action) :
    let e := (ofSettings s).after as
    (∀ a p error, e.passage? a = some p → p.result.2 ≠ .fault error) ∧
    (∀ m error, .faulted m error ∉ e.history) ∧
    (∀ m, .published m ∈ e.history ∨ e.InMail m → m.Routed) ∧
    (∀ key text, .recorded key (.error (.internal text)) ∉ e.history) := by
  intro e
  have hsound : Sound e := sound_after s as
  have hsettled : ∀ ev ∈ e.history, ev.IsSettled :=
    (sound_ofSettings s).history_induction (fun h hw => hw.isSettled h)
      (by simp [ofSettings]) as
  have hmail : ∀ m, e.InMail m → .published m ∈ e.history :=
    (sound_ofSettings s).published_of_inMail
      (fun m hm => by simp [InMail, ofSettings] at hm) as
  refine ⟨fun a p error hp => hsound.no_fault hp error, fun m error hmem => hsettled _ hmem,
    fun m hm => ?_, fun key text hmem => hsettled _ hmem⟩
  have hpublished : .published m ∈ e.history := hm.elim id (hmail m)
  exact Message.routed_of_isRegular (hsettled _ hpublished)

end Engine

end Rendezvous
