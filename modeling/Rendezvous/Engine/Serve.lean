import Rendezvous.Engine.Schedule

/-!
# One message from beginning to end

A handler that calls a service waits for the answer, and anything may happen meanwhile.
`Engine.serve` is the case in which nothing does: a message is handed to a task of its own, the task
goes as far as it can, and each of its calls is answered at once.  It ends there, unless somebody
else has the lock of its key: then it waits for the lock.

The answers do not depend on anything but the message that is handled: `Answers` has those to a
negotiation and to a transfer, and a `Catalog` answers by provider and asset.
-/

namespace Rendezvous

/-- What the catalog answers for an asset of a provider. -/
abbrev Catalog := String × AssetId → Except EngineError ContractOffer

/-- What the other services answer while a message is handled. -/
structure Answers where
  negotiation : Except EngineError NegotiationId
  transfer : Except EngineError TransferProcessId

/-- The negotiation that begins if one is asked for. -/
def Answers.negotiation? (a : Answers) : Option NegotiationId := a.negotiation.toOption

namespace Engine

/-- Answers the call that the task `t` waits for, if it waits for one. -/
def answerCall (e : Engine) (catalog : Catalog) (a : Answers) (t : TaskId) : Engine :=
  match e.call? t with
  | none => e
  | some (.resolve provider asset) => e.reply t (.offer (catalog (provider, asset)))
  | some (.negotiate _) => e.reply t (.negotiation a.negotiation)
  | some (.transfer _) => e.reply t (.transfer a.transfer)

/-- Handles a message at one instant.  No handler calls more than two services. -/
def serve (e : Engine) (catalog : Catalog) (a : Answers) (m : Message) : Engine :=
  let (t, e) := e.spawn (.arriving m)
  Nat.repeat (answerCall · catalog a t) 2 (e.run t)

/-- To answer a call is to reply, or nothing. -/
theorem answerCall_eq_after (e : Engine) (catalog : Catalog) (a : Answers) (t : TaskId) :
    ∃ as, e.answerCall catalog a t = e.after as := by
  unfold answerCall
  split
  · exact ⟨[], rfl⟩
  · exact ⟨[.reply t _], rfl⟩
  · exact ⟨[.reply t _], rfl⟩
  · exact ⟨[.reply t _], rfl⟩

/-- To handle the first message of the queue from beginning to end is a schedule. -/
theorem serve_eq_after {e : Engine} {m : Message} {rest : List Message}
    (hqueue : e.bus.queue = m :: rest) (catalog : Catalog) (a : Answers) :
    ∃ as, ({ e with bus := { e.bus with queue := rest } } : Engine).serve catalog a m =
      e.after as := by
  have hdispatch : e.act .dispatch =
      (({ e with bus := { e.bus with queue := rest } } : Engine).spawn (.arriving m)).2 := by
    simp [act, dispatchNext, hqueue]
  obtain ⟨looks, n, hrun, -⟩ := run_eq_after (e.act .dispatch) e.nextTask
  obtain ⟨bs, hfirst⟩ := answerCall_eq_after ((e.act .dispatch).run e.nextTask) catalog a e.nextTask
  obtain ⟨cs, hsecond⟩ := answerCall_eq_after
    (((e.act .dispatch).run e.nextTask).answerCall catalog a e.nextTask) catalog a e.nextTask
  refine ⟨.dispatch :: (looks ++ List.replicate n (.stride e.nextTask)) ++ bs ++ cs, ?_⟩
  rw [after_append, after_append, after_cons, ← hrun, ← hfirst, ← hsecond, hdispatch]
  rfl

end Engine

end Rendezvous
