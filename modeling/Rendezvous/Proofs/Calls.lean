import Rendezvous.Proofs.Lifecycle
import Rendezvous.Proofs.Negotiations

/-!
# Calls

A handler calls a service by staying in its section until the answer comes.  `Engine.askings` lists
the calls that are made along a schedule, with their handlers.

* `Sound.asks`: who makes a call waits for its answer, and moves its key by a row of the table;
* `called_after`: the history has the calls of `askings`, and no others;
* `Move.of_call`: the three rows that call.
-/

namespace Rendezvous

/-- A call, and the handler that makes it. -/
structure Asking where
  task : TaskId
  message : Message
  call : Call

/-- The call that the event is. -/
def Event.call? : Event → Option Call
  | .called call => some call
  | _ => none

namespace Engine

/-- The call that is made by the action. -/
def asks? (e : Engine) (a : Action) : Option Asking :=
  (e.passage? a).bind fun p =>
    match p.result.2 with
    | .call task => task.call?.map fun call => { task := p.task, message := p.message, call }
    | _ => none

/-- The calls made along a schedule, in order. -/
def askings : Engine → List Action → List Asking
  | _, [] => []
  | e, a :: as => (e.asks? a).toList ++ askings (e.act a) as

variable {e : Engine} {a : Action} {q : Asking} {k : CorrelationKey} {t : TaskId}

/-! ## What a call comes from -/

theorem asks?_eq_some :
    e.asks? a = some q ↔ ∃ p task, e.passage? a = some p ∧ p.result.2 = .call task ∧
      task.call? = some q.call ∧ q.task = p.task ∧ q.message = p.message := by
  unfold asks?
  rw [Option.bind_eq_some_iff]
  constructor
  · rintro ⟨p, hp, hq⟩
    split at hq
    · rename_i task hexit
      obtain ⟨call, hcall, rfl⟩ := Option.map_eq_some_iff.mp hq
      exact ⟨p, task, hp, hexit, hcall, rfl, rfl⟩
    · cases hq
  · rintro ⟨p, task, hp, hexit, hcall, htask, hmessage⟩
    refine ⟨p, hp, ?_⟩
    rw [hexit]
    simp [hcall, ← htask, ← hmessage]

/-- Where a handler stands that is about to make a call: it begins its section, or has an offer. -/
inductive Calling (e : Engine) (a : Action) (t : TaskId) (m : Message) (task : Task) : Prop
  | begins (hold : e.tasks.get? t = some (.locking (.handle m))) (hcause : e.cause a = .handled m)
  | offered (asset : AssetId) (provider : String) (offer : ContractOffer)
      (hold : e.tasks.get? t = some (.resolving m asset provider))
      (htask : task = .negotiating m asset provider offer)

theorem Sound.calling (h : Sound e) {p : Passage} {task : Task} (hp : e.passage? a = some p)
    (hexit : p.result.2 = .call task) : e.Calling a p.task p.message task := by
  unfold passage? at hp
  split at hp
  · split at hp
    · rename_i hold
      split at hp
      · cases hp
        exact .begins hold (by simp [Engine.cause, hold])
      · cases hp
    · cases hp
  · split at hp
    · rename_i m asset provider answer hold
      cases hp
      cases answer with
      | error error => cases hexit
      | ok offer =>
          cases hexit
          exact .offered asset provider offer hold rfl
    · rename_i offer answer hold
      cases hp
      cases answer with
      | error error => cases hexit
      | ok n =>
          -- a negotiation that has begun is never followed by a call
          obtain ⟨r, rfl, rfl, rfl, hcase, hrecord⟩ := h.negotiating hold
          simp only [onNegotiation_ok offer n hcase hrecord] at hexit
          cases hreplay : e.replay? r.key n <;> rw [hreplay] at hexit <;> cases hexit
    · rename_i answer hold
      cases hp
      cases answer <;> cases hexit
    · cases hp
  · cases hp

/-- What an action does that makes a call: the handler waits for the answer, and its key moves. -/
structure Asks (e : Engine) (a : Action) (q : Asking) (task : Task) : Prop where
  call : task.call? = some q.call
  position : (e.act a).tasks.get? q.task = some task
  calling : e.Calling a q.task q.message task
  openCall : ((e.act a).standing q.message.key).call? = some task
  move : e.Move q.message.key (e.standing q.message.key) (e.cause a)
    ((e.act a).standing q.message.key)
  history : ∃ own, (e.act a).history = .called q.call :: (own ++ e.history) ∧
    ∀ ev ∈ own, ev.call? = none

theorem Sound.asks (h : Sound e) (hq : e.asks? a = some q) : ∃ task, e.Asks a q task := by
  obtain ⟨p, task, hp, hexit, hcall, htask, hmessage⟩ := asks?_eq_some.mp hq
  obtain ⟨hleaving, hact⟩ := h.leaving hp
  have hcalling : e.Calling a q.task q.message task := by
    rw [htask, hmessage]
    exact h.calling hp hexit
  have hwait : e.act a = (p.result.1.setTask p.task task).note (.called q.call) := by
    rw [hact, hexit, leave_call _ _ _ hcall]
  have hposition : (e.act a).tasks.get? q.task = some task := by
    rw [hwait, htask]
    simp
  have hproper := hleaving.proper
  rw [hexit] at hproper
  have hkey : task.key? = some q.message.key := hmessage ▸ hproper.1
  have hopen : (e.act a).callAt? q.message.key = some task :=
    ((h.act a).orderly.callAt?_eq_some hposition hproper.2 hkey).2
  refine ⟨task, hcall, hposition, hcalling, hopen, ?_, ?_⟩
  · rcases (act_leads h a).moves q.message.key with hsame | hmove
    · -- the call was not open before: the handler stood elsewhere
      have hbefore : e.callAt? q.message.key = some task := by
        rw [← hopen]
        exact (congrArg Standing.call? hsame).symm
      have howner : e.store.locks.owner? q.message.key = some q.task := by
        rw [hmessage, htask]
        exact hleaving.owner
      have hold : e.tasks.get? q.task = some task := by
        rw [callAt?, howner] at hbefore
        exact (Option.filter_eq_some_iff.mp hbefore).1
      cases hcalling with
      | begins hlocking =>
          rw [hold] at hlocking
          cases hlocking
          cases hcall
      | offered asset provider offer hresolving htask' =>
          rw [hold, htask'] at hresolving
          cases hresolving
    · exact hmove
  · obtain ⟨own, hown, hevents⟩ := hleaving.contained.news
    refine ⟨own, by rw [hwait]; simp [hown], fun ev hmem => ?_⟩
    rcases hevents ev hmem with rfl | rfl <;> rfl

/-! ## The history -/

/-- An action writes the call that it makes, and no other. -/
theorem called_act (h : Sound e) (a : Action) :
    (e.act a).history.filterMap Event.call? =
      (e.asks? a).toList.map Asking.call ++ e.history.filterMap Event.call? := by
  cases hq : e.asks? a with
  | some q =>
      obtain ⟨task, hasks⟩ := h.asks hq
      obtain ⟨own, hhistory, hown⟩ := hasks.history
      have hown : (own ++ e.history).filterMap Event.call? = e.history.filterMap Event.call? :=
        view_of_silent hown rfl
      rw [view_of_cons hhistory, hown]
      rfl
  | none =>
      obtain ⟨evs, hnews⟩ := act_news h a
      refine view_of_silent (fun ev hmem => ?_) hnews.history
      cases hnews.writes ev hmem with
      | routine hroutine => cases ev <;> simp_all [Event.isRoutine, Event.call?]
      | called p task call hp hexit hcall =>
          have hasked : e.asks? a =
              some { task := p.task, message := p.message, call } :=
            asks?_eq_some.mpr ⟨p, task, hp, hexit, hcall, rfl, rfl⟩
          rw [hq] at hasked
          cases hasked
      | submitted | forwarded | accepted | registered | followed | evicted | expired
      | recorded => rfl

/-- The history has the calls made along a schedule, latest first. -/
theorem called_after (h : Sound e) (as : List Action) :
    (e.after as).history.filterMap Event.call? =
      ((e.askings as).map Asking.call).reverse ++ e.history.filterMap Event.call? := by
  induction as generalizing e with
  | nil => rfl
  | cons a as ih =>
      rw [after_cons, ih (h.act a), called_act h, askings, List.map_append, List.reverse_append,
        List.append_assoc]
      cases e.asks? a <;> rfl

/-! ## The three rows that call -/

/-- A row of the table that leaves a new call open: a request asks for an offer or a negotiation, an
offer for a negotiation, or a confirmation for a transfer. -/
theorem Move.of_call {s s' : Standing} {cause : Cause} {task : Task} (h : e.Move k s cause s')
    (hcall : s'.call? = some task) (htask : task.call?.isSome) :
    (∃ r : DataRequest, r.key = k ∧ task.Opens r ∧ s.case? = none ∧
      cause = .handled (.ofRequest r)) ∨
    (∃ (r : DataRequest) (offer : ContractOffer), r.key = k ∧
      cause = .answered (.resolving (.ofRequest r) r.asset r.provider) (.offer (.ok offer)) ∧
      task = .negotiating (.ofRequest r) r.asset r.provider offer) ∨
    ∃ c record n contract, s.case? = some c ∧ (c.stage = .started ∨ c.stage = .negotiating) ∧
      c.data.negotiation = some n ∧ s.record? = some record ∧ s.call? = none ∧
      s'.record? = none ∧ cause = .handled (.confirmation k n contract) ∧
      task = .transferring (.confirmation k n contract) c
        { contract
          asset := record.offer.asset
          provider := record.offer.provider
          destination := .correlated e.destination k } := by
  cases h with
  | accept r call hkey hcase _ hopens =>
      cases hcall
      exact .inl ⟨r, hkey, hopens, hcase, rfl⟩
  | offer r offer hkey hbefore =>
      cases hcall
      exact .inr (.inl ⟨r, offer, hkey, rfl, rfl⟩)
  | confirm c record n contract hcase hstage hown hrecord hbefore =>
      cases hcall
      exact .inr (.inr ⟨c, record, n, contract, hcase, hstage, hown, hrecord, hbefore, rfl, rfl,
        rfl⟩)
  | negotiate _ _ _ _ _ hnone | start _ _ _ hnone =>
      have hsome : _ = some task := hcall
      rw [hnone] at hsome
      cases hsome
  | noOffer | noNegotiation | register | transfer | noTransfer | negotiationFailed | complete
  | transferFailed | evict => cases hcall

end Engine

end Rendezvous
