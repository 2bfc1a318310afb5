import Rendezvous.Proofs.Mail

/-!
# Every accepted request ends once

A request is accepted when its handler finds no live case.  From then on exactly one of three
things is true of it: its handler is still on the way to a case, it has a live case, or one terminal
message has been published for it.  `balanced_after` is this account for every schedule, and
`accepted_eq_terminals_add_live` reads it where no handler of the key is at work.

* `acceptances`: how many handlers along a schedule find a request and no live case for its key;
* `accepted_after`: this is what the history of the engine counts;
* `balanced_after`: the account of a key, at every instant;
* `accepted_eq_terminals_add_live`: the account between handlers, and the recording of each terminal
  message.
-/

namespace Rendezvous

/-- Whether the message is a request that has come to the first stage. -/
def Message.isRequest (m : Message) : Bool :=
  match m.channel, m.payload with
  | .initial, .request .. => true
  | _, _ => false

namespace Engine

/-- The message whose handler enters its section by the action. -/
def handling? (e : Engine) : Action → Option Message
  | .stride t =>
      match e.tasks.get? t with
      | some (.locking (.handle m)) => if e.owns t m.key then some m else none
      | _ => none
  | _ => none

/-- Whether the handler of a request for `k` finds no live case by the action. -/
def accepts (e : Engine) (k : CorrelationKey) (a : Action) : Bool :=
  (e.handling? a).any fun m => m.isRequest && m.key = k && (e.store.live? k).isNone

/-- How many requests for `k` are handled along a schedule that find no live case. -/
def acceptances (k : CorrelationKey) : Engine → List Action → Nat
  | _, [] => 0
  | e, a :: as => (if e.accepts k a then 1 else 0) + acceptances k (e.act a) as

/-- No handler of `k` is between its beginning and its end: none waits for a service. -/
def Idle (e : Engine) (k : CorrelationKey) : Prop :=
  ∀ t task, e.tasks.get? t = some task → task.key? = some k → task.call? = none

variable {e : Engine} {k : CorrelationKey}

/-- Without a handler at work no call is open. -/
theorem Idle.callAt? (h : e.Idle k) (horderly : e.Orderly) : e.callAt? k = none := by
  cases ho : e.store.locks.owner? k with
  | none => simp [Engine.callAt?, ho]
  | some t =>
      obtain ⟨task, ht, hkey⟩ := horderly.owner_position ho
      exact Orderly.callAt?_eq_none ho ht (h t task ht hkey)

/-- Only the first stage writes into the history while it is inside its section. -/
theorem history_handle (e : Engine) {m : Message} (hm : m.isRequest = false) :
    (e.handle m).1.history = e.history := by
  unfold handle
  split
  · rename_i hchannel hpayload
    simp [Message.isRequest, hchannel, hpayload] at hm
  · unfold onAccepted
    repeat' split
    all_goals rfl
  · unfold onNegotiationFailed
    repeat' split
    all_goals rfl
  · unfold onConfirmed
    repeat' split
    all_goals rfl
  · unfold onTransferStarted
    repeat' split
    all_goals rfl
  · unfold onDataReference
    repeat' split
    all_goals rfl
  · unfold onTransferFailed
    split <;> rfl
  · rfl
  · rfl

/-- A section accepts the request of its message if it finds no live case, and nothing else. -/
theorem accepted_handle (h : Sound e) (m : Message) (k : CorrelationKey) :
    (e.handle m).1.accepted k =
      e.accepted k +
        if m.isRequest ∧ m.key = k ∧ e.store.live? m.key = none then 1 else 0 := by
  by_cases hm : m.isRequest
  · obtain ⟨key, channel, payload⟩ := m
    cases channel <;> cases payload <;> simp [Message.isRequest] at hm
    rename_i asset provider
    rw [live?_eq_get? (h.coherent key)]
    show (e.onRequest _ asset provider).1.accepted k = _
    unfold onRequest
    cases e.store.get? key with
    | some c => simp
    | none =>
        dsimp only
        cases (e.offers.get e.now (provider, asset)).1 <;>
          simp [accepted, List.count_cons, Message.isRequest]
  · rw [if_neg (by simp [hm])]
    unfold accepted
    rw [history_handle e (Bool.eq_false_iff.mpr hm), Nat.add_zero]

theorem accepted_leave (e : Engine) (t : TaskId) (m : Message) (exit : Exit) (k : CorrelationKey) :
    (e.leave t m exit).accepted k = e.accepted k := by
  have hfinish : ∀ (e : Engine) error?,
      (e.finishHandler t m error?).accepted k = e.accepted k := by
    intro e error?
    cases error? with
    | none => simp [finishHandler]
    | some error => cases hfault : Bus.faultOf m error <;> simp [finishHandler, hfault]
  cases exit with
  | done => simp [leave, hfinish]
  | publish next => simp [leave, hfinish]
  | record o => simp [leave, hfinish]
  | fault error => simp [leave, hfinish]
  | call task => cases hcall : task.call? <;> simp [leave, hcall]

/-- Along the table only a request that finds no case is accepted. -/
theorem Move.accepted {s s' : Standing} {cause : Cause} (h : e.Move k s cause s') :
    s'.accepted = s.accepted ∨ ∃ r, cause = .handled (.ofRequest r) := by
  cases h with
  | accept r => exact .inr ⟨r, rfl⟩
  | offer | noOffer | noNegotiation | register | negotiate | negotiationFailed | confirm
  | transfer | noTransfer | start | complete | transferFailed | evict => exact .inl rfl

theorem act_of_handling? {a : Action} {m : Message} (h : e.handling? a = some m) :
    ∃ t, e.act a = (e.handle m).1.leave t m (e.handle m).2 := by
  unfold handling? at h
  split at h
  · rename_i t
    split at h
    · rename_i m' hold
      split at h
      · rename_i ho
        cases h
        exact ⟨t, by simp [act, stride, hold, Section.key, ho, enter]⟩
      · cases h
    · cases h
  · cases h

/-- An action by which no handler enters its section is not about a message, or changes nothing. -/
theorem act_of_handling?_eq_none {a : Action} {m : Message} (h : e.handling? a = none)
    (hcause : e.cause a = .handled m) : e.act a = e := by
  cases a with
  | stride t =>
      cases hold : e.tasks.get? t with
      | none => simp [Engine.cause, hold] at hcause
      | some task =>
          unfold Engine.cause at hcause
          simp only [hold] at hcause
          split at hcause
          · rename_i m' heq
            cases heq
            cases hcause
            have ho : e.owns t m.key = false := by simpa [handling?, hold] using h
            simp [act, stride, hold, Section.key, ho]
          · cases hcause
          · cases hcause
  | reply t r =>
      unfold Engine.cause at hcause
      dsimp only at hcause
      split at hcause <;> cases hcause
  | submit | notify | dispatch | beginSweep | beginWait | beginHold | look | take | letGo | cancel
  | pass => cases hcause

/-- An action accepts a request for `k` if its handler finds no live case, and nothing else. -/
theorem accepted_act (h : Sound e) (a : Action) (k : CorrelationKey) :
    (e.act a).accepted k = e.accepted k + if e.accepts k a then 1 else 0 := by
  cases hhandling : e.handling? a with
  | some m =>
      obtain ⟨t, hact⟩ := act_of_handling? hhandling
      rw [hact, accepted_leave, accepted_handle h]
      by_cases hk : m.key = k
      · subst hk
        simp [accepts, hhandling]
      · simp [accepts, hhandling, hk]
  | none =>
      have hnot : e.accepts k a = false := by simp [accepts, hhandling]
      rw [hnot]
      rcases (act_leads h a).moves k with hsame | hmove
      · exact congrArg Standing.accepted hsame
      · rcases hmove.accepted with hsame | ⟨r, hcause⟩
        · exact hsame
        · rw [act_of_handling?_eq_none hhandling hcause]
          simp

/-- The history counts the requests that were accepted. -/
theorem accepted_after (h : Sound e) (as : List Action) (k : CorrelationKey) :
    (e.after as).accepted k = e.accepted k + acceptances k e as := by
  induction as generalizing e with
  | nil => rfl
  | cons a as ih =>
      rw [after_cons, ih (h.act a), accepted_act h, acceptances, Nat.add_assoc]

/-- At every instant whatever was accepted for `k` has ended, is live, or is opening. -/
theorem balanced_after (s : Settings) (as : List Action) (k : CorrelationKey) :
    (((ofSettings s).after as).standing k).Balanced :=
  (sound_ofSettings s).standing_induction (P := Standing.Balanced) rfl
    (fun _ _ _ _ hmove hb => hmove.balanced hb) as

/-- Whenever no handler of `k` is at work, the requests for `k` that were handled and found no live
case are as many as the terminal messages published for `k` and the live cases of `k` together; and
the terminal messages published are those still on their way and those whose outcome has been
recorded, once each. -/
theorem accepted_eq_terminals_add_live (s : Settings) (as : List Action) (k : CorrelationKey)
    (hidle : ((ofSettings s).after as).Idle k) :
    let e := (ofSettings s).after as
    acceptances k (ofSettings s) as =
        (e.terminals k).length + (if (e.store.live? k).isSome then 1 else 0) ∧
      (e.terminals k).Perm (e.waiting k ++ (e.outcomes k).map (Outcome.message k)) := by
  intro e
  have hsound : Sound e := sound_after s as
  refine ⟨?_, (delivered_ofSettings s k).after (sound_ofSettings s) as⟩
  have hbalanced : (e.standing k).Balanced := balanced_after s as k
  have hopening : (e.standing k).opening = 0 :=
    Standing.opening_of_none (hidle.callAt? hsound.orderly)
  have hlive : (e.standing k).live = if (e.store.live? k).isSome then 1 else 0 := by
    rw [live?_eq_get? (hsound.coherent k)]
    show (e.store.get? k).toList.length = _
    cases e.store.get? k <;> rfl
  unfold Standing.Balanced at hbalanced
  rw [hopening, hlive] at hbalanced
  have haccepted : e.accepted k = 0 + acceptances k (ofSettings s) as :=
    accepted_after (sound_ofSettings s) as k
  rw [Nat.zero_add] at haccepted
  exact haccepted.symm.trans hbalanced

/-- A request that finds no offer, and a second one for the same key that gets a case. -/
theorem accepted_eq_terminals_add_live_of_retry :
    let r : DataRequest := { key := ⟨"k"⟩, asset := ⟨"a"⟩, provider := "p" }
    let offer : ContractOffer := { id := "o", asset := ⟨"a"⟩, provider := "p" }
    let as : List Action :=
      [.submit r, .dispatch, .stride 0, .stride 0, .reply 0 (.offer (.error .busClosed)),
        .dispatch, .stride 1, .submit r, .dispatch, .stride 2, .stride 2,
        .reply 2 (.offer (.ok offer)), .reply 2 (.negotiation (.ok ⟨"n"⟩))]
    let e := (ofSettings {}).after as
    e.Idle ⟨"k"⟩ ∧ acceptances ⟨"k"⟩ (ofSettings {}) as = 2 ∧ (e.terminals ⟨"k"⟩).length = 1 ∧
      acceptances ⟨"k"⟩ (ofSettings {}) as =
        (e.terminals ⟨"k"⟩).length + (if (e.store.live? ⟨"k"⟩).isSome then 1 else 0) ∧
      (e.terminals ⟨"k"⟩).Perm
        (e.waiting ⟨"k"⟩ ++ (e.outcomes ⟨"k"⟩).map (Outcome.message ⟨"k"⟩)) := by
  intro r offer as e
  have hidle : e.Idle ⟨"k"⟩ := by
    have htasks : e.tasks.entries = [] := by decide
    intro t task ht
    simp [Assoc.get?, htasks, Assoc.lookupIn] at ht
  exact ⟨hidle, by decide, by decide, accepted_eq_terminals_add_live {} as ⟨"k"⟩ hidle⟩

end Engine

end Rendezvous
