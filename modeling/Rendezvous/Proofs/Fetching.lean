import Rendezvous.Proofs.Transfers
import Rendezvous.Provider.Script

/-!
# Fetching an outcome

Outcomes lie on the board by key, and a caller that fetches looks at the board before its own
request has been handled.  So it finds the outcome of its own request, or one that an earlier
request for the key has left there.

* `act_readable`: only a terminal message that comes to the board makes an outcome readable;
* `fetch_of_left`: an outcome that can be read already is what a fetch returns;
* `Concluded`: a terminal message is what the processing of one request came to;
* `Own`: while no other request for its key is submitted, whatever happens to the key of a request
  is the processing of that request;
* `fetch_own_or_left`: what a fetch can find.
-/

namespace Rendezvous

/-- Whether a caller submits a request for `k`. -/
def Action.submits (k : CorrelationKey) : Action → Bool
  | .submit r => r.key = k
  | _ => false

namespace Engine

/-- The outcome of `k` that a reader finds on the board. -/
def readable? (e : Engine) (k : CorrelationKey) : Option Outcome :=
  e.board.outcomes.peek? e.now k

variable {e e' : Engine} {a : Action} {k : CorrelationKey} {t : TaskId}

/-! ## What can be read -/

theorem fst_takeOutcome (e : Engine) (k : CorrelationKey) :
    (e.takeOutcome k).1 = e.readable? k := rfl

theorem readable?_of_eq (hboard : e'.board = e.board) (hnow : e'.now = e.now)
    (k : CorrelationKey) : e'.readable? k = e.readable? k := by
  unfold readable?
  rw [hboard, hnow]

/-- A handler that leaves its section puts no outcome up. -/
theorem Leaving.readable? {cause : Cause} {m : Message} {p : Engine × Exit}
    (hp : Leaving e t cause m p) (h : Sound e) (k : CorrelationKey) :
    (p.1.leave t m p.2).readable? k = e.readable? k :=
  readable?_of_eq (hp.board h) hp.now k

theorem readable?_visit (e : Engine) (t : TaskId) (sweep : Sweep) (key : CorrelationKey)
    (seen : Stage) (k : CorrelationKey) :
    (e.visit t sweep key seen).readable? k = e.readable? k :=
  readable?_of_eq (by simp) (by simp) k

/-- A caller that reads an outcome makes no other readable. -/
theorem readable?_of_take (key : CorrelationKey) {o : Outcome}
    (hboard : e'.board.outcomes = (e.board.outcomes.take e.now key).2) (hnow : e'.now = e.now)
    (ho : e'.readable? k = some o) : e.readable? k = some o := by
  unfold readable? at ho ⊢
  rw [hboard, hnow, ExpiringMap.peek?_take] at ho
  split at ho
  · cases ho
  · exact ho

theorem Step.readable (h : Sound e) (hs : e.Step a e') {o : Outcome}
    (ho : e'.readable? k = some o) :
    e.readable? k = some o ∨
      ∃ t, a = .stride t ∧ e.tasks.get? t = some (.arriving (o.message k)) := by
  cases hs with
  | idle | park | dispatch | begin | look | queueUp | keep | neverMind => exact .inl ho
  | submit r => exact .inl ((readable?_of_eq (by simp) (by simp) k).symm.trans ho)
  | forward c key => exact .inl ((readable?_of_eq (by simp) (by simp) k).symm.trans ho)
  | letGo t key | leaveQueue t key =>
      exact .inl ((readable?_of_eq (by simp) (by simp) k).symm.trans ho)
  | outcome t m hold hlock =>
      have hregular := h.regular.tasks t m (by simp [hold, Task.message?])
      obtain ⟨o', hm⟩ := eq_message_of_isRegular hregular hlock
      rw [hm, begin_message] at ho
      have hrecorded : (e.board.outcomes.insert e.now m.key o').peek? e.now k = some o := by
        simpa [Engine.readable?, OutcomeBoard.record] using ho
      rw [ExpiringMap.peek?_insert] at hrecorded
      -- what is recorded for another key leaves the outcome of `k` as it was
      by_cases hk : m.key = k
      · rw [if_pos hk] at hrecorded
        split at hrecorded
        · cases hrecorded
          exact .inr ⟨t, rfl, by rw [hold, ← hk, ← hm]⟩
        · cases hrecorded
      · rw [if_neg hk] at hrecorded
        exact .inl hrecorded
  | handle t m hold howner =>
      rw [(h.leaving_handle hold howner).readable? h] at ho
      exact .inl ho
  | visit t sweep key seen hold =>
      rw [readable?_visit] at ho
      exact .inl ho
  | finishSweep t sweep =>
      -- the purge drops only what no reader can see any more
      have hpurged : (e.board.outcomes.purge e.now).2.peek? e.now k = some o := ho
      rw [ExpiringMap.peek?_purge _ _ _ (Nat.le_refl _)] at hpurged
      exact .inl hpurged
  | listen t key deadline =>
      left
      unfold lookForOutcome at ho
      dsimp only at ho
      split at ho
      · refine readable?_of_take key ?_ ?_ ho <;> rfl
      · refine readable?_of_take key ?_ ?_ ho <;> rfl
  | offer t m asset provider answer hold =>
      rw [(h.leaving_offer hold answer).readable? h] at ho
      exact .inl ho
  | negotiation t m asset provider offer answer hold =>
      rw [(h.leaving_negotiation hold answer).readable? h] at ho
      exact .inl ho
  | transfer t m c request answer hold =>
      rw [(h.leaving_transfer hold answer).readable? h] at ho
      exact .inl ho
  | take key =>
      have hboard : (e.takeOutcome key).2.board.outcomes = (e.board.outcomes.take e.now key).2 :=
        rfl
      exact .inl (readable?_of_take key hboard rfl ho)
  | pass span => exact .inl (e.board.outcomes.peek?_of_le (Nat.le_add_right e.now span) ho)

/-- An outcome that can be read after an action could be read before, or the action takes the
terminal message to the board that brings it. -/
theorem act_readable (h : Sound e) (a : Action) {o : Outcome}
    (ho : (e.act a).readable? k = some o) :
    e.readable? k = some o ∨
      ∃ t, a = .stride t ∧ e.tasks.get? t = some (.arriving (o.message k)) :=
  (e.act_step a).readable h ho

end Engine

/-! ## Hosts -/

namespace Host

variable {σ : Type}

/-- A host that takes note of what happened lets the engine and the services be. -/
@[simp] theorem absorb_frame (h : Host σ) (ev : Event) :
    (h.absorb ev).engine = h.engine ∧ (h.absorb ev).services = h.services := by
  unfold absorb
  cases ev with
  | published m =>
      dsimp only [wakeBus]
      split <;> exact ⟨rfl, rfl⟩
  | spawned t | granted t | notified t =>
      dsimp only [wake]
      split <;> exact ⟨rfl, rfl⟩
  | finished t f =>
      dsimp only [rewind, setTimer]
      repeat' split
      all_goals exact ⟨rfl, rfl⟩
  | accepted | registered | called | held | evicted | recorded | faulted => exact ⟨rfl, rfl⟩

theorem foldl_absorb_frame (evs : List Event) (h : Host σ) :
    (evs.foldl absorb h).engine = h.engine ∧ (evs.foldl absorb h).services = h.services := by
  induction evs generalizing h with
  | nil => exact ⟨rfl, rfl⟩
  | cons ev evs ih =>
      obtain ⟨hengine, hservices⟩ := ih (h.absorb ev)
      exact ⟨hengine.trans (h.absorb_frame ev).1, hservices.trans (h.absorb_frame ev).2⟩

theorem engine_apply (h : Host σ) (f : Engine → Engine) :
    (h.apply f).engine = { f { h.engine with history := [] } with history := [] } :=
  (foldl_absorb_frame _ _).1

@[simp] theorem services_apply (h : Host σ) (f : Engine → Engine) :
    (h.apply f).services = h.services :=
  (foldl_absorb_frame _ _).2

end Host

namespace Adapter

variable {σ : Type}

/-- Whenever an outcome of its key can be read, a fetch returns it, whatever its request is and
whatever the services would answer. -/
theorem fetch_of_left [Services σ] (h : Host σ) (r : DataRequest) {span deadline : Nat}
    {o : Outcome} (hopen : h.engine.bus.isOpen) (hdeadline : deadline? h.now span = some deadline)
    (hleft : (h.engine.takeOutcome r.key).1 = some o) :
    ∃ h', fetch h r span = some (.ok (some o), h') := by
  have hrefusal : h.engine.bus.refusal? = none := by simp [Bus.refusal?, hopen]
  generalize hsubmitted : (h.apply fun e => e.publish (.ofRequest r)) = submitted
  have hnow : submitted.now = h.now := by simp [← hsubmitted, Host.now, Host.engine_apply]
  have htaken : (submitted.engine.takeOutcome r.key).1 = some o := by
    rw [← hsubmitted, Host.engine_apply, ← hleft, Engine.fst_takeOutcome, Engine.fst_takeOutcome]
    exact Engine.readable?_of_eq (by simp) (by simp) r.key
  have hwait : submitted.waitFor r.key span =
      some (some o, submitted.apply fun e => (e.takeOutcome r.key).2) := by
    simp [Host.waitFor, hnow, hdeadline, Host.waitUntil, Host.takeOutcome, htaken]
  refine ⟨submitted.apply fun e => (e.takeOutcome r.key).2, ?_⟩
  rw [fetch, submit, hrefusal, hsubmitted]
  simp only [hwait, Option.map_some]

end Adapter

namespace Engine

variable {e e' : Engine} {a : Action} {k : CorrelationKey} {t : TaskId}

/-! ## What the processing of a request comes to -/

/-- Nothing is going on for `k`: it has no live case, no handler waits for a service, and no message
is on its way. -/
structure Quiet (e : Engine) (k : CorrelationKey) : Prop where
  case? : e.store.live? k = none
  call? : e.callAt? k = none
  mail : ∀ m, e.InMail m → m.key ≠ k

theorem quiet_of_idle (hcase : e.store.live? k = none) (hqueue : e.bus.queue = [])
    (htasks : e.tasks.entries = []) : e.Quiet k := by
  have hnone : ∀ t, e.tasks.get? t = none := by
    intro t
    simp [Assoc.get?, htasks, Assoc.lookupIn]
  refine ⟨hcase, ?_, fun m hm => ?_⟩
  · cases howner : e.store.locks.owner? k <;> simp [callAt?, howner, hnone]
  · rcases hm with hmem | ⟨t, ht⟩
    · simp [hqueue] at hmem
    · simp [hnone] at ht

/-- Along `as` the negotiation has begun that `r` asked for, and has registered the case that is now
`c`; no case of the key has been registered since. -/
inductive Registered (e : Engine) (as : List Action) (r : DataRequest) (c : Case) : Prop
  | intro (before since : List Action) (t : TaskId) (n : NegotiationId) (offer : ContractOffer)
      (hsplit : as = before ++ .reply t (.negotiation (.ok n)) :: since)
      (hcall : (e.after before).tasks.get? t =
        some (.negotiating (.ofRequest r) r.asset r.provider offer))
      (hcase : (Case.ofRequest r n (e.after before).now).Follows c)
      (hsince : registrations r.key
        ((e.after before).act (.reply t (.negotiation (.ok n)))) since = 0)

/-- Along `as` the terminal message `m` was published by the processing of `r`. -/
inductive Concluded (e : Engine) (as : List Action) (r : DataRequest) (m : Message) : Prop
  /-- The answer to one of the two calls that a request makes before it has a case was no. -/
  | rejected (before since : List Action) (a : Action) (call : Task) (answer : Reply)
      (hsplit : as = before ++ a :: since)
      (hcause : (e.after before).cause a = .answered call answer) (hopens : call.Opens r)
      (hend : ((e.after before).act a).terminals r.key = m :: (e.after before).terminals r.key)
  /-- The case that the request registered has ended. -/
  | ended (before since : List Action) (a : Action) (c : Case)
      (hsplit : as = before ++ a :: since) (hregistered : e.Registered before r c)
      (hcase : (e.after before).store.get? r.key = some c)
      (hgone : ((e.after before).act a).store.get? r.key = none)
      (hend : ((e.after before).act a).terminals r.key = m :: (e.after before).terminals r.key)

variable {r r' : DataRequest} {past : List Action} {m : Message}

theorem Concluded.append (h : e.Concluded past r m) (bs : List Action) :
    e.Concluded (past ++ bs) r m := by
  cases h with
  | rejected before since a call answer hsplit hcause hopens hend =>
      exact .rejected before (since ++ bs) a call answer (by simp [hsplit]) hcause hopens hend
  | ended before since a c hsplit hregistered hcase hgone hend =>
      exact .ended before (since ++ bs) a c (by simp [hsplit]) hregistered hcase hgone hend

/-- A case that stays, or moves on, is still the one that the request registered. -/
theorem Registered.act {c c' : Case} (h : e.Registered past r c) (a : Action)
    (hcase : (e.after past).store.get? r.key = some c) (hfollows : c.Follows c') :
    e.Registered (past ++ [a]) r c' := by
  obtain ⟨before, since, t, n, offer, rfl, hcall, hfirst, hsince⟩ := h
  rw [after_append, after_cons] at hcase
  refine .intro before (since ++ [a]) t n offer (by simp) hcall (hfirst.trans hfollows) ?_
  simp [registrations_append, registrations, hsince, registers, hcase]

/-! ## Rows and requests -/

/-- What the answer to a call moves had the call open. -/
theorem Move.call_of_answered {s s' : Standing} {call : Task} {answer : Reply}
    (h : e.Move k s (.answered call answer) s') : s.call? = some call := by
  cases h <;> assumption

/-- A call that is open for a request after a row was so before, or the row handles the request. -/
theorem Move.opens {s s' : Standing} {cause : Cause} {call : Task} (h : e.Move k s cause s')
    (hcall : s'.call? = some call) (hopens : call.Opens r) :
    (∃ call', s.call? = some call' ∧ call'.Opens r) ∨
      (r.key = k ∧ cause = .handled (.ofRequest r)) := by
  have hasks : call.call?.isSome := by rcases hopens with rfl | ⟨offer, rfl⟩ <;> rfl
  rcases h.of_call hcall hasks with
    ⟨r', hkey, hopens', -, rfl⟩ | ⟨r', offer, -, rfl, rfl⟩ |
    ⟨c, record, n, contract, -, -, -, -, -, -, -, rfl⟩
  · obtain rfl := hopens.inj hopens'
    exact .inr ⟨hkey, rfl⟩
  · obtain rfl := hopens.inj (.inr ⟨offer, rfl⟩)
    exact .inl ⟨_, h.call_of_answered, .inl rfl⟩
  · rcases hopens with heq | ⟨offer, heq⟩ <;> cases heq

/-- A row publishes one terminal message or none; one that does rejects a request or ends a case. -/
theorem Move.terminals {s s' : Standing} {cause : Cause} (h : e.Move k s cause s') :
    s'.terminals = s.terminals ∨
      ∃ last, s'.terminals = last :: s.terminals ∧
        ((∃ (r : DataRequest) (call : Task) (answer : Reply), r.key = k ∧ call.Opens r ∧
            s.call? = some call ∧ cause = .answered call answer) ∨
          ∃ c, s.case? = some c ∧ s'.case? = none) := by
  cases h with
  | accept | offer | register | negotiate | confirm | transfer | start => exact .inl rfl
  | noOffer r error hkey hcall =>
      exact .inr ⟨_, rfl, .inl ⟨r, _, _, hkey, .inl rfl, hcall, rfl⟩⟩
  | noNegotiation r offer error hkey hcall =>
      exact .inr ⟨_, rfl, .inl ⟨r, _, _, hkey, .inr ⟨offer, rfl⟩, hcall, rfl⟩⟩
  | negotiationFailed c _ _ hcase | noTransfer c _ _ _ hcase | complete c _ hcase
  | transferFailed c _ hcase | evict c _ _ hcase =>
      exact .inr ⟨_, rfl, .inr ⟨c, hcase, rfl⟩⟩

/-- A request comes to the bus only by its submission. -/
theorem Writes.request (hw : e.Writes a (.published m)) (h : Sound e) (hm : m = .ofRequest r) :
    a = .submit r := by
  cases hw with
  | routine hroutine => cases hroutine
  | submitted r' ha =>
      obtain rfl := Message.ofRequest_inj hm
      exact ha
  | forwarded c key => cases c <;> cases hm
  | followed p _ hp hexit =>
      rcases h.followUp hp hexit with hterminal | ⟨n, t, r', offer, -, -, hreplay⟩
      · rw [hm] at hterminal
        cases hterminal
      · obtain ⟨parked, -, rfl⟩ := Option.map_eq_some_iff.mp hreplay
        simp [Message.confirmation, Message.ofRequest] at hm
  | expired => cases hm

/-- A terminal message that an action publishes rejects a request or ends a case. -/
theorem Sound.concludes (h : Sound e) {evs : List Event} (hnews : e.News a (e.act a) evs)
    (hmem : .published m ∈ evs) (hends : m.ends k) :
    (e.act a).terminals k = m :: e.terminals k ∧
      ((∃ (r : DataRequest) (call : Task) (answer : Reply), r.key = k ∧ call.Opens r ∧
          e.callAt? k = some call ∧ e.cause a = .answered call answer) ∨
        ∃ c, e.store.get? k = some c ∧ (e.act a).store.get? k = none) := by
  have hgrown : (e.act a).terminals k = evs.filterMap (Event.terminal? k) ++ e.terminals k :=
    view_of_append hnews.history
  have hpublished : m ∈ evs.filterMap (Event.terminal? k) := by
    have hkey : m.key = k ∧ m.isTerminal := by simpa [Message.ends] using hends
    exact List.mem_filterMap.mpr ⟨_, hmem, by simp [Event.terminal?, hkey]⟩
  have hnone : (e.act a).terminals k ≠ e.terminals k := by
    intro hsame
    have hempty : evs.filterMap (Event.terminal? k) = [] := by
      rw [hgrown] at hsame
      exact List.append_left_eq_self.mp hsame
    rw [hempty] at hpublished
    cases hpublished
  rcases (act_leads h a).moves k with hsame | hmove
  · exact absurd (congrArg Standing.terminals hsame) hnone
  · rcases hmove.terminals with hsame | ⟨last, hlast, hwhy⟩
    · exact absurd hsame hnone
    · -- the row publishes one message, so this is it
      have hone : evs.filterMap (Event.terminal? k) = [last] := by
        have hlast' : (e.act a).terminals k = [last] ++ e.terminals k := hlast
        rw [hgrown] at hlast'
        exact List.append_cancel_right hlast'
      rw [hone, List.mem_singleton] at hpublished
      rw [hpublished]
      exact ⟨hlast, hwhy⟩

/-! ## One request alone -/

/-- After `past` all that goes on for the key of `r` is the processing of `r`, and the board has
what that came to, or what it had at the beginning. -/
structure Own (r : DataRequest) (e : Engine) (past : List Action) : Prop where
  requests : ∀ r', (e.after past).InMail (.ofRequest r') → r'.key = r.key → r' = r
  calls : ∀ call r', (e.after past).callAt? r.key = some call → call.Opens r' → r' = r
  registered : ∀ c, (e.after past).store.get? r.key = some c → e.Registered past r c
  letters : ∀ m, (e.after past).InMail m → m.ends r.key → e.Concluded past r m
  board : ∀ o, (e.after past).readable? r.key = some o →
    e.Concluded past r (o.message r.key) ∨ e.readable? r.key = some o

namespace Own

theorem start (h : Sound e) (hq : e.Quiet r.key) : Own r e [.submit r] := by
  have hmail : ∀ m, (e.act (.submit r)).InMail m → e.InMail m ∨ m = .ofRequest r := by
    intro m hm
    refine ((Grows.publish (.ofRequest r) h.regular.isOpen).mail m hm).imp_right fun hnew => ?_
    simpa using hnew
  have hcall : (e.act (.submit r)).callAt? r.key = none := by
    rw [callAt?_congr (e := e) (by simp [Engine.act]) (by simp [Engine.act])]
    exact hq.call?
  have hcase : (e.act (.submit r)).store.get? r.key = none := by
    have hnone := hq.case?
    rw [live?_eq_get? (h.coherent r.key)] at hnone
    simpa [Engine.act] using hnone
  have hboard : (e.act (.submit r)).readable? r.key = e.readable? r.key :=
    readable?_of_eq (by simp [Engine.act]) (by simp [Engine.act]) r.key
  constructor
  case requests =>
    intro r' hm hkey
    rcases hmail _ hm with hold | hnew
    · exact absurd hkey (hq.mail _ hold)
    · exact Message.ofRequest_inj hnew
  case calls =>
    intro call r' hsome
    rw [after_cons, after_nil, hcall] at hsome
    cases hsome
  case registered =>
    intro c hsome
    rw [after_cons, after_nil, hcase] at hsome
    cases hsome
  case letters =>
    intro m hm hends
    rcases hmail m hm with hold | rfl
    · have hkey : m.key = r.key ∧ m.isTerminal := by simpa [Message.ends] using hends
      exact absurd hkey.1 (hq.mail m hold)
    · simp [Message.ends, Message.isTerminal, Message.ofRequest] at hends
  case board =>
    intro o ho
    exact .inr (hboard.symm.trans ho)

theorem act (ho : Own r e past) (h : Sound (e.after past)) (a : Action)
    (hsole : a.submits r.key = false) : Own r e (past ++ [a]) := by
  obtain ⟨evs, hnews⟩ := act_news h a
  constructor <;> rw [after_concat]
  case requests =>
    intro r' hm hkey
    rcases hnews.mail _ hm with hold | hnew
    · exact ho.requests r' hold hkey
    · -- only a caller brings a request, and no caller does so for this key
      obtain rfl := (hnews.writes _ hnew).request h rfl
      simp [Action.submits, hkey] at hsole
  case calls =>
    intro call r' hcall hopens
    rcases (act_leads h a).moves r.key with hsame | hmove
    · exact ho.calls call r' ((congrArg Standing.call? hsame).symm.trans hcall) hopens
    · rcases hmove.opens hcall hopens with ⟨call', hcall', hopens'⟩ | ⟨hkey, hcause⟩
      · exact ho.calls call' r' hcall' hopens'
      · exact ho.requests r' (inMail_of_cause hcause) hkey
  case registered =>
    intro c' hcase'
    rcases h.transition a r.key with hsame | ⟨published, hrow, -⟩
    · rw [hsame] at hcase'
      exact (ho.registered c' hcase').act a hcase' (.refl c')
    · rw [hcase'] at hrow
      generalize hcase : (e.after past).store.get? r.key = case? at hrow
      cases case? with
      | some c => exact (ho.registered c hcase).act a hcase (hrow.follows (h.filed hcase).2)
      | none =>
          -- a case that is new was registered by the answer to the call of the request
          generalize hcause : (e.after past).cause a = cause at hrow
          cases hrow with
          | register r' offer n hkey =>
              obtain ⟨t, rfl, hold⟩ := reply_of_cause hcause
              obtain ⟨-, hopen, -⟩ := h.open_call hold rfl rfl
              obtain rfl := ho.calls _ r' (hkey ▸ hopen) (.inr ⟨offer, rfl⟩)
              exact .intro past [] t n offer rfl hold (.refl _) rfl
  case letters =>
    intro m hm hends
    rcases hnews.mail m hm with hold | hnew
    · exact (ho.letters m hold hends).append [a]
    · -- the action ends something of the key, and that can only be of `r`
      obtain ⟨hend, ⟨r', call, answer, -, hopens, hcall, hcause⟩ | ⟨c, hcase, hgone⟩⟩ :=
        h.concludes hnews hnew hends
      · obtain rfl := ho.calls call r' hcall hopens
        exact .rejected past [] a call answer rfl hcause hopens hend
      · exact .ended past [] a c rfl (ho.registered c hcase) hcase hgone hend
  case board =>
    intro o hread
    rcases act_readable h a hread with hold | ⟨t, -, hold⟩
    · exact (ho.board o hold).imp_left fun hown => hown.append [a]
    · -- the message that brings the outcome was on its way
      left
      have hmail : (e.after past).InMail (o.message r.key) :=
        .inr ⟨t, by simp [hold, Task.message?]⟩
      have hends : (o.message r.key).ends r.key := by
        cases o <;> simp [Outcome.message, Message.ends, Message.failed, Message.isTerminal]
      exact (ho.letters _ hmail hends).append [a]

theorem after (ho : Own r e past) (h : Sound e) (bs : List Action)
    (hsole : ∀ a ∈ bs, a.submits r.key = false) : Own r e (past ++ bs) := by
  induction bs generalizing past with
  | nil => simpa using ho
  | cons a bs ih =>
      have hfirst : Own r e (past ++ [a]) :=
        ho.act (h.after past) a (hsole a List.mem_cons_self)
      have hrest := ih hfirst fun b hmem => hsole b (List.mem_cons_of_mem a hmem)
      rwa [List.append_assoc, List.singleton_append] at hrest

end Own

/-- Let a caller submit `r` when nothing is going on for its key, and let no other request for the
key be submitted until the caller takes an outcome.  Then the processing of `r` has come to this
outcome, or it could be read already before `r` was submitted. -/
theorem fetch_own_or_left (s : Settings) (as bs : List Action) (r : DataRequest)
    (hquiet : ((ofSettings s).after as).Quiet r.key)
    (hsole : ∀ a ∈ bs, a.submits r.key = false) :
    let e := (ofSettings s).after as
    ∀ o, ((e.after (.submit r :: bs)).takeOutcome r.key).1 = some o →
      e.Concluded (.submit r :: bs) r (o.message r.key) ∨ (e.takeOutcome r.key).1 = some o := by
  intro e o ho
  have hsound : Sound e := sound_after s as
  have hown : Own r e (.submit r :: bs) := (Own.start hsound hquiet).after hsound bs hsole
  exact hown.board o ho

/-- A key that was used before: the outcome of the first request has been read, and the second
caller finds its own. -/
theorem fetch_own_or_left_of_reuse :
    let r : DataRequest := { key := ⟨"k"⟩, asset := ⟨"a"⟩, provider := "p" }
    let as : List Action :=
      [.submit r, .dispatch, .stride 0, .stride 0, .reply 0 (.offer (.error .busClosed)),
        .dispatch, .stride 1, .take ⟨"k"⟩]
    let bs : List Action :=
      [.dispatch, .stride 2, .stride 2, .reply 2 (.offer (.error .busClosed)), .dispatch,
        .stride 3]
    let o : Outcome := .error (.offerUnavailable EngineError.busClosed.message)
    let e := (ofSettings {}).after as
    e.Quiet ⟨"k"⟩ ∧ (∀ a ∈ bs, a.submits ⟨"k"⟩ = false) ∧
      ((e.after (.submit r :: bs)).takeOutcome ⟨"k"⟩).1 = some o ∧
      e.Concluded (.submit r :: bs) r (o.message ⟨"k"⟩) := by
  intro r as bs o e
  have hquiet : e.Quiet ⟨"k"⟩ := quiet_of_idle (by decide) (by decide) (by decide)
  have hsole : ∀ a ∈ bs, a.submits ⟨"k"⟩ = false := by decide
  have htaken : ((e.after (.submit r :: bs)).takeOutcome ⟨"k"⟩).1 = some o := by decide
  have hnone : (e.takeOutcome ⟨"k"⟩).1 = none := by decide
  refine ⟨hquiet, hsole, htaken, ?_⟩
  rcases fetch_own_or_left {} as bs r hquiet hsole o htaken with hown | hleft
  · exact hown
  · rw [hnone] at hleft
    cases hleft

/-- By its submission alone no request is concluded. -/
theorem not_concluded_submit (e : Engine) (r : DataRequest) (m : Message) :
    ¬ e.Concluded [.submit r] r m := by
  have hsplit : ∀ {before since : List Action} {a : Action},
      [.submit r] = before ++ a :: since → before = [] ∧ a = .submit r := by
    intro before since a heq
    cases before with
    | nil => exact ⟨rfl, (List.cons.inj heq).1.symm⟩
    | cons b before => simp at heq
  intro h
  cases h with
  | rejected before since a call answer heq hcause =>
      obtain ⟨rfl, rfl⟩ := hsplit heq
      cases hcause
  | ended before since a c heq hregistered hcase hgone =>
      obtain ⟨rfl, rfl⟩ := hsplit heq
      have hkept : (e.act (.submit r)).store.get? r.key = some c := by
        simpa [Engine.act] using hcase
      rw [after_nil, hkept] at hgone
      cases hgone

/-- A fetch that finds the outcome of the request before: the first request for the key was rejected
and nobody has read its outcome, nothing is going on for the key, and a second request, for another
asset, is submitted.  The caller finds an outcome before the second request has come to anything,
and this is what the fetch returns. -/
theorem fetch_finds_left :
    let first : DataRequest := { key := ⟨"k"⟩, asset := ⟨"a"⟩, provider := "p" }
    let second : DataRequest := { key := ⟨"k"⟩, asset := ⟨"b"⟩, provider := "p" }
    let refusal : EngineError := .collaborator "withdrawn"
    let as : List Action :=
      [.submit first, .dispatch, .stride 0, .stride 0, .reply 0 (.offer (.error refusal)),
        .dispatch, .stride 1]
    let o : Outcome := .error (.offerUnavailable refusal.message)
    let e := (ofSettings {}).after as
    let h : Host Script := { engine := e, services := { noOffer := .ofList [("b", "unknown")] } }
    e.Quiet ⟨"k"⟩ ∧ ((e.after [.submit second]).takeOutcome ⟨"k"⟩).1 = some o ∧
      ¬ e.Concluded [.submit second] second (o.message ⟨"k"⟩) ∧
      ∃ h', Adapter.fetch h second 1000 = some (.ok (some o), h') := by
  intro first second refusal as o e h
  have hquiet : e.Quiet ⟨"k"⟩ := quiet_of_idle (by decide) (by decide) (by decide)
  have htaken : ((e.after [.submit second]).takeOutcome ⟨"k"⟩).1 = some o := by decide
  refine ⟨hquiet, htaken, ?_, ?_⟩
  · with_reducible exact not_concluded_submit e second _
  · have hopen : h.engine.bus.isOpen := by decide
    have hleft : (h.engine.takeOutcome second.key).1 = some o := by decide
    have hdeadline : deadline? h.now 1000 = some 1000 := by decide
    exact Adapter.fetch_of_left h second hopen hdeadline hleft

end Engine

end Rendezvous
