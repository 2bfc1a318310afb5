import Rendezvous.Proofs.Fetching
import Rendezvous.Proofs.Negotiations
import Rendezvous.Proofs.Postings

/-!
# Handlers that go wrong

No handler goes wrong as long as nobody but the handlers touches cases and records.  Where somebody
else does (`Exposed`), a handler can be refused: it leaves its case where it is, and its fault goes
to the dead letters.  The handler of the fault then closes whatever the key still has and records
the fault as the outcome.

Messages of the same key that are queued in between are handled first, and find the case as it was.
They can end it, or go wrong over it again.  The fault is recorded all the same.

* `Fades`: a section that opens nothing;
* `Doomed`: a fault of the key is on its way, or the key is cleared;
* `fault_clears_key`: once all messages of the key are handled it has neither case nor record, and
  as many outcomes are recorded as handlers went wrong and terminal messages were published;
* `fault_after_failure`: they can be two.
-/

namespace Rendezvous

namespace Engine

/-- The states that a bus with its handlers comes to when anybody may publish anything and replace
cases and records from outside. -/
inductive Exposed (s : Settings) : Engine → Prop
  | start : Exposed s (ofSettings s)
  | act {e : Engine} (h : Exposed s e) (a : Action) : Exposed s (e.act a)
  | publish {e : Engine} (h : Exposed s e) (m : Message) : Exposed s (e.publish m)
  | replaceCases {e : Engine} (h : Exposed s e) (cases : Assoc CorrelationKey Case) :
      Exposed s { e with store := { e.store with cases } }
  | replaceRecords {e : Engine} (h : Exposed s e) (registry : Registry) :
      Exposed s { e with registry }

theorem Exposed.after {s : Settings} {e : Engine} (h : Exposed s e) (as : List Action) :
    Exposed s (e.after as) := by
  induction as generalizing e with
  | nil => exact h
  | cons a as ih => exact ih (h.act a)

variable {e e' : Engine} {a : Action} {m : Message} {k : CorrelationKey} {t : TaskId}
variable {handled : List Message} {evs : List Event}

/-- The key and the error of the handler that goes wrong by the action. -/
def fault? (e : Engine) (a : Action) : Option (CorrelationKey × EngineError) :=
  (e.passage? a).bind fun p =>
    match p.result.2 with
    | .fault error => some (p.message.key, error)
    | _ => none

theorem fault?_eq_some {error : EngineError} (h : e.fault? a = some (k, error)) :
    ∃ p, e.passage? a = some p ∧ p.message.key = k ∧ p.result.2 = .fault error := by
  obtain ⟨p, hp, hfault⟩ := Option.bind_eq_some_iff.mp h
  cases hexit : p.result.2 with
  | fault error' =>
      rw [hexit] at hfault
      cases hfault
      exact ⟨p, hp, rfl, hexit⟩
  | done | publish | record | call => simp [hexit] at hfault

/-- Nothing that is done from outside brings the books about tasks and locks into disorder. -/
theorem Exposed.wired {s : Settings} (h : Exposed s e) : e.Wired := by
  induction h with
  | start =>
      refine ⟨(sound_ofSettings s).orderly, rfl, fun t task hold => ?_⟩
      cases hold
  | act h a ih =>
      obtain ⟨handled, evs, hdeals⟩ := act_deals ih a
      exact hdeals.wired
  | publish h m ih =>
      exact ih.congr (by simp) (by simp) (by simp) (by simpa [isOpen_publish] using ih.isOpen)
  | replaceCases h | replaceRecords h => rename_i ih; exact ih.congr rfl rfl rfl ih.isOpen

/-! ## Sections that open nothing -/

/-- A section of `m` that opens nothing: the messages it publishes to end a request are paid for by
its case, no record is made, and who stays inside asks for the transfer of a case. -/
structure Fades (e : Engine) (m : Message) (r : Engine × Exit) : Prop where
  live : (r.1.standing m.key).live + (r.2.posts m).countP (Message.ends m.key) ≤
    (e.standing m.key).live
  record : e.registry.records.get? m.key = none → r.1.registry.records.get? m.key = none
  call : ∀ task, r.2 = .call task → (∃ m c request, task = .transferring m c request) ∧
    (r.1.store.get? m.key).isSome

theorem get?_of_live? {s : CaseStore} {c : Case} (h : s.live? k = some c) : s.get? k = some c :=
  (Option.filter_eq_some_iff.mp h).1

theorem live_of_get? {c : Case} (h : e.store.get? k = some c) : (e.standing k).live = 1 := by
  simp [Standing.live, standing, h]

/-- A section that changes nothing and publishes nothing to end a request. -/
theorem fades_stay (e : Engine) (m : Message) {exit : Exit}
    (hends : (exit.posts m).countP (Message.ends m.key) = 0)
    (hcall : ∀ task, exit ≠ .call task) : Fades e m (e, exit) :=
  ⟨Nat.le_of_eq (by rw [hends, Nat.add_zero]), id, fun task heq => absurd heq (hcall task)⟩

theorem fades_done (e : Engine) (m : Message) : Fades e m (e, .done) :=
  fades_stay e m rfl (by simp)

theorem fades_fault (e : Engine) (m : Message) (error : EngineError) :
    Fades e m (e, .fault error) := by
  refine fades_stay e m ?_ (by simp)
  have hdead : (Message.fault m.key error.message).ends m.key = false := by
    simp [Message.ends, Message.fault, Message.isTerminal]
  by_cases hchannel : m.channel = .dlq <;> simp [Exit.posts, Bus.faultOf, hchannel, hdead]

/-- A section that moves a case on. -/
theorem fades_put {c : Case} (hcase : e.store.get? m.key = some c) (c' : Case) :
    Fades e m ({ e with store := e.store.put m.key c' }, .done) := by
  refine ⟨?_, id, by simp⟩
  rw [standing_put, live_of_get? hcase]
  exact Nat.le_refl 1

/-- A section that closes a case and publishes one message. -/
theorem fades_close {c : Case} (hcase : e.store.get? m.key = some c) (last : Message) :
    Fades e m (e.close m.key, .publish last) := by
  refine ⟨?_, fun _ => by simp, by simp⟩
  rw [standing_close, live_of_get? hcase]
  have hlast := List.countP_le_length (p := Message.ends m.key) (l := [last])
  simpa [Standing.live, Exit.posts] using hlast

theorem fades_complete {c : Case} (hcase : e.store.get? m.key = some c) (last : Message) :
    Fades e m ({ e with store := e.store.remove m.key }, .publish last) := by
  refine ⟨?_, id, by simp⟩
  rw [standing_remove, live_of_get? hcase]
  have hlast := List.countP_le_length (p := Message.ends m.key) (l := [last])
  simpa [Standing.live, Exit.posts] using hlast

/-- A section that handles anything but a request opens nothing. -/
theorem fades_handle (e : Engine) {m : Message} (hm : m.isRequest = false) :
    Fades e m (e.handle m) := by
  unfold handle
  split
  · rename_i hchannel hpayload
    simp [Message.isRequest, hchannel, hpayload] at hm
  · unfold onAccepted
    split
    · exact fades_done e m
    · rename_i hlive
      split
      · exact fades_put (get?_of_live? hlive) _
      · exact fades_done e m
  · unfold onNegotiationFailed
    split
    · exact fades_done e m
    · rename_i hlive
      split
      · exact fades_close (get?_of_live? hlive) _
      · exact fades_done e m
  · unfold onConfirmed
    split
    · exact fades_done e m
    · rename_i c hlive
      have hcase := get?_of_live? hlive
      split
      · split
        · exact fades_fault e m _
        · rename_i record registry htake
          obtain rfl : registry = (e.registry.take e.now m.key).2 := by rw [htake]
          refine ⟨?_, fun _ => by simp, fun task heq => ?_⟩
          · rw [standing_take]
            exact Nat.le_refl _
          · cases heq
            exact ⟨⟨_, _, _, rfl⟩, by simp [hcase]⟩
      · exact fades_done e m
  · unfold onTransferStarted
    split
    · exact fades_done e m
    · rename_i hlive
      split
      · exact fades_put (get?_of_live? hlive) _
      · exact fades_done e m
  · unfold onDataReference
    split
    · exact fades_done e m
    · rename_i hlive
      split
      · exact fades_complete (get?_of_live? hlive) _
      · exact fades_done e m
  · unfold onTransferFailed
    split
    · exact fades_done e m
    · rename_i hlive
      exact fades_close (get?_of_live? hlive) _
  · refine ⟨?_, fun _ => by simp [onFault], by simp [onFault]⟩
    have hclosed : ((e.close m.key).standing m.key).live = 0 := by
      rw [standing_close]
      rfl
    simp [onFault, hclosed, Exit.posts]
  · exact fades_done e m

/-- The answer to the transfer of a case opens nothing. -/
theorem fades_onTransfer (hcase : (e.store.get? m.key).isSome) (c : Case) (contract : ContractId)
    (answer : Except EngineError TransferProcessId) :
    Fades e m (e.onTransfer m c contract answer) := by
  obtain ⟨c', hcase⟩ := Option.isSome_iff_exists.mp hcase
  cases answer with
  | error error => exact fades_close hcase _
  | ok id => exact fades_put hcase _

/-! ## Leaving a section -/

/-- A handler that leaves its section is gone, or waits for the call of its exit. -/
theorem calls_of_leave (e : Engine) (t : TaskId) (m : Message) (exit : Exit) {t' : TaskId}
    {task : Task} (hold : (e.leave t m exit).tasks.get? t' = some task) :
    (t' = t ∧ exit = .call task) ∨ (t' ≠ t ∧ e.tasks.get? t' = some task) := by
  by_cases ht : t' = t
  · subst ht
    left
    cases exit with
    | done | publish next | record o | fault error => simp [leave] at hold
    | call task' => cases hcall : task'.call? <;> simp_all [leave]
  · right
    rw [((Alone.refl e t).leave m exit).others t' ht] at hold
    exact ⟨ht, hold⟩

/-! ## From a fault to its dead letter -/

/-- The key has neither case nor record. -/
def Cleared (e : Engine) (k : CorrelationKey) : Prop :=
  e.store.get? k = none ∧ e.registry.records.get? k = none

/-- A fault of `k` is on its way, or `k` is cleared; and nothing on its way can open anything. -/
structure Doomed (e : Engine) (k : CorrelationKey) : Prop where
  wired : e.Wired
  requests : ∀ m ∈ e.mail, m.key = k → m.isRequest = false
  calls : ∀ t task, e.tasks.get? t = some task → task.call?.isSome → task.key? = some k →
    (∃ m c request, task = .transferring m c request) ∧ (e.store.get? k).isSome
  fault : e.Cleared k ∨ ∃ text, Message.fault k text ∈ e.mail

/-- Whoever is inside the section of a key is the only one with an open call for it. -/
theorem Wired.sole (h : e.Wired) (ho : e.store.locks.owner? k = some t) {t' : TaskId} {task : Task}
    (hold : e.tasks.get? t' = some task) (hcall : task.call?.isSome) (hkey : task.key? = some k) :
    t' = t := by
  have hin : task.inside? = some k := (Task.inside?_eq_key? hcall).trans hkey
  have ho' := h.orderly.inside t' k (by simp [hold, hin])
  exact Option.some.inj (ho'.symm.trans ho)

/-- No request comes up unless a caller submits one. -/
theorem Doomed.requests_deals (h : e.Doomed k) (hnone : a.submits k = false)
    (hd : e.Deals a e' handled evs) : ∀ m ∈ e'.mail, m.key = k → m.isRequest = false := by
  intro m hmem hkey
  rcases hd.mem_mail hmem with hnew | hold
  · refine Bool.eq_false_iff.mpr fun hrequest => ?_
    obtain ⟨r, rfl, rfl⟩ := hd.requests m hnew hrequest
    have hother : r.key ≠ k := by simpa [Action.submits] using hnone
    exact hother hkey
  · exact h.requests m hold hkey

/-- A fault that is not handled is still on its way. -/
theorem fault_of_deals (hd : e.Deals a e' handled evs)
    (hhandled : ∀ text, Message.fault k text ∉ handled)
    (hfault : ∃ text, Message.fault k text ∈ e.mail) : ∃ text, Message.fault k text ∈ e'.mail := by
  obtain ⟨text, hmem⟩ := hfault
  exact ⟨text, (hd.handled_or_mail hmem).resolve_left (hhandled text)⟩

/-- What becomes of a doomed key: it stays doomed, and what is published to end a request is paid
for by its case. -/
structure Wanes (e e' : Engine) (k : CorrelationKey) (evs : List Event) : Prop where
  doomed : e'.Doomed k
  live : (e'.standing k).live + (Event.posted evs).countP (Message.ends k) ≤ (e.standing k).live

/-- Where neither case nor record of `k` changes, `k` stays doomed. -/
theorem Doomed.stay (h : e.Doomed k) (hnone : a.submits k = false) (hd : e.Deals a e' handled evs)
    (hcase : e'.store.get? k = e.store.get? k)
    (hrecord : e'.registry.records.get? k = e.registry.records.get? k)
    (hcalls : ∀ t task, e'.tasks.get? t = some task → task.call?.isSome → task.key? = some k →
      e.tasks.get? t = some task)
    (hends : ∀ m ∈ Event.posted evs, m.ends k = false)
    (hhandled : ∀ text, Message.fault k text ∉ handled) : Wanes e e' k evs := by
  refine ⟨⟨hd.wired, h.requests_deals hnone hd, fun t task hold hcall hkey => ?_, ?_⟩, ?_⟩
  · rw [hcase]
    exact h.calls t task (hcalls t task hold hcall hkey) hcall hkey
  · refine h.fault.imp (fun hcleared => ?_) (fault_of_deals hd hhandled)
    exact ⟨hcase.trans hcleared.1, hrecord.trans hcleared.2⟩
  · have hzero : (Event.posted evs).countP (Message.ends k) = 0 :=
      List.countP_eq_zero.mpr fun m hmem => by simp [hends m hmem]
    have hsame : (e'.standing k).live = (e.standing k).live :=
      congrArg (fun c? : Option Case => c?.toList.length) hcase
    omega

/-- A handler of `k` whose section opens nothing leaves `k` doomed. -/
theorem Doomed.leave (h : e.Doomed k) (hnone : a.submits k = false) {p : Passage}
    (hp : e.passage? a = some p) (hkey : p.message.key = k) (hfades : Fades e p.message p.result)
    (hd : e.Deals a (e.act a) handled evs)
    (hposted : Event.posted evs = p.result.2.posts p.message)
    (hhandled : ∀ text, Message.fault k text ∈ handled →
      p.result.1.store.get? k = none ∧ p.result.1.registry.records.get? k = none) :
    Wanes e (e.act a) k evs := by
  have hwithin := h.wired.within hp
  have hcase : (e.act a).store.get? k = p.result.1.store.get? k := by
    rw [hwithin.act]
    exact get?_leave ..
  have hrecord : (e.act a).registry = p.result.1.registry := by
    rw [hwithin.act, registry_leave]
  have hlive : ((e.act a).standing k).live = (p.result.1.standing k).live :=
    congrArg (fun c? : Option Case => c?.toList.length) hcase
  subst hkey
  refine ⟨⟨hd.wired, h.requests_deals hnone hd, fun t task hold hcall hkey => ?_, ?_⟩, ?_⟩
  · rw [hwithin.act] at hold
    rcases calls_of_leave _ _ _ _ hold with ⟨-, hexit⟩ | ⟨hother, hold⟩
    · rw [hcase]
      exact hfades.call task hexit
    · rw [hwithin.contained.tasks] at hold
      exact absurd (h.wired.sole hwithin.owner hold hcall hkey) hother
  · rcases h.fault with hcleared | ⟨text, hmem⟩
    · left
      have hvacant : (e.standing p.message.key).live = 0 := by
        simp [Standing.live, standing, hcleared.1]
      have hnothing : (p.result.1.standing p.message.key).live = 0 := by
        have hle := hfades.live
        omega
      refine ⟨?_, by rw [hrecord]; exact hfades.record hcleared.2⟩
      rw [hcase]
      simpa [Standing.live, standing] using hnothing
    · rcases hd.handled_or_mail hmem with hnow | hlater
      · left
        obtain ⟨hgone, hunfiled⟩ := hhandled text hnow
        exact ⟨hcase.trans hgone, by rw [hrecord]; exact hunfiled⟩
      · exact .inr ⟨text, hlater⟩
  · rw [hposted, hlive]
    exact hfades.live

/-- The handler of another key does not touch `k`. -/
theorem Doomed.leave_of_ne (h : e.Doomed k) (hnone : a.submits k = false) {p : Passage}
    (hp : e.passage? a = some p) (hkey : p.message.key ≠ k)
    (hd : e.Deals a (e.act a) handled evs)
    (hposted : Event.posted evs = p.result.2.posts p.message)
    (hhandled : ∀ m ∈ handled, m = p.message) : Wanes e (e.act a) k evs := by
  have hwithin := h.wired.within hp
  have hcontained := hwithin.contained
  refine h.stay hnone hd ?_ ?_ (fun t task hold hcall hkey' => ?_) (fun m hmem => ?_)
    fun text hmem => hkey ((hhandled _ hmem).symm ▸ rfl)
  · rw [hwithin.act, get?_leave, hcontained.cases k hkey.symm]
  · rw [hwithin.act, registry_leave, hcontained.records k hkey.symm]
  · rw [hwithin.act] at hold
    have hfair := hwithin.fair
    rcases calls_of_leave _ _ _ _ hold with ⟨-, hexit⟩ | ⟨-, hold⟩
    · rw [hexit] at hfair
      exact absurd (Option.some.inj (hfair.1.symm.trans hkey')) hkey
    · rwa [hcontained.tasks] at hold
  · -- whatever a handler publishes, it publishes for its key
    have hfair := hwithin.fair
    rw [hposted] at hmem
    have hkey' : m.key = p.message.key := by
      cases hexit : p.result.2 with
      | publish next =>
          rw [hexit] at hfair hmem
          obtain rfl : m = next := by simpa [Exit.posts] using hmem
          exact hfair.1
      | fault error =>
          rw [hexit] at hfair hmem
          have hdead : Bus.faultOf p.message error = some (.fault p.message.key error.message) :=
            if_neg hfair
          obtain rfl : m = .fault p.message.key error.message := by
            simpa [Exit.posts, hdead] using hmem
          rfl
      | done | record | call => simp [hexit, Exit.posts] at hmem
    simp [Message.ends, hkey', hkey]

/-- A sweep that ends a case leaves its key cleared. -/
theorem Doomed.visit (h : e.Doomed k) (hnone : a.submits k = false) {sweep : Sweep}
    {key : CorrelationKey} {seen : Stage}
    (hold : e.tasks.get? t = some (.locking (.evict sweep key seen)))
    (ho : e.store.locks.owner? key = some t) (hdue : e.Due sweep.startedAt key seen)
    (hd : e.Deals a (e.visit t sweep key seen) [] evs)
    (hposted : Event.posted evs = [.failed key .timeout]) :
    Wanes e (e.visit t sweep key seen) k evs := by
  have hvisit := visit_of_due hdue t
  have hcalls : ∀ t' task, (e.visit t sweep key seen).tasks.get? t' = some task →
      task.call?.isSome → e.tasks.get? t' = some task := by
    intro t' task hold' hcall
    have hm : Moved e (e.visit t sweep key seen) t
        (some (.walking { sweep with evicted := sweep.evicted + 1 })) := by
      rw [hvisit]
      exact moved_insert (by simp)
    exact calls_of_moved hm (by simp [Task.call?]) t' task hold' hcall
  by_cases hk : key = k
  · subst hk
    have hgone : (e.visit t sweep key seen).Cleared key := by
      rw [hvisit]
      exact ⟨by simp, by simp⟩
    obtain ⟨c, hcase, -⟩ := hdue
    refine ⟨⟨hd.wired, h.requests_deals hnone hd, fun t' task hold' hcall hkey => ?_, .inl hgone⟩,
      ?_⟩
    · -- the sweep is inside, so nobody has a call open
      have hbefore := hcalls t' task hold' hcall
      obtain rfl := h.wired.sole ho hbefore hcall hkey
      rw [hold] at hbefore
      cases hbefore
      cases hcall
    · rw [hposted, live_of_get? hcase]
      have hzero : ((e.visit t sweep key seen).standing key).live = 0 := by
        simp [Standing.live, standing, hgone.1]
      rw [hzero, Nat.zero_add]
      exact List.countP_le_length
  · refine h.stay hnone hd ?_ ?_ (fun t' task hold' hcall _ => hcalls t' task hold' hcall)
      (fun m hmem => ?_) (by simp)
    · rw [hvisit]
      simp [Ne.symm hk]
    · rw [hvisit]
      simp [Ne.symm hk]
    · rw [hposted] at hmem
      obtain rfl := List.mem_singleton.mp hmem
      simp [Message.ends, Message.failed, hk]

/-- A passage is the section of a message on its way, or takes the answer to an open call. -/
theorem passage_cases {p : Passage} (hp : e.passage? a = some p) :
    (e.handling? a = some p.message ∧ p.message ∈ e.mail ∧ p.result = e.handle p.message) ∨
      e.handling? a = none ∧ ∃ task, e.tasks.get? p.task = some task ∧ task.call?.isSome ∧
        task.key? = some p.message.key ∧ ∀ m c request, task = .transferring m c request →
          ∃ answer, p.result = e.onTransfer p.message c request.contract answer := by
  unfold passage? at hp
  split at hp
  · rename_i t
    split at hp
    · rename_i m hold
      split at hp
      · rename_i howns
        cases hp
        exact .inl ⟨by simp [handling?, hold, howns],
          mem_mail.mpr (.inr ⟨t, by simp [hold, Task.message?]⟩), rfl⟩
      · cases hp
    · cases hp
  · split at hp
    · rename_i hold
      cases hp
      exact .inr ⟨rfl, _, hold, rfl, rfl, fun m c request heq => by cases heq⟩
    · rename_i hold
      cases hp
      exact .inr ⟨rfl, _, hold, rfl, rfl, fun m c request heq => by cases heq⟩
    · rename_i hold
      cases hp
      refine .inr ⟨rfl, _, hold, rfl, rfl, fun m c request heq => ?_⟩
      cases heq
      exact ⟨_, rfl⟩
    · cases hp
  · cases hp

/-- Every action that is no request for `k` leaves a doomed key doomed. -/
theorem Doomed.act (h : e.Doomed k) (hnone : a.submits k = false)
    (hd : e.Deals a (e.act a) handled evs) : Wanes e (e.act a) k evs := by
  cases hd.source with
  | still hcases hrecords hcalls hends hlock =>
      refine h.stay hnone hd (hcases k) (hrecords k)
        (fun t task hold hcall _ => hcalls t task hold hcall)
        (fun m hmem => by simp [Message.ends, hends m hmem]) fun text hmem => ?_
      cases hlock _ hmem
  | visit t sweep key seen hold ho hdue hvisit hhandled hposted =>
      subst hhandled
      rw [hvisit] at hd ⊢
      exact h.visit hnone hold ho hdue hd hposted
  | passage p hp hhandled hposted =>
      by_cases hk : p.message.key = k
      · rcases passage_cases hp with
          ⟨hhandling, hmail, hresult⟩ | ⟨hhandling, task, hold, hcall, hkey, hanswer⟩
        · have hfades : Fades e p.message p.result :=
            hresult ▸ fades_handle e (h.requests _ hmail hk)
          refine h.leave hnone hp hk hfades hd hposted fun text hmem => ?_
          -- the dead letter itself clears the key
          have hdead : p.message = .fault k text := by
            rw [hhandled, hhandling] at hmem
            exact (List.mem_singleton.mp hmem).symm
          rw [hresult, hdead]
          exact ⟨by simp [handle, onFault, Message.fault], by simp [handle, onFault, Message.fault]⟩
        · obtain ⟨⟨m, c, request, htask⟩, hcase⟩ := h.calls p.task task hold hcall (hk ▸ hkey)
          obtain ⟨answer, hresult⟩ := hanswer m c request htask
          have hfades : Fades e p.message p.result :=
            hresult ▸ fades_onTransfer (hk.symm ▸ hcase) c request.contract answer
          refine h.leave hnone hp hk hfades hd hposted fun text hmem => ?_
          rw [hhandled, hhandling] at hmem
          cases hmem
      · refine h.leave_of_ne hnone hp hk hd hposted fun m hmem => ?_
        rcases passage_cases hp with ⟨hhandling, -⟩ | ⟨hhandling, -⟩
        · rw [hhandled, hhandling] at hmem
          exact List.mem_singleton.mp hmem
        · rw [hhandled, hhandling] at hmem
          cases hmem

/-! ## Runs -/

/-- The account of `k` from `e` to `e'`, where `evs` are written: outcomes are recorded for the
messages that tell them, each of which was on its way or tells of a handler that went wrong or of
the end of a request. -/
structure Account (e e' : Engine) (k : CorrelationKey) (evs : List Event) : Prop where
  history : e'.history = evs ++ e.history
  outcomes : (evs.filterMap (Event.outcome? k)).length + e'.mail.countP (Message.tells k) =
    evs.countP (Event.isFaultOf k) + (Event.posted evs).countP (Message.ends k) +
      e.mail.countP (Message.tells k)

theorem Deals.account (hd : e.Deals a e' handled evs) (k : CorrelationKey) :
    Account e e' k evs where
  history := hd.history
  outcomes := by
    have hmail := hd.mail.countP_eq (Message.tells k)
    have houtcomes := hd.outcomes k
    have hendings := hd.endings k
    simp only [List.countP_append] at hmail
    omega

theorem Account.trans {e'' : Engine} {evs' : List Event} (h : Account e e' k evs)
    (h' : Account e' e'' k evs') : Account e e'' k (evs' ++ evs) where
  history := by rw [h'.history, h.history, List.append_assoc]
  outcomes := by
    have hfirst := h.outcomes
    have hsecond := h'.outcomes
    simp only [List.filterMap_append, List.length_append, List.countP_append,
      Event.posted_append]
    omega

/-- Along a schedule without requests for `k` a doomed key stays doomed, and its account goes on. -/
theorem Doomed.after (h : e.Doomed k) (bs : List Action) (hnone : ∀ b ∈ bs, b.submits k = false) :
    ∃ evs, Account e (e.after bs) k evs ∧ Wanes e (e.after bs) k evs := by
  induction bs generalizing e with
  | nil => exact ⟨[], ⟨rfl, by simp⟩, h, Nat.le_refl _⟩
  | cons b bs ih =>
      obtain ⟨handled, evs, hd⟩ := act_deals h.wired b
      have hfirst := h.act (hnone b (by simp)) hd
      obtain ⟨evs', haccount, hrest⟩ := ih hfirst.doomed fun b' hmem => hnone b' (by simp [hmem])
      refine ⟨evs' ++ evs, (hd.account k).trans haccount, hrest.doomed, ?_⟩
      have hlive := hfirst.live
      have hlive' := hrest.live
      simp only [Event.posted_append, List.countP_append]
      rw [after_cons]
      omega

/-- A stage event tells no outcome and is no request. -/
theorem of_isStageEvent (hm : m.isStageEvent) : m.isRequest = false ∧ ∀ k, m.tells k = false := by
  obtain ⟨key, channel, payload⟩ := m
  cases channel <;> cases payload <;>
    simp_all [Message.isStageEvent, Message.isRequest, Message.tells]

/-- A handler of `k` that goes wrong dooms `k`, if nothing but stage events of `k` is on its way. -/
theorem Wired.doomed_of_fault (h : e.Wired) {error : EngineError}
    (hfault : e.fault? a = some (k, error))
    (hqueued : ∀ m ∈ e.mail, m.key = k → m.isStageEvent) :
    ∃ evs, Account e (e.act a) k evs ∧ (e.act a).Doomed k ∧
      evs.countP (Event.isFaultOf k) = 1 ∧ (Event.posted evs).countP (Message.ends k) = 0 := by
  obtain ⟨p, hp, hkey, hfault⟩ := fault?_eq_some hfault
  obtain ⟨evs, hd, hposted⟩ := deals_passage h hp
  have hwithin := h.within hp
  have hfair := hwithin.fair
  rw [hfault] at hfair
  have hdead : Bus.faultOf p.message error = some (.fault k error.message) := by
    rw [← hkey]
    exact if_neg hfair
  rw [hfault] at hposted
  have hposted : Event.posted evs = [.fault k error.message] := by
    simpa [Exit.posts, hdead] using hposted
  have hnot : (Message.fault k error.message).ends k = false := by
    simp [Message.ends, Message.fault, Message.isTerminal]
  have hends : (Event.posted evs).countP (Message.ends k) = 0 := by simp [hposted, hnot]
  have htells : (Message.fault k error.message).tells k := by simp [Message.tells, Message.fault]
  refine ⟨evs, hd.account k, ⟨hd.wired, fun m hmem hk => ?_, fun t task hold hcall hk => ?_, ?_⟩,
    ?_, hends⟩
  · rcases hd.mem_mail hmem with hnew | hold
    · rw [hposted] at hnew
      rw [List.mem_singleton.mp hnew]
      rfl
    · exact (of_isStageEvent (hqueued m hold hk)).1
  · -- whoever went wrong was inside, and has left
    rw [hwithin.act] at hold
    rcases calls_of_leave _ _ _ _ hold with ⟨-, hexit⟩ | ⟨hother, hold⟩
    · rw [hfault] at hexit
      cases hexit
    · rw [hwithin.contained.tasks] at hold
      exact absurd (h.sole hwithin.owner hold hcall (hkey.symm ▸ hk)) hother
  · right
    refine ⟨error.message, ?_⟩
    have hmem : Message.fault k error.message ∈ (e.handling? a).toList ++ (e.act a).mail :=
      hd.mail.symm.subset (by simp [hposted])
    -- the message whose handler went wrong is no dead letter itself
    refine (List.mem_append.mp hmem).resolve_left fun hnow => hfair ?_
    rcases passage_cases hp with ⟨hhandling, -⟩ | ⟨hhandling, -⟩
    · rw [hhandling] at hnow
      rw [← List.mem_singleton.mp hnow]
      rfl
    · rw [hhandling] at hnow
      cases hnow
  · have hendings := hd.endings k
    rw [hends, hposted] at hendings
    simpa [htells] using hendings

theorem key_of_tells (h : m.tells k) : m.key = k := by
  unfold Message.tells at h
  exact of_decide_eq_true (Bool.and_eq_true_iff.mp h).1

/-- A doomed key is cleared once all its messages are handled, and no handler of it is at work. -/
theorem Doomed.cleared (h : e.Doomed k) (hdone : ∀ m ∈ e.mail, m.key ≠ k) :
    e.Cleared k ∧ e.Idle k := by
  have hcleared : e.Cleared k :=
    h.fault.resolve_right fun ⟨_, hmem⟩ => hdone _ hmem rfl
  refine ⟨hcleared, fun t task hold hkey => Option.not_isSome_iff_eq_none.mp fun hcall => ?_⟩
  have hcase := (h.calls t task hold hcall hkey).2
  rw [hcleared.1] at hcase
  cases hcase

/-- Let a handler of `k` go wrong while nothing but stage events of `k` is on its way, and let no
request for `k` follow.  Once all messages of `k` are handled, `k` has neither case nor record, and
no handler of `k` waits for a service.  Since then as many outcomes of `k` have been recorded as
handlers of `k` have gone wrong and as terminal messages have been published for `k`; of the latter
there is at most one.  So it is one outcome exactly if no other handler has gone wrong and nothing
has ended the case before the fault was handled. -/
theorem fault_clears_key {s : Settings} (he : Exposed s e) {error : EngineError}
    (hfault : e.fault? a = some (k, error))
    (hqueued : ∀ m ∈ e.mail, m.key = k → m.isStageEvent) (bs : List Action)
    (hnone : ∀ b ∈ bs, b.submits k = false)
    (hdone : ∀ m ∈ ((e.act a).after bs).mail, m.key ≠ k) :
    let e' := (e.act a).after bs
    e'.store.get? k = none ∧ e'.registry.records.get? k = none ∧ e'.Idle k ∧
      ∃ evs, e'.history = evs ++ e.history ∧
        let outcomes := evs.filterMap (Event.outcome? k)
        let faults := evs.countP (Event.isFaultOf k)
        let endings := (Event.posted evs).filter (Message.ends k)
        outcomes.length = faults + endings.length ∧ 1 ≤ faults ∧ endings.length ≤ 1 ∧
          (outcomes.length = 1 ↔ faults = 1 ∧ endings = []) := by
  intro e'
  obtain ⟨first, haccount, hdoomed, hone, hnoEnd⟩ := he.wired.doomed_of_fault hfault hqueued
  obtain ⟨rest, haccount', hwanes⟩ := hdoomed.after bs hnone
  obtain ⟨hcleared, hidle⟩ : e'.Cleared k ∧ e'.Idle k := hwanes.doomed.cleared hdone
  -- before the fault nothing on its way tells an outcome, and in the end nothing is on its way
  have hbefore : e.mail.countP (Message.tells k) = 0 :=
    List.countP_eq_zero.mpr fun m hmem htells => by
      rw [(of_isStageEvent (hqueued m hmem (key_of_tells htells))).2 k] at htells
      cases htells
  have hafter : e'.mail.countP (Message.tells k) = 0 :=
    List.countP_eq_zero.mpr fun m hmem htells => hdone m hmem (key_of_tells htells)
  have hall := haccount.trans haccount'
  have houtcomes := hall.outcomes
  have hlive := hwanes.live
  have hbound : ((e.act a).standing k).live ≤ 1 := by
    unfold Standing.live
    cases ((e.act a).standing k).case? <;> simp
  refine ⟨hcleared.1, hcleared.2, hidle, rest ++ first, hall.history, ?_⟩
  intro outcomes faults endings
  have hendings : endings.length = (Event.posted (rest ++ first)).countP (Message.ends k) :=
    List.countP_eq_length_filter.symm
  have hlast : endings.length ≤ 1 := by
    rw [hendings, Event.posted_append, List.countP_append, hnoEnd]
    omega
  have hfaults : 1 ≤ faults := by
    simp only [faults, List.countP_append, hone]
    omega
  have hsum : outcomes.length = faults + endings.length := by
    rw [hendings]
    rw [hbefore, hafter] at houtcomes
    exact houtcomes
  refine ⟨hsum, hfaults, hlast, ?_⟩
  rw [← List.length_eq_zero_iff]
  omega

/-- A confirmation comes to a case whose record has been taken from outside, and nothing else is on
its way: its fault is the one outcome. -/
theorem fault_clears_key_of_lost_record :
    let r : DataRequest := { key := ⟨"k"⟩, asset := ⟨"a"⟩, provider := "p" }
    let offer : ContractOffer := { id := "o", asset := ⟨"a"⟩, provider := "p" }
    let as : List Action :=
      [.submit r, .dispatch, .stride 0, .stride 0, .reply 0 (.offer (.ok offer)),
        .reply 0 (.negotiation (.ok ⟨"n"⟩)), .notify (.confirmed ⟨"n"⟩ ⟨"c"⟩), .dispatch, .stride 1]
    let bs : List Action := [.dispatch, .stride 2, .stride 2]
    let e₀ := (ofSettings {}).after as
    let e : Engine := { e₀ with registry := (e₀.registry.take e₀.now ⟨"k"⟩).2 }
    let e' := (e.act (.stride 1)).after bs
    e.fault? (.stride 1) = some (⟨"k"⟩, .pendingNotFound ⟨"k"⟩) ∧
      e'.store.get? ⟨"k"⟩ = none ∧ e'.registry.records.get? ⟨"k"⟩ = none ∧ e'.Idle ⟨"k"⟩ ∧
      (e'.outcomes ⟨"k"⟩).length = 1 := by
  intro r offer as bs e₀ e
  have he : Exposed {} e := .replaceRecords (Exposed.start.after as) _
  have hqueued : ∀ m ∈ e.mail, m.key = ⟨"k"⟩ → m.isStageEvent := by decide
  have hdone : ∀ m ∈ ((e.act (.stride 1)).after bs).mail, m.key ≠ ⟨"k"⟩ := by decide
  have hfault : e.fault? (.stride 1) = some (⟨"k"⟩, .pendingNotFound ⟨"k"⟩) := by decide
  have hone : (((e.act (.stride 1)).after bs).outcomes ⟨"k"⟩).length = 1 := by decide
  have hcleared := fault_clears_key he hfault hqueued bs (by decide) hdone
  exact ⟨hfault, hcleared.1, hcleared.2.1, hcleared.2.2.1, hone⟩

/-- The failure of the negotiation is queued when the confirmation goes wrong.  It finds the case
and ends it, and then the fault is recorded too: the one case has two outcomes. -/
theorem fault_after_failure :
    let r : DataRequest := { key := ⟨"k"⟩, asset := ⟨"a"⟩, provider := "p" }
    let offer : ContractOffer := { id := "o", asset := ⟨"a"⟩, provider := "p" }
    let as : List Action :=
      [.submit r, .dispatch, .stride 0, .stride 0, .reply 0 (.offer (.ok offer)),
        .reply 0 (.negotiation (.ok ⟨"n"⟩)), .notify (.confirmed ⟨"n"⟩ ⟨"c"⟩),
        .notify (.negotiationFailed ⟨"n"⟩ "no"), .dispatch, .dispatch, .stride 1, .stride 2]
    let bs : List Action :=
      [.stride 2, .dispatch, .dispatch, .stride 4, .stride 3, .stride 3]
    let e₀ := (ofSettings {}).after as
    let e : Engine := { e₀ with registry := (e₀.registry.take e₀.now ⟨"k"⟩).2 }
    let e' := (e.act (.stride 1)).after bs
    Exposed {} e ∧ (e.store.live? ⟨"k"⟩).isSome ∧
      e.fault? (.stride 1) = some (⟨"k"⟩, .pendingNotFound ⟨"k"⟩) ∧
      (∀ m ∈ e.mail, m.isStageEvent) ∧ (∀ b ∈ bs, b.submits ⟨"k"⟩ = false) ∧ e'.mail = [] ∧
      e.outcomes ⟨"k"⟩ = [] ∧
      e'.outcomes ⟨"k"⟩ = [.error (.internal (EngineError.pendingNotFound ⟨"k"⟩).message),
        .error (.negotiationFailed "no")] := by
  intro r offer as bs e₀ e e'
  have he : Exposed {} e := .replaceRecords (Exposed.start.after as) _
  exact ⟨he, by decide, by decide, by decide, by decide, by decide, by decide, by decide⟩

end Engine

end Rendezvous
