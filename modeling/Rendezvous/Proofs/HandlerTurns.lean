import Rendezvous.Proofs.DeadLetters
import Rendezvous.Proofs.Loads
import Rendezvous.Proofs.Negotiations

/-!
# Turns of handlers

The turn of a task runs its handler to the end, calls of services included: the host answers a call
at once, and the handler goes on.  `Within` says where a handler stands between two calls, and
`Within.leaves` and `Within.calls` how it goes on from there.

* `Calm.within`: a handler begins;
* `runTask_of_needsLock`: the turn of a task in terms of its section;
* `Calm.fails`, `Calm.completes`, `Calm.keepsBooks`: turns of handlers that call nobody;
* `Calm.outcome`, `Calm.absent`: turns of tasks without a section;
* `publishes`, `callsBack`: messages from outside.
-/

namespace Rendezvous

namespace Engine

theorem Handles.trans {e e' e'' : Engine} {gone? : Option TaskId} {posted posted' : List Message}
    (h : Handles e e' gone? posted) (h' : Handles e' e'' none posted') :
    Handles e e'' gone? (posted ++ posted') where
  undisturbed := h'.undisturbed
  now := h'.now.trans h.now
  destination := h'.destination.trans h.destination
  ttl := h'.ttl.trans h.ttl
  tasks t := by
    exact ((h'.tasks t).trans (if_neg (by simp))).trans (h.tasks t)
  nextTask := Nat.le_trans h.nextTask h'.nextTask
  queue := by rw [h'.queue, h.queue, List.append_assoc]

theorem Undisturbed.handles_refl {e : Engine} (h : e.Undisturbed) : Handles e e none [] :=
  ⟨h, rfl, rfl, rfl, fun t => by simp, Nat.le_refl _, by simp⟩

end Engine

/-- Whether the message is bookkeeping, on which the course of no request depends. -/
def Message.isLight (m : Message) : Bool :=
  match m.channel, m.payload with
  | .contractNegotiation, .negotiationAccepted _ => true
  | .dataReference, .transferStarted => true
  | _, _ => false

/-- What bookkeeping does to a case. -/
inductive Case.Nudged (c : Case) : Case → Prop
  | negotiating (hstage : c.stage = .started) : Nudged c (c.advance .negotiating)
  | transferring (hstage : c.stage = .confirmed) : Nudged c (c.advance .transferring)

/-- Bookkeeping does nothing but move the case of its key by one stage. -/
theorem Engine.handle_of_isLight {e : Engine} {m : Message} (hlight : m.isLight) :
    ∃ store, e.handle m = ({ e with store }, .done) ∧
      (store.cases = e.store.cases ∨ ∃ c c', e.store.get? m.key = some c ∧ c.Nudged c' ∧
        store.cases = e.store.cases.insert m.key c') := by
  have hget : ∀ c, e.store.live? m.key = some c → e.store.get? m.key = some c := fun c hlive =>
    (Option.filter_eq_some_iff.mp hlive).1
  unfold Message.isLight at hlight
  split at hlight
  · rename_i n hchannel hpayload
    have hhandle : e.handle m = e.onAccepted m n := by simp only [handle, hchannel, hpayload]
    rw [hhandle, onAccepted]
    cases hlive : e.store.live? m.key with
    | none => exact ⟨e.store, rfl, .inl rfl⟩
    | some c =>
        dsimp only
        split
        · rename_i hfits
          have hstage : c.stage = .started := by simp_all
          exact ⟨_, rfl, .inr ⟨c, _, hget c hlive, .negotiating hstage, rfl⟩⟩
        · exact ⟨e.store, rfl, .inl rfl⟩
  · rename_i hchannel hpayload
    have hhandle : e.handle m = e.onTransferStarted m := by simp only [handle, hchannel, hpayload]
    rw [hhandle, onTransferStarted]
    cases hlive : e.store.live? m.key with
    | none => exact ⟨e.store, rfl, .inl rfl⟩
    | some c =>
        dsimp only
        split
        · rename_i hstage
          exact ⟨_, rfl, .inr ⟨c, _, hget c hlive, .transferring hstage, rfl⟩⟩
        · exact ⟨e.store, rfl, .inl rfl⟩
  · cases hlight

namespace Host

variable {σ : Type} {h h' h'' h₁ : Host σ} {interval due : Nat} {t : TaskId} {m : Message}
variable {popped? : Option Turn} {gone? : Option TaskId} {posted posted' : List Message}
variable {extra extra' : List Turn} {told told' : CorrelationKey → List Outcome}

/-- What the handlers read and write is the same in `h` and `h'`. -/
structure Keeps (h h' : Host σ) : Prop where
  cases : h'.engine.store.cases = h.engine.store.cases
  registry : h'.engine.registry = h.engine.registry
  offers : h'.engine.offers = h.engine.offers
  services : h'.services = h.services

theorem Keeps.trans (hk : Keeps h h') (hk' : Keeps h' h'') : Keeps h h'' :=
  ⟨hk'.cases.trans hk.cases, hk'.registry.trans hk.registry, hk'.offers.trans hk.offers,
    hk'.services.trans hk.services⟩

theorem Keeps.get? (hk : Keeps h h') (k : CorrelationKey) :
    h'.engine.store.get? k = h.engine.store.get? k := congrArg (Assoc.get? · k) hk.cases

theorem minor_of_ticker (hticker : h.ticker? = some { interval, due }) (ev : Event) :
    h.Minor ev := by
  intro t f k _ hk
  rw [hticker] at hk
  rw [← Option.some.inj hk]
  simp

/-- A turn is taken, and nothing comes of it. -/
theorem Does.refl (hu : h.engine.Undisturbed) (hblank : h.engine.history = []) {rest : List Turn}
    (hready : h.ready = popped?.toList ++ rest) :
    Does h { h with ready := rest } popped? none [] [] fun _ => [] :=
  ⟨hu.handles_refl, hblank, rest, [], hready, .refl _, .nil⟩

theorem Does.trans (hd : Does h h' popped? gone? posted extra told)
    (hd' : Does h' h'' none none posted' extra' told') :
    Does h h'' popped? gone? (posted ++ posted') (extra ++ extra') fun k => told' k ++ told k where
  handles := hd.handles.trans hd'.handles
  blank := hd'.blank
  notes := by
    obtain ⟨rest, evs, hready, hhears, htells⟩ := hd.notes
    obtain ⟨rest', evs', hready', hhears', htells'⟩ := hd'.notes
    obtain rfl : h'.ready = rest' := hready'
    exact ⟨rest, evs' ++ evs, hready, hhears.trans hhears' hd.handles.now, htells.append htells'⟩

/-! ## Messages from outside -/

/-- A message is published. -/
theorem publishes (hu : h.engine.Undisturbed) (hblank : h.engine.history = [])
    (hticker : h.ticker? = some { interval, due }) (m : Message) :
    let h' := h.apply fun e => e.publish m
    Does h h' none none [m] [] (fun _ => []) ∧ Keeps h h' := by
  intro h'
  have hengine : h'.engine = { h.engine.publish m with history := [] } :=
    engine_apply_of_blank hblank _
  have hhears := hears_apply (f := fun e => e.publish m) hblank (by simp [now])
    fun ev _ => minor_of_ticker hticker ev
  refine ⟨⟨?_, by rw [hengine], h.ready, _, rfl, hhears, Engine.tells_publish hu.isOpen hblank m⟩,
    ?_, ?_, ?_, services_apply _ _⟩
  · rw [hengine]
    exact (hu.handles_publish m).blank
  · rw [hengine]
    simp
  · rw [hengine]
    simp
  · rw [hengine]
    simp

/-- A callback whose key is known brings its message. -/
theorem deliver_of_key {e : Engine} (hopen : e.bus.isOpen) {c : Callback} {k : CorrelationKey}
    (hkey : c.key? e.registry = some k) : e.deliver c = (e.publish (c.message k), none) := by
  have hrefusal : e.bus.refusal? = none := by simp [Bus.refusal?, hopen]
  cases c with
  | accepted n | negotiationFailed n reason =>
      have hindex : e.registry.keyFor? n = some k := hkey
      simp [Engine.deliver, Engine.send, hindex, hrefusal, Callback.message]
  | confirmed n contract =>
      have hindex : e.registry.index.get? n = some k := hkey
      simp [Engine.deliver, Engine.send, Registry.resolveOrPark, hindex, hrefusal,
        Callback.message]
  | transferStarted key | dataReference key reference | transferFailed key reason =>
      obtain rfl : key = k := Option.some.inj hkey
      simp [Engine.deliver, Engine.send, hrefusal, Callback.message]

/-- Callbacks whose key is known bring their messages. -/
theorem callsBack (hu : h.engine.Undisturbed) (hblank : h.engine.history = [])
    (hticker : h.ticker? = some { interval, due }) {k : CorrelationKey} (cs : List Callback)
    (hkey : ∀ c ∈ cs, c.key? h.engine.registry = some k) :
    Does h (callBack cs h) none none (cs.map (·.message k)) [] (fun _ => []) ∧
      Keeps h (callBack cs h) := by
  induction cs generalizing h with
  | nil => exact ⟨.refl hu hblank rfl, rfl, rfl, rfl, rfl⟩
  | cons c cs ih =>
      have hfirst := deliver_of_key hu.isOpen (hkey c (by simp))
      obtain ⟨hdoes, hkeeps⟩ := publishes hu hblank hticker (c.message k)
      have happly : (h.apply fun e => (e.deliver c).1) =
          h.apply fun e => e.publish (c.message k) := by
        have hsame : ({ h.engine with history := [] } : Engine) = h.engine := by rw [← hblank]
        simp only [apply, hsame, hfirst]
      have hcall : callBack (c :: cs) h =
          callBack cs (h.apply fun e => e.publish (c.message k)) := by
        simp only [callBack, hfirst, happly, Option.isSome_none, Bool.false_eq_true, if_false]
      obtain ⟨_, _, -, hhears, -⟩ := hdoes.notes
      obtain ⟨hdoes', hkeeps'⟩ := ih hdoes.handles.undisturbed hdoes.blank
        (hhears.ticker.trans hticker) fun c' hmem => by
          rw [hkeeps.registry]
          exact hkey c' (by simp [hmem])
      rw [hcall]
      exact ⟨hdoes.trans hdoes', hkeeps.trans hkeeps'⟩

/-! ## Between two calls -/

/-- From `h` to `h₁` the handler of `m`, task `t`, comes to stand at `task` inside its section. -/
structure Within (h h₁ : Host σ) (t : TaskId) (m : Message) (task : Task) (extra : List Turn) :
    Prop where
  inside : Engine.Inside h.engine h₁.engine t m.key task
  blank : h₁.engine.history = []
  notes : ∃ rest evs, h.ready = .task t :: rest ∧
    Hears { h with ready := rest } h₁ evs extra ∧ Tells evs [] fun _ => []

/-- A handler begins and gets its lock. -/
theorem Calm.within (hc : Calm h interval due) {rest : List Turn}
    (hready : h.ready = .task t :: rest) (m : Message) :
    Within h { h with ready := rest, engine := h.engine.queueUp t (.handle m) } t m
      (.locking (.handle m)) [] :=
  ⟨hc.undisturbed.inside_queueUp t (.handle m), hc.blank, rest, [], hready,
    .of_eq rfl rfl rfl rfl (by simp) (by simp), .nil⟩

section

variable {task : Task} {r : Engine × Exit} {f : Engine → Engine} (turns : List Turn)
variable (hc : Calm h interval due) (hw : Within h h₁ t m task extra)
  (hr : Engine.Contained h₁.engine m.key r) (hturns : ∀ turn ∈ turns, turn.isPlain = false)
  (services : σ)

include hc hw hr hturns

theorem Within.notes_apply (hnow : (f h₁.engine).now = r.1.now)
    (htells : Tells (f h₁.engine).history posted fun _ => []) :
    ∃ rest evs, h.ready = .task t :: rest ∧
      Hears { h with ready := rest }
        (({ h₁ with services, ready := h₁.ready ++ turns } : Host σ).apply f) evs (extra ++ turns) ∧
      Tells evs posted fun _ => [] := by
  obtain ⟨rest, evs, hready, hhears, hquiet⟩ := hw.notes
  have hadded : Hears h₁ { h₁ with services, ready := h₁.ready ++ turns } [] turns :=
    .of_eq rfl rfl rfl rfl rfl hturns
  have hticker : h₁.ticker? = some { interval, due } := hhears.ticker.trans hc.ticker
  have happly := hears_apply (h := { h₁ with services, ready := h₁.ready ++ turns }) (f := f)
    hw.blank (hnow.trans hr.now) fun ev _ => minor_of_ticker hticker ev
  have hall := (hhears.trans hadded hw.inside.now).trans happly hw.inside.now
  rw [List.append_nil] at hall
  refine ⟨rest, _, hready, hall, ?_⟩
  have htold := hquiet.append htells
  simpa using htold

/-- The handler comes to its end. -/
theorem Within.leaves (next? : Option Message) (hexit : r.2 = .ofFollowUp next?)
    (hf : f h₁.engine = r.1.leave t m r.2) :
    Does h (({ h₁ with services, ready := h₁.ready ++ turns } : Host σ).apply f)
      (some (.task t)) (some t) next?.toList (extra ++ turns) fun _ => [] := by
  have hheld : r.1.HeldBy m.key t := by
    unfold Engine.HeldBy
    rw [hr.locks]
    exact hw.inside.held
  have hopen : r.1.bus.isOpen := by
    rw [hr.bus]
    exact hw.inside.isOpen
  have hengine := engine_apply_of_blank
    (h := { h₁ with services, ready := h₁.ready ++ turns }) hw.blank f
  rw [hexit] at hf
  cases next? with
  | none =>
      refine ⟨?_, by rw [hengine], ?_⟩
      · rw [hengine, hf]
        exact (hw.inside.leave_done hc.undisturbed hr).blank
      · refine hw.notes_apply turns hc hr hturns services ?_ ?_
        · rw [hf]
          simp [Exit.ofFollowUp, Engine.leave_done]
        · rw [hf]
          exact Engine.tells_leave_done hheld (hr.tells hw.blank)
  | some next =>
      refine ⟨?_, by rw [hengine], ?_⟩
      · rw [hengine, hf]
        exact (hw.inside.leave_publish hc.undisturbed hr next).blank
      · refine hw.notes_apply turns hc hr hturns services ?_ ?_
        · rw [hf]
          simp [Exit.ofFollowUp, Engine.leave_publish t m next hopen]
        · rw [hf]
          exact Engine.tells_leave_publish hheld hopen next (hr.tells hw.blank)

/-- The handler goes on to its next call. -/
theorem Within.calls {task' : Task} {call : Call} (hcall : task'.call? = some call)
    (hexit : r.2 = .call task') (hf : f h₁.engine = r.1.leave t m r.2) :
    Within h (({ h₁ with services, ready := h₁.ready ++ turns } : Host σ).apply f) t m task'
      (extra ++ turns) := by
  have hengine := engine_apply_of_blank
    (h := { h₁ with services, ready := h₁.ready ++ turns }) hw.blank f
  rw [hexit] at hf
  refine ⟨?_, by rw [hengine], ?_⟩
  · rw [hengine, hf]
    exact (hw.inside.leave_call hr hcall).blank
  · refine hw.notes_apply turns hc hr hturns services ?_ ?_
    · rw [hf]
      simp [Engine.leave_call _ _ _ hcall]
    · rw [hf]
      exact Engine.tells_leave_call m hcall (hr.tells hw.blank)

end

/-! ## Turns of tasks -/

section

variable [Services σ] {rest : List Turn} (hc : Calm h interval due)
  (hready : h.ready = .task t :: rest)

theorem answerCalls_of_gone (hgone : h.engine.tasks.get? t = none) (n : Nat) :
    answerCalls n t h = h := by
  cases n <;> simp [answerCalls, Engine.call?, hgone]

/-- The host answers a call at once. -/
theorem answerCalls_of_call {task : Task} {call : Call} {reply : Reply} {aftermath : List Aftermath}
    {services : σ} (hold : h.engine.tasks.get? t = some task) (hcall : task.call? = some call)
    (hanswer : Services.respond h.services call = (reply, aftermath, services)) (n : Nat) :
    answerCalls (n + 1) t h = answerCalls n t
      (({ h with services, ready := h.ready ++ aftermath.map .aftermath } : Host σ).apply
        fun e => e.reply t reply) := by
  simp [answerCalls, Engine.call?, hold, hcall, hanswer]

omit [Services σ] in
theorem renewTimer_of_gone (hgone : h.engine.tasks.get? t = none) : h.renewTimer t = h := by
  simp [renewTimer, hgone]

omit [Services σ] in
/-- Where a handler has ended. -/
theorem Does.gone (hd : Does h h' popped? (some t) posted extra told) :
    h'.engine.tasks.get? t = none := by
  rw [hd.handles.tasks, if_pos rfl]

section

variable {task : Task} {call : Call} {reply : Reply} {aftermath : List Aftermath} {services : σ}
variable {r : Engine × Exit} (hw : Within h h₁ t m task extra) (hcall : task.call? = some call)
  (hanswer : Services.respond h₁.services call = (reply, aftermath, services))
  (hreply : h₁.engine.reply t reply = r.1.leave t m r.2)
  (hr : Engine.Contained h₁.engine m.key r)

include hc hw hcall hanswer hreply hr

/-- After an answer the handler comes to its end. -/
theorem Within.answered_leaves (next? : Option Message) (hexit : r.2 = .ofFollowUp next?)
    (n : Nat) :
    let h' := (answerCalls (n + 1) t h₁).renewTimer t
    Does h h' (some (.task t)) (some t) next?.toList (extra ++ aftermath.map .aftermath)
        (fun _ => []) ∧
      h'.engine = { r.1.leave t m r.2 with history := [] } ∧ h'.services = services := by
  intro h'
  let answered : Host σ := { h₁ with services, ready := h₁.ready ++ aftermath.map .aftermath }
  have hdoes := hw.leaves (aftermath.map .aftermath) hc hr (by simp [Turn.isPlain]) services next?
    (f := fun e => e.reply t reply) hexit hreply
  have hturn : h' = answered.apply fun e => e.reply t reply := by
    show (answerCalls (n + 1) t h₁).renewTimer t = _
    rw [answerCalls_of_call hw.inside.moved.self hcall hanswer n, answerCalls_of_gone hdoes.gone,
      renewTimer_of_gone hdoes.gone]
  have hengine := engine_apply_of_blank (h := answered) hw.blank fun e => e.reply t reply
  rw [show answered.engine.reply t reply = _ from hreply] at hengine
  rw [hturn]
  exact ⟨hdoes, hengine, services_apply _ _⟩

/-- After an answer the handler makes its next call. -/
theorem Within.answered_calls {task' : Task} {call' : Call} (hcall' : task'.call? = some call')
    (hexit : r.2 = .call task') (n : Nat) :
    ∃ h₂, answerCalls (n + 1) t h₁ = answerCalls n t h₂ ∧
      Within h h₂ t m task' (extra ++ aftermath.map .aftermath) ∧
      h₂.engine = { r.1.leave t m r.2 with history := [] } ∧ h₂.services = services := by
  let answered : Host σ := { h₁ with services, ready := h₁.ready ++ aftermath.map .aftermath }
  have hwithin := hw.calls (aftermath.map .aftermath) hc hr (by simp [Turn.isPlain]) services
    (f := fun e => e.reply t reply) hcall' hexit hreply
  have hengine := engine_apply_of_blank (h := answered) hw.blank fun e => e.reply t reply
  rw [show answered.engine.reply t reply = _ from hreply] at hengine
  exact ⟨_, answerCalls_of_call hw.inside.moved.self hcall hanswer n, hwithin, hengine,
    services_apply _ _⟩

end

include hc

theorem runTask_of_calm (t : TaskId) (rest : List Turn) :
    ({ h with ready := rest } : Host σ).runTask t =
      (answerCalls callsPerTask t
        (({ h with ready := rest } : Host σ).apply fun e => e.run t)).renewTimer t := by
  simp [runTask, hc.aborted]

/-- The turn of a task that needs a lock is that of its section. -/
theorem runTask_of_needsLock (hold : h.engine.tasks.get? t = some (.arriving m))
    (hlock : m.needsLock) (rest : List Turn) :
    ({ h with ready := rest } : Host σ).runTask t = (answerCalls callsPerTask t
      (({ h with ready := rest, engine := h.engine.queueUp t (.handle m) } : Host σ).apply fun e =>
        (e.handle m).1.leave t m (e.handle m).2)).renewTimer t := by
  have hsame : ({ h.engine with history := [] } : Engine) = h.engine := by rw [← hc.blank]
  have hsame' : ({ h.engine.queueUp t (.handle m) with history := [] } : Engine) =
      h.engine.queueUp t (.handle m) := by
    rw [← show (h.engine.queueUp t (.handle m)).history = [] from hc.blank]
  rw [runTask_of_calm hc]
  simp only [apply, hsame, hsame', hc.undisturbed.run_of_needsLock hold hlock]

include hready

/-- The turn of a handler that calls nobody. -/
theorem Calm.handles (hold : h.engine.tasks.get? t = some (.arriving m)) (hlock : m.needsLock)
    {r : Engine × Exit} (hhandle : (h.engine.queueUp t (.handle m)).handle m = r)
    (next? : Option Message) (hexit : r.2 = .ofFollowUp next?) :
    let h' := ({ h with ready := rest } : Host σ).runTask t
    Does h h' (some (.task t)) (some t) next?.toList [] (fun _ => []) ∧
      h'.engine = { r.1.leave t m r.2 with history := [] } ∧ h'.services = h.services := by
  subst hhandle
  let begun : Host σ := { h with ready := rest, engine := h.engine.queueUp t (.handle m) }
  let ended := begun.apply fun e => (e.handle m).1.leave t m (e.handle m).2
  have hdoes : Does h ended (some (.task t)) (some t) next?.toList [] fun _ => [] := by
    have hleaves := (hc.within hready m).leaves [] hc (Engine.handle_contained _ m)
      (by simp) h.services next? (f := fun e => (e.handle m).1.leave t m (e.handle m).2) hexit rfl
    simpa [begun, ended] using hleaves
  have hturn : ({ h with ready := rest } : Host σ).runTask t = ended := by
    rw [runTask_of_needsLock hc hold hlock, answerCalls_of_gone hdoes.gone,
      renewTimer_of_gone hdoes.gone]
  rw [hturn]
  exact ⟨hdoes, engine_apply_of_blank (h := begun) hc.blank _, services_apply _ _⟩

/-- The turn of a failed negotiation whose case is live. -/
theorem Calm.fails {k : CorrelationKey} {n : NegotiationId} {reason : String} {c : Case}
    (hold : h.engine.tasks.get? t =
      some (.arriving ((Callback.negotiationFailed n reason).message k)))
    (hcase : h.engine.store.get? k = some c) (hlive : c.stage.isTerminal = false)
    (hown : c.data.negotiation = some n) :
    let h' := ({ h with ready := rest } : Host σ).runTask t
    Does h h' (some (.task t)) (some t) [.failed k (.negotiationFailed reason)] [] (fun _ => []) ∧
      h'.engine.store.cases = h.engine.store.cases.erase k ∧
      h'.engine.registry = (h.engine.registry.take h.now k).2 ∧
      h'.engine.offers = h.engine.offers ∧ h'.services = h.services := by
  intro h'
  let m : Message := (Callback.negotiationFailed n reason).message k
  let e₁ := h.engine.queueUp t (.handle m)
  have hlive : e₁.store.live? k = some c := CaseStore.live?_eq_some e₁.store k hcase hlive
  have hhandle : e₁.handle m = (e₁.close k, .publish (.failed k (.negotiationFailed reason))) := by
    show e₁.onNegotiationFailed m n reason = _
    unfold Engine.onNegotiationFailed
    rw [show e₁.store.live? m.key = some c from hlive]
    simp only [Case.concerns, hown, decide_true, if_true]
    rfl
  obtain ⟨hdoes, hengine, hservices⟩ := hc.handles hready hold rfl hhandle
    (some (.failed k (.negotiationFailed reason))) rfl
  refine ⟨hdoes, ?_, ?_, ?_, hservices⟩ <;> rw [hengine]
  · exact (Engine.cases_leave _ _ _ _).trans rfl
  · exact (Engine.registry_leave _ _ _ _).trans rfl
  · exact (Engine.offers_leave _ _ _ _).trans rfl

/-- The turn of a data reference for which a case waits. -/
theorem Calm.completes {k : CorrelationKey} {reference : DataReference} {c : Case}
    (hold : h.engine.tasks.get? t =
      some (.arriving ((Callback.dataReference k reference).message k)))
    (hcase : h.engine.store.get? k = some c)
    (hstage : c.stage = .confirmed ∨ c.stage = .transferring) :
    let h' := ({ h with ready := rest } : Host σ).runTask t
    Does h h' (some (.task t)) (some t) [(Outcome.success reference).message k] [] (fun _ => []) ∧
      h'.engine.store.cases = h.engine.store.cases.erase k ∧
      h'.engine.registry = h.engine.registry ∧ h'.engine.offers = h.engine.offers ∧
      h'.services = h.services := by
  intro h'
  let m : Message := (Callback.dataReference k reference).message k
  let e₁ := h.engine.queueUp t (.handle m)
  have hlive : e₁.store.live? k = some c :=
    CaseStore.live?_eq_some e₁.store k hcase
      (by rcases hstage with hstage | hstage <;> simp [hstage, Stage.isTerminal])
  have hhandle : e₁.handle m = ({ e₁ with store := e₁.store.remove k },
      .publish ((Outcome.success reference).message k)) := by
    show e₁.onDataReference m reference = _
    unfold Engine.onDataReference
    rw [show e₁.store.live? m.key = some c from hlive]
    simp only [hstage, Bool.or_eq_true, decide_eq_true_eq, if_true]
    rfl
  obtain ⟨hdoes, hengine, hservices⟩ := hc.handles hready hold rfl hhandle
    (some ((Outcome.success reference).message k)) rfl
  refine ⟨hdoes, ?_, ?_, ?_, hservices⟩ <;> rw [hengine]
  · exact (Engine.cases_leave _ _ _ _).trans rfl
  · exact (Engine.registry_leave _ _ _ _).trans rfl
  · exact (Engine.offers_leave _ _ _ _).trans rfl

/-- The turn of a message that is bookkeeping: it moves the case of its key by one stage at most. -/
theorem Calm.keepsBooks (hlight : m.isLight)
    (hold : h.engine.tasks.get? t = some (.arriving m)) :
    let h' := ({ h with ready := rest } : Host σ).runTask t
    Does h h' (some (.task t)) (some t) [] [] (fun _ => []) ∧
      (h'.engine.store.cases = h.engine.store.cases ∨ ∃ c c',
        h.engine.store.get? m.key = some c ∧ c.Nudged c' ∧
        h'.engine.store.cases = h.engine.store.cases.insert m.key c') ∧
      h'.engine.registry = h.engine.registry ∧ h'.engine.offers = h.engine.offers ∧
      h'.services = h.services := by
  intro h'
  let e₁ := h.engine.queueUp t (.handle m)
  have hlock : m.needsLock := by
    revert hlight
    unfold Message.isLight Message.needsLock
    split <;> simp_all
  obtain ⟨store, hhandle, hcases⟩ := Engine.handle_of_isLight (e := e₁) hlight
  obtain ⟨hdoes, hengine, hservices⟩ := hc.handles hready hold hlock hhandle none rfl
  refine ⟨hdoes, ?_, ?_, ?_, hservices⟩ <;> rw [hengine]
  · rw [show (_ : Engine).store.cases = _ from Engine.cases_leave _ _ _ _]
    exact hcases
  · exact (Engine.registry_leave _ _ _ _).trans rfl
  · exact (Engine.offers_leave _ _ _ _).trans rfl

/-- The turn of a task that brings an outcome to the board. -/
theorem Calm.outcome {key : CorrelationKey} {o : Outcome}
    (hold : h.engine.tasks.get? t = some (.arriving (o.message key))) :
    let h' := ({ h with ready := rest } : Host σ).runTask t
    Does h h' (some (.task t)) (some t) [] [] (fun k => if key = k then [o] else []) ∧
      Keeps h h' := by
  let ended := ({ h with ready := rest } : Host σ).apply fun e => e.run t
  have hengine : ended.engine = { h.engine.run t with history := [] } :=
    engine_apply_of_blank (h := { h with ready := rest }) hc.blank _
  have hhandles := hc.undisturbed.handles_outcome hold
  have hhears := hears_apply (h := { h with ready := rest }) (f := fun e => e.run t) hc.blank
    hhandles.now fun ev _ => minor_of_ticker hc.ticker ev
  have hdoes : Does h ended (some (.task t)) (some t) [] []
      fun k => if key = k then [o] else [] := by
    refine ⟨?_, by rw [hengine], rest, _, hready, hhears,
      hc.undisturbed.tells_outcome hc.blank hold⟩
    rw [hengine]
    exact hhandles.blank
  have hturn : ({ h with ready := rest } : Host σ).runTask t = ended := by
    rw [runTask_of_calm hc, answerCalls_of_gone hdoes.gone, renewTimer_of_gone hdoes.gone]
  rw [hturn]
  have hrun := Engine.run_of_outcome hold
  refine ⟨hdoes, ?_, ?_, ?_, services_apply _ _⟩ <;>
  · rw [hengine, hrun]
    simp

/-- The turn of a task that is gone. -/
theorem Calm.absent (hgone : h.engine.tasks.get? t = none) :
    let h' := ({ h with ready := rest } : Host σ).runTask t
    Does h h' (some (.task t)) none [] [] (fun _ => []) ∧ Keeps h h' := by
  have hsame : ({ h.engine with history := [] } : Engine) = h.engine := by rw [← hc.blank]
  have happly : (({ h with ready := rest } : Host σ).apply fun e => e.run t) =
      { h with ready := rest } := by
    simp only [apply, hsame, Engine.run_of_gone hgone, hc.blank]
    rfl
  have hturn : ({ h with ready := rest } : Host σ).runTask t = { h with ready := rest } := by
    have hstays : (answerCalls callsPerTask t { h with ready := rest }).renewTimer t =
        { h with ready := rest } := by
      generalize hpopped : ({ h with ready := rest } : Host σ) = popped
      have hgone : popped.engine.tasks.get? t = none := by rw [← hpopped]; exact hgone
      rw [answerCalls_of_gone hgone, renewTimer_of_gone hgone]
    rw [runTask_of_calm hc, happly, hstays]
  rw [hturn]
  exact ⟨.refl hc.undisturbed hc.blank hready, rfl, rfl, rfl, rfl⟩

end

end Host

end Rendezvous
