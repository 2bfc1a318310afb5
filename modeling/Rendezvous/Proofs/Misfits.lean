import Rendezvous.Proofs.Independence

/-!
# Messages that do not fit

A handler looks first whether its message fits the case of the key, and drops it if not.
`Message.fits` says in one table which messages fit which case.  The state need not be one that a
schedule leads to: nothing below assumes that a case has a record, that an index names a case, or
that the queues hold the tasks that wait in them.

* `Engine.Discarded`: a handler has ended without an error and nothing else has happened;
* `handle_of_misfit`, `begin_of_misfit`: a message that does not fit is dropped;
* `affects_handle`, `affects_begin`: one that fits changes its case or does something that the
  history tells;
* `misfits_are_discarded`: a message is discarded exactly if it does not fit.
-/

namespace Rendezvous

/-- Whether a message fits a key whose case is `case?`.  A data reference may overtake the start of
its transfer, and a confirmation the acceptance of its negotiation.  Dead letters fit always. -/
def Message.fits (m : Message) (case? : Option Case) : Bool :=
  match m.channel, m.payload with
  | .initial, .request .. => case?.isNone
  | .contractNegotiation, .negotiationAccepted n =>
      case?.any fun c => c.stage = .started && c.concerns n
  | .contractNegotiation, .negotiationFailed n _ =>
      case?.any fun c => !c.stage.isTerminal && c.concerns n
  | .contractConfirmation, .contractConfirmed n _ =>
      case?.any fun c => (c.stage = .started || c.stage = .negotiating) && c.concerns n
  | .dataReference, .transferStarted => case?.any fun c => c.stage = .confirmed
  | .dataReference, .dataReference _ =>
      case?.any fun c => c.stage = .confirmed || c.stage = .transferring
  | .dataReference, .transferFailed _ => case?.any fun c => !c.stage.isTerminal
  | .result, .completed _ | .dlq, _ => true
  | _, _ => false

/-- Whether an event is more than the end of a handler and a lock handed on. -/
def Event.isEffect : Event → Bool
  | .finished .. | .granted _ => false
  | _ => true

namespace Engine

variable {catalog : Catalog} {a : Answers} {e e' e₁ : Engine} {m : Message} {t : TaskId}

/-- The message that task `t` handles by its next stride: it owns the lock, or needs none. -/
def handledBy? (e : Engine) (t : TaskId) : Option Message :=
  match e.tasks.get? t with
  | some (.arriving m) => if m.needsLock then none else some m
  | some (.locking (.handle m)) => if m.needsLock && e.owns t m.key then some m else none
  | _ => none

/-- From `e` to `e'` the handler `t` of `m` has ended without an error and has given the lock back,
if it had one, to whoever is next.  Nothing else has happened. -/
structure Discarded (e : Engine) (t : TaskId) (m : Message) (e' : Engine) : Prop where
  now : e'.now = e.now
  destination : e'.destination = e.destination
  parkedTtl : e'.parkedTtl = e.parkedTtl
  caseTtl : e'.store.ttl = e.store.ttl
  cases : e'.store.cases = e.store.cases
  registry : e'.registry = e.registry
  board : e'.board = e.board
  offers : e'.offers = e.offers
  bus : e'.bus = e.bus
  tasks : ∀ t', e'.tasks.get? t' = if t' = t then none else e.tasks.get? t'
  nextTask : e'.nextTask = e.nextTask
  queue : ∀ k, e'.store.locks.queue k =
    if k = m.key ∧ m.needsLock then (e.store.locks.queue k).tail else e.store.locks.queue k
  history : e'.history = .finished t .handled ::
    ((if m.needsLock then e'.store.locks.owner? m.key else none).toList.map .granted ++ e.history)

/-! ## What does not fit -/

theorem isTerminal_of_live? {s : CaseStore} {k : CorrelationKey} {c : Case}
    (h : s.live? k = some c) : c.stage.isTerminal = false := by
  simpa using (Option.filter_eq_some_iff.mp h).2

/-- The critical section of a message that does not fit is left as it was entered. -/
theorem handle_of_misfit (hmisfit : m.fits (e.store.get? m.key) = false) :
    e.handle m = (e, .done) := by
  unfold handle
  split
  case h_1 asset provider hchannel hpayload =>
      cases hcase : e.store.get? m.key with
      | none => simp [Message.fits, hchannel, hpayload, hcase] at hmisfit
      | some c => simp [onRequest, hcase]
  case h_2 n hchannel hpayload =>
      cases hlive : e.store.live? m.key with
      | none => simp [onAccepted, hlive]
      | some c =>
          have hguard : (c.stage = .started && c.concerns n) = false := by
            simpa [Message.fits, hchannel, hpayload, get?_of_live? hlive] using hmisfit
          simp [onAccepted, hlive, hguard]
  case h_3 n reason hchannel hpayload =>
      cases hlive : e.store.live? m.key with
      | none => simp [onNegotiationFailed, hlive]
      | some c =>
          have hguard : c.concerns n = false := by
            simpa [Message.fits, hchannel, hpayload, get?_of_live? hlive, isTerminal_of_live? hlive]
              using hmisfit
          simp [onNegotiationFailed, hlive, hguard]
  case h_4 n contract hchannel hpayload =>
      cases hlive : e.store.live? m.key with
      | none => simp [onConfirmed, hlive]
      | some c =>
          have hguard :
              ((c.stage = .started || c.stage = .negotiating) && c.concerns n) = false := by
            simpa [Message.fits, hchannel, hpayload, get?_of_live? hlive] using hmisfit
          simp [onConfirmed, hlive, hguard]
  case h_5 hchannel hpayload =>
      cases hlive : e.store.live? m.key with
      | none => simp [onTransferStarted, hlive]
      | some c =>
          have hguard : c.stage ≠ .confirmed := by
            simpa [Message.fits, hchannel, hpayload, get?_of_live? hlive] using hmisfit
          simp [onTransferStarted, hlive, hguard]
  case h_6 reference hchannel hpayload =>
      cases hlive : e.store.live? m.key with
      | none => simp [onDataReference, hlive]
      | some c =>
          have hguard : (c.stage = .confirmed || c.stage = .transferring) = false := by
            simpa [Message.fits, hchannel, hpayload, get?_of_live? hlive] using hmisfit
          simp [onDataReference, hlive, hguard]
  case h_7 reason hchannel hpayload =>
      cases hlive : e.store.live? m.key with
      | none => simp [onTransferFailed, hlive]
      | some c =>
          simp [Message.fits, hchannel, hpayload, get?_of_live? hlive,
            isTerminal_of_live? hlive] at hmisfit
  case h_8 hchannel hpayload => simp [Message.fits, hchannel] at hmisfit
  case h_9 => rfl

/-- A message that needs no lock and does not fit ends its task. -/
theorem begin_of_misfit (hmisfit : m.fits (e.store.get? m.key) = false) (t : TaskId) :
    e.begin t m = e.finish t .handled := by
  unfold begin
  split
  · rename_i hchannel hpayload
    simp [Message.fits, hchannel, hpayload] at hmisfit
  · rename_i hchannel hpayload
    simp [Message.fits, hchannel, hpayload] at hmisfit
  · rename_i hchannel _
    simp [Message.fits, hchannel] at hmisfit
  · rfl

theorem act_of_handledBy? (h : e.handledBy? t = some m) :
    (m.needsLock = false ∧ e.act (.stride t) = e.begin t m) ∨
      (m.needsLock = true ∧ e.store.locks.owner? m.key = some t ∧
        e.act (.stride t) = (e.handle m).1.leave t m (e.handle m).2) := by
  unfold handledBy? at h
  split at h
  · rename_i m' hold
    split at h
    · cases h
    · cases h
      rename_i hlock
      exact .inl ⟨by simpa using hlock, by simp [act, stride, hold, hlock]⟩
  · rename_i m' hold
    split at h
    · cases h
      rename_i hready
      obtain ⟨hlock, ho⟩ := Bool.and_eq_true_iff.mp hready
      exact .inr ⟨hlock, by simpa [owns] using ho,
        by simp [act, stride, hold, Section.key, ho, enter]⟩
    · cases h
  · cases h

theorem discarded_finish (e : Engine) (t : TaskId) (hlock : m.needsLock = false) :
    e.Discarded t m (e.finish t .handled) := by
  constructor <;> simp [hlock, eq_comm]

theorem discarded_leave (ho : e.store.locks.owner? m.key = some t) (hlock : m.needsLock) :
    e.Discarded t m (e.leave t m .done) := by
  have hqueue : (e.store.locks.queue m.key).erase t = (e.store.locks.queue m.key).tail := by
    obtain ⟨rest, hrest⟩ := List.head?_eq_some_iff.mp ho
    simp [hrest]
  rw [leave_done]
  constructor <;> simp [hlock, eq_comm, KeyLocks.heir?, ho, KeyLocks.queue_leave]
  intro k
  split
  · rename_i hk
    rw [hk, hqueue]
  · rfl

/-! ## What fits -/

theorem advance_ne {c : Case} {stage : Stage} (hstage : c.stage ≠ stage) : c.advance stage ≠ c :=
  fun h => hstage (congrArg Case.stage h).symm

/-- How many events there were that are more than the end of a handler and a lock handed on. -/
def effects (e : Engine) : Nat := e.history.countP Event.isEffect

@[simp] theorem effects_note (e : Engine) (ev : Event) :
    (e.note ev).effects = e.effects + if ev.isEffect then 1 else 0 := by
  simp [effects, List.countP_cons]

@[simp] theorem effects_finish (e : Engine) (t : TaskId) (f : Finish) :
    (e.finish t f).effects = e.effects := by
  simp [effects, Event.isEffect]

@[simp] theorem effects_leaveLock (e : Engine) (t : TaskId) (k : CorrelationKey) :
    (e.leaveLock t k).effects = e.effects := by
  simp [effects, List.countP_map, Event.isEffect]

theorem effects_record (e : Engine) (k : CorrelationKey) (o : Outcome) :
    e.effects < (e.record k o).effects := by
  have hrecorded : (Event.recorded k o).isEffect := rfl
  simp only [effects, record_frame, List.countP_append, List.countP_cons, hrecorded, if_true]
  omega

theorem effects_publish (e : Engine) (m : Message) : e.effects ≤ (e.publish m).effects := by
  by_cases hopen : e.bus.isOpen <;> simp [publish, hopen, effects, List.countP_cons]

/-- A handler that ends with an error tells so. -/
theorem effects_finishHandler_of_error (e : Engine) (t : TaskId) (m : Message)
    (error : EngineError) : e.effects < (e.finishHandler t m (some error)).effects := by
  have hnoted : e.effects < (e.note (.faulted m error)).effects := by simp [Event.isEffect]
  cases hfault : Bus.faultOf m error with
  | none => simpa [finishHandler, hfault] using hnoted
  | some dead =>
      simpa [finishHandler, hfault] using Nat.lt_of_lt_of_le hnoted (effects_publish _ dead)

theorem Discarded.effects (h : e.Discarded t m e') : e'.effects = e.effects := by
  simp [Engine.effects, h.history, List.countP_append, List.countP_map, Event.isEffect]

/-- From `e` to `e'` the case of `k` has changed, or the history tells of something more than the
end of a handler. -/
def Affects (e : Engine) (k : CorrelationKey) (e' : Engine) : Prop :=
  e'.store.get? k ≠ e.store.get? k ∨ e.effects < e'.effects

theorem Discarded.not_affects (h : e.Discarded t m e') (k : CorrelationKey) :
    ¬ e.Affects k e' := by
  rintro (hcase | hmore)
  · exact hcase (congrArg (Assoc.get? · k) h.cases)
  · exact Nat.lt_irrefl _ (h.effects ▸ hmore)

/-- A handler that calls a service has an effect. -/
theorem affects_call (hmore : e.effects ≤ e₁.effects) (t : TaskId) (m : Message)
    (k : CorrelationKey) (task : Task) {call : Call} (hcall : task.call? = some call) :
    e.Affects k (e₁.leave t m (.call task)) := by
  have hset : (e₁.setTask t task).effects = e₁.effects := rfl
  rw [leave_call _ t m hcall]
  refine .inr ?_
  simp only [effects_note, hset]
  exact Nat.lt_succ_of_le hmore

/-- A handler that changes the case of its key has an effect, however it leaves. -/
theorem affects_case {r : Engine × Exit} (hchanged : r.1.store.get? m.key ≠ e.store.get? m.key)
    (t : TaskId) : e.Affects m.key (r.1.leave t m r.2) :=
  .inl (by rwa [get?_leave])

section

variable {c : Case} {n : NegotiationId}

theorem affects_onRequest (hvacant : e.store.get? m.key = none) (asset : AssetId)
    (provider : String) (t : TaskId) :
    e.Affects m.key
      ((e.onRequest m asset provider).1.leave t m (e.onRequest m asset provider).2) := by
  have hmore : e.effects ≤ (e.note (.accepted m.key)).effects := by simp
  simp only [onRequest, hvacant]
  cases (e.offers.get e.now (provider, asset)).1 with
  | none => exact affects_call hmore t m _ (.resolving m asset provider) rfl
  | some offer => exact affects_call hmore t m _ (.negotiating m asset provider offer) rfl

theorem affects_onAccepted (hcase : e.store.get? m.key = some c) (hstage : c.stage = .started)
    (hconcerns : c.concerns n) (t : TaskId) :
    e.Affects m.key ((e.onAccepted m n).1.leave t m (e.onAccepted m n).2) := by
  have hlive := CaseStore.live?_eq_some _ _ hcase (by rw [hstage]; rfl)
  have hmoved : c.advance .negotiating ≠ c := advance_ne (by rw [hstage]; decide)
  refine affects_case ?_ t
  simp [onAccepted, hlive, hstage, hconcerns, hcase, hmoved]

theorem affects_fail (hcase : e.store.get? m.key = some c) (reason : FailureReason) (t : TaskId) :
    e.Affects m.key ((e.fail m.key reason).1.leave t m (e.fail m.key reason).2) :=
  affects_case (by simp [fail, hcase]) t

theorem affects_onConfirmed (hcase : e.store.get? m.key = some c)
    (hstage : c.stage = .started ∨ c.stage = .negotiating) (hconcerns : c.concerns n)
    (contract : ContractId) (t : TaskId) :
    e.Affects m.key ((e.onConfirmed m n contract).1.leave t m (e.onConfirmed m n contract).2) := by
  have hlive := CaseStore.live?_eq_some _ _ hcase (by rcases hstage with h | h <;> rw [h] <;> rfl)
  cases hrecord : e.registry.records.get? m.key with
  | none =>
      -- the case has lost its record, which no schedule leads to; the handler says so
      have hhandle : e.onConfirmed m n contract = (e, .fault (.pendingNotFound m.key)) := by
        simp [onConfirmed, hlive, hstage, hconcerns, Registry.take, hrecord]
      rw [hhandle]
      refine .inr ?_
      rw [leave, ← effects_leaveLock e t m.key]
      exact effects_finishHandler_of_error ..
  | some record =>
      have hguard : ((c.stage = .started || c.stage = .negotiating) && c.concerns n) = true := by
        simpa [hconcerns] using hstage
      simp only [onConfirmed, hlive, hguard, if_true, Registry.take, hrecord]
      exact affects_call (Nat.le_refl _) t m _ (.transferring m c _) rfl

theorem affects_onTransferStarted (hcase : e.store.get? m.key = some c)
    (hstage : c.stage = .confirmed) (t : TaskId) :
    e.Affects m.key ((e.onTransferStarted m).1.leave t m (e.onTransferStarted m).2) := by
  have hlive := CaseStore.live?_eq_some _ _ hcase (by rw [hstage]; rfl)
  have hmoved : c.advance .transferring ≠ c := advance_ne (by rw [hstage]; decide)
  refine affects_case ?_ t
  simp [onTransferStarted, hlive, hstage, hcase, hmoved]

theorem affects_onDataReference (hcase : e.store.get? m.key = some c)
    (hstage : c.stage = .confirmed ∨ c.stage = .transferring) (reference : DataReference)
    (t : TaskId) :
    e.Affects m.key
      ((e.onDataReference m reference).1.leave t m (e.onDataReference m reference).2) := by
  have hlive := CaseStore.live?_eq_some _ _ hcase (by rcases hstage with h | h <;> rw [h] <;> rfl)
  refine affects_case ?_ t
  simp [onDataReference, hlive, hstage, hcase]

theorem affects_onTransferFailed (hcase : e.store.get? m.key = some c)
    (hstage : c.stage.isTerminal = false) (reason : String) (t : TaskId) :
    e.Affects m.key
      ((e.onTransferFailed m reason).1.leave t m (e.onTransferFailed m reason).2) := by
  have hlive := CaseStore.live?_eq_some _ _ hcase hstage
  simp only [onTransferFailed, hlive]
  exact affects_fail hcase _ t

theorem affects_onNegotiationFailed (hcase : e.store.get? m.key = some c)
    (hstage : c.stage.isTerminal = false) (hconcerns : c.concerns n) (reason : String)
    (t : TaskId) :
    e.Affects m.key
      ((e.onNegotiationFailed m n reason).1.leave t m (e.onNegotiationFailed m n reason).2) := by
  have hlive := CaseStore.live?_eq_some _ _ hcase hstage
  simp only [onNegotiationFailed, hlive, hconcerns, if_true]
  exact affects_fail hcase _ t

theorem affects_onFault (m : Message) (text : String) (t : TaskId) :
    e.Affects m.key ((e.onFault m text).1.leave t m (e.onFault m text).2) := by
  refine .inr ?_
  have hsame : ((e.close m.key).leaveLock t m.key).effects = e.effects := effects_leaveLock ..
  simp only [onFault, leave, finishHandler, effects_finish]
  rw [← hsame]
  exact effects_record ..

end

/-- A message that fits has an effect under its lock. -/
theorem affects_handle (hfits : m.fits (e.store.get? m.key)) (hlock : m.needsLock) (t : TaskId) :
    e.Affects m.key ((e.handle m).1.leave t m (e.handle m).2) := by
  obtain ⟨key, channel, payload⟩ := m
  cases channel with
  | initial =>
      cases payload with
      | request asset provider => exact affects_onRequest (by simpa [Message.fits] using hfits) ..
      | _ => cases hlock
  | contractNegotiation =>
      cases payload with
      | negotiationAccepted n =>
          obtain ⟨c, hcase, hguard⟩ := (Option.any_eq_true _ _).mp hfits
          obtain ⟨hstage, hconcerns⟩ := Bool.and_eq_true_iff.mp hguard
          exact affects_onAccepted hcase (by simpa using hstage) hconcerns t
      | negotiationFailed n reason =>
          obtain ⟨c, hcase, hguard⟩ := (Option.any_eq_true _ _).mp hfits
          obtain ⟨hstage, hconcerns⟩ := Bool.and_eq_true_iff.mp hguard
          exact affects_onNegotiationFailed hcase (by simpa using hstage) hconcerns reason t
      | _ => cases hfits
  | contractConfirmation =>
      cases payload with
      | contractConfirmed n contract =>
          obtain ⟨c, hcase, hguard⟩ := (Option.any_eq_true _ _).mp hfits
          obtain ⟨hstage, hconcerns⟩ := Bool.and_eq_true_iff.mp hguard
          exact affects_onConfirmed hcase (by simpa using hstage) hconcerns contract t
      | _ => cases hfits
  | dataReference =>
      cases payload with
      | transferStarted =>
          obtain ⟨c, hcase, hstage⟩ := (Option.any_eq_true _ _).mp hfits
          exact affects_onTransferStarted hcase (by simpa using hstage) t
      | dataReference reference =>
          obtain ⟨c, hcase, hstage⟩ := (Option.any_eq_true _ _).mp hfits
          exact affects_onDataReference hcase (by simpa using hstage) reference t
      | transferFailed reason =>
          obtain ⟨c, hcase, hstage⟩ := (Option.any_eq_true _ _).mp hfits
          exact affects_onTransferFailed hcase (by simpa using hstage) reason t
      | _ => cases hfits
  | result => cases hlock
  | dlq =>
      cases payload with
      | fault text => exact affects_onFault _ text t
      | _ => cases hlock

/-- A message that needs no lock and fits is an outcome. -/
theorem affects_begin (hfits : m.fits (e.store.get? m.key)) (hlock : m.needsLock = false)
    (t : TaskId) : e.Affects m.key (e.begin t m) := by
  have hrecord : ∀ o, e.Affects m.key ((e.record m.key o).finish t .handled) := fun o =>
    .inr (by simpa using effects_record e m.key o)
  obtain ⟨key, channel, payload⟩ := m
  cases channel with
  | result =>
      cases payload with
      | completed reference => exact hrecord _
      | _ => cases hfits
  | dlq =>
      cases payload with
      | fault text => cases hlock
      | _ => exact hrecord _
  | initial =>
      cases payload with
      | request asset provider => cases hlock
      | _ => cases hfits
  | contractConfirmation =>
      cases payload with
      | contractConfirmed n contract => cases hlock
      | _ => cases hfits
  | contractNegotiation | dataReference => cases hlock

/-! ## The whole handling -/

/-- A message is discarded by its handler exactly if it does not fit. -/
theorem discarded_iff_misfit (h : e.handledBy? t = some m) :
    e.Discarded t m (e.act (.stride t)) ↔ m.fits (e.store.get? m.key) = false := by
  constructor
  · intro hdiscarded
    rw [← Bool.not_eq_true]
    intro hfits
    refine hdiscarded.not_affects m.key ?_
    rcases act_of_handledBy? h with ⟨hlock, hact⟩ | ⟨hlock, -, hact⟩
    · exact hact ▸ affects_begin hfits hlock t
    · exact hact ▸ affects_handle hfits hlock t
  · intro hmisfit
    rcases act_of_handledBy? h with ⟨hlock, hact⟩ | ⟨hlock, ho, hact⟩
    · rw [hact, begin_of_misfit hmisfit]
      exact discarded_finish e t hlock
    · rw [hact, handle_of_misfit hmisfit]
      exact discarded_leave ho hlock

/-- To ask for a free lock and to give it back leaves no trace in the queues. -/
theorem Discarded.of_receive (h : (e.receive m).Discarded e.nextTask m e')
    (hfree : e.store.locks.owner? m.key = none) (hlock : m.needsLock) :
    (e.spawn (.arriving m)).2.Discarded e.nextTask m e' := by
  have hempty := KeyLocks.queue_of_owner?_eq_none hfree
  refine { h with tasks := fun t' => ?_, queue := fun k => ?_ }
  · rw [h.tasks]
    by_cases ht : t' = e.nextTask <;> simp [receive, queueUp, ht, Ne.symm]
  · rw [h.queue, queue_receive]
    by_cases hk : k = m.key <;> simp [hk, hlock, hempty]

/-- A message that does not fit and whose lock is free is handled at once. -/
theorem discarded_serve (hfree : e.store.locks.owner? m.key = none)
    (hmisfit : m.fits (e.store.get? m.key) = false) (catalog : Catalog) (a : Answers) :
    (e.spawn (.arriving m)).2.Discarded e.nextTask m (e.serve catalog a m) := by
  cases hlock : m.needsLock with
  | false =>
      have hbegin := begin_of_misfit (e := (e.spawn (.arriving m)).2) hmisfit e.nextTask
      rw [serve_of_lockless hlock, hbegin]
      exact discarded_finish _ _ hlock
  | true =>
      have ho : (e.receive m).store.locks.owner? m.key = some e.nextTask := by
        simp [KeyLocks.owner?, queue_receive, KeyLocks.queue_of_owner?_eq_none hfree]
      have hdiscarded := discarded_leave ho hlock
      have hrun := run_of_free hlock hfree
      rw [handle_of_misfit (e := e.receive m) hmisfit] at hrun
      have hgone : ((e.receive m).leave e.nextTask m .done).tasks.get? e.nextTask = none := by
        rw [hdiscarded.tasks, if_pos rfl]
      rw [serve_eq, hrun, answerCall_of_gone hgone, answerCall_of_gone hgone]
      exact hdiscarded.of_receive hfree hlock

/-- Whatever the state, whether a schedule leads there or not: the handler of a message ends without
an error and without any effect, its lock given back, exactly if the message does not fit the case
of its key.  With nobody in its way a message that does not fit is handled at once, and the lock of
its key is free again. -/
theorem misfits_are_discarded (e : Engine) (m : Message) :
    (∀ t, e.handledBy? t = some m →
      (e.Discarded t m (e.act (.stride t)) ↔ m.fits (e.store.get? m.key) = false) ∧
      (m.fits (e.store.get? m.key) = false → m.needsLock → e.store.locks.queue m.key = [t] →
        (e.act (.stride t)).store.locks.owner? m.key = none)) ∧
    (m.fits (e.store.get? m.key) = false → e.store.locks.owner? m.key = none →
      ∀ catalog a, (e.spawn (.arriving m)).2.Discarded e.nextTask m (e.serve catalog a m) ∧
        (e.serve catalog a m).store.locks.owner? m.key = none) := by
  refine ⟨fun t h => ⟨discarded_iff_misfit h, fun hmisfit hlock hqueue => ?_⟩,
    fun hmisfit hfree catalog a => ?_⟩
  · have hdiscarded := (discarded_iff_misfit h).mpr hmisfit
    simp [KeyLocks.owner?, hdiscarded.queue, hlock, hqueue]
  · have hdiscarded := discarded_serve hfree hmisfit catalog a
    have hempty := KeyLocks.queue_of_owner?_eq_none hfree
    refine ⟨hdiscarded, ?_⟩
    simp [KeyLocks.owner?, hdiscarded.queue, hempty]

/-- A confirmation meets a case that has failed but is still stored, together with the record of the
very negotiation that is confirmed.  The record stays, whether the message waits for its lock first
or is handled at once. -/
theorem misfits_are_discarded_of_failed :
    let n : NegotiationId := ⟨"n"⟩
    let offer : ContractOffer := { id := "o", asset := ⟨"a"⟩, provider := "p" }
    let c : Case :=
      { key := ⟨"k"⟩, stage := .failed, data := { negotiation := some n }, createdAt := 0 }
    let m : Message :=
      { key := ⟨"k"⟩, channel := .contractConfirmation, payload := .contractConfirmed n ⟨"c"⟩ }
    let e₀ : Engine :=
      { ofSettings {} with
        store := (ofSettings {}).store.put ⟨"k"⟩ c
        registry := { records := .ofList [(⟨"k"⟩, { offer, negotiation := n })] } }
    let e := ((e₀.publish m).act .dispatch).act (.stride 0)
    let catalog : Catalog := fun _ => .ok offer
    let a : Answers := { negotiation := .ok n, transfer := .ok ⟨"t"⟩ }
    e.handledBy? 0 = some m ∧ m.fits (e.store.get? m.key) = false ∧
      e.Discarded 0 m (e.act (.stride 0)) ∧
      (e.act (.stride 0)).store.locks.owner? m.key = none ∧
      (e₀.spawn (.arriving m)).2.Discarded 0 m (e₀.serve catalog a m) := by
  intro n offer c m e₀ e catalog a
  have hhandled : e.handledBy? 0 = some m := by decide
  have hmisfit : m.fits (e.store.get? m.key) = false := by decide
  obtain ⟨hiff, hfree⟩ := (misfits_are_discarded e m).1 0 hhandled
  exact ⟨hhandled, hmisfit, hiff.mpr hmisfit, hfree hmisfit rfl (by decide),
    ((misfits_are_discarded e₀ m).2 (by decide) (by decide) catalog a).1⟩

end Engine

end Rendezvous
