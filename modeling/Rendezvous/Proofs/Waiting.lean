import Rendezvous.Proofs.DeadLetters

/-!
# Who waits for whom

Tasks wait for the locks of keys, and a task that owns a lock may be waiting for a service.  It
never waits for another lock: whoever is waited for can go on without anybody else, and gives its
lock back.  This holds whatever the cases and records are, so also for handlers that go wrong.

* `Engine.Holds`, `Engine.WaitsFor`: who has a lock and who stands behind;
* `Step.requeues`: an action changes the queue of one lock at most, and only its own task joins or
  leaves;
* `keeps_or_passes`: a holder keeps its lock, or passes it to the next in the queue at the end of a
  handler or between two keys of a sweep;
* `over_of_holds`: a holder is done with its section as soon as the services have answered;
* `holder_waits_for_nobody`: hence nobody can be stuck behind a lock.
-/

namespace Rendezvous

/-- Whether a task is amid a handler, a sweep or a hold from outside: it has begun and not ended. -/
def Task.isUnderway : Task → Bool
  | .arriving _ | .sweeping | .seeking _ | .awaiting .. => false
  | .walking _ | .locking _ | .claiming _ | .resolving .. | .negotiating .. | .transferring ..
  | .holding _ => true

theorem Task.key?_of_not_isUnderway {task : Task} (h : task.isUnderway = false) :
    task.key? = none := by
  cases task <;> simp_all [Task.isUnderway, Task.key?]

namespace KeyLocks

variable {κ : Type} [DecidableEq κ] {l : KeyLocks κ} {k : κ} {t : TaskId}

/-- When the owner leaves, the others move up. -/
theorem queue_leave_of_owner? (h : l.owner? k = some t) :
    (l.leave k t).queue k = (l.queue k).tail := by
  rw [queue_leave, if_pos rfl]
  cases hq : l.queue k with
  | nil => simp [owner?, hq] at h
  | cons head rest =>
      obtain rfl : head = t := by simpa [owner?, hq] using h
      simp

/-- Locks whose queues are empty are not in use. -/
theorem isEmpty_of_queue (h : ∀ k, l.queue k = []) : l.isEmpty := by
  refine List.isEmpty_iff.mpr (List.eq_nil_iff_forall_not_mem.mpr fun ⟨k, q⟩ hmem => ?_)
  have hget := (Assoc.mem_entries _ _ _).mp hmem
  have hqueue : l.queue k = q := by simp [queue, hget]
  exact l.owned _ hmem (hqueue.symm.trans (h k))

end KeyLocks

namespace Engine

/-- Task `t` has the lock of `k`. -/
def Holds (e : Engine) (t : TaskId) (k : CorrelationKey) : Prop :=
  e.store.locks.owner? k = some t

/-- Task `t` stands in the queue of `k` behind the holder. -/
def WaitsFor (e : Engine) (t : TaskId) (k : CorrelationKey) : Prop :=
  t ∈ e.store.locks.queue k ∧ ¬ e.Holds t k

instance (e : Engine) (t : TaskId) (k : CorrelationKey) : Decidable (e.Holds t k) :=
  inferInstanceAs (Decidable (_ = _))

instance (e : Engine) (t : TaskId) (k : CorrelationKey) : Decidable (e.WaitsFor t k) :=
  inferInstanceAs (Decidable (_ ∧ _))

/-- Task `t` has ended, or is a sweep between two of its keys. -/
def Over (e : Engine) (t : TaskId) : Prop :=
  e.tasks.get? t = none ∨ ∃ sweep, e.tasks.get? t = some (.walking sweep)

variable {e e' : Engine} {a : Action} {t : TaskId} {k : CorrelationKey} {s : Settings}

/-! ## Queues -/

theorem Orderly.mem_queue (h : e.Orderly) (hmem : t ∈ e.store.locks.queue k) {k' : CorrelationKey}
    (hmem' : t ∈ e.store.locks.queue k') : k = k' := by
  rw [h.queued] at hmem hmem'
  exact Option.some.inj (hmem.symm.trans hmem')

/-- Who is not amid anything stands in no queue. -/
theorem Orderly.not_mem_queue (h : e.Orderly) (hout : (e.tasks.get? t).bind Task.key? = none)
    (k : CorrelationKey) : t ∉ e.store.locks.queue k := by
  rw [h.queued, hout]
  exact Option.some_ne_none k |>.symm

theorem Over.not_mem_queue (ho : e.Over t) (h : e.Orderly) (k : CorrelationKey) :
    t ∉ e.store.locks.queue k := by
  refine h.not_mem_queue ?_ k
  rcases ho with hgone | ⟨sweep, hold⟩
  · rw [hgone]
    rfl
  · rw [hold]
    rfl

/-- Leaving a section gives the lock back, unless a service is asked. -/
theorem locks_leave (e : Engine) (t : TaskId) (m : Message) (exit : Exit) :
    (e.leave t m exit).store.locks = e.store.locks ∨
      (e.leave t m exit).store.locks = e.store.locks.leave m.key t ∧
        (e.leave t m exit).tasks.get? t = none := by
  cases exit with
  | done | publish next | record o | fault error =>
      exact .inr ⟨by simp [leave], by simp [leave]⟩
  | call task => exact .inl (by cases hcall : task.call? <;> simp [leave, hcall])

/-- From `e` to `e'` the locks stay as they are, or the task of the action joins a queue or leaves
one.  A task that leaves has ended, or is between two keys. -/
inductive Requeues (e : Engine) (task? : Option TaskId) (e' : Engine) : Prop
  | same (hlocks : e'.store.locks = e.store.locks)
  | join (t : TaskId) (k : CorrelationKey) (htask : task? = some t)
      (hlocks : e'.store.locks = e.store.locks.ask k t)
  | leave (t : TaskId) (k : CorrelationKey) (htask : task? = some t)
      (hlocks : e'.store.locks = e.store.locks.leave k t) (hover : e'.Over t)

theorem Contained.requeues {m : Message} {r : Engine × Exit} (h : Contained e m.key r)
    (t : TaskId) : Requeues e (some t) (r.1.leave t m r.2) := by
  rcases locks_leave r.1 t m r.2 with hsame | ⟨hleft, hgone⟩
  · exact .same (hsame.trans h.locks)
  · exact .leave t m.key rfl (by rw [hleft, h.locks]) (.inl hgone)

theorem tasks_visit (e : Engine) (t : TaskId) (sweep : Sweep) (key : CorrelationKey)
    (seen : Stage) :
    ∃ sweep', (e.visit t sweep key seen).tasks = e.tasks.insert t (.walking sweep') := by
  by_cases hdue : e.Due sweep.startedAt key seen
  · exact ⟨{ sweep with evicted := sweep.evicted + 1 }, by simp [visit_of_due hdue]⟩
  · exact ⟨sweep, by simp [visit_of_not_due hdue]⟩

theorem requeues_visit (e : Engine) (t : TaskId) (sweep : Sweep) (key : CorrelationKey)
    (seen : Stage) : Requeues e (some t) (e.visit t sweep key seen) := by
  obtain ⟨next, htasks⟩ := tasks_visit e t sweep key seen
  exact .leave t key rfl (by simp) (.inr ⟨next, by simp [htasks]⟩)

/-- An action requeues its own task at most. -/
theorem Step.requeues (hs : e.Step a e') : Requeues e a.task? e' := by
  cases hs with
  | idle | park | dispatch | begin | look | keep | finishSweep | take | pass | neverMind =>
      exact .same rfl
  | submit | forward => exact .same (by simp)
  | outcome t m => exact .same (by simp)
  | listen t key deadline =>
      refine .same ?_
      unfold lookForOutcome
      dsimp only
      split <;> rfl
  | queueUp t old s => exact .join t s.key rfl rfl
  | handle t m => exact (handle_contained e m).requeues t
  | offer t m => exact (onOffer_contained e m _ _ _).requeues t
  | negotiation t m => exact (onNegotiation_contained e m _ _ _ _).requeues t
  | transfer t m => exact (onTransfer_contained e m _ _ _).requeues t
  | visit t sweep key seen => exact requeues_visit e t sweep key seen
  | letGo t key | leaveQueue t key => exact .leave t key rfl (by simp) (.inl (by simp))

/-- A holder keeps its lock whatever others do, and until it is done with its section.  Then the
lock goes to the next in the queue. -/
theorem keeps_or_passes (ho : e.Holds t k) (a : Action) :
    (e.act a).Holds t k ∨
      a.task? = some t ∧ (e.act a).Over t ∧
        (e.act a).store.locks.queue k = (e.store.locks.queue k).tail := by
  unfold Holds at ho ⊢
  rcases (e.act_step a).requeues with hlocks | ⟨t', k', -, hlocks⟩ | ⟨t', k', htask, hlocks, hover⟩
  · exact .inl (hlocks ▸ ho)
  · left
    rw [hlocks, KeyLocks.owner?_ask]
    by_cases hk : k = k'
    · simp [← hk, ho]
    · simpa [hk] using ho
  · rw [hlocks]
    by_cases hk : k = k'
    · subst hk
      by_cases ht : t' = t
      · subst ht
        exact .inr ⟨htask, hover, KeyLocks.queue_leave_of_owner? ho⟩
      · left
        rw [KeyLocks.owner?_leave_of_not_owner _ _ _ (by simpa [ho] using Ne.symm ht)]
        exact ho
    · left
      rw [KeyLocks.owner?_leave_of_ne _ _ _ _ hk]
      exact ho

/-! ## Holders go on by themselves -/

/-- What takes the task `t` through the rest of its section, if the services answer so.  A step that
does not fit the position of the task does nothing. -/
def through (t : TaskId) (offer : Except EngineError ContractOffer)
    (negotiation : Except EngineError NegotiationId)
    (transfer : Except EngineError TransferProcessId) : List Action :=
  [.stride t, .reply t (.offer offer), .reply t (.negotiation negotiation),
    .reply t (.transfer transfer), .letGo t]

variable {m : Message} {asset : AssetId} {provider : String} {offer : ContractOffer}

/-- Who is done with its section waits for no answer and has nothing to give back. -/
theorem Over.act_reply (ho : e.Over t) (r : Reply) : e.act (.reply t r) = e := by
  rcases ho with hgone | ⟨sweep, hold⟩
  · simp [act, reply, hgone]
  · simp [act, reply, hold]

theorem Over.act_letGo (ho : e.Over t) : e.act (.letGo t) = e := by
  rcases ho with hgone | ⟨sweep, hold⟩
  · simp [act, letGo, hgone]
  · simp [act, letGo, hold]

theorem over_of_holding {key : CorrelationKey} (hold : e.tasks.get? t = some (.holding key)) :
    (e.act (.letGo t)).Over t := by
  left
  simp [act, letGo, hold]

/-- A handler that leaves its section is done with it, or waits for the answer to its call. -/
theorem over_leave (e : Engine) (t : TaskId) (m : Message) (exit : Exit) :
    (e.leave t m exit).Over t ∨
      ∃ task, exit = .call task ∧ (e.leave t m exit).tasks.get? t = some task := by
  cases hold : (e.leave t m exit).tasks.get? t with
  | none => exact .inl (.inl hold)
  | some task =>
      rcases calls_of_leave e t m exit hold with ⟨-, hexit⟩ | ⟨hne, -⟩
      · exact .inr ⟨task, hexit, rfl⟩
      · exact absurd rfl hne

theorem over_of_transferring {c : Case} {request : TransferRequest}
    (hold : e.tasks.get? t = some (.transferring m c request))
    (transfer : Except EngineError TransferProcessId) :
    ((e.act (.reply t (.transfer transfer))).act (.letGo t)).Over t := by
  have hact : e.act (.reply t (.transfer transfer)) =
      (e.onTransfer m c request.contract transfer).1.leave t m
        (e.onTransfer m c request.contract transfer).2 := by
    simp [act, reply, hold]
  have hover : (e.act (.reply t (.transfer transfer))).Over t := by
    rw [hact]
    refine (over_leave _ t m _).resolve_right ?_
    rintro ⟨task, hexit, -⟩
    cases transfer <;> cases hexit
  rwa [hover.act_letGo]

theorem over_of_negotiating (hold : e.tasks.get? t = some (.negotiating m asset provider offer))
    (negotiation : Except EngineError NegotiationId)
    (transfer : Except EngineError TransferProcessId) :
    (e.after [.reply t (.negotiation negotiation), .reply t (.transfer transfer),
      .letGo t]).Over t := by
  have hact : e.act (.reply t (.negotiation negotiation)) =
      (e.onNegotiation m asset provider offer negotiation).1.leave t m
        (e.onNegotiation m asset provider offer negotiation).2 := by
    simp [act, reply, hold]
  have hover : (e.act (.reply t (.negotiation negotiation))).Over t := by
    rw [hact]
    refine (over_leave _ t m _).resolve_right ?_
    rintro ⟨task, hexit, -⟩
    cases negotiation with
    | error error => cases hexit
    | ok n =>
        unfold onNegotiation at hexit
        dsimp only at hexit
        repeat' split at hexit
        all_goals cases hexit
  rw [after_cons, after_cons, after_cons, after_nil, hover.act_reply, hover.act_letGo]
  exact hover

theorem over_of_resolving (hold : e.tasks.get? t = some (.resolving m asset provider))
    (answer : Except EngineError ContractOffer) (negotiation : Except EngineError NegotiationId)
    (transfer : Except EngineError TransferProcessId) :
    (e.after [.reply t (.offer answer), .reply t (.negotiation negotiation),
      .reply t (.transfer transfer), .letGo t]).Over t := by
  have hact : e.act (.reply t (.offer answer)) =
      (e.onOffer m asset provider answer).1.leave t m (e.onOffer m asset provider answer).2 := by
    simp [act, reply, hold]
  rw [after_cons, hact]
  rcases over_leave (e.onOffer m asset provider answer).1 t m
    (e.onOffer m asset provider answer).2 with hover | ⟨task, hexit, hnext⟩
  · rw [after_cons, after_cons, after_cons, after_nil, hover.act_reply, hover.act_reply,
      hover.act_letGo]
    exact hover
  · cases answer with
    | error error => cases hexit
    | ok offer =>
        cases hexit
        exact over_of_negotiating hnext negotiation transfer

/-! ## Nobody claims a lock for itself -/

theorem claiming_insert {t' : TaskId} {task : Task} (hold : e'.tasks.get? t = some (.claiming k))
    (htasks : e'.tasks = e.tasks.insert t' task) (hother : task ≠ .claiming k) :
    e.tasks.get? t = some (.claiming k) := by
  rw [htasks, Assoc.get?_insert] at hold
  split at hold
  · exact absurd (Option.some.inj hold) hother
  · exact hold

theorem claiming_erase {t' : TaskId} (hold : e'.tasks.get? t = some (.claiming k))
    (htasks : e'.tasks = e.tasks.erase t') : e.tasks.get? t = some (.claiming k) := by
  rw [htasks, Assoc.get?_erase] at hold
  split at hold
  · cases hold
  · exact hold

theorem claiming_leave {m : Message} {r : Engine × Exit} (hc : Contained e m.key r)
    (hfair : r.2.Fair m) {t' : TaskId}
    (hold : (r.1.leave t' m r.2).tasks.get? t = some (.claiming k)) :
    e.tasks.get? t = some (.claiming k) := by
  rcases calls_of_leave _ _ _ _ hold with ⟨-, hexit⟩ | ⟨-, hbefore⟩
  · rw [hexit] at hfair
    cases hfair.2.1
  · rwa [hc.tasks] at hbefore

/-- No action begins a claim. -/
theorem Step.claiming (h : e.Wired) (hs : e.Step a e')
    (hold : e'.tasks.get? t = some (.claiming k)) : e.tasks.get? t = some (.claiming k) := by
  cases hs with
  | idle | take | pass | park => exact hold
  | submit | forward => simpa using hold
  | dispatch | look | queueUp | keep => exact claiming_insert hold rfl (by simp)
  | begin a task hbegins =>
      refine claiming_insert hold rfl ?_
      rintro rfl
      cases (Action.idle_of_begins? hbegins).1
  | outcome t' m =>
      have htasks : (e.begin t' m).tasks = e.tasks.erase t' := by simp
      exact claiming_erase hold htasks
  | handle t' m => exact claiming_leave (handle_contained e m) (handle_fair e m) hold
  | visit t' sweep key seen =>
      obtain ⟨sweep', htasks⟩ := tasks_visit e t' sweep key seen
      exact claiming_insert hold htasks (by simp)
  | finishSweep | neverMind => exact claiming_erase hold rfl
  | listen t' key deadline =>
      unfold lookForOutcome at hold
      dsimp only at hold
      split at hold
      · exact claiming_erase hold rfl
      · exact hold
  | offer t' m asset provider answer hpos =>
      exact claiming_leave (onOffer_contained ..) (onOffer_fair e (h.placed t' _ hpos) _ _ _) hold
  | negotiation t' m asset provider offer answer hpos =>
      exact claiming_leave (onNegotiation_contained ..)
        (onNegotiation_fair e (h.placed t' _ hpos) ..) hold
  | transfer t' m c request answer =>
      exact claiming_leave (onTransfer_contained ..) (onTransfer_fair ..) hold
  | letGo t' key | leaveQueue t' key =>
      exact claiming_erase hold (show _ = e.tasks.erase t' by simp)

theorem Exposed.not_claiming (he : Exposed s e) (t : TaskId) (k : CorrelationKey) :
    e.tasks.get? t ≠ some (.claiming k) := by
  induction he with
  | start => simp [ofSettings]
  | act h a ih => exact fun hold => ih ((act_step _ a).claiming h.wired hold)
  | publish h m ih => simpa using ih
  | replaceCases h | replaceRecords h => assumption

/-! ## Every holder can go on -/

/-- What is left of `through` once the section has been entered. -/
def answers (t : TaskId) (offer : Except EngineError ContractOffer)
    (negotiation : Except EngineError NegotiationId)
    (transfer : Except EngineError TransferProcessId) : List Action :=
  [.reply t (.offer offer), .reply t (.negotiation negotiation), .reply t (.transfer transfer),
    .letGo t]

section

variable (answer : Except EngineError ContractOffer)
variable (negotiation : Except EngineError NegotiationId)
variable (transfer : Except EngineError TransferProcessId)

theorem Over.after_answers (ho : e.Over t) :
    e.after (answers t answer negotiation transfer) = e := by
  simp only [answers, after_cons, after_nil, ho.act_reply, ho.act_letGo]

/-- Who waits for an answer is done with its section once the services have answered. -/
theorem over_of_calling {task : Task} (hold : e.tasks.get? t = some task)
    (hcall : task.call?.isSome) : (e.after (answers t answer negotiation transfer)).Over t := by
  cases task with
  | resolving m asset provider => exact over_of_resolving hold answer negotiation transfer
  | negotiating m asset provider offer =>
      have hidle : e.act (.reply t (.offer answer)) = e := by simp [act, reply, hold]
      rw [answers, after_cons, hidle]
      exact over_of_negotiating hold negotiation transfer
  | transferring m c request =>
      have hoffer : e.act (.reply t (.offer answer)) = e := by simp [act, reply, hold]
      have hnegotiation : e.act (.reply t (.negotiation negotiation)) = e := by
        simp [act, reply, hold]
      rw [answers, after_cons, hoffer, after_cons, hnegotiation]
      exact over_of_transferring hold transfer
  | arriving | sweeping | walking | seeking | locking | claiming | holding | awaiting => cases hcall

theorem over_answers_of_holding {key : CorrelationKey}
    (hold : e.tasks.get? t = some (.holding key)) :
    (e.after (answers t answer negotiation transfer)).Over t := by
  have hidle : ∀ r, e.act (.reply t r) = e := fun r => by simp [act, reply, hold]
  simp only [answers, after_cons, after_nil, hidle]
  exact over_of_holding hold

/-- A section that is run under its lock is over at once, or when what it waits for has come. -/
theorem over_of_locking {part : Section} (hold : e.tasks.get? t = some (.locking part))
    (ho : e.Holds t part.key) :
    ((e.act (.stride t)).after (answers t answer negotiation transfer)).Over t := by
  have howns : e.owns t part.key = true := by simpa [owns, Holds] using ho
  have hact : e.act (.stride t) = e.enter t part := by simp [act, stride, hold, howns]
  rw [hact]
  cases part with
  | handle m =>
      rcases over_leave (e.handle m).1 t m (e.handle m).2 with hover | ⟨task, hexit, hnext⟩
      · rw [enter, Over.after_answers _ _ _ hover]
        exact hover
      · have hfair := handle_fair e m
        rw [hexit] at hfair
        exact over_of_calling _ _ _ hnext hfair.2.1
  | evict sweep key seen =>
      obtain ⟨sweep', htasks⟩ := tasks_visit e t sweep key seen
      have hover : (e.visit t sweep key seen).Over t := .inr ⟨sweep', by simp [htasks]⟩
      rw [enter, hover.after_answers]
      exact hover
  | keep key =>
      have hnext : (e.enter t (.keep key)).tasks.get? t = some (.holding key) := by simp [enter]
      exact over_answers_of_holding _ _ _ hnext

/-- Whoever has a lock is done with its section as soon as the services have answered. -/
theorem over_of_holds (he : Exposed s e) (ho : e.Holds t k) :
    (e.after (through t answer negotiation transfer)).Over t := by
  obtain ⟨task, hold, hkey⟩ := he.wired.orderly.owner_position ho
  have hsplit : e.after (through t answer negotiation transfer) =
      (e.act (.stride t)).after (answers t answer negotiation transfer) := rfl
  rw [hsplit]
  have hidle : ∀ {task}, e.tasks.get? t = some task → task.inside? = some k →
      e.act (.stride t) = e := by
    intro task hold hin
    have hact : e.act (.stride t) = e.stride t := rfl
    cases task <;> simp [Task.inside?] at hin <;> simp [hact, stride, hold]
  cases task with
  | locking part =>
      obtain rfl : part.key = k := Option.some.inj hkey
      exact over_of_locking _ _ _ hold ho
  | resolving | negotiating | transferring =>
      rw [hidle hold hkey]
      exact over_of_calling _ _ _ hold rfl
  | holding key =>
      rw [hidle hold hkey]
      exact over_answers_of_holding _ _ _ hold
  | claiming key => exact absurd hold (he.not_claiming t key)
  | arriving | sweeping | walking | seeking | awaiting => cases hkey

end

/-! ## Nobody is stuck -/

/-- The first in a queue waits for nobody. -/
theorem Orderly.not_waitsFor (h : e.Orderly) (ho : e.Holds t k) (k' : CorrelationKey) :
    ¬ e.WaitsFor t k' := by
  rintro ⟨hmem, hnot⟩
  obtain rfl := h.mem_queue (KeyLocks.mem_queue_of_owner? _ _ _ ho) hmem
  exact hnot ho

/-- Where somebody waits, somebody else holds. -/
theorem WaitsFor.holder (hw : e.WaitsFor t k) : ∃ holder, holder ≠ t ∧ e.Holds holder k := by
  obtain ⟨hmem, hnot⟩ := hw
  cases ho : e.store.locks.owner? k with
  | none =>
      have hempty : e.store.locks.queue k = [] := List.head?_eq_none_iff.mp ho
      rw [hempty] at hmem
      cases hmem
  | some holder =>
      refine ⟨holder, ?_, ho⟩
      rintro rfl
      exact hnot ho

/-- Whatever is done from outside, nobody is stuck behind the lock of a key.

* A task that holds a lock holds no other and waits for none.  It keeps its lock, whatever action
  comes, unless it ends its handler or comes between two keys of its sweep; then the next in the
  queue has the lock.  It comes to this by itself, however the services answer.
* Who waits for a lock waits for a task that holds it and waits for nothing.
* A task that has ended, or is between two keys, is in no queue.
* If no task is amid anything then no lock is in use. -/
theorem holder_waits_for_nobody (he : Exposed s e) :
    (∀ t k, e.Holds t k →
      (∀ k', e.Holds t k' → k' = k) ∧ (∀ k', ¬ e.WaitsFor t k') ∧
      (∀ a, (e.act a).Holds t k ∨ a.task? = some t ∧ (e.act a).Over t ∧
        (e.act a).store.locks.queue k = (e.store.locks.queue k).tail) ∧
      ∀ answer negotiation transfer, (e.after (through t answer negotiation transfer)).Over t) ∧
    (∀ t k, e.WaitsFor t k →
      ∃ holder, holder ≠ t ∧ e.Holds holder k ∧ ∀ k', ¬ e.WaitsFor holder k') ∧
    (∀ t, e.Over t → ∀ k, t ∉ e.store.locks.queue k) ∧
    ((∀ t task, e.tasks.get? t = some task → task.isUnderway = false) →
      e.store.locks.isEmpty) := by
  have horderly := he.wired.orderly
  refine ⟨fun t k ho => ⟨fun k' ho' => ?_, horderly.not_waitsFor ho, keeps_or_passes ho,
    fun answer negotiation transfer => over_of_holds answer negotiation transfer he ho⟩,
    fun t k hw => ?_, fun t hover k => hover.not_mem_queue horderly k, fun hidle => ?_⟩
  · exact horderly.mem_queue (KeyLocks.mem_queue_of_owner? _ _ _ ho')
      (KeyLocks.mem_queue_of_owner? _ _ _ ho)
  · obtain ⟨holder, hne, ho⟩ := hw.holder
    exact ⟨holder, hne, ho, horderly.not_waitsFor ho⟩
  · refine KeyLocks.isEmpty_of_queue fun k => List.eq_nil_iff_forall_not_mem.mpr fun t => ?_
    refine horderly.not_mem_queue ?_ k
    cases hold : e.tasks.get? t with
    | none => rfl
    | some task => exact Task.key?_of_not_isUnderway (hidle t task hold)

/-- A sweep waits for the lock of an expired case while a handler of its key is asking a service,
and another handler waits behind the sweep. -/
theorem holder_waits_for_nobody_of_sweep :
    let r : DataRequest := { key := ⟨"k"⟩, asset := ⟨"a"⟩, provider := "p" }
    let offer : ContractOffer := { id := "o", asset := ⟨"a"⟩, provider := "p" }
    let as : List Action :=
      [.submit r, .dispatch, .stride 0, .stride 0, .reply 0 (.offer (.ok offer)),
        .reply 0 (.negotiation (.ok ⟨"n"⟩)), .notify (.confirmed ⟨"n"⟩ ⟨"c"⟩), .dispatch, .stride 1,
        .stride 1, .pass 1800000, .beginSweep, .look 2 1800000 [(⟨"k"⟩, .started)], .stride 2,
        .submit r, .dispatch, .stride 3]
    let e := (ofSettings {}).after as
    e.Holds 1 ⟨"k"⟩ ∧ e.WaitsFor 2 ⟨"k"⟩ ∧ e.WaitsFor 3 ⟨"k"⟩ ∧ (∀ k, ¬ e.WaitsFor 1 k) ∧
      ∀ answer negotiation transfer, (e.after (through 1 answer negotiation transfer)).Over 1 := by
  intro r offer as e
  have ho : e.Holds 1 ⟨"k"⟩ := by decide
  have hsweep : e.WaitsFor 2 ⟨"k"⟩ := by decide
  have hhandler : e.WaitsFor 3 ⟨"k"⟩ := by decide
  have hfree := (holder_waits_for_nobody (Exposed.start.after as)).1 1 ⟨"k"⟩ ho
  exact ⟨ho, hsweep, hhandler, hfree.2.1, hfree.2.2.2⟩

end Engine

end Rendezvous
