import Rendezvous.Adapter
import Rendezvous.Proofs.Soundness

/-!
# What an action does

`act_leads` is the one case analysis over all actions: from a sound state, whatever happens next
keeps the books in order and moves each key by at most one row of the transition table.  Hence every
reachable state is sound (`Sound.after`), and what holds along the rows holds along every schedule.
-/

namespace Rendezvous

namespace Engine

variable {e e' : Engine} {t : TaskId} {cause : Cause}

/-! ## Tasks outside every queue -/

/-- A task outside every queue ends. -/
theorem Still.leads_finish (hs : Still e e') (h : Sound e) {old : Task}
    (hold : e.tasks.get? t = some old) (hkey : old.key? = none) (hquiet : old.call? = none)
    (htasks : e'.tasks = e.tasks) (hlocks : e'.store.locks = e.store.locks)
    (hnext : e'.nextTask = e.nextTask) (hbus : e'.bus = e.bus) (f : Finish) (cause : Cause) :
    Leads e cause (e'.finish t f) := by
  have hm : Moved e (e'.finish t f) t none := moved_erase (by simp [htasks])
  have hstill : Still e (e'.finish t f) := hs.trans (.finish e' t f)
  exact hstill.leads_move h hold hm hlocks hnext hbus hkey.symm (by simp) (by simp) hquiet
    (by simp) cause

theorem leads_begin (h : Sound e) {m : Message} (hold : e.tasks.get? t = some (.arriving m))
    (cause : Cause) : Leads e cause (e.begin t m) := by
  have hrecord : ∀ o, Leads e cause ((e.record m.key o).finishHandler t m none) := by
    intro o
    exact (Still.record e m.key o).leads_finish h hold rfl rfl (by simp) (by simp) (by simp)
      (by simp) _ cause
  unfold begin
  split
  · exact hrecord _
  · exact hrecord _
  · exact hrecord _
  · exact (Still.refl e).leads_finish h hold rfl rfl rfl rfl rfl rfl _ cause

/-- A sweep that has visited every key drops only what nobody can see any more. -/
theorem leads_finishSweep (h : Sound e) {sweep : Sweep}
    (hold : e.tasks.get? t = some (.walking sweep)) (startedAt evicted : Nat) (cause : Cause) :
    Leads e cause (e.finishSweep t startedAt evicted) := by
  refine Still.books.leads_finish h hold rfl rfl ?_ ?_ ?_ ?_ _ cause <;> rfl

theorem leads_lookForOutcome (h : Sound e) {key : CorrelationKey} {deadline : Nat}
    (hold : e.tasks.get? t = some (.awaiting key deadline)) (cause : Cause) :
    Leads e cause (e.lookForOutcome t key deadline) := by
  unfold lookForOutcome
  dsimp only
  split
  · refine Still.books.leads_finish h hold rfl rfl ?_ ?_ ?_ ?_ _ cause <;> rfl
  · exact h.leads_books e.registry.parked _ cause

/-- A task that owns a lock gives it back without having changed anything. -/
theorem leads_leaveLock (h : Sound e) {old : Task} {key : CorrelationKey}
    (hold : e.tasks.get? t = some old) (hkey : old.key? = some key) (hquiet : old.call? = none)
    {position? : Option Task} (hm : Moved (e.leaveLock t key) e' t position?)
    (hs : Still (e.leaveLock t key) e') (hlocks : e'.store.locks = (e.leaveLock t key).store.locks)
    (hnext : e'.nextTask = e.nextTask) (hbus : e'.bus = e.bus)
    (hout : position?.bind Task.key? = none)
    (hmessage : position?.bind Task.message? = none) (cause : Cause) : Leads e cause e' := by
  have hm' : Moved e e' t position? := ⟨hm.self, fun t' ht => by
    rw [hm.others t' ht]
    simp⟩
  have hstill : Still e e' := (Still.leaveLock e t key).trans hs
  exact hstill.leads_quit h hold hkey hm' (by simp [hlocks]) hnext hbus hout (by simp [hmessage])
    hquiet cause

/-! ## Visits -/

/-- What a visit leaves if the case is as the sweep saw it. -/
def expel (e : Engine) (t : TaskId) (key : CorrelationKey) : Engine :=
  (((e.close key).leaveLock t key).note (.evicted key)).publish (.failed key .timeout)

@[simp] theorem expel_frame (e : Engine) (t : TaskId) (key : CorrelationKey) :
    (e.expel t key).now = e.now ∧ (e.expel t key).destination = e.destination ∧
    (e.expel t key).store =
      { e.store.remove key with locks := e.store.locks.leave key t } ∧
    (e.expel t key).registry = (e.registry.take e.now key).2 ∧
    (e.expel t key).bus = e.bus.publish (.failed key .timeout) ∧
    (e.expel t key).tasks = e.tasks ∧ (e.expel t key).nextTask = e.nextTask := by
  unfold expel
  simp [CaseStore.remove]

@[simp] theorem accepted_expel (e : Engine) (t : TaskId) (key k : CorrelationKey) :
    (e.expel t key).accepted k = e.accepted k := by
  simp [expel]

/-- An expelled case ends with one timeout, and no other message is published. -/
theorem terminals_expel (t : TaskId) (key k : CorrelationKey) (hopen : e.bus.isOpen) :
    (e.expel t key).terminals k =
      if key = k then .failed key .timeout :: e.terminals k else e.terminals k := by
  unfold expel
  rw [terminals_publish _ _ _ (by simpa using hopen)]
  simp [Message.failed, Message.isTerminal, Event.terminal?]

/-- The case of `key` is in the stage `seen` and was expired at `startedAt`. -/
def Due (e : Engine) (startedAt : Nat) (key : CorrelationKey) (seen : Stage) : Prop :=
  ∃ c, e.store.get? key = some c ∧ c.stage = seen ∧ c.isExpired e.store.ttl startedAt

theorem visit_of_due {sweep : Sweep} {key : CorrelationKey} {seen : Stage}
    (h : e.Due sweep.startedAt key seen) (t : TaskId) :
    e.visit t sweep key seen =
      (e.expel t key).setTask t (.walking { sweep with evicted := sweep.evicted + 1 }) := by
  obtain ⟨c, hcase, hstage, hexpired⟩ := h
  have hevict : e.evict t sweep.startedAt key seen = (true, e.expel t key) := by
    simp [evict, hcase, hstage, hexpired, expel]
  unfold visit
  rw [hevict]
  rfl

theorem visit_of_not_due {sweep : Sweep} {key : CorrelationKey} {seen : Stage}
    (h : ¬ e.Due sweep.startedAt key seen) (t : TaskId) :
    e.visit t sweep key seen = (e.leaveLock t key).setTask t (.walking sweep) := by
  have hevict : e.evict t sweep.startedAt key seen = (false, e.leaveLock t key) := by
    unfold evict
    cases hcase : e.store.get? key with
    | none => rfl
    | some c =>
        have hnot : ¬ (c.stage = seen ∧ c.isExpired e.store.ttl sweep.startedAt) :=
          fun hfits => h ⟨c, hcase, hfits⟩
        simp only [Bool.and_eq_true, decide_eq_true_eq, hnot, if_false]
  unfold visit
  rw [hevict]
  rfl

@[simp] theorem visit_frame (e : Engine) (t : TaskId) (sweep : Sweep) (key : CorrelationKey)
    (seen : Stage) :
    (e.visit t sweep key seen).now = e.now ∧
    (e.visit t sweep key seen).destination = e.destination ∧
    (e.visit t sweep key seen).parkedTtl = e.parkedTtl ∧
    (e.visit t sweep key seen).store.ttl = e.store.ttl ∧
    (e.visit t sweep key seen).store.locks = e.store.locks.leave key t ∧
    (e.visit t sweep key seen).board = e.board ∧
    (e.visit t sweep key seen).offers = e.offers ∧
    (e.visit t sweep key seen).nextTask = e.nextTask := by
  by_cases hdue : e.Due sweep.startedAt key seen
  · rw [visit_of_due hdue]
    simp [expel, CaseStore.remove]
  · rw [visit_of_not_due hdue]
    simp

/-- A visit that finds the case as the sweep saw it ends the case. -/
theorem leads_expel (h : Sound e) {sweep : Sweep} {key : CorrelationKey} {seen : Stage} {c : Case}
    (hold : e.tasks.get? t = some (.locking (.evict sweep key seen)))
    (ho : e.store.locks.owner? key = some t) (hcase : e.store.get? key = some c)
    (hstage : c.stage = seen) (hexpired : c.isExpired e.store.ttl sweep.startedAt)
    (next : Sweep) :
    Leads e (.visited sweep key seen) ((e.expel t key).setTask t (.walking next)) := by
  have hm : Moved e ((e.expel t key).setTask t (.walking next)) t (some (.walking next)) :=
    moved_insert (by simp)
  have hlocks : ((e.expel t key).setTask t (.walking next)).store.locks =
      e.store.locks.leave key t := by simp
  have hcall := h.orderly.callAt?_quit hm hlocks hold rfl
  have hterminals := fun k => terminals_expel (e := e) t key k h.regular.isOpen
  refine ⟨h.orderly.quit hm hlocks (by simp) hold rfl rfl,
    h.regular.moved hm ?_ (fun m hmem => ?_) (by simp [Task.message?]),
    by simp, by simp [CaseStore.remove], by simp, fun k => ?_⟩
  · simpa [isOpen_publish] using h.regular.isOpen
  · simp only [setTask_frame, expel_frame] at hmem
    refine (mem_queue_publish hmem).imp_right fun heq => ?_
    rw [heq]
    rfl
  · by_cases hk : k = key
    · -- the case is gone, and so is the record: the row `evict`
      subst hk
      have hended : ((e.expel t k).setTask t (.walking next)).standing k =
          (e.standing k).ended (.failed k .timeout) := by
        ext1 <;> simp [standing, Standing.ended, hcall k, ho, hterminals]
      rw [hended]
      exact .inr (.evict c sweep seen hcase hstage hexpired
        (Orderly.callAt?_eq_none ho hold rfl))
    · have howner := h.orderly.owner?_iff hold rfl ho k
      have hcall' := hcall k
      rw [if_neg (mt howner.mp hk)] at hcall'
      left
      ext1 <;> simp [standing, hcall', hk, Ne.symm hk, hterminals]

/-- A sweep that owns the lock of a key ends the case there, or passes it by. -/
theorem leads_visit (h : Sound e) {sweep : Sweep} {key : CorrelationKey} {seen : Stage}
    (hold : e.tasks.get? t = some (.locking (.evict sweep key seen)))
    (ho : e.store.locks.owner? key = some t) :
    Leads e (.visited sweep key seen) (e.visit t sweep key seen) := by
  by_cases hdue : e.Due sweep.startedAt key seen
  · rw [visit_of_due hdue]
    obtain ⟨c, hcase, hstage, hexpired⟩ := hdue
    exact leads_expel h hold ho hcase hstage hexpired _
  · rw [visit_of_not_due hdue]
    have hm : Moved (e.leaveLock t key) ((e.leaveLock t key).setTask t (.walking sweep)) t
        (some (.walking sweep)) := moved_insert (by simp)
    exact leads_leaveLock h hold rfl rfl hm (.setTask _ t _) rfl (by simp) (by simp) rfl rfl _

/-! ## Sections -/

theorem Sound.leaving_handle (h : Sound e) {m : Message}
    (hold : e.tasks.get? t = some (.locking (.handle m)))
    (ho : e.store.locks.owner? m.key = some t) :
    Leaving e t (.handled m) m (e.handle m) := by
  have hcall : e.callAt? m.key = none := Orderly.callAt?_eq_none ho hold rfl
  have hregular : m.isRegular := h.regular.tasks t m (by simp [hold, Task.message?])
  obtain ⟨hproper, hadvances⟩ :=
    (handle_advances m hregular hcall (h.coherent m.key)).ends hcall
  exact ⟨⟨_, hold, rfl, rfl⟩, ho, handle_contained e m, hproper, hadvances⟩

/-- Who has an open call is opening a request or asking for a transfer. -/
theorem Sound.open_call (h : Sound e) {call : Task} {k : CorrelationKey}
    (hold : e.tasks.get? t = some call) (hcall : call.call?.isSome) (hkey : call.key? = some k) :
    e.store.locks.owner? k = some t ∧ e.callAt? k = some call ∧
      ((∃ r : DataRequest, r.key = k ∧ call.Opens r) ∨
        ∃ n c request, call = .transferring (.confirmation k n request.contract) c request) := by
  obtain ⟨ho, hopen⟩ := h.orderly.callAt?_eq_some hold hcall hkey
  refine ⟨ho, hopen, ?_⟩
  have hopen' : (e.standing k).call? = some call := hopen
  cases h.coherent k with
  | opening r call' hkey _ _ hcall' hopens =>
      rw [hopen'] at hcall'
      cases hcall'
      exact .inl ⟨r, hkey, hopens⟩
  | confirming c n contract request _ _ _ _ hcall' _ hcontract =>
      rw [hopen'] at hcall'
      cases hcall'
      exact .inr ⟨n, c, request, by rw [hcontract]⟩
  | vacant _ _ hnone | pending _ _ _ _ _ _ _ hnone | confirmed _ _ _ _ _ hnone =>
      rw [hopen'] at hnone
      cases hnone

theorem Sound.leaving_offer (h : Sound e) {m : Message} {asset : AssetId} {provider : String}
    (hold : e.tasks.get? t = some (.resolving m asset provider))
    (answer : Except EngineError ContractOffer) :
    Leaving e t (.answered (.resolving m asset provider) (.offer answer)) m
      (e.onOffer m asset provider answer) := by
  obtain ⟨ho, hopen, ⟨r, hkey, hopens⟩ | ⟨n, c, request, hcall⟩⟩ := h.open_call hold rfl rfl
  · rcases hopens with hcall | ⟨offer, hcall⟩
    · obtain ⟨rfl, rfl, rfl⟩ := Task.resolving.inj hcall
      obtain ⟨hproper, hmove⟩ := onOffer_settles r answer hopen
      exact ⟨⟨_, hold, rfl, rfl⟩, ho, onOffer_contained e _ _ _ _, hproper, .inr hmove⟩
    · cases hcall
  · cases hcall

theorem Sound.leaving_negotiation (h : Sound e) {m : Message} {asset : AssetId}
    {provider : String} {offer : ContractOffer}
    (hold : e.tasks.get? t = some (.negotiating m asset provider offer))
    (answer : Except EngineError NegotiationId) :
    Leaving e t (.answered (.negotiating m asset provider offer) (.negotiation answer)) m
      (e.onNegotiation m asset provider offer answer) := by
  obtain ⟨ho, hopen, ⟨r, hkey, hopens⟩ | ⟨n, c, request, hcall⟩⟩ := h.open_call hold rfl rfl
  · rcases hopens with hcall | ⟨offer', hcall⟩
    · cases hcall
    · obtain ⟨rfl, rfl, rfl, rfl⟩ := Task.negotiating.inj hcall
      obtain ⟨hproper, hmove⟩ := onNegotiation_settles r offer answer hopen (h.coherent _)
      exact ⟨⟨_, hold, rfl, rfl⟩, ho, onNegotiation_contained e _ _ _ _ _, hproper, .inr hmove⟩
  · cases hcall

theorem Sound.leaving_transfer (h : Sound e) {m : Message} {c : Case} {request : TransferRequest}
    (hold : e.tasks.get? t = some (.transferring m c request))
    (answer : Except EngineError TransferProcessId) :
    Leaving e t (.answered (.transferring m c request) (.transfer answer)) m
      (e.onTransfer m c request.contract answer) := by
  obtain ⟨ho, hopen, ⟨r, hkey, hopens⟩ | ⟨n, c', request', hcall⟩⟩ := h.open_call hold rfl rfl
  · rcases hopens with hcall | ⟨offer, hcall⟩ <;> cases hcall
  · obtain ⟨hm, rfl, rfl⟩ := Task.transferring.inj hcall
    -- the message is fixed by its key, so the key has to be named before the message is replaced
    generalize hk : m.key = k at ho hopen hm
    subst hm
    obtain ⟨hproper, hmove⟩ := onTransfer_settles k n c request answer hopen (h.coherent k)
    exact ⟨⟨_, hold, rfl, rfl⟩, ho, onTransfer_contained e _ _ _ _, hproper, .inr hmove⟩

/-! ## Every row of the table of steps -/

/-- An outside holder that owns its lock keeps it. -/
theorem leads_keep (h : Sound e) {key : CorrelationKey}
    (hold : e.tasks.get? t = some (.locking (.keep key)))
    (ho : e.store.locks.owner? key = some t) (cause : Cause) :
    Leads e cause ((e.setTask t (.holding key)).note (.held t key)) := by
  have hstill : Still e ((e.setTask t (.holding key)).note (.held t key)) :=
    (Still.setTask e t _).trans (.note _ rfl)
  refine hstill.leads_move h hold (moved_insert rfl) rfl rfl rfl rfl (fun k hin => ?_)
    (by simp [Task.message?]) rfl (by simp [Task.call?]) cause
  rw [← Option.some.inj hin]
  exact ho

/-- A task that gives up its place in a queue, or at the head of it, ends. -/
theorem leads_drop (h : Sound e) {old : Task} {key : CorrelationKey}
    (hold : e.tasks.get? t = some old) (hkey : old.key? = some key) (hquiet : old.call? = none)
    (f : Finish) (cause : Cause) : Leads e cause ((e.leaveLock t key).finish t f) := by
  have hm : Moved (e.leaveLock t key) ((e.leaveLock t key).finish t f) t none := moved_erase rfl
  exact leads_leaveLock h hold hkey hquiet hm (.finish _ t f) rfl (by simp) (by simp) rfl rfl cause

theorem leads_lookAround (h : Sound e) (hold : e.tasks.get? t = some .sweeping) (startedAt : Nat)
    (seen : List (CorrelationKey × Stage)) (cause : Cause) :
    Leads e cause (e.lookAround t startedAt seen) := by
  have hm : Moved e (e.lookAround t startedAt seen) t
      (some (.walking { startedAt, rest := seen })) := moved_insert rfl
  exact (Still.setTask e t _).leads_move h hold hm rfl rfl rfl rfl (by simp [Task.inside?])
    (by simp [Task.message?]) rfl (by simp [Task.call?]) cause

theorem isRegular_message (c : Callback) (key : CorrelationKey) :
    (c.message key).isRegular ∧ (c.message key).isTerminal = false := by
  cases c <;> exact ⟨rfl, rfl⟩

theorem Step.leads (h : Sound e) {a : Action} (hs : e.Step a e') : Leads e (e.cause a) e' := by
  have hcause : ∀ {t task}, e.tasks.get? t = some task → ∀ r,
      e.cause (.reply t r) = .answered task r := by
    intro t task hold r
    simp [Engine.cause, hold]
  cases hs with
  | idle => exact h.leads_refl _
  | submit r => exact leads_publish h rfl rfl _
  | forward c key hkey =>
      obtain ⟨hregular, hterminal⟩ := isRegular_message c key
      exact leads_publish h hregular hterminal _
  | park n contract hindex hclosed => exact h.leads_books _ e.board _
  | dispatch m rest hqueue => exact leads_dispatch h hqueue _
  | begin _ task hbegins =>
      obtain ⟨hkey, -, hmessage⟩ := Action.idle_of_begins? hbegins
      exact leads_spawn h e.bus h.regular.isOpen h.regular.queue hkey (by simp [hmessage]) _
  | look t startedAt seen hold => exact leads_lookAround h hold startedAt seen _
  | queueUp t old s hold hjoins =>
      obtain ⟨hout, hmessage⟩ := hjoins.outside
      refine leads_queueUp h hold hout (fun m hm => ?_) _
      exact h.regular.tasks t m (by simp [hold, hmessage m hm])
  | outcome t m hold hlock => exact leads_begin h hold _
  | handle t m hold ho =>
      have hhandled : e.cause (.stride t) = .handled m := by simp [Engine.cause, hold]
      rw [hhandled]
      exact leads_leave h (h.leaving_handle hold ho)
  | visit t sweep key seen hold ho =>
      have hvisited : e.cause (.stride t) = .visited sweep key seen := by
        simp [Engine.cause, hold]
      rw [hvisited]
      exact leads_visit h hold ho
  | keep t key hold ho => exact leads_keep h hold ho _
  | finishSweep t sweep hold hrest => exact leads_finishSweep h hold _ _ _
  | listen t key deadline hold => exact leads_lookForOutcome h hold _
  | offer t m asset provider answer hold =>
      rw [hcause hold]
      exact leads_leave h (h.leaving_offer hold answer)
  | negotiation t m asset provider offer answer hold =>
      rw [hcause hold]
      exact leads_leave h (h.leaving_negotiation hold answer)
  | transfer t m c request answer hold =>
      rw [hcause hold]
      exact leads_leave h (h.leaving_transfer hold answer)
  | take key => exact h.leads_books e.registry.parked _ _
  | letGo t key hold => exact leads_drop h hold rfl rfl _ _
  | leaveQueue t key hold => exact leads_drop h hold rfl rfl _ _
  | neverMind t key hold =>
      exact (Still.refl e).leads_finish h hold rfl rfl rfl rfl rfl rfl _ _
  | pass span =>
      exact ⟨h.orderly.congr rfl rfl rfl, h.regular.congr rfl rfl, Nat.le_add_right _ _, rfl, rfl,
        fun k => .inl rfl⟩

/-- A sound engine leads, by any action, to the next one. -/
theorem act_leads (h : Sound e) (a : Action) : Leads e (e.cause a) (e.act a) :=
  (e.act_step a).leads h

/-! ## Reachable engines -/

theorem Sound.act (h : Sound e) (a : Action) : Sound (e.act a) where
  orderly := (act_leads h a).orderly
  regular := (act_leads h a).regular
  coherent k := by
    rcases (act_leads h a).moves k with hsame | hmove
    · exact hsame ▸ h.coherent k
    · exact hmove.coherent (h.coherent k)

/-- A sound engine stays sound, whatever the schedule. -/
theorem Sound.after (h : Sound e) (as : List Action) : Sound (e.after as) := by
  induction as generalizing e with
  | nil => exact h
  | cons a as ih => exact ih (h.act a)

/-- What every action of some kind keeps, every schedule of such actions keeps. -/
theorem Sound.after_induction (h : Sound e) {P : Engine → Prop} {kind : Action → Prop}
    (hstart : P e) (hkeep : ∀ {e a}, Sound e → P e → kind a → P (e.act a)) {as : List Action}
    (hkind : ∀ a ∈ as, kind a) : P (e.after as) := by
  induction as generalizing e with
  | nil => exact hstart
  | cons a as ih =>
      exact ih (h.act a) (hkeep h hstart (hkind a List.mem_cons_self)) fun b hmem =>
        hkind b (List.mem_cons_of_mem a hmem)

/-- Whatever every action keeps, every schedule keeps. -/
theorem Sound.after_invariant (h : Sound e) {P : Engine → Prop} (hstart : P e)
    (hkeep : ∀ {e}, Sound e → P e → ∀ a, P (e.act a)) (as : List Action) : P (e.after as) := by
  refine h.after_induction hstart (fun {e a} hsound hP _ => ?_) fun _ _ => trivial
  exact hkeep hsound hP a

/-- Whatever every move of `k` keeps, every schedule keeps. -/
theorem Sound.standing_induction (h : Sound e) {k : CorrelationKey} {P : Standing → Prop}
    (hstart : P (e.standing k))
    (hmove : ∀ (e : Engine) cause s s', e.Move k s cause s' → P s → P s') (as : List Action) :
    P ((e.after as).standing k) := by
  refine h.after_invariant (P := fun e => P (e.standing k)) hstart (fun {e} h hP a => ?_) as
  rcases (act_leads h a).moves k with hsame | hnext
  · exact hsame ▸ hP
  · exact hmove e _ _ _ hnext hP

theorem Sound.ttl_after (h : Sound e) (as : List Action) :
    (e.after as).store.ttl = e.store.ttl :=
  h.after_invariant (P := fun e' => e'.store.ttl = e.store.ttl) rfl
    (fun h httl a => (act_leads h a).ttl.trans httl) as

theorem sound_ofSettings (s : Settings) : Sound (.ofSettings s) where
  orderly :=
    { fresh := fun _ _ => rfl
      queued := fun t k => by simp [ofSettings, KeyLocks.queue]
      once := fun k => by simp [ofSettings, KeyLocks.queue]
      inside := fun t k hin => by simp [ofSettings] at hin }
  regular :=
    { isOpen := rfl
      queue := fun m hmem => by simp [ofSettings] at hmem
      tasks := fun t m hmessage => by simp [ofSettings] at hmessage }
  coherent k := .vacant rfl rfl rfl

/-- Every reachable state is sound. -/
theorem sound_after (s : Settings) (as : List Action) : Sound ((ofSettings s).after as) :=
  (sound_ofSettings s).after as

end Engine

end Rendezvous
