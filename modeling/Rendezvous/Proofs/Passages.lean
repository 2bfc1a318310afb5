import Rendezvous.Proofs.Mail
import Rendezvous.Proofs.Places

/-!
# What an action writes into the history

A handler goes through its section in one passage, or in several if it waits for services in
between.  `Engine.passage?` is the passage that an action makes: the handler's task and message, and
what the section comes to.  Everything that a handler publishes or asks for, it publishes or asks
for by the exit of a passage.

`Engine.Writes` lists what an action can write into the history of a sound engine, and why.  It has
no row for a handler that goes wrong.  `act_news` says that actions write nothing else, and that no
message is on its way that was not published.
-/

namespace Rendezvous

/-- What a handler makes of its section between two points where it can be held up. -/
structure Passage where
  task : TaskId
  message : Message
  result : Engine × Exit

/-- Whether an event only tells that tasks come, go on and end. -/
def Event.isRoutine : Event → Bool
  | .spawned _ | .granted _ | .notified _ | .held .. | .finished .. => true
  | _ => false

namespace Engine

/-- The passage that an action makes through the section of a handler. -/
def passage? (e : Engine) : Action → Option Passage
  | .stride t =>
      match e.tasks.get? t with
      | some (.locking (.handle m)) => if e.owns t m.key then some ⟨t, m, e.handle m⟩ else none
      | _ => none
  | .reply t r =>
      match e.tasks.get? t, r with
      | some (.resolving m asset provider), .offer answer =>
          some ⟨t, m, e.onOffer m asset provider answer⟩
      | some (.negotiating m asset provider offer), .negotiation answer =>
          some ⟨t, m, e.onNegotiation m asset provider offer answer⟩
      | some (.transferring m c request), .transfer answer =>
          some ⟨t, m, e.onTransfer m c request.contract answer⟩
      | _, _ => none
  | _ => none

variable {e e' e'' : Engine} {a : Action} {p : Passage} {t : TaskId}

/-! ## Passages -/

section

variable {m : Message}

theorem passage?_handle (hold : e.tasks.get? t = some (.locking (.handle m)))
    (ho : e.store.locks.owner? m.key = some t) :
    e.passage? (.stride t) = some ⟨t, m, e.handle m⟩ := by
  simp [passage?, hold, owns, ho]

theorem passage?_offer {asset : AssetId} {provider : String}
    (hold : e.tasks.get? t = some (.resolving m asset provider))
    (answer : Except EngineError ContractOffer) :
    e.passage? (.reply t (.offer answer)) = some ⟨t, m, e.onOffer m asset provider answer⟩ := by
  simp [passage?, hold]

theorem passage?_negotiation {asset : AssetId} {provider : String} {offer : ContractOffer}
    (hold : e.tasks.get? t = some (.negotiating m asset provider offer))
    (answer : Except EngineError NegotiationId) :
    e.passage? (.reply t (.negotiation answer)) =
      some ⟨t, m, e.onNegotiation m asset provider offer answer⟩ := by
  simp [passage?, hold]

theorem passage?_transfer {c : Case} {request : TransferRequest}
    (hold : e.tasks.get? t = some (.transferring m c request))
    (answer : Except EngineError TransferProcessId) :
    e.passage? (.reply t (.transfer answer)) =
      some ⟨t, m, e.onTransfer m c request.contract answer⟩ := by
  simp [passage?, hold]

end

/-- A handler that passes through its section is about to leave it, and the action is just that. -/
theorem Sound.leaving (h : Sound e) (hp : e.passage? a = some p) :
    Leaving e p.task (e.cause a) p.message p.result ∧
      e.act a = p.result.1.leave p.task p.message p.result.2 := by
  unfold passage? at hp
  split at hp
  · rename_i t
    split at hp
    · rename_i m hold
      split at hp
      · rename_i howns
        cases hp
        have ho : e.store.locks.owner? m.key = some t := by simpa [owns] using howns
        have hcause : e.cause (.stride t) = .handled m := by simp [Engine.cause, hold]
        rw [hcause]
        exact ⟨h.leaving_handle hold ho,
          by simp [Engine.act, stride, hold, Section.key, howns, enter]⟩
      · cases hp
    · cases hp
  · rename_i t r
    have hcause : ∀ {task}, e.tasks.get? t = some task →
        e.cause (.reply t r) = .answered task r := by
      intro task hold
      simp [Engine.cause, hold]
    split at hp
    · rename_i hold
      cases hp
      rw [hcause hold]
      exact ⟨h.leaving_offer hold _, by simp [Engine.act, reply, hold]⟩
    · rename_i hold
      cases hp
      rw [hcause hold]
      exact ⟨h.leaving_negotiation hold _, by simp [Engine.act, reply, hold]⟩
    · rename_i hold
      cases hp
      rw [hcause hold]
      exact ⟨h.leaving_transfer hold _, by simp [Engine.act, reply, hold]⟩
    · cases hp
  · cases hp

/-! ## What is written, and why -/

/-- What the action `a` can write into the history of `e`. -/
inductive Writes (e : Engine) (a : Action) : Event → Prop
  /-- Tasks come, go on and end. -/
  | routine {ev : Event} (h : ev.isRoutine) : Writes e a ev
  | submitted (r : DataRequest) (ha : a = .submit r) : Writes e a (.published (.ofRequest r))
  /-- A notice finds its key. -/
  | forwarded (c : Callback) (key : CorrelationKey) (ha : a = .notify c)
      (hkey : c.key? e.registry = some key) : Writes e a (.published (c.message key))
  /-- A handler accepts a request. -/
  | accepted (p : Passage) (hp : e.passage? a = some p) : Writes e a (.accepted p.message.key)
  /-- A handler registers a case. -/
  | registered (p : Passage) (hp : e.passage? a = some p) : Writes e a (.registered p.message.key)
  /-- A handler publishes its follow-up. -/
  | followed (p : Passage) (next : Message) (hp : e.passage? a = some p)
      (hexit : p.result.2 = .publish next) : Writes e a (.published next)
  /-- A handler asks a service. -/
  | called (p : Passage) (task : Task) (call : Call) (hp : e.passage? a = some p)
      (hexit : p.result.2 = .call task) (hcall : task.call? = some call) : Writes e a (.called call)
  /-- A sweep ends a case. -/
  | evicted (t : TaskId) (sweep : Sweep) (key : CorrelationKey) (seen : Stage) (ha : a = .stride t)
      (hold : e.tasks.get? t = some (.locking (.evict sweep key seen)))
      (hdue : e.Due sweep.startedAt key seen) : Writes e a (.evicted key)
  /-- A sweep publishes the timeout of the case that it ends. -/
  | expired (t : TaskId) (sweep : Sweep) (key : CorrelationKey) (seen : Stage) (ha : a = .stride t)
      (hold : e.tasks.get? t = some (.locking (.evict sweep key seen)))
      (hdue : e.Due sweep.startedAt key seen) : Writes e a (.published (.failed key .timeout))
  /-- A terminal message comes to the board. -/
  | recorded (t : TaskId) (key : CorrelationKey) (o : Outcome) (ha : a = .stride t)
      (hold : e.tasks.get? t = some (.arriving (o.message key))) : Writes e a (.recorded key o)

/-- The message is queued, or a task has it and has not begun to handle it. -/
def InMail (e : Engine) (m : Message) : Prop :=
  m ∈ e.bus.queue ∨ ∃ t, (e.tasks.get? t).bind Task.message? = some m

/-- From `e` to `e'` the events `evs` are written, latest first, and no message is on its way that
was not before and is not published. -/
structure Grows (e e' : Engine) (evs : List Event) : Prop where
  history : e'.history = evs ++ e.history
  mail : ∀ m, e'.InMail m → e.InMail m ∨ .published m ∈ evs

namespace Grows

variable {evs evs' : List Event}

theorem refl (e : Engine) : Grows e e [] := ⟨rfl, fun _ hm => .inl hm⟩

theorem trans (h : Grows e e' evs) (h' : Grows e' e'' evs') : Grows e e'' (evs' ++ evs) where
  history := by rw [h'.history, h.history, List.append_assoc]
  mail m hm := by
    rcases h'.mail m hm with hold | hnew
    · exact (h.mail m hold).imp_right fun hmem => List.mem_append_right _ hmem
    · exact .inr (List.mem_append_left _ hnew)

theorem of_eq (hhistory : e'.history = evs ++ e.history) (hbus : e'.bus = e.bus)
    (htasks : e'.tasks = e.tasks) : Grows e e' evs where
  history := hhistory
  mail m hm := by
    unfold InMail at hm ⊢
    rw [hbus, htasks] at hm
    exact .inl hm

theorem note (e : Engine) (ev : Event) : Grows e (e.note ev) [ev] := of_eq rfl rfl rfl

theorem leaveLock (e : Engine) (t : TaskId) (key : CorrelationKey) :
    Grows e (e.leaveLock t key) ((e.store.locks.heir? key t).toList.map Event.granted) :=
  of_eq (by simp) (by simp) (by simp)

theorem publish (m : Message) (hopen : e.bus.isOpen) :
    Grows e (e.publish m) [.published m] where
  history := by simp [publish_of_isOpen e m hopen]
  mail m' hm := by
    unfold InMail at hm
    simp only [publish_frame] at hm
    rcases hm with hm | hm
    · exact (mem_queue_publish hm).imp .inl fun heq => by simp [heq]
    · exact .inl (.inr hm)

/-- A task that moves takes along no message but one on its way. -/
theorem moved {position? : Option Task} (hm : Moved e e' t position?)
    (hhistory : e'.history = evs ++ e.history) (hbus : e'.bus = e.bus)
    (hmessage : ∀ m, position?.bind Task.message? = some m → e.InMail m) : Grows e e' evs where
  history := hhistory
  mail m hmail := by
    left
    rcases hmail with hqueue | ⟨t', ht'⟩
    · exact .inl (hbus ▸ hqueue)
    · by_cases ht : t' = t
      · subst ht
        rw [hm.self] at ht'
        exact hmessage m ht'
      · rw [hm.others t' ht] at ht'
        exact .inr ⟨t', ht'⟩

theorem finish (e : Engine) (t : TaskId) (f : Finish) : Grows e (e.finish t f) [.finished t f] :=
  moved (moved_erase rfl) rfl rfl (by simp)

theorem setTask (t : TaskId) {task : Task} (hmessage : ∀ m, task.message? = some m → e.InMail m) :
    Grows e (e.setTask t task) [] :=
  moved (moved_insert rfl) rfl rfl (by simpa using hmessage)

end Grows

/-- What an action writes: the list of its events, and a reason for each of them. -/
structure News (e : Engine) (a : Action) (e' : Engine) (evs : List Event) : Prop extends
    Grows e e' evs where
  writes : ∀ ev ∈ evs, e.Writes a ev

theorem writes_granted (e : Engine) (a : Action) (heir? : Option TaskId) :
    ∀ ev ∈ heir?.toList.map Event.granted, e.Writes a ev := by
  intro ev hmem
  obtain ⟨t, -, rfl⟩ := List.mem_map.mp hmem
  exact .routine rfl

/-! ## The news of an action -/

theorem news_idle (e : Engine) (a : Action) : e.News a e [] :=
  ⟨.refl e, fun _ hmem => absurd hmem List.not_mem_nil⟩

/-- What changes neither history, bus nor tasks is no news. -/
theorem news_of_eq (a : Action) (hhistory : e'.history = e.history) (hbus : e'.bus = e.bus)
    (htasks : e'.tasks = e.tasks) : e.News a e' [] :=
  ⟨.of_eq hhistory hbus htasks, fun _ hmem => absurd hmem List.not_mem_nil⟩

/-- A task that begins has a message on its way, or none. -/
theorem news_spawn (e : Engine) (a : Action) (bus : Bus) (task : Task)
    (hqueue : ∀ m ∈ bus.queue, e.InMail m) (hmessage : ∀ m, task.message? = some m → e.InMail m) :
    e.News a (({ e with bus } : Engine).spawn task).2 [.spawned e.nextTask] := by
  have hm : Moved e (({ e with bus } : Engine).spawn task).2 e.nextTask (some task) :=
    moved_insert (by simp)
  refine ⟨⟨rfl, fun m hmail => .inl ?_⟩, fun ev hmem => ?_⟩
  · rcases hmail with hmem | ⟨t, ht⟩
    · exact hqueue m hmem
    · by_cases hself : t = e.nextTask
      · subst hself
        rw [hm.self] at ht
        exact hmessage m ht
      · rw [hm.others t hself] at ht
        exact .inr ⟨t, ht⟩
  · obtain rfl := List.mem_singleton.mp hmem
    exact .routine rfl

/-- A handler that leaves its section writes what the section has written, then its follow-up or its
call. -/
theorem news_leave (h : Sound e) (hp : e.passage? a = some p) :
    ∃ evs, e.News a (e.act a) evs := by
  obtain ⟨hleaving, hact⟩ := h.leaving hp
  have hcontained := hleaving.contained
  obtain ⟨own, hown, hwrites⟩ := hcontained.news
  have hsection : Grows e p.result.1 own := .of_eq hown hcontained.bus hcontained.tasks
  have hownWrites : ∀ ev ∈ own, e.Writes a ev := by
    intro ev hmem
    rcases hwrites ev hmem with rfl | rfl
    · exact .accepted p hp
    · exact .registered p hp
  have hopen : p.result.1.bus.isOpen := by
    rw [hcontained.bus]
    exact h.regular.isOpen
  have hproper := hleaving.proper
  have hlock := Grows.leaveLock p.result.1 p.task p.message.key
  have hgranted := writes_granted e a (p.result.1.store.locks.heir? p.message.key p.task)
  rw [hact]
  cases hexit : p.result.2 with
  | done =>
      rw [leave_done]
      refine ⟨_, hsection.trans (hlock.trans (.finish _ _ _)), fun ev hmem => ?_⟩
      simp only [List.mem_append, List.mem_singleton] at hmem
      rcases hmem with (rfl | hmem) | hmem
      · exact .routine rfl
      · exact hgranted ev hmem
      · exact hownWrites ev hmem
  | publish next =>
      rw [leave_publish p.task p.message next hopen]
      have hpublish : Grows _ ((p.result.1.leaveLock p.task p.message.key).publish next) _ :=
        .publish next (by simpa using hopen)
      refine ⟨_, hsection.trans (hlock.trans (hpublish.trans (.finish _ _ _))), fun ev hmem => ?_⟩
      simp only [List.mem_append, List.mem_singleton] at hmem
      rcases hmem with ((rfl | rfl) | hmem) | hmem
      · exact .routine rfl
      · exact .followed p next hp hexit
      · exact hgranted ev hmem
      · exact hownWrites ev hmem
  | call task =>
      rw [hexit] at hproper
      obtain ⟨call, hcall⟩ := Option.isSome_iff_exists.mp hproper.2
      rw [leave_call _ _ _ hcall]
      have hmessage : ∀ m, task.message? = some m → p.result.1.InMail m := by
        intro m hmessage
        cases task <;> simp_all [Task.message?, Task.call?]
      have htask : Grows p.result.1 (p.result.1.setTask p.task task) [] := .setTask _ hmessage
      refine ⟨_, hsection.trans (htask.trans (.note _ (.called call))), fun ev hmem => ?_⟩
      simp only [List.append_nil, List.mem_append, List.mem_singleton] at hmem
      rcases hmem with rfl | hmem
      · exact .called p task call hp hexit hcall
      · exact hownWrites ev hmem
  | record o =>
      rw [hexit] at hproper
      exact hproper.elim
  | fault error =>
      rw [hexit] at hproper
      exact hproper.elim

/-- A sweep that ends a case writes so and publishes the timeout; one that does not writes
nothing. -/
theorem news_visit (h : Sound e) {sweep : Sweep} {key : CorrelationKey} {seen : Stage}
    (hold : e.tasks.get? t = some (.locking (.evict sweep key seen))) :
    ∃ evs, e.News (.stride t) (e.visit t sweep key seen) evs := by
  by_cases hdue : e.Due sweep.startedAt key seen
  · rw [visit_of_due hdue]
    have hclose : Grows e (e.close key) [] := .of_eq rfl rfl rfl
    have hlock := hclose.trans (.leaveLock _ t key)
    have hnote := hlock.trans (.note _ (.evicted key))
    have hpublish : Grows e (e.expel t key) _ :=
      hnote.trans (.publish (.failed key .timeout) (by simpa using h.regular.isOpen))
    refine ⟨_, hpublish.trans (.setTask t (by simp [Task.message?])), fun ev hmem => ?_⟩
    simp only [List.append_nil, List.nil_append, List.mem_append, List.mem_singleton] at hmem
    rcases hmem with rfl | rfl | hmem
    · exact .expired t sweep key seen rfl hold hdue
    · exact .evicted t sweep key seen rfl hold hdue
    · exact writes_granted e _ _ ev hmem
  · rw [visit_of_not_due hdue]
    have hlock := Grows.leaveLock e t key
    refine ⟨_, hlock.trans (.setTask t (by simp [Task.message?])), fun ev hmem => ?_⟩
    simp only [List.nil_append] at hmem
    exact writes_granted e _ _ ev hmem

/-- A terminal message that comes to the board is recorded, and its task ends. -/
theorem news_record {key : CorrelationKey} {o : Outcome}
    (hold : e.tasks.get? t = some (.arriving (o.message key))) :
    ∃ evs, e.News (.stride t) ((e.record key o).finish t .handled) evs := by
  have hrecord : Grows e (e.record key o)
      (e.board.listeners.reverse.map Event.notified ++ [.recorded key o]) :=
    .of_eq (by simp) (by simp) (by simp)
  refine ⟨_, hrecord.trans (.finish _ t _), fun ev hmem => ?_⟩
  simp only [List.mem_append, List.mem_singleton, List.mem_map] at hmem
  rcases hmem with rfl | ⟨t', -, rfl⟩ | rfl
  · exact .routine rfl
  · exact .routine rfl
  · exact .recorded t key o rfl hold

/-- A task that ends, after something that is no news. -/
theorem news_finish (a : Action) (hhistory : e'.history = e.history) (hbus : e'.bus = e.bus)
    (htasks : e'.tasks = e.tasks) (t : TaskId) (f : Finish) :
    e.News a (e'.finish t f) [.finished t f] := by
  have hsame : Grows e e' [] := .of_eq hhistory hbus htasks
  refine ⟨hsame.trans (.finish e' t f), fun ev hmem => ?_⟩
  obtain rfl := List.mem_singleton.mp hmem
  exact .routine rfl

/-- A task that ends and gives its lock back. -/
theorem news_drop (e : Engine) (a : Action) (t : TaskId) (key : CorrelationKey) (f : Finish) :
    ∃ evs, e.News a ((e.leaveLock t key).finish t f) evs := by
  refine ⟨_, (Grows.leaveLock e t key).trans (.finish _ t f), fun ev hmem => ?_⟩
  simp only [List.mem_append, List.mem_singleton] at hmem
  rcases hmem with rfl | hmem
  · exact .routine rfl
  · exact writes_granted e a _ ev hmem

theorem news_publish {m : Message} (hopen : e.bus.isOpen) (hwrites : e.Writes a (.published m)) :
    e.News a (e.publish m) [.published m] := by
  refine ⟨.publish m hopen, fun ev hmem => ?_⟩
  obtain rfl := List.mem_singleton.mp hmem
  exact hwrites

theorem Step.news (h : Sound e) (hs : e.Step a e') (hact : e' = e.act a) :
    ∃ evs, e.News a e' evs := by
  cases hs with
  | idle => exact ⟨_, news_idle e a⟩
  | submit r => exact ⟨_, news_publish h.regular.isOpen (.submitted r rfl)⟩
  | forward c key hkey => exact ⟨_, news_publish h.regular.isOpen (.forwarded c key rfl hkey)⟩
  | park n contract => exact ⟨_, news_of_eq _ rfl rfl rfl⟩
  | dispatch m rest hqueue =>
      refine ⟨_, news_spawn e _ { e.bus with queue := rest } (.arriving m) (fun m' hm' => ?_)
        fun m' hm' => ?_⟩
      · exact .inl (hqueue ▸ List.mem_cons_of_mem m hm')
      · cases hm'
        exact .inl (by simp [hqueue])
  | begin _ task hbegins =>
      obtain ⟨-, -, hmessage⟩ := Action.idle_of_begins? hbegins
      exact ⟨_, news_spawn e a e.bus task (fun m hm => .inl hm) (by simp [hmessage])⟩
  | look t startedAt seen =>
      have hgrows : Grows e (e.lookAround t startedAt seen) [] :=
        .setTask t (by simp [Task.message?])
      exact ⟨_, hgrows, fun _ hmem => absurd hmem List.not_mem_nil⟩
  | queueUp t old s hold hjoins =>
      -- the message in the queue is the one that the task came with
      have hgrows : Grows e (e.queueUp t s) [] := by
        refine .moved (moved_insert rfl) rfl rfl fun m hm => .inr ⟨t, ?_⟩
        rw [hold, Option.bind_some]
        exact hjoins.outside.2 m (by simpa using hm)
      exact ⟨_, hgrows, fun _ hmem => absurd hmem List.not_mem_nil⟩
  | outcome t m hold hlock =>
      have hregular := h.regular.tasks t m (by simp [hold, Task.message?])
      obtain ⟨o, ho⟩ := eq_message_of_isRegular hregular hlock
      rw [ho, begin_message]
      exact news_record (ho ▸ hold)
  | handle t m hold ho =>
      rw [hact]
      exact news_leave h (passage?_handle hold ho)
  | visit t sweep key seen hold => exact news_visit h hold
  | keep t key hold =>
      have hgrows : Grows e (e.setTask t (.holding key)) [] := .setTask t (by simp [Task.message?])
      refine ⟨_, hgrows.trans (.note _ (.held t key)), fun ev hmem => ?_⟩
      obtain rfl := List.mem_singleton.mp hmem
      exact .routine rfl
  | finishSweep t sweep => refine ⟨_, news_finish _ ?_ ?_ ?_ t _⟩ <;> rfl
  | listen t key deadline hold =>
      unfold lookForOutcome
      dsimp only
      split
      · refine ⟨_, news_finish _ ?_ ?_ ?_ t _⟩ <;> rfl
      · exact ⟨_, news_of_eq _ rfl rfl rfl⟩
  | offer t m asset provider answer hold =>
      rw [hact]
      exact news_leave h (passage?_offer hold answer)
  | negotiation t m asset provider offer answer hold =>
      rw [hact]
      exact news_leave h (passage?_negotiation hold answer)
  | transfer t m c request answer hold =>
      rw [hact]
      exact news_leave h (passage?_transfer hold answer)
  | take key => exact ⟨_, news_of_eq _ rfl rfl rfl⟩
  | letGo t key | leaveQueue t key => exact news_drop e _ t key _
  | neverMind t key => exact ⟨_, news_finish _ rfl rfl rfl t _⟩
  | pass span => exact ⟨_, news_of_eq _ rfl rfl rfl⟩

/-- What an action writes into the history of a sound engine. -/
theorem act_news (h : Sound e) (a : Action) : ∃ evs, e.News a (e.act a) evs :=
  (e.act_step a).news h rfl

/-! ## The news of a schedule -/

/-- What holds of all that an action can write holds of all that a schedule writes. -/
theorem Sound.history_induction {P : Event → Prop}
    (hwrites : ∀ {e : Engine} {a : Action} {ev : Event}, Sound e → e.Writes a ev → P ev)
    (h : Sound e) (hstart : ∀ ev ∈ e.history, P ev) (as : List Action) :
    ∀ ev ∈ (e.after as).history, P ev := by
  refine h.after_invariant (P := fun e => ∀ ev ∈ e.history, P ev) hstart
    (fun h hbefore a ev hmem => ?_) as
  obtain ⟨evs, hnews⟩ := act_news h a
  rw [hnews.history, List.mem_append] at hmem
  rcases hmem with hnew | hold
  · exact hwrites h (hnews.writes ev hnew)
  · exact hbefore ev hold

/-- A message on its way after a schedule was on its way before or has been published. -/
theorem Sound.published_of_inMail (h : Sound e)
    (hstart : ∀ m, e.InMail m → .published m ∈ e.history) (as : List Action) :
    ∀ m, (e.after as).InMail m → .published m ∈ (e.after as).history := by
  refine h.after_invariant (P := fun e => ∀ m, e.InMail m → .published m ∈ e.history) hstart
    (fun h hbefore a m hmail => ?_) as
  obtain ⟨evs, hnews⟩ := act_news h a
  rw [hnews.history]
  rcases hnews.mail m hmail with hold | hnew
  · exact List.mem_append_right _ (hbefore m hold)
  · exact List.mem_append_left _ hnew

end Engine

end Rendezvous
