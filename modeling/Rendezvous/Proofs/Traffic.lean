import Mathlib.Algebra.GroupWithZero.Nat
import Mathlib.Data.List.Perm.Basic
import Rendezvous.Bus.Traffic
import Rendezvous.Views

/-!
# What becomes of the messages on a bus

Every message that a bus takes is handed to the handler of its channel, in the order in which the
messages were taken, and a handler that fails adds one dead letter, unless it was handling one.

* `Traffic.Step`: all that an action can amount to, one event at a time;
* `Conserved`: what holds of the messages and the calls, kept by every step;
* `Answered`: which dead letters there are, kept as long as the bus is open;
* `Conserved.length_handed_le`: when the handlers publish nothing, there are at most twice as many
  calls as messages from outside;
* `Shows.play`: a bus whose handlers finish in one step is one of these;
* `queue_drain`: it works its queue off when its handlers publish nothing;
* `hands_over_each_message_once`: all of it together.
-/

namespace Rendezvous

/-- Every channel has a handler. -/
def Bindings.Total {η : Type} (b : Bindings η) : Prop :=
  ∀ c, ∃ handler, Assoc.get? b c = some handler

theorem Bindings.total_of_complete {η : Type} {b b' : Bindings η}
    (h : Bindings.complete b = .ok b') : b'.Total := by
  intro c
  unfold complete at h
  split at h
  · cases h
  · rename_i hnone
    cases h
    have hall : ∀ c ∈ Channel.all, Assoc.contains b c = true := by
      simpa [missing?, List.find?_eq_none] using hnone
    have hmem : c ∈ Channel.all := by cases c <;> decide
    exact Option.isSome_iff_exists.mp (hall c hmem)

theorem CallEnd.deadLetter?_eq (e : CallEnd) :
    e.deadLetter? = e.error?.bind fun error =>
      if e.message.channel = .dlq then none
      else some (e.number, .fault e.message.key error.message) := by
  unfold deadLetter? Bus.faultOf
  cases e.error? with
  | none => rfl
  | some error =>
      simp only [Option.bind_some]
      split <;> rfl

/-- A dead letter is on its channel, and none is about another. -/
theorem CallEnd.channel_of_deadLetter? {e : CallEnd} {letter : Nat × Message}
    (h : e.deadLetter? = some letter) : e.message.channel ≠ .dlq ∧ letter.2.channel = .dlq := by
  obtain ⟨dead, hdead, rfl⟩ := Option.map_eq_some_iff.mp h
  obtain ⟨error, -, hfault⟩ := Option.bind_eq_some_iff.mp hdead
  unfold Bus.faultOf at hfault
  split at hfault
  · cases hfault
  · cases hfault
    exact ⟨‹_›, rfl⟩

/-- The dead letter that is sent, with the call that failed. -/
def TrafficEvent.deadLetter? {η : Type} (ev : TrafficEvent η) : Option (Nat × Message) :=
  ev.post?.bind fun p => p.1.failed?.map (·, p.2)

namespace Traffic

variable {η : Type} {b : Bindings η} {t t' : Traffic η}

/-- The dead letters that the bus has sent, each with the call that failed. -/
def deadLetters (t : Traffic η) : List (Nat × Message) :=
  t.posts.filterMap fun p => p.1.failed?.map (·, p.2)

theorem deadLetters_eq (t : Traffic η) :
    t.deadLetters = t.log.filterMap TrafficEvent.deadLetter? :=
  List.filterMap_filterMap

/-! ## What an action can be -/

/-- What can happen at once. -/
inductive Step (t : Traffic η) : Traffic η → Prop
  | idle : Step t t
  /-- The bus takes a message. -/
  | taken (s : Sender) (m : Message) (hopen : t.bus.isOpen) :
      Step t
        { t with
          bus := { t.bus with queue := t.bus.queue ++ [m] }, log := t.log ++ [.published s m] }
  | refused (s : Sender) (m : Message) (hclosed : t.bus.isOpen = false) :
      Step t { t with log := t.log ++ [.refused s m .busClosed] }
  /-- The first message goes to its handler. -/
  | handed (m : Message) (rest : List Message) (handler : η) (hqueue : t.bus.queue = m :: rest)
      (hbound : Assoc.get? t.bindings m.channel = some handler) :
      Step t
        { t with
          bus := { t.bus with queue := rest }
          calls := t.calls.insert t.nextCall m
          nextCall := t.nextCall + 1
          log := t.log ++ [.handed t.nextCall { handler, message := m }] }
  | ended (e : CallEnd) (hcall : t.calls.get? e.number = some e.message) :
      Step t { t with calls := t.calls.erase e.number, log := t.log ++ [.ended e] }
  | stop : Step t { t with bus := t.bus.close }

theorem post_of_isOpen (hopen : t.bus.isOpen) (s : Sender) (m : Message) :
    t.post s m =
      { t with
        bus := { t.bus with queue := t.bus.queue ++ [m] }, log := t.log ++ [.published s m] } := by
  simp [post, Bus.refusal?, Bus.publish, hopen, note]

theorem post_of_closed (hclosed : t.bus.isOpen = false) (s : Sender) (m : Message) :
    t.post s m = { t with log := t.log ++ [.refused s m .busClosed] } := by
  simp [post, Bus.refusal?, hclosed, note]

theorem step_post (t : Traffic η) (s : Sender) (m : Message) : t.Step (t.post s m) := by
  cases hopen : t.bus.isOpen with
  | true => exact post_of_isOpen hopen s m ▸ .taken s m hopen
  | false => exact post_of_closed hopen s m ▸ .refused s m hopen

theorem handOver_of_cons {m : Message} {rest : List Message} {handler : η}
    (hqueue : t.bus.queue = m :: rest) (hbound : Assoc.get? t.bindings m.channel = some handler) :
    t.handOver =
      { t with
        bus := { t.bus with queue := rest }
        calls := t.calls.insert t.nextCall m
        nextCall := t.nextCall + 1
        log := t.log ++ [.handed t.nextCall { handler, message := m }] } := by
  simp [handOver, hqueue, hbound, note]

theorem handed_handOver {m : Message} {rest : List Message} {handler : η}
    (hqueue : t.bus.queue = m :: rest) (hbound : Assoc.get? t.bindings m.channel = some handler) :
    t.handOver.handed = t.handed ++ [⟨handler, m⟩] := by
  have hlog : t.handOver.log = t.log ++ [.handed t.nextCall ⟨handler, m⟩] := by
    rw [handOver_of_cons hqueue hbound]
  exact view_of_concat hlog

theorem step_handOver (t : Traffic η) (htotal : t.bindings.Total) : t.Step t.handOver := by
  cases hqueue : t.bus.queue with
  | nil =>
      have hstay : t.handOver = t := by simp [handOver, hqueue]
      exact hstay.symm ▸ .idle
  | cons m rest =>
      obtain ⟨handler, hbound⟩ := htotal m.channel
      exact handOver_of_cons hqueue hbound ▸ .handed m rest handler hqueue hbound

/-- An action on a complete bus makes two steps at most: a call ends, and its dead letter comes to
the bus. -/
theorem act_step (t : Traffic η) (htotal : t.bindings.Total) (a : TrafficAction) :
    ∃ t₁, t.Step t₁ ∧ t₁.Step (t.act a) := by
  cases a with
  | publish m => exact ⟨t, .idle, t.step_post .outside m⟩
  | dispatch => exact ⟨t, .idle, t.step_handOver htotal⟩
  | send n m =>
      refine ⟨t, .idle, ?_⟩
      show t.Step (if t.calls.contains n then t.post (.handler n) m else t)
      split
      · exact t.step_post _ m
      · exact .idle
  | finish n error? =>
      cases hcall : t.calls.get? n with
      | none =>
          have hact : t.act (.finish n error?) = t := by simp [act, hcall]
          refine ⟨t, .idle, ?_⟩
          rw [hact]
          exact .idle
      | some m =>
          have hended := Step.ended (t := t) { number := n, message := m, error? } hcall
          refine ⟨_, hended, ?_⟩
          simp only [act, hcall, conclude]
          split
          · exact .idle
          · exact step_post _ _ _
  | stop => exact ⟨t, .idle, .stop⟩

theorem Step.bindings (hs : t.Step t') : t'.bindings = t.bindings := by
  cases hs <;> rfl

/-! ## Messages and calls -/

/-- What holds of the messages and the calls after every schedule. -/
structure Conserved (t : Traffic η) : Prop where
  /-- The numbers of calls to come are free. -/
  fresh : ∀ n, t.nextCall ≤ n → t.calls.get? n = none
  /-- The messages handed over and those in the queue are the messages taken, in the same order;
  only a bus that stops loses any. -/
  conveyed : ∃ lost, t.handed.map HandlerCall.message ++ t.bus.queue ++ lost =
    t.posts.map Prod.snd ∧ (t.bus.isOpen → lost = [])
  /-- A message is handed to the handler bound to its channel. -/
  bound : ∀ c ∈ t.handed, Assoc.get? t.bindings c.message.channel = some c.handler
  /-- A call is under way until it ends. -/
  ended : (t.ends.map CallEnd.message ++ t.calls.values).Perm (t.handed.map HandlerCall.message)
  /-- Nothing waits on a closed bus. -/
  closed : t.bus.isOpen = false → t.bus.queue = []
  /-- Only a closed bus refuses messages. -/
  refused : ∀ s m error, .refused s m error ∈ t.log → t.bus.isOpen = false ∧ error = .busClosed

theorem conserved_new (b : Bindings η) : Conserved { bindings := b } where
  fresh n _ := rfl
  conveyed := ⟨[], rfl, fun _ => rfl⟩
  bound c hmem := by cases hmem
  ended := .nil
  closed h := by cases h
  refused s m error hmem := by cases hmem

/-- A call that begins is under way. -/
theorem Conserved.values_insert (h : Conserved t) (m : Message) :
    (t.calls.insert t.nextCall m).values.Perm (m :: t.calls.values) := by
  have hold := t.calls.values_perm_erase t.nextCall
  rw [h.fresh _ (Nat.le_refl _)] at hold
  exact (t.calls.values_perm_insert t.nextCall m).trans (hold.symm.cons m)

theorem Conserved.step (h : Conserved t) (hs : t.Step t') : Conserved t' := by
  obtain ⟨lost, hlost, hnone⟩ := h.conveyed
  have hviews : ∀ ev, t'.log = t.log ++ [ev] → t'.posts = t.posts ++ ev.post?.toList ∧
      t'.handed = t.handed ++ ev.handed?.toList ∧ t'.ends = t.ends ++ ev.ended?.toList :=
    fun ev hlog => ⟨view_of_concat hlog, view_of_concat hlog, view_of_concat hlog⟩
  cases hs with
  | idle => exact h
  | taken s m hopen =>
      obtain ⟨hposts, hhanded, hends⟩ := hviews _ rfl
      rw [hnone hopen, List.append_nil] at hlost
      constructor
      case fresh => exact h.fresh
      case conveyed =>
        refine ⟨[], ?_, fun _ => rfl⟩
        rw [hhanded, hposts]
        simp [TrafficEvent.handed?, TrafficEvent.post?, ← hlost]
      case bound => simpa [hhanded, TrafficEvent.handed?] using h.bound
      case ended => simpa [hhanded, hends, TrafficEvent.handed?, TrafficEvent.ended?] using h.ended
      case closed =>
        intro hclosed
        rw [hopen] at hclosed
        cases hclosed
      case refused => exact fun s' m' error hmem => h.refused s' m' error (by simpa using hmem)
  | refused s m hclosed =>
      obtain ⟨hposts, hhanded, hends⟩ := hviews _ rfl
      constructor
      case fresh => exact h.fresh
      case conveyed =>
        refine ⟨lost, ?_, hnone⟩
        simpa [hhanded, hposts, TrafficEvent.handed?, TrafficEvent.post?] using hlost
      case bound => simpa [hhanded, TrafficEvent.handed?] using h.bound
      case ended => simpa [hhanded, hends, TrafficEvent.handed?, TrafficEvent.ended?] using h.ended
      case closed => exact h.closed
      case refused =>
        intro s' m' error hmem
        rcases List.mem_append.mp hmem with hold | hnew
        · exact h.refused s' m' error hold
        · cases List.mem_singleton.mp hnew
          exact ⟨hclosed, rfl⟩
  | handed m rest handler hqueue hbound =>
      obtain ⟨hposts, hhanded, hends⟩ := hviews _ rfl
      constructor
      case fresh =>
        intro n hn
        have hn : t.nextCall + 1 ≤ n := hn
        show (t.calls.insert t.nextCall m).get? n = none
        rw [Assoc.get?_insert, if_neg (by omega)]
        exact h.fresh n (by omega)
      case conveyed =>
        refine ⟨lost, ?_, hnone⟩
        rw [hqueue] at hlost
        simpa [hhanded, hposts, TrafficEvent.handed?, TrafficEvent.post?] using hlost
      case bound =>
        intro c hmem
        rw [hhanded] at hmem
        rcases List.mem_append.mp hmem with hold | hnew
        · exact h.bound c hold
        · cases List.mem_singleton.mp hnew
          exact hbound
      case ended =>
        have hlist : (t.ends.map CallEnd.message ++ (t.calls.insert t.nextCall m).values).Perm
            (t.handed.map HandlerCall.message ++ [m]) :=
          ((h.values_insert m).append_left _).trans
            (List.perm_middle.trans ((h.ended.cons m).trans (List.perm_append_singleton m _).symm))
        simpa [hhanded, hends, TrafficEvent.handed?, TrafficEvent.ended?] using hlist
      case closed =>
        intro hclosed
        have hempty := h.closed hclosed
        rw [hqueue] at hempty
        cases hempty
      case refused => exact fun s m' error hmem => h.refused s m' error (by simpa using hmem)
  | ended e hcall =>
      obtain ⟨hposts, hhanded, hends⟩ := hviews _ rfl
      constructor
      case fresh =>
        intro n hn
        show (t.calls.erase e.number).get? n = none
        rw [Assoc.get?_erase, h.fresh n hn, ite_self]
      case conveyed =>
        refine ⟨lost, ?_, hnone⟩
        simpa [hhanded, hposts, TrafficEvent.handed?, TrafficEvent.post?] using hlost
      case bound => simpa [hhanded, TrafficEvent.handed?] using h.bound
      case ended =>
        have hvalues := t.calls.values_perm_erase e.number
        rw [hcall] at hvalues
        have hlist := (hvalues.append_left (t.ends.map CallEnd.message)).symm.trans h.ended
        simpa [hhanded, hends, TrafficEvent.handed?, TrafficEvent.ended?] using hlist
      case closed => exact h.closed
      case refused => exact fun s m' error hmem => h.refused s m' error (by simpa using hmem)
  | stop =>
      constructor
      case fresh => exact h.fresh
      case conveyed =>
        refine ⟨t.bus.queue ++ lost, ?_, fun hopen => by cases hopen⟩
        show t.handed.map _ ++ [] ++ (t.bus.queue ++ lost) = t.posts.map _
        simpa using hlost
      case bound => exact h.bound
      case ended => exact h.ended
      case closed => exact fun _ => rfl
      case refused => exact fun s m error hmem => ⟨rfl, (h.refused s m error hmem).2⟩

/-- The messages and the calls are conserved by every schedule of a complete bus. -/
theorem Conserved.after (h : Conserved t) (htotal : t.bindings.Total) (as : List TrafficAction) :
    Conserved (t.after as) ∧ (t.after as).bindings = t.bindings := by
  induction as generalizing t with
  | nil => exact ⟨h, rfl⟩
  | cons a as ih =>
      obtain ⟨t₁, hs₁, hs₂⟩ := t.act_step htotal a
      have hbindings : (t.act a).bindings = t.bindings := hs₂.bindings.trans hs₁.bindings
      obtain ⟨hafter, hsame⟩ := ih ((h.step hs₁).step hs₂) (by rwa [hbindings])
      exact ⟨hafter, hsame.trans hbindings⟩

/-! ## When the bus has stopped -/

/-- A closed bus stays closed: it takes no message, and no call begins. -/
theorem Conserved.step_of_closed (h : Conserved t) (hclosed : t.bus.isOpen = false)
    (hs : t.Step t') :
    t'.bus.isOpen = false ∧ ∃ new, t'.log = t.log ++ new ∧ ∀ ev ∈ new, ev.IsAfterwards := by
  cases hs with
  | idle => exact ⟨hclosed, [], by simp, by simp⟩
  | taken s m hopen =>
      rw [hopen] at hclosed
      cases hclosed
  | refused s m => exact ⟨hclosed, _, rfl, by simp [TrafficEvent.IsAfterwards]⟩
  | handed m rest handler hqueue =>
      rw [h.closed hclosed] at hqueue
      cases hqueue
  | ended e => exact ⟨hclosed, _, rfl, by simp [TrafficEvent.IsAfterwards]⟩
  | stop => exact ⟨rfl, [], by simp, by simp⟩

theorem Conserved.after_of_closed (h : Conserved t) (htotal : t.bindings.Total)
    (hclosed : t.bus.isOpen = false) (as : List TrafficAction) :
    (t.after as).bus.isOpen = false ∧
      ∃ new, (t.after as).log = t.log ++ new ∧ ∀ ev ∈ new, ev.IsAfterwards := by
  induction as generalizing t with
  | nil => exact ⟨hclosed, [], (List.append_nil _).symm, by simp⟩
  | cons a as ih =>
      obtain ⟨t₁, hs₁, hs₂⟩ := t.act_step htotal a
      have hbindings : (t.act a).bindings = t.bindings := hs₂.bindings.trans hs₁.bindings
      obtain ⟨hclosed₁, new₁, hlog₁, hnew₁⟩ := h.step_of_closed hclosed hs₁
      obtain ⟨hclosed₂, new₂, hlog₂, hnew₂⟩ := (h.step hs₁).step_of_closed hclosed₁ hs₂
      obtain ⟨hclosed₃, new₃, hlog₃, hnew₃⟩ :=
        ih ((h.step hs₁).step hs₂) (by rwa [hbindings]) hclosed₂
      refine ⟨hclosed₃, new₁ ++ new₂ ++ new₃, ?_, fun ev hmem => ?_⟩
      · show ((t.act a).after as).log = _
        rw [hlog₃, hlog₂, hlog₁]
        simp only [List.append_assoc]
      · rcases List.mem_append.mp hmem with hmem | hmem
        · exact (List.mem_append.mp hmem).elim (hnew₁ ev) (hnew₂ ev)
        · exact hnew₃ ev hmem

/-! ## Dead letters -/

/-- The dead letters are those that the ends of calls have called for, in the same order; only a bus
that stops leaves any out. -/
def Answered (t : Traffic η) : Prop :=
  ∃ missed, t.deadLetters ++ missed = t.ends.filterMap CallEnd.deadLetter? ∧
    (t.bus.isOpen → missed = [])

theorem answered_new (b : Bindings η) : Answered { bindings := b } := ⟨[], rfl, fun _ => rfl⟩

/-- The dead letters left out are the last ones called for, so the books go on agreeing as long as
none is sent after one was left out. -/
theorem Answered.grow (h : Answered t) {news : List (TrafficEvent η)}
    (hlog : t'.log = t.log ++ news) (missed : List (Nat × Message))
    (hnews : news.filterMap TrafficEvent.deadLetter? ++ missed =
      (news.filterMap TrafficEvent.ended?).filterMap CallEnd.deadLetter?)
    (hclosed : t.bus.isOpen = false → news.filterMap TrafficEvent.deadLetter? = [])
    (hopen : t'.bus.isOpen → t.bus.isOpen ∧ missed = []) : Answered t' := by
  obtain ⟨before, hbefore, hnone⟩ := h
  have hletters : t'.deadLetters = t.deadLetters ++ news.filterMap TrafficEvent.deadLetter? := by
    rw [deadLetters_eq, deadLetters_eq, view_of_append hlog]
  have hends : t'.ends = t.ends ++ news.filterMap TrafficEvent.ended? := view_of_append hlog
  refine ⟨before ++ missed, ?_, fun hopen' => ?_⟩
  · rw [hletters, hends, List.filterMap_append, ← hbefore, ← hnews]
    cases hbus : t.bus.isOpen with
    | true => simp [hnone hbus]
    | false => simp [hclosed hbus]
  · obtain ⟨hwas, rfl⟩ := hopen hopen'
    rw [hnone hwas, List.append_nil]

theorem Answered.post (h : Answered t) {s : Sender} (hs : s.failed? = none) (m : Message) :
    Answered (t.post s m) := by
  cases hopen : t.bus.isOpen with
  | true =>
      have hletter : (TrafficEvent.published s m : TrafficEvent η).deadLetter? = none := by
        simp [TrafficEvent.deadLetter?, TrafficEvent.post?, hs]
      have hletters : [TrafficEvent.published s m].filterMap
          (TrafficEvent.deadLetter? (η := η)) = [] := List.filterMap_cons_none hletter
      rw [post_of_isOpen hopen]
      exact h.grow rfl [] (by rw [hletters]; rfl) (fun _ => hletters) fun _ => ⟨hopen, rfl⟩
  | false =>
      rw [post_of_closed hopen]
      exact h.grow rfl [] rfl (fun _ => rfl) fun hopen' => ⟨hopen', rfl⟩

/-- A call that fails is answered by one dead letter, if it calls for any. -/
theorem Answered.conclude (h : Answered t) (n : Nat) (m : Message) (error? : Option EngineError) :
    Answered (t.conclude n m error?) := by
  let e : CallEnd := { number := n, message := m, error? }
  let t₁ : Traffic η := { t with calls := t.calls.erase n, log := t.log ++ [.ended e] }
  cases hdead : error?.bind (Bus.faultOf m) with
  | none =>
      have hletter : e.deadLetter? = none := by simp [e, CallEnd.deadLetter?, hdead]
      have hconclude : t.conclude n m error? = t₁ := by simp [Traffic.conclude, hdead, note, t₁, e]
      have hnews : [e].filterMap CallEnd.deadLetter? = [] := List.filterMap_cons_none hletter
      rw [hconclude]
      exact h.grow rfl [] hnews.symm (fun _ => rfl) fun hopen => ⟨hopen, rfl⟩
  | some dead =>
      have hletter : e.deadLetter? = some (n, dead) := by simp [e, CallEnd.deadLetter?, hdead]
      have hconclude : t.conclude n m error? = t₁.post (.bus n) dead := by
        simp [Traffic.conclude, hdead, note, t₁, e]
      have hnews : [e].filterMap CallEnd.deadLetter? = [(n, dead)] :=
        List.filterMap_cons_some hletter
      rw [hconclude]
      cases hopen : t.bus.isOpen with
      | true =>
          have hlog : (t₁.post (.bus n) dead).log =
              t.log ++ [.ended e, .published (.bus n) dead] := by
            rw [post_of_isOpen (t := t₁) hopen]
            exact List.append_assoc _ _ _
          refine h.grow hlog [] hnews.symm (fun hclosed => ?_) fun _ => ⟨hopen, rfl⟩
          rw [hopen] at hclosed
          cases hclosed
      | false =>
          have hlog : (t₁.post (.bus n) dead).log =
              t.log ++ [.ended e, .refused (.bus n) dead .busClosed] := by
            rw [post_of_closed (t := t₁) hopen]
            exact List.append_assoc _ _ _
          refine h.grow hlog [(n, dead)] hnews.symm (fun _ => rfl) fun hopen' => ?_
          rw [post_of_closed (t := t₁) hopen] at hopen'
          exact absurd (hopen.symm.trans hopen') Bool.false_ne_true

theorem Answered.act (h : Answered t) (a : TrafficAction) : Answered (t.act a) := by
  cases a with
  | publish m => exact h.post rfl m
  | dispatch =>
      simp only [Traffic.act, handOver]
      split
      · exact h
      · split
        · exact h
        · exact h.grow rfl [] rfl (fun _ => rfl) fun hopen => ⟨hopen, rfl⟩
  | send n m =>
      simp only [Traffic.act]
      split
      · exact h.post rfl m
      · exact h
  | finish n error? =>
      simp only [Traffic.act]
      split
      · exact h.conclude n _ error?
      · exact h
  | stop =>
      obtain ⟨missed, hmissed, -⟩ := h
      exact ⟨missed, hmissed, fun hopen => by cases hopen⟩

theorem Answered.after (h : Answered t) (as : List TrafficAction) : Answered (t.after as) := by
  induction as generalizing t with
  | nil => exact h
  | cons a as ih => exact ih (h.act a)

/-- A dead letter is on its channel. -/
theorem Answered.channel (h : Answered t) {p : Sender × Message} (hmem : p ∈ t.posts)
    (hp : p.1.failed?.isSome) : p.2.channel = .dlq := by
  obtain ⟨missed, hmissed, -⟩ := h
  obtain ⟨n, hn⟩ := Option.isSome_iff_exists.mp hp
  have hletter : (n, p.2) ∈ t.deadLetters := List.mem_filterMap.mpr ⟨p, hmem, by simp [hn]⟩
  have hcalled : (n, p.2) ∈ t.ends.filterMap CallEnd.deadLetter? := by
    rw [← hmissed]
    exact List.mem_append_left _ hletter
  obtain ⟨e, -, he⟩ := List.mem_filterMap.mp hcalled
  exact (CallEnd.channel_of_deadLetter? he).2

/-- Dead letters answer calls about other messages, and every such message comes from outside if the
handlers publish nothing. -/
theorem Conserved.length_deadLetters_le (h : Conserved t) (ha : Answered t)
    (hsilent : ∀ p ∈ t.posts, p.1.isHandler = false) :
    t.deadLetters.length ≤ t.posts.countP (·.1 = .outside) := by
  have hcalls : t.deadLetters.length ≤ t.ends.countP (·.message.channel ≠ .dlq) := by
    obtain ⟨missed, hmissed, -⟩ := ha
    have hlength := congrArg List.length hmissed
    rw [List.length_append, List.length_filterMap_eq_countP] at hlength
    refine Nat.le_trans (Nat.le_of_add_right_le (Nat.le_of_eq hlength)) ?_
    refine List.countP_mono_left fun e _ he => ?_
    obtain ⟨letter, hletter⟩ := Option.isSome_iff_exists.mp he
    simpa using (CallEnd.channel_of_deadLetter? hletter).1
  have hbegan : t.ends.countP (·.message.channel ≠ .dlq) ≤
      t.handed.countP (·.message.channel ≠ .dlq) := by
    have hperm := h.ended.countP_eq (fun m : Message => decide (m.channel ≠ .dlq))
    rw [List.countP_append, List.countP_map, List.countP_map] at hperm
    exact Nat.le_of_add_right_le (Nat.le_of_eq hperm)
  have htaken : t.handed.countP (·.message.channel ≠ .dlq) ≤
      t.posts.countP (·.2.channel ≠ .dlq) := by
    obtain ⟨lost, hlost, -⟩ := h.conveyed
    have hcount := congrArg (List.countP fun m : Message => decide (m.channel ≠ .dlq)) hlost
    rw [List.append_assoc, List.countP_append, List.countP_map, List.countP_map] at hcount
    exact Nat.le_of_add_right_le (Nat.le_of_eq hcount)
  have houtside : t.posts.countP (·.2.channel ≠ .dlq) ≤ t.posts.countP (·.1 = .outside) := by
    refine List.countP_mono_left fun p hmem hchannel => ?_
    have hhandler := hsilent p hmem
    cases hsender : p.1 with
    | outside => rfl
    | handler n => simp [hsender, Sender.isHandler] at hhandler
    | bus n =>
        have hdlq := ha.channel hmem (by simp [hsender, Sender.failed?])
        simp [hdlq] at hchannel
  omega

/-- When the handlers publish nothing there are at most twice as many calls as messages from
outside.
-/
theorem Conserved.length_handed_le (h : Conserved t) (ha : Answered t)
    (hsilent : ∀ p ∈ t.posts, p.1.isHandler = false) :
    t.handed.length ≤ 2 * t.posts.countP (·.1 = .outside) := by
  have hletters := h.length_deadLetters_le ha hsilent
  have htaken : t.handed.length ≤ t.posts.length := by
    obtain ⟨lost, hlost, -⟩ := h.conveyed
    have hlength := congrArg List.length hlost
    simp only [List.length_append, List.length_map] at hlength
    omega
  have hsenders : t.posts.length ≤ t.posts.countP (·.1 = .outside) + t.deadLetters.length := by
    have hothers : t.posts.countP (fun p => ¬decide (p.1 = .outside)) ≤ t.deadLetters.length := by
      unfold deadLetters
      rw [List.length_filterMap_eq_countP]
      refine List.countP_mono_left fun p hmem hp => ?_
      have hhandler := hsilent p hmem
      cases hsender : p.1 with
      | outside => simp [hsender] at hp
      | handler n => simp [hsender, Sender.isHandler] at hhandler
      | bus n => rfl
    have hsplit := List.length_eq_countP_add_countP (fun p => decide (p.1 = Sender.outside))
      (l := t.posts)
    omega
  omega

end Traffic

/-! ## Handlers that finish in one step -/

namespace Dispatcher

variable {σ : Type} {d : Dispatcher σ}

theorem step_of_empty (h : d.bus.queue = []) : d.step = d := by
  simp [step, h]

theorem step_of_cons {m : Message} {rest : List Message} {handler : Handler σ}
    (hqueue : d.bus.queue = m :: rest) (hbound : Assoc.get? d.bindings m.channel = some handler) :
    d.step =
      { d with
        state := (handler d.state m).1
        bus := ((handler d.state m).2.1 ++
          ((handler d.state m).2.2.bind (Bus.faultOf m)).toList).foldl Bus.publish
            { queue := rest, isOpen := d.bus.isOpen } } := by
  simp [step, hqueue, hbound]

theorem actions_of_empty (h : d.bus.queue = []) (n : Nat) : d.actions n = [] := by
  simp [actions, h]

theorem actions_of_cons {m : Message} {rest : List Message} {handler : Handler σ}
    (hqueue : d.bus.queue = m :: rest) (hbound : Assoc.get? d.bindings m.channel = some handler)
    (n : Nat) :
    d.actions n =
      .dispatch :: (handler d.state m).2.1.map (.send n) ++
        [.finish n (handler d.state m).2.2] := by
  simp [actions, hqueue, hbound]

/-- Steps are moves. -/
theorem steps_eq_play (n : Nat) (d : Dispatcher σ) :
    steps n d = d.play (List.replicate n .step) := by
  induction n generalizing d with
  | zero => rfl
  | succ n ih =>
      show (if d.bus.queue.isEmpty then d else steps n d.step) =
        d.step.play (List.replicate n .step)
      split
      · rename_i hempty
        have hstay := step_of_empty (List.isEmpty_iff.mp hempty)
        rw [hstay, ← ih]
        cases n <;> simp [steps, hempty]
      · exact ih d.step

/-! ### The queue is worked off -/

/-- How many messages can come of a message if the handlers publish nothing: a dead letter comes of
every message but a dead letter. -/
def weight (m : Message) : Nat := if m.channel = .dlq then 1 else 2

theorem weight_le (m : Message) : weight m ≤ 2 := by
  unfold weight
  split <;> omega

theorem weight_pos (m : Message) : 0 < weight m := by
  unfold weight
  split <;> omega

/-- The messages that can come of those in the queue. -/
def load (d : Dispatcher σ) : Nat := (d.bus.queue.map weight).sum

theorem load_le (d : Dispatcher σ) : d.load ≤ 2 * d.bus.queue.length := by
  unfold load
  induction d.bus.queue with
  | nil => exact Nat.le_refl _
  | cons m rest ih =>
      have hfirst := weight_le m
      simp only [List.map_cons, List.sum_cons, List.length_cons]
      omega

theorem load_publish (d : Dispatcher σ) (m : Message) :
    (d.move (.publish m)).load ≤ d.load + 2 := by
  have hfirst := weight_le m
  show ((d.bus.publish m).queue.map weight).sum ≤ (d.bus.queue.map weight).sum + 2
  unfold Bus.publish
  split
  · simp only [List.map_append, List.sum_append, List.map_cons, List.map_nil, List.sum_cons,
      List.sum_nil]
    omega
  · omega

theorem load_publish_faultOf (rest : List Message) (isOpen : Bool) {m dead : Message}
    {error : EngineError} (hdead : Bus.faultOf m error = some dead) :
    ((Bus.publish { queue := rest, isOpen } dead).queue.map weight).sum <
      (rest.map weight).sum + weight m := by
  unfold Bus.faultOf at hdead
  split at hdead
  · cases hdead
  · rename_i hchannel
    cases hdead
    have hm : weight m = 2 := if_neg hchannel
    have hfault : weight (.fault m.key error.message) = 1 := if_pos rfl
    cases isOpen with
    | true =>
        simp only [Bus.publish, if_true, List.map_append, List.sum_append, List.map_cons,
          List.map_nil, List.sum_cons, List.sum_nil]
        omega
    | false =>
        show (rest.map weight).sum < (rest.map weight).sum + weight m
        omega

/-- A step that handles a message lowers the load. -/
theorem load_step (htotal : d.bindings.Total) (hsilent : Silent d.bindings)
    (hwaits : d.bus.queue ≠ []) : d.step.load < d.load := by
  obtain ⟨m, rest, hqueue⟩ := List.exists_cons_of_ne_nil hwaits
  obtain ⟨handler, hbound⟩ := htotal m.channel
  have hload : d.load = weight m + (rest.map weight).sum := by simp [load, hqueue]
  have hnothing := hsilent _ _ hbound d.state m
  rw [step_of_cons hqueue hbound, hnothing, List.nil_append]
  cases hdead : (handler d.state m).2.2.bind (Bus.faultOf m) with
  | none =>
      have hpositive := weight_pos m
      simp only [load, Option.toList_none, List.foldl_nil] at hload ⊢
      omega
  | some dead =>
      obtain ⟨error, -, hfault⟩ := Option.bind_eq_some_iff.mp hdead
      have hless := load_publish_faultOf rest d.bus.isOpen hfault
      simp only [load, Option.toList_some, List.foldl_cons, List.foldl_nil] at hload ⊢
      omega

theorem bindings_step (htotal : d.bindings.Total) :
    d.step.bindings = d.bindings := by
  cases hqueue : d.bus.queue with
  | nil => rw [step_of_empty hqueue]
  | cons m rest =>
      obtain ⟨handler, hbound⟩ := htotal m.channel
      rw [step_of_cons hqueue hbound]

/-- The queue is empty after as many steps as there is load. -/
theorem queue_steps (htotal : d.bindings.Total) (hsilent : Silent d.bindings) {n : Nat}
    (hn : d.load ≤ n) : (steps n d).bus.queue = [] := by
  induction n generalizing d with
  | zero =>
      by_contra hwaits
      have hless := load_step htotal hsilent hwaits
      omega
  | succ n ih =>
      show (if d.bus.queue.isEmpty then d else steps n d.step).bus.queue = []
      split
      · exact List.isEmpty_iff.mp ‹_›
      · rename_i hwaits
        have hless := load_step htotal hsilent (by simpa using hwaits)
        have hsame := bindings_step htotal
        exact ih (by rwa [hsame]) (by rwa [hsame]) (by omega)

theorem queue_drain (htotal : d.bindings.Total) (hsilent : Silent d.bindings) :
    d.drain.bus.queue = [] :=
  queue_steps htotal hsilent d.load_le

end Dispatcher

/-! ### Moves are schedules -/

namespace Traffic

variable {σ : Type} {s₀ : σ} {t : Traffic (Handler σ)} {d : Dispatcher σ}

/-- The bus and the handlers are where the moves have taken them; every call has ended. -/
structure Shows (s₀ : σ) (t : Traffic (Handler σ)) (d : Dispatcher σ) : Prop where
  bindings : t.bindings = d.bindings
  bus : t.bus = d.bus
  /-- The state is what the handlers make of it when they are handed the messages in turn. -/
  state : d.state = t.handed.foldl (fun s c => (c.handler s c.message).1) s₀
  idle : ∀ n, t.calls.get? n = none

/-- Of all parts of a bus, posting touches the queue and the log alone. -/
theorem post_frame {η : Type} (t : Traffic η) (s : Sender) (m : Message) :
    (t.post s m).bindings = t.bindings ∧ (t.post s m).bus = t.bus.publish m ∧
    (t.post s m).calls = t.calls ∧ (t.post s m).nextCall = t.nextCall ∧
    (t.post s m).handed = t.handed := by
  cases hopen : t.bus.isOpen with
  | true =>
      rw [post_of_isOpen hopen]
      exact ⟨rfl, by simp [Bus.publish, hopen], rfl, rfl, by simp [handed, TrafficEvent.handed?]⟩
  | false =>
      rw [post_of_closed hopen]
      exact ⟨rfl, by simp [Bus.publish, hopen], rfl, rfl, by simp [handed, TrafficEvent.handed?]⟩

theorem after_append {η : Type} (t : Traffic η) (as bs : List TrafficAction) :
    t.after (as ++ bs) = (t.after as).after bs :=
  List.foldl_append

/-- What comes of the messages that a handler publishes. -/
theorem after_send {η : Type} {t : Traffic η} {n : Nat} {m : Message}
    (hcall : t.calls.get? n = some m) (ms : List Message) :
    let t' := t.after (ms.map (.send n))
    t'.bindings = t.bindings ∧ t'.bus = ms.foldl Bus.publish t.bus ∧ t'.calls = t.calls ∧
      t'.nextCall = t.nextCall ∧ t'.handed = t.handed := by
  induction ms generalizing t with
  | nil => exact ⟨rfl, rfl, rfl, rfl, rfl⟩
  | cons first ms ih =>
      obtain ⟨hbindings, hbus, hcalls, hnext, hhanded⟩ := t.post_frame (.handler n) first
      have hact : t.act (.send n first) = t.post (.handler n) first := by
        simp [act, Assoc.contains, hcall]
      have hafter : t.after ((first :: ms).map (.send n)) =
          (t.post (.handler n) first).after (ms.map (.send n)) := by
        rw [List.map_cons, after, List.foldl_cons, hact, after]
      obtain ⟨hbindings', hbus', hcalls', hnext', hhanded'⟩ :=
        ih (t := t.post (.handler n) first) (by rw [hcalls]; exact hcall)
      rw [hafter]
      exact ⟨hbindings'.trans hbindings, by rw [hbus', hbus]; rfl, hcalls'.trans hcalls,
        hnext'.trans hnext, hhanded'.trans hhanded⟩

theorem conclude_frame {η : Type} (t : Traffic η) (n : Nat) (m : Message)
    (error? : Option EngineError) :
    (t.conclude n m error?).bindings = t.bindings ∧
    (t.conclude n m error?).bus = (error?.bind (Bus.faultOf m)).toList.foldl Bus.publish t.bus ∧
    (t.conclude n m error?).calls = t.calls.erase n ∧
    (t.conclude n m error?).nextCall = t.nextCall ∧
    (t.conclude n m error?).handed = t.handed := by
  have hended : (({ t with calls := t.calls.erase n } : Traffic η).note
      (.ended { number := n, message := m, error? })).handed = t.handed := by
    simp [handed, note, TrafficEvent.handed?]
  unfold conclude
  cases error?.bind (Bus.faultOf m) with
  | none => exact ⟨rfl, rfl, rfl, rfl, hended⟩
  | some dead =>
      obtain ⟨hbindings, hbus, hcalls, hnext, hhanded⟩ := post_frame
        (({ t with calls := t.calls.erase n } : Traffic η).note
          (.ended { number := n, message := m, error? })) (.bus n) dead
      exact ⟨hbindings, hbus, hcalls, hnext, hhanded.trans hended⟩

/-- A call from its beginning to its end, with nothing in between but what its handler does. -/
theorem after_call {η : Type} {t : Traffic η} {m : Message} {rest : List Message} {handler : η}
    (hqueue : t.bus.queue = m :: rest) (hbound : Assoc.get? t.bindings m.channel = some handler)
    (published : List Message) (error? : Option EngineError) :
    let t' := t.after
      (.dispatch :: published.map (.send t.nextCall) ++ [.finish t.nextCall error?])
    t'.bindings = t.bindings ∧
      t'.bus = (published ++ (error?.bind (Bus.faultOf m)).toList).foldl Bus.publish
        { queue := rest, isOpen := t.bus.isOpen } ∧
      t'.calls = (t.calls.insert t.nextCall m).erase t.nextCall ∧
      t'.nextCall = t.nextCall + 1 ∧ t'.handed = t.handed ++ [⟨handler, m⟩] := by
  have hcall : t.handOver.calls.get? t.nextCall = some m := by
    simp [handOver_of_cons hqueue hbound]
  obtain ⟨hbindings₁, hbus₁, hcalls₁, hnext₁, hhanded₁⟩ := after_send hcall published
  let t₁ := t.handOver.after (published.map (.send t.nextCall))
  obtain ⟨hbindings₂, hbus₂, hcalls₂, hnext₂, hhanded₂⟩ := t₁.conclude_frame t.nextCall m error?
  have hafter : t.after
      (.dispatch :: published.map (.send t.nextCall) ++ [.finish t.nextCall error?]) =
        t₁.conclude t.nextCall m error? := by
    rw [after_append]
    show t₁.act (.finish t.nextCall error?) = _
    have hcall₁ : t₁.calls.get? t.nextCall = some m := hcalls₁.symm ▸ hcall
    simp only [act, hcall₁]
  rw [hafter]
  refine ⟨?_, ?_, ?_, ?_, ?_⟩
  · rw [hbindings₂, hbindings₁, handOver_of_cons hqueue hbound]
  · rw [hbus₂, hbus₁, handOver_of_cons hqueue hbound, List.foldl_append]
  · rw [hcalls₂, hcalls₁, handOver_of_cons hqueue hbound]
  · rw [hnext₂, hnext₁, handOver_of_cons hqueue hbound]
  · rw [hhanded₂, hhanded₁, handed_handOver hqueue hbound]

/-- A step is a call from its beginning to its end. -/
theorem Shows.step (h : Shows s₀ t d) (htotal : d.bindings.Total) :
    Shows s₀ (t.after (d.actions t.nextCall)) d.step ∧
      (t.after (d.actions t.nextCall)).nextCall =
        if d.bus.queue.isEmpty then t.nextCall else t.nextCall + 1 := by
  cases hqueue : d.bus.queue with
  | nil =>
      rw [Dispatcher.actions_of_empty hqueue, Dispatcher.step_of_empty hqueue]
      exact ⟨h, rfl⟩
  | cons m rest =>
      obtain ⟨handler, hbound⟩ := htotal m.channel
      obtain ⟨hbindings, hbus, hcalls, hnext, hhanded⟩ :=
        after_call (t := t) (h.bus ▸ hqueue) (h.bindings ▸ hbound) (handler d.state m).2.1
          (handler d.state m).2.2
      rw [Dispatcher.actions_of_cons hqueue hbound, Dispatcher.step_of_cons hqueue hbound]
      refine ⟨⟨hbindings.trans h.bindings, ?_, ?_, ?_⟩, hnext⟩
      · rw [hbus, h.bus]
      · show (handler d.state m).1 = _
        rw [hhanded, List.foldl_append, ← h.state]
        rfl
      · intro n
        rw [hcalls, Assoc.get?_erase]
        split
        · rfl
        · rename_i hother
          rw [Assoc.get?_insert, if_neg (Ne.symm hother)]
          exact h.idle n

/-- If the handlers publish nothing, every call of a step is paid for by the load. -/
theorem Shows.length_handed_step (h : Shows s₀ t d) (htotal : d.bindings.Total)
    (hsilent : Dispatcher.Silent d.bindings) :
    (t.after (d.actions t.nextCall)).handed.length + d.step.load ≤ t.handed.length + d.load := by
  cases hqueue : d.bus.queue with
  | nil =>
      rw [Dispatcher.actions_of_empty hqueue, Dispatcher.step_of_empty hqueue]
      exact Nat.le_refl _
  | cons m rest =>
      have hless := Dispatcher.load_step htotal hsilent (by simp [hqueue])
      obtain ⟨handler, hbound⟩ := htotal m.channel
      obtain ⟨-, -, -, -, hhanded⟩ :=
        after_call (t := t) (h.bus ▸ hqueue) (h.bindings ▸ hbound) (handler d.state m).2.1
          (handler d.state m).2.2
      rw [Dispatcher.actions_of_cons hqueue hbound, hhanded, List.length_append,
        List.length_singleton]
      omega

theorem Shows.publish (h : Shows s₀ t d) (m : Message) :
    Shows s₀ (t.act (.publish m)) (d.move (.publish m)) ∧
      (t.act (.publish m)).nextCall = t.nextCall ∧ (t.act (.publish m)).handed = t.handed := by
  obtain ⟨hbindings, hbus, hcalls, hnext, hhanded⟩ := t.post_frame .outside m
  refine ⟨⟨hbindings.trans h.bindings, ?_, ?_, ?_⟩, hnext, hhanded⟩
  · exact hbus.trans (congrArg (Bus.publish · m) h.bus)
  · show d.state = _
    rw [act, hhanded]
    exact h.state
  · intro n
    rw [act, hcalls]
    exact h.idle n

/-- The moves are a schedule.  If the handlers publish nothing, there are at most two calls for each
message from outside. -/
theorem Shows.play (h : Shows s₀ t d) (htotal : d.bindings.Total)
    (moves : List Dispatcher.Move) :
    Shows s₀ (t.after (d.schedule t.nextCall moves)) (d.play moves) ∧
      (d.play moves).bindings = d.bindings ∧
      (Dispatcher.Silent d.bindings →
        (t.after (d.schedule t.nextCall moves)).handed.length + (d.play moves).load ≤
          t.handed.length + d.load + 2 * (moves.filterMap Dispatcher.Move.message?).length) := by
  induction moves generalizing t d with
  | nil => exact ⟨h, rfl, fun _ => Nat.le_refl _⟩
  | cons move moves ih =>
      cases move with
      | publish m =>
          obtain ⟨hshows, hnext, hhanded⟩ := h.publish m
          obtain ⟨hplay, hsame, hbound⟩ := ih hshows htotal
          rw [hnext, hhanded] at hbound
          rw [hnext] at hplay
          refine ⟨hplay, hsame, fun hsilent => ?_⟩
          have hrest := hbound hsilent
          have hload := d.load_publish m
          show ((t.act (.publish m)).after _).handed.length +
              ((d.move (.publish m)).play moves).load ≤
            t.handed.length + d.load + 2 * (List.filterMap _ moves).length.succ
          omega
      | step =>
          obtain ⟨hshows, hnext⟩ := h.step htotal
          have hbindings := Dispatcher.bindings_step htotal
          obtain ⟨hplay, hsame, hbound⟩ := ih hshows (by rwa [hbindings])
          rw [hnext] at hplay hbound
          have hafter : t.after (d.schedule t.nextCall (.step :: moves)) =
              (t.after (d.actions t.nextCall)).after (d.step.schedule
                (if d.bus.queue.isEmpty then t.nextCall else t.nextCall + 1) moves) :=
            after_append _ _ _
          rw [hafter]
          refine ⟨hplay, hsame.trans hbindings, fun hsilent => ?_⟩
          have hrest := hbound (by rwa [hbindings])
          have hstep := h.length_handed_step htotal hsilent
          show _ + (d.step.play moves).load ≤ _ + _ + 2 * (List.filterMap _ moves).length
          omega

/-- Let handlers be bound to all channels, and let messages be published, handed over, and handlers
at work publish and end with or without an error, in any order.

* The messages handed over, then those in the queue, are the messages that the bus took, in the
  order in which it took them; only when the bus stops are any lost.  The first message in the queue
  is the next to be handed over.
* A message is handed to the handler bound to its channel, and that call ends once or is under way.
* While the bus is open it sends dead letters for the calls that ended with an error and were not
  about a dead letter, one for each, in this order, with the key of the message and the text of the
  error.
* When no handler publishes, there are at most twice as many calls as messages from outside.
* Only a bus that has stopped refuses messages, and then every one; no call begins any more.

When each handler finishes in one step the bus is one of these: its handlers work on one state in
the order in which the messages were taken, and every call has ended.  `drain` is made of such
steps; if no handler publishes it leaves the queue empty, and there are at most two calls for each
message from outside. -/
theorem hands_over_each_message_once {b b' : Bindings (Handler σ)}
    (hbuilt : Bindings.complete b = .ok b') :
    (∀ as : List TrafficAction,
      let t := ({ bindings := b' } : Traffic (Handler σ)).after as
      (∃ lost, t.handed.map HandlerCall.message ++ t.bus.queue ++ lost = t.posts.map Prod.snd ∧
        (t.bus.isOpen → lost = [])) ∧
      (∀ m rest, t.bus.queue = m :: rest →
        ∃ handler, (t.act .dispatch).handed = t.handed ++ [⟨handler, m⟩]) ∧
      (∀ c ∈ t.handed, Assoc.get? b' c.message.channel = some c.handler) ∧
      (t.ends.map CallEnd.message ++ t.calls.values).Perm (t.handed.map HandlerCall.message) ∧
      (t.bus.isOpen → t.deadLetters = t.ends.filterMap fun e => e.error?.bind fun error =>
        if e.message.channel = .dlq then none
        else some (e.number, .fault e.message.key error.message)) ∧
      ((∀ p ∈ t.posts, p.1.isHandler = false) →
        t.handed.length ≤ 2 * t.posts.countP (·.1 = .outside)) ∧
      (∀ s m error, .refused s m error ∈ t.log → t.bus.isOpen = false ∧ error = .busClosed) ∧
      (t.bus.isOpen = false → ∀ bs,
        (∃ new, (t.after bs).log = t.log ++ new ∧ ∀ ev ∈ new, ev.IsAfterwards) ∧
        ∀ s m, ((t.after bs).post s m).log = (t.after bs).log ++ [.refused s m .busClosed])) ∧
    ∀ (s₀ : σ) (moves : List Dispatcher.Move),
      let d₀ : Dispatcher σ := { bindings := b', state := s₀ }
      let d := d₀.play moves
      let t := ({ bindings := b' } : Traffic (Handler σ)).after (d₀.schedule 0 moves)
      t.bus = d.bus ∧
      d.state = t.handed.foldl (fun s c => (c.handler s c.message).1) s₀ ∧
      (∀ n, t.calls.get? n = none) ∧
      d.drain = d₀.play (moves ++ List.replicate (2 * d.bus.queue.length) .step) ∧
      (Dispatcher.Silent b' →
        d.drain.bus.queue = [] ∧
        t.handed.length ≤ 2 * (moves.filterMap Dispatcher.Move.message?).length) := by
  have htotal := Bindings.total_of_complete hbuilt
  refine ⟨fun as => ?_, fun s₀ moves => ?_⟩
  · intro t
    obtain ⟨h, hbindings⟩ := (conserved_new b').after htotal as
    have ha : Answered t := (answered_new b').after as
    have hbindings : t.bindings = b' := hbindings
    have htotal' : t.bindings.Total := by rwa [hbindings]
    have hbound : ∀ c ∈ t.handed, Assoc.get? b' c.message.channel = some c.handler := by
      rw [← hbindings]
      exact h.bound
    refine ⟨h.conveyed, ?_, hbound, h.ended, ?_, h.length_handed_le ha, h.refused, ?_⟩
    · intro m rest hqueue
      obtain ⟨handler, hbound⟩ := htotal' m.channel
      exact ⟨handler, handed_handOver hqueue hbound⟩
    · intro hopen
      obtain ⟨missed, hmissed, hnone⟩ := ha
      rw [hnone hopen, List.append_nil] at hmissed
      rw [hmissed]
      exact congrArg (List.filterMap · t.ends) (funext CallEnd.deadLetter?_eq)
    · intro hclosed bs
      obtain ⟨hstill, hnew⟩ := h.after_of_closed htotal' hclosed bs
      refine ⟨hnew, fun s m => ?_⟩
      rw [post_of_closed hstill]
  · intro d₀ d t
    have h₀ : Shows s₀ { bindings := b' } d₀ := ⟨rfl, rfl, rfl, fun _ => rfl⟩
    obtain ⟨h, hbindings, hbound⟩ := h₀.play htotal moves
    refine ⟨h.bus, h.state, h.idle, ?_, fun hsilent => ⟨?_, ?_⟩⟩
    · exact (Dispatcher.steps_eq_play _ d).trans List.foldl_append.symm
    · exact Dispatcher.queue_drain (by rwa [hbindings]) (by rwa [hbindings])
    · have hload : d₀.load = 0 := rfl
      have hpaid : t.handed.length + d.load ≤
          0 + d₀.load + 2 * (moves.filterMap Dispatcher.Move.message?).length := hbound hsilent
      rw [hload] at hpaid
      omega

/-- A handler that fails every time is called twice for a message, the second time for the dead
letter. -/
theorem hands_over_each_message_once_of_failures :
    let fails : Handler Nat := fun calls _ => (calls + 1, [], some .busClosed)
    let b : Bindings (Handler Nat) := { entries := Channel.all.map (·, fails), nodup := by decide }
    let m : Message := { key := { text := "k" }, channel := .initial, payload := .transferStarted }
    let d := ({ bindings := b, state := 0 } : Dispatcher Nat).play [.publish m, .step, .step]
    Bindings.complete b = .ok b ∧ d.state = 2 ∧ d.drain.bus.queue = [] := by
  intro fails b m d
  have hbuilt : Bindings.complete b = .ok b := rfl
  have hsilent : Dispatcher.Silent b := by
    intro c handler hbound s m
    have hmem : (c, handler) ∈ Channel.all.map (·, fails) := (Assoc.mem_entries _ _ _).mpr hbound
    obtain ⟨c', -, hpair⟩ := List.mem_map.mp hmem
    cases hpair
    rfl
  obtain ⟨-, hmoves⟩ := hands_over_each_message_once hbuilt
  obtain ⟨-, -, -, -, hquiet⟩ := hmoves 0 [.publish m, .step, .step]
  exact ⟨hbuilt, rfl, (hquiet hsilent).1⟩

end Traffic

end Rendezvous
