import Mathlib.Data.List.Induction
import Rendezvous.OutcomeBoard.Lobby

/-!
# What becomes of the outcomes on the board

An outcome that was put up is given to one reader at most, for its own key, while it is fresh and
nothing newer is there; and nobody sleeps while there is an outcome for him.

* `Lobby.Step`: all that an action can come to;
* `Lobby.Shown`: the board shows what the log tells, and every reader was given what it showed;
* `Lobby.Booked`: how the waits and the log agree;
* `Lobby.Alert`: a wait that sleeps and listens has no outcome, unless that is still to be
  announced.
-/

namespace Rendezvous

namespace Lobby

variable {l l' : Lobby} {t : TaskId} {key : CorrelationKey}

/-! ## What an action comes to -/

/-- What an action can come to. -/
inductive Step (l : Lobby) : Lobby → Prop
  | idle : Step l l
  | posted (key : CorrelationKey) (o : Outcome) :
      Step l
        { l with
          board := l.board.put l.now key o
          unannounced := key :: l.unannounced
          log := l.log ++ [(l.now, .posted key o)] }
  | announced (key : CorrelationKey) :
      Step l { l with board := l.board.wake, unannounced := l.unannounced.erase key }
  | taken (key : CorrelationKey) :
      Step l
        { l with
          board := { l.board with outcomes := (l.board.outcomes.take l.now key).2 }
          log := l.log ++ [(l.now, .taken key (l.readable? key))] }
  /-- Something leaves the board that no reader would find any more. -/
  | tidied (outcomes : ExpiringMap CorrelationKey Outcome)
      (hsame : ∀ later, l.now ≤ later → ∀ key,
        outcomes.peek? later key = l.board.outcomes.peek? later key)
      (httl : outcomes.ttl = l.board.outcomes.ttl) :
      Step l { l with board := { l.board with outcomes } }
  | began (t : TaskId) (key : CorrelationKey) (deadline : Nat) (hnew : l.nextWait ≤ t) :
      Step l
        { l with
          waits := l.waits.insert t { key, deadline }
          nextWait := t + 1
          log := l.log ++ [(l.now, .began t key deadline)] }
  | listened (t : TaskId) (w : Wait) (hw : l.waits.get? t = some w) (hstage : w.stage = .entering) :
      Step l
        { l with
          board := l.board.listen t, waits := l.waits.insert t { w with stage := .looking } }
  | missed (t : TaskId) (w : Wait) (hw : l.waits.get? t = some w) (hstage : w.stage = .looking)
      (hnone : l.readable? w.key = none) :
      Step l
        { l with
          board := { l.board with outcomes := (l.board.outcomes.take l.now w.key).2 }
          waits := l.waits.insert t { w with stage := .asleep } }
  | woken (t : TaskId) (w : Wait) (hw : l.waits.get? t = some w) (hstage : w.stage = .asleep)
      (hwoken : t ∉ l.board.listeners) :
      Step l { l with waits := l.waits.insert t { w with stage := .entering } }
  | lapsed (t : TaskId) (w : Wait) (hw : l.waits.get? t = some w) (hstage : w.stage = .asleep)
      (hdue : w.deadline ≤ l.now) :
      Step l { l with waits := l.waits.insert t { w with stage := .leaving } }
  | ended (t : TaskId) (w : Wait) (hw : l.waits.get? t = some w)
      (hstage : (l.readable? w.key).isSome ∨ w.stage = .leaving) :
      Step l
        { l with
          board := ({ l.board with
            outcomes := (l.board.outcomes.take l.now w.key).2 } : OutcomeBoard).unlisten t
          waits := l.waits.erase t
          log := l.log ++ [(l.now, .ended t w.key w.deadline (l.readable? w.key))] }
  | gaveUp (t : TaskId) (w : Wait) (hw : l.waits.get? t = some w) :
      Step l
        { l with
          board := l.board.unlisten t
          waits := l.waits.erase t
          log := l.log ++ [(l.now, .gaveUp t)] }
  | passed (span : Nat) : Step l { l with now := l.now + span }

theorem takeOutcome_eq (l : Lobby) (key : CorrelationKey) :
    l.takeOutcome key =
      (l.readable? key,
        { l with
          board := { l.board with outcomes := (l.board.outcomes.take l.now key).2 } }) := rfl

theorem step_stride (l : Lobby) (t : TaskId) : l.Step (l.stride t) := by
  cases hw : l.waits.get? t with
  | none =>
      simp only [stride, hw]
      exact .idle
  | some w =>
      cases hstage : w.stage with
      | entering =>
          simp only [stride, hw, hstage]
          exact .listened t w hw hstage
      | looking =>
          cases hread : l.readable? w.key with
          | some o =>
              simp only [stride, hw, hstage, takeOutcome_eq, hread]
              exact hread ▸ .ended t w hw (.inl (by simp [hread]))
          | none =>
              simp only [stride, hw, hstage, takeOutcome_eq, hread]
              exact .missed t w hw hstage hread
      | asleep =>
          simp only [stride, hw, hstage]
          split
          · exact .woken t w hw hstage ‹_›
          · split
            · exact .lapsed t w hw hstage ‹_›
            · exact .idle
      | leaving =>
          simp only [stride, hw, hstage]
          exact .ended t w hw (.inr hstage)

theorem act_step (l : Lobby) (a : LobbyAction) : l.Step (l.act a) := by
  cases a with
  | post key o => exact .posted key o
  | announce key =>
      simp only [act]
      split
      · exact .announced key
      · exact .idle
  | take key => exact .taken key
  | peek key =>
      refine .tidied (l.board.outcomes.get l.now key).2
        (fun later hlater k => l.board.outcomes.peek?_get hlater key k) ?_
      unfold ExpiringMap.get
      split <;> rfl
  | purge =>
      exact .tidied (l.board.outcomes.purge l.now).2
        (fun later hlater k => l.board.outcomes.peek?_purge l.now later hlater k) rfl
  | beginWait t key deadline =>
      simp only [act]
      split
      · exact .began t key deadline ‹_›
      · exact .idle
  | stride t => exact l.step_stride t
  | lapse t =>
      cases hw : l.waits.get? t with
      | none =>
          simp only [act, hw]
          exact .idle
      | some w =>
          simp only [act, hw]
          split
          · rename_i hdue
            exact .lapsed t w hw hdue.1 hdue.2
          · exact .idle
  | giveUp t =>
      cases hw : l.waits.get? t with
      | none =>
          simp only [act, Assoc.contains, hw]
          exact .idle
      | some w =>
          simp only [act, Assoc.contains, hw]
          exact .gaveUp t w hw
  | pass span => exact .passed span

/-- What every step keeps, every schedule keeps. -/
theorem after_induction {P : Lobby → Prop} (hstep : ∀ l l', P l → l.Step l' → P l') (h : P l)
    (as : List LobbyAction) : P (l.after as) := by
  induction as generalizing l with
  | nil => exact h
  | cons a as ih => exact ih (hstep l _ h (l.act_step a))

/-! ## What the log tells about the board -/

/-- What an event makes of the outcome of `key` that stands on the board since some instant. -/
def updated (key : CorrelationKey) (standing : Option (Outcome × Nat)) (entry : Nat × LobbyEvent) :
    Option (Outcome × Nat) :=
  if entry.2.changes? = some key then entry.2.posted?.map (·, entry.1) else standing

/-- The outcome of `key` that was put up last and has not been taken, and when that was. -/
def standing (key : CorrelationKey) (log : List (Nat × LobbyEvent)) : Option (Outcome × Nat) :=
  log.foldl (updated key) none

theorem standing_append (key : CorrelationKey) (log : List (Nat × LobbyEvent))
    (entry : Nat × LobbyEvent) :
    standing key (log ++ [entry]) = updated key (standing key log) entry := by
  simp [standing]

/-- What stands on the board was put up, and nothing was put up or taken since. -/
theorem standing_eq_some {log : List (Nat × LobbyEvent)} {o : Outcome} {since : Nat} :
    standing key log = some (o, since) ↔
      ∃ older mid, log = older ++ (since, .posted key o) :: mid ∧
        ∀ entry ∈ mid, entry.2.changes? ≠ some key := by
  constructor
  · intro h
    induction log using List.reverseRecOn with
    | nil => cases h
    | append_singleton log entry ih =>
        rw [standing_append] at h
        by_cases hchanges : entry.2.changes? = some key
        · rw [updated, if_pos hchanges] at h
          obtain ⟨instant, ev⟩ := entry
          cases ev with
          | posted key' o' =>
              cases hchanges
              cases h
              exact ⟨log, [], rfl, by simp⟩
          | taken | began | ended | gaveUp => cases h
        · rw [updated, if_neg hchanges] at h
          obtain ⟨older, mid, rfl, hmid⟩ := ih h
          refine ⟨older, mid ++ [entry], by simp, fun entry' hmem => ?_⟩
          rcases List.mem_append.mp hmem with hold | hnew
          · exact hmid entry' hold
          · exact List.mem_singleton.mp hnew ▸ hchanges
  · rintro ⟨older, mid, rfl, hmid⟩
    induction mid using List.reverseRecOn with
    | nil =>
        rw [standing_append]
        exact if_pos rfl
    | append_singleton mid entry ih =>
        rw [← List.cons_append, ← List.append_assoc, standing_append, updated,
          if_neg (hmid entry (by simp))]
        exact ih fun entry' hmem => hmid entry' (List.mem_append_left _ hmem)

/-- What a reader finds at `instant`, of what stands on a board whose outcomes can be read for
`ttl`. -/
def fresh? (ttl instant : Nat) (s : Option (Outcome × Nat)) : Option Outcome :=
  (s.filter fun p => age instant p.2 < ttl).map Prod.fst

/-- The board shows what the log tells, and each reader was given what it showed. -/
structure Shown (ttl : Nat) (l : Lobby) : Prop where
  lasts : l.board.outcomes.ttl = ttl
  shows : ∀ later, l.now ≤ later → ∀ key,
    l.board.outcomes.peek? later key = fresh? ttl later (standing key l.log)
  answers : ∀ before entry rest, l.log = before ++ entry :: rest → ∀ key o?,
    entry.2.answer? = some (key, o?) → o? = fresh? ttl entry.1 (standing key before)

theorem shown_empty (ttl : Nat) : Shown ttl (.empty ttl) where
  lasts := rfl
  shows later _ key := rfl
  answers before entry rest h := by cases before <;> cases h

/-- An event that is noted is the last one. -/
theorem eq_concat {log before rest : List (Nat × LobbyEvent)} {entry entry' : Nat × LobbyEvent}
    (h : log ++ [entry] = before ++ entry' :: rest) :
    (before = log ∧ entry' = entry) ∨ ∃ rest', log = before ++ entry' :: rest' := by
  induction rest using List.reverseRecOn with
  | nil =>
      obtain ⟨hlog, hentry⟩ := List.append_inj' h rfl
      exact .inl ⟨hlog.symm, (List.cons.inj hentry).1.symm⟩
  | append_singleton rest last =>
      rw [← List.cons_append, ← List.append_assoc] at h
      exact .inr ⟨rest, (List.append_inj' h rfl).1⟩

/-- An event keeps the books if the board shows what it makes of them, and a reader was given what
was there. -/
theorem Shown.note {ttl : Nat} (h : Shown ttl l) {ev : LobbyEvent} {instant : Nat}
    (hlog : l'.log = l.log ++ [(instant, ev)]) (httl : l'.board.outcomes.ttl = ttl)
    (hshows : ∀ later, l'.now ≤ later → ∀ key, l'.board.outcomes.peek? later key =
      fresh? ttl later (updated key (standing key l.log) (instant, ev)))
    (hanswer : ∀ key o?, ev.answer? = some (key, o?) →
      o? = fresh? ttl instant (standing key l.log)) : Shown ttl l' := by
  refine ⟨httl, fun later hlater key => ?_, fun before entry rest hsplit key o? hans => ?_⟩
  · rw [hlog, standing_append]
    exact hshows later hlater key
  · rw [hlog] at hsplit
    rcases eq_concat hsplit with ⟨rfl, rfl⟩ | ⟨rest', hold⟩
    · exact hanswer key o? hans
    · exact h.answers before entry rest' hold key o? hans

theorem Shown.readable? {ttl : Nat} (h : Shown ttl l) (key : CorrelationKey) :
    l.readable? key = fresh? ttl l.now (standing key l.log) :=
  h.shows l.now (Nat.le_refl _) key

/-- Nothing that a reader could find has changed. -/
theorem Shown.congr {ttl : Nat} (h : Shown ttl l) (hlog : l'.log = l.log) (hnow : l.now ≤ l'.now)
    (httl : l'.board.outcomes.ttl = l.board.outcomes.ttl)
    (hsame : ∀ later, l'.now ≤ later → ∀ key,
      l'.board.outcomes.peek? later key = l.board.outcomes.peek? later key) : Shown ttl l' := by
  refine ⟨httl.trans h.lasts, fun later hlater key => ?_, hlog ▸ h.answers⟩
  rw [hsame later hlater key, hlog]
  exact h.shows later (Nat.le_trans hnow hlater) key

/-- An event that is neither about an outcome nor an answer. -/
theorem Shown.quiet {ttl : Nat} (h : Shown ttl l) {ev : LobbyEvent} {instant : Nat}
    (hlog : l'.log = l.log ++ [(instant, ev)]) (hchanges : ev.changes? = none)
    (hanswer : ev.answer? = none) (hnow : l'.now = l.now)
    (houtcomes : l'.board.outcomes = l.board.outcomes) : Shown ttl l' := by
  refine h.note hlog (houtcomes ▸ h.lasts) (fun later hlater key => ?_) (by simp [hanswer])
  rw [updated, hchanges, if_neg (by simp), houtcomes]
  exact h.shows later (hnow ▸ hlater) key

/-- A reader is given what the board shows, and takes it down. -/
theorem Shown.read {ttl : Nat} (h : Shown ttl l) {ev : LobbyEvent}
    (hlog : l'.log = l.log ++ [(l.now, ev)])
    (hchanges : ev.changes? = (l.readable? key).map fun _ => key) (hposted : ev.posted? = none)
    (hanswer : ev.answer? = some (key, l.readable? key)) (hnow : l'.now = l.now)
    (houtcomes : l'.board.outcomes = (l.board.outcomes.take l.now key).2) : Shown ttl l' := by
  refine h.note hlog ?_ (fun later hlater k => ?_) (fun k o? hans => ?_)
  · rw [houtcomes]
    exact h.lasts
  · have hlater : l.now ≤ later := hnow ▸ hlater
    rw [houtcomes, updated, hchanges, hposted]
    cases hread : l.readable? key with
    | none =>
        rw [ExpiringMap.peek?_take_of_none hread hlater, h.shows later hlater k]
        rfl
    | some o =>
        rw [ExpiringMap.peek?_take, h.shows later hlater k]
        by_cases hk : k = key
        · simp [hk, fresh?]
        · simp [hk, Ne.symm hk]
  · rw [hanswer] at hans
    cases hans
    exact h.readable? key

theorem Shown.step {ttl : Nat} (h : Shown ttl l) (hs : l.Step l') : Shown ttl l' := by
  cases hs with
  | idle => exact h
  | posted key o =>
      refine h.note rfl h.lasts (fun later hlater k => ?_) (fun _ _ hans => by cases hans)
      have hshows := h.shows later hlater k
      show (l.board.outcomes.insert l.now key o).peek? later k = _
      rw [ExpiringMap.peek?_insert, updated]
      by_cases hk : key = k
      · subst hk
        by_cases hfresh : age later l.now < ttl <;>
          simp [LobbyEvent.changes?, LobbyEvent.posted?, fresh?, ExpiringMap.isFresh, h.lasts,
            Option.filter, hfresh]
      · simp [LobbyEvent.changes?, hk, hshows]
  | announced key => exact h.congr rfl (Nat.le_refl _) rfl fun _ _ _ => rfl
  | taken key =>
      refine h.read rfl ?_ rfl rfl rfl rfl
      cases l.readable? key <;> rfl
  | tidied outcomes hsame httl => exact h.congr rfl (Nat.le_refl _) httl hsame
  | began t key deadline hnew => exact h.quiet rfl rfl rfl rfl rfl
  | listened | woken | lapsed => exact h.congr rfl (Nat.le_refl _) rfl fun _ _ _ => rfl
  | missed t w hw hstage hnone =>
      exact h.congr rfl (Nat.le_refl _) rfl fun later hlater k =>
        ExpiringMap.peek?_take_of_none hnone hlater k
  | ended t w hw hstage =>
      refine h.read rfl ?_ rfl rfl rfl rfl
      cases l.readable? w.key <;> rfl
  | gaveUp t w hw => exact h.quiet rfl rfl rfl rfl rfl
  | passed span => exact h.congr rfl (Nat.le_add_right _ _) rfl fun _ _ _ => rfl

/-! ## How the waits and the log agree -/

/-- How the waits and the log agree. -/
structure Booked (l : Lobby) : Prop where
  /-- The names of waits to come are free. -/
  fresh : ∀ t, l.nextWait ≤ t → l.waits.get? t = none
  /-- A wait that is about to leave is there no sooner than its deadline. -/
  due : ∀ t w, l.waits.get? t = some w → w.stage = .leaving → w.deadline ≤ l.now
  /-- A wait that is not finished has begun. -/
  begun : ∀ t w, l.waits.get? t = some w → ∃ start, (start, .began t w.key w.deadline) ∈ l.log
  /-- A wait that has ended had begun, and ended without an outcome no sooner than its deadline. -/
  ended : ∀ instant t key deadline o?, (instant, .ended t key deadline o?) ∈ l.log →
    (∃ start, (start, .began t key deadline) ∈ l.log) ∧ (o? = none → deadline ≤ instant)
  /-- A wait that has begun is there until it ends or is dropped. -/
  kept : ∀ start t key deadline, (start, .began t key deadline) ∈ l.log →
    (∃ stage, l.waits.get? t = some { key, deadline, stage }) ∨
    (∃ instant o?, (instant, .ended t key deadline o?) ∈ l.log) ∨
    ∃ instant, (instant, .gaveUp t) ∈ l.log

theorem booked_empty (ttl : Nat) : Booked (.empty ttl) where
  fresh t _ := rfl
  due t w hw := by cases hw
  begun t w hw := by cases hw
  ended instant t key deadline o? hmem := by cases hmem
  kept start t key deadline hmem := by cases hmem

/-- A wait moves from one stage to another. -/
theorem Booked.goTo (h : Booked l) {w : Wait} (hw : l.waits.get? t = some w) {stage : WaitStage}
    (hwaits : l'.waits = l.waits.insert t { w with stage }) (hlog : l'.log = l.log)
    (hnow : l'.now = l.now) (hnext : l'.nextWait = l.nextWait)
    (hdue : stage = .leaving → w.deadline ≤ l.now) : Booked l' := by
  constructor
  case fresh =>
    intro t' ht'
    rw [hnext] at ht'
    have hfree := h.fresh t' ht'
    have hne : t ≠ t' := by
      rintro rfl
      rw [hw] at hfree
      cases hfree
    rw [hwaits, Assoc.get?_insert, if_neg hne]
    exact hfree
  case due =>
    intro t' w' hw' hstage
    rw [hwaits, Assoc.get?_insert] at hw'
    rw [hnow]
    split at hw'
    · cases hw'
      exact hdue hstage
    · exact h.due t' w' hw' hstage
  case begun =>
    intro t' w' hw'
    rw [hwaits, Assoc.get?_insert] at hw'
    rw [hlog]
    split at hw'
    · rename_i ht
      cases hw'
      exact ht ▸ h.begun t w hw
    · exact h.begun t' w' hw'
  case ended => exact hlog ▸ h.ended
  case kept =>
    intro start t' key deadline hmem
    rw [hlog] at hmem ⊢
    rcases h.kept start t' key deadline hmem with ⟨stage', hold⟩ | hended
    · left
      rw [hwaits, Assoc.get?_insert]
      split
      · rename_i ht
        subst ht
        rw [hw] at hold
        cases hold
        exact ⟨_, rfl⟩
      · exact ⟨stage', hold⟩
    · exact .inr hended

/-- What the log told of a wait that ended it still tells when it has grown. -/
theorem Booked.ended_append (h : Booked l) {evs : List (Nat × LobbyEvent)}
    (hlog : l'.log = l.log ++ evs) {instant deadline : Nat} {o? : Option Outcome}
    (hmem : (instant, .ended t key deadline o?) ∈ l.log) :
    (∃ start, (start, .began t key deadline) ∈ l'.log) ∧ (o? = none → deadline ≤ instant) := by
  obtain ⟨⟨start, hbegan⟩, hnone⟩ := h.ended instant t key deadline o? hmem
  exact ⟨⟨start, hlog ▸ List.mem_append_left _ hbegan⟩, hnone⟩

/-- A wait is there, or has ended, or was dropped. -/
def Accounted (l : Lobby) (t : TaskId) (key : CorrelationKey) (deadline : Nat) : Prop :=
  (∃ stage, l.waits.get? t = some { key, deadline, stage }) ∨
  (∃ instant o?, (instant, .ended t key deadline o?) ∈ l.log) ∨
  ∃ instant, (instant, .gaveUp t) ∈ l.log

/-- A wait that has begun is accounted for when the log has grown, if those that were there are. -/
theorem Booked.kept_append (h : Booked l) {evs : List (Nat × LobbyEvent)}
    (hlog : l'.log = l.log ++ evs) {start deadline : Nat}
    (hmem : (start, .began t key deadline) ∈ l.log)
    (hthere : ∀ stage, l.waits.get? t = some { key, deadline, stage } →
      l'.Accounted t key deadline) : l'.Accounted t key deadline := by
  rcases h.kept start t key deadline hmem with ⟨stage, hold⟩ | ⟨instant, o?, hended⟩ |
    ⟨instant, hup⟩
  · exact hthere stage hold
  · exact .inr (.inl ⟨instant, o?, hlog ▸ List.mem_append_left _ hended⟩)
  · exact .inr (.inr ⟨instant, hlog ▸ List.mem_append_left _ hup⟩)

/-- The log grows by something that happened to no wait. -/
theorem Booked.note (h : Booked l) {ev : LobbyEvent}
    (hlog : l'.log = l.log ++ [(l.now, ev)]) (hwaits : l'.waits = l.waits) (hnow : l'.now = l.now)
    (hnext : l'.nextWait = l.nextWait)
    (hev : (∀ t key deadline, ev ≠ .began t key deadline) ∧
      ∀ t key deadline o?, ev ≠ .ended t key deadline o?) : Booked l' := by
  constructor
  case fresh => exact fun t ht => hwaits ▸ h.fresh t (hnext ▸ ht)
  case due => exact fun t w hw => hnow ▸ h.due t w (hwaits ▸ hw)
  case begun =>
    intro t w hw
    obtain ⟨start, hmem⟩ := h.begun t w (hwaits ▸ hw)
    exact ⟨start, hlog ▸ List.mem_append_left _ hmem⟩
  case ended =>
    intro instant t key deadline o? hmem
    rw [hlog, List.mem_append, List.mem_singleton] at hmem
    rcases hmem with hold | hnew
    · exact h.ended_append hlog hold
    · exact absurd (congrArg Prod.snd hnew).symm (hev.2 t key deadline o?)
  case kept =>
    intro start t key deadline hmem
    rw [hlog, List.mem_append, List.mem_singleton] at hmem
    rcases hmem with hold | hnew
    · exact h.kept_append hlog hold fun stage hthere => .inl ⟨stage, hwaits ▸ hthere⟩
    · exact absurd (congrArg Prod.snd hnew).symm (hev.1 t key deadline)

/-- A wait is finished; the log tells how. -/
theorem Booked.quit (h : Booked l) {w : Wait} (hw : l.waits.get? t = some w) {ev : LobbyEvent}
    (hlog : l'.log = l.log ++ [(l.now, ev)]) (hwaits : l'.waits = l.waits.erase t)
    (hnow : l'.now = l.now) (hnext : l'.nextWait = l.nextWait)
    (hev : ev = .gaveUp t ∨
      ∃ o?, ev = .ended t w.key w.deadline o? ∧ (o? = none → w.deadline ≤ l.now)) :
    Booked l' := by
  have hstill : ∀ t' w', l'.waits.get? t' = some w' → l.waits.get? t' = some w' := by
    intro t' w' hw'
    rw [hwaits, Assoc.get?_erase] at hw'
    split at hw'
    · cases hw'
    · exact hw'
  constructor
  case fresh =>
    intro t' ht'
    rw [hnext] at ht'
    rw [hwaits, Assoc.get?_erase, h.fresh t' ht', ite_self]
  case due => exact fun t' w' hw' => hnow ▸ h.due t' w' (hstill t' w' hw')
  case begun =>
    intro t' w' hw'
    obtain ⟨start, hmem⟩ := h.begun t' w' (hstill t' w' hw')
    exact ⟨start, hlog ▸ List.mem_append_left _ hmem⟩
  case ended =>
    intro instant t' key deadline o? hmem
    rw [hlog, List.mem_append, List.mem_singleton] at hmem
    rcases hmem with hold | hnew
    · exact h.ended_append hlog hold
    · obtain ⟨start, hbegan⟩ := h.begun t w hw
      rcases hev with rfl | ⟨o?', rfl, hnone⟩
      · cases hnew
      · cases hnew
        exact ⟨⟨start, hlog ▸ List.mem_append_left _ hbegan⟩, hnone⟩
  case kept =>
    intro start t' key deadline hmem
    rw [hlog, List.mem_append, List.mem_singleton] at hmem
    rcases hmem with hold | hnew
    · refine h.kept_append hlog hold fun stage hthere => ?_
      by_cases ht : t' = t
      · -- it is the wait that is finished
        subst ht
        rw [hw] at hthere
        cases hthere
        rcases hev with rfl | ⟨o?, rfl, -⟩
        · exact .inr (.inr ⟨l.now, by simp [hlog]⟩)
        · exact .inr (.inl ⟨l.now, o?, by simp [hlog]⟩)
      · exact .inl ⟨stage, by simpa [hwaits, ht] using hthere⟩
    · rcases hev with rfl | ⟨o?, rfl, -⟩ <;> cases hnew

theorem Booked.began (h : Booked l) {deadline : Nat} (hnew : l.nextWait ≤ t)
    (hlog : l'.log = l.log ++ [(l.now, .began t key deadline)])
    (hwaits : l'.waits = l.waits.insert t { key, deadline }) (hnow : l'.now = l.now)
    (hnext : l'.nextWait = t + 1) : Booked l' := by
  have hfree : ∀ t' w', l.waits.get? t' = some w' → t ≠ t' := by
    rintro t' w' hw' rfl
    rw [h.fresh t hnew] at hw'
    cases hw'
  constructor
  case fresh =>
    intro t' ht'
    rw [hnext] at ht'
    rw [hwaits, Assoc.get?_insert, if_neg (Nat.ne_of_lt ht')]
    exact h.fresh t' (Nat.le_trans hnew (Nat.le_of_lt ht'))
  case due =>
    intro t' w' hw' hstage
    rw [hwaits, Assoc.get?_insert] at hw'
    rw [hnow]
    split at hw'
    · cases hw'
      cases hstage
    · exact h.due t' w' hw' hstage
  case begun =>
    intro t' w' hw'
    rw [hwaits, Assoc.get?_insert] at hw'
    rw [hlog]
    split at hw'
    · rename_i ht
      cases hw'
      exact ⟨l.now, by simp [ht]⟩
    · obtain ⟨start, hmem⟩ := h.begun t' w' hw'
      exact ⟨start, List.mem_append_left _ hmem⟩
  case ended =>
    intro instant t' key' deadline' o? hmem
    rw [hlog, List.mem_append, List.mem_singleton] at hmem
    rcases hmem with hold | hnew'
    · exact h.ended_append hlog hold
    · cases hnew'
  case kept =>
    intro start t' key' deadline' hmem
    rw [hlog, List.mem_append, List.mem_singleton] at hmem
    rcases hmem with hold | hnew'
    · exact h.kept_append hlog hold fun stage hthere =>
        .inl ⟨stage, by simpa [hwaits, hfree t' _ hthere] using hthere⟩
    · cases hnew'
      exact .inl ⟨.entering, by simp [hwaits]⟩

theorem Booked.step (h : Booked l) (hs : l.Step l') : Booked l' := by
  cases hs with
  | idle => exact h
  | posted | taken => exact h.note rfl rfl rfl rfl (by simp)
  | announced | tidied => exact ⟨h.fresh, h.due, h.begun, h.ended, h.kept⟩
  | began t key deadline hnew => exact h.began hnew rfl rfl rfl rfl
  | listened t w hw | missed t w hw | woken t w hw =>
      exact h.goTo hw rfl rfl rfl rfl (fun hleaving => by cases hleaving)
  | lapsed t w hw hstage hdue => exact h.goTo hw rfl rfl rfl rfl fun _ => hdue
  | ended t w hw hstage =>
      refine h.quit hw rfl rfl rfl rfl (.inr ⟨_, rfl, fun hnone => ?_⟩)
      rcases hstage with hsome | hleaving
      · simp [hnone] at hsome
      · exact h.due t w hw hleaving
  | gaveUp t w hw => exact h.quit hw rfl rfl rfl rfl (.inl rfl)
  | passed span =>
      exact ⟨h.fresh,
        fun t w hw hstage => Nat.le_trans (h.due t w hw hstage) (Nat.le_add_right _ _),
        h.begun, h.ended, h.kept⟩

/-! ## Nobody sleeps while there is an outcome for him -/

/-- A wait that sleeps and listens has no outcome, unless that is still to be announced. -/
def Alert (l : Lobby) : Prop :=
  ∀ t w, l.waits.get? t = some w → w.stage = .asleep → t ∈ l.board.listeners →
    (l.readable? w.key).isSome → w.key ∈ l.unannounced

/-- Those who sleep and listen did so before, and no outcome came that is not to be announced. -/
theorem Alert.mono (h : Alert l)
    (hwaits : ∀ t w, l'.waits.get? t = some w → w.stage = .asleep → t ∈ l'.board.listeners →
      l.waits.get? t = some w ∧ t ∈ l.board.listeners)
    (hread : ∀ key, (l'.readable? key).isSome → (l.readable? key).isSome)
    (hunannounced : ∀ key, key ∈ l.unannounced → key ∈ l'.unannounced) : Alert l' := by
  intro t w hw hstage hlistens hsome
  obtain ⟨hw', hlistens'⟩ := hwaits t w hw hstage hlistens
  exact hunannounced _ (h t w hw' hstage hlistens' (hread _ hsome))

/-- What can be read after something was taken could be read before, and is something else. -/
theorem isSome_of_take {m : ExpiringMap CorrelationKey Outcome} {now : Nat} {k : CorrelationKey}
    (h : ((m.take now key).2.peek? now k).isSome) : k ≠ key ∧ (m.peek? now k).isSome := by
  rw [ExpiringMap.peek?_take] at h
  split at h
  · cases h
  · exact ⟨‹_›, h⟩

theorem Alert.step (h : Alert l) (hs : l.Step l') : Alert l' := by
  cases hs with
  | idle => exact h
  | posted key o =>
      intro t w hw hstage hlistens hsome
      by_cases hk : key = w.key
      · exact hk ▸ List.mem_cons_self
      · refine List.mem_cons_of_mem _ (h t w hw hstage hlistens ?_)
        have hread : ((l.board.outcomes.insert l.now key o).peek? l.now w.key).isSome := hsome
        rwa [ExpiringMap.peek?_insert, if_neg hk] at hread
  | announced key =>
      intro t w _ _ hlistens
      cases hlistens
  | taken key =>
      exact h.mono (fun t w hw _ hlistens => ⟨hw, hlistens⟩)
        (fun k hk => (isSome_of_take (m := l.board.outcomes) hk).2) (fun _ hk => hk)
  | tidied outcomes hsame =>
      refine h.mono (fun t w hw _ hlistens => ⟨hw, hlistens⟩) (fun k hk => ?_) (fun _ hk => hk)
      unfold Lobby.readable? at hk ⊢
      rwa [← hsame l.now (Nat.le_refl _)]
  | began t key deadline hnew =>
      refine h.mono (fun t' w' hw' hstage hlistens => ⟨?_, hlistens⟩) (fun _ hk => hk)
        (fun _ hk => hk)
      rw [Assoc.get?_insert] at hw'
      split at hw'
      · cases hw'
        cases hstage
      · exact hw'
  | listened t w hw hstage =>
      refine h.mono (fun t' w' hw' hstage' hlistens => ?_) (fun _ hk => hk) (fun _ hk => hk)
      rw [Assoc.get?_insert] at hw'
      split at hw'
      · cases hw'
        cases hstage'
      · rename_i hne
        refine ⟨hw', ?_⟩
        simpa [OutcomeBoard.listen, Ne.symm hne] using hlistens
  | missed t w hw hstage hnone =>
      intro t' w' hw' hstage' hlistens hsome
      obtain ⟨hk, hread⟩ := isSome_of_take (m := l.board.outcomes) hsome
      rw [Assoc.get?_insert] at hw'
      split at hw'
      · -- the wait has just found nothing
        cases hw'
        exact absurd rfl hk
      · exact h t' w' hw' hstage' hlistens hread
  | woken t w hw hstage | lapsed t w hw hstage =>
      refine h.mono (fun t' w' hw' hstage' hlistens => ⟨?_, hlistens⟩) (fun _ hk => hk)
        (fun _ hk => hk)
      rw [Assoc.get?_insert] at hw'
      split at hw'
      · cases hw'
        cases hstage'
      · exact hw'
  | ended t w hw hstage =>
      refine h.mono (fun t' w' hw' _ hlistens => ⟨?_, ?_⟩)
        (fun k hk => (isSome_of_take (m := l.board.outcomes) hk).2) (fun _ hk => hk)
      · rw [Assoc.get?_erase] at hw'
        split at hw'
        · cases hw'
        · exact hw'
      · exact (List.mem_filter.mp hlistens).1
  | gaveUp t w hw =>
      refine h.mono (fun t' w' hw' _ hlistens => ⟨?_, ?_⟩) (fun _ hk => hk) (fun _ hk => hk)
      · rw [Assoc.get?_erase] at hw'
        split at hw'
        · cases hw'
        · exact hw'
      · exact (List.mem_filter.mp hlistens).1
  | passed span =>
      refine h.mono (fun t w hw _ hlistens => ⟨hw, hlistens⟩) (fun k hk => ?_) (fun _ hk => hk)
      obtain ⟨o, ho⟩ := Option.isSome_iff_exists.mp hk
      have hsooner := l.board.outcomes.peek?_of_le (Nat.le_add_right l.now span) ho
      exact Option.isSome_iff_exists.mpr ⟨o, hsooner⟩

/-! ## When nobody can go on -/

/-- How many strides the wait `t` can still make before something happens, at most. -/
def strides (l : Lobby) (t : TaskId) : Nat :=
  match l.waits.get? t with
  | none => 0
  | some w =>
      match w.stage with
      | .entering => 4
      | .looking => if t ∈ l.board.listeners then 3 else 6
      | .asleep =>
          if t ∈ l.board.listeners then (if w.deadline ≤ l.now then 2 else 0) else 5
      | .leaving => 1

theorem strides_le (l : Lobby) (t : TaskId) : l.strides t ≤ 6 := by
  unfold strides
  repeat' split
  all_goals omega

/-- A wait that can make no stride is finished, or it sleeps and listens, and its deadline is still
to come. -/
theorem asleep_of_strides_eq_zero (h : l.strides t = 0) {w : Wait}
    (hw : l.waits.get? t = some w) :
    w.stage = .asleep ∧ t ∈ l.board.listeners ∧ l.now < w.deadline := by
  unfold strides at h
  rw [hw] at h
  cases hstage : w.stage with
  | asleep =>
      by_cases hlistens : t ∈ l.board.listeners
      · refine ⟨rfl, hlistens, Nat.lt_of_not_le fun hdue => ?_⟩
        simp [hstage, hlistens, hdue] at h
      · simp [hstage, hlistens] at h
  | entering | leaving => simp [hstage] at h
  | looking =>
      simp only [hstage] at h
      split at h <;> cases h

theorem stride_of_strides_eq_zero (h : l.strides t = 0) : l.stride t = l := by
  unfold stride
  cases hw : l.waits.get? t with
  | none => rfl
  | some w =>
      obtain ⟨hstage, hlistens, hearly⟩ := asleep_of_strides_eq_zero h hw
      simp [hstage, hlistens, Nat.not_le_of_lt hearly]

/-- A stride brings a wait nearer to where it can go no further. -/
theorem strides_stride (l : Lobby) (t : TaskId) : (l.stride t).strides t ≤ l.strides t - 1 := by
  cases hw : l.waits.get? t with
  | none => simp [stride, strides, hw]
  | some w =>
      cases hstage : w.stage with
      | entering =>
          have hafter : (l.stride t).strides t = 3 := by
            simp [stride, strides, hw, hstage, goTo, OutcomeBoard.listen]
          have hbefore : l.strides t = 4 := by simp [strides, hw, hstage]
          omega
      | looking =>
          cases hread : l.readable? w.key with
          | some o =>
              have hafter : (l.stride t).strides t = 0 := by
                simp [stride, strides, hw, hstage, takeOutcome_eq, hread, conclude, Lobby.note]
              omega
          | none =>
              by_cases hlistens : t ∈ l.board.listeners
              · have hbefore : l.strides t = 3 := by simp [strides, hw, hstage, hlistens]
                have hafter : (l.stride t).strides t ≤ 2 := by
                  simp only [stride, hw, hstage, takeOutcome_eq, hread, goTo, strides,
                    Assoc.get?_insert, if_true, hlistens]
                  split <;> omega
                omega
              · have hbefore : l.strides t = 6 := by simp [strides, hw, hstage, hlistens]
                have hafter : (l.stride t).strides t = 5 := by
                  simp [stride, strides, hw, hstage, takeOutcome_eq, hread, goTo, hlistens]
                omega
      | asleep =>
          by_cases hlistens : t ∈ l.board.listeners
          · by_cases hdue : w.deadline ≤ l.now
            · simp [stride, strides, hw, hstage, goTo, hlistens, hdue]
            · simp [stride, strides, hw, hstage, hlistens, hdue]
          · simp [stride, strides, hw, hstage, goTo, hlistens]
      | leaving => simp [stride, strides, hw, hstage, takeOutcome_eq, conclude, Lobby.note]

/-- A stride is about one wait, and announces nothing. -/
theorem stride_frame (l : Lobby) (t : TaskId) :
    (l.stride t).now = l.now ∧ (l.stride t).unannounced = l.unannounced ∧
      ∀ t', t' ≠ t → (l.stride t).waits.get? t' = l.waits.get? t' ∧
        (t' ∈ (l.stride t).board.listeners ↔ t' ∈ l.board.listeners) := by
  cases hw : l.waits.get? t with
  | none => simp [stride, hw]
  | some w =>
      cases hstage : w.stage with
      | entering =>
          simp +contextual [stride, hw, hstage, goTo, OutcomeBoard.listen, eq_comm]
      | looking =>
          cases hread : l.readable? w.key <;>
            simp +contextual [stride, hw, hstage, takeOutcome_eq, hread, conclude, goTo, Lobby.note,
              OutcomeBoard.unlisten, eq_comm]
      | asleep =>
          simp only [stride, hw, hstage]
          split
          · simp +contextual [goTo, eq_comm]
          · split <;> simp +contextual [goTo, eq_comm]
      | leaving =>
          simp +contextual [stride, hw, hstage, takeOutcome_eq, conclude, Lobby.note,
            OutcomeBoard.unlisten]

theorem strides_stride_of_ne {t' : TaskId} (ht : t' ≠ t) :
    (l.stride t).strides t' = l.strides t' := by
  obtain ⟨hnow, -, hothers⟩ := l.stride_frame t
  obtain ⟨hwait, hlistens⟩ := hothers t' ht
  unfold strides
  simp only [hwait, hnow, hlistens]

theorem settled_iff : l.Settled ↔ l.unannounced = [] ∧ ∀ t, l.strides t = 0 := by
  constructor
  · rintro ⟨hannounced, hstill⟩
    constructor
    · cases hkeys : l.unannounced with
      | nil => rfl
      | cons key rest =>
          have hshorter : (l.act (.announce key)).unannounced = rest := by simp [act, hkeys]
          rw [hannounced key, hkeys] at hshorter
          exact absurd (congrArg List.length hshorter) (Nat.succ_ne_self _)
    · intro t
      have hfewer := l.strides_stride t
      rw [show l.stride t = l from hstill t] at hfewer
      omega
  · rintro ⟨hannounced, hstill⟩
    refine ⟨fun key => ?_, fun t => stride_of_strides_eq_zero (hstill t)⟩
    simp [act, hannounced]

/-! ## Everybody comes to rest -/

theorem after_append (l : Lobby) (as bs : List LobbyAction) :
    l.after (as ++ bs) = (l.after as).after bs :=
  List.foldl_append

/-- Whatever has been put up can be announced. -/
theorem unannounced_after (keys : List CorrelationKey) (h : l.unannounced = keys) :
    (l.after (keys.map .announce)).unannounced = [] := by
  induction keys generalizing l with
  | nil => exact h
  | cons key rest ih =>
      refine ih (l := l.act (.announce key)) ?_
      simp [act, h]

/-- A wait that strides often enough can go no further, and the others are where they were. -/
theorem strides_after (n : Nat) (l : Lobby) (t : TaskId) :
    let l' := l.after (List.replicate n (.stride t))
    l'.unannounced = l.unannounced ∧ l'.strides t ≤ l.strides t - n ∧
      ∀ t', t' ≠ t → l'.strides t' = l.strides t' := by
  induction n generalizing l with
  | zero => exact ⟨rfl, Nat.le_refl _, fun _ _ => rfl⟩
  | succ n ih =>
      obtain ⟨hunannounced, hown, hothers⟩ := ih (l.stride t)
      have hfirst := l.strides_stride t
      refine ⟨hunannounced.trans (l.stride_frame t).2.1, ?_, fun t' ht => ?_⟩
      · exact Nat.le_trans hown (by omega)
      · exact (hothers t' ht).trans (strides_stride_of_ne ht)

theorem strides_after_all (ts : List TaskId) (l : Lobby) :
    let l' := l.after (ts.flatMap fun t => List.replicate 6 (.stride t))
    l'.unannounced = l.unannounced ∧
      (∀ t, t ∈ ts → l'.strides t = 0) ∧ ∀ t, l.strides t = 0 → l'.strides t = 0 := by
  induction ts generalizing l with
  | nil => exact ⟨rfl, fun t ht => absurd ht List.not_mem_nil, fun t h => h⟩
  | cons first ts ih =>
      obtain ⟨hunannounced, hown, hothers⟩ := strides_after 6 l first
      obtain ⟨hunannounced', hall, hstill⟩ := ih (l.after (List.replicate 6 (.stride first)))
      have hfirst : (l.after (List.replicate 6 (.stride first))).strides first = 0 := by
        have hmost := l.strides_le first
        omega
      simp only [List.flatMap_cons, after_append]
      refine ⟨hunannounced'.trans hunannounced, fun t ht => ?_, fun t ht => hstill t ?_⟩
      · rcases List.mem_cons.mp ht with rfl | hmem
        · exact hstill t hfirst
        · exact hall t hmem
      · by_cases heq : t = first
        · rw [heq, hfirst]
        · rw [hothers t heq, ht]

/-- Left to themselves, announcements and waits come to rest. -/
theorem exists_settled (l : Lobby) :
    ∃ bs, (∀ a ∈ bs, (∃ key, a = .announce key) ∨ ∃ t, a = .stride t) ∧ (l.after bs).Settled := by
  let announced := l.after (l.unannounced.map .announce)
  let rests := announced.waits.keys.flatMap fun t => List.replicate 6 (LobbyAction.stride t)
  obtain ⟨hunannounced, hall, hstill⟩ := strides_after_all announced.waits.keys announced
  refine ⟨l.unannounced.map .announce ++ rests, fun a ha => ?_, ?_⟩
  · rcases List.mem_append.mp ha with hannounce | hstride
    · obtain ⟨key, -, rfl⟩ := List.mem_map.mp hannounce
      exact .inl ⟨key, rfl⟩
    · obtain ⟨t, -, hmem⟩ := List.mem_flatMap.mp hstride
      exact .inr ⟨t, List.eq_of_mem_replicate hmem⟩
  · rw [after_append]
    refine settled_iff.mpr ⟨hunannounced.trans (unannounced_after _ rfl), fun t => ?_⟩
    by_cases hmem : t ∈ announced.waits.keys
    · exact hall t hmem
    · refine hstill t ?_
      have hnone : announced.waits.get? t = none := by
        rw [Assoc.mem_keys] at hmem
        exact Option.not_isSome_iff_eq_none.mp hmem
      simp [strides, hnone]

end Lobby

end Rendezvous
