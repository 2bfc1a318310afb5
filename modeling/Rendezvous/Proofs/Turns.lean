import Rendezvous.Proofs.Fetching

/-!
# What a host takes note of

A host that changes its engine takes note of every event: it logs the event, and whatever the event
makes able to run gets a turn at the end.  `Hears` says so of two hosts, and `hears_apply` says that
changing the engine does nothing else.

Only a periodic sweep that ends does more, since it sets the timer of the next one; it is left out
here.
-/

namespace Rendezvous

/-- Whether the event makes something able to run. -/
def Event.wakes : Event → Bool
  | .published _ | .spawned _ | .granted _ | .notified _ => true
  | _ => false

/-- Whether the turn hands out messages or is that of a task. -/
def Turn.isPlain : Turn → Bool
  | .dispatch | .task _ => true
  | .aftermath _ | .callbacks _ | .sweep => false

namespace Host

variable {σ : Type} {h h' h'' : Host σ} {evs evs' : List Event} {extra extra' : List Turn}

/-- From `h` to `h'` note is taken of the events `evs`, latest first, and the turns `extra`, which
are neither plain nor due to the events, are added. -/
structure Hears (h h' : Host σ) (evs : List Event) (extra : List Turn) : Prop where
  aborted : h'.aborted = h.aborted
  timers : h'.timers = h.timers
  ticker : h'.ticker? = h.ticker?
  log : h'.log = evs.map (h.now, ·) ++ h.log
  /-- Every event makes one thing able to run at most. -/
  ready : ∃ new, h'.ready = h.ready ++ new ∧ new.filter (!·.isPlain) = extra ∧
    new.length ≤ extra.length + evs.countP Event.wakes
  bus : ∀ m, .published m ∈ evs → .dispatch ∈ h'.ready
  tasks : ∀ t, .spawned t ∈ evs → .task t ∈ h'.ready

namespace Hears

theorem mem_ready (h₀ : Hears h h' evs extra) {turn : Turn} (hmem : turn ∈ h.ready) :
    turn ∈ h'.ready := by
  obtain ⟨new, hready, -⟩ := h₀.ready
  rw [hready]
  exact List.mem_append_left _ hmem

/-- What concerns neither plain turns nor events. -/
theorem of_eq (haborted : h'.aborted = h.aborted) (htimers : h'.timers = h.timers)
    (hticker : h'.ticker? = h.ticker?) (hlog : h'.log = h.log)
    (hready : h'.ready = h.ready ++ extra) (hextra : ∀ turn ∈ extra, turn.isPlain = false) :
    Hears h h' [] extra := by
  refine ⟨haborted, htimers, hticker, by simp [hlog], ⟨extra, hready, ?_, by simp⟩, by simp,
    by simp⟩
  exact List.filter_eq_self.mpr fun turn hmem => by simp [hextra turn hmem]

theorem refl (h : Host σ) : Hears h h [] [] := of_eq rfl rfl rfl rfl (by simp) (by simp)

theorem trans (h₁ : Hears h h' evs extra) (h₂ : Hears h' h'' evs' extra') (hnow : h'.now = h.now) :
    Hears h h'' (evs' ++ evs) (extra ++ extra') where
  aborted := h₂.aborted.trans h₁.aborted
  timers := h₂.timers.trans h₁.timers
  ticker := h₂.ticker.trans h₁.ticker
  log := by rw [h₂.log, h₁.log, hnow, List.map_append, List.append_assoc]
  ready := by
    obtain ⟨new, hready, hextra, hlength⟩ := h₁.ready
    obtain ⟨new', hready', hextra', hlength'⟩ := h₂.ready
    refine ⟨new ++ new', ?_, ?_, ?_⟩
    · rw [hready', hready, List.append_assoc]
    · rw [List.filter_append, hextra, hextra']
    · simp only [List.length_append, List.countP_append]
      omega
  bus m hmem := by
    rcases List.mem_append.mp hmem with hlater | hsooner
    · exact h₂.bus m hlater
    · exact h₂.mem_ready (h₁.bus m hsooner)
  tasks t hmem := by
    rcases List.mem_append.mp hmem with hlater | hsooner
    · exact h₂.tasks t hlater
    · exact h₂.mem_ready (h₁.tasks t hsooner)

end Hears

theorem mem_ready_of_any_isTask {t : TaskId} (hany : h.ready.any (Turn.isTask t)) :
    .task t ∈ h.ready := by
  obtain ⟨turn, hmem, hturn⟩ := List.any_eq_true.mp hany
  cases turn with
  | task t' =>
      obtain rfl : t' = t := of_decide_eq_true hturn
      exact hmem
  | dispatch | aftermath | callbacks | sweep => cases hturn

theorem mem_ready_wake (h : Host σ) (t : TaskId) : .task t ∈ (h.wake t).ready := by
  unfold wake
  split
  · rename_i hany
    exact mem_ready_of_any_isTask hany
  · simp

theorem mem_ready_wakeBus (h : Host σ) : .dispatch ∈ h.wakeBus.ready := by
  unfold wakeBus
  split
  · rename_i hany
    obtain ⟨turn, hmem, hturn⟩ := List.any_eq_true.mp hany
    cases turn with
    | dispatch => exact hmem
    | task | aftermath | callbacks | sweep => cases hturn
  · simp

/-- The event does not end a periodic sweep. -/
def Minor (h : Host σ) (ev : Event) : Prop :=
  ∀ t f k, ev = .finished t f → h.ticker? = some k → k.sweep? ≠ some t

/-- What becomes of the turns when the host takes note of an event. -/
theorem ready_absorb (h : Host σ) {ev : Event} (hminor : h.Minor ev) :
    (h.absorb ev).ready = h.ready ∨
      ∃ turn, turn.isPlain ∧ ev.wakes ∧ (h.absorb ev).ready = h.ready ++ [turn] := by
  cases ev with
  | published m =>
      unfold absorb wakeBus
      dsimp only
      split
      · exact .inl rfl
      · exact .inr ⟨.dispatch, rfl, rfl, rfl⟩
  | spawned t | granted t | notified t =>
      unfold absorb wake
      dsimp only
      split
      · exact .inl rfl
      · exact .inr ⟨.task t, rfl, rfl, rfl⟩
  | finished t f =>
      left
      unfold absorb
      dsimp only
      split
      · rename_i k hticker
        rw [if_neg (hminor t f k rfl hticker)]
      · rfl
  | accepted | registered | called | held | evicted | recorded | faulted => exact .inl rfl

/-- A host takes note of an event. -/
theorem hears_absorb (h : Host σ) {ev : Event} (hminor : h.Minor ev) :
    Hears h (h.absorb ev) [ev] [] := by
  have hframe : (h.absorb ev).aborted = h.aborted ∧ (h.absorb ev).timers = h.timers ∧
      (h.absorb ev).ticker? = h.ticker? ∧ (h.absorb ev).log = (h.now, ev) :: h.log := by
    cases ev with
    | published m =>
        unfold absorb wakeBus
        dsimp only
        split <;> exact ⟨rfl, rfl, rfl, rfl⟩
    | spawned t | granted t | notified t =>
        unfold absorb wake
        dsimp only
        split <;> exact ⟨rfl, rfl, rfl, rfl⟩
    | finished t f =>
        unfold absorb
        dsimp only
        split
        · rename_i k hticker
          rw [if_neg (hminor t f k rfl hticker)]
          exact ⟨rfl, rfl, rfl, rfl⟩
        · exact ⟨rfl, rfl, rfl, rfl⟩
    | accepted | registered | called | held | evicted | recorded | faulted =>
        exact ⟨rfl, rfl, rfl, rfl⟩
  obtain ⟨haborted, htimers, hticker, hlog⟩ := hframe
  refine ⟨haborted, htimers, hticker, by simpa using hlog, ?_, fun m hmem => ?_, fun t hmem => ?_⟩
  · rcases ready_absorb h hminor with hsame | ⟨turn, hplain, hwakes, hready⟩
    · exact ⟨[], by simp [hsame], rfl, by simp⟩
    · exact ⟨[turn], hready, by simp [hplain], by simp [hwakes]⟩
  · obtain rfl := List.mem_singleton.mp hmem
    exact mem_ready_wakeBus _
  · obtain rfl := List.mem_singleton.mp hmem
    exact mem_ready_wake _ t

theorem hears_foldl (evs : List Event) (h : Host σ) (hminor : ∀ ev ∈ evs, h.Minor ev) :
    Hears h (evs.foldl absorb h) evs.reverse [] := by
  induction evs generalizing h with
  | nil => exact .refl h
  | cons ev evs ih =>
      have hfirst := hears_absorb h (hminor ev (by simp))
      have hrest := ih (h.absorb ev) fun ev' hmem t f k heq hticker =>
        hminor ev' (by simp [hmem]) t f k heq (hfirst.ticker ▸ hticker)
      have hboth := hfirst.trans hrest (congrArg Engine.now (h.absorb_frame ev).1)
      simpa using hboth

/-- When a periodic sweep ends before the next one is due, a timer is set for that one. -/
theorem absorb_swept {k : Ticker} {t : TaskId} (hticker : h.ticker? = some k)
    (hsweep : k.sweep? = some t) (hlate : h.now < k.due) (f : Finish) :
    h.absorb (.finished t f) = { h with
      log := (h.now, .finished t f) :: h.log
      ticker? := some { k with sweep? := none }
      timers := h.timers ++ [{ due := k.due, turn := .sweep }] } := by
  have hnot : ¬ k.due ≤ h.engine.now := Nat.not_le.mpr hlate
  simp [absorb, hticker, hsweep, rewind, setTimer, now, hnot]

/-- To change the engine is to take note of what it writes. -/
theorem hears_apply (hblank : h.engine.history = []) {f : Engine → Engine}
    (hnow : (f h.engine).now = h.now) (hminor : ∀ ev ∈ (f h.engine).history, h.Minor ev) :
    Hears h (h.apply f) (f h.engine).history [] := by
  have hsame : ({ h.engine with history := [] } : Engine) = h.engine := by
    rw [← hblank]
  have hfold := hears_foldl (f h.engine).history.reverse
    { h with engine := { f h.engine with history := [] } }
    fun ev hmem => hminor ev (List.mem_reverse.mp hmem)
  rw [List.reverse_reverse] at hfold
  have happly : h.apply f = (f h.engine).history.reverse.foldl absorb
      { h with engine := { f h.engine with history := [] } } := by
    unfold apply
    rw [hsame]
  rw [happly]
  have hlog := hfold.log
  refine ⟨hfold.aborted, hfold.timers, hfold.ticker, ?_, hfold.ready, hfold.bus, hfold.tasks⟩
  rw [hlog]
  exact congrArg (fun now => (f h.engine).history.map (now, ·) ++ h.log) hnow

end Host

end Rendezvous
