import Rendezvous.Proofs.Sweeping

/-!
# What a host has to do

Everything that can still change a case is a message on its way or a list of callbacks that a
provider has promised: `Host.loads`.  A host takes its turns one by one, and each turn takes one
load and leaves others in its place.

A host is calm (`Calm`) when nobody waits for anything but a turn or the clock: whatever can run has
a turn, and whatever comes later has a timer.

* `Calm`: what holds between any two turns;
* `Does`: what a turn does, and `Calm.does`: it leaves the host calm;
* `Calm.handOut`, `Calm.postpone`, `Calm.sweeps`, `Calm.goTo`: the other turns, and the clock.
-/

namespace Rendezvous

/-- Something that will change a case. -/
inductive Load
  | mail (m : Message)
  /-- Callbacks that come at `due`. -/
  | errand (due : Nat) (cs : List Callback)
deriving DecidableEq

/-- The callbacks of a turn that is taken at `instant`. -/
def Turn.load? (instant : Nat) : Turn → Option Load
  | .aftermath a => some (.errand (instant + a.delay) a.callbacks)
  | .callbacks cs => some (.errand instant cs)
  | .dispatch | .task _ | .sweep => none

/-- Whether the turn begins a periodic sweep. -/
def Turn.isSweep : Turn → Bool
  | .sweep => true
  | .dispatch | .task _ | .aftermath _ | .callbacks _ => false

theorem Turn.load?_of_isPlain {turn : Turn} (h : turn.isPlain) (instant : Nat) :
    turn.load? instant = none := by
  cases turn <;> simp_all [Turn.isPlain, Turn.load?]

theorem Turn.isSweep_of_isPlain {turn : Turn} (h : turn.isPlain) : turn.isSweep = false := by
  cases turn <;> simp_all [Turn.isPlain, Turn.isSweep]

namespace Host

variable {σ : Type}

/-- The messages on their way and the callbacks to come. -/
def loads (h : Host σ) : List Load :=
  h.engine.mail.map .mail ++ h.ready.filterMap (Turn.load? h.now) ++
    h.timers.filterMap fun w => w.turn.load? w.due

/-- The outcomes recorded for `k` with the instants of their recording, latest first. -/
def outcomes (h : Host σ) (k : CorrelationKey) : List (Nat × Outcome) :=
  h.log.filterMap fun x => (x.2.outcome? k).map (x.1, ·)

/-- How many turns and messages wait. -/
def backlog (h : Host σ) : Nat := h.ready.length + h.engine.bus.queue.length

/-- Whatever can run has a turn, whatever comes later has a timer, and the next periodic sweep is
due at `due`. -/
structure Calm (h : Host σ) (interval due : Nat) : Prop where
  undisturbed : h.engine.Undisturbed
  blank : h.engine.history = []
  /-- A task is about to handle a message. -/
  tasks : ∀ t task, h.engine.tasks.get? t = some task →
    (∃ m, task = .arriving m) ∧ .task t ∈ h.ready
  queue : h.engine.bus.queue ≠ [] → .dispatch ∈ h.ready
  aborted : h.aborted = []
  timers : ∀ w ∈ h.timers, h.now < w.due ∧ (w.turn = .sweep ∨ ∃ cs, w.turn = .callbacks cs)
  ticker : h.ticker? = some { interval, due }
  /-- There is one turn or one timer for the next sweep. -/
  once : h.ready.countP Turn.isSweep + h.timers.countP (Turn.isSweep ·.turn) = 1
  onTime : .sweep ∈ h.ready → due = h.now
  later : ∀ w ∈ h.timers, w.turn = .sweep → w.due = due
  /-- Sweeps are due at the multiples of the interval, and none is left out. -/
  multiple : interval ∣ due
  soon : due ≤ h.now + interval

/-- From `h` to `h'` the turn `popped?` is taken: the task `gone?` ends, the messages `posted` are
published, the turns `extra` are added, and the outcomes `told` are recorded. -/
structure Does (h h' : Host σ) (popped? : Option Turn) (gone? : Option TaskId)
    (posted : List Message) (extra : List Turn) (told : CorrelationKey → List Outcome) : Prop where
  handles : Engine.Handles h.engine h'.engine gone? posted
  blank : h'.engine.history = []
  notes : ∃ rest evs, h.ready = popped?.toList ++ rest ∧
    Hears { h with ready := rest } h' evs extra ∧ Tells evs posted told

variable {h h' : Host σ} {interval due : Nat} {popped? : Option Turn} {gone? : Option TaskId}
variable {posted : List Message} {extra : List Turn} {told : CorrelationKey → List Outcome}

theorem sweep_mem_iff {turns : List Turn} :
    .sweep ∈ turns ↔ 0 < turns.countP Turn.isSweep := by
  rw [List.countP_pos_iff]
  constructor
  · exact fun hmem => ⟨_, hmem, rfl⟩
  · rintro ⟨turn, hmem, hturn⟩
    cases turn with
    | sweep => exact hmem
    | dispatch | task | aftermath | callbacks => cases hturn

/-- No callbacks are overdue, and at rest none are due. -/
theorem Calm.errand_due (hc : Calm h interval due) {instant : Nat}
    {cs : List Callback} (hmem : .errand instant cs ∈ h.loads) :
    h.now ≤ instant ∧ (h.ready = [] → h.now < instant) := by
  unfold loads at hmem
  simp only [List.mem_append, List.mem_map, List.mem_filterMap] at hmem
  rcases hmem with (⟨m, -, heq⟩ | ⟨turn, hturn, hload⟩) | ⟨w, hw, hload⟩
  · cases heq
  · refine ⟨?_, fun hidle => by rw [hidle] at hturn; cases hturn⟩
    cases turn with
    | aftermath a =>
        obtain ⟨rfl, -⟩ := Load.errand.inj (Option.some.inj hload)
        exact Nat.le_add_right _ _
    | callbacks cs' => exact Nat.le_of_eq (Load.errand.inj (Option.some.inj hload)).1
    | dispatch | task | sweep => cases hload
  · obtain ⟨hlater, hsweep | ⟨cs', hcallbacks⟩⟩ := hc.timers w hw
    · rw [hsweep] at hload
      cases hload
    · rw [hcallbacks] at hload
      rw [← (Load.errand.inj (Option.some.inj hload)).1]
      exact ⟨Nat.le_of_lt hlater, fun _ => hlater⟩

/-- Sweeps begin at the multiples of the interval. -/
theorem Calm.dvd_now (hc : Calm h interval due) (hmem : .sweep ∈ h.ready) : interval ∣ h.now :=
  hc.onTime hmem ▸ hc.multiple

/-- No sweep is overdue, and at rest none is due. -/
theorem Calm.sweep_due (hc : Calm h interval due) :
    h.now ≤ due ∧ (h.ready = [] → h.now < due) := by
  have hone := hc.once
  by_cases hready : 0 < h.ready.countP Turn.isSweep
  · refine ⟨Nat.le_of_eq (hc.onTime (sweep_mem_iff.mpr hready)).symm, fun hidle => ?_⟩
    rw [hidle] at hready
    cases hready
  · obtain ⟨w, hw, hturn⟩ := List.countP_pos_iff.mp
      (show 0 < h.timers.countP (Turn.isSweep ·.turn) by omega)
    have hsweep : w.turn = .sweep := by
      cases hw' : w.turn <;> simp_all [Turn.isSweep]
    have hlt := (hc.timers w hw).1
    rw [hc.later w hw hsweep] at hlt
    exact ⟨Nat.le_of_lt hlt, fun _ => hlt⟩

/-! ## Turns that take a message or callbacks -/

/-- Plain turns have no callbacks. -/
theorem filterMap_load? (turns : List Turn) (instant : Nat) :
    (turns.filter (!·.isPlain)).filterMap (Turn.load? instant) =
      turns.filterMap (Turn.load? instant) := by
  rw [List.filterMap_filter]
  refine congrArg (List.filterMap · turns) (funext fun turn => ?_)
  cases hplain : turn.isPlain
  · rfl
  · exact (Turn.load?_of_isPlain hplain instant).symm

theorem countP_isSweep (turns : List Turn) :
    (turns.filter (!·.isPlain)).countP Turn.isSweep = turns.countP Turn.isSweep := by
  rw [List.countP_filter]
  refine congrArg (List.countP · turns) (funext fun turn => ?_)
  cases hplain : turn.isPlain
  · simp
  · simp [Turn.isSweep_of_isPlain hplain]

/-- A turn takes the load that it was for, and leaves what it posts and adds. -/
theorem Does.loads (hd : Does h h' popped? gone? posted extra told) :
    (((gone?.bind h.engine.tasks.get?).bind Task.message?).toList.map Load.mail ++
        (popped?.bind (Turn.load? h.now)).toList ++ h'.loads).Perm
      (posted.map Load.mail ++ extra.filterMap (Turn.load? h.now) ++ h.loads) := by
  obtain ⟨rest, evs, hready, hhears, -⟩ := hd.notes
  obtain ⟨new, hready', hextra, -⟩ := hhears.ready
  have hnow : h'.now = h.now := hd.handles.now
  have htimers : h'.timers = h.timers := hhears.timers
  have hmail := List.perm_iff_count.mp (hd.handles.mail.map Load.mail)
  have hpopped : (popped?.toList ++ rest).filterMap (Turn.load? h.now) =
      (popped?.bind (Turn.load? h.now)).toList ++ rest.filterMap (Turn.load? h.now) := by
    rw [List.filterMap_append]
    cases popped? with
    | none => rfl
    | some turn => cases hload : turn.load? h.now <;> simp [hload]
  unfold Host.loads
  rw [hnow, htimers, hready', hready, hpopped, List.filterMap_append, ← filterMap_load? new, hextra]
  refine List.perm_iff_count.mpr fun load => ?_
  have hmail := hmail load
  simp only [List.map_append, List.count_append] at hmail ⊢
  omega

/-- What a turn adds to the backlog: twice what it posts, and what it adds. -/
theorem Does.backlog (hd : Does h h' popped? gone? posted extra told) :
    h'.backlog + popped?.toList.length ≤ h.backlog + extra.length + 2 * posted.length := by
  obtain ⟨rest, evs, hready, hhears, htells⟩ := hd.notes
  obtain ⟨new, hready', -, hlength⟩ := hhears.ready
  rw [htells.wakes] at hlength
  unfold Host.backlog
  rw [hready', hready, hd.handles.queue]
  simp only [List.length_append]
  omega

theorem Hears.outcomes {evs : List Event} (hh : Hears h h' evs extra)
    (ht : Tells evs posted told) (k : CorrelationKey) :
    h'.outcomes k = (told k).map (h.now, ·) ++ h.outcomes k := by
  unfold Host.outcomes
  rw [hh.log, List.filterMap_append, ← ht.outcomes k, List.filterMap_map, List.map_filterMap]
  rfl

theorem Does.outcomes (hd : Does h h' popped? gone? posted extra told) (k : CorrelationKey) :
    h'.outcomes k = (told k).map (h.now, ·) ++ h.outcomes k := by
  obtain ⟨rest, evs, -, hhears, htells⟩ := hd.notes
  exact hhears.outcomes htells k

/-- The turn of a task, of callbacks or of nobody leaves a calm host calm. -/
theorem Calm.does (hc : Calm h interval due) (hd : Does h h' popped? gone? posted extra told)
    (hdispatch : popped? ≠ some .dispatch) (hsweep : popped? ≠ some .sweep)
    (htask : ∀ t, popped? = some (.task t) → gone? = some t ∨ h.engine.tasks.get? t = none)
    (hextra : ∀ turn ∈ extra, turn.isSweep = false) : Calm h' interval due := by
  obtain ⟨rest, evs, hready, hhears, htells⟩ := hd.notes
  obtain ⟨new, hready', hnew, -⟩ := hhears.ready
  have hready' : h'.ready = rest ++ new := hready'
  have hnow : h'.now = h.now := hd.handles.now
  have hkept : ∀ turn ∈ h.ready, popped? ≠ some turn → turn ∈ h'.ready := by
    intro turn hmem hne
    rw [hready] at hmem
    rw [hready']
    rcases List.mem_append.mp hmem with hpop | hrest
    · exact absurd (Option.mem_toList.mp hpop) hne
    · exact List.mem_append_left _ hrest
  have hnone : new.countP Turn.isSweep = 0 := by
    rw [← countP_isSweep new, hnew]
    exact List.countP_eq_zero.mpr fun turn hmem => by simp [hextra turn hmem]
  have hcount : h'.ready.countP Turn.isSweep = h.ready.countP Turn.isSweep := by
    have hpop : popped?.toList.countP Turn.isSweep = 0 := by
      cases popped? with
      | none => rfl
      | some turn => cases turn <;> simp_all [Turn.isSweep]
    rw [hready', hready, List.countP_append, List.countP_append, hnone, hpop]
    omega
  refine ⟨hd.handles.undisturbed, hd.blank, fun t task hold => ?_, fun hqueue => ?_,
    hhears.aborted.trans hc.aborted, ?_, hhears.ticker.trans hc.ticker, ?_, fun hmem => ?_, ?_,
    hc.multiple, ?_⟩
  · rw [hd.handles.tasks t] at hold
    split at hold
    · cases hold
    · rename_i hgone
      obtain ⟨harriving, hturn⟩ := hc.tasks t task hold
      refine ⟨harriving, hkept _ hturn fun heq => ?_⟩
      rcases htask t heq with hit | hnobody
      · exact hgone hit
      · rw [hold] at hnobody
        cases hnobody
  · rw [hd.handles.queue] at hqueue
    by_cases hposted : posted = []
    · rw [hposted, List.append_nil] at hqueue
      exact hkept _ (hc.queue hqueue) hdispatch
    · obtain ⟨m, hmem⟩ := List.exists_mem_of_ne_nil posted hposted
      exact hhears.bus m (htells.published m hmem)
  · rw [hnow, hhears.timers]
    exact hc.timers
  · rw [hcount, hhears.timers]
    exact hc.once
  · have hpos := sweep_mem_iff.mp hmem
    rw [hcount] at hpos
    exact (hc.onTime (sweep_mem_iff.mpr hpos)).trans hnow.symm
  · rw [hhears.timers]
    exact hc.later
  · rw [hnow]
    exact hc.soon

/-! ## Turns that only move loads -/

/-- From `h` to `h'` a turn is taken, and loads change their places only. -/
structure Shuffles (h h' : Host σ) : Prop where
  now : h'.now = h.now
  destination : h'.engine.destination = h.engine.destination
  store : h'.engine.store = h.engine.store
  registry : h'.engine.registry = h.engine.registry
  offers : h'.engine.offers = h.engine.offers
  services : h'.services = h.services
  loads : h'.loads.Perm h.loads
  outcomes : ∀ k, h'.outcomes k = h.outcomes k
  backlog : h'.backlog + 1 ≤ h.backlog

theorem engine_apply_of_blank (hblank : h.engine.history = []) (f : Engine → Engine) :
    (h.apply f).engine = { f h.engine with history := [] } := by
  rw [engine_apply, ← hblank]

theorem minor_of_spawned {evs : List Event} (hspawned : ∀ ev ∈ evs, ∃ t, ev = .spawned t)
    (h : Host σ) : ∀ ev ∈ evs, h.Minor ev := by
  rintro ev hmem t f k rfl
  obtain ⟨t', heq⟩ := hspawned _ hmem
  cases heq

/-- The queued messages are handed out. -/
theorem Calm.handOut (hc : Calm h interval due) {rest : List Turn}
    (hready : h.ready = .dispatch :: rest) :
    let h' := ({ h with ready := rest } : Host σ).apply Engine.dispatch
    Calm h' interval due ∧ Shuffles h h' := by
  intro h'
  obtain ⟨evs, ho⟩ := hc.undisturbed.handedOut
  have hengine : h'.engine = { h.engine.dispatch with history := [] } :=
    engine_apply_of_blank (h := { h with ready := rest }) hc.blank _
  have hwritten : h.engine.dispatch.history = evs := by rw [ho.history, hc.blank, List.append_nil]
  have hhears : Hears { h with ready := rest } h' evs [] := by
    have happly := hears_apply (h := { h with ready := rest }) (f := Engine.dispatch) hc.blank
      ho.now (hwritten ▸ minor_of_spawned ho.spawned _)
    exact hwritten ▸ happly
  obtain ⟨new, hready', hnew, hlength⟩ := hhears.ready
  have hready' : h'.ready = rest ++ new := hready'
  have hnow : h'.now = h.now := (congrArg Engine.now hengine).trans ho.now
  have hcalm : new.countP Turn.isSweep = 0 := by rw [← countP_isSweep new, hnew]; rfl
  have hcount : h'.ready.countP Turn.isSweep = h.ready.countP Turn.isSweep := by
    rw [hready', hready, List.countP_append, hcalm, List.countP_cons]
    rfl
  have hload : new.filterMap (Turn.load? h.now) = [] := by rw [← filterMap_load? new, hnew]; rfl
  refine ⟨⟨?_, by rw [hengine], fun t task hold => ?_, fun hqueue => ?_,
    hhears.aborted.trans hc.aborted, ?_, hhears.ticker.trans hc.ticker, ?_, fun hmem => ?_, ?_,
    hc.multiple, ?_⟩, hnow, ?_, ?_, ?_, ?_, services_apply _ _, ?_, fun k => ?_, ?_⟩
  · rw [hengine]
    exact ho.undisturbed.blank
  · rw [hengine] at hold
    rcases ho.tasks t task hold with hbefore | ⟨harriving, hspawned⟩
    · obtain ⟨harriving, hturn⟩ := hc.tasks t task hbefore
      rw [hready] at hturn
      rw [hready']
      refine ⟨harriving, List.mem_append_left _ ((List.mem_cons.mp hturn).resolve_left ?_)⟩
      simp
    · exact ⟨harriving, hhears.tasks t hspawned⟩
  · rw [hengine] at hqueue
    exact absurd ho.queue hqueue
  · rw [hnow, hhears.timers]
    exact hc.timers
  · rw [hcount, hhears.timers]
    exact hc.once
  · have hpos := sweep_mem_iff.mp hmem
    rw [hcount] at hpos
    exact (hc.onTime (sweep_mem_iff.mpr hpos)).trans hnow.symm
  · rw [hhears.timers]
    exact hc.later
  · rw [hnow]
    exact hc.soon
  · rw [hengine]
    exact ho.destination
  · rw [hengine]
    exact ho.store
  · rw [hengine]
    exact ho.registry
  · rw [hengine]
    exact ho.offers
  · have hmail : h'.engine.mail.Perm h.engine.mail := by
      rw [hengine]
      exact ho.mail
    have htimers : h'.timers = h.timers := hhears.timers
    unfold loads
    rw [hnow, htimers, hready', hready, List.filterMap_append, hload, List.append_nil]
    exact ((hmail.map _).append_right _).append_right _
  · have hlog : h'.log = evs.map (h.now, ·) ++ h.log := hhears.log
    refine view_of_silent (fun x hmem => ?_) hlog
    obtain ⟨ev, hev, rfl⟩ := List.mem_map.mp hmem
    obtain ⟨t, rfl⟩ := ho.spawned ev hev
    rfl
  · have hall : evs.countP Event.wakes ≤ evs.length := List.countP_le_length
    have hqueue : h'.engine.bus.queue = [] := by
      rw [hengine]
      exact ho.queue
    have hlen := ho.length
    simp only [List.length_nil, Nat.zero_add] at hlength
    unfold backlog
    rw [hready', hready, hqueue, List.length_append, List.length_cons, List.length_nil]
    omega

/-- Callbacks that come later get a timer. -/
theorem Calm.postpone (hc : Calm h interval due) {a : Aftermath} {rest : List Turn}
    (hready : h.ready = .aftermath a :: rest) (hdelay : a.delay ≠ 0) :
    let h' :=
      ({ h with ready := rest } : Host σ).setTimer (h.now + a.delay) (.callbacks a.callbacks)
    Calm h' interval due ∧ Shuffles h h' := by
  intro h'
  have hkept : ∀ turn ∈ h.ready, turn ≠ .aftermath a → turn ∈ rest := fun turn hmem hne => by
    rw [hready] at hmem
    exact (List.mem_cons.mp hmem).resolve_left hne
  have hcount : rest.countP Turn.isSweep = h.ready.countP Turn.isSweep := by
    rw [hready, List.countP_cons]
    rfl
  refine ⟨⟨hc.undisturbed, hc.blank, fun t task hold => ?_, fun hqueue => ?_, hc.aborted,
    fun w hmem => ?_, hc.ticker, ?_, fun hmem => ?_, fun w hmem hsweep => ?_, hc.multiple, hc.soon⟩,
    rfl, rfl, rfl, rfl, rfl, rfl, ?_, fun k => rfl, ?_⟩
  · obtain ⟨harriving, hturn⟩ := hc.tasks t task hold
    exact ⟨harriving, hkept _ hturn (by simp)⟩
  · exact hkept _ (hc.queue hqueue) (by simp)
  · rcases List.mem_append.mp hmem with hold | hnew
    · exact hc.timers w hold
    · obtain rfl := List.mem_singleton.mp hnew
      exact ⟨Nat.lt_add_of_pos_right (Nat.pos_of_ne_zero hdelay), .inr ⟨_, rfl⟩⟩
  · have hone := hc.once
    rw [← hcount] at hone
    show rest.countP Turn.isSweep + (h.timers ++ [_]).countP _ = 1
    rw [List.countP_append]
    exact hone
  · exact hc.onTime (by rw [hready]; exact List.mem_cons_of_mem _ hmem)
  · rcases List.mem_append.mp hmem with hold | hnew
    · exact hc.later w hold hsweep
    · obtain rfl := List.mem_singleton.mp hnew
      cases hsweep
  · show (h.engine.mail.map Load.mail ++ rest.filterMap (Turn.load? h.now) ++
      (h.timers ++ [_]).filterMap _).Perm _
    unfold loads
    rw [hready, List.filterMap_append]
    refine List.perm_iff_count.mpr fun load => ?_
    simp only [List.filterMap_cons, Turn.load?, List.filterMap_nil, List.count_append,
      List.count_cons, List.count_nil]
    omega
  · unfold backlog
    rw [hready]
    show rest.length + h.engine.bus.queue.length + 1 ≤ _
    rw [List.length_cons]
    omega

/-! ## Sweeps -/

/-- From `h` to `h'`, whose other turns are `rest`, the sweep due at `due` ends the cases of `keys`,
and the next one gets its timer. -/
structure Sweeps (h h' : Host σ) (rest : List Turn) (interval due : Nat)
    (keys : List CorrelationKey) : Prop where
  swept : Engine.Swept h.engine h'.engine keys
  blank : h'.engine.history = []
  services : h'.services = h.services
  aborted : h'.aborted = h.aborted
  ticker : h'.ticker? = some { interval, due := due + interval }
  timers : h'.timers = h.timers ++ [{ due := due + interval, turn := .sweep }]
  /-- Every timeout makes one thing able to run at most. -/
  ready : ∃ new, h'.ready = rest ++ new ∧ new.filter (!·.isPlain) = [] ∧ new.length ≤ keys.length
  bus : keys ≠ [] → .dispatch ∈ h'.ready
  outcomes : ∀ k, h'.outcomes k = h.outcomes k

/-- A periodic sweep that begins in time. -/
theorem Calm.sweeps (hc : Calm h interval due) (hinterval : 0 < interval) {rest : List Turn}
    (hready : h.ready = .sweep :: rest) (hfiled : h.engine.store.Filed) :
    Sweeps h (({ h with ready := rest } : Host σ).beginSweep { interval, due }) rest interval due
      ((h.engine.store.expired h.now).map Prod.fst) := by
  generalize hh' : ({ h with ready := rest } : Host σ).beginSweep { interval, due } = h'
  have hnow : due = h.now := hc.onTime (by rw [hready]; exact List.mem_cons_self)
  obtain ⟨hswept, evs, n, hhistory, htells, hminor⟩ := hc.undisturbed.swept hc.blank hfiled
  unfold Host.now
  generalize (h.engine.store.expired h.engine.now).map Prod.fst = keys at hswept htells ⊢
  -- everything but the end of the sweep is noted first, the timer is set at the end
  let k : Ticker := { interval, due := due + interval, sweep? := some h.engine.nextTask }
  let swept : Engine := (h.engine.addTask .sweeping).2.run h.engine.nextTask
  let begun : Host σ :=
    { h with ready := rest, ticker? := some k, engine := { swept with history := [] } }
  have hhears := hears_foldl evs.reverse begun fun ev hmem t f k heq =>
    absurd heq (hminor ev (List.mem_reverse.mp hmem) t f)
  rw [List.reverse_reverse] at hhears
  generalize hnoted : evs.reverse.foldl absorb begun = noted at hhears
  obtain ⟨hengine, hservices⟩ : noted.engine = begun.engine ∧ noted.services = begun.services :=
    hnoted ▸ foldl_absorb_frame _ _
  have hclock : noted.now = h.now := (congrArg Engine.now hengine).trans hswept.handles.now
  have hend : h' = { noted with
      log := (h.now, .finished h.engine.nextTask (.swept n)) :: noted.log
      ticker? := some { interval, due := due + interval }
      timers := h.timers ++ [{ due := due + interval, turn := .sweep }] } := by
    have hnext : Ticker.next { interval, due } h.now = due + interval := by
      rw [Ticker.next, if_neg]
      rw [hnow, tickTolerance]
      exact Nat.not_lt.mpr (Nat.le_add_right _ _)
    have hsame : ({ h.engine with history := [] } : Engine) = h.engine := by rw [← hc.blank]
    have hfold : h' = noted.absorb (.finished h.engine.nextTask (.swept n)) := by
      have happly : h' = swept.history.reverse.foldl absorb begun := by
        simp only [← hh', beginSweep, apply]
        rw [show Ticker.next { interval, due } (now { h with ready := rest }) = _ from hnext, hsame]
      rw [happly, hhistory, List.reverse_cons, List.foldl_append, hnoted]
      rfl
    have hlate : noted.now < k.due := by
      rw [hclock, ← hnow]
      exact Nat.lt_add_of_pos_right hinterval
    rw [hfold, absorb_swept hhears.ticker rfl hlate, hclock, hhears.timers]
  obtain ⟨new, hready', hnew, hlength⟩ := hhears.ready
  have hposted : (Engine.timeouts keys).length = keys.length := by simp [Engine.timeouts]
  rw [htells.wakes, hposted, List.length_nil, Nat.zero_add] at hlength
  rw [hend]
  refine ⟨?_, congrArg Engine.history hengine, hservices, hhears.aborted, rfl, rfl,
    ⟨new, hready', hnew, hlength⟩, fun hne => ?_, hhears.outcomes htells⟩
  · show Engine.Swept h.engine noted.engine keys
    rw [hengine]
    exact hswept.blank
  · obtain ⟨key, hkey⟩ := List.exists_mem_of_ne_nil _ hne
    exact hhears.bus _ (htells.published _ (List.mem_map.mpr ⟨key, hkey, rfl⟩))

section

variable {rest : List Turn} {keys : List CorrelationKey}

/-- After a sweep the host is calm again. -/
theorem Sweeps.calm (hs : Sweeps h h' rest interval due keys) (hc : Calm h interval due)
    (hinterval : 0 < interval) (hready : h.ready = .sweep :: rest) :
    Calm h' interval (due + interval) := by
  have hnow : due = h.now := hc.onTime (by rw [hready]; exact List.mem_cons_self)
  have hnow' : h'.now = h.now := hs.swept.handles.now
  have hkept : ∀ turn ∈ h.ready, turn ≠ .sweep → turn ∈ h'.ready := by
    intro turn hmem hne
    obtain ⟨new, hready', -⟩ := hs.ready
    rw [hready] at hmem
    rw [hready']
    exact List.mem_append_left _ ((List.mem_cons.mp hmem).resolve_left hne)
  have hone := hc.once
  rw [hready, List.countP_cons, show Turn.isSweep .sweep = true from rfl, if_pos rfl] at hone
  have hcount : h'.ready.countP Turn.isSweep = 0 := by
    obtain ⟨new, hready', hnew, -⟩ := hs.ready
    rw [hready', List.countP_append, ← countP_isSweep new, hnew, List.countP_nil]
    omega
  have hnone : ∀ w ∈ h.timers, w.turn ≠ .sweep := fun w hw hsweep => by
    have hpos : 0 < h.timers.countP (Turn.isSweep ·.turn) :=
      List.countP_pos_iff.mpr ⟨w, hw, by rw [hsweep]; rfl⟩
    omega
  refine ⟨hs.swept.handles.undisturbed, hs.blank, fun t task hold => ?_, fun hqueue => ?_,
    hs.aborted.trans hc.aborted, fun w hw => ?_, hs.ticker, ?_, fun hmem => ?_,
    fun w hw hsweep => ?_, (Nat.dvd_add_right hc.multiple).mpr (Nat.dvd_refl _),
    Nat.le_of_eq (congrArg (· + interval) (hnow.trans hnow'.symm))⟩
  · have htask : h'.engine.tasks.get? t = h.engine.tasks.get? t :=
      (hs.swept.handles.tasks t).trans (if_neg (by simp))
    obtain ⟨harriving, hturn⟩ := hc.tasks t task (htask.symm.trans hold)
    exact ⟨harriving, hkept _ hturn (by simp)⟩
  · by_cases hkeys : keys = []
    · rw [hs.swept.handles.queue, hkeys, Engine.timeouts, List.map_nil, List.append_nil] at hqueue
      exact hkept _ (hc.queue hqueue) (by simp)
    · exact hs.bus hkeys
  · rw [hs.timers] at hw
    rw [hnow']
    rcases List.mem_append.mp hw with hold | hnew
    · exact hc.timers w hold
    · obtain rfl := List.mem_singleton.mp hnew
      exact ⟨hnow ▸ Nat.lt_add_of_pos_right hinterval, .inl rfl⟩
  · rw [hcount, hs.timers, List.countP_append]
    show 0 + (_ + 1) = 1
    omega
  · have hpos := sweep_mem_iff.mp hmem
    omega
  · rw [hs.timers] at hw
    rcases List.mem_append.mp hw with hold | hnew
    · exact absurd hsweep (hnone w hold)
    · rw [List.mem_singleton.mp hnew]

/-- A sweep leaves a timeout for every case that it ends. -/
theorem Sweeps.loads (hs : Sweeps h h' rest interval due keys) (hready : h.ready = .sweep :: rest) :
    h'.loads.Perm ((Engine.timeouts keys).map Load.mail ++ h.loads) := by
  obtain ⟨new, hready', hnew, -⟩ := hs.ready
  have hnow : h'.now = h.now := hs.swept.handles.now
  have hmail := List.perm_iff_count.mp (hs.swept.handles.mail.map Load.mail)
  have hload : new.filterMap (Turn.load? h.now) = [] := by rw [← filterMap_load? new, hnew]; rfl
  unfold Host.loads
  rw [hnow, hready', hs.timers, hready, List.filterMap_append, List.filterMap_append, hload]
  refine List.perm_iff_count.mpr fun load => ?_
  have hmail := hmail load
  simp only [Option.bind_none, Option.toList_none, List.nil_append, List.map_append,
    List.count_append] at hmail
  simp only [List.filterMap_cons, Turn.load?, List.filterMap_nil, List.count_append,
    List.append_nil]
  omega

theorem Sweeps.backlog (hs : Sweeps h h' rest interval due keys)
    (hready : h.ready = .sweep :: rest) : h'.backlog + 1 ≤ h.backlog + 2 * keys.length := by
  obtain ⟨new, hready', -, hlength⟩ := hs.ready
  have hposted : (Engine.timeouts keys).length = keys.length := by simp [Engine.timeouts]
  unfold Host.backlog
  rw [hready', hready, hs.swept.handles.queue]
  simp only [List.length_append, List.length_cons, hposted]
  omega

end

/-! ## The clock -/

/-- Turns that are added one by one. -/
theorem foldl_ready {wake : Host σ → Timer → Host σ} {ws : List Timer}
    (hwake : ∀ w ∈ ws, ∀ h, wake h w = { h with ready := h.ready ++ [w.turn] }) (h : Host σ) :
    ws.foldl wake h = { h with ready := h.ready ++ ws.map Timer.turn } := by
  induction ws generalizing h with
  | nil => simp
  | cons w ws ih =>
      rw [List.foldl_cons, hwake w (by simp), ih fun w' hmem => hwake w' (by simp [hmem])]
      simp

/-- When no task waits for a timer, the turns that are due come last, one after the other. -/
theorem goTo_of_no_task (h : Host σ) (htimers : ∀ w ∈ h.timers, ∀ t, w.turn ≠ .task t)
    (instant : Nat) :
    h.goTo instant = { h with
      engine := { h.engine with now := instant }
      ready := h.ready ++ (h.timers.filter (·.due ≤ instant)).map Timer.turn
      timers := h.timers.filter fun w => !(w.due ≤ instant : Bool) } := by
  unfold goTo
  rw [List.partition_eq_filter_filter]
  refine foldl_ready (fun w hmem h' => ?_) _
  split
  · rename_i t hturn
    exact absurd hturn (htimers w (List.mem_filter.mp hmem).1 t)
  · rfl

theorem filterMap_turn {ws : List Timer} {instant : Nat} (hdue : ∀ w ∈ ws, w.due = instant) :
    (ws.map Timer.turn).filterMap (Turn.load? instant) =
      ws.filterMap fun w => w.turn.load? w.due := by
  induction ws with
  | nil => rfl
  | cons w ws ih =>
      have hrest := ih fun w' hmem => hdue w' (by simp [hmem])
      rw [List.map_cons, List.filterMap_cons, List.filterMap_cons, hrest, hdue w (by simp)]

theorem Calm.no_task (hc : Calm h interval due) : ∀ w ∈ h.timers, ∀ t, w.turn ≠ .task t := by
  intro w hw t heq
  rcases (hc.timers w hw).2 with hsweep | ⟨cs, hcallbacks⟩
  · rw [hsweep] at heq
    cases heq
  · rw [hcallbacks] at heq
    cases heq

/-- When nothing can run the clock goes to the next timer. -/
theorem Calm.goTo (hc : Calm h interval due) (hidle : h.ready = []) {instant : Nat}
    (hlater : h.now ≤ instant) (hfirst : ∀ w ∈ h.timers, instant ≤ w.due) :
    Calm (h.goTo instant) interval due ∧ (h.goTo instant).loads.Perm h.loads := by
  rw [goTo_of_no_task h hc.no_task, hidle, List.nil_append]
  have hsplit := List.filter_append_perm (fun w : Timer => decide (w.due ≤ instant)) h.timers
  have hnow : ∀ w ∈ h.timers.filter (·.due ≤ instant), w ∈ h.timers ∧ w.due = instant := by
    intro w hw
    obtain ⟨hmem, hdue⟩ := List.mem_filter.mp hw
    exact ⟨hmem, Nat.le_antisymm (of_decide_eq_true hdue) (hfirst w hmem)⟩
  refine ⟨⟨?_, hc.blank, fun t task hold => ?_, fun hqueue => ?_, hc.aborted, fun w hw => ?_,
    hc.ticker, ?_, fun hmem => ?_, fun w hw => ?_, hc.multiple, ?_⟩, ?_⟩
  · exact ⟨hc.undisturbed.free, hc.undisturbed.isOpen, hc.undisturbed.listeners,
      hc.undisturbed.fresh⟩
  · have hturn := (hc.tasks t task hold).2
    rw [hidle] at hturn
    cases hturn
  · have hturn := hc.queue hqueue
    rw [hidle] at hturn
    cases hturn
  · obtain ⟨hmem, hnot⟩ := List.mem_filter.mp hw
    have hlt : instant < w.due := by simpa using hnot
    exact ⟨hlt, (hc.timers w hmem).2⟩
  · have hone := hc.once
    rw [hidle, List.countP_nil, Nat.zero_add, ← hsplit.countP_eq, List.countP_append] at hone
    rw [List.countP_map]
    exact hone
  · obtain ⟨w, hw, hsweep⟩ := List.mem_map.mp hmem
    obtain ⟨hold, hdue⟩ := hnow w hw
    rw [← hc.later w hold hsweep, hdue]
    rfl
  · exact hc.later w (List.mem_filter.mp hw).1
  · exact Nat.le_trans hc.soon (Nat.add_le_add_right hlater _)
  · have hturns := filterMap_turn fun w hw => (hnow w hw).2
    have hall := hsplit.filterMap fun w => w.turn.load? w.due
    rw [List.filterMap_append, ← hturns] at hall
    unfold loads
    rw [hidle, List.filterMap_nil, List.append_nil, List.append_assoc]
    exact hall.append_left _

end Host

end Rendezvous
