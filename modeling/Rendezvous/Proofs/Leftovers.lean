import Mathlib.Algebra.GroupWithZero.Nat
import Rendezvous.Proofs.Rounds

/-!
# No state outlives its use

`Round.bare` says that two rounds leave nothing.  Here it is shown that there are such rounds: when
only sweeps are at work then they can all be taken to their end, and so can the messages that they
bring about, whatever locks the sweeps wait for.

* `Task.toil`, `Engine.toil`: an upper bound of what is left to do;
* `Winding`: only sweeps, and what they bring about, are at work;
* `Winding.progress`: as long as something is at work, something can go on and lowers the toil;
* `Winding.drain`: hence everything comes to its end while the clock stands still;
* `no_state_outlives_its_use`: after two rounds nothing is left.
-/

namespace Rendezvous

/-- Whether the task is a sweep. -/
def Task.isSweep : Task → Bool
  | .sweeping | .walking _ | .locking (.evict ..) => true
  | _ => false

/-- An upper bound of the steps that a sweep or a message on its way brings about, while there are
`n` cases.  A key takes a sweep two strides and may bring about a message, which takes two more. -/
def Task.toil (n : Nat) : Task → Nat
  | .arriving _ => 1
  | .sweeping => 4 * n + 2
  | .walking sweep => 4 * sweep.rest.length + 1
  | .locking (.evict sweep _ _) => 4 * sweep.rest.length + 4
  | _ => 0

theorem Task.toil_mono {n n' : Nat} (h : n' ≤ n) (task : Task) : task.toil n' ≤ task.toil n := by
  cases task with
  | sweeping =>
      simp only [Task.toil]
      omega
  | arriving | walking | seeking | claiming | resolving | negotiating | transferring | holding
  | awaiting => exact Nat.le_refl _
  | locking part => cases part <;> exact Nat.le_refl _

theorem Task.rests_of_isSweep {P : Message → Prop} {task : Task} (h : task.isSweep) :
    task.Rests P := by
  cases task with
  | sweeping | walking => trivial
  | locking part =>
      cases part with
      | evict => trivial
      | handle | keep => cases h
  | arriving | seeking | claiming | resolving | negotiating | transferring | holding
  | awaiting => cases h

namespace Engine

/-- An upper bound of the steps that are left to do. -/
def toil (e : Engine) : Nat :=
  2 * e.bus.queue.length + (e.tasks.values.map (Task.toil e.store.cases.size)).sum

/-- Only sweeps and the messages that they bring about are at work. -/
structure Winding (e : Engine) : Prop where
  dormant : Dormant Message.Lockless e
  tasks : ∀ t task, e.tasks.get? t = some task → task.isSweep ∨ ∃ m, task = .arriving m

variable {e e' : Engine} {a : Action} {t : TaskId} {old task : Task}

/-! ## Toil -/

theorem sum_toil_mono {n n' : Nat} (h : n' ≤ n) (tasks : List Task) :
    (tasks.map (Task.toil n')).sum ≤ (tasks.map (Task.toil n)).sum := by
  induction tasks with
  | nil => exact Nat.le_refl _
  | cons task tasks ih =>
      simp only [List.map_cons, List.sum_cons]
      exact Nat.add_le_add (task.toil_mono h) ih

/-- Apart from one task the toil is that of the others and of the queue. -/
theorem toil_eq (e : Engine) (t : TaskId) :
    e.toil = 2 * e.bus.queue.length +
      ((e.tasks.get? t).elim 0 (Task.toil e.store.cases.size) +
        ((e.tasks.erase t).values.map (Task.toil e.store.cases.size)).sum) := by
  unfold toil
  rw [((e.tasks.values_perm_erase t).map _).sum_nat]
  cases e.tasks.get? t <;> simp

/-- The toil is lower when a task has moved to where less is to do. -/
theorem toil_lt_of_insert (htasks : e'.tasks = e.tasks.insert t task)
    (hsize : e'.store.cases.size ≤ e.store.cases.size)
    (hless : 2 * e'.bus.queue.length + task.toil e'.store.cases.size <
      2 * e.bus.queue.length + (e.tasks.get? t).elim 0 (Task.toil e.store.cases.size)) :
    e'.toil < e.toil := by
  have hothers := sum_toil_mono hsize (e.tasks.erase t).values
  rw [e.toil_eq t, toil, htasks, ((e.tasks.values_perm_insert t task).map _).sum_nat]
  simp only [List.map_cons, List.sum_cons]
  omega

/-- The toil is lower when a task has ended. -/
theorem toil_lt_of_erase (hold : e.tasks.get? t = some old)
    (htasks : e'.tasks = e.tasks.erase t) (hsize : e'.store.cases.size ≤ e.store.cases.size)
    (hqueue : e'.bus.queue = e.bus.queue) (hless : 0 < old.toil e.store.cases.size) :
    e'.toil < e.toil := by
  have hothers := sum_toil_mono hsize (e.tasks.erase t).values
  rw [e.toil_eq t, hold, toil, htasks, hqueue]
  simp only [Option.elim_some]
  omega

/-! ## Progress -/

namespace Winding

theorem insert (hw : e.Winding) (hd : Dormant Message.Lockless e')
    (htasks : e'.tasks = e.tasks.insert t task) (htask : task.isSweep ∨ ∃ m, task = .arriving m) :
    e'.Winding where
  dormant := hd
  tasks t' task' hold := by
    rw [htasks, Assoc.get?_insert] at hold
    split at hold
    · cases hold
      exact htask
    · exact hw.tasks t' task' hold

theorem erase (hw : e.Winding) (hd : Dormant Message.Lockless e')
    (htasks : e'.tasks = e.tasks.erase t) : e'.Winding where
  dormant := hd
  tasks t' task' hold := by
    rw [htasks, Assoc.get?_erase] at hold
    split at hold
    · cases hold
    · exact hw.tasks t' task' hold

end Winding

/-- Where somebody is at work, somebody waits for no lock. -/
theorem Sound.exists_runnable (h : Sound e) (hold : e.tasks.get? t = some task) :
    ∃ t task, e.tasks.get? t = some task ∧
      ∀ part, task = .locking part → e.store.locks.owner? part.key = some t := by
  by_cases hlocking : ∃ part, task = .locking part
  · obtain ⟨part, rfl⟩ := hlocking
    have hmem : t ∈ e.store.locks.queue part.key := by
      rw [h.orderly.queued, hold]
      rfl
    cases ho : e.store.locks.owner? part.key with
    | none =>
        rw [List.head?_eq_none_iff.mp ho] at hmem
        cases hmem
    | some holder =>
        obtain ⟨task', hold', hkey⟩ := h.orderly.owner_position ho
        refine ⟨holder, task', hold', fun part' heq => ?_⟩
        obtain rfl := heq
        rwa [Option.some.inj hkey]
  · exact ⟨t, task, hold, fun part heq => absurd ⟨part, heq⟩ hlocking⟩

/-- The action takes the engine a step nearer to its end, while the clock stands still. -/
structure Furthers (e : Engine) (a : Action) : Prop where
  input : a.isInput = false
  now : (e.act a).now = e.now
  winding : (e.act a).Winding
  toil : (e.act a).toil < e.toil

namespace Winding

theorem furthers_of_insert (hw : e.Winding) (h : Sound e) (hact : e.act a = e')
    (ha : a.isInput = false) (hnow : e'.now = e.now) (htasks : e'.tasks = e.tasks.insert t task)
    (htask : task.isSweep ∨ ∃ m, task = .arriving m)
    (hsize : e'.store.cases.size ≤ e.store.cases.size)
    (hless : 2 * e'.bus.queue.length + task.toil e'.store.cases.size <
      2 * e.bus.queue.length + (e.tasks.get? t).elim 0 (Task.toil e.store.cases.size)) :
    e.Furthers a := by
  have hnext := hw.dormant.act h ha
  rw [hact] at hnext
  exact ⟨ha, hact ▸ hnow, hact ▸ hw.insert hnext htasks htask,
    hact ▸ toil_lt_of_insert htasks hsize hless⟩

theorem furthers_of_erase (hw : e.Winding) (h : Sound e) (hact : e.act a = e')
    (ha : a.isInput = false) (hnow : e'.now = e.now) (hold : e.tasks.get? t = some old)
    (htasks : e'.tasks = e.tasks.erase t) (hcases : e'.store.cases = e.store.cases)
    (hqueue : e'.bus.queue = e.bus.queue) (hless : 0 < old.toil e.store.cases.size) :
    e.Furthers a := by
  have hnext := hw.dormant.act h ha
  rw [hact] at hnext
  exact ⟨ha, hact ▸ hnow, hact ▸ hw.erase hnext htasks,
    hact ▸ toil_lt_of_erase hold htasks (Nat.le_of_eq (by rw [hcases])) hqueue hless⟩

/-- A queued message gets its task. -/
theorem furthers_dispatch (hw : e.Winding) (h : Sound e) (hqueue : e.bus.queue ≠ []) :
    e.Furthers .dispatch := by
  obtain ⟨m, rest, hqueue⟩ := List.exists_cons_of_ne_nil hqueue
  have hact : e.act .dispatch =
      (({ e with bus := { e.bus with queue := rest } } : Engine).spawn (.arriving m)).2 := by
    simp [act, dispatchNext, hqueue]
  have hfree := h.orderly.fresh e.nextTask (Nat.le_refl _)
  refine hw.furthers_of_insert h hact rfl rfl rfl (.inr ⟨m, rfl⟩) (Nat.le_refl _) ?_
  rw [hfree, hqueue, List.length_cons]
  simp only [spawn_frame, Task.toil, Option.elim_none]
  omega

/-- A sweep looks around, and finds no more keys than there are cases. -/
theorem furthers_look (hw : e.Winding) (h : Sound e) (hold : e.tasks.get? t = some .sweeping) :
    e.Furthers (.look t e.now (e.store.expired e.now)) := by
  have hact : e.act (.look t e.now (e.store.expired e.now)) =
      e.lookAround t e.now (e.store.expired e.now) := by
    simp [act, look, hold]
  have hfew : (e.store.expired e.now).length ≤ e.store.cases.size := by
    rw [CaseStore.expired, List.length_map, ← Assoc.length_values]
    exact List.length_filter_le _ _
  refine hw.furthers_of_insert h hact rfl rfl rfl (.inl rfl) (Nat.le_refl _) ?_
  rw [hold]
  simp only [lookAround, setTask_frame, Task.toil, Option.elim_some]
  omega

/-- A message that needs no lock is handled. -/
theorem furthers_arriving (hw : e.Winding) (h : Sound e) {m : Message}
    (hold : e.tasks.get? t = some (.arriving m)) : e.Furthers (.stride t) := by
  have hlock : m.needsLock = false := hw.dormant.tasks t _ hold
  have hact : e.act (.stride t) = e.begin t m := by
    simp [act, stride, hold, hlock]
  have hregular := h.regular.tasks t m (by simp [hold, Task.message?])
  obtain ⟨o, ho⟩ := eq_message_of_isRegular hregular hlock
  rw [ho, begin_message] at hact
  exact hw.furthers_of_erase h hact rfl (by simp) hold (by simp) (by simp) (by simp) Nat.one_pos

/-- A sweep between two keys ends, or joins the queue of the next key. -/
theorem furthers_walking (hw : e.Winding) (h : Sound e) {sweep : Sweep}
    (hold : e.tasks.get? t = some (.walking sweep)) : e.Furthers (.stride t) := by
  cases hrest : sweep.rest with
  | nil =>
      have hact := act_stride_end hold hrest
      exact hw.furthers_of_erase h hact rfl rfl hold rfl rfl rfl (Nat.succ_pos _)
  | cons x rest =>
      have hact := act_stride_next hold hrest
      refine hw.furthers_of_insert h hact rfl rfl rfl (.inl rfl) (Nat.le_refl _) ?_
      rw [hold]
      simp only [queueUp, setTask_frame, askLock_frame, Task.toil, Option.elim_some, hrest,
        List.length_cons]
      omega

/-- A sweep that owns the lock visits its key. -/
theorem furthers_visit (hw : e.Winding) (h : Sound e) {sweep : Sweep} {key : CorrelationKey}
    {seen : Stage} (hold : e.tasks.get? t = some (.locking (.evict sweep key seen)))
    (ho : e.store.locks.owner? key = some t) : e.Furthers (.stride t) := by
  have howns : e.owns t key := by simpa [owns] using ho
  have hact := act_stride_visit hold howns
  by_cases hdue : e.Due sweep.startedAt key seen
  · rw [visit_of_due hdue] at hact
    have hfewer : (e.store.cases.erase key).size ≤ e.store.cases.size := by
      rw [e.store.cases.size_eq_erase key]
      exact Nat.le_add_left _ _
    have hqueue : (e.bus.publish (.failed key .timeout)).queue.length ≤ e.bus.queue.length + 1 := by
      unfold Bus.publish
      split <;> simp
    refine hw.furthers_of_insert h hact rfl (by simp) (by simp; rfl) (.inl rfl) ?_ ?_
    · simpa [CaseStore.remove] using hfewer
    · rw [hold]
      simp only [setTask_frame, expel_frame, Task.toil, Option.elim_some]
      omega
  · rw [visit_of_not_due hdue] at hact
    refine hw.furthers_of_insert h hact rfl (by simp) (by simp; rfl) (.inl rfl) (by simp) ?_
    rw [hold]
    simp only [setTask_frame, leaveLock_frame, Task.toil, Option.elim_some]
    omega

/-- As long as something is at work, something can go on. -/
theorem progress (hw : e.Winding) (h : Sound e) : e.AtRest ∨ ∃ a, e.Furthers a := by
  by_cases hqueue : e.bus.queue = []
  · by_cases hgone : ∀ t, e.tasks.get? t = none
    · exact .inl ⟨hqueue, hgone⟩
    · right
      obtain ⟨t', hsome⟩ := Classical.not_forall.mp hgone
      obtain ⟨task', hold'⟩ := Option.ne_none_iff_exists'.mp hsome
      obtain ⟨t, task, hold, hfree⟩ := h.exists_runnable hold'
      rcases hw.tasks t task hold with hsweep | ⟨m, rfl⟩
      · cases task with
        | sweeping => exact ⟨_, hw.furthers_look h hold⟩
        | walking sweep => exact ⟨_, hw.furthers_walking h hold⟩
        | locking part =>
            cases part with
            | evict sweep key seen => exact ⟨_, hw.furthers_visit h hold (hfree _ rfl)⟩
            | handle | keep => cases hsweep
        | arriving | seeking | claiming | resolving | negotiating | transferring | holding
        | awaiting => cases hsweep
      · exact ⟨_, hw.furthers_arriving h hold⟩
  · exact .inr ⟨_, hw.furthers_dispatch h hqueue⟩

/-- Whatever sweeps are at work, they and what they bring about can be taken to the end at once. -/
theorem drain (hw : e.Winding) (h : Sound e) :
    ∃ as, (∀ a ∈ as, a.isInput = false) ∧ (e.after as).AtRest ∧ (e.after as).now = e.now := by
  induction htoil : e.toil using Nat.strongRecOn generalizing e with
  | _ n ih =>
      rcases hw.progress h with hrest | ⟨a, hfurthers⟩
      · exact ⟨[], by simp, hrest, rfl⟩
      · obtain ⟨as, hinput, hrest, hnow⟩ :=
          ih _ (htoil ▸ hfurthers.toil) hfurthers.winding (h.act a) rfl
        refine ⟨a :: as, ?_, hrest, hnow.trans hfurthers.now⟩
        simpa [hfurthers.input] using hinput

end Winding

/-! ## Rounds -/

theorem winding_of_isSweep (hqueue : e.bus.queue = [])
    (hidle : ∀ t task, e.tasks.get? t = some task → task.isSweep) : e.Winding where
  dormant :=
    { tasks := fun t task hold => Task.rests_of_isSweep (hidle t task hold)
      queue := fun m hm => by simp [hqueue] at hm }
  tasks t task hold := .inl (hidle t task hold)

/-- Where only sweeps are at work there is a round as of any instant to come, and it takes no
time. -/
theorem exists_round (h : Sound e) (hqueue : e.bus.queue = [])
    (hidle : ∀ t task, e.tasks.get? t = some task → task.isSweep) {instant : Nat}
    (hlater : e.now ≤ instant) : ∃ e', Round e instant e' ∧ e'.now = instant := by
  let before : List Action := [.pass (instant - e.now), .beginSweep]
  have hw := winding_of_isSweep hqueue hidle
  have hbefore : ∀ a ∈ before, a.isInput = false := by simp [before, Action.isInput]
  have hnow : (e.after before).now = instant := by
    show e.now + (instant - e.now) = instant
    omega
  have hstart : (e.after before).tasks = e.tasks.insert e.nextTask .sweeping := rfl
  have hold : (e.after before).tasks.get? e.nextTask = some .sweeping := by simp [hstart]
  have hsound := h.after before
  have hnext : (e.after before).Winding :=
    hw.insert (hw.dormant.after h hbefore).1 hstart (.inl rfl)
  -- the sweep looks around, and then everything is taken to its end
  have hlook := hnext.furthers_look hsound hold
  obtain ⟨during, hduring, hrest, hstill⟩ := hlook.winding.drain (hsound.act _)
  have hend := hstill.trans (hlook.now.trans hnow)
  rw [hnow, ← after_cons, ← after_append] at hrest hend
  refine ⟨_, .intro before during e.nextTask _ (fun a ha => ?_) hold (Nat.le_of_eq hnow.symm)
    (.refl _) hrest, hend⟩
  simp only [List.mem_append, List.mem_cons] at ha
  rcases ha with hfirst | rfl | hlast
  · exact hbefore a hfirst
  · rfl
  · exact hduring a hlast

theorem AtRest.exists_round (hrest : e.AtRest) (h : Sound e) {instant : Nat}
    (hlater : e.now ≤ instant) : ∃ e', Round e instant e' ∧ e'.now = instant :=
  Engine.exists_round h hrest.1 (fun t task hold => by simp [hrest.2 t] at hold) hlater

/-- No state outlives its use.  When no message is queued and nobody is at work but sweeps, then
after a round that begins when everything has expired that is there now, and another one that begins
when everything has expired that was there after the first, nothing is kept.  There are such rounds,
as of any instants from now on, and they take no time. -/
theorem no_state_outlives_its_use (s : Settings) (as : List Action)
    (hqueue : ((ofSettings s).after as).bus.queue = [])
    (hidle : ∀ t task, ((ofSettings s).after as).tasks.get? t = some task → task.isSweep) :
    let e := (ofSettings s).after as
    (∀ t₁, e.now ≤ t₁ → ∃ e₁, Round e t₁ e₁ ∧ e₁.now = t₁ ∧
      ∀ t₂, t₁ ≤ t₂ → ∃ e₂, Round e₁ t₂ e₂ ∧ e₂.now = t₂) ∧
    ∀ t₁ e₁ t₂ e₂, e.now + s.longestTtl ≤ t₁ → Round e t₁ e₁ →
      e₁.now + s.longestTtl ≤ t₂ → Round e₁ t₂ e₂ → Bare e₂ := by
  intro e
  have h : Sound e := sound_after s as
  have hd : Dormant Message.Lockless e := (winding_of_isSweep hqueue hidle).dormant
  constructor
  · intro t₁ hlater
    obtain ⟨e₁, hr₁, hnow₁⟩ := exists_round h hqueue hidle hlater
    refine ⟨e₁, hr₁, hnow₁, fun t₂ hlater₂ => ?_⟩
    obtain ⟨as₁, heq₁⟩ := hr₁.exists_after
    have h₁ : Sound e₁ := heq₁ ▸ h.after as₁
    exact hr₁.atRest.exists_round h₁ (hnow₁ ▸ hlater₂)
  · intro t₁ e₁ t₂ e₂ hdue₁ hr₁ hdue₂ hr₂
    exact hr₁.bare hr₂ h hd (dated_after s as) (backed_after s as) hdue₁ hdue₂

/-- One request has failed, which leaves its negotiation closed and an outcome; another one waits
for its confirmation, an offer is cached and a confirmation of nobody's negotiation is parked. -/
theorem no_state_outlives_its_use_of_leftovers :
    let r : DataRequest := { key := ⟨"k"⟩, asset := ⟨"a"⟩, provider := "p" }
    let r' : DataRequest := { key := ⟨"k'"⟩, asset := ⟨"a"⟩, provider := "p" }
    let offer : ContractOffer := { id := "o", asset := ⟨"a"⟩, provider := "p" }
    let as : List Action :=
      [.submit r, .dispatch, .stride 0, .stride 0, .reply 0 (.offer (.ok offer)),
        .reply 0 (.negotiation (.ok ⟨"n"⟩)), .notify (.negotiationFailed ⟨"n"⟩ "no"), .dispatch,
        .stride 1, .stride 1, .dispatch, .stride 2, .submit r', .dispatch, .stride 3, .stride 3,
        .reply 3 (.negotiation (.ok ⟨"n'"⟩)), .notify (.confirmed ⟨"m"⟩ ⟨"c"⟩)]
    let e := (ofSettings {}).after as
    (e.store.cases.isEmpty = false ∧ e.registry.records.isEmpty = false ∧
      e.registry.index.isEmpty = false ∧ e.registry.parked.isEmpty = false ∧
      e.registry.closed.isEmpty = false ∧ e.board.outcomes.isEmpty = false ∧
      e.offers.isEmpty = false) ∧
    ∃ e₁ e₂, Round e 600000 e₁ ∧ Round e₁ 1200000 e₂ ∧ Bare e₂ := by
  intro r r' offer as
  have hqueue : ((ofSettings {}).after as).bus.queue = [] := by decide
  have hnobody : ((ofSettings {}).after as).tasks.isEmpty := by decide
  have hnow : ((ofSettings {}).after as).now = 0 := by decide
  have hlongest : ({} : Settings).longestTtl = 600000 := by decide
  have hidle : ∀ t task, ((ofSettings {}).after as).tasks.get? t = some task → task.isSweep := by
    intro t task hold
    have hmem := (Assoc.mem_entries _ _ _).mpr hold
    rw [List.isEmpty_iff.mp hnobody] at hmem
    cases hmem
  obtain ⟨hexists, hbare⟩ := no_state_outlives_its_use {} as hqueue hidle
  obtain ⟨e₁, hr₁, hnow₁, hnext⟩ := hexists 600000 (by rw [hnow]; exact Nat.zero_le _)
  obtain ⟨e₂, hr₂, -⟩ := hnext 1200000 (by omega)
  refine ⟨by decide, e₁, e₂, hr₁, hr₂, hbare 600000 e₁ 1200000 e₂ ?_ hr₁ ?_ hr₂⟩
  · exact Nat.le_of_eq (by rw [hnow, hlongest])
  · exact Nat.le_of_eq (by rw [hnow₁, hlongest])

end Engine

end Rendezvous
