import Rendezvous.Proofs.Eviction
import Rendezvous.Proofs.Undisturbed

/-!
# Sweeps and deliveries that nobody interrupts

A host also runs a periodic sweep without a break.  In an undisturbed engine the sweep ends every
case that it found expired, one after the other, and then drops what has outlived its use.  Handing
out the queued messages is without a break as well.

* `Swept`: what a sweep leaves;
* `Undisturbed.swept`: a sweep from its beginning to its end;
* `HandedOut`, `Undisturbed.handedOut`: the same for the queued messages.
-/

namespace Rendezvous

namespace Assoc

variable {κ α : Type} [DecidableEq κ]

theorem get?_foldl_erase (keys : List κ) (m : Assoc κ α) (k : κ) :
    (keys.foldl erase m).get? k = if k ∈ keys then none else m.get? k := by
  induction keys generalizing m with
  | nil => simp
  | cons key keys ih =>
      rw [List.foldl_cons, ih, get?_erase]
      by_cases hk : k = key <;> simp [hk]

theorem size_foldl_erase {keys : List κ} (honce : keys.Nodup) {m : Assoc κ α}
    (hsome : ∀ k ∈ keys, (m.get? k).isSome) :
    (keys.foldl erase m).size + keys.length = m.size := by
  induction keys generalizing m with
  | nil => rfl
  | cons key keys ih =>
      rw [List.nodup_cons] at honce
      have hrest := ih honce.2 (m := m.erase key) fun k hk => by
        have hne : k ≠ key := fun heq => honce.1 (heq ▸ hk)
        rw [get?_erase, if_neg hne]
        exact hsome k (by simp [hk])
      obtain ⟨v, hv⟩ := Option.isSome_iff_exists.mp (hsome key (by simp))
      have hsize := m.size_eq_erase key
      rw [hv, Option.toList_some, List.length_singleton] at hsize
      rw [List.foldl_cons, List.length_cons]
      omega

end Assoc

namespace CaseStore

variable {s : CaseStore} {now : Nat}

/-- Every case is filed under its own key. -/
def Filed (s : CaseStore) : Prop := ∀ k c, s.get? k = some c → c.key = k

theorem Filed.mem_expired (h : s.Filed) {k : CorrelationKey} {stage : Stage} :
    (k, stage) ∈ s.expired now ↔
      ∃ c, s.get? k = some c ∧ c.stage = stage ∧ c.isExpired s.ttl now := by
  unfold expired
  rw [List.mem_map]
  constructor
  · rintro ⟨c, hc, hpair⟩
    obtain ⟨hvalue, hexpired⟩ := List.mem_filter.mp hc
    obtain ⟨k', hcase⟩ := (Assoc.mem_values _ c).mp hvalue
    obtain ⟨rfl, rfl⟩ := Prod.mk.inj hpair
    rw [← h k' c hcase] at hcase
    exact ⟨c, hcase, rfl, hexpired⟩
  · rintro ⟨c, hcase, rfl, hexpired⟩
    refine ⟨c, List.mem_filter.mpr ⟨(Assoc.mem_values _ c).mpr ⟨k, hcase⟩, hexpired⟩, ?_⟩
    rw [h k c hcase]

/-- No key is found expired twice. -/
theorem Filed.nodup_expired (h : s.Filed) (now : Nat) :
    ((s.expired now).map Prod.fst).Nodup := by
  have hkeys : (s.expired now).map Prod.fst =
      (s.cases.entries.filter fun x => x.2.isExpired s.ttl now).map Prod.fst := by
    unfold expired Assoc.values
    rw [List.filter_map, List.map_map, List.map_map]
    refine List.map_congr_left fun x hx => ?_
    exact h x.1 x.2 ((Assoc.mem_entries _ _ _).mp (List.mem_filter.mp hx).1)
  rw [hkeys]
  exact s.cases.nodup.sublist (List.filter_sublist.map Prod.fst)

end CaseStore

namespace Engine

variable {e e' : Engine} {t : TaskId}

/-- The records of `keys` are taken one by one at `now`. -/
def takeAll (now : Nat) (keys : List CorrelationKey) (registry : Registry) : Registry :=
  keys.foldl (fun r key => (r.take now key).2) registry

/-- The timeouts of `keys`. -/
def timeouts (keys : List CorrelationKey) : List Message := keys.map (Message.failed · .timeout)

/-! ## One key after the other -/

/-- From `e` to `e'` the sweep `t` ends the cases of `keys` and comes to stand at `sweep`. -/
structure Walks (e e' : Engine) (t : TaskId) (keys : List CorrelationKey) (sweep : Sweep) :
    Prop where
  undisturbed : e'.Undisturbed
  now : e'.now = e.now
  destination : e'.destination = e.destination
  ttl : e'.store.ttl = e.store.ttl
  moved : Moved e e' t (some (.walking sweep))
  nextTask : e'.nextTask = e.nextTask
  queue : e'.bus.queue = e.bus.queue ++ timeouts keys
  cases : e'.store.cases = keys.foldl Assoc.erase e.store.cases
  registry : e'.registry = takeAll e.now keys e.registry
  offers : e'.offers = e.offers
  history : ∃ evs, e'.history = evs ++ e.history ∧ Tells evs (timeouts keys) (fun _ => []) ∧
    ∀ ev ∈ evs, ∀ t f, ev ≠ .finished t f

/-- A sweep that finds the first of its cases expired ends it in two strides. -/
theorem Undisturbed.walks_one (h : e.Undisturbed) {sweep : Sweep} {key : CorrelationKey}
    {seen : Stage} {rest : List (CorrelationKey × Stage)}
    (hold : e.tasks.get? t = some (.walking sweep)) (hrest : sweep.rest = (key, seen) :: rest)
    (hdue : e.Due sweep.startedAt key seen) :
    Walks e ((e.stride t).stride t) t [key] { sweep with rest, evicted := sweep.evicted + 1 } := by
  let left : Sweep := { sweep with rest }
  have hi : Inside e (e.queueUp t (.evict left key seen)) t key _ :=
    h.inside_queueUp t (.evict left key seen)
  have hfirst : e.stride t = e.queueUp t (.evict left key seen) := by
    simp [stride, hold, hrest, left]
  have hsame : (e.queueUp t (.evict left key seen)).store.cases = e.store.cases ∧
      (e.queueUp t (.evict left key seen)).registry = e.registry ∧
      (e.queueUp t (.evict left key seen)).offers = e.offers ∧
      (e.queueUp t (.evict left key seen)).history = e.history := ⟨rfl, rfl, rfl, rfl⟩
  have hdue' : (e.queueUp t (.evict left key seen)).Due left.startedAt key seen := hdue
  rw [hfirst]
  generalize e.queueUp t (.evict left key seen) = inside at hi hsame hdue'
  have howns : inside.owns t key := decide_eq_true (KeyLocks.owner?_of_held hi.held)
  have hsecond : inside.stride t = (inside.expel t key).setTask t
      (.walking { left with evicted := left.evicted + 1 }) := by
    rw [stride, hi.moved.self]
    simp only [Section.key, howns, if_true, enter]
    exact visit_of_due hdue' t
  have hheir : (inside.store.remove key).locks.heir? key t = none := KeyLocks.heir?_of_held hi.held
  have hopen := hi.isOpen
  obtain ⟨hcases, hregistry, hoffers, hhistory⟩ := hsame
  rw [hsecond]
  refine ⟨⟨?_, ?_, ?_, fun t' hle => ?_⟩, ?_, ?_, ?_, ⟨by simp [left], fun t' ht => ?_⟩, ?_, ?_, ?_,
    ?_, ?_, [.published (.failed key .timeout), .evicted key], ?_, ⟨?_, rfl, fun k => rfl⟩, by simp⟩
  · simpa [Free] using KeyLocks.leave_of_held hi.held
  · simpa [isOpen_publish] using hopen
  · simpa [expel] using hi.listeners
  · have hfree : e.tasks.get? t' = none := h.fresh t' (by simpa [hi.nextTask] using hle)
    have ht : t ≠ t' := fun heq => by simp [← heq, hold] at hfree
    simp [ht, hi.moved.others t' (Ne.symm ht), hfree]
  · simp [hi.now]
  · simp [hi.destination]
  · simp [CaseStore.remove, hi.ttl]
  · simp [Ne.symm ht, hi.moved.others t' ht]
  · simp [hi.nextTask]
  · simp [Bus.publish, hopen, hi.queue, timeouts]
  · simp [CaseStore.remove, hcases]
  · simp [takeAll, hregistry, hi.now]
  · simp [expel, hoffers]
  · simp [expel, publish_of_isOpen, hopen, hheir, hhistory]
  · simp [timeouts]

theorem Walks.trans {e'' : Engine} {keys keys' : List CorrelationKey} {sweep sweep' : Sweep}
    (h : Walks e e' t keys sweep) (h' : Walks e' e'' t keys' sweep') :
    Walks e e'' t (keys ++ keys') sweep' where
  undisturbed := h'.undisturbed
  now := h'.now.trans h.now
  destination := h'.destination.trans h.destination
  ttl := h'.ttl.trans h.ttl
  moved := ⟨h'.moved.self, fun t' ht => (h'.moved.others t' ht).trans (h.moved.others t' ht)⟩
  nextTask := h'.nextTask.trans h.nextTask
  queue := by
    rw [h'.queue, h.queue, timeouts, timeouts, timeouts, List.map_append, List.append_assoc]
  cases := by rw [h'.cases, h.cases, List.foldl_append]
  registry := by rw [h'.registry, h.registry, h.now, takeAll, takeAll, takeAll, List.foldl_append]
  offers := h'.offers.trans h.offers
  history := by
    obtain ⟨evs, hhistory, htells, hnone⟩ := h.history
    obtain ⟨evs', hhistory', htells', hnone'⟩ := h'.history
    refine ⟨evs' ++ evs, by rw [hhistory', hhistory, List.append_assoc], ?_, fun ev hmem => ?_⟩
    · have hboth := htells.append htells'
      unfold timeouts at hboth ⊢
      rw [List.map_append]
      exact hboth
    · rcases List.mem_append.mp hmem with hmem | hmem
      · exact hnone' ev hmem
      · exact hnone ev hmem

/-- Ending the case of one key leaves the others due. -/
theorem Walks.due {keys : List CorrelationKey} {sweep : Sweep} (h : Walks e e' t keys sweep)
    {startedAt : Nat} {key : CorrelationKey} {seen : Stage} (hdue : e.Due startedAt key seen)
    (hother : key ∉ keys) : e'.Due startedAt key seen := by
  obtain ⟨c, hcase, hstage, hexpired⟩ := hdue
  refine ⟨c, ?_, hstage, h.ttl ▸ hexpired⟩
  unfold CaseStore.get?
  rw [h.cases, Assoc.get?_foldl_erase, if_neg hother]
  exact hcase

/-- A sweep walks from key to key without a break. -/
theorem Undisturbed.walks (h : e.Undisturbed) {sweep : Sweep}
    (hold : e.tasks.get? t = some (.walking sweep))
    (hdue : ∀ x ∈ sweep.rest, e.Due sweep.startedAt x.1 x.2)
    (honce : (sweep.rest.map Prod.fst).Nodup) :
    ∃ n, Walks e (e.after (List.replicate (2 * sweep.rest.length) (.stride t))) t
      (sweep.rest.map Prod.fst) { sweep with rest := [], evicted := n } := by
  generalize hseen : sweep.rest = seen at hdue honce
  induction seen generalizing e sweep with
  | nil =>
      obtain ⟨startedAt, rest, evicted⟩ := sweep
      cases hseen
      refine ⟨evicted, h, rfl, rfl, rfl, ⟨hold, fun _ _ => rfl⟩, rfl, by simp [timeouts], rfl,
        rfl, rfl, [], rfl, .nil, by simp⟩
  | cons x rest ih =>
      obtain ⟨key, stage⟩ := x
      rw [List.map_cons, List.nodup_cons] at honce
      have hone := h.walks_one hold hseen (hdue (key, stage) (by simp))
      have hdue' : ∀ x ∈ rest, ((e.stride t).stride t).Due sweep.startedAt x.1 x.2 := fun x hmem =>
        hone.due (hdue x (by simp [hmem])) fun heq =>
          honce.1 (List.mem_map.mpr ⟨x, hmem, List.mem_singleton.mp heq⟩)
      obtain ⟨n, hrest⟩ := ih hone.undisturbed hone.moved.self rfl hdue' honce.2
      refine ⟨n, ?_⟩
      have hafter : e.after (List.replicate (2 * ((key, stage) :: rest).length) (.stride t)) =
          ((e.stride t).stride t).after (List.replicate (2 * rest.length) (.stride t)) := by
        rw [List.length_cons, Nat.mul_add, Nat.mul_one, List.replicate_succ, List.replicate_succ]
        rfl
      rw [hafter]
      exact hone.trans hrest

/-! ## The whole sweep -/

/-- What a sweep that finds the cases of `keys` expired leaves of `e`. -/
structure Swept (e e' : Engine) (keys : List CorrelationKey) : Prop where
  handles : Handles e e' none (timeouts keys)
  cases : e'.store.cases = keys.foldl Assoc.erase e.store.cases
  registry : ∃ parkedTtl, e'.registry =
    (((takeAll e.now keys e.registry).purgeParked e.now parkedTtl).2.purgeClosed e.now
      e.store.ttl).2
  offers : e'.offers = (e.offers.purge e.now).2

theorem Swept.blank {keys : List CorrelationKey} (h : Swept e e' keys) :
    Swept e { e' with history := [] } keys :=
  ⟨h.handles.blank, h.cases, h.registry, h.offers⟩

theorem finishSweep_frame (e : Engine) (t : TaskId) (startedAt n : Nat) :
    (e.finishSweep t startedAt n).now = e.now ∧
    (e.finishSweep t startedAt n).destination = e.destination ∧
    (e.finishSweep t startedAt n).store = e.store ∧
    (e.finishSweep t startedAt n).registry =
      ((e.registry.purgeParked startedAt e.parkedTtl).2.purgeClosed startedAt e.store.ttl).2 ∧
    (e.finishSweep t startedAt n).board.listeners = e.board.listeners ∧
    (e.finishSweep t startedAt n).offers = (e.offers.purge e.now).2 ∧
    (e.finishSweep t startedAt n).bus = e.bus ∧
    (e.finishSweep t startedAt n).tasks = e.tasks.erase t ∧
    (e.finishSweep t startedAt n).nextTask = e.nextTask ∧
    (e.finishSweep t startedAt n).history = .finished t (.swept n) :: e.history :=
  ⟨rfl, rfl, rfl, rfl, rfl, rfl, rfl, rfl, rfl, rfl⟩

/-- A sweep begins, ends the cases that it finds expired, and ends. -/
theorem Undisturbed.swept (h : e.Undisturbed) (hblank : e.history = []) (hfiled : e.store.Filed) :
    let e' := (e.addTask .sweeping).2.run e.nextTask
    let keys := (e.store.expired e.now).map Prod.fst
    Swept e e' keys ∧ ∃ evs n, e'.history = .finished e.nextTask (.swept n) :: evs ∧
      Tells evs (timeouts keys) (fun _ => []) ∧ ∀ ev ∈ evs, ∀ t f, ev ≠ .finished t f := by
  intro e' keys
  have hdue : ∀ x ∈ e.store.expired e.now, e.Due e.now x.1 x.2 := fun x hx =>
    hfiled.mem_expired.mp hx
  have honce := hfiled.nodup_expired e.now
  generalize hseen : e.store.expired e.now = seen at hdue honce
  have hkeys : keys = seen.map Prod.fst := congrArg (List.map Prod.fst) hseen
  have hfree : e.tasks.get? e.nextTask = none := h.fresh _ (Nat.le_refl _)
  -- the sweep has looked around and is before the first of its keys
  let start : Engine := ((e.addTask .sweeping).2).lookAround e.nextTask e.now seen
  have hself : start.tasks.get? e.nextTask =
      some (.walking { startedAt := e.now, rest := seen }) := by
    simp [start, lookAround]
  have hothers : ∀ t, t ≠ e.nextTask → start.tasks.get? t = e.tasks.get? t := fun t ht => by
    simp [start, lookAround, addTask, Ne.symm ht]
  have hundisturbed : start.Undisturbed := by
    refine ⟨h.free, h.isOpen, h.listeners, fun t hle => ?_⟩
    have hlt : e.nextTask < t := hle
    rw [hothers t (Nat.ne_of_gt hlt)]
    exact h.fresh t (Nat.le_of_lt hlt)
  obtain ⟨n, hwalks⟩ := hundisturbed.walks hself hdue honce
  -- the last stride is the end of the sweep
  have hrun : e' = (start.after (List.replicate (2 * seen.length) (.stride e.nextTask))).finishSweep
      e.nextTask e.now n := by
    have hgo : e' = start.goOn e.nextTask := by
      have hlook : (e.addTask .sweeping).2.store.expired (e.addTask .sweeping).2.now = seen := hseen
      have hpos : (e.addTask .sweeping).2.tasks.get? e.nextTask = some .sweeping := by
        simp [addTask]
      show (e.addTask .sweeping).2.run e.nextTask = _
      unfold run
      rw [hpos, hlook]
      rfl
    have hrepeat := repeat_eq_after (.stride e.nextTask) (2 * seen.length + 1) start
    have hgoOn : start.goOn e.nextTask =
        start.after (List.replicate (2 * seen.length + 1) (.stride e.nextTask)) := by
      rw [goOn, hself]
      exact hrepeat
    rw [hgo, hgoOn, List.replicate_succ', after_append, after_cons, after_nil]
    simp [act, stride, hwalks.moved.self]
  generalize start.after (List.replicate (2 * seen.length) (.stride e.nextTask)) = last
    at hwalks hrun
  obtain ⟨hnow, hdestination, hstore, hregistry, hlisteners, hoffers, hbus, htasks, hnext,
    hhistory⟩ := finishSweep_frame last e.nextTask e.now n
  rw [← hrun] at hnow hdestination hstore hregistry hlisteners hoffers hbus htasks hnext hhistory
  have hlast := hwalks.undisturbed
  have hgone : ∀ t, e'.tasks.get? t = e.tasks.get? t := by
    intro t
    rw [htasks, Assoc.get?_erase]
    by_cases ht : t = e.nextTask
    · rw [if_pos ht, ht, hfree]
    · rw [if_neg ht, hwalks.moved.others t ht, hothers t ht]
  have hlater : e.nextTask ≤ e'.nextTask := by
    rw [hnext, hwalks.nextTask]
    exact Nat.le_succ e.nextTask
  obtain ⟨evs, hwritten, htells, hnone⟩ := hwalks.history
  have hstart : start.history = [] := hblank
  rw [hstart, List.append_nil] at hwritten
  refine ⟨⟨⟨⟨?_, ?_, ?_, fun t hle => ?_⟩, ?_, ?_, ?_, fun t => ?_, hlater, ?_⟩, ?_,
    ⟨last.parkedTtl, ?_⟩, ?_⟩, evs, n, ?_, ?_, hnone⟩
  · unfold Free
    rw [hstore]
    exact hlast.free
  · rw [hbus]
    exact hlast.isOpen
  · rw [hlisteners]
    exact hlast.listeners
  · rw [hgone]
    exact h.fresh t (Nat.le_trans hlater hle)
  · exact hnow.trans hwalks.now
  · exact hdestination.trans hwalks.destination
  · rw [hstore]
    exact hwalks.ttl
  · simpa using hgone t
  · rw [hbus, hkeys]
    exact hwalks.queue
  · rw [hstore, hkeys]
    exact hwalks.cases
  · rw [hregistry, hwalks.registry, hwalks.ttl, hkeys]
    rfl
  · rw [hoffers, hwalks.offers, hwalks.now]
    rfl
  · rw [hhistory, hwritten]
  · rw [hkeys]
    exact htells

/-! ## Handing out messages -/

/-- What is left of `e` when every queued message has a task of its own, and what is written. -/
structure HandedOut (e e' : Engine) (evs : List Event) : Prop where
  undisturbed : e'.Undisturbed
  now : e'.now = e.now
  destination : e'.destination = e.destination
  store : e'.store = e.store
  registry : e'.registry = e.registry
  offers : e'.offers = e.offers
  queue : e'.bus.queue = []
  mail : e'.mail.Perm e.mail
  /-- Whoever is new is about to handle a message, and can run. -/
  tasks : ∀ t task, e'.tasks.get? t = some task →
    e.tasks.get? t = some task ∨ (∃ m, task = .arriving m) ∧ .spawned t ∈ evs
  history : e'.history = evs ++ e.history
  spawned : ∀ ev ∈ evs, ∃ t, ev = .spawned t
  length : evs.length = e.bus.queue.length

/-- The first message gets its task. -/
theorem Undisturbed.handOut_one (h : e.Undisturbed) {m : Message} {rest : List Message}
    (hqueue : e.bus.queue = m :: rest) :
    (e.act .dispatch).Undisturbed ∧ (e.act .dispatch).bus.queue = rest ∧
      (e.act .dispatch).mail.Perm e.mail ∧
      (e.act .dispatch).tasks = e.tasks.insert e.nextTask (.arriving m) ∧
      (e.act .dispatch).history = .spawned e.nextTask :: e.history := by
  have hact : e.act .dispatch =
      (({ e with bus := { e.bus with queue := rest } } : Engine).spawn (.arriving m)).2 := by
    simp [act, dispatchNext, hqueue]
  have hfree := h.fresh e.nextTask (Nat.le_refl _)
  have hposts := Posts.dispatch hfree hqueue
  rw [hact]
  refine ⟨⟨h.free, h.isOpen, h.listeners, fun t hle => ?_⟩, rfl,
    by simpa [Event.message?] using hposts.mail, rfl, rfl⟩
  have hlt : e.nextTask < t := hle
  have hnone := h.fresh t (Nat.le_of_lt hlt)
  simp [Nat.ne_of_lt hlt, hnone]

/-- Every queued message gets a task of its own. -/
theorem Undisturbed.handedOut (h : e.Undisturbed) : ∃ evs, HandedOut e e.dispatch evs := by
  rw [dispatch_eq_after]
  generalize hqueue : e.bus.queue = queue
  induction queue generalizing e with
  | nil =>
      exact ⟨[], h, rfl, rfl, rfl, rfl, rfl, hqueue, .refl _, fun t task hold => .inl hold, rfl,
        by simp, by simp [hqueue]⟩
  | cons m rest ih =>
      obtain ⟨hnext, hrest, hmail, htasks, hhistory⟩ := h.handOut_one hqueue
      obtain ⟨evs, ho⟩ := ih hnext hrest
      have hframe : (e.act .dispatch).now = e.now ∧ (e.act .dispatch).destination = e.destination ∧
          (e.act .dispatch).store = e.store ∧ (e.act .dispatch).registry = e.registry ∧
          (e.act .dispatch).offers = e.offers := by
        simp [act, dispatchNext, hqueue]
      obtain ⟨hnow, hdestination, hstore, hregistry, hoffers⟩ := hframe
      rw [List.length_cons, List.replicate_succ, after_cons]
      refine ⟨evs ++ [.spawned e.nextTask], ho.undisturbed, ho.now.trans hnow,
        ho.destination.trans hdestination, ho.store.trans hstore, ho.registry.trans hregistry,
        ho.offers.trans hoffers, ho.queue, ho.mail.trans hmail, fun t task hold => ?_, ?_,
        fun ev hmem => ?_, ?_⟩
      · rcases ho.tasks t task hold with hbefore | ⟨harriving, hmem⟩
        · rw [htasks, Assoc.get?_insert] at hbefore
          by_cases ht : e.nextTask = t
          · rw [if_pos ht] at hbefore
            exact .inr ⟨⟨m, (Option.some.inj hbefore).symm⟩, by simp [ht]⟩
          · rw [if_neg ht] at hbefore
            exact .inl hbefore
        · exact .inr ⟨harriving, List.mem_append_left _ hmem⟩
      · rw [ho.history, hhistory, List.append_assoc]
        rfl
      · rcases List.mem_append.mp hmem with hmem | hmem
        · exact ho.spawned ev hmem
        · exact ⟨e.nextTask, List.mem_singleton.mp hmem⟩
      · simp [ho.length, hrest, hqueue]

end Engine

end Rendezvous
