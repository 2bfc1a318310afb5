import Rendezvous.Proofs.Exactness
import Rendezvous.Proofs.Locality
import Rendezvous.Proofs.LoopbackTurns

/-!
# Keys are independent

Two messages for different keys can be handled in either order.  A handler makes changes to the data
of its own key, which changes depends on what it reads (`exists_edits_serve`), and changes for
different keys commute and do not show in what the other handler reads (`sameFor_edits`).

* `Engine.Reaches`: how far the handler of a message has come;
* `Engine.Served`: a message is handled, as far as it goes at once;
* `exists_edits_serve`: what the handling of a message changes depends on what it reads only;
* `get?_edits`, `index_edits`: what it changes does not show in the data of another key;
* `keys_are_independent`: all of it together, for two messages of different keys.
-/

namespace Rendezvous

/-- The position at which a task stays inside its section. -/
def Exit.task? : Exit → Option Task
  | .call task => some task
  | .done | .publish _ | .record _ | .fault _ => none

namespace KeyLocks

variable {κ : Type} [DecidableEq κ]

theorem queue_of_owner?_eq_none {l : KeyLocks κ} {k : κ} (h : l.owner? k = none) : l.queue k = [] :=
  List.head?_eq_none_iff.mp h

end KeyLocks

namespace Engine

variable {catalog : Catalog} {a : Answers} {b e e' e₁ x y : Engine} {m : Message} {t : TaskId}
variable {task? : Option Task} {n? : Option NegotiationId}

/-- The names of tasks to come stand in no queue. -/
def Roomy (e : Engine) : Prop := ∀ k t, e.nextTask ≤ t → t ∉ e.store.locks.queue k

theorem Orderly.roomy (h : e.Orderly) : e.Roomy := by
  intro k t ht hmem
  have hkey := (h.queued t k).mp hmem
  rw [h.fresh t ht] at hkey
  cases hkey

/-- The message is handed to a task of its own, which asks for its lock. -/
def receive (e : Engine) (m : Message) : Engine :=
  (e.spawn (.arriving m)).2.queueUp e.nextTask (.handle m)

theorem same_spawn (e : Engine) (task : Task) : e.Same (e.spawn task).2 := by
  have hquiet : ∀ ev ∈ [Event.spawned e.nextTask], ev.message? = none ∧ ev.call? = none := by
    simp [Event.message?, Event.call?]
  exact same_of_news rfl rfl rfl rfl rfl rfl rfl rfl hquiet

theorem same_receive (e : Engine) (m : Message) : e.Same (e.receive m) := by
  have hqueued : (e.spawn (.arriving m)).2.Same (e.receive m) :=
    same_of_news rfl rfl rfl rfl rfl rfl rfl (List.nil_append _).symm (by simp)
  exact (same_spawn e (.arriving m)).trans hqueued

theorem tasks_receive : (e.receive m).tasks.get? e.nextTask = some (.locking (.handle m)) := by
  simp [receive, queueUp]

theorem queue_receive (k : CorrelationKey) :
    (e.receive m).store.locks.queue k =
      if k = m.key then e.store.locks.queue m.key ++ [e.nextTask] else e.store.locks.queue k :=
  KeyLocks.queue_ask ..

/-- A task goes as far as its second stride takes it. -/
theorem run_spawn (hlock : m.needsLock) :
    (e.spawn (.arriving m)).2.run e.nextTask = (e.receive m).stride e.nextTask := by
  have hold : (e.spawn (.arriving m)).2.tasks.get? e.nextTask = some (.arriving m) := by simp
  have hfirst : (e.spawn (.arriving m)).2.stride e.nextTask = e.receive m := by
    simp only [stride, hold, hlock, if_true]
    rfl
  have hgo : (e.spawn (.arriving m)).2.run e.nextTask =
      ((e.spawn (.arriving m)).2.stride e.nextTask).stride e.nextTask := by
    simp [run, goOn, Task.reach, Nat.repeat]
  rw [hgo, hfirst]

/-! ## How far a handler has come -/

/-- From `e` to `e'` the message `m` was handed to a task of its own.  The lock of its key was free,
and the task now is inside its section at `task?`, or has ended.  The data are those of `x`. -/
structure Reaches (e : Engine) (m : Message) (x : Engine) (task? : Option Task) (e' : Engine) :
    Prop where
  same : x.Same e'
  free : e.store.locks.owner? m.key = none
  queue : ∀ k, e'.store.locks.queue k =
    if k = m.key ∧ task?.isSome then [e.nextTask] else e.store.locks.queue k
  task : e'.tasks.get? e.nextTask = task?
  nextTask : e'.nextTask = e.nextTask + 1

theorem reaches_receive (hfree : e.store.locks.owner? m.key = none) :
    Reaches e m e (some (.locking (.handle m))) (e.receive m) where
  same := same_receive e m
  free := hfree
  queue k := by
    rw [queue_receive, KeyLocks.queue_of_owner?_eq_none hfree]
    simp
  task := tasks_receive
  nextTask := rfl

/-- A task whose lock is free runs through its section. -/
theorem run_of_free (hlock : m.needsLock) (hfree : e.store.locks.owner? m.key = none) :
    (e.spawn (.arriving m)).2.run e.nextTask =
      ((e.receive m).handle m).1.leave e.nextTask m ((e.receive m).handle m).2 := by
  have h := reaches_receive (m := m) hfree
  have howns : (e.receive m).owns e.nextTask m.key = true := by
    simp [owns, KeyLocks.owner?, h.queue]
  rw [run_spawn hlock]
  simp [stride, h.task, Section.key, howns, enter]

/-- A task whose lock somebody else has waits for it. -/
theorem run_of_held (hroomy : e.Roomy) (hlock : m.needsLock) {holder : TaskId}
    (hheld : e.store.locks.owner? m.key = some holder) :
    (e.spawn (.arriving m)).2.run e.nextTask = e.receive m := by
  have hother : holder ≠ e.nextTask := by
    rintro rfl
    exact hroomy m.key _ (Nat.le_refl _) (KeyLocks.mem_queue_of_owner? _ _ _ hheld)
  have howner : (e.receive m).store.locks.owner? m.key = some holder := by
    rw [KeyLocks.owner?, queue_receive, if_pos rfl, List.head?_append, ← KeyLocks.owner?, hheld]
    rfl
  have howns : (e.receive m).owns e.nextTask m.key = false := by simp [owns, howner, hother]
  rw [run_spawn hlock]
  simp [stride, tasks_receive, Section.key, howns]

/-- A task leaves its section, or stays inside to wait for an answer. -/
theorem Reaches.leave {old : Task} {r : Engine × Exit} (h : Reaches e m x (some old) e₁)
    (hc : Contained e₁ m.key r) (hsame : y.Same r.1) (catalog : Catalog) :
    Reaches e m (y.edits catalog m.key (r.2.edits m)) r.2.task? (r.1.leave e.nextTask m r.2) := by
  have hdata : (y.edits catalog m.key (r.2.edits m)).Same (r.1.leave e.nextTask m r.2) :=
    (hsame.edits catalog m.key _).trans (same_leave catalog r.1 e.nextTask m r.2)
  have hempty := KeyLocks.queue_of_owner?_eq_none h.free
  have hnext : r.1.nextTask = e.nextTask + 1 := hc.nextTask.trans h.nextTask
  have hinside : ∀ k, r.1.store.locks.queue k =
      if k = m.key then [e.nextTask] else e.store.locks.queue k := by
    intro k
    rw [hc.locks, h.queue]
    simp
  have houtside : ∀ k, (r.1.store.locks.leave m.key e.nextTask).queue k =
      e.store.locks.queue k := by
    intro k
    rw [KeyLocks.queue_leave, hinside, hinside]
    split
    · rename_i hk
      simp [hk, hempty]
    · rfl
  refine ⟨hdata, h.free, ?_, ?_, ?_⟩
  all_goals generalize r.2 = exit
  · intro k
    cases exit with
    | done | publish | record | fault => simp [Exit.task?, Engine.leave, houtside]
    | call task => cases hcall : task.call? <;> simp [Exit.task?, Engine.leave, hcall, hinside]
  · cases exit with
    | done | publish | record | fault => simp [Exit.task?, Engine.leave]
    | call task => cases hcall : task.call? <;> simp [Exit.task?, Engine.leave, hcall]
  · cases exit with
    | done | publish | record | fault => simp [Engine.leave, hnext]
    | call task => cases hcall : task.call? <;> simp [Engine.leave, hcall, hnext]

/-- A task that has made changes inside its section leaves it, or stays to wait for an answer. -/
theorem Reaches.pass {old : Task} {r : Engine × Exit} {es : List Edit} {exit : Exit}
    (h : Reaches e m x (some old) e₁) (hmakes : Makes catalog m.key es exit e₁ r)
    (hc : Contained e₁ m.key r) :
    Reaches e m (x.edits catalog m.key (es ++ exit.edits m)) exit.task?
      (r.1.leave e.nextTask m r.2) := by
  have hdata : (x.edits catalog m.key es).Same r.1 :=
    (h.same.edits catalog m.key es).trans hmakes.same
  have hleave := h.leave hc hdata catalog
  rw [hmakes.exit] at hleave ⊢
  rw [edits_append]
  exact hleave

theorem answerCall_of_gone (hgone : e.tasks.get? t = none) : e.answerCall catalog a t = e := by
  simp [answerCall, call?, hgone]

theorem serve_eq (e : Engine) (catalog : Catalog) (a : Answers) (m : Message) :
    e.serve catalog a m =
      (((e.spawn (.arriving m)).2.run e.nextTask).answerCall catalog a e.nextTask).answerCall
        catalog a e.nextTask := rfl

/-- A task that has ended when its first call is answered, if not before, needs no more answers. -/
theorem Reaches.serve (h : Reaches e m x none
      (((e.spawn (.arriving m)).2.run e.nextTask).answerCall catalog a e.nextTask)) :
    Reaches e m x none (e.serve catalog a m) := by
  rw [serve_eq, answerCall_of_gone h.task]
  exact h

theorem task?_eq_none {exit : Exit} (hends : ∀ task, exit ≠ .call task) : exit.task? = none := by
  cases exit with
  | done | publish | record | fault => rfl
  | call task => exact absurd rfl (hends task)

/-! ## All handlers but the first -/

/-- What the handling of a message changes depends on what its handler reads only. -/
theorem Handler.exists_edits {f : Engine → Engine × Exit} (hm : Handler m f)
    (hf : ∀ e : Engine, e.handle m = f e) (hlock : m.needsLock) (catalog : Catalog) (a : Answers)
    (b : Engine) :
    ∃ es : List Edit, (∀ ed ∈ es, ed.Fits (b.registry.records.get? m.key) a.negotiation?) ∧
      ∀ e : Engine, SameFor catalog m.key a.negotiation? b e →
        e.store.locks.owner? m.key = none →
        Reaches e m (e.edits catalog m.key es) none (e.serve catalog a m) := by
  obtain ⟨es, exit, hlocal⟩ := hm.exists_local catalog a.negotiation? b
  have hpass : ∀ e : Engine, SameFor catalog m.key a.negotiation? b e →
      e.store.locks.owner? m.key = none →
      Reaches e m (e.edits catalog m.key (es ++ exit.edits m)) exit.task?
        ((e.spawn (.arriving m)).2.run e.nextTask) := by
    intro e hb hfree
    have h := reaches_receive hfree
    rw [run_of_free hlock hfree]
    refine h.pass ?_ (handle_contained _ m)
    rw [hf]
    exact hlocal.makes _ (hb.trans h.same.sameFor)
  by_cases hstays : ∃ task, exit = .call task
  · -- The handler has taken the record and asks for the transfer; the answer comes at once.
    obtain ⟨task, rfl⟩ := hstays
    obtain ⟨c, request, record, rfl, hrecord, rfl⟩ := hlocal.stays task rfl
    obtain ⟨es', exit', hends', hfits', hmakes'⟩ :=
      exists_makes_transfer catalog m a c request.contract
    refine ⟨[.unfile record, .call (.transfer request)] ++ (es' ++ exit'.edits m), ?_,
      fun e hb hfree => ?_⟩
    · simp only [List.forall_mem_append]
      exact ⟨by simp [Edit.Fits, hrecord], fun ed hmem => hfits' ed hmem _ _,
        exit'.fits_edits m _ _⟩
    · have h := hpass e hb hfree
      have hanswer : ((e.spawn (.arriving m)).2.run e.nextTask).answerCall catalog a e.nextTask =
          (((e.spawn (.arriving m)).2.run e.nextTask).onTransfer m c request.contract
            a.transfer).1.leave e.nextTask m
            (((e.spawn (.arriving m)).2.run e.nextTask).onTransfer m c request.contract
              a.transfer).2 := by
        simp [answerCall, call?, h.task, Exit.task?, Task.call?, reply]
      refine .serve ?_
      rw [hanswer, edits_append, ← task?_eq_none hends']
      refine h.pass (hmakes' _ ?_) (onTransfer_contained _ m c request.contract a.transfer)
      rw [← h.same.registry.records]
      simp [edits, edit, Exit.edits, Task.call?, Registry.unfile]
  · have hends : ∀ task, exit ≠ .call task := fun task heq => hstays ⟨task, heq⟩
    refine ⟨es ++ exit.edits m, ?_, fun e hb hfree => ?_⟩
    · exact List.forall_mem_append.mpr ⟨hlocal.fits, exit.fits_edits m _ _⟩
    · have h := hpass e hb hfree
      rw [task?_eq_none hends] at h
      refine .serve ?_
      rw [answerCall_of_gone h.task]
      exact h

/-! ## The first handler -/

section

variable {r : DataRequest} {offer : ContractOffer} {asset : String × AssetId} {k : CorrelationKey}

/-- An offer that is in the cache is not asked for. -/
theorem edit_lookUp_of_cached (hcached : e.offers.peek? e.now asset = some offer) :
    e.edit catalog k (.lookUp asset) = e := by
  simp [edit, ExpiringMap.lookUp, Edit.calls, hcached]

/-- The catalog is asked for an offer that is not in the cache. -/
def resolve (e : Engine) (asset : String × AssetId) : Engine :=
  { e with
    offers := (e.offers.get e.now asset).2
    history := .called (.resolve asset.1 asset.2) :: e.history }

/-- An offer is kept. -/
def keepOffer (e : Engine) (asset : String × AssetId) (offer : ContractOffer) : Engine :=
  { e with offers := e.offers.insert e.now asset offer }

/-- The offer of the catalog is kept. -/
theorem edit_lookUp_of_ok (hmissing : e.offers.peek? e.now asset = none)
    (hask : catalog asset = .ok offer) :
    e.edit catalog k (.lookUp asset) = (e.resolve asset).keepOffer asset offer := by
  simp [edit, ExpiringMap.lookUp, Edit.calls, hmissing, hask, resolve, keepOffer]

/-- Nothing is kept when the catalog has no offer. -/
theorem edit_lookUp_of_error {error : EngineError} (hmissing : e.offers.peek? e.now asset = none)
    (hask : catalog asset = .error error) :
    e.edit catalog k (.lookUp asset) = e.resolve asset := by
  simp [edit, ExpiringMap.lookUp, Edit.calls, hmissing, hask, resolve]

theorem Same.keepOffer (h : e.Same e') (asset : String × AssetId) (offer : ContractOffer) :
    (e.keepOffer asset offer).Same (e'.keepOffer asset offer) := by
  refine ⟨h.now, h.destination, h.case?, h.registry, ?_, h.outcomes, h.isOpen, h.queue, h.published,
    h.called⟩
  unfold Engine.keepOffer
  rw [h.now]
  exact h.offers.insert e'.now asset offer

/-- A request that finds its offer in the cache asks for a negotiation. -/
theorem reaches_of_cached (catalog : Catalog) (hfree : e.store.locks.owner? r.key = none)
    (hcase : e.store.get? r.key = none)
    (hcached : e.offers.peek? e.now (r.provider, r.asset) = some offer) :
    Reaches e (.ofRequest r)
      (e.edits catalog r.key [.lookUp (r.provider, r.asset), .call (.negotiate offer)])
      (some (.negotiating (.ofRequest r) r.asset r.provider offer))
      ((e.spawn (.arriving (.ofRequest r))).2.run e.nextTask) := by
  have h := reaches_receive (m := .ofRequest r) hfree
  have hhandle : (e.receive (.ofRequest r)).handle (.ofRequest r) =
      ((e.receive (.ofRequest r)).note (.accepted r.key),
        .call (.negotiating (.ofRequest r) r.asset r.provider offer)) := by
    have hcached' : (e.receive (.ofRequest r)).offers.peek? (e.receive (.ofRequest r)).now
        (r.provider, r.asset) = some offer := hcached
    refine (onRequest_of_vacant (e := e.receive (.ofRequest r)) (m := .ofRequest r) hcase r.asset
      r.provider).trans ?_
    rw [ExpiringMap.get, hcached']
    rfl
  have hmakes : Makes catalog r.key []
      (.call (.negotiating (.ofRequest r) r.asset r.provider offer))
      (e.receive (.ofRequest r)) ((e.receive (.ofRequest r)).handle (.ofRequest r)) := by
    rw [hhandle]
    exact ⟨same_note rfl rfl, rfl⟩
  rw [run_of_free rfl hfree, edits_cons, edit_lookUp_of_cached hcached]
  exact h.pass hmakes (handle_contained _ _)

/-- A request that does not find its offer in the cache asks the catalog. -/
theorem reaches_of_missing (catalog : Catalog) (hfree : e.store.locks.owner? r.key = none)
    (hcase : e.store.get? r.key = none)
    (hmissing : e.offers.peek? e.now (r.provider, r.asset) = none) :
    Reaches e (.ofRequest r) (e.resolve (r.provider, r.asset))
      (some (.resolving (.ofRequest r) r.asset r.provider))
      ((e.spawn (.arriving (.ofRequest r))).2.run e.nextTask) := by
  have h := reaches_receive (m := .ofRequest r) hfree
  have hhandle : (e.receive (.ofRequest r)).handle (.ofRequest r) =
      (({ e.receive (.ofRequest r) with
          offers := (e.offers.get e.now (r.provider, r.asset)).2 } : Engine).note (.accepted r.key),
        .call (.resolving (.ofRequest r) r.asset r.provider)) := by
    have hmissing' : (e.receive (.ofRequest r)).offers.peek? (e.receive (.ofRequest r)).now
        (r.provider, r.asset) = none := hmissing
    refine (onRequest_of_vacant (e := e.receive (.ofRequest r)) (m := .ofRequest r) hcase r.asset
      r.provider).trans ?_
    simp only [ExpiringMap.get, hmissing', hmissing]
    rfl
  have hsame : ({ e with offers := (e.offers.get e.now (r.provider, r.asset)).2 } : Engine).Same
      ((e.receive (.ofRequest r)).handle (.ofRequest r)).1 := by
    rw [hhandle]
    have hquiet : ∀ ev ∈ [Event.accepted r.key, Event.spawned e.nextTask],
        ev.message? = none ∧ ev.call? = none := by simp [Event.message?, Event.call?]
    exact same_of_news rfl rfl rfl rfl rfl rfl rfl rfl hquiet
  have hleave := h.leave (handle_contained _ _) hsame catalog
  rw [run_of_free rfl hfree]
  rw [hhandle] at hleave ⊢
  exact hleave

/-- Who waits for an offer is answered by the catalog. -/
theorem Reaches.answerCall_resolving
    (h : Reaches e (.ofRequest r) x (some (.resolving (.ofRequest r) r.asset r.provider)) e₁) :
    e₁.answerCall catalog a e.nextTask =
      (e₁.onOffer (.ofRequest r) r.asset r.provider (catalog (r.provider, r.asset))).1.leave
        e.nextTask (.ofRequest r)
        (e₁.onOffer (.ofRequest r) r.asset r.provider (catalog (r.provider, r.asset))).2 := by
  simp [answerCall, call?, h.task, Task.call?, reply]

/-- The negotiation for an offer of the catalog is asked for. -/
theorem Reaches.offered
    (h : Reaches e (.ofRequest r) (e.resolve (r.provider, r.asset))
      (some (.resolving (.ofRequest r) r.asset r.provider)) e₁)
    (hmissing : e.offers.peek? e.now (r.provider, r.asset) = none)
    (hask : catalog (r.provider, r.asset) = .ok offer) :
    Reaches e (.ofRequest r)
      (e.edits catalog r.key [.lookUp (r.provider, r.asset), .call (.negotiate offer)])
      (some (.negotiating (.ofRequest r) r.asset r.provider offer))
      (e₁.answerCall catalog a e.nextTask) := by
  have hsame := h.same.keepOffer (r.provider, r.asset) offer
  have hcontained := onOffer_contained e₁ (.ofRequest r) r.asset r.provider (.ok offer)
  rw [h.answerCall_resolving, hask, edits_cons, edit_lookUp_of_ok hmissing hask]
  exact h.leave hcontained hsame catalog

/-- A request for which there is no offer is rejected. -/
theorem Reaches.refused {error : EngineError}
    (h : Reaches e (.ofRequest r) (e.resolve (r.provider, r.asset))
      (some (.resolving (.ofRequest r) r.asset r.provider)) e₁)
    (hmissing : e.offers.peek? e.now (r.provider, r.asset) = none)
    (hask : catalog (r.provider, r.asset) = .error error) :
    Reaches e (.ofRequest r)
      (e.edits catalog r.key [.lookUp (r.provider, r.asset),
        .post (.failed r.key (.offerUnavailable error.message))]) none
      (e₁.answerCall catalog a e.nextTask) := by
  have hcontained := onOffer_contained e₁ (.ofRequest r) r.asset r.provider (.error error)
  rw [h.answerCall_resolving, hask, edits_cons, edit_lookUp_of_error hmissing hask]
  exact h.leave hcontained h.same catalog

/-- What the handler of a request reads is the same when the offer has been looked up. -/
theorem sameFor_lookUp {b : Engine} (h : SameFor catalog k n? b e) (asset : String × AssetId)
    (c : Call) :
    SameFor catalog k n? b (e.edits catalog k [.lookUp asset, .call c]) := by
  refine h.trans ⟨?_, ?_, ?_, ?_, fun n _ => ?_, fun asset' => ?_⟩
  · simp
  · simp
  · simp [Edit.case?]
  · simp [Edit.registry]
  · simp [Edit.registry]
  · simp [Edit.offers, ExpiringMap.valueFor_lookUp]

/-- Who waits for a negotiation ends when it has begun, or is refused. -/
theorem Reaches.negotiated {b : Engine} {es : List Edit} {exit : Exit}
    (h : Reaches e (.ofRequest r) x
      (some (.negotiating (.ofRequest r) r.asset r.provider offer)) e₁)
    (hl : Local catalog (.ofRequest r) n? b
      (fun e' => e'.onNegotiation (.ofRequest r) r.asset r.provider offer a.negotiation) es exit)
    (hends : ∀ task, exit ≠ .call task) (hx : SameFor catalog r.key n? b x) :
    Reaches e (.ofRequest r) (x.edits catalog r.key (es ++ exit.edits (.ofRequest r))) none
      (e₁.answerCall catalog a e.nextTask) := by
  have hanswer : e₁.answerCall catalog a e.nextTask =
      (e₁.onNegotiation (.ofRequest r) r.asset r.provider offer a.negotiation).1.leave
        e.nextTask (.ofRequest r)
        (e₁.onNegotiation (.ofRequest r) r.asset r.provider offer a.negotiation).2 := by
    simp [answerCall, call?, h.task, Task.call?, reply]
  rw [hanswer, ← task?_eq_none hends]
  exact h.pass (hl.makes e₁ (hx.trans h.same.sameFor))
    (onNegotiation_contained e₁ (.ofRequest r) r.asset r.provider offer a.negotiation)

/-- A request whose key has a case is dropped. -/
theorem serve_of_case {c : Case} (hfree : e.store.locks.owner? r.key = none)
    (hcase : e.store.get? r.key = some c) :
    Reaches e (.ofRequest r) e none (e.serve catalog a (.ofRequest r)) := by
  have h := reaches_receive (m := .ofRequest r) hfree
  have hhandle : (e.receive (.ofRequest r)).handle (.ofRequest r) =
      (e.receive (.ofRequest r), .done) := by
    have hcase' : (e.receive (.ofRequest r)).store.get? (Message.ofRequest r).key = some c := hcase
    show (e.receive (.ofRequest r)).onRequest (.ofRequest r) r.asset r.provider = _
    simp only [onRequest, hcase']
  have hleave := h.leave (.refl _ r.key .done) h.same catalog
  refine .serve ?_
  rw [run_of_free rfl hfree, hhandle, answerCall_of_gone hleave.task]
  exact hleave

/-- A request for which there is no offer is rejected. -/
theorem serve_of_no_offer {error : EngineError} (hfree : e.store.locks.owner? r.key = none)
    (hcase : e.store.get? r.key = none)
    (hoffer : e.offers.valueFor catalog e.now (r.provider, r.asset) = .error error) :
    Reaches e (.ofRequest r)
      (e.edits catalog r.key [.lookUp (r.provider, r.asset),
        .post (.failed r.key (.offerUnavailable error.message))]) none
      (e.serve catalog a (.ofRequest r)) := by
  obtain ⟨hmissing, hask⟩ := ExpiringMap.valueFor_eq_error.mp hoffer
  exact .serve ((reaches_of_missing catalog hfree hcase hmissing).refused hmissing hask)

/-- A request for which there is an offer asks for a negotiation, whether or not the catalog had to
be asked for the offer. -/
theorem serve_of_offer {b : Engine} {es : List Edit} {exit : Exit}
    (hfree : e.store.locks.owner? r.key = none) (hcase : e.store.get? r.key = none)
    (hoffer : e.offers.valueFor catalog e.now (r.provider, r.asset) = .ok offer)
    (hl : Local catalog (.ofRequest r) n? b
      (fun e' => e'.onNegotiation (.ofRequest r) r.asset r.provider offer a.negotiation) es exit)
    (hends : ∀ task, exit ≠ .call task) (hb : SameFor catalog r.key n? b e) :
    Reaches e (.ofRequest r)
      (e.edits catalog r.key ([.lookUp (r.provider, r.asset), .call (.negotiate offer)] ++
        (es ++ exit.edits (.ofRequest r)))) none
      (e.serve catalog a (.ofRequest r)) := by
  have hb' := sameFor_lookUp hb (r.provider, r.asset) (.negotiate offer)
  rw [edits_append]
  rcases ExpiringMap.valueFor_eq_ok.mp hoffer with hcached | ⟨hmissing, hask⟩
  · have h := reaches_of_cached catalog hfree hcase hcached
    exact .serve (h.negotiated hl hends hb')
  · have h := (reaches_of_missing catalog hfree hcase hmissing).offered (a := a) hmissing hask
    exact h.negotiated hl hends hb'

/-- What the handling of a request changes depends on what its handler reads only. -/
theorem exists_edits_request (catalog : Catalog) (a : Answers) (r : DataRequest) (b : Engine) :
    ∃ es : List Edit, (∀ ed ∈ es, ed.Fits (b.registry.records.get? r.key) a.negotiation?) ∧
      ∀ e : Engine, SameFor catalog r.key a.negotiation? b e →
        e.store.locks.owner? r.key = none →
        Reaches e (.ofRequest r) (e.edits catalog r.key es) none
          (e.serve catalog a (.ofRequest r)) := by
  cases hcase : b.store.get? r.key with
  | some c =>
      exact ⟨[], by simp, fun e hb hfree => serve_of_case hfree (hb.case?.symm.trans hcase)⟩
  | none =>
      cases hoffer : b.offers.valueFor catalog b.now (r.provider, r.asset) with
      | error error =>
          exact ⟨_, by simp [Edit.Fits], fun e hb hfree => serve_of_no_offer hfree
            (hb.case?.symm.trans hcase) ((hb.offer _).symm.trans hoffer)⟩
      | ok offer =>
          obtain ⟨es, exit, hlocal, hends⟩ := exists_local_negotiation catalog a offer hcase
          refine ⟨_, ?_, fun e hb hfree => serve_of_offer hfree (hb.case?.symm.trans hcase)
            ((hb.offer _).symm.trans hoffer) hlocal hends hb⟩
          simp only [List.forall_mem_append]
          exact ⟨by simp [Edit.Fits], hlocal.fits, exit.fits_edits _ _ _⟩

end

/-! ## Any message -/

/-- From `e` to `e'` the message `m` was handled, as far as it goes at once; the data are those of
`x`. -/
structure Served (e : Engine) (m : Message) (x e' : Engine) : Prop where
  same : x.Same e'
  owner : ∀ k, e'.store.locks.owner? k = e.store.locks.owner? k
  roomy : e'.Roomy
  /-- The handler has come to its end, unless it waits behind the owner of its lock. -/
  ended : e.store.locks.owner? m.key = none → e'.tasks.get? e.nextTask = none

theorem Reaches.served (h : Reaches e m x none e') (hroomy : e.Roomy) : Served e m x e' where
  same := h.same
  owner k := by simp [KeyLocks.owner?, h.queue]
  roomy k t ht := by
    rw [h.nextTask] at ht
    simpa [h.queue] using hroomy k t (Nat.le_of_succ_le ht)
  ended _ := h.task

/-- A message whose lock somebody else has waits for it. -/
theorem served_of_held (hroomy : e.Roomy) (hlock : m.needsLock) {holder : TaskId}
    (hheld : e.store.locks.owner? m.key = some holder) :
    Served e m e (e.serve catalog a m) := by
  have hidle : (e.receive m).answerCall catalog a e.nextTask = e.receive m := by
    simp [answerCall, call?, tasks_receive, Task.call?]
  rw [serve_eq, run_of_held hroomy hlock hheld, hidle, hidle]
  refine ⟨same_receive e m, fun k => ?_, fun k t ht hmem => ?_, fun hfree => ?_⟩
  · rw [KeyLocks.owner?, queue_receive]
    split
    · rename_i hk
      rw [List.head?_append, ← KeyLocks.owner?, ← hk]
      cases howner : e.store.locks.owner? k with
      | none => rw [hk, hheld] at howner; cases howner
      | some t => rfl
    · rfl
  · have hlt : e.nextTask < t := ht
    rw [queue_receive] at hmem
    split at hmem
    · rcases List.mem_append.mp hmem with hmem | hmem
      · exact hroomy m.key t (Nat.le_of_lt hlt) hmem
      · exact Nat.ne_of_gt hlt (List.mem_singleton.mp hmem)
    · exact hroomy k t (Nat.le_of_lt hlt) hmem
  · rw [hheld] at hfree
    cases hfree

/-- A message that needs no lock brings an outcome, or nothing. -/
theorem begin_cases (m : Message) :
    (∃ o, ∀ (e : Engine) t, e.begin t m = (e.record m.key o).finish t .handled) ∨
      ∀ (e : Engine) t, e.begin t m = e.finish t .handled := by
  obtain ⟨key, channel, payload⟩ := m
  cases channel with
  | result =>
      cases payload with
      | completed reference => exact .inl ⟨.success reference, fun _ _ => rfl⟩
      | _ => exact .inr fun _ _ => rfl
  | dlq =>
      cases payload with
      | failed reason => exact .inl ⟨.error reason, fun _ _ => rfl⟩
      | _ => exact .inl ⟨.error (.internal _), fun _ _ => rfl⟩
  | _ => exact .inr fun _ _ => rfl

theorem serve_of_lockless (hlock : m.needsLock = false) :
    e.serve catalog a m = (e.spawn (.arriving m)).2.begin e.nextTask m := by
  have hgone : ((e.spawn (.arriving m)).2.begin e.nextTask m).tasks.get? e.nextTask = none := by
    simp
  have hold : (e.spawn (.arriving m)).2.tasks.get? e.nextTask = some (.arriving m) := by simp
  have hfirst : (e.spawn (.arriving m)).2.stride e.nextTask =
      (e.spawn (.arriving m)).2.begin e.nextTask m := by
    simp only [stride, hold, hlock]
    rfl
  have hgo : (e.spawn (.arriving m)).2.run e.nextTask =
      ((e.spawn (.arriving m)).2.stride e.nextTask).stride e.nextTask := by
    simp [run, goOn, Task.reach, Nat.repeat]
  have hrun : (e.spawn (.arriving m)).2.run e.nextTask =
      (e.spawn (.arriving m)).2.begin e.nextTask m := by
    rw [hgo, hfirst]
    simp [stride]
  rw [serve_eq, hrun, answerCall_of_gone hgone, answerCall_of_gone hgone]

/-- A message that needs no lock is handled whoever owns the locks. -/
theorem exists_edits_lockless (hlock : m.needsLock = false) (catalog : Catalog) (a : Answers) :
    ∃ es : List Edit, (∀ ed ∈ es, ∀ known? new?, ed.Fits known? new?) ∧
      ∀ e : Engine, e.Roomy → Served e m (e.edits catalog m.key es) (e.serve catalog a m) := by
  rcases begin_cases m with ⟨o, hbegin⟩ | hbegin
  · refine ⟨[.record o], by simp [Edit.Fits], fun e hroomy => ?_⟩
    rw [serve_of_lockless hlock, hbegin]
    refine ⟨?_, by simp, fun k t ht => ?_, by simp⟩
    · have hdata := (same_spawn e (.arriving m)).edit catalog m.key (.record o)
      exact hdata.trans (same_finish _ _ _)
    · simpa using hroomy k t (Nat.le_of_succ_le (by simpa using ht))
  · refine ⟨[], by simp, fun e hroomy => ?_⟩
    rw [serve_of_lockless hlock, hbegin]
    refine ⟨(same_spawn e (.arriving m)).trans (same_finish _ _ _), by simp, fun k t ht => ?_,
      by simp⟩
    simpa using hroomy k t (Nat.le_of_succ_le (by simpa using ht))

/-- What the handling of a message changes depends on what its handler reads only. -/
theorem exists_edits_serve (catalog : Catalog) (a : Answers) (m : Message) (b : Engine) :
    ∃ es : List Edit, (∀ ed ∈ es, ed.Fits (b.registry.records.get? m.key) a.negotiation?) ∧
      ∀ e : Engine, e.Roomy → SameFor catalog m.key a.negotiation? b e →
        e.store.locks.owner? m.key = b.store.locks.owner? m.key →
        Served e m (e.edits catalog m.key es) (e.serve catalog a m) := by
  cases hlock : m.needsLock with
  | false =>
      obtain ⟨es, hfits, hserved⟩ := exists_edits_lockless hlock catalog a
      exact ⟨es, fun ed hmem => hfits ed hmem _ _, fun e hroomy _ _ => hserved e hroomy⟩
  | true =>
      cases howner : b.store.locks.owner? m.key with
      | some holder =>
          -- Nobody answers the owner of the lock meanwhile.
          exact ⟨[], by simp, fun e hroomy _ hheld => served_of_held hroomy hlock hheld⟩
      | none =>
          rcases request_or_handler m with ⟨r, rfl⟩ | ⟨f, hm, hf⟩
          · obtain ⟨es, hfits, hreaches⟩ := exists_edits_request catalog a r b
            exact ⟨es, hfits, fun e hroomy hb hfree => (hreaches e hb hfree).served hroomy⟩
          · obtain ⟨es, hfits, hreaches⟩ := hm.exists_edits hf hlock catalog a b
            exact ⟨es, hfits, fun e hroomy hb hfree => (hreaches e hb hfree).served hroomy⟩

/-! ## Other keys -/

/-- A change for another key does not show in what a handler reads, unless it takes the parked
confirmation that the handler looks for. -/
theorem sameFor_edits {k k' : CorrelationKey} (hk : k' ≠ k) {es : List Edit}
    (hes : ∀ r, .file r ∈ es → n? ≠ some r.negotiation) :
    SameFor catalog k' n? e (e.edits catalog k es) := by
  induction es generalizing e with
  | nil => exact .refl e
  | cons ed es ih =>
      refine .trans ⟨?_, ?_, ?_, ?_, fun n hn => ?_, fun asset => ?_⟩
        (ih fun r hmem => hes r (List.mem_cons_of_mem ed hmem))
      · simp
      · simp
      · simp [hk]
      · cases ed <;> simp [Edit.registry, Registry.file, Registry.unfile, hk, Ne.symm hk]
      · cases ed with
        | file r =>
            have hne : n ≠ r.negotiation := by
              rintro rfl
              exact hes r List.mem_cons_self hn
            simp [Edit.registry, Registry.file, hne]
        | put | remove | unfile | lookUp | record | post | call =>
            simp [Edit.registry, Registry.unfile]
      · cases ed with
        | lookUp asset' => simp [Edit.offers, ExpiringMap.valueFor_lookUp]
        | put | remove | file | unfile | record | post | call => simp [Edit.offers]

/-- Changes for another key leave case, record and outcome of a key alone. -/
theorem get?_edits (e : Engine) (catalog : Catalog) {k k' : CorrelationKey} (hk : k' ≠ k)
    (es : List Edit) :
    (e.edits catalog k es).store.get? k' = e.store.get? k' ∧
      (e.edits catalog k es).registry.records.get? k' = e.registry.records.get? k' ∧
      (e.edits catalog k es).board.outcomes.entries.get? k' = e.board.outcomes.entries.get? k' := by
  induction es generalizing e with
  | nil => exact ⟨rfl, rfl, rfl⟩
  | cons ed es ih =>
      obtain ⟨hcase, hrecord, houtcome⟩ := ih (e := e.edit catalog k ed)
      refine ⟨hcase.trans ?_, hrecord.trans ?_, houtcome.trans ?_⟩
      · simp [hk]
      · cases ed <;> simp [Edit.registry, Registry.file, Registry.unfile, hk, Ne.symm hk]
      · cases ed <;> simp [Edit.outcome?, ExpiringMap.insert, Ne.symm hk]

/-- Changes for another key leave the index entries of a key alone, unless they are about one of its
negotiations. -/
theorem index_edits {k k' : CorrelationKey} (hk : k' ≠ k) {es : List Edit}
    (hes : ∀ r, .file r ∈ es ∨ .unfile r ∈ es → e.registry.index.get? r.negotiation ≠ some k')
    (n : NegotiationId) :
    (e.edits catalog k es).registry.index.get? n = some k' ↔
      e.registry.index.get? n = some k' := by
  induction es generalizing e with
  | nil => exact .rfl
  | cons ed es ih =>
      have hstep : ∀ n, (e.edit catalog k ed).registry.index.get? n = some k' ↔
          e.registry.index.get? n = some k' := by
        intro n
        cases ed with
        | file r =>
            have hother := hes r (.inl List.mem_cons_self)
            by_cases hn : r.negotiation = n
            · subst hn
              simp [Edit.registry, Registry.file, Ne.symm hk, hother]
            · simp [Edit.registry, Registry.file, hn]
        | unfile r =>
            have hother := hes r (.inr List.mem_cons_self)
            by_cases hn : n = r.negotiation
            · subst hn
              simp [Edit.registry, Registry.unfile, hother]
            · simp [Edit.registry, Registry.unfile, hn]
        | put | remove | lookUp | record | post | call => simp [Edit.registry]
      refine (ih fun r hmem => ?_).trans (hstep n)
      rw [ne_eq, hstep]
      exact hes r (hmem.imp (List.mem_cons_of_mem ed) (List.mem_cons_of_mem ed))

/-! ## Two messages -/

section

variable {a₁ a₂ : Answers} {m₁ m₂ : Message}

/-- The changes that come from handling two messages are about different negotiations, if those that
begin are new and not the same. -/
theorem apart_of_fits {known? known'? : Option PendingRecord} {new? new'? : Option NegotiationId}
    (hdistinct : ∀ n, new? = some n → new'? ≠ some n)
    (hnew : ∀ n r, new? = some n → known'? = some r → r.negotiation ≠ n)
    (hnew' : ∀ n r, new'? = some n → known? = some r → r.negotiation ≠ n) {ed ed' : Edit}
    (hfits : ed.Fits known? new?) (hfits' : ed'.Fits known'? new'?) : ed.Apart ed' := by
  cases ed with
  | file r =>
      cases ed' with
      | file r' =>
          intro hshared
          exact hdistinct _ hfits (hshared ▸ hfits')
      | unfile r' => exact Ne.symm (hnew _ _ hfits hfits')
      | put | remove | lookUp | record | post | call => trivial
  | unfile r =>
      cases ed' with
      | file r' => exact hnew' _ _ hfits' hfits
      | put | remove | unfile | lookUp | record | post | call => trivial
  | put | remove | lookUp | record | post | call => trivial

/-- A negotiation that a handler files is the one that begins. -/
theorem ne_of_file {known? : Option PendingRecord} {new? new'? : Option NegotiationId}
    (hdistinct : ∀ n, new? = some n → new'? ≠ some n) {es : List Edit}
    (hfits : ∀ ed ∈ es, ed.Fits known? new?) (r : PendingRecord) (hmem : .file r ∈ es) :
    new'? ≠ some r.negotiation :=
  hdistinct _ (hfits _ hmem)

/-- To handle two messages of different keys is to make the changes of the first and then those of
the second, and these are the changes that the second would make by itself. -/
theorem served_twice (hk : m₁.key ≠ m₂.key)
    (hdistinct : ∀ n, a₁.negotiation? = some n → a₂.negotiation? ≠ some n) {es es' : List Edit}
    (hfits : ∀ ed ∈ es, ed.Fits (e.registry.records.get? m₁.key) a₁.negotiation?)
    (hserved : Served e m₁ (e.edits catalog m₁.key es) (e.serve catalog a₁ m₁))
    (hserves : ∀ e', e'.Roomy → SameFor catalog m₂.key a₂.negotiation? e e' →
      e'.store.locks.owner? m₂.key = e.store.locks.owner? m₂.key →
      Served e' m₂ (e'.edits catalog m₂.key es') (e'.serve catalog a₂ m₂)) :
    Served (e.serve catalog a₁ m₁) m₂ ((e.edits catalog m₁.key es).edits catalog m₂.key es')
      ((e.serve catalog a₁ m₁).serve catalog a₂ m₂) := by
  have hsame : SameFor catalog m₂.key a₂.negotiation? e (e.serve catalog a₁ m₁) :=
    (sameFor_edits (Ne.symm hk) (ne_of_file hdistinct hfits)).trans hserved.same.sameFor
  have hsecond := hserves _ hserved.roomy hsame (hserved.owner _)
  exact ⟨(hserved.same.edits catalog m₂.key es').trans hsecond.same, hsecond.owner, hsecond.roomy,
    hsecond.ended⟩

end

end Engine

end Rendezvous
