import Rendezvous.Engine.Serve
import Rendezvous.Proofs.Calls
import Rendezvous.Proofs.Postings

/-!
# Changes to the data of one key

What a handler does to the data of an engine is a sequence of changes to the data of its key
(`Edit`).  Some parts of an engine belong to no key: the index, the parked and the closed
negotiations, the cache of offers, the bus.  Changes for different keys nevertheless commute as long
as they are about different negotiations.

* `Engine.Same`: two engines that nobody can tell apart by their data; the order of messages and
  calls does not count, nor do tasks and locks;
* `ExpiringMap.lookUp_comm`, `Registry.file_file`, `Registry.file_unfile`, `Registry.unfile_unfile`:
  what commutes in the parts that belong to no key;
* `Engine.edit_comm`, `Engine.edits_comm`: changes for different keys commute.
-/

namespace Rendezvous

/-! ## Maps whose entries expire -/

namespace ExpiringMap

variable {κ α ε : Type} [DecidableEq κ] {m m' : ExpiringMap κ α} {now : Nat} {k k' : κ}
variable {ask : κ → Except ε α}

/-- The maps cannot be told apart. -/
structure Same (m m' : ExpiringMap κ α) : Prop where
  ttl : m.ttl = m'.ttl
  entries : ∀ k, m.entries.get? k = m'.entries.get? k

/-- The value for `k`: the one that can be read, or else what `ask` answers. -/
def valueFor (m : ExpiringMap κ α) (ask : κ → Except ε α) (now : Nat) (k : κ) : Except ε α :=
  match m.peek? now k with
  | some v => .ok v
  | none => ask k

/-- The entry that `k` has when its value has been looked up. -/
def renewed (m : ExpiringMap κ α) (ask : κ → Except ε α) (now : Nat) (k : κ) : Option (α × Nat) :=
  match m.peek? now k, ask k with
  | some _, _ => m.entries.get? k
  | none, .ok v => some (v, now)
  | none, .error _ => none

/-- Looks up the value for `k`, and keeps it if it was asked for. -/
def lookUp (m : ExpiringMap κ α) (ask : κ → Except ε α) (now : Nat) (k : κ) : ExpiringMap κ α :=
  match m.peek? now k, ask k with
  | some _, _ => m
  | none, .ok v => (m.get now k).2.insert now k v
  | none, .error _ => (m.get now k).2

theorem Same.refl (m : ExpiringMap κ α) : Same m m := ⟨rfl, fun _ => rfl⟩

theorem Same.symm (h : Same m m') : Same m' m := ⟨h.ttl.symm, fun k => (h.entries k).symm⟩

theorem Same.trans {m'' : ExpiringMap κ α} (h : Same m m') (h' : Same m' m'') : Same m m'' :=
  ⟨h.ttl.trans h'.ttl, fun k => (h.entries k).trans (h'.entries k)⟩

theorem Same.insert (h : Same m m') (now : Nat) (k : κ) (v : α) :
    Same (m.insert now k v) (m'.insert now k v) where
  ttl := h.ttl
  entries k' := by simp [ExpiringMap.insert, h.entries]

theorem insert_comm (m : ExpiringMap κ α) (now : Nat) (hk : k ≠ k') (v v' : α) :
    Same ((m.insert now k v).insert now k' v') ((m.insert now k' v').insert now k v) where
  ttl := rfl
  entries j := by
    simp only [ExpiringMap.insert, Assoc.get?_insert]
    by_cases hj : k = j
    · subst hj
      simp [Ne.symm hk]
    · simp [hj]

/-- What can be read of `k` depends on the entry of `k`. -/
theorem peek?_congr (httl : m.ttl = m'.ttl) (hk : m.entries.get? k = m'.entries.get? k) :
    m.peek? now k = m'.peek? now k := by
  simp only [peek?, isFresh, httl, hk]

theorem valueFor_congr (httl : m.ttl = m'.ttl) (hk : m.entries.get? k = m'.entries.get? k) :
    m.valueFor ask now k = m'.valueFor ask now k := by
  simp only [valueFor, peek?_congr httl hk]

theorem renewed_congr (httl : m.ttl = m'.ttl) (hk : m.entries.get? k = m'.entries.get? k) :
    m.renewed ask now k = m'.renewed ask now k := by
  simp only [renewed, peek?_congr httl hk, hk]

@[simp] theorem ttl_lookUp (m : ExpiringMap κ α) (ask : κ → Except ε α) (now : Nat) (k : κ) :
    (m.lookUp ask now k).ttl = m.ttl := by
  unfold lookUp
  cases hpeek : m.peek? now k with
  | some v => rfl
  | none => cases ask k <;> simp [get, hpeek, insert]

theorem get?_lookUp (m : ExpiringMap κ α) (ask : κ → Except ε α) (now : Nat) (k k' : κ) :
    (m.lookUp ask now k).entries.get? k' =
      if k' = k then m.renewed ask now k else m.entries.get? k' := by
  unfold lookUp renewed
  cases hpeek : m.peek? now k with
  | some v =>
      by_cases hk : k' = k
      · simp [hk]
      · simp [hk]
  | none =>
      cases ask k with
      | ok v => by_cases hk : k' = k <;> simp [get, hpeek, insert, hk, Ne.symm]
      | error error => simp [get, hpeek]

theorem valueFor_eq_ok {v : α} :
    m.valueFor ask now k = .ok v ↔
      m.peek? now k = some v ∨ m.peek? now k = none ∧ ask k = .ok v := by
  unfold valueFor
  cases m.peek? now k <;> simp

theorem valueFor_eq_error {error : ε} :
    m.valueFor ask now k = .error error ↔ m.peek? now k = none ∧ ask k = .error error := by
  unfold valueFor
  cases m.peek? now k <;> simp

theorem Same.lookUp (h : Same m m') (ask : κ → Except ε α) (now : Nat) (k : κ) :
    Same (m.lookUp ask now k) (m'.lookUp ask now k) where
  ttl := by simpa using h.ttl
  entries k' := by rw [get?_lookUp, get?_lookUp, renewed_congr h.ttl (h.entries k), h.entries]

theorem lookUp_comm (m : ExpiringMap κ α) (ask : κ → Except ε α) (now : Nat) (k k' : κ) :
    Same ((m.lookUp ask now k).lookUp ask now k') ((m.lookUp ask now k').lookUp ask now k) := by
  by_cases hk : k = k'
  · rw [hk]
    exact .refl _
  · have hother : ∀ i j, i ≠ j → (m.lookUp ask now i).renewed ask now j = m.renewed ask now j := by
      intro i j hij
      refine renewed_congr (ttl_lookUp ..) ?_
      rw [get?_lookUp, if_neg (Ne.symm hij)]
    refine ⟨by simp, fun j => ?_⟩
    rw [get?_lookUp, get?_lookUp, get?_lookUp, get?_lookUp, hother k k' hk,
      hother k' k (Ne.symm hk)]
    by_cases hj : j = k
    · subst hj
      rw [if_neg hk, if_pos rfl, if_pos rfl]
    · rw [if_neg hj, if_neg hj]

/-- A value that can be read is the one that the entry was made with. -/
theorem peek?_lookUp_of_ne (m : ExpiringMap κ α) (ask : κ → Except ε α) (now : Nat) (hk : k' ≠ k) :
    (m.lookUp ask now k).peek? now k' = m.peek? now k' :=
  peek?_congr (ttl_lookUp ..) (by rw [get?_lookUp, if_neg hk])

/-- To look values up does not change what they are. -/
theorem valueFor_lookUp (m : ExpiringMap κ α) (ask : κ → Except ε α) (now : Nat) (k k' : κ) :
    (m.lookUp ask now k).valueFor ask now k' = m.valueFor ask now k' := by
  by_cases hk : k' = k
  · subst hk
    unfold valueFor lookUp
    cases hpeek : m.peek? now k' with
    | some v => simp [hpeek]
    | none =>
        cases hask : ask k' with
        | error error =>
            have hgone : (m.get now k').2.entries.get? k' = none := by simp [get, hpeek]
            simp [peek?, hgone]
        | ok v =>
            simp only [peek?_insert, if_true]
            split <;> simp_all
  · exact valueFor_congr (ttl_lookUp ..) (by rw [get?_lookUp, if_neg hk])

end ExpiringMap

/-! ## The registry -/

namespace Registry

variable {r r' : Registry} {k k' : CorrelationKey} {record record' : PendingRecord} {now : Nat}

/-- The registries cannot be told apart. -/
structure Same (r r' : Registry) : Prop where
  records : ∀ k, r.records.get? k = r'.records.get? k
  index : ∀ n, r.index.get? n = r'.index.get? n
  parked : ∀ n, r.parked.get? n = r'.parked.get? n
  closed : ∀ n, r.closed.get? n = r'.closed.get? n

theorem Same.refl (r : Registry) : Same r r :=
  ⟨fun _ => rfl, fun _ => rfl, fun _ => rfl, fun _ => rfl⟩

theorem Same.symm (h : Same r r') : Same r' r where
  records k := (h.records k).symm
  index n := (h.index n).symm
  parked n := (h.parked n).symm
  closed n := (h.closed n).symm

theorem Same.trans {r'' : Registry} (h : Same r r') (h' : Same r' r'') : Same r r'' where
  records k := (h.records k).trans (h'.records k)
  index n := (h.index n).trans (h'.index n)
  parked n := (h.parked n).trans (h'.parked n)
  closed n := (h.closed n).trans (h'.closed n)

theorem Same.file (h : Same r r') (k : CorrelationKey) (record : PendingRecord) :
    Same (r.file k record) (r'.file k record) := by
  constructor <;> intro <;> simp [Registry.file, h.records, h.index, h.parked, h.closed]

theorem Same.unfile (h : Same r r') (k : CorrelationKey) (record : PendingRecord) (now : Nat) :
    Same (r.unfile k record now) (r'.unfile k record now) := by
  constructor <;> intro <;> simp [Registry.unfile, h.records, h.index, h.parked, h.closed]

theorem file_file (r : Registry) (hk : k ≠ k') (hn : record.negotiation ≠ record'.negotiation) :
    Same ((r.file k record).file k' record') ((r.file k' record').file k record) := by
  constructor <;> intro <;> simp only [Registry.file, Assoc.get?_insert, Assoc.get?_erase] <;>
    grind

theorem file_unfile (r : Registry) (hk : k ≠ k') (hn : record.negotiation ≠ record'.negotiation) :
    Same ((r.file k record).unfile k' record' now) ((r.unfile k' record' now).file k record) := by
  constructor <;> intro <;>
    simp only [Registry.file, Registry.unfile, Assoc.get?_insert, Assoc.get?_erase] <;> grind

theorem unfile_unfile (r : Registry) (hk : k ≠ k') :
    Same ((r.unfile k record now).unfile k' record' now)
      ((r.unfile k' record' now).unfile k record now) := by
  constructor <;> intro <;>
    simp only [Registry.unfile, Assoc.get?_insert, Assoc.get?_erase] <;> grind

end Registry

/-! ## Changes -/

/-- A change to the data of one key. -/
inductive Edit
  | put (c : Case)
  | remove
  | file (record : PendingRecord)
  | unfile (record : PendingRecord)
  /-- The offer for an asset of a provider is looked up, in the cache and then in the catalog. -/
  | lookUp (asset : String × AssetId)
  | record (o : Outcome)
  | post (m : Message)
  | call (c : Call)

namespace Edit

/-- The case that the key has after the change. -/
def case? (old? : Option Case) : Edit → Option Case
  | .put c => some c
  | .remove => none
  | _ => old?

/-- The registry after the change. -/
def registry (k : CorrelationKey) (now : Nat) (old : Registry) : Edit → Registry
  | .file r => old.file k r
  | .unfile r => old.unfile k r now
  | _ => old

/-- The cache after the change. -/
def offers (catalog : Catalog) (now : Nat) (offers : OfferCache) : Edit → OfferCache
  | .lookUp asset => offers.lookUp catalog now asset
  | _ => offers

/-- The outcome that the change records. -/
def outcome? : Edit → Option Outcome
  | .record o => some o
  | _ => none

/-- The messages that the change posts. -/
def posts : Edit → List Message
  | .post m => [m]
  | _ => []

/-- The services that the change calls. -/
def calls (now : Nat) (offers : OfferCache) : Edit → List Call
  | .lookUp asset => if (offers.peek? now asset).isSome then [] else [.resolve asset.1 asset.2]
  | .call c => [c]
  | _ => []

/-- Whether two changes for different keys are about different negotiations, as far as it matters:
two records that are taken leave the same behind whichever is taken first. -/
def Apart : Edit → Edit → Prop
  | .file r, .file r' | .file r, .unfile r' | .unfile r, .file r' =>
      r.negotiation ≠ r'.negotiation
  | _, _ => True

end Edit

namespace Engine

/-- The calls made so far, latest first. -/
def called (e : Engine) : List Call := e.history.filterMap Event.call?

/-- The engines cannot be told apart by their data.  The order in which messages were published and
services called does not count. -/
structure Same (e e' : Engine) : Prop where
  now : e.now = e'.now
  destination : e.destination = e'.destination
  case? : ∀ k, e.store.get? k = e'.store.get? k
  registry : e.registry.Same e'.registry
  offers : e.offers.Same e'.offers
  outcomes : e.board.outcomes.Same e'.board.outcomes
  isOpen : e.bus.isOpen = e'.bus.isOpen
  queue : e.bus.queue.Perm e'.bus.queue
  published : (Event.posted e.history).Perm (Event.posted e'.history)
  called : e.called.Perm e'.called

/-- Makes a change to the data of `k`. -/
def edit (e : Engine) (catalog : Catalog) (k : CorrelationKey) : Edit → Engine
  | .put c => { e with store := e.store.put k c }
  | .remove => { e with store := e.store.remove k }
  | .file record => { e with registry := e.registry.file k record }
  | .unfile record => { e with registry := e.registry.unfile k record e.now }
  | .lookUp asset =>
      { e with
        offers := e.offers.lookUp catalog e.now asset
        history :=
          (Edit.calls e.now e.offers (.lookUp asset)).map Event.called ++ e.history }
  | .record o => e.record k o
  | .post m => e.publish m
  | .call c => e.note (.called c)

/-- Makes changes to the data of `k`, one after the other. -/
def edits (e : Engine) (catalog : Catalog) (k : CorrelationKey) (es : List Edit) : Engine :=
  es.foldl (fun e ed => e.edit catalog k ed) e

variable {e e' e'' : Engine} {catalog : Catalog} {k k' : CorrelationKey} {ed ed' : Edit}

/-! ## What a change makes of each part -/

@[simp] theorem now_edit : (e.edit catalog k ed).now = e.now := by
  cases ed <;> simp [edit]

@[simp] theorem destination_edit : (e.edit catalog k ed).destination = e.destination := by
  cases ed <;> simp [edit]

@[simp] theorem get?_edit (j : CorrelationKey) :
    (e.edit catalog k ed).store.get? j =
      if j = k then ed.case? (e.store.get? k) else e.store.get? j := by
  cases ed <;> by_cases hj : j = k <;> simp [edit, Edit.case?, hj, Ne.symm]

@[simp] theorem registry_edit :
    (e.edit catalog k ed).registry = ed.registry k e.now e.registry := by
  cases ed <;> simp [edit, Edit.registry]

@[simp] theorem offers_edit : (e.edit catalog k ed).offers = ed.offers catalog e.now e.offers := by
  cases ed <;> simp [edit, Edit.offers]

@[simp] theorem outcomes_edit :
    (e.edit catalog k ed).board.outcomes =
      ed.outcome?.elim e.board.outcomes (e.board.outcomes.insert e.now k) := by
  cases ed <;> simp [edit, Edit.outcome?, OutcomeBoard.record]

@[simp] theorem isOpen_edit : (e.edit catalog k ed).bus.isOpen = e.bus.isOpen := by
  cases ed <;> simp [edit, isOpen_publish]

@[simp] theorem queue_edit :
    (e.edit catalog k ed).bus.queue =
      e.bus.queue ++ if e.bus.isOpen then ed.posts else [] := by
  cases ed <;> simp [edit, Edit.posts]
  simp [Bus.publish]
  split <;> simp_all

@[simp] theorem posted_edit :
    Event.posted (e.edit catalog k ed).history =
      (if e.bus.isOpen then ed.posts else []) ++ Event.posted e.history := by
  cases ed with
  | put | remove | file | unfile => simp [edit, Edit.posts]
  | call c => simp [edit, Edit.posts, Event.message?]
  | lookUp asset =>
      have hquiet : Event.posted ((Edit.calls e.now e.offers (.lookUp asset)).map .called) =
          [] := by
        simp only [Edit.calls]
        split <;> rfl
      simp [edit, Edit.posts, hquiet]
  | record o =>
      have hquiet : Event.posted (e.board.listeners.reverse.map .notified) = [] :=
        List.filterMap_eq_nil_iff.mpr fun ev hmem => by
          obtain ⟨t, -, rfl⟩ := List.mem_map.mp hmem
          rfl
      rw [edit, (record_frame e k o).2.2.2.2.2.2.2.2.2.2, Event.posted_append, hquiet]
      simp [Edit.posts, Event.message?]
  | post m =>
      cases hopen : e.bus.isOpen with
      | true => simp [edit, publish_of_isOpen e m hopen, Edit.posts, Event.message?]
      | false => simp [edit, publish, hopen]

@[simp] theorem called_edit :
    (e.edit catalog k ed).called = ed.calls e.now e.offers ++ e.called := by
  unfold called
  cases ed with
  | put | remove | file | unfile => simp [edit, Edit.calls]
  | call c => simp [edit, Edit.calls, Event.call?]
  | lookUp asset =>
      have hcalls : ∀ calls : List Call,
          (calls.map Event.called).filterMap Event.call? = calls := by
        intro calls
        rw [List.filterMap_map]
        exact List.filterMap_some
      rw [edit, List.filterMap_append, hcalls]
  | record o =>
      have hquiet : (e.board.listeners.reverse.map Event.notified).filterMap Event.call? = [] :=
        List.filterMap_eq_nil_iff.mpr fun ev hmem => by
          obtain ⟨t, -, rfl⟩ := List.mem_map.mp hmem
          rfl
      rw [edit, (record_frame e k o).2.2.2.2.2.2.2.2.2.2, List.filterMap_append, hquiet]
      rfl
  | post m =>
      cases hopen : e.bus.isOpen with
      | true =>
          rw [edit, publish_of_isOpen e m hopen]
          rfl
      | false => simp [edit, publish, hopen, Edit.calls]

/-! ## Engines with the same data -/

theorem Same.refl (e : Engine) : e.Same e :=
  ⟨rfl, rfl, fun _ => rfl, .refl _, .refl _, .refl _, rfl, .refl _, .refl _, .refl _⟩

theorem Same.symm (h : e.Same e') : e'.Same e where
  now := h.now.symm
  destination := h.destination.symm
  case? k := (h.case? k).symm
  registry := h.registry.symm
  offers := h.offers.symm
  outcomes := h.outcomes.symm
  isOpen := h.isOpen.symm
  queue := h.queue.symm
  published := h.published.symm
  called := h.called.symm

theorem Same.trans (h : e.Same e') (h' : e'.Same e'') : e.Same e'' where
  now := h.now.trans h'.now
  destination := h.destination.trans h'.destination
  case? k := (h.case? k).trans (h'.case? k)
  registry := h.registry.trans h'.registry
  offers := h.offers.trans h'.offers
  outcomes := h.outcomes.trans h'.outcomes
  isOpen := h.isOpen.trans h'.isOpen
  queue := h.queue.trans h'.queue
  published := h.published.trans h'.published
  called := h.called.trans h'.called

theorem calls_congr (h : e.Same e') : ed.calls e.now e.offers = ed.calls e'.now e'.offers := by
  cases ed with
  | lookUp asset =>
      simp only [Edit.calls, h.now, ExpiringMap.peek?_congr h.offers.ttl (h.offers.entries asset)]
  | put | remove | file | unfile | record | post | call => rfl

/-- A change makes the same of engines with the same data. -/
theorem Same.edit (h : e.Same e') (catalog : Catalog) (k : CorrelationKey) (ed : Edit) :
    (e.edit catalog k ed).Same (e'.edit catalog k ed) where
  now := by simpa using h.now
  destination := by simpa using h.destination
  case? j := by simp [h.case?]
  registry := by
    rw [registry_edit, registry_edit, h.now]
    cases ed with
    | file r => exact h.registry.file k r
    | unfile r => exact h.registry.unfile k r e'.now
    | put | remove | lookUp | record | post | call => exact h.registry
  offers := by
    rw [offers_edit, offers_edit, h.now]
    cases ed with
    | lookUp asset => exact h.offers.lookUp catalog e'.now asset
    | put | remove | file | unfile | record | post | call => exact h.offers
  outcomes := by
    rw [outcomes_edit, outcomes_edit, h.now]
    cases ed with
    | record o => exact h.outcomes.insert e'.now k o
    | put | remove | file | unfile | lookUp | post | call => exact h.outcomes
  isOpen := by simpa using h.isOpen
  queue := by
    rw [queue_edit, queue_edit, h.isOpen]
    exact h.queue.append_right _
  published := by
    rw [posted_edit, posted_edit, h.isOpen]
    exact h.published.append_left _
  called := by
    rw [called_edit, called_edit, calls_congr h]
    exact h.called.append_left _

/-! ## Changes for different keys commute -/

theorem registry_comm (r : Registry) (now : Nat) (hk : k ≠ k') (hapart : ed.Apart ed') :
    (ed'.registry k' now (ed.registry k now r)).Same
      (ed.registry k now (ed'.registry k' now r)) := by
  cases ed with
  | file r₁ =>
      cases ed' with
      | file r₂ => exact Registry.file_file r hk hapart
      | unfile r₂ => exact Registry.file_unfile r hk hapart
      | put | remove | lookUp | record | post | call => exact .refl _
  | unfile r₁ =>
      cases ed' with
      | file r₂ => exact (Registry.file_unfile r (Ne.symm hk) (Ne.symm hapart)).symm
      | unfile r₂ => exact Registry.unfile_unfile r hk
      | put | remove | lookUp | record | post | call => exact .refl _
  | put | remove | lookUp | record | post | call => exact .refl _

theorem offers_comm (catalog : Catalog) (now : Nat) (offers : OfferCache) (ed ed' : Edit) :
    (ed'.offers catalog now (ed.offers catalog now offers)).Same
      (ed.offers catalog now (ed'.offers catalog now offers)) := by
  cases ed with
  | lookUp asset =>
      cases ed' with
      | lookUp asset' => exact offers.lookUp_comm catalog now asset asset'
      | put | remove | file | unfile | record | post | call => exact .refl _
  | put | remove | file | unfile | record | post | call => exact .refl _

/-- Who looks the same offer up later need not ask the catalog, and all others do what they would
have done before. -/
theorem calls_comm (catalog : Catalog) (now : Nat) (offers : OfferCache) (ed ed' : Edit) :
    (ed'.calls now (ed.offers catalog now offers) ++ ed.calls now offers).Perm
      (ed.calls now (ed'.offers catalog now offers) ++ ed'.calls now offers) := by
  cases ed with
  | lookUp asset =>
      cases ed' with
      | lookUp asset' =>
          by_cases hasset : asset = asset'
          · -- Whoever is first asks the catalog, if anybody does.
            rw [hasset]
          · simp only [Edit.calls, Edit.offers,
              ExpiringMap.peek?_lookUp_of_ne offers catalog now hasset,
              ExpiringMap.peek?_lookUp_of_ne offers catalog now (Ne.symm hasset)]
            exact List.perm_append_comm
      | put | remove | file | unfile | record | post | call => exact List.perm_append_comm
  | put | remove | file | unfile | record | post | call => exact List.perm_append_comm

theorem edit_comm (e : Engine) (catalog : Catalog) (hk : k ≠ k') (hapart : ed.Apart ed') :
    ((e.edit catalog k ed).edit catalog k' ed').Same
      ((e.edit catalog k' ed').edit catalog k ed) where
  now := by simp
  destination := by simp
  case? j := by
    simp only [get?_edit, if_neg hk, if_neg (Ne.symm hk)]
    by_cases hj : j = k
    · subst hj
      simp [hk]
    · simp [hj]
  registry := by simpa using registry_comm e.registry e.now hk hapart
  offers := by simpa using offers_comm catalog e.now e.offers ed ed'
  outcomes := by
    simp only [outcomes_edit, now_edit]
    cases ed.outcome? with
    | none => exact .refl _
    | some o =>
        cases ed'.outcome? with
        | none => exact .refl _
        | some o' => exact e.board.outcomes.insert_comm e.now hk o o'
  isOpen := by simp
  queue := by
    simp only [queue_edit, isOpen_edit, List.append_assoc]
    exact List.perm_append_comm.append_left _
  published := by
    simp only [posted_edit, isOpen_edit, ← List.append_assoc]
    exact List.perm_append_comm.append_right _
  called := by
    simp only [called_edit, now_edit, offers_edit, ← List.append_assoc]
    exact (calls_comm catalog e.now e.offers ed ed').append_right _

/-! ## Runs of changes -/

@[simp] theorem edits_nil : e.edits catalog k [] = e := rfl

@[simp] theorem edits_cons (es : List Edit) :
    e.edits catalog k (ed :: es) = (e.edit catalog k ed).edits catalog k es := rfl

theorem edits_append (es es' : List Edit) :
    e.edits catalog k (es ++ es') = (e.edits catalog k es).edits catalog k es' := List.foldl_append

theorem Same.edits (h : e.Same e') (catalog : Catalog) (k : CorrelationKey) (es : List Edit) :
    (e.edits catalog k es).Same (e'.edits catalog k es) := by
  induction es generalizing e e' with
  | nil => exact h
  | cons ed es ih => exact ih (h.edit catalog k ed)

theorem edit_edits_comm (e : Engine) (catalog : Catalog) (hk : k ≠ k') (es : List Edit)
    (hapart : ∀ ed' ∈ es, ed.Apart ed') :
    ((e.edit catalog k ed).edits catalog k' es).Same
      ((e.edits catalog k' es).edit catalog k ed) := by
  induction es generalizing e with
  | nil => exact .refl _
  | cons ed' es ih =>
      have hfirst := edit_comm e catalog hk (hapart ed' List.mem_cons_self)
      have hrest := ih (e := e.edit catalog k' ed') fun ed'' hmem =>
        hapart ed'' (List.mem_cons_of_mem ed' hmem)
      exact (hfirst.edits catalog k' es).trans hrest

/-- Changes for different keys commute. -/
theorem edits_comm (e : Engine) (catalog : Catalog) (hk : k ≠ k') (es es' : List Edit)
    (hapart : ∀ ed ∈ es, ∀ ed' ∈ es', ed.Apart ed') :
    ((e.edits catalog k es).edits catalog k' es').Same
      ((e.edits catalog k' es').edits catalog k es) := by
  induction es generalizing e with
  | nil => exact .refl _
  | cons ed es ih =>
      -- The first change is moved past all of `es'` last, when the others are past it.
      have hrest := ih (e := e.edit catalog k ed) fun ed'' hmem =>
        hapart ed'' (List.mem_cons_of_mem ed hmem)
      have hfirst := edit_edits_comm e catalog hk es' (hapart ed List.mem_cons_self)
      exact hrest.trans (hfirst.edits catalog k es)

end Engine

end Rendezvous
