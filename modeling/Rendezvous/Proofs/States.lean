import Rendezvous.Proofs.Negotiations
import Rendezvous.Registry.States

/-!
# Each negotiation is in one state

As long as no two records share a negotiation, the four maps of the registry agree: the index is the
inverse of the records, and no negotiation is in two of index, parked and closed.  So the state of a
negotiation is one of four, and moves by itself.

* `Registry.Turn`: all that a request can come to;
* `Registry.Exact`: how the maps agree, kept by every turn;
* `Registry.Exact.stateOf_turn`: every turn moves each negotiation as `NegotiationState.next` says;
* `Registry.Exact.count_purgeParked`, `count_purgeClosed`: what a purge counts;
* `Registry.taken_events`: each record that is stored is taken once;
* `Registry.negotiations_move_by_themselves`: all of it together.
-/

namespace Rendezvous

namespace Registry

variable {r r' : Registry} {now : Nat} {n : NegotiationId} {key : CorrelationKey}
  {request : RegistryRequest} {answer : RegistryAnswer}

/-! ## What a request comes to -/

/-- What a request can come to. -/
inductive Turn (r : Registry) (now : Nat) : RegistryRequest → RegistryAnswer → Registry → Prop
  | stored (key : CorrelationKey) (record : PendingRecord) (hfree : r.records.get? key = none) :
      Turn r now (.store key record)
        (.stored ((r.parked.get? record.negotiation).map ParkedConfirmation.contract))
        (r.file key record)
  | refused (key : CorrelationKey) (record old : PendingRecord)
      (hold : r.records.get? key = some old) :
      Turn r now (.store key record) (.refused (.duplicatePending key)) r
  | taken (key : CorrelationKey) (record : PendingRecord)
      (hget : r.records.get? key = some record) :
      Turn r now (.take key) (.taken (some record)) (r.unfile key record now)
  | absent (key : CorrelationKey) (hnone : r.records.get? key = none) :
      Turn r now (.take key) (.taken none) r
  | found (n : NegotiationId) (contract : ContractId) (key : CorrelationKey)
      (hindex : r.index.get? n = some key) :
      Turn r now (.resolve n contract) (.resolved (.pending key)) r
  | late (n : NegotiationId) (contract : ContractId) (since : Nat)
      (hindex : r.index.get? n = none) (hclosed : r.closed.get? n = some since) :
      Turn r now (.resolve n contract) (.resolved .closed) r
  | parked (n : NegotiationId) (contract : ContractId) (hindex : r.index.get? n = none)
      (hclosed : r.closed.get? n = none) :
      Turn r now (.resolve n contract) (.resolved .parked)
        { r with parked := r.parked.insert n { contract, since := now } }
  | purgedParked (instant ttl : Nat) :
      Turn r now (.purgeParked instant ttl) (.purged (r.purgeParked instant ttl).1)
        { r with parked := r.parked.keep fun _ p => age instant p.since < ttl }
  | purgedClosed (instant ttl : Nat) :
      Turn r now (.purgeClosed instant ttl) (.purged (r.purgeClosed instant ttl).1)
        { r with closed := r.closed.keep fun _ since => age instant since < ttl }

theorem store_of_get?_eq_some {record old : PendingRecord} (h : r.records.get? key = some old) :
    r.store key record = .error (.duplicatePending key) := by
  simp [store, Assoc.contains, h]

theorem answer_turn (r : Registry) (now : Nat) (request : RegistryRequest) :
    r.Turn now request (r.answer now request).1 (r.answer now request).2 := by
  cases request with
  | store key record =>
      cases hget : r.records.get? key with
      | none =>
          simp only [Registry.answer, store_of_get?_eq_none r key record hget]
          exact .stored key record hget
      | some old =>
          simp only [Registry.answer, store_of_get?_eq_some hget]
          exact .refused key record old hget
  | take key =>
      cases hget : r.records.get? key with
      | none =>
          simp only [Registry.answer, take_of_get?_eq_none r key now hget]
          exact .absent key hget
      | some record =>
          simp only [Registry.answer, take_of_get?_eq_some r key now hget]
          exact .taken key record hget
  | resolve n contract =>
      cases hindex : r.index.get? n with
      | some key =>
          simp only [Registry.answer, resolveOrPark, hindex]
          exact .found n contract key hindex
      | none =>
          cases hclosed : r.closed.get? n with
          | some since =>
              simp only [Registry.answer, resolveOrPark, hindex, Assoc.contains, hclosed,
                Option.isSome_some, if_true]
              exact .late n contract since hindex hclosed
          | none =>
              simp only [Registry.answer, resolveOrPark, hindex, Assoc.contains, hclosed,
                Option.isSome_none, Bool.false_eq_true, if_false]
              exact .parked n contract hindex hclosed
  | purgeParked instant ttl => exact .purgedParked instant ttl
  | purgeClosed instant ttl => exact .purgedClosed instant ttl

/-! ## The maps agree -/

/-- How the maps of the registry agree. -/
structure Exact (r : Registry) : Prop where
  /-- The index is the inverse of the records. -/
  indexed : ∀ n key, r.index.get? n = some key ↔
    ∃ record, r.records.get? key = some record ∧ record.negotiation = n
  /-- A parked negotiation is neither pending nor closed. -/
  parked : ∀ n p, r.parked.get? n = some p → r.index.get? n = none ∧ r.closed.get? n = none
  /-- A closed negotiation is not pending. -/
  closed : ∀ n since, r.closed.get? n = some since → r.index.get? n = none

theorem exact_empty : Exact {} where
  indexed n key := by simp
  parked n p h := by cases h
  closed n since h := by cases h

/-- A negotiation that is taken up is no longer parked or closed. -/
theorem Exact.file (h : r.Exact) {record : PendingRecord} (hfree : r.records.get? key = none)
    (hadmits : r.Admits (.store key record)) : (r.file key record).Exact := by
  constructor
  case indexed =>
    intro n k
    simp only [Registry.file, Assoc.get?_insert]
    by_cases hn : record.negotiation = n
    · by_cases hk : key = k
      · simp [hn, hk]
      · simp only [hn, hk, if_true, if_false, Option.some.injEq, false_iff, not_exists]
        rintro other ⟨hother, hshared⟩
        have hmem := (r.records.mem_entries k other).mpr hother
        exact hk (hadmits _ hmem (hshared.trans hn.symm)).symm
    · by_cases hk : key = k
      · subst hk
        have hnot : r.index.get? n ≠ some key := by
          intro hindex
          obtain ⟨old, hold, -⟩ := (h.indexed n key).mp hindex
          rw [hfree] at hold
          cases hold
        simp [hn, hnot]
      · simpa [hn, hk] using h.indexed n k
  case parked =>
    intro n p hp
    simp only [Registry.file, Assoc.get?_insert, Assoc.get?_erase] at hp ⊢
    by_cases hn : n = record.negotiation
    · simp [hn] at hp
    · simpa [hn, Ne.symm hn] using h.parked n p (by simpa [hn] using hp)
  case closed =>
    intro n since hsince
    simp only [Registry.file, Assoc.get?_insert, Assoc.get?_erase] at hsince ⊢
    by_cases hn : n = record.negotiation
    · simp [hn] at hsince
    · simpa [hn, Ne.symm hn] using h.closed n since (by simpa [hn] using hsince)

/-- Only the negotiation of a record that is taken is no longer pending, and it was not parked. -/
theorem Exact.unfile (h : r.Exact) {record : PendingRecord}
    (hget : r.records.get? key = some record) (now : Nat) : (r.unfile key record now).Exact := by
  have hindex : r.index.get? record.negotiation = some key :=
    (h.indexed _ _).mpr ⟨record, hget, rfl⟩
  constructor
  case indexed =>
    intro n k
    simp only [Registry.unfile, Assoc.get?_erase]
    by_cases hn : n = record.negotiation
    · -- The negotiation was pending for `key`, so no other record has it.
      subst hn
      by_cases hk : k = key
      · simp [hk]
      · simp only [hk, if_true, if_false, reduceCtorEq, false_iff]
        intro hother
        rw [← h.indexed, hindex] at hother
        exact hk (Option.some.inj hother).symm
    · by_cases hk : k = key
      · subst hk
        simp only [hn, if_true, if_false, reduceCtorEq, false_and, exists_false, iff_false]
        intro hn'
        obtain ⟨old, hold, rfl⟩ := (h.indexed n k).mp hn'
        rw [hget] at hold
        cases hold
        exact hn rfl
      · simpa [hn, hk] using h.indexed n k
  case parked =>
    intro n p hp
    have hp : r.parked.get? n = some p := hp
    obtain ⟨hnone, hopen⟩ := h.parked n p hp
    have hn : record.negotiation ≠ n := by
      rintro rfl
      rw [hindex] at hnone
      cases hnone
    simp [Registry.unfile, hn, hnone, hopen]
  case closed =>
    intro n since hsince
    simp only [Registry.unfile, Assoc.get?_insert, Assoc.get?_erase] at hsince ⊢
    by_cases hn : n = record.negotiation
    · simp [hn]
    · simpa [hn] using h.closed n since (by simpa [Ne.symm hn] using hsince)

theorem Exact.turn (h : r.Exact) (hadmits : r.Admits request)
    (ht : r.Turn now request answer r') : r'.Exact := by
  cases ht with
  | stored key record hfree => exact h.file hfree hadmits
  | refused key record old hold => exact h
  | taken key record hget => exact h.unfile hget now
  | absent key hnone => exact h
  | found n contract key hindex => exact h
  | late n contract since hindex hclosed => exact h
  | parked n contract hindex hclosed =>
      refine ⟨h.indexed, fun n' p hp => ?_, h.closed⟩
      by_cases hn : n = n'
      · exact hn ▸ ⟨hindex, hclosed⟩
      · exact h.parked n' p (by simpa [hn] using hp)
  | purgedParked instant ttl =>
      refine ⟨h.indexed, fun n p hp => ?_, h.closed⟩
      obtain ⟨hold, -⟩ := Option.filter_eq_some_iff.mp ((Assoc.get?_keep ..).symm.trans hp)
      exact h.parked n p hold
  | purgedClosed instant ttl =>
      refine ⟨h.indexed, fun n p hp => ?_, fun n since hsince => ?_⟩
      · obtain ⟨hnone, hopen⟩ := h.parked n p hp
        refine ⟨hnone, ?_⟩
        show (r.closed.keep _).get? n = none
        rw [Assoc.get?_keep, hopen]
        rfl
      · obtain ⟨hold, -⟩ := Option.filter_eq_some_iff.mp ((Assoc.get?_keep ..).symm.trans hsince)
        exact h.closed n since hold

/-! ## The states -/

theorem stateOf_eq_pending : r.stateOf n = .pending key ↔ r.index.get? n = some key := by
  unfold stateOf
  cases r.index.get? n with
  | some key' => simp
  | none => cases r.closed.get? n <;> cases r.parked.get? n <;> simp

theorem Exact.stateOf_eq_closed (h : r.Exact) {since : Nat} :
    r.stateOf n = .closed since ↔ r.closed.get? n = some since := by
  unfold stateOf
  cases hclosed : r.closed.get? n with
  | some since' => simp [h.closed n since' hclosed]
  | none => cases r.index.get? n <;> cases r.parked.get? n <;> simp

theorem Exact.stateOf_eq_parked (h : r.Exact) {contract : ContractId} {since : Nat} :
    r.stateOf n = .parked contract since ↔ r.parked.get? n = some { contract, since } := by
  unfold stateOf
  cases hparked : r.parked.get? n with
  | some p =>
      obtain ⟨hindex, hclosed⟩ := h.parked n p hparked
      obtain ⟨contract', since'⟩ := p
      simp [hindex, hclosed]
  | none => cases r.index.get? n <;> cases r.closed.get? n <;> simp

theorem Exact.isParkedFor_iff (h : r.Exact) {ttl instant : Nat} :
    (r.stateOf n).isParkedFor ttl instant ↔
      ∃ p, r.parked.get? n = some p ∧ ttl ≤ age instant p.since := by
  constructor
  · intro hold
    cases hstate : r.stateOf n with
    | parked contract since =>
        refine ⟨_, h.stateOf_eq_parked.mp hstate, ?_⟩
        simpa [hstate, NegotiationState.isParkedFor] using hold
    | unknown | pending | closed => simp [hstate, NegotiationState.isParkedFor] at hold
  · rintro ⟨⟨contract, since⟩, hget, hold⟩
    simpa [h.stateOf_eq_parked.mpr hget, NegotiationState.isParkedFor] using hold

theorem Exact.isClosedFor_iff (h : r.Exact) {ttl instant : Nat} :
    (r.stateOf n).isClosedFor ttl instant ↔
      ∃ since, r.closed.get? n = some since ∧ ttl ≤ age instant since := by
  constructor
  · intro hold
    cases hstate : r.stateOf n with
    | closed since =>
        refine ⟨_, h.stateOf_eq_closed.mp hstate, ?_⟩
        simpa [hstate, NegotiationState.isClosedFor] using hold
    | unknown | parked | pending => simp [hstate, NegotiationState.isClosedFor] at hold
  · rintro ⟨since, hget, hold⟩
    simpa [h.stateOf_eq_closed.mpr hget, NegotiationState.isClosedFor] using hold

/-- The state depends on what the maps have for the negotiation. -/
theorem stateOf_congr (hindex : r'.index.get? n = r.index.get? n)
    (hclosed : r'.closed.get? n = r.closed.get? n)
    (hparked : r'.parked.get? n = r.parked.get? n) : r'.stateOf n = r.stateOf n := by
  unfold stateOf
  rw [hindex, hclosed, hparked]

/-- Every turn moves each negotiation by itself. -/
theorem Exact.stateOf_turn (h : r.Exact) (ht : r.Turn now request answer r') (n : NegotiationId) :
    r'.stateOf n = (r.stateOf n).next n { now, request, answer } := by
  cases ht with
  | stored key record hfree =>
      show _ = if record.negotiation = n then _ else _
      split
      · rename_i hn
        exact stateOf_eq_pending.mpr (by simp [Registry.file, hn])
      · rename_i hn
        refine stateOf_congr ?_ ?_ ?_ <;> simp [Registry.file, hn, Ne.symm hn]
  | refused key record old hold => rfl
  | taken key record hget =>
      show _ = if r.stateOf n = .pending key then _ else _
      have hindexed : r.stateOf n = .pending key ↔ record.negotiation = n := by
        rw [stateOf_eq_pending, h.indexed, hget]
        simp
      by_cases hn : record.negotiation = n
      · rw [if_pos (hindexed.mpr hn), (h.unfile hget now).stateOf_eq_closed]
        simp [Registry.unfile, hn]
      · rw [if_neg (mt hindexed.mp hn)]
        refine stateOf_congr ?_ ?_ rfl <;> simp [Registry.unfile, hn, Ne.symm hn]
  | absent key hnone =>
      show _ = if r.stateOf n = .pending key then _ else _
      refine (if_neg fun hpending => ?_).symm
      obtain ⟨record, hget, -⟩ := (h.indexed n key).mp (stateOf_eq_pending.mp hpending)
      rw [hnone] at hget
      cases hget
  | found n' contract key hindex =>
      show _ = if n' = n then _ else _
      split
      · rename_i hn
        rw [stateOf_eq_pending.mpr (hn ▸ hindex)]
        rfl
      · rfl
  | late n' contract since hindex hclosed =>
      show _ = if n' = n then _ else _
      split
      · rename_i hn
        rw [h.stateOf_eq_closed.mpr (hn ▸ hclosed)]
        rfl
      · rfl
  | parked n' contract hindex hclosed =>
      show _ = if n' = n then _ else _
      by_cases hn : n' = n
      · subst hn
        cases hparked : r.parked.get? n' <;>
          simp [stateOf, hindex, hclosed, hparked, NegotiationState.confirm]
      · rw [if_neg hn]
        exact stateOf_congr rfl rfl (by simp [hn])
  | purgedParked instant ttl =>
      show _ = if (r.stateOf n).isParkedFor ttl instant then _ else _
      cases hparked : r.parked.get? n with
      | none =>
          rw [if_neg (by simp [h.isParkedFor_iff, hparked])]
          exact stateOf_congr rfl rfl (by simp [hparked])
      | some p =>
          obtain ⟨hindex, hclosed⟩ := h.parked n p hparked
          by_cases hold : ttl ≤ age instant p.since
          · rw [if_pos (h.isParkedFor_iff.mpr ⟨p, hparked, hold⟩)]
            simp [stateOf, hindex, hclosed, hparked, Option.filter, Nat.not_lt_of_le hold]
          · rw [if_neg (by simp [h.isParkedFor_iff, hparked, hold])]
            refine stateOf_congr rfl rfl ?_
            simp [hparked, Option.filter, Nat.lt_of_not_le hold]
  | purgedClosed instant ttl =>
      show _ = if (r.stateOf n).isClosedFor ttl instant then _ else _
      cases hclosed : r.closed.get? n with
      | none =>
          rw [if_neg (by simp [h.isClosedFor_iff, hclosed])]
          exact stateOf_congr rfl (by simp [hclosed]) rfl
      | some since =>
          have hindex := h.closed n since hclosed
          by_cases hold : ttl ≤ age instant since
          · have hparked : r.parked.get? n = none := by
              refine Option.eq_none_iff_forall_ne_some.mpr fun p hp => ?_
              have hopen := (h.parked n p hp).2
              rw [hclosed] at hopen
              cases hopen
            rw [if_pos (h.isClosedFor_iff.mpr ⟨since, hclosed, hold⟩)]
            simp [stateOf, hindex, hclosed, hparked, Option.filter, Nat.not_lt_of_le hold]
          · rw [if_neg (by simp [h.isClosedFor_iff, hclosed, hold])]
            refine stateOf_congr rfl ?_ rfl
            simp [hclosed, Option.filter, Nat.lt_of_not_le hold]

/-! ## What a purge counts -/

theorem Exact.count_purgeParked (h : r.Exact) (instant ttl : Nat) :
    ∃ ids : List NegotiationId, ids.Nodup ∧
      (∀ n, n ∈ ids ↔ (r.stateOf n).isParkedFor ttl instant) ∧
      (r.purgeParked instant ttl).1 = ids.length := by
  refine ⟨_, (r.parked.keep fun _ p => !decide (age instant p.since < ttl)).nodup, fun n => ?_,
    Assoc.size_sub_keep ..⟩
  rw [h.isParkedFor_iff, ← Assoc.keys, Assoc.mem_keys, Assoc.get?_keep]
  cases r.parked.get? n <;> simp [Option.filter]

theorem Exact.count_purgeClosed (h : r.Exact) (instant ttl : Nat) :
    ∃ ids : List NegotiationId, ids.Nodup ∧
      (∀ n, n ∈ ids ↔ (r.stateOf n).isClosedFor ttl instant) ∧
      (r.purgeClosed instant ttl).1 = ids.length := by
  refine ⟨_, (r.closed.keep fun _ since => !decide (age instant since < ttl)).nodup, fun n => ?_,
    Assoc.size_sub_keep ..⟩
  rw [h.isClosedFor_iff, ← Assoc.keys, Assoc.mem_keys, Assoc.get?_keep]
  cases r.closed.get? n <;> simp [Option.filter]

/-! ## Many requests -/

theorem Exact.after (h : r.Exact) {reqs : List (Nat × RegistryRequest)}
    (hadmits : r.AdmitsAll reqs) : (r.after reqs).Exact := by
  induction reqs generalizing r with
  | nil => exact h
  | cons req reqs ih => exact ih (h.turn hadmits.1 (r.answer_turn req.1 req.2)) hadmits.2

/-- The state of a negotiation is where its machine has come to. -/
theorem Exact.stateOf_after (h : r.Exact) {reqs : List (Nat × RegistryRequest)}
    (hadmits : r.AdmitsAll reqs) (n : NegotiationId) :
    (r.after reqs).stateOf n = (r.events reqs).foldl (NegotiationState.next n) (r.stateOf n) := by
  induction reqs generalizing r with
  | nil => rfl
  | cons req reqs ih =>
      have ht := r.answer_turn req.1 req.2
      have hrest := ih (h.turn hadmits.1 ht) hadmits.2
      rw [h.stateOf_turn ht n] at hrest
      exact hrest

/-- A turn gives `key` a record, or takes its record, or leaves it alone. -/
theorem Turn.books (ht : r.Turn now request answer r') (key : CorrelationKey) :
    let ev : RegistryEvent := { now, request, answer }
    (r.records.get? key).toList ++ (ev.stored? key).toList =
      (ev.taken? key).toList ++ (r'.records.get? key).toList := by
  cases ht with
  | stored key' record hfree =>
      by_cases hk : key' = key
      · subst hk
        simp [RegistryEvent.stored?, RegistryEvent.taken?, Registry.file, hfree]
      · simp [RegistryEvent.stored?, RegistryEvent.taken?, Registry.file, hk]
  | taken key' record hget =>
      by_cases hk : key' = key
      · subst hk
        simp [RegistryEvent.stored?, RegistryEvent.taken?, Registry.unfile, hget]
      · simp [RegistryEvent.stored?, RegistryEvent.taken?, Registry.unfile, hk, Ne.symm hk]
  | refused | absent | found | late | parked | purgedParked | purgedClosed =>
      simp [RegistryEvent.stored?, RegistryEvent.taken?]

theorem filterMap_cons_toList {α β : Type} (f : α → Option β) (a : α) (as : List α) :
    (a :: as).filterMap f = (f a).toList ++ as.filterMap f := by
  cases hf : f a <;> simp [hf]

/-- Each record that is stored is taken once, in the order in which they were stored. -/
theorem taken_events (r : Registry) (reqs : List (Nat × RegistryRequest)) (key : CorrelationKey) :
    (r.records.get? key).toList ++ (r.events reqs).filterMap (RegistryEvent.stored? key) =
      (r.events reqs).filterMap (RegistryEvent.taken? key) ++
        ((r.after reqs).records.get? key).toList := by
  induction reqs generalizing r with
  | nil => simp [events, Registry.after]
  | cons req reqs ih =>
      have hfirst := (r.answer_turn req.1 req.2).books key
      have hrest := ih (r.answer req.1 req.2).2
      rw [events, filterMap_cons_toList, filterMap_cons_toList]
      rw [← List.append_assoc, hfirst, List.append_assoc, hrest, ← List.append_assoc]
      rfl

/-! ## What the state tells -/

theorem Exact.pending_iff (h : r.Exact) :
    (∃ n, r.stateOf n = .pending key) ↔ (r.records.get? key).isSome := by
  rw [Option.isSome_iff_exists]
  constructor
  · rintro ⟨n, hn⟩
    obtain ⟨record, hget, -⟩ := (h.indexed n key).mp (stateOf_eq_pending.mp hn)
    exact ⟨record, hget⟩
  · rintro ⟨record, hget⟩
    exact ⟨record.negotiation, stateOf_eq_pending.mpr ((h.indexed _ _).mpr ⟨record, hget, rfl⟩)⟩

/-- Where a confirmation belongs follows from the state of its negotiation. -/
theorem answer_resolve (r : Registry) (now : Nat) (n : NegotiationId) (contract : ContractId) :
    (r.answer now (.resolve n contract)).1 = .resolved (r.stateOf n).resolution := by
  show RegistryAnswer.resolved (r.resolveOrPark now n contract).1 = _
  congr 1
  unfold resolveOrPark stateOf Assoc.contains
  cases hindex : r.index.get? n with
  | some key => rfl
  | none =>
      cases hclosed : r.closed.get? n with
      | some since => rfl
      | none => cases r.parked.get? n <;> rfl

/-- A key without a record gets one, and with it the contract that is parked. -/
theorem Exact.answer_store (h : r.Exact) (now : Nat) {record : PendingRecord}
    (hfree : r.records.get? key = none) :
    (r.answer now (.store key record)).1 =
      .stored (r.stateOf record.negotiation).contract? := by
  have hstored : (r.answer now (.store key record)).1 =
      .stored ((r.parked.get? record.negotiation).map ParkedConfirmation.contract) := by
    simp [Registry.answer, store_of_get?_eq_none r key record hfree]
  rw [hstored]
  cases hstate : r.stateOf record.negotiation with
  | parked contract since => rw [h.stateOf_eq_parked.mp hstate]; rfl
  | unknown | pending | closed =>
      have hnone : r.parked.get? record.negotiation = none := by
        refine Option.eq_none_iff_forall_ne_some.mpr fun p hp => ?_
        have hparked := h.stateOf_eq_parked.mpr hp
        rw [hstate] at hparked
        cases hparked
      rw [hnone]
      rfl

/-- Let requests be made to the registry, at any instants, such that no record is stored under a
free key with a negotiation that another record has.

* The index is the inverse of the records, and no negotiation is in two of index, parked and closed:
  it is pending for the key that it is indexed for, parked or closed since the instant noted there,
  or unknown.
* Each negotiation is where its own machine has come to, `NegotiationState.next`.
* A confirmation belongs where the state of its negotiation says.
* A key for which no negotiation is pending gets the record that is stored, and the caller gets the
  contract that is parked; any other key is refused, and the registry stays as it is.
* A purge counts the negotiations that have been parked, or closed, for the time to live.
* The records that a key got are those that were taken from it, each once and in the same order, and
  the one it still has, if any. -/
theorem negotiations_move_by_themselves {reqs : List (Nat × RegistryRequest)}
    (hadmits : ({} : Registry).AdmitsAll reqs) :
    let r := ({} : Registry).after reqs
    let events := ({} : Registry).events reqs
    (∀ n key, r.index.get? n = some key ↔
      ∃ record, r.records.get? key = some record ∧ record.negotiation = n) ∧
    (∀ n, ((r.index.get? n).isSome → r.parked.get? n = none ∧ r.closed.get? n = none) ∧
      ((r.parked.get? n).isSome → r.closed.get? n = none)) ∧
    (∀ n, (∀ key, r.stateOf n = .pending key ↔ r.index.get? n = some key) ∧
      (∀ contract since,
        r.stateOf n = .parked contract since ↔ r.parked.get? n = some { contract, since }) ∧
      ∀ since, r.stateOf n = .closed since ↔ r.closed.get? n = some since) ∧
    (∀ n, r.stateOf n = events.foldl (NegotiationState.next n) .unknown) ∧
    (∀ now n contract,
      (r.answer now (.resolve n contract)).1 = .resolved (r.stateOf n).resolution) ∧
    (∀ now key record, (∀ n, r.stateOf n ≠ .pending key) →
      (r.answer now (.store key record)).1 = .stored (r.stateOf record.negotiation).contract?) ∧
    (∀ now key record n, r.stateOf n = .pending key →
      r.answer now (.store key record) = (.refused (.duplicatePending key), r)) ∧
    (∀ now key, (r.answer now (.take key)).1 = .taken (r.records.get? key)) ∧
    (∀ now instant ttl, ∃ ids : List NegotiationId, ids.Nodup ∧
      (∀ n, n ∈ ids ↔ (r.stateOf n).isParkedFor ttl instant) ∧
      (r.answer now (.purgeParked instant ttl)).1 = .purged ids.length) ∧
    (∀ now instant ttl, ∃ ids : List NegotiationId, ids.Nodup ∧
      (∀ n, n ∈ ids ↔ (r.stateOf n).isClosedFor ttl instant) ∧
      (r.answer now (.purgeClosed instant ttl)).1 = .purged ids.length) ∧
    ∀ key, events.filterMap (RegistryEvent.stored? key) =
      events.filterMap (RegistryEvent.taken? key) ++ (r.records.get? key).toList := by
  intro r events
  have h : r.Exact := exact_empty.after hadmits
  refine ⟨h.indexed, fun n => ⟨fun hindex => ?_, fun hparked => ?_⟩, fun n => ⟨fun key =>
    stateOf_eq_pending, fun contract since => h.stateOf_eq_parked, fun since =>
    h.stateOf_eq_closed⟩, exact_empty.stateOf_after hadmits, r.answer_resolve, ?_, ?_,
    fun now key => ?_, fun now instant ttl => ?_, fun now instant ttl => ?_,
    taken_events {} reqs⟩
  · have hpending : r.index.get? n ≠ none := by
      rintro hnone
      simp [hnone] at hindex
    refine ⟨Option.eq_none_iff_forall_ne_some.mpr fun p hp => hpending (h.parked n p hp).1,
      Option.eq_none_iff_forall_ne_some.mpr fun since hs => hpending (h.closed n since hs)⟩
  · obtain ⟨p, hp⟩ := Option.isSome_iff_exists.mp hparked
    exact (h.parked n p hp).2
  · intro now key record hnone
    refine h.answer_store now (Option.not_isSome_iff_eq_none.mp ?_)
    rw [← h.pending_iff]
    rintro ⟨n, hn⟩
    exact hnone n hn
  · intro now key record n hn
    obtain ⟨old, hold⟩ := Option.isSome_iff_exists.mp (h.pending_iff.mp ⟨n, hn⟩)
    simp [Registry.answer, store_of_get?_eq_some hold]
  · exact congrArg RegistryAnswer.taken (fst_take r now key)
  · obtain ⟨ids, hnodup, hids, hcount⟩ := h.count_purgeParked instant ttl
    exact ⟨ids, hnodup, hids, congrArg RegistryAnswer.purged hcount⟩
  · obtain ⟨ids, hnodup, hids, hcount⟩ := h.count_purgeClosed instant ttl
    exact ⟨ids, hnodup, hids, congrArg RegistryAnswer.purged hcount⟩

/-- A confirmation is parked and claimed, the record taken, and the negotiation that is closed with
it forgotten once it is old enough. -/
theorem negotiations_move_by_themselves_of_early :
    let n : NegotiationId := { text := "n" }
    let key : CorrelationKey := { text := "k" }
    let record : PendingRecord :=
      { offer := { id := "o", asset := { text := "a" }, provider := "p" }, negotiation := n }
    let reqs : List (Nat × RegistryRequest) :=
      [(0, .resolve n { text := "c" }), (1, .store key record), (2, .take key),
        (4, .purgeClosed 4 3), (5, .purgeClosed 5 3)]
    let events := ({} : Registry).events reqs
    ({} : Registry).AdmitsAll reqs ∧
      events.map RegistryEvent.answer = [.resolved .parked, .stored (some { text := "c" }),
        .taken (some record), .purged 0, .purged 1] ∧
      events.foldl (NegotiationState.next n) .unknown = .unknown ∧
      events.filterMap (RegistryEvent.stored? key) =
        events.filterMap (RegistryEvent.taken? key) := by
  intro n key record reqs events
  have hadmits : ({} : Registry).AdmitsAll reqs := by decide
  obtain ⟨-, -, -, hmoves, -, -, -, -, -, -, htaken⟩ := negotiations_move_by_themselves hadmits
  refine ⟨hadmits, by decide, (hmoves n).symm, ?_⟩
  exact (htaken key).trans (List.append_nil _)

end Registry

end Rendezvous
