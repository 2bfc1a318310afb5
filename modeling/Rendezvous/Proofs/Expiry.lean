import Mathlib.Data.List.Perm.Basic
import Rendezvous.ExpiringMap.Requests

/-!
# What can be read of an expiring map

Three operations remove entries: `get` a stale one, `take` any, `purge` all stale ones.  None of
them can be told from a map that never forgets, except that what was taken is gone: a value can be
read exactly while its age is below the time to live.

* `ExpiringMap.Shows`: what can be read from an instant on, and what each operation does to it;
* `ExpiringMap.Shows.after`: after requests, it is what the keys were given last;
* `ExpiringMap.Alike`: maps that answer alike from an instant on;
* `ExpiringMap.reads_what_was_given`: all of it together.
-/

namespace Rendezvous

namespace ExpiringMap

variable {κ α : Type} [DecidableEq κ] {m m' : ExpiringMap κ α} {now : Nat} {k : κ}

/-! ## What can be read from an instant on -/

/-- From `now` on, `view` is what can be read of the map. -/
def Shows (m : ExpiringMap κ α) (now : Nat) (view : Nat → κ → Option α) : Prop :=
  ∀ later, now ≤ later → ∀ k, m.peek? later k = view later k

namespace Shows

variable {view view' : Nat → κ → Option α}

theorem later (h : m.Shows now view) {instant : Nat} (hle : now ≤ instant) :
    m.Shows instant view :=
  fun later hlater k => h later (Nat.le_trans hle hlater) k

theorem congr (h : m.Shows now view)
    (hview : ∀ later, now ≤ later → ∀ k, view later k = view' later k) : m.Shows now view' :=
  fun later hlater k => (h later hlater k).trans (hview later hlater k)

theorem insert (h : m.Shows now view) (k : κ) (v : α) :
    (m.insert now k v).Shows now fun later k' =>
      if k = k' then (if age later now < m.ttl then some v else none) else view later k' := by
  intro later hlater k'
  rw [peek?_insert, h later hlater k']
  simp [isFresh]

theorem get (h : m.Shows now view) (k : κ) : (m.get now k).2.Shows now view :=
  fun later hlater k' => (m.peek?_get hlater k k').trans (h later hlater k')

theorem take (h : m.Shows now view) (k : κ) :
    (m.take now k).2.Shows now fun later k' => if k' = k then none else view later k' := by
  intro later hlater k'
  rw [peek?_take, h later hlater k']

theorem purge (h : m.Shows now view) : (m.purge now).2.Shows now view :=
  fun later hlater k => (m.peek?_purge now later hlater k).trans (h later hlater k)

end Shows

theorem ttl_get (m : ExpiringMap κ α) (now : Nat) (k : κ) : (m.get now k).2.ttl = m.ttl := by
  unfold get
  cases m.peek? now k <;> rfl

@[simp] theorem ttl_answer (m : ExpiringMap κ α) (now : Nat) (request : MapRequest κ α) :
    (m.answer now request).2.ttl = m.ttl := by
  cases request with
  | insert k v => rfl
  | get k => exact m.ttl_get now k
  | take k => rfl
  | contains k => exact m.ttl_get now k
  | purge => rfl

@[simp] theorem ttl_after (m : ExpiringMap κ α) (reqs : List (Nat × MapRequest κ α)) :
    (m.after reqs).ttl = m.ttl := by
  induction reqs generalizing m with
  | nil => rfl
  | cons req reqs ih => exact (ih _).trans (m.ttl_answer req.1 req.2)

/-! ## What the keys were given last -/

theorem readable?_next_insert (ttl : Nat) (given : κ → Option (α × Nat)) (later now : Nat)
    (k k' : κ) (v : α) :
    readable? ttl later ((MapRequest.insert k v).next k' (given k') now) =
      if k = k' then (if age later now < ttl then some v else none)
      else readable? ttl later (given k') := by
  by_cases hk : k = k'
  · by_cases hfresh : age later now < ttl <;>
      simp [MapRequest.next, readable?, hk, Option.filter, hfresh]
  · simp [MapRequest.next, hk]

theorem readable?_next_take (ttl : Nat) (given : κ → Option (α × Nat)) (later now : Nat)
    (k k' : κ) :
    readable? ttl later ((MapRequest.take k).next k' (given k') now) =
      if k' = k then none else readable? ttl later (given k') := by
  by_cases hk : k' = k
  · simp [MapRequest.next, readable?, hk]
  · simp [MapRequest.next, hk, Ne.symm hk]

/-- A request changes what can be read as it changes what the keys were given last. -/
theorem Shows.answer {given : κ → Option (α × Nat)}
    (h : m.Shows now fun later k => readable? m.ttl later (given k)) (request : MapRequest κ α) :
    (m.answer now request).2.Shows now fun later k =>
      readable? m.ttl later (request.next k (given k) now) := by
  cases request with
  | insert k v =>
      exact (h.insert k v).congr fun later _ k' =>
        (readable?_next_insert m.ttl given later now k k' v).symm
  | take k =>
      exact (h.take k).congr fun later _ k' =>
        (readable?_next_take m.ttl given later now k k').symm
  | get k => exact h.get k
  | contains k => exact h.get k
  | purge => exact h.purge

/-- After requests, what can be read of a key is what is left of the last value it was given. -/
theorem Shows.after {given : κ → Option (α × Nat)} {reqs : List (Nat × MapRequest κ α)}
    (h : m.Shows now fun later k => readable? m.ttl later (given k))
    (hclock : ClockedFrom now reqs) {instant : Nat} (hlast : ∀ req ∈ reqs, req.1 ≤ instant)
    (hnow : now ≤ instant) :
    (m.after reqs).Shows instant fun later k =>
      readable? m.ttl later
        (reqs.foldl (fun given? req => req.2.next k given? req.1) (given k)) := by
  induction reqs generalizing m now given with
  | nil => exact h.later hnow
  | cons req reqs ih =>
      obtain ⟨hle, hrest⟩ := List.pairwise_cons.mp hclock
      have hfirst := (h.later (hle req.1 (by simp))).answer req.2
      rw [← m.ttl_answer req.1 req.2] at hfirst ⊢
      exact ih hfirst hrest (fun r hr => hlast r (List.mem_cons_of_mem _ hr))
        (hlast req List.mem_cons_self)

/-! ## Maps that answer alike -/

/-- From `now` on, nobody can tell the maps apart by what can be read of them. -/
structure Alike (m m' : ExpiringMap κ α) (now : Nat) : Prop where
  ttl : m.ttl = m'.ttl
  shows : m.Shows now m'.peek?

/-- A request that neither gives nor takes a value cannot be noticed. -/
theorem alike_of_unchanged {request : MapRequest κ α} (h : m.isChanged now request = false) :
    Alike (m.answer now request).2 m now := by
  have hsame : m.Shows now m.peek? := fun _ _ _ => rfl
  refine ⟨m.ttl_answer now request, ?_⟩
  cases request with
  | insert k v => cases h
  | get k | contains k => exact hsame.get k
  | take k =>
      have hnone : m.peek? now k = none := by simpa [isChanged] using h
      exact fun later hlater k' => peek?_take_of_none hnone hlater k'
  | purge => exact hsame.purge

/-- Maps that are alike tell the same of their values, and stay alike. -/
theorem Alike.answer (h : Alike m m' now) (request : MapRequest κ α) :
    (m.answer now request).1.reading? = (m'.answer now request).1.reading? ∧
      Alike (m.answer now request).2 (m'.answer now request).2 now := by
  have hpeek : ∀ k, m.peek? now k = m'.peek? now k := h.shows now (Nat.le_refl now)
  have hkeeps : ∀ {n n' : ExpiringMap κ α}, n.ttl = m.ttl → n'.ttl = m'.ttl →
      n.Shows now n'.peek? → Alike n n' now :=
    fun hn hn' hshows => ⟨hn.trans (h.ttl.trans hn'.symm), hshows⟩
  cases request with
  | insert k v =>
      refine ⟨rfl, hkeeps rfl rfl ((h.shows.insert k v).congr fun later _ k' => ?_)⟩
      show _ = (m'.insert now k v).peek? later k'
      rw [peek?_insert, h.ttl]
      simp [isFresh]
  | get k =>
      refine ⟨?_, hkeeps (m.ttl_get now k) (m'.ttl_get now k) ((h.shows.get k).congr
        fun later hlater k' => (m'.peek?_get hlater k k').symm)⟩
      simp [ExpiringMap.answer, fst_get, hpeek]
  | contains k =>
      refine ⟨?_, hkeeps (m.ttl_get now k) (m'.ttl_get now k) ((h.shows.get k).congr
        fun later hlater k' => (m'.peek?_get hlater k k').symm)⟩
      simp [ExpiringMap.answer, contains, fst_get, hpeek]
  | take k =>
      refine ⟨?_, hkeeps rfl rfl ((h.shows.take k).congr
        fun later _ k' => (m'.peek?_take now later k k').symm)⟩
      simp [ExpiringMap.answer, ExpiringMap.take, hpeek]
  | purge =>
      exact ⟨rfl, hkeeps rfl rfl (h.shows.purge.congr
        fun later hlater k => (m'.peek?_purge now later hlater k).symm)⟩

theorem Alike.later (h : Alike m m' now) {instant : Nat} (hle : now ≤ instant) :
    Alike m m' instant :=
  ⟨h.ttl, h.shows.later hle⟩

theorem Alike.answers {reqs : List (Nat × MapRequest κ α)} (h : Alike m m' now)
    (hclock : ClockedFrom now reqs) :
    (m.answers reqs).map MapAnswer.reading? = (m'.answers reqs).map MapAnswer.reading? := by
  induction reqs generalizing m m' now with
  | nil => rfl
  | cons req reqs ih =>
      obtain ⟨hle, hrest⟩ := List.pairwise_cons.mp hclock
      obtain ⟨hreading, hnext⟩ := (h.later (hle req.1 (by simp))).answer req.2
      exact congrArg₂ List.cons hreading (ih hnext hrest)

/-! ## How many entries there are -/

/-- A purge removes the stale entries and counts them. -/
theorem purge_removes_stale (m : ExpiringMap κ α) (now : Nat) :
    ∃ stale : List κ, stale.Nodup ∧
      (∀ k, k ∈ stale ↔ ∃ v since, m.entries.get? k = some (v, since) ∧ m.ttl ≤ age now since) ∧
      (m.purge now).1 = stale.length ∧
      ∀ k, (m.purge now).2.entries.get? k = if k ∈ stale then none else m.entries.get? k := by
  let dropped := m.entries.keep fun _ e => !m.isFresh now e.2
  have hmem : ∀ k, k ∈ dropped.keys ↔
      ∃ v since, m.entries.get? k = some (v, since) ∧ m.ttl ≤ age now since := by
    intro k
    rw [Assoc.mem_keys, Assoc.get?_keep]
    cases m.entries.get? k with
    | none => simp
    | some e =>
        obtain ⟨v, since⟩ := e
        simp [Option.filter, isFresh]
  refine ⟨dropped.keys, dropped.nodup, hmem, Assoc.size_sub_keep .., fun k => ?_⟩
  rw [purge, Assoc.get?_keep]
  cases hentry : m.entries.get? k with
  | none => simp
  | some e =>
      by_cases hfresh : age now e.2 < m.ttl
      · have hkept : k ∉ dropped.keys := by
          rw [hmem, hentry]
          rintro ⟨v, since, he, hstale⟩
          cases he
          exact absurd hfresh (Nat.not_lt_of_le hstale)
        simp [hkept, Option.filter, isFresh, hfresh]
      · have hgone : k ∈ dropped.keys :=
          (hmem k).mpr ⟨e.1, e.2, hentry, Nat.le_of_not_lt hfresh⟩
        simp [hgone, Option.filter, isFresh, hfresh]

/-- Keys that can be read have entries, each its own. -/
theorem length_le_size (m : ExpiringMap κ α) (now : Nat) {ks : List κ} (hnodup : ks.Nodup)
    (hread : ∀ k ∈ ks, (m.peek? now k).isSome) : ks.length ≤ m.size := by
  have hsub : ks ⊆ m.entries.keys := by
    intro k hk
    rw [Assoc.mem_keys]
    have hsome := hread k hk
    unfold peek? at hsome
    cases hentry : m.entries.get? k with
    | none => simp [hentry] at hsome
    | some e => rfl
  have hlength := (List.subperm_of_subset hnodup hsub).length_le
  rwa [Assoc.keys, List.length_map] at hlength

/-! ## All of it together -/

/-- Let requests be made to an empty map by a clock that does not go back, and let `now` be an
instant not before the last of them.

* Whoever gets or takes a key finds the last value that the key was given, if it was not taken since
  and its age is below the time to live, and nothing otherwise; a key is contained if something is
  found.
* A request that gives no value, and takes none that could be read, changes nothing that any later
  request tells of a value: neither the entries that reading drops nor those that a purge drops are
  missed.
* A purge removes the entries whose age is at least the time to live, no others, and counts them.
* The map has at least as many entries as there are keys that can be read. -/
theorem reads_what_was_given (ttl : Nat) (reqs : List (Nat × MapRequest κ α)) (now : Nat)
    (hclock : (reqs.map Prod.fst ++ [now]).Pairwise (· ≤ ·)) :
    let m := ({ ttl } : ExpiringMap κ α).after reqs
    (∀ k, (m.answer now (.get k)).1 = .found (readable? ttl now (given? k reqs))) ∧
    (∀ k, (m.answer now (.take k)).1 = .found (readable? ttl now (given? k reqs))) ∧
    (∀ k, (m.answer now (.contains k)).1 =
      .contained (readable? ttl now (given? k reqs)).isSome) ∧
    (∀ request, m.isChanged now request = false → ∀ rest, ClockedFrom now rest →
      ((m.answer now request).2.answers rest).map MapAnswer.reading? =
        (m.answers rest).map MapAnswer.reading?) ∧
    (∃ stale : List κ, stale.Nodup ∧
      (∀ k, k ∈ stale ↔ ∃ v since, m.entries.get? k = some (v, since) ∧ ttl ≤ age now since) ∧
      (m.answer now .purge).1 = .purged stale.length ∧
      ∀ k, (m.answer now .purge).2.entries.get? k =
        if k ∈ stale then none else m.entries.get? k) ∧
    ∀ ks : List κ, ks.Nodup → (∀ k ∈ ks, (readable? ttl now (given? k reqs)).isSome) →
      ks.length ≤ m.size := by
  intro m
  have hempty : ({ ttl } : ExpiringMap κ α).Shows 0 fun later _ => readable? ttl later none :=
    fun _ _ _ => rfl
  obtain ⟨hsorted, -, hlast⟩ := List.pairwise_append.mp hclock
  have hfirst : ClockedFrom 0 reqs := List.pairwise_cons.mpr ⟨fun _ _ => Nat.zero_le _, hsorted⟩
  have hshows : m.Shows now fun later k => readable? ttl later (given? k reqs) :=
    hempty.after hfirst
      (fun req hreq => hlast req.1 (List.mem_map_of_mem hreq) now (List.mem_singleton.mpr rfl))
      (Nat.zero_le now)
  have hpeek : ∀ k, m.peek? now k = readable? ttl now (given? k reqs) :=
    hshows now (Nat.le_refl now)
  have httl : m.ttl = ttl := ttl_after _ reqs
  refine ⟨fun k => ?_, fun k => ?_, fun k => ?_, fun request hunchanged rest hrest => ?_, ?_,
    fun ks hnodup hread => ?_⟩
  · rw [← hpeek k, ← m.fst_get now k]
    rfl
  · rw [← hpeek k]
    rfl
  · rw [← hpeek k, ← m.fst_get now k]
    rfl
  · exact (alike_of_unchanged hunchanged).answers hrest
  · obtain ⟨stale, hdistinct, hstale, hcount, hkept⟩ := m.purge_removes_stale now
    exact ⟨stale, hdistinct, httl ▸ hstale, congrArg MapAnswer.purged hcount, hkept⟩
  · exact m.length_le_size now hnodup fun k hk => (hpeek k).symm ▸ hread k hk

/-- A value is read up to its last instant and not at the next one, and given again after that. -/
theorem reads_what_was_given_of_renewal :
    let reqs : List (Nat × MapRequest String Nat) :=
      [(0, .insert "a" 1), (9, .get "a"), (9, .purge), (10, .get "a"), (12, .insert "a" 2)]
    (reqs.map Prod.fst ++ [21]).Pairwise (· ≤ ·) ∧
      ({ ttl := 10 } : ExpiringMap String Nat).answers reqs =
        [.inserted, .found (some 1), .purged 0, .found none, .inserted] ∧
      ((({ ttl := 10 } : ExpiringMap String Nat).after reqs).answer 21 (.take "a")).1 =
        .found (some 2) := by
  intro reqs
  have hclock : (reqs.map Prod.fst ++ [21]).Pairwise (· ≤ ·) := by decide
  obtain ⟨-, htake, -⟩ := reads_what_was_given 10 reqs 21 hclock
  exact ⟨hclock, by decide, htake "a"⟩

end ExpiringMap

end Rendezvous
