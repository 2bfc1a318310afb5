import Rendezvous.Proofs.Frames
import Rendezvous.Proofs.Queues
import Rendezvous.Proofs.Sweeping

/-!
# Sessions on the store of cases

Whoever wants to change the case of a key opens a session: it asks for the lock of the key, does
what it has to do while it owns the lock, one operation at a time, and gives the lock back.  A
session that has not entered can be given up, also when it has just come to own the lock.  Sessions
of all keys are interleaved as they please; a task that uses several keys, or a key again, has
several sessions.

* `CaseStore.perform`: one operation, and `CaseStore.serve`: sessions served one after the other;
* `Sessions.act`: one step of one session, and `Sessions.after`: a schedule of such steps;
* `Sessions.Recorded`, `Sessions.Served`: the log is true, and serving the sessions in turn gives
  what they have got; both are kept by every step (`Kept.step`), hence by every schedule
  (`Kept.after`);
* `sessions_serialize`: the case of a key is what the sessions that got its lock leave when they are
  served one after the other in the order in which they got it.
-/

namespace Rendezvous

/-- What the owner of the lock of a key does with the case of the key. -/
inductive CaseOp
  | get
  | register (c : Case)
  | put (c : Case)
  | remove
deriving DecidableEq

/-- Whether a case that the operation brings belongs to `k`. -/
def CaseOp.isFor (k : CorrelationKey) : CaseOp → Bool
  | .get | .remove => true
  | .register c | .put c => c.key = k

/-- What the store answers to an operation. -/
inductive CaseAnswer
  | found (c? : Option Case)
  | done
  | refused (error : EngineError)
deriving DecidableEq

namespace CaseStore

variable {s s' : CaseStore} {k k' : CorrelationKey} {op : CaseOp}

/-- One operation on the case of `k`. -/
def perform (s : CaseStore) (k : CorrelationKey) : CaseOp → CaseAnswer × CaseStore
  | .get => (.found (s.get? k), s)
  | .register c =>
      match s.register k c with
      | .ok s' => (.done, s')
      | .error error => (.refused error, s)
  | .put c => (.done, s.put k c)
  | .remove => (.found (s.get? k), s.remove k)

/-- The operations of one session, one after the other. -/
def performAll (s : CaseStore) (k : CorrelationKey) : List CaseOp → List CaseAnswer × CaseStore
  | [] => ([], s)
  | op :: ops =>
      let (answer, s) := s.perform k op
      let (answers, s) := s.performAll k ops
      (answer :: answers, s)

/-- Sessions of `k`, one after the other. -/
def serve (s : CaseStore) (k : CorrelationKey) :
    List (List CaseOp) → List (List CaseAnswer) × CaseStore
  | [] => ([], s)
  | ops :: turns =>
      let (answers, s) := s.performAll k ops
      let (rest, s) := s.serve k turns
      (answers :: rest, s)

theorem register_of_get?_eq_some {c old : Case} (h : s.get? k = some old) :
    s.register k c = .error (.duplicateCase k) := by
  have htaken : s.cases.contains k = true := by
    have hget : s.cases.get? k = some old := h
    simp [Assoc.contains, hget]
  simp [register, htaken]

theorem register_eq (c : Case) :
    s.register k c = .ok (s.put k c) ∧ s.get? k = none ∨
      s.register k c = .error (.duplicateCase k) ∧ (s.get? k).isSome := by
  cases h : s.get? k with
  | none => exact .inl ⟨register_of_get?_eq_none s k c h, rfl⟩
  | some old => exact .inr ⟨register_of_get?_eq_some h, rfl⟩

@[simp] theorem locks_perform (s : CaseStore) (k : CorrelationKey) (op : CaseOp) :
    (s.perform k op).2.locks = s.locks := by
  cases op with
  | get | put | remove => rfl
  | register c =>
      rcases register_eq (s := s) (k := k) c with ⟨h, -⟩ | ⟨h, -⟩ <;> simp [perform, h, put]

/-- An operation touches no other key. -/
theorem get?_perform_of_ne (op : CaseOp) (h : k' ≠ k) :
    (s.perform k op).2.get? k' = s.get? k' := by
  cases op with
  | get => rfl
  | put c => simp [perform, Ne.symm h]
  | remove => simp [perform, h]
  | register c =>
      rcases register_eq (s := s) (k := k) c with ⟨hr, -⟩ | ⟨hr, -⟩ <;>
        simp [perform, hr, Ne.symm h]

/-- What an operation answers and leaves depends on the case of its key alone. -/
theorem perform_congr (h : s'.get? k = s.get? k) (op : CaseOp) :
    (s'.perform k op).1 = (s.perform k op).1 ∧
      (s'.perform k op).2.get? k = (s.perform k op).2.get? k := by
  cases op with
  | get => exact ⟨congrArg CaseAnswer.found h, h⟩
  | put c => simp [perform]
  | remove => simp [perform, h]
  | register c =>
      cases hold : s.get? k with
      | none =>
          simp [perform, register_of_get?_eq_none _ _ c hold,
            register_of_get?_eq_none _ _ c (h.trans hold)]
      | some old =>
          simp [perform, register_of_get?_eq_some hold, register_of_get?_eq_some (h.trans hold),
            h]

theorem performAll_concat (ops : List CaseOp) (op : CaseOp) :
    s.performAll k (ops ++ [op]) =
      ((s.performAll k ops).1 ++ [((s.performAll k ops).2.perform k op).1],
        ((s.performAll k ops).2.perform k op).2) := by
  induction ops generalizing s with
  | nil => rfl
  | cons first ops ih => simp [performAll, ih]

theorem serve_concat (turns : List (List CaseOp)) (ops : List CaseOp) :
    s.serve k (turns ++ [ops]) =
      ((s.serve k turns).1 ++ [((s.serve k turns).2.performAll k ops).1],
        ((s.serve k turns).2.performAll k ops).2) := by
  induction turns generalizing s with
  | nil => rfl
  | cons first turns ih => simp [serve, ih]

/-- Who brings cases of its own key only leaves every case filed. -/
theorem Filed.perform (h : s.Filed) (hop : op.isFor k) : (s.perform k op).2.Filed := by
  have hput : ∀ c : Case, c.key = k → (s.put k c).Filed := by
    intro c hc k' c' hget
    rw [get?_put] at hget
    split at hget
    · cases hget
      exact hc.trans ‹_›
    · exact h k' c' hget
  cases op with
  | get => exact h
  | put c => exact hput c (by simpa [CaseOp.isFor] using hop)
  | remove =>
      intro k' c' hget
      have hget' : (s.remove k).get? k' = some c' := hget
      rw [get?_remove] at hget'
      split at hget'
      · cases hget'
      · exact h k' c' hget'
  | register c =>
      rcases register_eq (s := s) (k := k) c with ⟨hr, -⟩ | ⟨hr, -⟩
      · simpa [CaseStore.perform, hr] using hput c (by simpa [CaseOp.isFor] using hop)
      · simpa [CaseStore.perform, hr] using h

/-- A store whose cases are filed under their own keys has one case of a key at most. -/
theorem Filed.length_le_one (h : s.Filed) (k : CorrelationKey) :
    (s.cases.values.filter fun c => c.key = k).length ≤ 1 := by
  have hrest : (s.cases.erase k).values.filter (fun c => c.key = k) = [] := by
    refine List.filter_eq_nil_iff.mpr fun c hc => ?_
    obtain ⟨k', hget⟩ := (Assoc.mem_values _ c).mp hc
    rw [Assoc.get?_erase] at hget
    split at hget
    · cases hget
    · have hkey : c.key = k' := h k' c hget
      simpa [hkey]
  rw [((s.cases.values_perm_erase k).filter _).length_eq, List.filter_append, hrest,
    List.append_nil]
  refine Nat.le_trans (List.length_filter_le _ _) ?_
  cases s.cases.get? k <;> simp

end CaseStore

/-- Where a session stands. -/
inductive SessionPoint
  /-- It has asked for the lock of `k` and has not entered. -/
  | waiting (k : CorrelationKey)
  /-- It has entered and owns the lock of `k`. -/
  | inside (k : CorrelationKey)
deriving DecidableEq

/-- What happens in a session. -/
inductive SessionEvent
  | granted (t : TaskId) (k : CorrelationKey)
  | performed (t : TaskId) (op : CaseOp) (answer : CaseAnswer)
  | gaveUp (t : TaskId)
deriving DecidableEq

/-- The session that got the lock of `k`. -/
def SessionEvent.turn? (k : CorrelationKey) : SessionEvent → Option TaskId
  | .granted t k' => if k' = k then some t else none
  | .performed .. | .gaveUp _ => none

/-- What the session `t` did, with the answer. -/
def SessionEvent.deed? (t : TaskId) : SessionEvent → Option (CaseOp × CaseAnswer)
  | .performed t' op answer => if t' = t then some (op, answer) else none
  | .granted .. | .gaveUp _ => none

/-- A store of cases with the sessions on it. -/
structure Sessions where
  store : CaseStore
  points : Assoc TaskId SessionPoint := {}
  /-- Larger than the name of every session opened so far. -/
  next : TaskId := 0
  /-- What has happened, oldest first. -/
  log : List SessionEvent := []

/-- One step of one session. -/
inductive SessionAction
  /-- A new session asks for the lock of `k`. -/
  | ask (k : CorrelationKey)
  /-- The session `t` finds that it owns its lock. -/
  | enter (t : TaskId)
  | perform (t : TaskId) (op : CaseOp)
  /-- The session `t` gives its lock back. -/
  | leave (t : TaskId)
  /-- The session `t` ends before it has entered. -/
  | giveUp (t : TaskId)

/-- The session that an action is a step of. -/
def SessionAction.task? : SessionAction → Option TaskId
  | .ask _ => none
  | .enter t | .perform t _ | .leave t | .giveUp t => some t

namespace Sessions

/-- A new store. -/
def opened (ttl : Nat) : Sessions := { store := { ttl, cases := .empty, locks := .free } }

/-- What an action does; an action that does not fit the state does nothing. -/
def act (s : Sessions) : SessionAction → Sessions
  | .ask k =>
      { s with
        store := { s.store with locks := s.store.locks.ask k s.next }
        points := s.points.insert s.next (.waiting k)
        next := s.next + 1 }
  | .enter t =>
      match s.points.get? t with
      | some (.waiting k) =>
          if s.store.locks.owner? k = some t then
            { s with
              points := s.points.insert t (.inside k)
              log := s.log ++ [.granted t k] }
          else s
      | _ => s
  | .perform t op =>
      match s.points.get? t with
      | some (.inside k) =>
          if op.isFor k then
            { s with
              store := (s.store.perform k op).2
              log := s.log ++ [.performed t op (s.store.perform k op).1] }
          else s
      | _ => s
  | .leave t =>
      match s.points.get? t with
      | some (.inside k) =>
          { s with
            store := { s.store with locks := s.store.locks.leave k t }
            points := s.points.erase t }
      | _ => s
  | .giveUp t =>
      match s.points.get? t with
      | some (.waiting k) =>
          { s with
            store := { s.store with locks := s.store.locks.leave k t }
            points := s.points.erase t
            log := s.log ++ [.gaveUp t] }
      | _ => s

/-- The state after a schedule. -/
def after (s : Sessions) (as : List SessionAction) : Sessions := as.foldl act s

/-- The session `t` has entered and not left the section of `k`. -/
def Inside (s : Sessions) (t : TaskId) (k : CorrelationKey) : Prop :=
  s.points.get? t = some (.inside k)

/-- The sessions that got the lock of `k`, in that order. -/
def turns (s : Sessions) (k : CorrelationKey) : List TaskId :=
  s.log.filterMap (SessionEvent.turn? k)

/-- What the session `t` has done, each operation with its answer. -/
def deeds (s : Sessions) (t : TaskId) : List (CaseOp × CaseAnswer) :=
  s.log.filterMap (SessionEvent.deed? t)

/-- The operations of the session `t`. -/
def ops (s : Sessions) (t : TaskId) : List CaseOp := (s.deeds t).map Prod.fst

/-- The answers to the session `t`. -/
def answers (s : Sessions) (t : TaskId) : List CaseAnswer := (s.deeds t).map Prod.snd

variable {s s' : Sessions} {a : SessionAction} {t t' : TaskId} {k k' : CorrelationKey}

/-- What the action `a` can make of `s`. -/
inductive Step (s : Sessions) : SessionAction → Sessions → Prop
  /-- The action does not fit the state. -/
  | idle (a : SessionAction) : Step s a s
  | ask (k : CorrelationKey) :
      Step s (.ask k)
        { s with
          store := { s.store with locks := s.store.locks.ask k s.next }
          points := s.points.insert s.next (.waiting k)
          next := s.next + 1 }
  | enter (t : TaskId) (k : CorrelationKey) (hold : s.points.get? t = some (.waiting k))
      (ho : s.store.locks.owner? k = some t) :
      Step s (.enter t)
        { s with points := s.points.insert t (.inside k), log := s.log ++ [.granted t k] }
  | perform (t : TaskId) (k : CorrelationKey) (op : CaseOp) (hin : s.Inside t k)
      (hop : op.isFor k) :
      Step s (.perform t op)
        { s with
          store := (s.store.perform k op).2
          log := s.log ++ [.performed t op (s.store.perform k op).1] }
  | leave (t : TaskId) (k : CorrelationKey) (hin : s.Inside t k) :
      Step s (.leave t)
        { s with
          store := { s.store with locks := s.store.locks.leave k t }
          points := s.points.erase t }
  | giveUp (t : TaskId) (k : CorrelationKey) (hold : s.points.get? t = some (.waiting k)) :
      Step s (.giveUp t)
        { s with
          store := { s.store with locks := s.store.locks.leave k t }
          points := s.points.erase t
          log := s.log ++ [.gaveUp t] }

theorem act_step (s : Sessions) (a : SessionAction) : s.Step a (s.act a) := by
  cases a with
  | ask k => exact .ask k
  | enter t =>
      unfold act
      dsimp only
      split
      · split
        · exact .enter t _ ‹_› ‹_›
        · exact .idle _
      · exact .idle _
  | perform t op =>
      unfold act
      dsimp only
      split
      · split
        · exact .perform t _ op ‹_› ‹_›
        · exact .idle _
      · exact .idle _
  | leave t =>
      unfold act
      dsimp only
      split
      · exact .leave t _ ‹_›
      · exact .idle _
  | giveUp t =>
      unfold act
      dsimp only
      split
      · exact .giveUp t _ ‹_›
      · exact .idle _

/-! ## Who is inside -/

/-- Positions and locks agree. -/
structure Ordered (s : Sessions) : Prop where
  /-- The names of sessions to come are free. -/
  fresh : ∀ t, s.next ≤ t → s.points.get? t = none
  /-- Who is inside owns the lock. -/
  owner : ∀ t k, s.Inside t k → s.store.locks.owner? k = some t

theorem Ordered.lt (h : s.Ordered) {p : SessionPoint} (hold : s.points.get? t = some p) :
    t < s.next := by
  refine Nat.lt_of_not_le fun hle => ?_
  rw [h.fresh t hle] at hold
  cases hold

/-- Who leaves a queue brings nobody else into disorder. -/
theorem Ordered.quit (h : s.Ordered) (t : TaskId) (k : CorrelationKey) (log : List SessionEvent) :
    Ordered
      { s with
        store := { s.store with locks := s.store.locks.leave k t }
        points := s.points.erase t
        log } where
  fresh t' hle := by simp [h.fresh t' hle]
  owner t' k' hin := by
    have hin' : (s.points.erase t).get? t' = some (.inside k') := hin
    rw [Assoc.get?_erase] at hin'
    split at hin'
    · cases hin'
    · rename_i hne
      have ho := h.owner t' k' hin'
      by_cases hk : k' = k
      · subst hk
        exact (KeyLocks.owner?_leave_of_not_owner _ _ _ (by rw [ho]; simpa using hne)).trans ho
      · exact (KeyLocks.owner?_leave_of_ne _ _ _ _ hk).trans ho

theorem Ordered.step (h : s.Ordered) (hs : s.Step a s') : s'.Ordered := by
  cases hs with
  | idle => exact h
  | ask k =>
      refine ⟨fun t hle => ?_, fun t k' hin => ?_⟩
      · have hle' : s.next + 1 ≤ t := hle
        have hne : s.next ≠ t := Nat.ne_of_lt hle'
        simp [hne, h.fresh t (Nat.le_of_succ_le hle')]
      · have hin' : (s.points.insert s.next (.waiting k)).get? t = some (.inside k') := hin
        rw [Assoc.get?_insert] at hin'
        split at hin'
        · cases hin'
        · have ho := h.owner t k' hin'
          show (s.store.locks.ask k s.next).owner? k' = some t
          rw [KeyLocks.owner?_ask]
          by_cases hk : k' = k
          · simp [← hk, ho]
          · simpa [hk] using ho
  | enter t k hold ho =>
      refine ⟨fun t' hle => ?_, fun t' k' hin => ?_⟩
      · have hne : t ≠ t' := Nat.ne_of_lt (Nat.lt_of_lt_of_le (h.lt hold) hle)
        simp [hne, h.fresh t' hle]
      · have hin' : (s.points.insert t (.inside k)).get? t' = some (.inside k') := hin
        rw [Assoc.get?_insert] at hin'
        split at hin'
        · cases hin'
          subst_vars
          exact ho
        · exact h.owner t' k' hin'
  | perform t k op =>
      refine ⟨h.fresh, fun t' k' hin => ?_⟩
      rw [CaseStore.locks_perform]
      exact h.owner t' k' hin
  | leave t k | giveUp t k => exact h.quit t k _

/-- Nobody else comes into a section, or changes the case of its key. -/
theorem Ordered.keeps (h : s.Ordered) (hs : s.Step a s') (hin : s.Inside t k)
    (ha : a.task? ≠ some t) : s'.Inside t k ∧ s'.store.get? k = s.store.get? k := by
  unfold Inside at *
  cases hs with
  | idle => exact ⟨hin, rfl⟩
  | ask k' =>
      have hne : s.next ≠ t := (Nat.ne_of_lt (h.lt hin)).symm
      exact ⟨by simpa [hne] using hin, rfl⟩
  | enter t' k' =>
      have hne : t' ≠ t := fun heq => ha (heq ▸ rfl)
      exact ⟨by simpa [hne] using hin, rfl⟩
  | perform t' k' op hin' =>
      refine ⟨hin, CaseStore.get?_perform_of_ne op ?_⟩
      rintro rfl
      have heq := (h.owner t' k hin').symm.trans (h.owner t k hin)
      exact ha (congrArg some (Option.some.inj heq))
  | leave t' k' | giveUp t' k' =>
      have hne : t ≠ t' := fun heq => ha (heq ▸ rfl)
      exact ⟨by simpa [hne] using hin, rfl⟩

/-! ## What the log tells -/

/-- What the log tells about the sessions is true. -/
structure Recorded (s : Sessions) : Prop where
  ordered : s.Ordered
  /-- Who got a lock is inside, or has ended. -/
  turn : ∀ t k, t ∈ s.turns k → t < s.next ∧ ∀ p, s.points.get? t = some p → p = .inside k
  once : ∀ k, (s.turns k).Nodup
  /-- Who is inside got the lock last. -/
  last : ∀ t k, s.Inside t k → (s.turns k).getLast? = some t
  /-- Who has done anything got a lock. -/
  deed : ∀ t, s.deeds t ≠ [] → ∃ k, t ∈ s.turns k
  /-- Who has given up has ended and never got a lock. -/
  gaveUp : ∀ t, .gaveUp t ∈ s.log → s.points.get? t = none ∧ t < s.next ∧ ∀ k, t ∉ s.turns k

namespace Recorded

/-- Who waits has not had its turn. -/
theorem not_mem_turns (h : s.Recorded) (hold : s.points.get? t = some (.waiting k))
    (k' : CorrelationKey) : t ∉ s.turns k' := by
  intro hmem
  cases (h.turn t k' hmem).2 _ hold

/-- Who is inside one section had no turn at another. -/
theorem eq_of_mem_turns (h : s.Recorded) (hin : s.Inside t k) (hmem : t ∈ s.turns k') : k' = k := by
  cases (h.turn t k' hmem).2 _ hin
  rfl

theorem deeds_eq_nil (h : s.Recorded) (hnone : ∀ k, t ∉ s.turns k) : s.deeds t = [] :=
  Decidable.of_not_not fun hne =>
    let ⟨k, hmem⟩ := h.deed t hne
    hnone k hmem

/-- Who is inside comes last in the turns of its key, and once. -/
theorem turns_eq (h : s.Recorded) (hin : s.Inside t k) :
    ∃ before, s.turns k = before ++ [t] ∧ t ∉ before := by
  obtain ⟨before, hturns⟩ := List.getLast?_eq_some_iff.mp (h.last t k hin)
  have honce := h.once k
  rw [hturns, List.nodup_append] at honce
  exact ⟨before, hturns, fun hmem => honce.2.2 t hmem t (by simp) rfl⟩

theorem ask (h : s.Recorded) (ho : s'.Ordered)
    (hpoints : s'.points = s.points.insert s.next (.waiting k)) (hnext : s'.next = s.next + 1)
    (hlog : s'.log = s.log) : s'.Recorded := by
  have hturns : s'.turns = s.turns := by
    funext k'
    simp [turns, hlog]
  have hdeeds : s'.deeds = s.deeds := by
    funext t
    simp [deeds, hlog]
  have hold : ∀ t, t < s.next → s'.points.get? t = s.points.get? t := by
    intro t hlt
    have hne : s.next ≠ t := Nat.ne_of_gt hlt
    simp [hpoints, hne]
  refine ⟨ho, fun t k' hmem => ?_, fun k' => hturns ▸ h.once k', fun t k' hin => ?_,
    fun t hne => ?_, fun t hmem => ?_⟩
  · rw [hturns] at hmem
    obtain ⟨hlt, hpoint⟩ := h.turn t k' hmem
    rw [hold t hlt, hnext]
    exact ⟨Nat.lt_succ_of_lt hlt, hpoint⟩
  · rw [hturns]
    refine h.last t k' ?_
    rw [Inside, hpoints, Assoc.get?_insert] at hin
    split at hin
    · cases hin
    · exact hin
  · rw [hturns]
    exact h.deed t (hdeeds ▸ hne)
  · rw [hlog] at hmem
    obtain ⟨hnone, hlt, hrest⟩ := h.gaveUp t hmem
    rw [hold t hlt, hnext, hturns]
    exact ⟨hnone, Nat.lt_succ_of_lt hlt, hrest⟩

theorem enter (h : s.Recorded) (ho : s'.Ordered) (hold : s.points.get? t = some (.waiting k))
    (howner : s.store.locks.owner? k = some t)
    (hpoints : s'.points = s.points.insert t (.inside k)) (hnext : s'.next = s.next)
    (hlog : s'.log = s.log ++ [.granted t k]) : s'.Recorded := by
  have hnot := h.not_mem_turns hold
  have hlt := h.ordered.lt hold
  have hturns : ∀ k', s'.turns k' = s.turns k' ++ if k = k' then [t] else [] := by
    intro k'
    refine (view_of_concat hlog).trans ?_
    by_cases hk : k = k' <;> simp [SessionEvent.turn?, turns, hk]
  have hdeeds : s'.deeds = s.deeds :=
    funext fun _ => (view_of_concat hlog).trans (List.append_nil _)
  refine ⟨ho, fun t' k' hmem => ?_, fun k' => ?_, fun t' k' hin => ?_, fun t' hne => ?_,
    fun t' hmem => ?_⟩
  · rw [hturns, List.mem_append] at hmem
    rw [hnext, hpoints, Assoc.get?_insert]
    rcases hmem with hbefore | hnow
    · have hne : t ≠ t' := fun heq => hnot k' (heq ▸ hbefore)
      rw [if_neg hne]
      exact h.turn t' k' hbefore
    · split at hnow
      · obtain rfl := List.mem_singleton.mp hnow
        subst_vars
        rw [if_pos rfl]
        exact ⟨hlt, fun p hp => (Option.some.inj hp).symm⟩
      · cases hnow
  · rw [hturns]
    split
    · exact List.nodup_append.mpr ⟨h.once k', by simp, by
        rintro t' ht' _ hmem rfl
        exact hnot k' (List.mem_singleton.mp hmem ▸ ht')⟩
    · simpa using h.once k'
  · rw [Inside, hpoints, Assoc.get?_insert] at hin
    rw [hturns]
    split at hin
    · cases hin
      subst_vars
      simp
    · -- the lock of `k` is the one that `t` got, so who is inside is inside another section
      rename_i hne
      have hk : k ≠ k' := by
        rintro rfl
        exact hne (Option.some.inj (howner.symm.trans (h.ordered.owner t' k hin)))
      simpa [hk] using h.last t' k' hin
  · obtain ⟨k', hmem⟩ := h.deed t' (hdeeds ▸ hne)
    exact ⟨k', by rw [hturns]; exact List.mem_append_left _ hmem⟩
  · have hbefore : .gaveUp t' ∈ s.log := by simpa [hlog] using hmem
    obtain ⟨hnone, hlt', hrest⟩ := h.gaveUp t' hbefore
    have hne : t ≠ t' := by
      rintro rfl
      rw [hold] at hnone
      cases hnone
    refine ⟨by simp [hpoints, hne, hnone], hnext ▸ hlt', fun k' hmem' => ?_⟩
    rw [hturns, List.mem_append] at hmem'
    rcases hmem' with hmem' | hmem'
    · exact hrest k' hmem'
    · split at hmem'
      · exact hne (List.mem_singleton.mp hmem').symm
      · cases hmem'

theorem perform (h : s.Recorded) (ho : s'.Ordered) (hin : s.Inside t k)
    (hpoints : s'.points = s.points) (hnext : s'.next = s.next) {op : CaseOp}
    {answer : CaseAnswer} (hlog : s'.log = s.log ++ [.performed t op answer]) : s'.Recorded := by
  have hturns : s'.turns = s.turns :=
    funext fun _ => (view_of_concat hlog).trans (List.append_nil _)
  refine ⟨ho, fun t' k' hmem => ?_, fun k' => hturns ▸ h.once k', fun t' k' hin' => ?_,
    fun t' hne => ?_, fun t' hmem => ?_⟩
  · rw [hpoints, hnext]
    exact h.turn t' k' (hturns ▸ hmem)
  · rw [Inside, hpoints] at hin'
    rw [hturns]
    exact h.last t' k' hin'
  · rw [hturns]
    by_cases ht : t' = t
    · subst ht
      exact ⟨k, List.mem_of_getLast? (h.last t' k hin)⟩
    · have hdeeds : s'.deeds t' = s.deeds t' := by
        refine (view_of_concat hlog).trans ?_
        simp [SessionEvent.deed?, deeds, Ne.symm ht]
      exact h.deed t' (hdeeds ▸ hne)
  · rw [hpoints, hnext, hturns]
    exact h.gaveUp t' (by simpa [hlog] using hmem)

theorem quit (h : s.Recorded) (ho : s'.Ordered) (hpoints : s'.points = s.points.erase t)
    (hnext : s'.next = s.next)
    (hlog : s'.log = s.log ∨
      s'.log = s.log ++ [.gaveUp t] ∧ ∃ k, s.points.get? t = some (.waiting k)) :
    s'.Recorded := by
  have hturns : s'.turns = s.turns := by
    funext k'
    rcases hlog with hlog | ⟨hlog, -⟩
    · simp [turns, hlog]
    · exact (view_of_concat hlog).trans (List.append_nil _)
  have hdeeds : s'.deeds = s.deeds := by
    funext t'
    rcases hlog with hlog | ⟨hlog, -⟩
    · simp [deeds, hlog]
    · exact (view_of_concat hlog).trans (List.append_nil _)
  have hbefore : ∀ {t' p}, s'.points.get? t' = some p → s.points.get? t' = some p := by
    intro t' p hp
    rw [hpoints, Assoc.get?_erase] at hp
    split at hp
    · cases hp
    · exact hp
  refine ⟨ho, fun t' k' hmem => ?_, fun k' => hturns ▸ h.once k', fun t' k' hin' => ?_,
    fun t' hne => hturns ▸ h.deed t' (hdeeds ▸ hne), fun t' hmem => ?_⟩
  · obtain ⟨hlt, hpoint⟩ := h.turn t' k' (hturns ▸ hmem)
    exact ⟨hnext ▸ hlt, fun p hp => hpoint p (hbefore hp)⟩
  · rw [hturns]
    exact h.last t' k' (hbefore hin')
  · rw [hpoints, hnext, hturns]
    rcases hlog with hlog | ⟨hlog, k, hwait⟩
    · obtain ⟨hnone, hrest⟩ := h.gaveUp t' (hlog ▸ hmem)
      exact ⟨by simp [hnone], hrest⟩
    · rw [hlog, List.mem_append] at hmem
      rcases hmem with hmem | hmem
      · obtain ⟨hnone, hrest⟩ := h.gaveUp t' hmem
        exact ⟨by simp [hnone], hrest⟩
      · obtain rfl : t' = t := by simpa using hmem
        exact ⟨by simp, h.ordered.lt hwait, h.not_mem_turns hwait⟩

theorem step (h : s.Recorded) (hs : s.Step a s') : s'.Recorded := by
  have ho := h.ordered.step hs
  cases hs with
  | idle => exact h
  | ask k => exact h.ask ho rfl rfl rfl
  | enter t k hold howner => exact h.enter ho hold howner rfl rfl rfl
  | perform t k op hin => exact h.perform ho hin rfl rfl rfl
  | leave t k hin => exact h.quit ho rfl rfl (.inl rfl)
  | giveUp t k hold => exact h.quit ho rfl rfl (.inr ⟨rfl, k, hold⟩)

end Recorded

/-! ## One session after the other -/

/-- Serving the sessions of `k` one after the other, in the order of their turns, gives the answers
that they had, and leaves the case that `k` has. -/
structure Served (first : CaseStore) (s : Sessions) (k : CorrelationKey) : Prop where
  answers : (first.serve k ((s.turns k).map s.ops)).1 = (s.turns k).map s.answers
  left : (first.serve k ((s.turns k).map s.ops)).2.get? k = s.store.get? k

variable {first : CaseStore}

theorem ops_congr (h : s'.deeds t = s.deeds t) : s'.ops t = s.ops t := by
  unfold ops
  rw [h]

theorem answers_congr (h : s'.deeds t = s.deeds t) : s'.answers t = s.answers t := by
  unfold answers
  rw [h]

namespace Served

/-- What neither the turns of `k` do nor befalls its case leaves `k` served. -/
theorem congr (h : Served first s k) (hturns : s'.turns k = s.turns k)
    (hdeeds : ∀ t ∈ s.turns k, s'.deeds t = s.deeds t)
    (hcase : s'.store.get? k = s.store.get? k) : Served first s' k := by
  have hops : (s'.turns k).map s'.ops = (s.turns k).map s.ops := by
    rw [hturns]
    exact List.map_congr_left fun t hmem => ops_congr (hdeeds t hmem)
  have hanswers : (s'.turns k).map s'.answers = (s.turns k).map s.answers := by
    rw [hturns]
    exact List.map_congr_left fun t hmem => answers_congr (hdeeds t hmem)
  exact ⟨by rw [hops, hanswers]; exact h.answers, by rw [hops, hcase]; exact h.left⟩

/-- A session that enters has done nothing yet. -/
theorem enter (h : Served first s k) (hturns : s'.turns k = s.turns k ++ [t])
    (hdeeds : s'.deeds = s.deeds) (hidle : s.deeds t = [])
    (hcase : s'.store.get? k = s.store.get? k) : Served first s' k := by
  have hops : (s'.turns k).map s'.ops = (s.turns k).map s.ops ++ [[]] := by
    have hsame : s'.ops = s.ops := funext fun t => ops_congr (congrFun hdeeds t)
    simp [hturns, hsame, ops, hidle]
  have hanswers : (s'.turns k).map s'.answers = (s.turns k).map s.answers ++ [[]] := by
    have hsame : s'.answers = s.answers := funext fun t => answers_congr (congrFun hdeeds t)
    simp [hturns, hsame, Sessions.answers, hidle]
  refine ⟨?_, ?_⟩
  · rw [hops, hanswers, CaseStore.serve_concat, h.answers]
    rfl
  · rw [hops, CaseStore.serve_concat, hcase]
    exact h.left

/-- The session that is inside adds an operation to its own, and they are the last. -/
theorem perform (h : Served first s k) {before : List TaskId} (hturns : s.turns k = before ++ [t])
    (hnot : t ∉ before) {op : CaseOp}
    (hlog : s'.log = s.log ++ [.performed t op (s.store.perform k op).1])
    (hstore : s'.store = (s.store.perform k op).2) : Served first s' k := by
  have hsame : s'.turns k = s.turns k := (view_of_concat hlog).trans (List.append_nil _)
  have hothers : ∀ t' ∈ before, s'.deeds t' = s.deeds t' := by
    intro t' hmem
    have hne : t ≠ t' := fun heq => hnot (heq ▸ hmem)
    refine (view_of_concat hlog).trans ?_
    simp [SessionEvent.deed?, deeds, hne]
  have hown : s'.deeds t = s.deeds t ++ [(op, (s.store.perform k op).1)] := by
    refine (view_of_concat hlog).trans ?_
    simp [SessionEvent.deed?, deeds]
  have hops : (s'.turns k).map s'.ops = before.map s.ops ++ [s.ops t ++ [op]] := by
    rw [hsame, hturns, List.map_append]
    rw [List.map_congr_left fun t' hmem => ops_congr (hothers t' hmem)]
    simp [ops, hown]
  have hanswers : (s'.turns k).map s'.answers =
      before.map s.answers ++ [s.answers t ++ [(s.store.perform k op).1]] := by
    rw [hsame, hturns, List.map_append]
    rw [List.map_congr_left fun t' hmem => answers_congr (hothers t' hmem)]
    simp [Sessions.answers, hown]
  -- before the operation, the serial run stands at a store that agrees about `k`
  have hbefore := h.answers
  have hleft := h.left
  rw [hturns, List.map_append, List.map_singleton, CaseStore.serve_concat] at hbefore hleft
  rw [List.map_append, List.map_singleton] at hbefore
  obtain ⟨hearlier, hlast⟩ := List.append_inj' hbefore rfl
  obtain ⟨hanswer, hget⟩ := CaseStore.perform_congr hleft op
  refine ⟨?_, ?_⟩
  · rw [hops, hanswers, CaseStore.serve_concat, CaseStore.performAll_concat, hearlier]
    rw [List.cons.inj hlast |>.1, hanswer]
  · rw [hops, CaseStore.serve_concat, CaseStore.performAll_concat, hstore]
    exact hget

end Served

/-- What holds after every schedule. -/
structure Kept (first : CaseStore) (s : Sessions) : Prop where
  recorded : s.Recorded
  filed : s.store.Filed
  served : ∀ k, Served first s k

theorem kept_opened (ttl : Nat) : Kept { ttl } (opened ttl) where
  recorded :=
    { ordered := ⟨fun t _ => rfl, fun t k hin => by cases hin⟩
      turn := fun t k hmem => by cases hmem
      once := fun k => List.nodup_nil
      last := fun t k hin => by cases hin
      deed := fun t hne => absurd rfl hne
      gaveUp := fun t hmem => by cases hmem }
  filed := fun k c hget => by cases hget
  served := fun k => ⟨rfl, rfl⟩

theorem Kept.step (h : Kept first s) (hs : s.Step a s') : Kept first s' := by
  have hrecorded := h.recorded.step hs
  cases hs with
  | idle => exact h
  | ask k => exact ⟨hrecorded, h.filed, fun k' => (h.served k').congr rfl (fun _ _ => rfl) rfl⟩
  | leave t k => exact ⟨hrecorded, h.filed, fun k' => (h.served k').congr rfl (fun _ _ => rfl) rfl⟩
  | giveUp t k hold =>
      refine ⟨hrecorded, h.filed, fun k' => (h.served k').congr ?_ (fun t' _ => ?_) rfl⟩
      · simp [turns, SessionEvent.turn?]
      · simp [deeds, SessionEvent.deed?]
  | enter t k hold =>
      have hidle : s.deeds t = [] := h.recorded.deeds_eq_nil (h.recorded.not_mem_turns hold)
      refine ⟨hrecorded, h.filed, fun k' => ?_⟩
      by_cases hk : k = k'
      · subst hk
        refine (h.served k).enter ?_ (funext fun t' => ?_) hidle rfl
        · simp [turns, SessionEvent.turn?]
        · simp [deeds, SessionEvent.deed?]
      · refine (h.served k').congr ?_ (fun t' _ => ?_) rfl
        · simp [turns, SessionEvent.turn?, hk]
        · simp [deeds, SessionEvent.deed?]
  | perform t k op hin hop =>
      refine ⟨hrecorded, h.filed.perform hop, fun k' => ?_⟩
      by_cases hk : k' = k
      · subst hk
        obtain ⟨before, hturns, hnot⟩ := h.recorded.turns_eq hin
        exact (h.served k').perform hturns hnot rfl rfl
      · refine (h.served k').congr ?_ (fun t' hmem => ?_) (CaseStore.get?_perform_of_ne op hk)
        · simp [turns, SessionEvent.turn?]
        · have hne : t ≠ t' := by
            rintro rfl
            exact hk (h.recorded.eq_of_mem_turns hin hmem)
          simp [deeds, SessionEvent.deed?, hne]

theorem Kept.after (h : Kept first s) (as : List SessionAction) : Kept first (s.after as) := by
  induction as generalizing s with
  | nil => exact h
  | cons a as ih => exact ih (h.step (s.act_step a))

/-- Who is inside stays there, and the case of its key stays as it is, until it does something. -/
theorem Kept.keeps (h : Kept first s) (hin : s.Inside t k) (bs : List SessionAction)
    (hothers : ∀ b ∈ bs, b.task? ≠ some t) :
    (s.after bs).Inside t k ∧ (s.after bs).store.get? k = s.store.get? k := by
  induction bs generalizing s with
  | nil => exact ⟨hin, rfl⟩
  | cons b bs ih =>
      have hs := s.act_step b
      obtain ⟨hin', hcase⟩ := h.recorded.ordered.keeps hs hin (hothers b (by simp))
      obtain ⟨hin'', hcase'⟩ := ih (h.step hs) hin' fun b' hb' => hothers b' (by simp [hb'])
      exact ⟨hin'', hcase'.trans hcase⟩

/-- Let sessions on a new store be interleaved in any way.  For every key,

* while a session is inside, no other one comes in, and nothing that others do changes the case;
* the case is the one that is left when the sessions that got the lock are served one after the
  other in the order in which they got it, and then they get the same answers;
* every session gets the lock once at most, and one that was given up did nothing;
* the store has one case at most. -/
theorem sessions_serialize (ttl : Nat) (as : List SessionAction) (k : CorrelationKey) :
    let s := (opened ttl).after as
    let serial := ({ ttl } : CaseStore).serve k ((s.turns k).map s.ops)
    (∀ t, s.Inside t k →
      (∀ t', s.Inside t' k → t' = t) ∧
      ∀ bs : List SessionAction, (∀ b ∈ bs, b.task? ≠ some t) →
        (s.after bs).Inside t k ∧ (s.after bs).store.get? k = s.store.get? k) ∧
    serial.2.get? k = s.store.get? k ∧ serial.1 = (s.turns k).map s.answers ∧
    (s.turns k).Nodup ∧
    (∀ t, .gaveUp t ∈ s.log → t ∉ s.turns k ∧ s.ops t = []) ∧
    (s.store.cases.values.filter fun c => c.key = k).length ≤ 1 := by
  intro s serial
  have h : Kept { ttl } s := (kept_opened ttl).after as
  have howner := h.recorded.ordered.owner
  refine ⟨fun t hin => ⟨fun t' hin' => ?_, h.keeps hin⟩, (h.served k).left, (h.served k).answers,
    h.recorded.once k, fun t hmem => ?_, h.filed.length_le_one k⟩
  · exact Option.some.inj ((howner t' k hin').symm.trans (howner t k hin))
  · obtain ⟨-, -, hnone⟩ := h.recorded.gaveUp t hmem
    exact ⟨hnone k, by simp [ops, h.recorded.deeds_eq_nil hnone]⟩

/-- The second session gives up when it has just come to own the lock, and the third finds what the
first has left. -/
example :
    let c : Case := { key := ⟨"k"⟩, createdAt := 0 }
    let s := (opened 10).after
      [.ask ⟨"k"⟩, .ask ⟨"k"⟩, .ask ⟨"k"⟩, .enter 0, .enter 2, .perform 0 (.register c), .leave 0,
        .enter 2, .giveUp 1, .enter 2, .perform 2 .get]
    s.turns ⟨"k"⟩ = [0, 2] ∧ s.answers 2 = [.found (some c)] := by
  decide

end Sessions

end Rendezvous
