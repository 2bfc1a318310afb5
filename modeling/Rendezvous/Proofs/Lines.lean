import Rendezvous.KeyLocks.Slots
import Rendezvous.Views

/-!
# The lock of one key

What the calls for one key do to each other, whatever the order of their steps.

* `Line.Step`: everything that a step can amount to, one row for each kind;
* `Line.Counted`: the references are counted right, so a slot stays while anybody needs it;
* `Line.Queued`: the mutex is with the first of those who asked for it;
* `Line.Told`: guards are granted in the order of asking, less those who gave up.

Each is kept by every step; together they make `Line.Sound`.
-/

namespace Rendezvous

namespace Slot

variable {slot : Slot} {n m : Nat}

@[simp] theorem queue_unref (slot : Slot) : slot.unref.queue = slot.queue := rfl

/-- Whoever leaves the mutex leaves its queue, and the others stay in their order. -/
theorem queue_quit (slot : Slot) (n : Nat) : (slot.quit n).queue = slot.queue.erase n := by
  unfold quit
  cases ho : slot.owner? with
  | none => simp [queue, ho]
  | some m =>
      by_cases hm : m = n
      · subst hm
        cases hw : slot.waiting <;> simp [pass, queue, ho, hw]
      · have hne : (some m = some n) = False := by simp [hm]
        simp [queue, ho, hm]

@[simp] theorem refs_quit (slot : Slot) (n : Nat) : (slot.quit n).refs = slot.refs := by
  unfold quit
  split
  · cases hw : slot.waiting <;> simp [pass, hw]
  · rfl

theorem owner?_quit_of_ne (h : slot.owner? ≠ some n) : (slot.quit n).owner? = slot.owner? := by
  simp [quit, h]

/-- The first in the queue has the mutex, also after one has left. -/
theorem owner?_quit (h : slot.owner? = slot.queue.head?) :
    (slot.quit n).owner? = (slot.quit n).queue.head? := by
  unfold quit
  split
  · cases hw : slot.waiting <;> simp [pass, queue, hw]
  · cases ho : slot.owner? with
    | none =>
        have hwaiting : slot.waiting.head? = none := by simpa [queue, ho] using h.symm
        simp [queue, List.head?_eq_none_iff.mp hwaiting]
    | some m => simp [queue]

end Slot

namespace Line

/-- What a step of the call `n` can make of a line. -/
inductive Step (l : Line) (n : Nat) : Line → Prop
  /-- The step does not fit the state. -/
  | idle : Step l n l
  | begin (hnew : .began n ∉ l.log) :
      Step l n
        { slot? := some (l.slot?.getD {}).ref
          stage? := Function.update l.stage? n (some .asking)
          log := l.log ++ [.began n] }
  /-- The mutex is free. -/
  | take (slot : Slot) (hslot : l.slot? = some slot) (hstage : l.stage? n = some .asking)
      (hfree : slot.owner? = none) :
      Step l n
        { slot? := some { slot with owner? := some n }
          stage? := Function.update l.stage? n (some .holding)
          log := l.log ++ [.asked n, .granted n] }
  /-- The mutex is not free. -/
  | join (slot : Slot) (owner : Nat) (hslot : l.slot? = some slot)
      (hstage : l.stage? n = some .asking) (ho : slot.owner? = some owner) :
      Step l n
        { slot? := some { slot with waiting := slot.waiting ++ [n] }
          stage? := Function.update l.stage? n (some .queued)
          log := l.log ++ [.asked n] }
  /-- The call finds that it has been handed the mutex. -/
  | wake (slot : Slot) (hslot : l.slot? = some slot) (hstage : l.stage? n = some .queued)
      (ho : slot.owner? = some n) :
      Step l n
        { slot? := some slot
          stage? := Function.update l.stage? n (some .holding)
          log := l.log ++ [.granted n] }
  | giveUp (slot : Slot) (hslot : l.slot? = some slot) (hstage : l.stage? n = some .queued) :
      Step l n
        { slot? := some (slot.quit n)
          stage? := Function.update l.stage? n (some .leaving)
          log := l.log ++ [.gaveUp n] }
  | release (slot : Slot) (hslot : l.slot? = some slot) (hstage : l.stage? n = some .holding) :
      Step l n
        { slot? := some (slot.quit n)
          stage? := Function.update l.stage? n (some .leaving)
          log := l.log ++ [.released n] }
  | unref (slot : Slot) (hslot : l.slot? = some slot) (hstage : l.stage? n = some .leaving) :
      Step l n
        { slot? := some slot.unref
          stage? := Function.update l.stage? n (some .tidying)
          log := l.log ++ [] }
  | tidy (hstage : l.stage? n = some .tidying) :
      Step l n
        { l with
          slot? := l.slot?.filter fun slot => slot.refs ≠ 1
          stage? := Function.update l.stage? n none }

variable {l l' : Line} {n m : Nat}

/-- What a call does with its slot is one of the rows. -/
theorem step_onSlot {move : LockMove} {slot slot' : Slot} {stage stage' : LockStage}
    {evs : List LockEvent} (hslot : l.slot? = some slot) (hstage : l.stage? n = some stage)
    (h : move.onSlot n slot stage = some (slot', stage', evs)) :
    l.Step n
      { slot? := some slot'
        stage? := Function.update l.stage? n (some stage')
        log := l.log ++ evs } := by
  unfold LockMove.onSlot at h
  split at h
  · split at h
    · cases h
      exact .take slot hslot hstage ‹_›
    · cases h
      exact .join slot _ hslot hstage ‹_›
  · split at h
    · cases h
      exact .wake _ hslot hstage ‹_›
    · cases h
  · cases h
    exact .giveUp slot hslot hstage
  · cases h
    exact .release slot hslot hstage
  · cases h
    exact .unref slot hslot hstage
  · cases h

theorem step_touch (l : Line) (n : Nat) (move : LockMove) : l.Step n (l.touch n move) := by
  unfold touch
  split
  · split
    · exact step_onSlot ‹_› ‹_› ‹_›
    · exact .idle
  · exact .idle

theorem act_step (l : Line) (n : Nat) (move : LockMove) : l.Step n (l.act n move) := by
  cases move with
  | begin =>
      unfold act
      dsimp only
      split
      · exact .idle
      · exact .begin ‹_›
  | tidy =>
      unfold act
      dsimp only
      split
      · exact .tidy ‹_›
      · exact .idle
  | poll | drop | unref => exact l.step_touch n _

/-- The call `n` holds a reference. -/
def Refers (l : Line) (n : Nat) : Prop := ∃ stage, l.stage? n = some stage ∧ stage.refers

theorem refers_of_stage {stage : LockStage} (h : l.stage? n = some stage)
    (hrefers : stage.refers = true) : l.Refers n := ⟨stage, h, hrefers⟩

/-- A call that holds a reference before and after a step leaves all references where they are. -/
theorem refers_update {stage stage' : LockStage} (hold : l.stage? n = some stage)
    (hbefore : stage.refers) (hstage : l'.stage? = Function.update l.stage? n (some stage'))
    (hafter : stage'.refers) (m : Nat) : l'.Refers m ↔ l.Refers m := by
  unfold Refers
  rw [hstage]
  by_cases hm : m = n
  · subst hm
    simp [hold, hbefore, hafter]
  · simp [hm]

/-! ## References -/

/-- The references are counted right. -/
structure Counted (l : Line) : Prop where
  /-- A call has begun. -/
  began : ∀ n, (l.stage? n).isSome → .began n ∈ l.log
  /-- The table refers to the slot, and so does every call that says so, and nobody else. -/
  refs : ∀ slot, l.slot? = some slot →
    ∃ users : List Nat, users.Nodup ∧ (∀ n, n ∈ users ↔ l.Refers n) ∧
      slot.refs = users.length + 1
  /-- Whoever holds a reference holds it to the slot of the table. -/
  home : ∀ n, l.Refers n → l.slot?.isSome
  /-- There is no slot without a call. -/
  inUse : l.slot?.isSome → ∃ n, (l.stage? n).isSome

namespace Counted

theorem stage?_eq_none (h : l.Counted) (hnew : .began n ∉ l.log) : l.stage? n = none := by
  refine Option.not_isSome_iff_eq_none.mp fun hsome => hnew (h.began n hsome)

/-- Where references neither come nor go they stay counted. -/
theorem stay (h : l.Counted) {slot slot' : Slot} (hslot : l.slot? = some slot)
    (hslot' : l'.slot? = some slot') (hrefs : slot'.refs = slot.refs)
    (hrefers : ∀ n, l'.Refers n ↔ l.Refers n)
    (hstage : ∀ n, (l'.stage? n).isSome ↔ (l.stage? n).isSome)
    (hlog : ∀ ev ∈ l.log, ev ∈ l'.log) : l'.Counted where
  began n hsome := hlog _ (h.began n ((hstage n).mp hsome))
  refs slot'' heq := by
    obtain rfl : slot' = slot'' := Option.some.inj (hslot'.symm.trans heq)
    obtain ⟨users, hnodup, hmem, hlen⟩ := h.refs slot hslot
    exact ⟨users, hnodup, fun n => (hmem n).trans (hrefers n).symm, hrefs.trans hlen⟩
  home n _ := by simp [hslot']
  inUse _ := by
    obtain ⟨n, hn⟩ := h.inUse (by simp [hslot])
    exact ⟨n, (hstage n).mpr hn⟩

/-- A call that goes on with its reference leaves the references counted. -/
theorem goOn (h : l.Counted) {slot slot' : Slot} {stage stage' : LockStage}
    {evs : List LockEvent} (hslot : l.slot? = some slot) (hold : l.stage? n = some stage)
    (hbefore : stage.refers) (hafter : stage'.refers) (hslot' : l'.slot? = some slot')
    (hrefs : slot'.refs = slot.refs)
    (hstage : l'.stage? = Function.update l.stage? n (some stage'))
    (hlog : l'.log = l.log ++ evs) : l'.Counted := by
  refine h.stay hslot hslot' hrefs (refers_update hold hbefore hstage hafter) (fun m => ?_)
    fun ev hev => hlog ▸ List.mem_append_left _ hev
  rw [hstage]
  by_cases hm : m = n
  · subst hm
    simp [hold]
  · simp [hm]

theorem begin (h : l.Counted) (hnew : .began n ∉ l.log)
    (hslot' : l'.slot? = some (l.slot?.getD {}).ref)
    (hstage' : l'.stage? = Function.update l.stage? n (some .asking))
    (hlog : l'.log = l.log ++ [.began n]) : l'.Counted := by
  have hnone := h.stage?_eq_none hnew
  have hrefers : ∀ m, l'.Refers m ↔ m = n ∨ l.Refers m := by
    intro m
    unfold Refers
    rw [hstage']
    by_cases hm : m = n
    · subst hm
      simp [LockStage.refers]
    · simp [hm]
  have hnot : ¬ l.Refers n := by
    rintro ⟨stage, hstage, -⟩
    rw [hnone] at hstage
    cases hstage
  refine ⟨fun m hsome => ?_, fun slot' heq => ?_, fun m _ => by simp [hslot'],
    fun _ => ⟨n, by simp [hstage']⟩⟩
  · rw [hlog]
    by_cases hm : m = n
    · subst hm
      simp
    · exact List.mem_append_left _ (h.began m (by simpa [hstage', hm] using hsome))
  · obtain rfl := Option.some.inj (hslot'.symm.trans heq)
    cases hslot : l.slot? with
    | none =>
        -- the first call makes the slot
        refine ⟨[n], by simp, fun m => ?_, rfl⟩
        rw [hrefers m, List.mem_singleton, or_iff_left]
        intro hm
        have hsome := h.home m hm
        rw [hslot] at hsome
        cases hsome
    | some slot =>
        obtain ⟨users, hnodup, hmem, hlen⟩ := h.refs slot hslot
        refine ⟨n :: users, List.nodup_cons.mpr ⟨fun hn => hnot ((hmem n).mp hn), hnodup⟩,
          fun m => ?_, by simp [Slot.ref, hlen]⟩
        rw [hrefers m, List.mem_cons, hmem m]

theorem unref (h : l.Counted) {slot : Slot} (hslot : l.slot? = some slot)
    (hstage : l.stage? n = some .leaving) (hslot' : l'.slot? = some slot.unref)
    (hstage' : l'.stage? = Function.update l.stage? n (some .tidying))
    (hlog : l'.log = l.log) : l'.Counted := by
  have hrefers : ∀ m, l'.Refers m ↔ m ≠ n ∧ l.Refers m := by
    intro m
    unfold Refers
    rw [hstage']
    by_cases hm : m = n
    · subst hm
      simp [LockStage.refers]
    · simp [hm]
  refine ⟨fun m hsome => ?_, fun slot' heq => ?_, fun m _ => by simp [hslot'],
    fun _ => ⟨n, by simp [hstage']⟩⟩
  · rw [hlog]
    by_cases hm : m = n
    · subst hm
      exact h.began m (by simp [hstage])
    · exact h.began m (by simpa [hstage', hm] using hsome)
  · obtain rfl := Option.some.inj (hslot'.symm.trans heq)
    obtain ⟨users, hnodup, hmem, hlen⟩ := h.refs slot hslot
    have hn : n ∈ users := (hmem n).mpr (refers_of_stage hstage rfl)
    have hpos : 0 < users.length := List.length_pos_of_mem hn
    refine ⟨users.erase n, hnodup.erase n, fun m => ?_, ?_⟩
    · rw [hrefers m, hnodup.mem_erase_iff, hmem m]
    · simp only [Slot.unref, hlen, List.length_erase_of_mem hn]
      omega

/-- A slot that only the table refers to is in nobody's way. -/
theorem refs_ne_one (h : l.Counted) {slot : Slot} (hslot : l.slot? = some slot)
    (hm : l.Refers m) : slot.refs ≠ 1 := by
  obtain ⟨users, -, hmem, hlen⟩ := h.refs slot hslot
  have hpos : 0 < users.length := List.length_pos_of_mem ((hmem m).mpr hm)
  omega

/-- A slot that not only the table refers to belongs to a call. -/
theorem refers_of_refs_ne_one (h : l.Counted) {slot : Slot} (hslot : l.slot? = some slot)
    (hmany : slot.refs ≠ 1) : ∃ m, l.Refers m := by
  obtain ⟨users, -, hmem, hlen⟩ := h.refs slot hslot
  have hne : users ≠ [] := by
    rintro rfl
    exact hmany hlen
  obtain ⟨m, hm⟩ := List.exists_mem_of_ne_nil users hne
  exact ⟨m, (hmem m).mp hm⟩

theorem tidy (h : l.Counted) (hstage : l.stage? n = some .tidying)
    (hslot' : l'.slot? = l.slot?.filter fun slot => slot.refs ≠ 1)
    (hstage' : l'.stage? = Function.update l.stage? n none) (hlog : l'.log = l.log) :
    l'.Counted := by
  have hrefers : ∀ m, l'.Refers m ↔ l.Refers m := by
    intro m
    unfold Refers
    rw [hstage']
    by_cases hm : m = n
    · subst hm
      simp [hstage, LockStage.refers]
    · simp [hm]
  refine ⟨fun m hsome => ?_, fun slot heq => ?_, fun m hm => ?_, fun hsome => ?_⟩
  · rw [hlog]
    by_cases hm : m = n
    · subst hm
      exact h.began m (by simp [hstage])
    · exact h.began m (by simpa [hstage', hm] using hsome)
  · rw [hslot'] at heq
    obtain ⟨users, hnodup, hmem, hlen⟩ := h.refs slot (Option.filter_eq_some_iff.mp heq).1
    exact ⟨users, hnodup, fun m => (hmem m).trans (hrefers m).symm, hlen⟩
  · have hm := (hrefers m).mp hm
    obtain ⟨slot, hslot⟩ := Option.isSome_iff_exists.mp (h.home m hm)
    simp [hslot', hslot, Option.filter, h.refs_ne_one hslot hm]
  · rw [hslot'] at hsome
    obtain ⟨slot, heq⟩ := Option.isSome_iff_exists.mp hsome
    obtain ⟨hslot, hmany⟩ := Option.filter_eq_some_iff.mp heq
    obtain ⟨m, hm⟩ := h.refers_of_refs_ne_one hslot (by simpa using hmany)
    obtain ⟨stage, hstage'', -⟩ := (hrefers m).mpr hm
    exact ⟨m, by simp [hstage'']⟩

theorem step (h : l.Counted) (hs : l.Step n l') : l'.Counted := by
  cases hs with
  | idle => exact h
  | begin hnew => exact h.begin hnew rfl rfl rfl
  | take slot hslot hstage | join slot owner hslot hstage | wake slot hslot hstage =>
      exact h.goOn hslot hstage rfl rfl rfl rfl rfl rfl
  | giveUp slot hslot hstage | release slot hslot hstage =>
      exact h.goOn hslot hstage rfl rfl rfl (Slot.refs_quit slot n) rfl rfl
  | unref slot hslot hstage => exact h.unref hslot hstage rfl rfl (by simp)
  | tidy hstage => exact h.tidy hstage rfl rfl rfl

end Counted

/-! ## The queue of the mutex -/

theorem queue_of_slot {slot : Slot} (h : l.slot? = some slot) : l.queue = slot.queue := by
  simp [queue, h]

theorem owner?_of_slot {slot : Slot} (h : l.slot? = some slot) : l.owner? = slot.owner? := by
  simp [owner?, h]

/-- The queue of the mutex agrees with the stages of the calls. -/
structure Queued (l : Line) : Prop where
  /-- The mutex is with the first in the queue. -/
  head : l.owner? = l.queue.head?
  inLine : ∀ n, n ∈ l.queue ↔ l.stage? n = some .queued ∨ l.stage? n = some .holding
  once : l.queue.Nodup
  /-- Who has a guard has the mutex. -/
  holder : ∀ n, l.stage? n = some .holding → l.owner? = some n

namespace Queued

variable {stage? : Option LockStage}

/-- A call that neither joins the queue nor leaves it. -/
theorem stay (h : l.Queued) (howner : l'.owner? = l.owner?) (hqueue : l'.queue = l.queue)
    (hstage' : l'.stage? = Function.update l.stage? n stage?)
    (hin : stage? = some .queued ∨ stage? = some .holding ↔ n ∈ l.queue)
    (hholds : stage? = some .holding → l.owner? = some n) : l'.Queued where
  head := by rw [howner, hqueue, h.head]
  inLine m := by
    rw [hqueue, hstage']
    by_cases hm : m = n
    · subst hm
      simpa using hin.symm
    · simpa [hm] using h.inLine m
  once := hqueue ▸ h.once
  holder m hm := by
    rw [hstage'] at hm
    rw [howner]
    by_cases hne : m = n
    · subst hne
      exact hholds (by simpa using hm)
    · exact h.holder m (by simpa [hne] using hm)

/-- A call that joins the queue, and has the mutex if it is the first. -/
theorem join (h : l.Queued) (hnot : n ∉ l.queue) (howner : l'.owner? = l.owner?.or (some n))
    (hqueue : l'.queue = l.queue ++ [n])
    (hstage' : l'.stage? = Function.update l.stage? n stage?)
    (hin : stage? = some .queued ∨ stage? = some .holding)
    (hholds : stage? = some .holding → l.owner? = none) : l'.Queued where
  head := by
    rw [howner, hqueue, h.head]
    cases l.queue <;> simp
  inLine m := by
    rw [hqueue, hstage', List.mem_append, List.mem_singleton]
    by_cases hm : m = n
    · subst hm
      simpa using hin
    · simpa [hm] using h.inLine m
  once := by
    rw [hqueue]
    exact List.nodup_append.mpr ⟨h.once, by simp, by
      rintro m hm _ hn rfl
      exact hnot (List.mem_singleton.mp hn ▸ hm)⟩
  holder m hm := by
    rw [hstage'] at hm
    rw [howner]
    by_cases hne : m = n
    · subst hne
      simp [hholds (by simpa using hm)]
    · simp [h.holder m (by simpa [hne] using hm)]

/-- A call that leaves the queue. -/
theorem quit (h : l.Queued) {slot : Slot} (hslot : l.slot? = some slot)
    (hslot' : l'.slot? = some (slot.quit n))
    (hstage' : l'.stage? = Function.update l.stage? n (some .leaving)) : l'.Queued where
  head := by
    have hhead := h.head
    rw [owner?_of_slot hslot, queue_of_slot hslot] at hhead
    rw [owner?_of_slot hslot', queue_of_slot hslot']
    exact Slot.owner?_quit hhead
  inLine m := by
    rw [queue_of_slot hslot', Slot.queue_quit, ← queue_of_slot hslot, h.once.mem_erase_iff,
      hstage']
    by_cases hm : m = n
    · subst hm
      simp
    · simpa [hm] using h.inLine m
  once := by
    rw [queue_of_slot hslot', Slot.queue_quit, ← queue_of_slot hslot]
    exact h.once.erase n
  holder m hm := by
    have hne : m ≠ n := by
      rintro rfl
      simp [hstage'] at hm
    have ho := h.holder m (by simpa [hstage', hne] using hm)
    rw [owner?_of_slot hslot] at ho
    rw [owner?_of_slot hslot', Slot.owner?_quit_of_ne (by simp [ho, hne]), ho]

theorem not_mem (h : l.Queued) {stage : LockStage} (hstage : l.stage? n = some stage)
    (hout : stage ≠ .queued ∧ stage ≠ .holding) : n ∉ l.queue := by
  rw [h.inLine, hstage]
  simp [hout]

/-- A slot that is taken out of the table has nobody in its queue. -/
theorem filter_slot (h : l.Queued) (hc : l.Counted) {stage? : Nat → Option LockStage}
    {log : List LockEvent} :
    let l' : Line := { slot? := l.slot?.filter fun slot => slot.refs ≠ 1, stage?, log }
    l'.owner? = l.owner? ∧ l'.queue = l.queue := by
  intro l'
  cases hslot : l.slot? with
  | none => simp [l', owner?, queue, hslot]
  | some slot =>
      by_cases hone : slot.refs = 1
      · have hempty : l.queue = [] := by
          refine List.eq_nil_iff_forall_not_mem.mpr fun m hm => ?_
          have hrefers : l.Refers m := by
            rcases (h.inLine m).mp hm with hm | hm <;> exact refers_of_stage hm rfl
          exact hc.refs_ne_one hslot hrefers hone
        have hnobody : l.owner? = none := by rw [h.head, hempty, List.head?_nil]
        rw [hempty, hnobody]
        simp [l', owner?, queue, hslot, Option.filter, hone]
      · simp [l', owner?, queue, hslot, Option.filter, hone]

/-- Nobody stands in the queue of a free mutex. -/
theorem free (h : l.Queued) {slot : Slot} (hslot : l.slot? = some slot)
    (hfree : slot.owner? = none) : l.queue = [] ∧ slot.waiting = [] := by
  have hhead := h.head
  rw [owner?_of_slot hslot, hfree] at hhead
  have hempty : l.queue = [] := List.head?_eq_none_iff.mp hhead.symm
  refine ⟨hempty, ?_⟩
  rw [queue_of_slot hslot] at hempty
  simpa [Slot.queue, hfree] using hempty

theorem step (h : l.Queued) (hc : l.Counted) (hs : l.Step n l') : l'.Queued := by
  cases hs with
  | idle => exact h
  | begin hnew =>
      have hnone := hc.stage?_eq_none hnew
      have hnot : n ∉ l.queue := by simp [h.inLine, hnone]
      refine h.stay ?_ ?_ rfl (by simp [hnot]) (by simp) <;>
        cases hslot : l.slot? <;> simp [owner?, queue, hslot, Slot.ref, Slot.queue]
  | take slot hslot hstage hfree =>
      obtain ⟨hempty, hwaiting⟩ := h.free hslot hfree
      have howner : l.owner? = none := (owner?_of_slot hslot).trans hfree
      exact h.join (by simp [hempty]) (by simp [owner?, hslot, hfree])
        (by simp [queue, hslot, Slot.queue, hwaiting, hfree]) rfl (.inr rfl) fun _ => howner
  | join slot owner hslot hstage ho =>
      have hnot : n ∉ l.queue := h.not_mem hstage (by simp)
      exact h.join hnot (by simp [owner?, hslot, ho]) (by simp [queue, hslot, Slot.queue]) rfl
        (.inl rfl) (by simp)
  | wake slot hslot hstage ho =>
      have hin : n ∈ l.queue := (h.inLine n).mpr (.inl hstage)
      have howner : l.owner? = some n := (owner?_of_slot hslot).trans ho
      exact h.stay (by simp [owner?, hslot]) (by simp [queue, hslot]) rfl (by simp [hin])
        fun _ => howner
  | giveUp slot hslot | release slot hslot => exact h.quit hslot rfl rfl
  | unref slot hslot hstage =>
      have hnot : n ∉ l.queue := h.not_mem hstage (by simp)
      exact h.stay (by simp [owner?, hslot, Slot.unref]) (by simp [queue, hslot]) rfl
        (by simp [hnot]) (by simp)
  | tidy hstage =>
      have hnot : n ∉ l.queue := h.not_mem hstage (by simp)
      obtain ⟨howner, hqueue⟩ := h.filter_slot hc
      exact h.stay howner hqueue rfl (by simp [hnot]) (by simp)

end Queued

/-! ## The order of the guards -/

/-- What the log tells is true, and guards are granted in the order of asking. -/
structure Told (l : Line) : Prop where
  /-- Replaying who asked and who left gives the queue. -/
  queue : l.log.foldl LockEvent.requeue [] = l.queue
  /-- Who has got a guard and who waits for one, in this order, are those who asked and did not give
  up. -/
  order : l.granted ++ l.pending = l.asked.filter fun n => n ∉ l.gaveUp
  once : l.asked.Nodup
  /-- Nothing is told of a call that has not begun. -/
  named : ∀ ev ∈ l.log, .began ev.number ∈ l.log
  asking : ∀ n, l.stage? n = some .asking → n ∉ l.asked ∧ n ∉ l.granted ∧ n ∉ l.gaveUp
  queued : ∀ n, l.stage? n = some .queued → n ∉ l.granted ∧ n ∉ l.gaveUp

theorem mem_pending : n ∈ l.pending ↔ n ∈ l.queue ∧ l.stage? n = some .queued := by
  simp [pending]

/-- Who is not waiting for a guard any more, or never was, drops out. -/
theorem pending_update {stage? : Option LockStage} (honce : l.queue.Nodup)
    (hqueue : l'.queue = l.queue ∨ l'.queue = l.queue.erase n)
    (hstage' : l'.stage? = Function.update l.stage? n stage?) (hne : stage? ≠ some .queued) :
    l'.pending = l.pending.filter fun m => m ≠ n := by
  have hfilter : ∀ q : List Nat, (q.filter fun m => l'.stage? m = some .queued) =
      (q.filter fun m => l.stage? m = some .queued).filter fun m => m ≠ n := by
    intro q
    rw [List.filter_filter]
    refine List.filter_congr fun m _ => ?_
    rw [hstage']
    by_cases hm : m = n
    · subst hm
      simpa using hne
    · simp [hm]
  unfold pending
  rcases hqueue with hqueue | hqueue
  · rw [hqueue, hfilter]
  · rw [hqueue, hfilter, honce.erase_eq_filter, List.filter_filter, List.filter_filter,
      List.filter_filter]
    refine List.filter_congr fun m _ => ?_
    by_cases hm : m = n <;> simp [hm]

theorem pending_same {stage? : Option LockStage} (honce : l.queue.Nodup)
    (hqueue : l'.queue = l.queue ∨ l'.queue = l.queue.erase n)
    (hstage' : l'.stage? = Function.update l.stage? n stage?) (hne : stage? ≠ some .queued)
    (hbefore : l.stage? n ≠ some .queued) : l'.pending = l.pending := by
  rw [pending_update honce hqueue hstage' hne]
  refine List.filter_eq_self.mpr fun m hm => ?_
  have hstage := (mem_pending.mp hm).2
  have hmn : m ≠ n := by
    rintro rfl
    exact hbefore hstage
  simpa using hmn

namespace Told

/-- Nothing has been told of a call that begins. -/
theorem unknown (h : l.Told) (hnew : .began n ∉ l.log) :
    n ∉ l.asked ∧ n ∉ l.granted ∧ n ∉ l.gaveUp := by
  refine ⟨fun hmem => ?_, fun hmem => ?_, fun hmem => ?_⟩ <;>
    obtain ⟨ev, hev, hn⟩ := List.mem_filterMap.mp hmem <;>
    refine hnew ?_ <;>
    cases ev <;> cases hn <;> exact h.named _ hev

/-- A step of the call `n` tells about `n` alone. -/
theorem next (h : l.Told) {evs : List LockEvent} {stage? : Option LockStage}
    (hlog : l'.log = l.log ++ evs) (hown : ∀ ev ∈ evs, ev.number = n)
    (hbegan : .began n ∈ l'.log) (hstage' : l'.stage? = Function.update l.stage? n stage?)
    (hqueue : evs.foldl LockEvent.requeue l.queue = l'.queue)
    (horder : l'.granted ++ l'.pending = l'.asked.filter fun n => n ∉ l'.gaveUp)
    (honce : l'.asked.Nodup)
    (hasking : stage? = some .asking → n ∉ l'.asked ∧ n ∉ l'.granted ∧ n ∉ l'.gaveUp)
    (hqueued : stage? = some .queued → n ∉ l'.granted ∧ n ∉ l'.gaveUp) : l'.Told := by
  have hothers : ∀ {f : LockEvent → Option Nat}, (∀ ev m, f ev = some m → m = ev.number) →
      ∀ m, m ≠ n → m ∉ l.log.filterMap f → m ∉ l'.log.filterMap f := by
    intro f hf m hm hnot hmem
    rw [hlog, List.filterMap_append, List.mem_append] at hmem
    refine hmem.elim hnot fun hnew => ?_
    obtain ⟨ev, hev, heq⟩ := List.mem_filterMap.mp hnew
    exact hm ((hf ev m heq).trans (hown ev hev))
  have hasked : ∀ m, m ≠ n → m ∉ l.asked → m ∉ l'.asked := by
    refine hothers fun ev m heq => ?_
    cases ev <;> cases heq
    rfl
  have hgranted : ∀ m, m ≠ n → m ∉ l.granted → m ∉ l'.granted := by
    refine hothers fun ev m heq => ?_
    cases ev <;> cases heq
    rfl
  have hgaveUp : ∀ m, m ≠ n → m ∉ l.gaveUp → m ∉ l'.gaveUp := by
    refine hothers fun ev m heq => ?_
    cases ev <;> cases heq
    rfl
  refine ⟨?_, horder, honce, fun ev hev => ?_, fun m hm => ?_, fun m hm => ?_⟩
  · rw [hlog, List.foldl_append, h.queue, hqueue]
  · rw [hlog] at hev
    rcases List.mem_append.mp hev with hold | hnew
    · rw [hlog]
      exact List.mem_append_left _ (h.named ev hold)
    · rw [hown ev hnew]
      exact hbegan
  · by_cases hmn : m = n
    · subst hmn
      exact hasking (by simpa [hstage'] using hm)
    · obtain ⟨ha, hg, hu⟩ := h.asking m (by simpa [hstage', hmn] using hm)
      exact ⟨hasked m hmn ha, hgranted m hmn hg, hgaveUp m hmn hu⟩
  · by_cases hmn : m = n
    · subst hmn
      exact hqueued (by simpa [hstage'] using hm)
    · obtain ⟨hg, hu⟩ := h.queued m (by simpa [hstage', hmn] using hm)
      exact ⟨hgranted m hmn hg, hgaveUp m hmn hu⟩

/-- A call that asks comes last among those who asked. -/
theorem filter_asked (h : l.Told) (hstage : l.stage? n = some .asking) :
    ((l.asked ++ [n]).filter fun m => m ∉ l.gaveUp) = l.granted ++ l.pending ++ [n] := by
  rw [List.filter_append, h.order]
  simp [(h.asking n hstage).2.2]

/-- A call that gives up leaves the order of the others. -/
theorem filter_gaveUp (h : l.Told) (hstage : l.stage? n = some .queued) :
    (l.asked.filter fun m => m ∉ l.gaveUp ++ [n]) =
      l.granted ++ l.pending.filter fun m => m ≠ n := by
  have hgranted : (l.granted.filter fun m => m ≠ n) = l.granted := by
    refine List.filter_eq_self.mpr fun m hm => ?_
    have hne : m ≠ n := by
      rintro rfl
      exact (h.queued m hstage).1 hm
    simpa using hne
  calc (l.asked.filter fun m => m ∉ l.gaveUp ++ [n])
      = (l.asked.filter fun m => m ∉ l.gaveUp).filter fun m => m ≠ n := by
        rw [List.filter_filter]
        refine List.filter_congr fun m _ => ?_
        by_cases hm : m = n <;> simp [hm]
    _ = (l.granted ++ l.pending).filter fun m => m ≠ n := by rw [h.order]
    _ = l.granted ++ l.pending.filter fun m => m ≠ n := by rw [List.filter_append, hgranted]

/-- The first in the queue is the first who waits for a guard, unless it has one. -/
theorem pending_of_owner (hq : l.Queued) (ho : l.owner? = some n)
    (hstage : l.stage? n = some .queued) :
    l.pending = n :: l.pending.filter fun m => m ≠ n := by
  obtain ⟨rest, hrest⟩ : ∃ rest, l.queue = n :: rest := by
    have hhead := hq.head
    rw [ho] at hhead
    exact List.head?_eq_some_iff.mp hhead.symm
  have honce := hq.once
  rw [hrest, List.nodup_cons] at honce
  have hpending : l.pending = n :: rest.filter fun m => l.stage? m = some .queued := by
    simp [pending, hrest, hstage]
  have hothers : ∀ m ∈ rest.filter (fun m => l.stage? m = some .queued), m ≠ n := by
    rintro m hm rfl
    exact honce.1 (List.mem_filter.mp hm).1
  have hkeep : ((rest.filter fun m => l.stage? m = some .queued).filter fun m => m ≠ n) =
      rest.filter fun m => l.stage? m = some .queued :=
    List.filter_eq_self.mpr fun m hm => by simpa using hothers m hm
  rw [hpending, List.filter_cons, if_neg (by simp), hkeep]

theorem begin (h : l.Told) (hq : l.Queued) (hc : l.Counted) (hnew : .began n ∉ l.log)
    (hqueue : l'.queue = l.queue) (hstage' : l'.stage? = Function.update l.stage? n (some .asking))
    (hlog : l'.log = l.log ++ [.began n]) : l'.Told := by
  have hasked : l'.asked = l.asked ++ [] := view_of_append hlog
  have hgranted : l'.granted = l.granted ++ [] := view_of_append hlog
  have hgaveUp : l'.gaveUp = l.gaveUp ++ [] := view_of_append hlog
  have hpending : l'.pending = l.pending :=
    pending_same hq.once (.inl hqueue) hstage' (by simp) (by simp [hc.stage?_eq_none hnew])
  rw [List.append_nil] at hasked hgranted hgaveUp
  refine h.next hlog (by simp [LockEvent.number]) (by simp [hlog]) hstage' hqueue.symm ?_ ?_ ?_
    (by simp)
  · rw [hasked, hgranted, hgaveUp, hpending]
    exact h.order
  · rw [hasked]
    exact h.once
  · rw [hasked, hgranted, hgaveUp]
    exact fun _ => h.unknown hnew

theorem take (h : l.Told) (hbegan : .began n ∈ l.log) (hstage : l.stage? n = some .asking)
    (hempty : l.queue = []) (hqueue : l'.queue = [n])
    (hstage' : l'.stage? = Function.update l.stage? n (some .holding))
    (hlog : l'.log = l.log ++ [.asked n, .granted n]) : l'.Told := by
  have hasked : l'.asked = l.asked ++ [n] := view_of_append hlog
  have hgranted : l'.granted = l.granted ++ [n] := view_of_append hlog
  have hgaveUp : l'.gaveUp = l.gaveUp ++ [] := view_of_append hlog
  have hnobody : l.pending = [] := by simp [pending, hempty]
  have hpending : l'.pending = [] := by simp [pending, hqueue, hstage']
  rw [List.append_nil] at hgaveUp
  refine h.next hlog (by simp [LockEvent.number]) (by simp [hlog, hbegan]) hstage' ?_ ?_ ?_
    (by simp) (by simp)
  · rw [hempty, hqueue]
    rfl
  · rw [hasked, hgranted, hgaveUp, hpending, h.filter_asked hstage, hnobody, List.append_nil,
      List.append_nil]
  · rw [hasked]
    exact List.nodup_append.mpr ⟨h.once, by simp, by
      rintro m hm _ hn rfl
      exact (h.asking n hstage).1 (List.mem_singleton.mp hn ▸ hm)⟩

theorem join (h : l.Told) (hq : l.Queued) (hbegan : .began n ∈ l.log)
    (hstage : l.stage? n = some .asking) (hqueue : l'.queue = l.queue ++ [n])
    (hstage' : l'.stage? = Function.update l.stage? n (some .queued))
    (hlog : l'.log = l.log ++ [.asked n]) : l'.Told := by
  have hasked : l'.asked = l.asked ++ [n] := view_of_append hlog
  have hgranted : l'.granted = l.granted ++ [] := view_of_append hlog
  have hgaveUp : l'.gaveUp = l.gaveUp ++ [] := view_of_append hlog
  have hpending : l'.pending = l.pending ++ [n] := by
    have hsame : (l.queue.filter fun m => l'.stage? m = some .queued) = l.pending := by
      refine List.filter_congr fun m hm => ?_
      have hne : m ≠ n := by
        rintro rfl
        exact hq.not_mem hstage (by simp) hm
      rw [hstage', Function.update_of_ne hne]
    rw [← hsame, pending, hqueue, List.filter_append]
    simp [hstage']
  rw [List.append_nil] at hgranted hgaveUp
  obtain ⟨hfresh, hnever⟩ := h.asking n hstage
  refine h.next hlog (by simp [LockEvent.number]) (by simp [hlog, hbegan]) hstage' hqueue.symm ?_
    ?_ (by simp) ?_
  · rw [hasked, hgranted, hgaveUp, hpending, h.filter_asked hstage, List.append_assoc]
  · rw [hasked]
    exact List.nodup_append.mpr ⟨h.once, by simp, by
      rintro m hm _ hn rfl
      exact hfresh (List.mem_singleton.mp hn ▸ hm)⟩
  · rw [hgranted, hgaveUp]
    exact fun _ => hnever

theorem wake (h : l.Told) (hq : l.Queued) (hbegan : .began n ∈ l.log)
    (hstage : l.stage? n = some .queued) (ho : l.owner? = some n) (hqueue : l'.queue = l.queue)
    (hstage' : l'.stage? = Function.update l.stage? n (some .holding))
    (hlog : l'.log = l.log ++ [.granted n]) : l'.Told := by
  have hasked : l'.asked = l.asked ++ [] := view_of_append hlog
  have hgranted : l'.granted = l.granted ++ [n] := view_of_append hlog
  have hgaveUp : l'.gaveUp = l.gaveUp ++ [] := view_of_append hlog
  have hpending := pending_update hq.once (.inl hqueue) hstage' (by simp)
  rw [List.append_nil] at hasked hgaveUp
  refine h.next hlog (by simp [LockEvent.number]) (by simp [hlog, hbegan]) hstage' hqueue.symm ?_
    ?_ (by simp) (by simp)
  · rw [hasked, hgranted, hgaveUp, hpending, ← h.order, pending_of_owner hq ho hstage]
    simp
  · rw [hasked]
    exact h.once

theorem giveUp (h : l.Told) (hq : l.Queued) (hbegan : .began n ∈ l.log)
    (hstage : l.stage? n = some .queued) (hqueue : l'.queue = l.queue.erase n)
    (hstage' : l'.stage? = Function.update l.stage? n (some .leaving))
    (hlog : l'.log = l.log ++ [.gaveUp n]) : l'.Told := by
  have hasked : l'.asked = l.asked ++ [] := view_of_append hlog
  have hgranted : l'.granted = l.granted ++ [] := view_of_append hlog
  have hgaveUp : l'.gaveUp = l.gaveUp ++ [n] := view_of_append hlog
  have hpending := pending_update hq.once (.inr hqueue) hstage' (by simp)
  rw [List.append_nil] at hasked hgranted
  refine h.next hlog (by simp [LockEvent.number]) (by simp [hlog, hbegan]) hstage' hqueue.symm ?_
    ?_ (by simp) (by simp)
  · rw [hasked, hgranted, hgaveUp, hpending, h.filter_gaveUp hstage]
  · rw [hasked]
    exact h.once

/-- A call that has had its guard, or has only to look after the slot, changes nothing in the
order. -/
theorem settle (h : l.Told) (hq : l.Queued) (hbegan : .began n ∈ l.log) {evs : List LockEvent}
    {stage? : Option LockStage} (hbefore : l.stage? n ≠ some .queued)
    (hafter : stage? ≠ some .asking ∧ stage? ≠ some .queued)
    (hevs : evs = [] ∨ evs = [.released n])
    (hqueue : l'.queue = evs.foldl LockEvent.requeue l.queue)
    (hstage' : l'.stage? = Function.update l.stage? n stage?) (hlog : l'.log = l.log ++ evs) :
    l'.Told := by
  have hsilent : ∀ {view : LockEvent → Option Nat}, view (.released n) = none →
      l'.log.filterMap view = l.log.filterMap view := by
    intro view hview
    rw [view_of_append hlog]
    rcases hevs with rfl | rfl <;> simp [hview]
  have hasked : l'.asked = l.asked := hsilent rfl
  have hgranted : l'.granted = l.granted := hsilent rfl
  have hgaveUp : l'.gaveUp = l.gaveUp := hsilent rfl
  have hpending : l'.pending = l.pending := by
    refine pending_same hq.once ?_ hstage' hafter.2 hbefore
    rcases hevs with rfl | rfl
    · exact .inl hqueue
    · exact .inr hqueue
  have hown : ∀ ev ∈ evs, ev.number = n := by
    rcases hevs with rfl | rfl <;> simp [LockEvent.number]
  refine h.next hlog hown (by simp [hlog, hbegan]) hstage' hqueue.symm ?_ ?_
    (fun heq => absurd heq hafter.1) fun heq => absurd heq hafter.2
  · rw [hasked, hgranted, hgaveUp, hpending]
    exact h.order
  · rw [hasked]
    exact h.once

theorem step (h : l.Told) (hq : l.Queued) (hc : l.Counted) (hs : l.Step n l') : l'.Told := by
  have hbegan : ∀ {stage}, l.stage? n = some stage → .began n ∈ l.log := fun hstage =>
    hc.began n (by simp [hstage])
  cases hs with
  | idle => exact h
  | begin hnew =>
      refine h.begin hq hc hnew ?_ rfl rfl
      cases hslot : l.slot? <;> simp [Line.queue, hslot, Slot.ref, Slot.queue]
  | take slot hslot hstage hfree =>
      obtain ⟨hempty, hwaiting⟩ := hq.free hslot hfree
      exact h.take (hbegan hstage) hstage hempty (by simp [Line.queue, Slot.queue, hwaiting]) rfl
        rfl
  | join slot owner hslot hstage ho =>
      exact h.join hq (hbegan hstage) hstage (by simp [Line.queue, hslot, Slot.queue]) rfl rfl
  | wake slot hslot hstage ho =>
      have howner : l.owner? = some n := (owner?_of_slot hslot).trans ho
      exact h.wake hq (hbegan hstage) hstage howner (by simp [Line.queue, hslot]) rfl rfl
  | giveUp slot hslot hstage =>
      refine h.giveUp hq (hbegan hstage) hstage ?_ rfl rfl
      rw [queue_of_slot hslot, ← Slot.queue_quit]
      rfl
  | release slot hslot hstage =>
      refine h.settle hq (hbegan hstage) (by simp [hstage]) (by simp) (.inr rfl) ?_ rfl rfl
      have hqueue := Slot.queue_quit slot n
      rw [← queue_of_slot hslot] at hqueue
      exact hqueue
  | unref slot hslot hstage =>
      exact h.settle hq (hbegan hstage) (by simp [hstage]) (by simp) (.inl rfl)
        (by simp [Line.queue, hslot]) rfl rfl
  | tidy hstage =>
      refine h.settle hq (hbegan hstage) (by simp [hstage]) (by simp) (.inl rfl) ?_ rfl
        (List.append_nil _).symm
      exact (hq.filter_slot hc).2

end Told

/-- What holds of the line of a key, whatever its calls do. -/
structure Sound (l : Line) : Prop where
  counted : l.Counted
  queued : l.Queued
  told : l.Told

theorem sound_empty : Sound {} where
  counted :=
    { began := fun n hsome => by cases hsome
      refs := fun slot hslot => by cases hslot
      home := fun n ⟨stage, hstage, _⟩ => by cases hstage
      inUse := fun hsome => by cases hsome }
  queued := ⟨rfl, by simp [queue], List.nodup_nil, fun n hstage => by cases hstage⟩
  told :=
    { queue := rfl
      order := rfl
      once := List.nodup_nil
      named := fun ev hev => by cases hev
      asking := fun n hstage => by cases hstage
      queued := fun n hstage => by cases hstage }

theorem Sound.step (h : l.Sound) (hs : l.Step n l') : l'.Sound :=
  ⟨h.counted.step hs, h.queued.step h.counted hs, h.told.step h.queued h.counted hs⟩

theorem Sound.act (h : l.Sound) (n : Nat) (move : LockMove) : (l.act n move).Sound :=
  h.step (l.act_step n move)

/-! ## Uses at one go -/

/-- Every call has done what it can do by itself, and the calls have asked for the mutex in the
order in which they began. -/
structure Calm (l : Line) : Prop where
  quiet : ∀ n stage, l.stage? n = some stage → stage = .queued ∨ stage = .holding
  order : l.asked = l.began

theorem calm_empty : Calm {} where
  quiet := fun n stage hstage => by cases hstage
  order := rfl

theorem touch_of_stage {stage : LockStage} {slot : Slot} (hstage : l.stage? n = some stage)
    (hslot : l.slot? = some slot) (move : LockMove) :
    l.touch n move =
      match move.onSlot n slot stage with
      | some (slot, stage, evs) =>
          { slot? := some slot
            stage? := Function.update l.stage? n (some stage)
            log := l.log ++ evs }
      | none => l := by
  cases hmove : move.onSlot n slot stage with
  | none => simp only [touch, hstage, hslot, hmove]
  | some out => simp only [touch, hstage, hslot, hmove]

theorem touch_of_none (hstage : l.stage? n = none) (move : LockMove) : l.touch n move = l := by
  simp [touch, hstage]

namespace Calm

/-- A use that leaves its call in the queue, inside or away. -/
theorem update (hc : l.Calm) (n : Nat) {evs : List LockEvent}
    (hothers : ∀ m, m ≠ n → l'.stage? m = l.stage? m)
    (hown : ∀ stage, l'.stage? n = some stage → stage = .queued ∨ stage = .holding)
    (hlog : l'.log = l.log ++ evs)
    (hsame : evs.filterMap LockEvent.asked? = evs.filterMap LockEvent.began?) : l'.Calm where
  quiet m stage hm := by
    by_cases hmn : m = n
    · subst hmn
      exact hown stage hm
    · exact hc.quiet m stage ((hothers m hmn).symm.trans hm)
  order := by
    have hasked : l'.asked = l.asked ++ evs.filterMap LockEvent.asked? := view_of_append hlog
    have hbegan : l'.began = l.began ++ evs.filterMap LockEvent.began? := view_of_append hlog
    rw [hasked, hbegan, hc.order, hsame]

theorem exists_slot (hc : l.Calm) (h : l.Sound) {stage : LockStage}
    (hstage : l.stage? n = some stage) : ∃ slot, l.slot? = some slot := by
  refine Option.isSome_iff_exists.mp (h.counted.home n (refers_of_stage hstage ?_))
  rcases hc.quiet n stage hstage with rfl | rfl <;> rfl

theorem poll (hc : l.Calm) (h : l.Sound) (n : Nat) : (l.touch n .poll).Calm := by
  cases hstage : l.stage? n with
  | none =>
      rw [touch_of_none hstage]
      exact hc
  | some stage =>
      obtain ⟨slot, hslot⟩ := hc.exists_slot h hstage
      rw [touch_of_stage hstage hslot]
      rcases hc.quiet n stage hstage with rfl | rfl
      · by_cases ho : slot.owner? = some n
        · simp only [LockMove.onSlot, ho, if_true]
          exact hc.update n (fun m hm => by simp [hm]) (by simp) rfl rfl
        · simp only [LockMove.onSlot, ho, if_false]
          exact hc
      · exact hc

/-- A call that begins asks for the mutex at once. -/
theorem acquire (hc : l.Calm) (h : l.Sound) (n : Nat) : ((l.act n .begin).touch n .poll).Calm := by
  by_cases hnew : .began n ∈ l.log
  · have hact : l.act n .begin = l := by simp [act, hnew]
    rw [hact]
    exact hc.poll h n
  · simp only [act, hnew, if_false]
    rw [touch_of_stage (Function.update_self ..) rfl]
    cases ho : (l.slot?.getD {}).ref.owner? with
    | none =>
        simp only [LockMove.onSlot, ho]
        exact hc.update n (fun m hm => by simp [hm]) (by simp) (List.append_assoc ..) rfl
    | some owner =>
        simp only [LockMove.onSlot, ho]
        exact hc.update n (fun m hm => by simp [hm]) (by simp) (List.append_assoc ..) rfl

/-- A call that is dropped goes through all of its last steps. -/
theorem letGo (hc : l.Calm) (h : l.Sound) (n : Nat) :
    (((l.touch n .drop).touch n .unref).act n .tidy).Calm := by
  cases hstage : l.stage? n with
  | none =>
      rw [touch_of_none hstage, touch_of_none hstage]
      have hact : l.act n .tidy = l := by simp [act, hstage]
      rw [hact]
      exact hc
  | some stage =>
      obtain ⟨slot, hslot⟩ := hc.exists_slot h hstage
      rw [touch_of_stage hstage hslot]
      rcases hc.quiet n stage hstage with rfl | rfl
      · simp only [LockMove.onSlot]
        rw [touch_of_stage (Function.update_self ..) rfl]
        simp only [LockMove.onSlot, act, Function.update_self, if_true]
        exact hc.update n (fun m hm => by simp [hm]) (by simp) (List.append_assoc ..) rfl
      · simp only [LockMove.onSlot]
        rw [touch_of_stage (Function.update_self ..) rfl]
        simp only [LockMove.onSlot, act, Function.update_self, if_true]
        exact hc.update n (fun m hm => by simp [hm]) (by simp) (List.append_assoc ..) rfl

theorem use (hc : l.Calm) (h : l.Sound) (n : Nat) (u : LockUse) :
    (l.after (u.moves.map (n, ·))).Calm := by
  cases u with
  | wake => exact hc.poll h n
  | acquire => exact hc.acquire h n
  | letGo => exact hc.letGo h n

end Calm

end Line

end Rendezvous
