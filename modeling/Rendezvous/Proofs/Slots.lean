import Rendezvous.Proofs.Lines

/-!
# Locks made of counted slots

A table of slots is nothing but one line for each key: `SlotMap.line_act` says that a step of a call
moves the line of its key as if there were no other, and no other line.  So the calls for one key
cannot be held up by those for another, and what holds of one line (`Line.Sound`) holds of all.

That slots of different keys do not get mixed up is due to the references: `SlotMap.Sound` says that
whoever holds a reference holds it to the slot that the table has for its key.
-/

namespace Rendezvous

namespace SlotMap

variable {κ : Type} [DecidableEq κ] {s : SlotMap κ} {k k' : κ} {n : Nat} {i : SlotId}

/-- References are to the slots that the table has for the keys. -/
structure Homed (s : SlotMap κ) : Prop where
  home : ∀ k n call, s.calls k n = some call → call.stage.refers →
    s.table.get? k = some call.slot
  /-- No two keys share a slot. -/
  apart : ∀ k k' i, s.table.get? k = some i → s.table.get? k' = some i → k = k'
  /-- The names of slots to come are free. -/
  fresh : ∀ k i, s.table.get? k = some i → i < s.nextSlot

/-- What holds of a table of slots, whatever its calls do. -/
structure Sound (s : SlotMap κ) : Prop extends Homed s where
  lines : ∀ k, (s.line k).Sound

/-! ## Lines -/

theorem mem_logOf {ev : LockEvent} {log : List (κ × LockEvent)} :
    ev ∈ logOf k log ↔ (k, ev) ∈ log := by
  simp [logOf]

theorem logOf_append (k : κ) (log : List (κ × LockEvent)) (k' : κ) (evs : List LockEvent) :
    logOf k (log ++ evs.map (k', ·)) = logOf k log ++ if k = k' then evs else [] := by
  unfold logOf
  by_cases hk : k = k'
  · subst hk
    have hown : (fun e : κ × LockEvent => if e.1 = k then some e.2 else none) ∘ (k, ·) = some :=
      funext fun ev => if_pos rfl
    rw [if_pos rfl, List.filterMap_append, List.filterMap_map, hown, List.filterMap_some]
  · have hothers : ∀ e ∈ evs.map (k', ·), (if e.1 = k then some e.2 else none) = none := by
      intro e hmem
      obtain ⟨ev, -, rfl⟩ := List.mem_map.mp hmem
      exact if_neg (Ne.symm hk)
    rw [if_neg hk, List.filterMap_append, List.filterMap_eq_nil_iff.mpr hothers]

theorem calls_setCall (s : SlotMap κ) (k k' : κ) (n m : Nat) (call? : Option LockCall) :
    (s.setCall k n call?).calls k' m = if k' = k ∧ m = n then call? else s.calls k' m := by
  unfold setCall
  by_cases hk : k' = k
  · subst hk
    by_cases hm : m = n
    · subst hm
      simp
    · simp [hm]
  · simp [hk]

theorem line_setCall (s : SlotMap κ) (k : κ) (n : Nat) (call? : Option LockCall) :
    (s.setCall k n call?).line k =
      { s.line k with
        stage? := Function.update (s.line k).stage? n (call?.map LockCall.stage) } := by
  ext1
  · rfl
  · funext m
    simp only [line, calls_setCall, true_and]
    by_cases hm : m = n
    · subst hm
      simp
    · simp [hm]
  · rfl

theorem line_setCall_of_ne (hk : k' ≠ k) (call? : Option LockCall) :
    (s.setCall k n call?).line k' = s.line k' := by
  simp [line, hk, setCall]

theorem line_note (s : SlotMap κ) (k : κ) (evs : List LockEvent) :
    (s.note k evs).line k = { s.line k with log := (s.line k).log ++ evs } := by
  simp [line, note, logOf_append]

theorem line_note_of_ne (hk : k' ≠ k) (evs : List LockEvent) :
    (s.note k evs).line k' = s.line k' := by
  simp [line, note, logOf_append, hk]

theorem line_setSlot (hslot : s.table.get? k = some i) (slot : Slot) :
    (s.setSlot i slot).line k = { s.line k with slot? := some slot } := by
  simp [line, setSlot, hslot]

/-- A slot belongs to one key. -/
theorem line_setSlot_of_ne (hslot : s.table.get? k' ≠ some i) (slot : Slot) :
    (s.setSlot i slot).line k' = s.line k' := by
  have hsame : (s.table.get? k').map (Function.update s.slots i slot) =
      (s.table.get? k').map s.slots := by
    cases hget : s.table.get? k' with
    | none => rfl
    | some j =>
        have hne : j ≠ i := by
          rintro rfl
          exact hslot hget
        simp [hne]
  simp [line, setSlot, hsame]

/-- A call that takes a reference takes it to the one slot of its key. -/
theorem line_refer (s : SlotMap κ) (k : κ) (n : Nat) :
    (s.refer k n).line k =
      { s.line k with
        slot? := some ((s.line k).slot?.getD {}).ref
        stage? := Function.update (s.line k).stage? n (some .asking) } := by
  unfold refer
  split
  · rename_i i hslot
    rw [line_setCall, line_setSlot hslot]
    simp [line, hslot]
  · rename_i hslot
    rw [line_setCall, line_setSlot (by simp)]
    simp [line, hslot]

theorem line_refer_of_ne (h : s.Homed) (hk : k' ≠ k) : (s.refer k n).line k' = s.line k' := by
  unfold refer
  split
  · rename_i i hslot
    rw [line_setCall_of_ne hk, line_setSlot_of_ne]
    exact fun hslot' => hk (h.apart k' k i hslot' hslot)
  · have hget : (s.table.insert k s.nextSlot).get? k' = s.table.get? k' := by simp [Ne.symm hk]
    rw [line_setCall_of_ne hk, line_setSlot_of_ne]
    · simp [line, hget]
    · -- no slot has the name of the new one
      rw [hget]
      exact fun hslot' => Nat.lt_irrefl _ (h.fresh k' _ hslot')

theorem line_releaseSlot (s : SlotMap κ) (k : κ) :
    (s.releaseSlot k).line k =
      { s.line k with slot? := (s.line k).slot?.filter fun slot => slot.refs ≠ 1 } := by
  unfold releaseSlot
  split
  · rename_i i hslot
    split
    · rename_i hone
      simp [line, hslot, Option.filter, hone]
    · rename_i hmany
      simp [line, hslot, Option.filter, hmany]
  · rename_i hslot
    simp [line, hslot]

theorem line_releaseSlot_of_ne (hk : k' ≠ k) : (s.releaseSlot k).line k' = s.line k' := by
  unfold releaseSlot
  split
  · split
    · simp [line, hk]
    · rfl
  · rfl

/-- Only who holds a reference has anything to do with its slot. -/
theorem refers_of_onSlot {move : LockMove} {slot : Slot} {stage : LockStage}
    {r : Slot × LockStage × List LockEvent} (h : move.onSlot n slot stage = some r) :
    stage.refers := by
  cases stage with
  | tidying => cases move <;> cases h
  | asking | queued | holding | leaving => rfl

/-- What a call does with its slot it does in the line of its key, and in no other. -/
theorem line_touch (h : s.Homed) (k : κ) (n : Nat) (move : LockMove) (k' : κ) :
    (s.touch k n move).line k' = if k' = k then (s.line k').touch n move else s.line k' := by
  unfold touch
  cases hcall : s.calls k n with
  | none =>
      have hstage : (s.line k).stage? n = none := by simp [line, hcall]
      by_cases hk : k' = k
      · subst hk
        simp [Line.touch, hstage]
      · simp [hk]
  | some call =>
      have hstage : (s.line k).stage? n = some call.stage := by simp [line, hcall]
      dsimp only
      cases hmove : move.onSlot n (s.slots call.slot) call.stage with
      | none =>
          by_cases hk : k' = k
          · subst hk
            rw [if_pos rfl, Line.touch, hstage]
            cases hslot : (s.line k').slot? with
            | none => rfl
            | some slot =>
                -- the slot of the table is the one that the call refers to, if it refers to any
                cases hnext : move.onSlot n slot call.stage with
                | none => simp [hnext]
                | some r =>
                    have hhome := h.home k' n call hcall (refers_of_onSlot hnext)
                    have hsame : slot = s.slots call.slot := by
                      simpa [line, hhome, eq_comm] using hslot
                    rw [hsame, hmove] at hnext
                    cases hnext
          · simp [hk]
      | some r =>
          obtain ⟨slot, stage, evs⟩ := r
          have hhome := h.home k n call hcall (refers_of_onSlot hmove)
          have hslot : (s.line k).slot? = some (s.slots call.slot) := by simp [line, hhome]
          by_cases hk : k' = k
          · subst hk
            rw [if_pos rfl, Line.touch, hstage, hslot]
            simp only [hmove]
            rw [line_note, line_setCall, line_setSlot hhome]
            rfl
          · rw [if_neg hk]
            dsimp only
            rw [line_note_of_ne hk, line_setCall_of_ne hk, line_setSlot_of_ne]
            exact fun hslot' => hk (h.apart k' k _ hslot' hhome)

/-- A step of a call moves the line of its key as if there were no other, and no other line. -/
theorem line_act (h : s.Homed) (a : SlotAction κ) (k : κ) :
    (s.act a).line k = if k = a.key then (s.line k).act a.number a.move else s.line k := by
  obtain ⟨key, n, move⟩ := a
  cases move with
  | begin =>
      have hmem : .began n ∈ (s.line key).log ↔ (key, .began n) ∈ s.log := mem_logOf
      by_cases hnew : (key, .began n) ∈ s.log
      · have hact : s.act ⟨key, n, .begin⟩ = s := by simp [act, hnew]
        rw [hact]
        by_cases hk : k = key
        · subst hk
          simp [Line.act, hmem.mpr hnew]
        · simp [hk]
      · have hact : s.act ⟨key, n, .begin⟩ = (s.refer key n).note key [.began n] := by
          simp [act, hnew]
        rw [hact]
        by_cases hk : k = key
        · subst hk
          rw [line_note, line_refer, if_pos rfl]
          simp [Line.act, hmem, hnew]
        · rw [line_note_of_ne hk, line_refer_of_ne h hk, if_neg hk]
  | tidy =>
      have hstage : (s.line key).stage? n = (s.calls key n).map LockCall.stage := rfl
      by_cases htidy : (s.calls key n).map LockCall.stage = some .tidying
      · have hact : s.act ⟨key, n, .tidy⟩ = (s.releaseSlot key).setCall key n none := by
          simp only [act, htidy, if_true]
        rw [hact]
        by_cases hk : k = key
        · subst hk
          rw [line_setCall, line_releaseSlot, if_pos rfl]
          simp [Line.act, hstage, htidy]
        · rw [line_setCall_of_ne hk, line_releaseSlot_of_ne hk, if_neg hk]
      · have hact : s.act ⟨key, n, .tidy⟩ = s := by simp only [act, htidy, if_false]
        rw [hact]
        by_cases hk : k = key
        · subst hk
          simp [Line.act, hstage, htidy]
        · simp [hk]
  | poll | drop | unref => exact s.line_touch h key n _ k

/-! ## Slots stay with their keys -/

theorem Homed.setCall (h : s.Homed) {call? : Option LockCall}
    (hcall : ∀ call, call? = some call → call.stage.refers → s.table.get? k = some call.slot) :
    (s.setCall k n call?).Homed where
  home k' m call hm hrefers := by
    rw [calls_setCall] at hm
    split at hm
    · rename_i heq
      rw [heq.1]
      exact hcall call hm hrefers
    · exact h.home k' m call hm hrefers
  apart := h.apart
  fresh := h.fresh

theorem Homed.refer (h : s.Homed) (k : κ) (n : Nat) : (s.refer k n).Homed := by
  unfold SlotMap.refer
  split
  · rename_i i hslot
    have hsame : (s.setSlot i (s.slots i).ref).Homed := ⟨h.home, h.apart, h.fresh⟩
    refine hsame.setCall fun call heq _ => ?_
    cases heq
    exact hslot
  · rename_i hslot
    refine Homed.setCall ⟨fun k' m call hm hrefers => ?_, fun k' k'' i hi hi' => ?_,
      fun k' i hi => ?_⟩ fun call heq _ => ?_
    · have hhome := h.home k' m call hm hrefers
      have hne : k ≠ k' := by
        rintro rfl
        rw [hslot] at hhome
        cases hhome
      show (s.table.insert k s.nextSlot).get? k' = some call.slot
      rw [Assoc.get?_insert, if_neg hne, hhome]
    · have hnew : ∀ k', (s.table.insert k s.nextSlot).get? k' = some i →
          k = k' ∧ i = s.nextSlot ∨ k ≠ k' ∧ s.table.get? k' = some i := by
        intro k' hi
        rw [Assoc.get?_insert] at hi
        split at hi
        · exact .inl ⟨‹_›, (Option.some.inj hi).symm⟩
        · exact .inr ⟨‹_›, hi⟩
      rcases hnew k' hi with ⟨rfl, rfl⟩ | ⟨-, hold⟩ <;>
        rcases hnew k'' hi' with ⟨rfl, heq⟩ | ⟨-, hold'⟩
      · rfl
      · exact absurd (h.fresh k'' _ hold') (Nat.lt_irrefl _)
      · exact absurd (heq ▸ h.fresh k' i hold) (Nat.lt_irrefl _)
      · exact h.apart k' k'' i hold hold'
    · have hi' : (s.table.insert k s.nextSlot).get? k' = some i := hi
      rw [Assoc.get?_insert] at hi'
      split at hi'
      · cases hi'
        exact Nat.lt_succ_self _
      · exact Nat.lt_succ_of_lt (h.fresh k' i hi')
    · cases heq
      show (s.table.insert k s.nextSlot).get? k = some s.nextSlot
      simp

theorem Homed.releaseSlot (h : s.Homed) (hc : (s.line k).Counted) :
    (s.releaseSlot k).Homed := by
  unfold SlotMap.releaseSlot
  split
  · rename_i i hslot
    split
    · rename_i hone
      have hget : ∀ {k' i'}, (s.table.erase k).get? k' = some i' → s.table.get? k' = some i' := by
        intro k' i' hi
        rw [Assoc.get?_erase] at hi
        split at hi
        · cases hi
        · exact hi
      refine ⟨fun k' m call hm hrefers => ?_,
        fun k' k'' i' hi hi' => h.apart k' k'' i' (hget hi) (hget hi'),
        fun k' i' hi => h.fresh k' i' (hget hi)⟩
      -- whoever refers to a slot would be counted
      have hne : k' ≠ k := by
        rintro rfl
        have hline : (s.line k').slot? = some (s.slots i) := by simp [line, hslot]
        have hcall : s.calls k' m = some call := hm
        have hstage : (s.line k').stage? m = some call.stage := by simp [line, hcall]
        exact hc.refs_ne_one hline (Line.refers_of_stage hstage hrefers) hone
      show (s.table.erase k).get? k' = some call.slot
      rw [Assoc.get?_erase, if_neg hne]
      exact h.home k' m call hm hrefers
    · exact h
  · exact h

theorem Homed.touch (h : s.Homed) (k : κ) (n : Nat) (move : LockMove) :
    (s.touch k n move).Homed := by
  unfold SlotMap.touch
  split
  · rename_i call hcall
    split
    · rename_i slot stage evs hmove
      have hsame : (s.setSlot call.slot slot).Homed := ⟨h.home, h.apart, h.fresh⟩
      have hnext : ((s.setSlot call.slot slot).setCall k n (some ⟨stage, call.slot⟩)).Homed := by
        refine hsame.setCall fun call' heq _ => ?_
        cases heq
        exact h.home k n call hcall (refers_of_onSlot hmove)
      exact ⟨hnext.home, hnext.apart, hnext.fresh⟩
    · exact h
  · exact h

theorem Sound.act (h : s.Sound) (a : SlotAction κ) : (s.act a).Sound where
  toHomed := by
    obtain ⟨key, n, move⟩ := a
    cases move with
    | begin =>
        unfold SlotMap.act
        dsimp only
        split
        · exact h.toHomed
        · have hnext := h.toHomed.refer key n
          exact ⟨hnext.home, hnext.apart, hnext.fresh⟩
    | tidy =>
        unfold SlotMap.act
        dsimp only
        split
        · exact (h.toHomed.releaseSlot (h.lines key).counted).setCall fun call heq => by cases heq
        · exact h.toHomed
    | poll | drop | unref => exact h.toHomed.touch key n _
  lines k := by
    rw [line_act h.toHomed]
    split
    · exact (h.lines k).act a.number a.move
    · exact h.lines k

theorem sound_empty : Sound ({} : SlotMap κ) where
  home := fun k n call hcall => by cases hcall
  apart := fun k k' i hi => by cases hi
  fresh := fun k i hi => by cases hi
  lines := fun k => Line.sound_empty

theorem Sound.after (h : s.Sound) (as : List (SlotAction κ)) : (s.after as).Sound := by
  induction as generalizing s with
  | nil => exact h
  | cons a as ih => exact ih (h.act a)

/-- The steps of the calls for `k`. -/
def movesOf (k : κ) (as : List (SlotAction κ)) : List (Nat × LockMove) :=
  (as.filter fun a => a.key = k).map fun a => (a.number, a.move)

/-- The line of a key is what the calls for the key make of it. -/
theorem line_after (h : s.Sound) (as : List (SlotAction κ)) (k : κ) :
    (s.after as).line k = (s.line k).after (movesOf k as) := by
  induction as generalizing s with
  | nil => rfl
  | cons a as ih =>
      have hrest : (s.after (a :: as)).line k = ((s.act a).line k).after (movesOf k as) :=
        ih (h.act a)
      rw [hrest, line_act h.toHomed]
      by_cases hk : k = a.key
      · simp [movesOf, hk, Line.after]
      · simp [movesOf, hk, Ne.symm hk]

/-! ## The plain locks -/

/-- The plain locks have the queues of the slots. -/
theorem queue_follow (log : List (κ × LockEvent)) (l : KeyLocks κ) (k : κ) :
    (log.foldl KeyLocks.follow l).queue k =
      (logOf k log).foldl LockEvent.requeue (l.queue k) := by
  induction log generalizing l with
  | nil => rfl
  | cons e log ih =>
      obtain ⟨k', ev⟩ := e
      have hstep : (l.follow (k', ev)).queue k =
          if k' = k then ev.requeue (l.queue k) else l.queue k := by
        by_cases hk : k' = k
        · subst hk
          cases ev <;> simp [KeyLocks.follow, LockEvent.requeue, KeyLocks.queue_ask,
            KeyLocks.queue_leave]
        · cases ev <;> simp [KeyLocks.follow, KeyLocks.queue_ask, KeyLocks.queue_leave, hk,
            Ne.symm hk]
      rw [List.foldl_cons, ih, hstep]
      by_cases hk : k' = k
      · simp [logOf, hk]
      · simp [logOf, hk]

/-- A key has a queue if it is in use. -/
theorem mem_keys_queues (l : KeyLocks κ) (k : κ) : k ∈ l.queues.keys ↔ l.queue k ≠ [] := by
  rw [Assoc.mem_keys, KeyLocks.queue]
  cases hget : l.queues.get? k with
  | none => simp
  | some q => simpa using l.owned (k, q) ((Assoc.mem_entries _ _ _).mpr hget)

namespace Sound

/-- A slot is in the table as long as a call needs it. -/
theorem isSome_of_refers (h : s.Sound) (hrefers : (s.line k).Refers n) :
    (s.table.get? k).isSome := by
  have hsome := (h.lines k).counted.home n hrefers
  simpa [line] using hsome

/-- A slot is in the table no longer than there is a call. -/
theorem exists_call (h : s.Sound) (hsome : (s.table.get? k).isSome) :
    ∃ n, (s.calls k n).isSome := by
  have hslot : (s.line k).slot?.isSome := by simpa [line] using hsome
  obtain ⟨n, hn⟩ := (h.lines k).counted.inUse hslot
  exact ⟨n, by simpa [line] using hn⟩

theorem refers_of_waits (hw : s.Waits k n) : (s.line k).Refers n := by
  rcases hw with hstage | hstage <;> exact Line.refers_of_stage hstage rfl

/-- Between the steps of which calls consist, the slots are those of the keys in use. -/
theorem mem_keys (h : s.Sound) (hquiet : s.Quiet) (k : κ) :
    k ∈ s.table.keys ↔ ∃ n, s.Holds k n ∨ s.Waits k n := by
  rw [Assoc.mem_keys]
  constructor
  · intro hsome
    obtain ⟨n, hn⟩ := h.exists_call hsome
    obtain ⟨call, hcall⟩ := Option.isSome_iff_exists.mp hn
    have hstage : (s.line k).stage? n = some call.stage := by simp [line, hcall]
    refine ⟨n, ?_⟩
    rcases hquiet k n _ hstage with heq | heq
    · exact .inr (.inr (hstage.trans (congrArg some heq)))
    · exact .inl (hstage.trans (congrArg some heq))
  · rintro ⟨n, hholds | hwaits⟩
    · exact h.isSome_of_refers (Line.refers_of_stage hholds rfl)
    · exact h.isSome_of_refers (refers_of_waits hwaits)

/-- Where somebody waits, somebody has the mutex, and once it has noticed it has its guard. -/
theorem exists_holder (h : s.Sound) (hsettled : s.Settled) (hw : s.Waits k n) :
    ∃ n', s.Holds k n' := by
  have hq := (h.lines k).queued
  have hqueued : (s.line k).stage? n = some .queued := by
    rcases hw with hasking | hqueued
    · rcases hsettled.1 k n _ hasking with heq | heq <;> cases heq
    · exact hqueued
  have hmem : n ∈ (s.line k).queue := (hq.inLine n).mpr (.inl hqueued)
  obtain ⟨n', ho⟩ : ∃ n', (s.line k).owner? = some n' := by
    rw [hq.head]
    cases hline : (s.line k).queue with
    | nil => simp [hline] at hmem
    | cons n' rest => exact ⟨n', rfl⟩
  have hmem' : n' ∈ (s.line k).queue := List.mem_of_mem_head? (hq.head ▸ ho)
  refine ⟨n', ((hq.inLine n').mp hmem').resolve_left fun hqueued' => ?_⟩
  exact hsettled.2 k n' hqueued' ho

/-- Between the steps of which calls consist, as many keys have slots as have plain locks. -/
theorem size_eq (h : s.Sound) (hquiet : s.Quiet) {l : KeyLocks κ}
    (hqueue : ∀ k, l.queue k = (s.line k).queue) : s.size = l.size := by
  have hkeys : s.table.keys.Perm l.queues.keys := by
    refine (List.perm_ext_iff_of_nodup s.table.nodup l.queues.nodup).mpr fun k => ?_
    show k ∈ s.table.keys ↔ k ∈ l.queues.keys
    have hinLine := (h.lines k).queued.inLine
    rw [h.mem_keys hquiet, mem_keys_queues, hqueue]
    constructor
    · rintro ⟨n, hholds | hasking | hqueued⟩
      · exact List.ne_nil_of_mem ((hinLine n).mpr (.inr hholds))
      · rcases hquiet k n _ hasking with heq | heq <;> cases heq
      · exact List.ne_nil_of_mem ((hinLine n).mpr (.inl hqueued))
    · intro hne
      obtain ⟨n, hmem⟩ := List.exists_mem_of_ne_nil _ hne
      exact ⟨n, ((hinLine n).mp hmem).elim (fun hqueued => .inr (.inr hqueued)) .inl⟩
  simpa [Assoc.keys, size, KeyLocks.size, Assoc.size] using hkeys.length_eq

end Sound

/-! ## Uses at one go -/

/-- The line of a key moves with the uses of its lock, and not with those of other locks. -/
theorem line_use (h : s.Sound) (k : κ) (n : Nat) (u : LockUse) (k' : κ) :
    (s.after (u.steps k n)).line k' =
      if k' = k then (s.line k').after (u.moves.map (n, ·)) else s.line k' := by
  rw [line_after h]
  have hmoves : movesOf k' (u.steps k n) = if k' = k then u.moves.map (n, ·) else [] := by
    unfold movesOf LockUse.steps
    rw [List.filter_map, List.map_map]
    by_cases hk : k' = k
    · subst hk
      rw [List.filter_eq_self.mpr (by simp), if_pos rfl]
      rfl
    · simp [Function.comp_def, hk, Ne.symm hk]
  rw [hmoves]
  by_cases hk : k' = k
  · simp [hk]
  · simp [hk, Line.after]

/-- After uses that are made at one go every line is calm. -/
theorem Sound.calm_after (h : s.Sound) (hcalm : ∀ k, (s.line k).Calm)
    (uses : List (κ × Nat × LockUse)) (k : κ) : ((s.after (atOneGo uses)).line k).Calm := by
  induction uses generalizing s with
  | nil => exact hcalm k
  | cons first uses ih =>
      obtain ⟨k', n, u⟩ := first
      have hrest : s.after (atOneGo ((k', n, u) :: uses)) =
          (s.after (u.steps k' n)).after (atOneGo uses) := by
        unfold atOneGo
        rw [List.flatMap_cons, SlotMap.after, List.foldl_append]
        rfl
      rw [hrest]
      refine ih (h.after _) fun k'' => ?_
      rw [line_use h]
      split
      · exact (hcalm k'').use (h.lines k'') n u
      · exact hcalm k''

/-- Let calls for locks make their steps in any order.

* At most one call for a key has its guard, at any time.
* The table has a slot for a key as long as a call for it has its guard or waits for one, and no
  longer than any call for it is under way; once all calls have ended the table is empty.
* When every call has done what it can do by itself, the keys with slots are those whose locks are
  held or waited for, and there are as many as have plain locks.
* When also every call that was handed its mutex has its guard, there is one wherever another waits.
* The calls that have got their guards and those that wait for one, in this order, are those that
  asked and did not give up, in the order in which they asked.
* What becomes of the calls for a key depends on their own steps alone.
* The queues are those of the plain locks, which follow who asked and who left.

Tasks that use locks at one go leave every call where it can do nothing by itself, and their calls
ask in the order in which they begin. -/
theorem serves_each_key_in_turn :
    (∀ as : List (SlotAction κ),
      let s := ({} : SlotMap κ).after as
      let plain : KeyLocks κ := s.log.foldl KeyLocks.follow {}
      (∀ k n n', s.Holds k n → s.Holds k n' → n = n') ∧
      (∀ k n, s.Holds k n ∨ s.Waits k n → (s.table.get? k).isSome) ∧
      (∀ k, (s.table.get? k).isSome → ∃ n, (s.calls k n).isSome) ∧
      ((∀ k n, s.calls k n = none) → s.size = 0) ∧
      (s.Quiet →
        (∀ k, k ∈ s.table.keys ↔ ∃ n, s.Holds k n ∨ s.Waits k n) ∧ s.table.keys.Nodup ∧
        s.size = s.table.keys.length ∧ s.size = plain.size) ∧
      (s.Settled → ∀ k n, s.Waits k n → ∃ n', s.Holds k n') ∧
      ∀ k,
        let l := s.line k
        l.asked.Nodup ∧ l.granted ++ l.pending = l.asked.filter (fun n => n ∉ l.gaveUp) ∧
        l = ({} : Line).after (movesOf k as) ∧ plain.queue k = l.queue) ∧
    ∀ uses : List (κ × Nat × LockUse),
      let s := ({} : SlotMap κ).after (atOneGo uses)
      s.Quiet ∧ ∀ k, (s.line k).asked = (s.line k).began := by
  refine ⟨fun as => ?_, fun uses => ?_⟩
  · intro s plain
    have h : s.Sound := sound_empty.after as
    have hqueue : ∀ k, plain.queue k = (s.line k).queue := fun k => by
      rw [queue_follow]
      exact (h.lines k).told.queue
    refine ⟨fun k n n' hn hn' => ?_, fun k n hin => ?_, fun k => h.exists_call, fun hnone => ?_,
      fun hquiet => ⟨h.mem_keys hquiet, s.table.nodup, ?_, h.size_eq hquiet hqueue⟩,
      fun hsettled k n => h.exists_holder hsettled, fun k => ?_⟩
    · have holder := (h.lines k).queued.holder
      exact Option.some.inj ((holder n hn).symm.trans (holder n' hn'))
    · rcases hin with hholds | hwaits
      · exact h.isSome_of_refers (Line.refers_of_stage hholds rfl)
      · exact h.isSome_of_refers (Sound.refers_of_waits hwaits)
    · refine List.length_eq_zero_iff.mpr (List.eq_nil_iff_forall_not_mem.mpr fun ⟨k, i⟩ hmem => ?_)
      have hslot := (Assoc.mem_entries _ _ _).mp hmem
      obtain ⟨n, hn⟩ := h.exists_call (k := k) (by simp [hslot])
      simp [hnone k n] at hn
    · simp [size, Assoc.size, Assoc.keys]
    · intro l
      have hl : l.Sound := h.lines k
      exact ⟨hl.told.once, hl.told.order, line_after sound_empty as k, hqueue k⟩
  · intro s
    have hcalm : ∀ k, (s.line k).Calm :=
      sound_empty.calm_after (fun k => Line.calm_empty) uses
    exact ⟨fun k => (hcalm k).quiet, fun k => (hcalm k).order⟩

/-- A call that has been handed the mutex is dropped before it notices: no slot is left. -/
example :
    let s := ({} : SlotMap Unit).after
      (atOneGo [((), 0, .acquire), ((), 1, .acquire), ((), 0, .letGo)])
    (s.line ()).owner? = some 1 ∧ s.size = 1 ∧ (s.after (atOneGo [((), 1, .letGo)])).size = 0 := by
  decide

end SlotMap

end Rendezvous
