import Rendezvous.Proofs.Decoding

/-!
# Writing to a sink that gets full

A report is handed to its sink in order, buffered or not, so a sink with room for `n` bytes stores
the beginning of the report, and the first handover that does not fit is told.

* `Sink.Handed`: a sink for `n` bytes and everything that has been handed to it;
* `Fits`, `Overflows`: a writer of some rows before and after its sink got full;
* `Fits.write`, `Fits.flush`: one step of a writer, and `Fits.writeAll` all of them;
* `full_sink_stores_the_beginning`: what a full sink stores, and when it is noticed.
-/

namespace Rendezvous.Report

/-! ## Sinks -/

/-- A sink for `n` bytes to which `all` has been handed; it stores what fits. -/
structure Sink.Handed (s : Sink) (n : Nat) (all : List UInt8) : Prop where
  taken : s.taken.toList = all.take n
  room : s.room? = some (n - all.length)

namespace Sink.Handed

variable {s : Sink} {n : Nat} {all : List UInt8}

theorem init (n : Nat) : Sink.Handed { room? := some n } n [] := ⟨by simp, rfl⟩

/-- As long as everything fits, a sink tells whether the next bytes fit too. -/
theorem put (h : s.Handed n all) (hfits : all.length ≤ n) (bs : List UInt8) :
    (s.put bs).1 = decide ((all ++ bs).length ≤ n) ∧ (s.put bs).2.Handed n (all ++ bs) := by
  have hput : s.put bs = (decide (bs.length ≤ n - all.length),
      { taken := s.taken ++ bs.take (n - all.length)
        room? := some (n - all.length - bs.length) }) := by
    simp [Sink.put, h.room]
  rw [hput]
  refine ⟨?_, ?_, ?_⟩
  · rw [List.length_append]
    exact decide_eq_decide.2 (by omega)
  · rw [List.take_append, ← h.taken]
    simp
  · rw [List.length_append, Nat.sub_sub]

end Sink.Handed

/-! ## Buffers -/

namespace Writer

variable {w : Writer} {n : Nat} {all : List UInt8}

/-- Emptying a buffer hands it over. -/
theorem empty_handed (h : w.sink.Handed n all) (hfits : all.length ≤ n) :
    w.empty = (decide ((all ++ w.buffer.toList).length ≤ n),
        { w with sink := w.empty.2.sink, buffer := #[] }) ∧
      w.empty.2.sink.Handed n (all ++ w.buffer.toList) := by
  obtain ⟨hok, hhanded⟩ := h.put hfits w.buffer.toList
  exact ⟨by simp [empty, hok], hhanded⟩

theorem format_store (pieces : List Csv.Piece) (w : Writer) :
    (store pieces w).2.format = w.format := by
  induction pieces generalizing w with
  | nil => rfl
  | cons piece pieces ih =>
    rw [store]
    split
    · exact ih _
    · have hempty : w.empty.2.format = w.format := rfl
      generalize w.empty = result at hempty ⊢
      obtain ⟨_ | _, w'⟩ := result
      · exact hempty
      · exact (ih _).trans hempty

/-- What becomes of `bytes` that a writer was given and hands over as far as the sink takes them. -/
structure Stored (w : Writer) (ok : Bool) (n : Nat) (bytes : List UInt8) : Prop where
  kept : ok = true → ∃ all, w.sink.Handed n all ∧ all.length ≤ n ∧ all ++ w.buffer.toList = bytes
  lost : ok = false → ∃ all, w.sink.Handed n all ∧ n < all.length ∧ all <+: bytes

/-- Pieces wait in the buffer or are handed over, up to where the sink is full. -/
theorem store_handed (pieces : List Csv.Piece) (h : w.sink.Handed n all)
    (hfits : all.length ≤ n) :
    Stored (store pieces w).2 (store pieces w).1 n
      (all ++ w.buffer.toList ++ pieces.flatten) := by
  induction pieces generalizing w all with
  | nil => exact ⟨fun _ => ⟨all, h, hfits, by simp [store]⟩, by simp [store]⟩
  | cons piece pieces ih =>
    by_cases hbuffer : w.buffer.size + piece.length ≤ bufferSize
    · have hlater := ih (w := { w with buffer := w.buffer ++ piece }) h hfits
      rw [store, if_pos hbuffer]
      simpa using hlater
    · obtain ⟨hempty, hhanded⟩ := empty_handed h hfits
      rw [store, if_neg hbuffer]
      by_cases hroom : (all ++ w.buffer.toList).length ≤ n
      · rw [hempty, decide_eq_true hroom]
        have hlater :=
          ih (w := { w with sink := w.empty.2.sink, buffer := (#[] : Array UInt8) ++ piece })
            hhanded hroom
        simpa using hlater
      · -- the buffer does not fit, so the piece is not even looked at
        rw [hempty, decide_eq_false hroom]
        refine ⟨by simp, fun _ => ⟨_, hhanded, Nat.lt_of_not_le hroom, ?_⟩⟩
        exact List.prefix_append _ _

/-- Rows are written on after one that could be written. -/
theorem writeAll_cons_of_eq_none {r : Row} (more : List Row) (h : (w.write r).1 = none) :
    writeAll (r :: more) w
      = (none :: (writeAll more (w.write r).2).1, (writeAll more (w.write r).2).2) := by
  rw [writeAll]
  generalize w.write r = result at h
  obtain ⟨e?, w'⟩ := result
  cases h
  rfl

/-- No row is written after one that could not be written. -/
theorem writeAll_cons_of_ne_none {r : Row} (more : List Row) (h : (w.write r).1 ≠ none) :
    writeAll (r :: more) w = ([(w.write r).1], (w.write r).2) := by
  rw [writeAll]
  generalize w.write r = result at h
  obtain ⟨e?, w'⟩ := result
  cases e? with
  | none => exact absurd rfl h
  | some e => rfl

end Writer

/-! ## Writers -/

/-- A writer on a sink for `n` bytes that has been given some rows, as long as everything fits. -/
structure Fits (w : Writer) (n : Nat) (f : Format) (rows : List Row) : Prop where
  format : w.format = f
  /-- JSON goes past the buffer. -/
  direct : f = .json → w.buffer = #[]
  headed : f = .csv → w.headed = !rows.isEmpty
  written : ∃ all, w.sink.Handed n all ∧ all.length ≤ n ∧
    all ++ w.buffer.toList = document f rows

/-- More of the report of some rows has been handed to a sink than it has room for. -/
def Overflows (w : Writer) (n : Nat) (f : Format) (rows : List Row) : Prop :=
  ∃ all, w.sink.Handed n all ∧ n < all.length ∧ all <+: document f rows

variable {w : Writer} {n : Nat} {f : Format} {rows : List Row}

theorem document_begins (f : Format) (rows more : List Row) :
    document f rows <+: document f (rows ++ more) := by
  induction more generalizing rows with
  | nil => simp
  | cons r more ih =>
    have hone : document f rows <+: document f (rows ++ [r]) := by
      cases f with
      | csv => exact document_csv_append rows r ▸ List.prefix_append _ _
      | json => exact document_json_append rows r ▸ List.prefix_append _ _
    have hlater := ih (rows ++ [r])
    rw [List.append_assoc] at hlater
    exact hone.trans hlater

/-- A sink that is full stores the beginning of every longer report. -/
theorem Overflows.taken (h : Overflows w n f rows) (more : List Row) :
    w.sink.taken.toList = (document f (rows ++ more)).take n ∧
      n < (document f (rows ++ more)).length := by
  obtain ⟨all, hhanded, hlong, hprefix⟩ := h
  obtain ⟨rest, hrest⟩ := hprefix.trans (document_begins f rows more)
  rw [hhanded.taken, ← hrest, List.take_append_of_le_length (Nat.le_of_lt hlong)]
  refine ⟨rfl, ?_⟩
  rw [List.length_append]
  omega

namespace Fits

theorem init (n : Nat) (f : Format) :
    Fits { format := f, sink := { room? := some n } } n f [] where
  format := rfl
  direct _ := rfl
  headed _ := rfl
  written := ⟨[], .init n, Nat.zero_le n, by cases f <;> rfl⟩

theorem write_csv (h : Fits w n .csv rows) (r : Row) :
    ((w.write r).1 = none ∧ Fits (w.write r).2 n .csv (rows ++ [r])) ∨
      ((w.write r).1 = some .csv ∧ Overflows (w.write r).2 n .csv (rows ++ [r])) := by
  obtain ⟨all, hhanded, hfits, hall⟩ := h.written
  have hstored := Writer.store_handed (w.rowPieces r) hhanded hfits
  have hdocument : all ++ w.buffer.toList ++ (w.rowPieces r).flatten
      = document .csv (rows ++ [r]) := by
    rw [document_csv_append, ← hall, Writer.rowPieces, h.headed rfl]
    cases rows <;> rfl
  rw [hdocument] at hstored
  have hwrite : w.write r = (if (Writer.store (w.rowPieces r) w).1 then none else some .csv,
      { (Writer.store (w.rowPieces r) w).2 with headed := true }) := by
    simp [Writer.write, h.format]
  rw [hwrite]
  have hformat := Writer.format_store (w.rowPieces r) w
  generalize Writer.store (w.rowPieces r) w = result at hstored hformat ⊢
  obtain ⟨ok, w'⟩ := result
  cases ok with
  | true => exact .inl ⟨rfl, hformat.trans h.format, by simp, by simp, hstored.kept rfl⟩
  | false => exact .inr ⟨rfl, hstored.lost rfl⟩

theorem write_json (h : Fits w n .json rows) (r : Row) :
    ((w.write r).1 = none ∧ Fits (w.write r).2 n .json (rows ++ [r])) ∨
      ((w.write r).1 ≠ none ∧ Overflows (w.write r).2 n .json (rows ++ [r])) := by
  obtain ⟨all, hhanded, hfits, hall⟩ := h.written
  have hbuffer := h.direct rfl
  rw [hbuffer, Array.toList_empty, List.append_nil] at hall
  subst hall
  have hdocument := document_json_append rows r
  -- the record is handed over first, and the end of its line after it
  obtain ⟨hrecord, hafter⟩ := hhanded.put hfits (Writer.jsonRow r)
  generalize hput : w.sink.put (Writer.jsonRow r) = result at hrecord hafter
  obtain ⟨ok, sink⟩ := result
  subst hrecord
  by_cases hroom : (document .json rows ++ Writer.jsonRow r).length ≤ n
  · obtain ⟨hline, hend⟩ := hafter.put hroom [Csv.lineFeed]
    generalize hput' : sink.put [Csv.lineFeed] = result at hline hend
    obtain ⟨ok, sink'⟩ := result
    subst hline
    rw [List.append_assoc, ← hdocument] at hend hput'
    have hwrite : w.write r = (if (document .json (rows ++ [r])).length ≤ n then none
        else some .io, { w with sink := sink' }) := by
      simp only [Writer.write, h.format, hput, decide_eq_true hroom, hput', decide_eq_true_eq]
    rw [hwrite]
    by_cases hroom' : (document .json (rows ++ [r])).length ≤ n
    · refine .inl ⟨if_pos hroom', h.format, fun _ => hbuffer, by simp, _, hend, hroom', ?_⟩
      simp [hbuffer]
    · refine .inr ⟨by simp [hroom'], _, hend, Nat.lt_of_not_le hroom', List.prefix_refl _⟩
  · have hwrite : w.write r = (some .json, { w with sink }) := by
      simp only [Writer.write, h.format, hput, decide_eq_false hroom]
    rw [hwrite, Overflows, hdocument, ← List.append_assoc]
    exact .inr ⟨by simp, _, hafter, Nat.lt_of_not_le hroom, List.prefix_append _ _⟩

/-- A row is added to the report, or the sink gets full and this is told. -/
theorem write (h : Fits w n f rows) (r : Row) :
    ((w.write r).1 = none ∧ Fits (w.write r).2 n f (rows ++ [r])) ∨
      ((w.write r).1 ≠ none ∧ Overflows (w.write r).2 n f (rows ++ [r])) := by
  cases f with
  | csv => exact (h.write_csv r).imp_right fun hlost => ⟨by simp [hlost.1], hlost.2⟩
  | json => exact h.write_json r

/-- In the end the report is handed over, and it is told whether there was room. -/
theorem flush (h : Fits w n f rows) :
    (w.flush.1 = none ↔ (document f rows).length ≤ n) ∧
      w.flush.2.sink.taken.toList = (document f rows).take n := by
  obtain ⟨all, hhanded, hfits, hall⟩ := h.written
  obtain ⟨hempty, hend⟩ := Writer.empty_handed hhanded hfits
  rw [hall] at hempty hend
  refine ⟨?_, hend.taken⟩
  rw [Writer.flush, hempty]
  simp

/-- Rows are written until the sink is full; only the last step can fail. -/
theorem writeAll (h : Fits w n f rows) (more : List Row) :
    let result := Writer.writeAll more w
    let all := document f (rows ++ more)
    result.2.sink.taken.toList = all.take n ∧
      (∃ steps e?, result.1 = List.replicate steps none ++ [e?] ∧
        (e? = none ↔ all.length ≤ n) ∧ (e? = none → steps = more.length)) := by
  induction more generalizing w rows with
  | nil =>
    obtain ⟨hok, htaken⟩ := h.flush
    rw [List.append_nil]
    exact ⟨htaken, 0, _, rfl, hok, fun _ => rfl⟩
  | cons r more ih =>
    have hassoc : rows ++ r :: more = rows ++ [r] ++ more := by simp
    rw [hassoc]
    rcases h.write r with ⟨hok, hfits⟩ | ⟨hfailed, hfull⟩
    · obtain ⟨htaken, steps, e?, hsteps, hroom, hlength⟩ := ih hfits
      rw [Writer.writeAll_cons_of_eq_none more hok]
      refine ⟨htaken, steps + 1, e?, ?_, hroom, fun he => by simp [hlength he]⟩
      rw [hsteps, List.replicate_succ, List.cons_append]
    · obtain ⟨htaken, hlong⟩ := hfull.taken more
      rw [Writer.writeAll_cons_of_ne_none more hfailed]
      exact ⟨htaken, 0, _, rfl, iff_of_false hfailed (Nat.not_le_of_lt hlong),
        fun he => absurd he hfailed⟩

end Fits

/-- A sink with room for `n` bytes stores the first `n` bytes of what an unlimited sink stores, or
all of it if it is not longer.  Every step succeeds exactly if there is room for everything, and
then all rows have been written and flushed; otherwise the last step is the one that fails. -/
theorem full_sink_stores_the_beginning (f : Format) (rows : List Row) (n : Nat) :
    let unlimited := (Writer.writeAll rows { format := f }).2.sink.taken.toList
    let (steps, w) := Writer.writeAll rows { format := f, sink := { room? := some n } }
    w.sink.taken.toList = unlimited.take (min n unlimited.length) ∧
      ((∀ e? ∈ steps, e? = none) ↔ unlimited.length ≤ n) ∧
      (unlimited.length ≤ n → steps.length = rows.length + 1) ∧
      ∀ e? ∈ steps.dropLast, e? = none := by
  intro unlimited
  have hunlimited : unlimited = document f rows := ((Given.init f).writeAll rows).2
  obtain ⟨htaken, steps, e?, hsteps, hroom, hlength⟩ := (Fits.init n f).writeAll rows
  rw [List.nil_append, ← hunlimited] at htaken hroom
  have htake : unlimited.take (min n unlimited.length) = unlimited.take n := by
    rw [List.take_eq_take_iff]
    omega
  refine ⟨htaken.trans htake.symm, ?_, fun hfits => ?_, ?_⟩
  · rw [hsteps, ← hroom]
    refine ⟨fun hall => hall e? (by simp), fun he e?' hmem => ?_⟩
    rcases List.mem_append.1 hmem with hmem | hmem
    · exact List.eq_of_mem_replicate hmem
    · exact (List.mem_singleton.1 hmem).trans he
  · rw [hsteps, List.length_append, List.length_replicate, hlength (hroom.2 hfits)]
    rfl
  · rw [hsteps, List.dropLast_concat]
    exact fun e? he => List.eq_of_mem_replicate he

end Rendezvous.Report
