import Mathlib.Data.List.Induction
import Rendezvous.Csv.Scan

/-!
# What the scanner makes of more bytes

A byte ends the present record or leaves the finished records and the place of the present one as
they are.  What the scanner does with a byte never depends on the records that it has finished, so
bytes that are scanned later add to these records and change none.

* `step_cases`: what a byte can do to the finished records;
* `finish_onto`, `complete_onto`: records that were finished before come first;
* `record_eq_of_getElem?`: records are numbered from zero on;
* `exists_ended`: the bytes up to where the last record of some bytes ended.
-/

namespace Rendezvous.Csv

namespace Scan

variable {s : Scan} {b : UInt8}

theorem step_cases (s : Scan) (b : UInt8) :
    s.step b = (s.count b).endRecord ∨
      ((s.step b).place = s.place ∧ (s.step b).records = s.records) := by
  unfold step take unquoted
  split <;> repeat' split
  all_goals first | exact .inl rfl | exact .inr ⟨rfl, rfl⟩

/-- A record that ends leaves the scanner between two records. -/
theorem records_step (h : (s.step b).mode ≠ .between) : (s.step b).records = s.records := by
  rcases s.step_cases b with hend | ⟨-, hrecords⟩
  · rw [hend] at h
    exact absurd rfl h
  · exact hrecords

/-! ## Records that were finished before -/

/-- A scanner that has finished some records before its own. -/
def onto (s : Scan) (rs : List Record) : Scan := { s with records := s.records ++ rs }

theorem step_onto (s : Scan) (rs : List Record) (b : UInt8) :
    (s.onto rs).step b = (s.step b).onto rs := by
  -- what a byte does is decided by the mode and by the byte, never by the finished records
  obtain ⟨mode, place, line, byte, fields, field, records⟩ := s
  cases mode <;> simp only [step, take, unquoted, onto, count] <;> repeat' split
  all_goals rfl

theorem foldl_onto (s : Scan) (rs : List Record) (bs : List UInt8) :
    bs.foldl step (s.onto rs) = (bs.foldl step s).onto rs := by
  induction bs generalizing s with
  | nil => rfl
  | cons b bs ih => rw [List.foldl_cons, List.foldl_cons, step_onto, ih]

theorem complete_onto (s : Scan) (rs : List Record) :
    (s.onto rs).complete = rs.reverse ++ s.complete := by
  simp [complete, onto]

theorem finish_onto (s : Scan) (rs : List Record) :
    (s.onto rs).finish = rs.reverse ++ s.finish := by
  obtain ⟨mode, place, line, byte, fields, field, records⟩ := s
  cases mode <;> simp [finish, complete, onto, endRecord, present]

/-! ## Numbers of records -/

/-- Finished records are numbered from zero on, and the present one comes next. -/
structure Numbered (s : Scan) : Prop where
  present : s.place.record = s.records.length
  finished : s.complete.map (fun r => r.place.record) = List.range s.records.length

theorem Numbered.endRecord (h : s.Numbered) : s.endRecord.Numbered where
  present := by simp [Scan.endRecord, h.present]
  finished := by
    have hfinished := h.finished
    simp only [complete] at hfinished
    simp [Scan.endRecord, complete, Scan.present, hfinished, h.present, List.range_succ]

theorem Numbered.step (h : s.Numbered) (b : UInt8) : (s.step b).Numbered := by
  rcases s.step_cases b with hend | ⟨hplace, hrecords⟩
  · rw [hend]
    exact Numbered.endRecord ⟨h.present, h.finished⟩
  · exact ⟨by rw [hplace, hrecords, h.present], by rw [complete, hrecords]; exact h.finished⟩

theorem Numbered.foldl (h : s.Numbered) (bs : List UInt8) : (bs.foldl Scan.step s).Numbered := by
  induction bs generalizing s with
  | nil => exact h
  | cons b bs ih => exact ih (h.step b)

theorem Numbered.finish (h : s.Numbered) :
    s.finish.map (fun r => r.place.record) = List.range s.finish.length := by
  unfold Scan.finish
  split
  · simpa [complete] using h.finished
  · simpa [complete] using h.endRecord.finished

end Scan

/-- Nothing has been scanned after a byte order mark. -/
theorem numbered_afterMark (bs : List UInt8) : (afterMark bs).1.Numbered := by
  unfold afterMark
  split <;> exact ⟨rfl, rfl⟩

/-- Records are numbered from zero on. -/
theorem record_eq_of_getElem? {bs : List UInt8} {i : Nat} {r : Record}
    (h : (scan bs).finish[i]? = some r) : r.place.record = i := by
  have hnumbers : (scan bs).finish.map (fun r => r.place.record)
      = List.range (scan bs).finish.length := ((numbered_afterMark bs).foldl _).finish
  obtain ⟨hi, -⟩ := List.getElem?_eq_some_iff.1 h
  have hnumber := congrArg (fun numbers => numbers[i]?) hnumbers
  simpa [h, List.getElem?_range hi] using hnumber

/-! ## Where records end -/

/-- Bytes in which every record has been ended. -/
def Ended (bs : List UInt8) : Prop := (scan bs).mode = .between

instance (bs : List UInt8) : Decidable (Ended bs) := inferInstanceAs (Decidable (_ = _))

/-- What files in Unicode may begin with. -/
def byteOrderMark : List UInt8 := [0xEF, 0xBB, 0xBF]

theorem afterMark_eq (bs : List UInt8) :
    afterMark bs = if byteOrderMark <+: bs then ({ byte := 3 }, bs.drop 3) else ({}, bs) := by
  unfold afterMark
  split
  · simp [byteOrderMark]
  · rename_i hmark
    rw [if_neg]
    rintro ⟨rest, rfl⟩
    exact hmark rest rfl

/-- The scanner goes on with another byte, unless that completes a byte order mark. -/
theorem scan_concat {bs : List UInt8} {b : UInt8} (h : bs ++ [b] ≠ byteOrderMark) :
    scan (bs ++ [b]) = (scan bs).step b := by
  have hbegins : byteOrderMark <+: bs ++ [b] ↔ byteOrderMark <+: bs := by
    rw [List.prefix_concat_iff]
    exact or_iff_right (Ne.symm h)
  -- so whatever is taken off before the scan is also taken off without the last byte
  have hafter : afterMark (bs ++ [b]) = ((afterMark bs).1, (afterMark bs).2 ++ [b]) := by
    rw [afterMark_eq, afterMark_eq]
    by_cases hmark : byteOrderMark <+: bs
    · have hlength : 3 ≤ bs.length := hmark.length_le
      rw [if_pos (hbegins.2 hmark), if_pos hmark, List.drop_append_of_le_length hlength]
    · rw [if_neg (mt hbegins.1 hmark), if_neg hmark]
  simp [scan, hafter]

/-- Bytes can be cut where they leave no record unfinished for the last time; what comes after the
cut ends no record. -/
theorem exists_ended (bs : List UInt8) :
    ∃ ended cut, bs = ended ++ cut ∧ Ended ended ∧ (scan ended).complete = (scan bs).complete ∧
      ∀ more, more ≠ [] → more <+: cut → ¬ Ended (ended ++ more) := by
  -- the induction is on the last byte: either it leaves no record unfinished, or it ends none
  induction bs using List.reverseRecOn with
  | nil => exact ⟨[], [], rfl, rfl, rfl, by simp +contextual⟩
  | append_singleton bs b ih =>
    by_cases hended : Ended (bs ++ [b])
    · exact ⟨bs ++ [b], [], by simp, hended, rfl, by simp +contextual⟩
    · -- after a byte order mark alone no record has begun
      have hmark : bs ++ [b] ≠ byteOrderMark := by
        intro hmark
        rw [hmark] at hended
        exact hended rfl
      have hscan := scan_concat hmark
      obtain ⟨ended, cut, rfl, hbetween, hcomplete, hcut⟩ := ih
      refine ⟨ended, cut ++ [b], by simp, hbetween, ?_, fun more hne hmore => ?_⟩
      · rw [hcomplete, hscan, Scan.complete, Scan.complete, Scan.records_step]
        rwa [← hscan]
      · rcases List.prefix_concat_iff.1 hmore with rfl | hmore
        · rwa [← List.append_assoc]
        · exact hcut more hne hmore

end Rendezvous.Csv
