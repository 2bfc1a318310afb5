import Rendezvous.Proofs.Reports
import Rendezvous.Proofs.StrictRecords

/-!
# Reports can be decoded

What is written of some rows can be decoded by whoever knows the format and nothing about this
program: comma-separated values by a strict reader, JSON line by line.

* `Given.writeAll`: a writer on an unlimited sink that is given rows until there are no more;
* `written_rows_can_be_decoded`: what it has written of any keys and outcomes.
-/

namespace Rendezvous.Report

/-- The table in some strictly separated values. -/
def table? (bs : List UInt8) : Option (List (List String)) :=
  (Csv.strictRecords? bs).bind fun records => records.mapM fun fields => fields.mapM text?

/-- A report in comma-separated values is strict. -/
theorem table?_document (rows : List Row) : table? (document .csv rows) = some (table rows) := by
  have hne : ∀ cells ∈ table rows, cells ≠ [] := by
    rintro _ hmem rfl
    exact absurd (length_of_mem_table hmem) (by decide)
  have htexts := mapM_map_eq_some mapM_text?_bytesOf (table rows)
  rw [table?, document, Csv.strictRecords?_records _ _ hne fun _ => length_of_mem_table,
    Option.bind_some, htexts]

/-- A writer on an unlimited sink writes any rows, and then all of them are in the sink. -/
theorem Given.writeAll {w : Writer} {f : Format} {rows : List Row} (h : Given w f rows)
    (more : List Row) :
    (Writer.writeAll more w).1 = List.replicate (more.length + 1) none ∧
      (Writer.writeAll more w).2.sink.taken.toList = document f (rows ++ more) := by
  induction more generalizing w rows with
  | nil =>
    obtain ⟨hok, htaken⟩ := h.flush
    rw [List.append_nil, ← htaken]
    exact ⟨by simp [Writer.writeAll, hok], rfl⟩
  | cons r more ih =>
    obtain ⟨hok, hgiven⟩ := h.write r
    obtain ⟨hsteps, htaken⟩ := ih hgiven
    generalize hwrite : w.write r = result at hok hsteps htaken
    obtain ⟨e?, w'⟩ := result
    cases hok
    rw [Writer.writeAll, hwrite]
    exact ⟨by simp [hsteps, List.replicate_succ], by simpa using htaken⟩

/-- Whatever the keys and the outcomes are, a report on an unlimited sink is written without errors.
In comma-separated values it is empty if there are no rows, and otherwise its strict reading is the
names of the columns and the contents of the rows.  In JSON it has one line for each row, every line
is ended, none has an end of line inside, and each is the record of its row. -/
theorem written_rows_can_be_decoded (entries : List (CorrelationKey × Option Outcome)) :
    let rows := entries.map fun p => Row.ofOutcome p.1 p.2
    let written (f : Format) := Writer.writeAll rows { format := f }
    (∀ f, (written f).1 = List.replicate (rows.length + 1) none) ∧
    (rows = [] → (written .csv).2.sink.taken = #[]) ∧
    (rows ≠ [] → table? (written .csv).2.sink.taken.toList
      = some (["key", "status", "detail"] :: rows.map fun r => [r.key, r.status, r.detail])) ∧
    ∃ lines : List (List Char),
      Text.decode (written .json).2.sink.taken.toList
        = .ok (lines.flatMap fun line => line ++ ['\n']) ∧
      (∀ line ∈ lines, '\n' ∉ line ∧ '\r' ∉ line) ∧
      lines.map Json.textRecord?
        = rows.map fun r => some [("key", r.key), ("status", r.status), ("detail", r.detail)] := by
  intro rows written
  have hwritten (f : Format) := (Given.init f).writeAll rows
  refine ⟨fun f => (hwritten f).1, fun hempty => ?_, fun hne => ?_, rows.map line, ?_, ?_, ?_⟩
  · refine Array.toList_inj.1 ?_
    rw [(hwritten .csv).2, List.nil_append, hempty]
    rfl
  · -- the names stand above the rows, since there are some
    rw [(hwritten .csv).2, List.nil_append, table?_document, table, List.isEmpty_eq_false_iff.2 hne]
    rfl
  · rw [(hwritten .json).2, List.nil_append, document_json, Text.decode_encode,
      List.flatMap_map (f := line) (g := fun line => line ++ ['\n'])]
  · -- the ends of lines in a key or a detail are escaped
    intro l hl
    obtain ⟨r, -, rfl⟩ := List.mem_map.1 hl
    exact ⟨Json.not_mem_textRecord _ (by decide), Json.not_mem_textRecord _ (by decide)⟩
  · rw [List.map_map]
    exact List.map_congr_left fun r _ => Json.textRecord?_textRecord _

end Rendezvous.Report
