import Rendezvous.Csv.Pull
import Rendezvous.Proofs.Columns
import Rendezvous.Proofs.Scanning

/-!
# Sources that break

A stream of requests reads on through the records that a source still has, so it ends after the last
of them, with the break of the source if there was one.  The names are looked for before anything
else: a break that is met while they are read is not told.

* `yields_requests`, `Yields.unique`: what a stream yields before it ends;
* `yields_nothing_of_broken`: a source that breaks before the end of its first record;
* `break_is_told_last`: a source that breaks after it.
-/

namespace Rendezvous.Csv

namespace Cursor

variable {c : Cursor} {s : Scan}

/-- The records that a cursor still has before it. -/
def remaining (c : Cursor) : List Record :=
  if c.ended then [] else
    match c.broken? with
    | none => (c.rest.foldl Scan.step c.scan).finish
    | some _ => (c.rest.foldl Scan.step c.scan).complete

/-- The break that a cursor still has before it, if there is one. -/
def pending (c : Cursor) : List (Except ReadError DataRequest) :=
  if c.ended then [] else c.broken?.toList.map fun text => .error (.source text)

/-- What a look comes to if these records and perhaps a break are still to come: the first record,
else the break, else nothing. -/
inductive Looks (records : List Record) (breaks : List (Except ReadError DataRequest)) :
    Finding × Cursor → Prop
  | record {r : Record} {c : Cursor} (hrecords : records = r :: c.remaining)
      (hbreaks : breaks = c.pending) (htaken : c.scan.records = []) :
      Looks records breaks (.record r, c)
  | broken {text : String} {c : Cursor} (hrecords : records = [])
      (hbreaks : breaks = [.error (.source text)]) (hended : c.ended = true) :
      Looks records breaks (.broken text, c)
  | nothing {c : Cursor} (hrecords : records = []) (hbreaks : breaks = [])
      (hended : c.ended = true) : Looks records breaks (.nothing, c)

theorem looks_atEnd {c : Cursor} (hrest : c.rest = []) (hended : c.ended = false)
    (htaken : c.scan.records = []) :
    Looks c.remaining c.pending (atEnd c.broken? c.scan, { c with ended := true }) := by
  obtain ⟨s, rest, broken?, ended⟩ := c
  subst hrest hended
  cases broken? with
  | some text => exact .broken (by simpa [remaining, Scan.complete] using htaken) rfl rfl
  | none =>
    unfold atEnd
    cases hmode : s.mode with
    | between =>
      refine .nothing ?_ rfl rfl
      simpa [remaining, Scan.finish, Scan.complete, hmode] using htaken
    | _ =>
      refine .record ?_ rfl htaken
      simpa [remaining, Scan.finish, Scan.complete, Scan.endRecord, hmode] using htaken

theorem looks_seekFrom (broken? : Option String) (htaken : s.records = []) (bs : List UInt8) :
    let c : Cursor := { scan := s, rest := bs, broken? }
    Looks c.remaining c.pending (seekFrom broken? s bs) := by
  induction bs generalizing s with
  | nil => exact looks_atEnd rfl rfl htaken
  | cons b bs ih =>
    unfold seekFrom
    split
    · -- the byte ends no record, so there is as much to come as before it
      exact ih ‹_›
    · rename_i r rs hsome
      -- the byte has ended one record, and nothing else was finished before
      have hone : (s.step b).records = [r] := by
        rcases s.step_cases b with hend | ⟨-, hrecords⟩
        · have hpresent : (s.step b).records = (s.count b).present :: s.records := by
            rw [hend]
            rfl
          rw [htaken] at hpresent
          rw [hsome] at hpresent ⊢
          rw [(List.cons.inj hpresent).2]
        · rw [hsome, htaken] at hrecords
          cases hrecords
      have honto : s.step b = ({ s.step b with records := [] } : Scan).onto [r] := by
        rw [← hone]
        rfl
      refine .record ?_ rfl rfl
      cases broken? <;>
        simp only [remaining, List.foldl_cons, Bool.false_eq_true, if_false]
      · rw [honto, Scan.foldl_onto, Scan.finish_onto]
        rfl
      · rw [honto, Scan.foldl_onto, Scan.complete_onto]
        rfl

theorem looks_seek (c : Cursor) (htaken : c.scan.records = []) :
    Looks c.remaining c.pending c.seek := by
  obtain ⟨s, rest, broken?, ended⟩ := c
  cases ended with
  | true => exact .nothing rfl rfl rfl
  | false => exact looks_seekFrom broken? htaken rest

end Cursor

namespace Stream

variable {c : Cursor} {names? : Option (List String)}

/-- A stream yields its items in one way only. -/
theorem Yields.unique {st : Stream} {xs ys : List (Except ReadError DataRequest)}
    (hxs : Yields st xs) (hys : Yields st ys) : xs = ys := by
  induction hxs generalizing ys with
  | ended hnone =>
    cases hys with
    | ended => rfl
    | item hsome => cases hnone.symm.trans hsome
  | item hsome _ ih =>
    cases hys with
    | ended hnone => cases hnone.symm.trans hsome
    | item hsome' hrest =>
      cases hsome.symm.trans hsome'
      rw [ih hrest]

/-- After the end or the break of its source a stream has ended. -/
theorem yields_of_ended (hended : c.ended = true) : Yields { cursor := c, names? } [] :=
  .ended (by simp [next?, Cursor.seek, hended])

/-- A stream yields what can be read from the records to come, and then the break. -/
theorem yields_of_cursor (names? : Option (List String)) (htaken : c.scan.records = []) :
    Yields { cursor := c, names? } (c.remaining.map (Record.request names?) ++ c.pending) := by
  -- each record that is found leaves one less, so the induction is on those to come
  generalize hremaining : c.remaining = records
  induction records generalizing c with
  | nil =>
    have hlooks := c.looks_seek htaken
    rw [hremaining] at hlooks
    generalize hseek : c.seek = found at hlooks
    cases hlooks with
    | record hrecords => cases hrecords
    | broken _ hbreaks hended =>
      rw [hbreaks]
      exact .item (by rw [next?, hseek]) (yields_of_ended hended)
    | nothing _ hbreaks _ =>
      rw [hbreaks]
      exact .ended (by rw [next?, hseek])
  | cons r records ih =>
    have hlooks := c.looks_seek htaken
    rw [hremaining] at hlooks
    generalize hseek : c.seek = found at hlooks
    cases hlooks with
    | record hrecords hbreaks htaken =>
      obtain ⟨rfl, hrest⟩ := List.cons.inj hrecords
      rw [hbreaks]
      exact .item (by rw [next?, hseek]) (ih htaken hrest.symm)
    | broken hrecords => cases hrecords
    | nothing hrecords => cases hrecords

/-- Reading the requests of a source one at a time yields all of them and ends. -/
theorem yields_requests (s : Source) : Yields (opened s) (requests s) := by
  have hinit : Cursor.init s =
      { scan := (afterMark s.bytes).1
        rest := (afterMark s.bytes).2
        broken? := s.broken? } := rfl
  have htaken : (Cursor.init s).scan.records = [] := by
    rw [hinit, afterMark_eq]
    split <;> rfl
  have hremaining : (Cursor.init s).remaining = s.records := by
    rw [hinit, Cursor.remaining, Source.records, scan]
    cases s.broken? <;> rfl
  -- the first look takes the names, and what is left is read as by any cursor
  have hlooks := (Cursor.init s).looks_seek htaken
  rw [hremaining] at hlooks
  rw [requests_eq, opened]
  generalize (Cursor.init s).seek = found at hlooks
  cases hlooks with
  | @record header _ hrecords hbreaks htaken =>
    rw [hrecords]
    have hyields := yields_of_cursor header.names? htaken
    rwa [← hbreaks] at hyields
  | broken hrecords _ hended =>
    rw [hrecords]
    exact yields_of_ended hended
  | nothing hrecords _ hended =>
    rw [hrecords]
    exact yields_of_ended hended

end Stream

/-! ## Breaks -/

/-- Only a source that breaks gives an error about itself. -/
theorem source_not_mem_requests (bytes : List UInt8) (text : String) :
    .error (.source text) ∉ requests { bytes } := by
  intro hmem
  rw [requests_eq] at hmem
  cases hrecords : Source.records { bytes } with
  | nil => simp [hrecords] at hmem
  | cons header rows =>
    simp only [hrecords, Option.toList_none, List.map_nil, List.append_nil] at hmem
    obtain ⟨row, -, hrequest⟩ := List.mem_map.1 hmem
    exact (Record.isOwn_request hrequest).elim

/-- A source that breaks after its first record has the requests of the records that were ended by
then, and after them the break. -/
theorem requests_of_broken {bytes ended : List UInt8} (text : String)
    (hheader : (scan bytes).complete ≠ []) (hended : Ended ended)
    (hcomplete : (scan ended).complete = (scan bytes).complete) :
    requests { bytes, broken? := some text }
      = requests { bytes := ended } ++ [.error (.source text)] := by
  have hfinish : (scan ended).finish = (scan bytes).complete := by
    rw [Scan.finish, hended, hcomplete]
  obtain ⟨header, rows, hrecords⟩ := List.exists_cons_of_ne_nil hheader
  simp [requests_eq, Source.records, hfinish, hrecords]

/-- A source that breaks before the end of its first record yields nothing, not even the break. -/
theorem yields_nothing_of_broken {bytes : List UInt8} (text : String)
    (hheader : (scan bytes).complete = []) :
    (Stream.opened { bytes, broken? := some text }).Yields [] := by
  have hyields := Stream.yields_requests { bytes, broken? := some text }
  rwa [requests_eq, Source.records, hheader] at hyields

/-- If a source breaks after its first record, the stream of its requests ends; its last item is
the break and no other item is; and the items before it are the requests of the records that have
been ended up to the break. -/
theorem break_is_told_last (bytes : List UInt8) (text : String)
    (hheader : (scan bytes).complete ≠ []) :
    ∃ ended cut, bytes = ended ++ cut ∧ Ended ended ∧
      (∀ more, more ≠ [] → more <+: cut → ¬ Ended (ended ++ more)) ∧
      (Stream.opened { bytes, broken? := some text }).Yields
        (requests { bytes := ended } ++ [.error (.source text)]) ∧
      ∀ text', .error (.source text') ∉ requests { bytes := ended } := by
  obtain ⟨ended, cut, hbytes, hended, hcomplete, hcut⟩ := exists_ended bytes
  have hyields := Stream.yields_requests { bytes, broken? := some text }
  rw [requests_of_broken text hheader hended hcomplete] at hyields
  exact ⟨ended, cut, hbytes, hended, hcut, hyields, source_not_mem_requests ended⟩

/-- A source that breaks between two quotes in its third record. -/
theorem break_is_told_last_of_open_quote :
    let bytes := Text.encode "key,asset,provider\nk1,a1,p\n\nk2,\"a\n".toList
    (scan bytes).complete ≠ [] ∧
      requests { bytes, broken? := some "source broke" }
        = [.ok { key := ⟨"k1"⟩, asset := ⟨"a1"⟩, provider := "p" },
          .error (.source "source broke")] ∧
      ∃ ended cut, bytes = ended ++ cut ∧ Ended ended ∧
        (Stream.opened { bytes, broken? := some "source broke" }).Yields
          (requests { bytes := ended } ++ [.error (.source "source broke")]) := by
  intro bytes
  have hheader : (scan bytes).complete ≠ [] := by decide
  obtain ⟨ended, cut, hbytes, hended, -, hyields, -⟩ :=
    break_is_told_last bytes "source broke" hheader
  exact ⟨hheader, rfl, ended, cut, hbytes, hended, hyields⟩

/-- A break among the names is not told. -/
theorem break_in_names_is_not_told :
    let s : Source :=
      { bytes := Text.encode "key,asset,prov".toList, broken? := some "source broke" }
    (Stream.opened s).Yields [] ∧
      ¬ ∃ items, (Stream.opened s).Yields (items ++ [.error (.source "source broke")]) := by
  intro s
  have hnothing : (Stream.opened s).Yields [] := yields_nothing_of_broken "source broke" (by decide)
  refine ⟨hnothing, ?_⟩
  rintro ⟨items, hyields⟩
  simpa using hnothing.unique hyields

end Rendezvous.Csv
