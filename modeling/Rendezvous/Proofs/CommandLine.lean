import Mathlib.Data.List.Induction
import Rendezvous.CommandLine.Inquiries
import Rendezvous.Proofs.Clocks
import Rendezvous.Proofs.Complaints
import Rendezvous.Proofs.Reports

/-!
# Every readable key is reported exactly once

Submitting never fails while the bus is open, and nothing closes it, so the keys to be reported are
those of the readable records, each where it first came up, and every other record is complained
about once.  The report then has one row for each of these keys, whatever their inquiries come to.

* `Submission.entered`: what submitting the records of a file comes to;
* `report_of_inquiries`: the report has the rows of all inquiries;
* `inquiries_in_time`: a timeout that leaves room for all inquiries leaves every deadline in time;
* `each_readable_key_is_reported_once`: the program reports every readable key exactly once.
-/

namespace Rendezvous.CommandLine

/-! ## Keys -/

/-- Noting keys one after the other keeps each where it first came up. -/
theorem foldl_noteKey (keys : List CorrelationKey) : keys.foldl noteKey [] = keys.eraseDups := by
  -- the keys are noted from the first one on, so the induction is on the last one
  induction keys using List.reverseRecOn with
  | nil => rfl
  | append_singleton keys key ih =>
    rw [List.foldl_append, ih, List.eraseDups_append]
    by_cases hkey : key ∈ keys
    · simp [noteKey, hkey, List.removeAll]
    · simp [noteKey, hkey, List.removeAll, List.eraseDups_cons]

/-- No key is noted twice. -/
theorem nodup_eraseDups (keys : List CorrelationKey) : keys.eraseDups.Nodup := by
  induction keys using List.reverseRecOn with
  | nil => exact List.nodup_nil
  | append_singleton keys key ih =>
    rw [← foldl_noteKey, List.foldl_append, foldl_noteKey]
    by_cases hkey : key ∈ keys
    · simpa [noteKey, hkey] using ih
    · have hother : ∀ other ∈ keys, other ≠ key := fun other hmem heq => hkey (heq ▸ hmem)
      simpa [noteKey, hkey, List.nodup_append, ih] using hother

/-! ## Submitting -/

/-- What is said of a record that is no request. -/
def complaint (e : Csv.ReadError) : String := "Error reading request: " ++ e.message

section Records

variable (records : List (Except Csv.ReadError DataRequest))

theorem readable_append_ok (r : DataRequest) :
    readable (records ++ [.ok r]) = readable records ++ [r] := by
  simp [readable, Except.toOption]

theorem readable_append_error (e : Csv.ReadError) :
    readable (records ++ [.error e]) = readable records := by
  simp [readable, List.filterMap_cons, Except.toOption]

theorem unreadable_append_ok (r : DataRequest) :
    unreadable (records ++ [.ok r]) = unreadable records := by
  simp [unreadable]

theorem unreadable_append_error (e : Csv.ReadError) :
    unreadable (records ++ [.error e]) = unreadable records ++ [e] := by
  simp [unreadable]

end Records

namespace Submission

variable {s : Submission} {start : Nat} {records : List (Except Csv.ReadError DataRequest)}

/-- What has come of some records of a file. -/
structure Entered (s : Submission) (start : Nat)
    (records : List (Except Csv.ReadError DataRequest)) : Prop where
  isOpen : s.host.engine.bus.isOpen
  now : s.host.now = start
  keys : s.keys = ((readable records).map DataRequest.key).foldl noteKey []
  complaints : s.complaints = (unreadable records).map complaint

/-- A record that is no request is complained about. -/
theorem Entered.enter_error (h : s.Entered start records) (e : Csv.ReadError) :
    (s.enter (.error e)).Entered start (records ++ [.error e]) where
  isOpen := h.isOpen
  now := h.now
  keys := by
    rw [readable_append_error]
    exact h.keys
  complaints := by
    rw [unreadable_append_error, List.map_append, ← h.complaints]
    rfl

/-- A request is submitted. -/
theorem Entered.enter_ok (h : s.Entered start records) (r : DataRequest) :
    (s.enter (.ok r)).Entered start (records ++ [.ok r]) := by
  have hrefusal : s.host.engine.bus.refusal? = none := by simp [Bus.refusal?, h.isOpen]
  have henter : s.enter (.ok r) =
      { s with
        host := s.host.apply fun e => e.publish (.ofRequest r)
        keys := noteKey s.keys r.key } := by
    simp only [Submission.enter, Adapter.submit, hrefusal]
  rw [henter]
  refine ⟨?_, ?_, ?_, ?_⟩
  · simp [Host.engine_apply, Bus.publish, h.isOpen]
  · exact (Host.now_apply s.host fun e => (e.publish_frame _).1).trans h.now
  · rw [readable_append_ok, List.map_append, List.foldl_append, ← h.keys]
    rfl
  · rw [unreadable_append_ok]
    exact h.complaints

/-- What submitting the records of a file comes to. -/
theorem entered {host : Host Loopback} (hopen : host.engine.bus.isOpen)
    (records : List (Except Csv.ReadError DataRequest)) :
    (records.foldl Submission.enter { host }).Entered host.now records := by
  induction records using List.reverseRecOn with
  | nil => exact ⟨hopen, rfl, rfl, rfl⟩
  | append_singleton records record ih =>
    rw [List.foldl_append]
    cases record with
    | error e => exact ih.enter_error e
    | ok r => exact ih.enter_ok r

end Submission

/-! ## Reporting -/

theorem report_of_inquiries {span : Nat} {keys : List CorrelationKey} {host : Host Loopback}
    {w : Report.Writer} {f : Report.Format} {rows : List Report.Row}
    (htime : ∀ i ∈ inquire span keys host, (deadline? i.begun span).isSome)
    (hw : Report.Given w f rows) :
    ∃ w', report span keys host w = some w' ∧
      w'.sink.taken.toList
        = Report.document f (rows ++ (inquire span keys host).map Inquiry.row) ∧
      (inquire span keys host).map Inquiry.key = keys := by
  induction keys generalizing host w rows with
  | nil => exact ⟨w.flush.2, rfl, by simpa [inquire] using hw.flush.2, rfl⟩
  | cons key keys ih =>
    cases hwait : host.waitFor key span with
    | none =>
      -- then this inquiry has no deadline, against the assumption
      have hlate : deadline? host.now span = none := Option.map_eq_none_iff.1 hwait
      simp [inquire, hwait, hlate] at htime
    | some p =>
      obtain ⟨o?, later⟩ := p
      simp only [inquire, hwait, List.forall_mem_cons] at htime ⊢
      obtain ⟨w', hreport, htaken, hkeys⟩ := ih htime.2 (hw.write (.ofOutcome key o?)).2
      refine ⟨w', ?_, ?_, by simp [hkeys]⟩
      · simp only [report, hwait, hreport]
      · simpa [Inquiry.row] using htaken

/-- If there is room for one inquiry after the other, each of them is over in time. -/
theorem inquiries_in_time {span : Nat} {keys : List CorrelationKey} {host : Host Loopback}
    (hroom : (host.now + keys.length * span) / 1000 ≤ lastSecond) :
    ∀ i ∈ inquire span keys host, (deadline? i.begun span).isSome := by
  induction keys generalizing host with
  | nil => simp [inquire]
  | cons key keys ih =>
    have hlength : (key :: keys).length * span = span + keys.length * span := by
      rw [List.length_cons, Nat.succ_mul, Nat.add_comm]
    rw [hlength] at hroom
    have hfirst : (deadline? host.now span).isSome := by
      have hle : (host.now + span) / 1000 ≤ lastSecond :=
        Nat.le_trans (Nat.div_le_div_right (by omega)) hroom
      simp [deadline?, hle]
    cases hwait : host.waitFor key span with
    | none => simpa [inquire, hwait] using hfirst
    | some p =>
      obtain ⟨o?, later⟩ := p
      have hlater := Host.now_waitFor_le hwait
      simp only [inquire, hwait, List.forall_mem_cons]
      refine ⟨hfirst, ih (Nat.le_trans (Nat.div_le_div_right ?_) hroom)⟩
      omega

/-- A complaint is one line. -/
theorem oneLine_complaint {bytes : List UInt8} {e : Csv.ReadError}
    (he : e ∈ unreadable (Csv.requests { bytes })) :
    Csv.OneLine (complaint e) := by
  obtain ⟨record, hrecord, hmatch⟩ := List.mem_filterMap.1 he
  have herror : record = .error e := by
    cases record with
    | error e' => exact congrArg _ (Option.some.inj hmatch)
    | ok r => cases hmatch
  exact Csv.oneLine_append.2 ⟨by decide, Csv.oneLine_of_requests (herror ▸ hrecord)⟩

/-! ## Runs -/

/-- Settings that have been loaded can be started with. -/
theorem objection?_of_load {file? : Option Settings.SettingsFile}
    {environment : List (String × String)} {settings : Settings}
    (h : Settings.load file? environment = .ok settings) : settings.objection? = none := by
  obtain ⟨members, -, h⟩ := Csv.exists_ok_of_bind h
  obtain ⟨found, -, h⟩ := Csv.exists_ok_of_bind h
  split at h
  · cases h
  · rename_i hobjection
    cases h
    exact hobjection

/-- The host that runs an adapter with these settings from now on. -/
theorem exists_startLoopback {settings : Settings} (h : settings.objection? = none)
    (p : Loopback) : ∃ host, Adapter.startLoopback settings p = .ok host ∧
      host.engine.bus.isOpen ∧ host.now = 0 := by
  refine ⟨_, by rw [Adapter.startLoopback, Adapter.start, h], rfl, rfl⟩

/-- If the timeout leaves room for one inquiry after the other, each is over in time. -/
theorem inquiries_in_time_of_room (a : Args) (settings : Settings) (bytes : List UInt8)
    (hroom : ((readable (Csv.requests { bytes })).map DataRequest.key).eraseDups.length
      * a.timeoutSecs ≤ lastSecond) :
    ∀ i ∈ a.inquiries settings bytes, (deadline? i.begun (seconds a.timeoutSecs)).isSome := by
  unfold Args.inquiries
  cases hobjection : settings.objection? with
  | some objection => simp [Adapter.startLoopback, Adapter.start, hobjection]
  | none =>
    obtain ⟨host, hstart, hopen, hnow⟩ := exists_startLoopback hobjection a.provider
    have hentered := Submission.entered hopen (Csv.requests { bytes })
    simp only [hstart]
    refine inquiries_in_time ?_
    rw [hentered.now, hnow, hentered.keys, foldl_noteKey, seconds, Nat.zero_add, ← Nat.mul_assoc,
      Nat.mul_div_cancel _ (by decide)]
    exact hroom

variable {environment : List (String × String)} {read : String → Option (List UInt8)} {a : Args}
  {settings : Settings} {bytes : List UInt8}

/-- A run on a file. -/
theorem run_of_inquiries
    (hsettings : Settings.load (a.settingsFile? read) environment = .ok settings)
    (hbytes : read a.input = some bytes)
    (htime : ∀ i ∈ a.inquiries settings bytes,
      (deadline? i.begun (seconds a.timeoutSecs)).isSome) :
    run environment read a =
        { exit := 0
          output := Report.document a.format ((a.inquiries settings bytes).map Inquiry.row)
          complaints := (unreadable (Csv.requests { bytes })).map complaint } ∧
      (a.inquiries settings bytes).map Inquiry.key
        = ((readable (Csv.requests { bytes })).map DataRequest.key).eraseDups := by
  obtain ⟨host, hstart, hopen, -⟩ := exists_startLoopback (objection?_of_load hsettings) a.provider
  have hentered := Submission.entered hopen (Csv.requests { bytes })
  generalize hsubmitted : (Csv.requests { bytes }).foldl Submission.enter { host } = s at hentered
  have hinquiries : a.inquiries settings bytes
      = inquire (seconds a.timeoutSecs) s.keys s.host := by
    simp only [Args.inquiries, hstart, hsubmitted]
  rw [hinquiries] at htime ⊢
  obtain ⟨w, hreport, htaken, hkeys⟩ := report_of_inquiries htime (.init a.format)
  have hrun : run environment read a = serve a host bytes := by
    have hload := hsettings
    unfold Args.settingsFile? at hload
    unfold run
    simp only [hload, hstart, hbytes]
  refine ⟨?_, ?_⟩
  · rw [hrun, serve, hsubmitted]
    simp only [hreport, htaken, List.nil_append, hentered.complaints]
  · rw [hkeys, hentered.keys, foldl_noteKey]

theorem Inquiry.key_row (i : Inquiry) : i.row.key = i.key.text := by
  obtain ⟨key, begun, outcome?⟩ := i
  cases outcome? with
  | none => rfl
  | some o => cases o <;> rfl

/-- The rows of inquiries are about the keys of these inquiries. -/
theorem key_rows (inquiries : List Inquiry) :
    (inquiries.map Inquiry.row).map Report.Row.key
      = (inquiries.map Inquiry.key).map CorrelationKey.text := by
  rw [List.map_map, List.map_map]
  exact List.map_congr_left fun i _ => i.key_row

/-- If each deadline lies in time, the program ends well; its output is a report with one row for
each key of a readable record, in the order in which the keys first come up, and with no other row;
each row says what the inquiry after its key came to; and every other record is complained about in
one line. -/
theorem each_readable_key_is_reported_once
    (environment : List (String × String)) (read : String → Option (List UInt8))
    (args : List String) {a : Args} {settings : Settings} {bytes : List UInt8}
    (hargs : parse environment args = .ok (.run a))
    (hsettings : Settings.load (a.settingsFile? read) environment = .ok settings)
    (hbytes : read a.input = some bytes)
    (htime : ∀ i ∈ a.inquiries settings bytes,
      (deadline? i.begun (seconds a.timeoutSecs)).isSome) :
    let result := perform environment read args
    let records := Csv.requests { bytes }
    let keys := ((readable records).map DataRequest.key).eraseDups
    result.exit = 0 ∧ keys.Nodup ∧
      (∃ rows, Report.read a.format result.output = some rows ∧
        rows.map Report.Row.key = keys.map CorrelationKey.text ∧
        rows = (a.inquiries settings bytes).map Inquiry.row) ∧
      (a.inquiries settings bytes).map Inquiry.key = keys ∧
      result.complaints
        = (unreadable records).map (fun e => "Error reading request: " ++ e.message) ∧
      ∀ text ∈ result.complaints, '\n' ∉ text.toList := by
  intro result records keys
  have hperform : result = run environment read a := by
    simp only [result, perform, hargs]
  obtain ⟨hrun, hkeys⟩ := run_of_inquiries hsettings hbytes htime
  have hrows : ((a.inquiries settings bytes).map Inquiry.row).map Report.Row.key
      = keys.map CorrelationKey.text :=
    (key_rows _).trans (congrArg (List.map CorrelationKey.text) hkeys)
  rw [hperform, hrun]
  refine ⟨rfl, nodup_eraseDups _, ⟨_, Report.read_document _ _, hrows, rfl⟩, hkeys, rfl, ?_⟩
  intro text htext
  obtain ⟨e, he, rfl⟩ := List.mem_map.1 htext
  exact oneLine_complaint he

/-- A file with a record that is no request and a key that comes up twice. -/
theorem each_readable_key_is_reported_once_of_mixed_file :
    let file := Text.encode "key,asset,provider\nk1,a1,p\nk2,a2\nk3,a3,p\nk1,a4,p\n".toList
    let read := fun path : String => if path = "requests.csv" then some file else none
    let args := ["requests.csv", "--silent", "a3", "--format", "json"]
    let a : Args := { input := "requests.csv", silent := ["a3"], format := .json }
    let result := perform [] read args
    parse [] args = .ok (.run a) ∧
      Settings.load (a.settingsFile? read) [] = .ok {} ∧
      read a.input = some file ∧
      (∀ i ∈ a.inquiries {} file, (deadline? i.begun (seconds a.timeoutSecs)).isSome) ∧
      result.exit = 0 ∧
      (∃ rows, Report.read .json result.output = some rows ∧
        rows.map Report.Row.key = ["k1", "k3"]) ∧
      result.complaints.length = 1 := by
  intro file read args a result
  have hargs : parse [] args = .ok (.run a) := rfl
  have hsettings : Settings.load (a.settingsFile? read) [] = .ok {} := rfl
  have hbytes : read a.input = some file := rfl
  have hkeys : ((readable (Csv.requests { bytes := file })).map DataRequest.key).eraseDups
      = [⟨"k1"⟩, ⟨"k3"⟩] := by
    decide
  have hrefused : (unreadable (Csv.requests { bytes := file })).length = 1 := by decide
  have htime := inquiries_in_time_of_room a {} file (by rw [hkeys]; decide)
  obtain ⟨hexit, -, ⟨rows, houtput, hrows, -⟩, -, hcomplaints, -⟩ :=
    each_readable_key_is_reported_once [] read args hargs hsettings hbytes htime
  refine ⟨hargs, hsettings, hbytes, htime, hexit, ⟨rows, houtput, ?_⟩, ?_⟩
  · rw [hrows, hkeys]
    rfl
  · rw [hcomplaints, List.length_map, hrefused]

end Rendezvous.CommandLine
