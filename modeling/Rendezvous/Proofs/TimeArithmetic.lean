import Rendezvous.Proofs.Arguments
import Rendezvous.Proofs.CommandLine
import Rendezvous.Proofs.Layers
import Rendezvous.Time.Clock

/-!
# Times that fit

A reading of a clock and a span of time have bounds, and the settings and the command line take any
number of 64 bits.  The age of something always fits in a span, a sweep or a callback that would
come too late is put off to a far instant, and only the deadline of a caller can be missing.

* `Instant.since?_eq`, `Instant.add?_eq`: when the operations have a value, and which;
* `Admitted.computes`: what is computed from admitted settings, whatever the clock reads;
* `Admitted.counts`: the milliseconds that an engine counts agree with that;
* `exit_eq_beyondTime_iff`: when a run breaks off;
* `only_deadlines_leave_time`: all of it together.
-/

namespace Rendezvous.Clock

open Settings (largest)

theorem mod_mul_perMilli_lt (n : Nat) : n % 1000 * perMilli < perSecond := by
  simp only [perMilli, perSecond]
  omega

/-! ## Spans -/

namespace Span

variable {d d' : Span} {n : Nat}

theorem make?_eq (secs : Int) (nanos : Nat) (hlow : 0 ≤ secs) (hhigh : secs ≤ largest)
    (hnanos : nanos < perSecond) :
    ∃ d, make? secs nanos = some d ∧ (d.total : Int) = secs * perSecond + nanos := by
  refine ⟨_, dif_pos ⟨⟨hlow, hhigh⟩, hnanos⟩, ?_⟩
  simp only [total, perSecond]
  omega

theorem ofSeconds?_eq (h : n ≤ largest) :
    ∃ d, ofSeconds? n = some d ∧ d.total = n * perSecond := by
  obtain ⟨d, hd, htotal⟩ := make?_eq n 0 (by omega) (by omega) (by decide)
  refine ⟨d, hd, ?_⟩
  simp only [perSecond] at htotal ⊢
  omega

theorem ofMillis?_eq (h : n ≤ largest) :
    ∃ d, ofMillis? n = some d ∧ d.total = n * perMilli := by
  obtain ⟨d, hd, htotal⟩ := make?_eq (n / 1000 : Nat) (n % 1000 * perMilli) (by omega) (by omega)
    (mod_mul_perMilli_lt n)
  refine ⟨d, hd, ?_⟩
  simp only [perSecond, perMilli] at htotal ⊢
  omega

/-- Spans are compared by their totals. -/
theorem isShorter_iff : d.isShorter d' ↔ d.total < d'.total := by
  have hnanos := d.nanos_lt
  have hnanos' := d'.nanos_lt
  simp only [isShorter, total, perSecond, Bool.or_eq_true, Bool.and_eq_true,
    decide_eq_true_eq] at *
  omega

end Span

/-! ## Instants -/

namespace Instant

variable {t t' : Instant} {d : Span} {n : Nat}

theorem total_le_last (t : Instant) : t.total ≤ last := by
  have hsecs := t.secs_le
  have hnanos := t.nanos_lt
  simp only [total, last, perSecond] at *
  omega

theorem make?_eq (secs : Int) (nanos : Nat) (hlow : -(lastSecond : Int) - 1 ≤ secs)
    (hhigh : secs ≤ lastSecond) (hnanos : nanos < perSecond) :
    ∃ t, make? secs nanos = some t ∧ t.total = secs * perSecond + nanos :=
  ⟨_, dif_pos ⟨⟨hlow, hhigh⟩, hnanos⟩, rfl⟩

theorem make?_eq_none {secs : Int} {nanos : Nat} (h : lastSecond < secs) :
    make? secs nanos = none :=
  dif_neg fun hmake => by omega

/-- Instants are compared by their totals. -/
theorem isBefore_iff : t.isBefore t' ↔ t.total < t'.total := by
  have hnanos := t.nanos_lt
  have hnanos' := t'.nanos_lt
  simp only [isBefore, total, perSecond, Bool.or_eq_true, Bool.and_eq_true,
    decide_eq_true_eq] at *
  omega

/-- The time between two readings of a clock fits in a span, since the seconds of a span have no
sign. -/
theorem since?_eq (now t : Instant) :
    ∃ d, now.since? t = some d ∧ d.total = (now.total - t.total).toNat := by
  have hnanos := t.nanos_lt
  have hnanos' := now.nanos_lt
  have hlow := t.le_secs
  have hhigh := now.secs_le
  -- from the first second to the last one are just as many seconds as a span can have
  have hrange : (lastSecond : Int) + lastSecond + 1 ≤ largest := by decide
  unfold since?
  -- an instant still to come, and one in the past without and with a second borrowed
  split_ifs with hbefore hborrow
  · obtain ⟨d, hd, htotal⟩ := Span.make?_eq 0 0 (by omega) (by omega) (by decide)
    rw [isBefore_iff] at hbefore
    exact ⟨d, hd, by omega⟩
  · have hafter : t.total ≤ now.total := Int.not_lt.1 (mt isBefore_iff.2 hbefore)
    simp only [total, perSecond] at hafter hnanos hnanos' ⊢
    obtain ⟨d, hd, htotal⟩ := Span.make?_eq (now.secs - t.secs) (now.nanos - t.nanos) (by omega)
      (by omega) (by simp only [perSecond]; omega)
    simp only [perSecond] at htotal
    exact ⟨d, hd, by omega⟩
  · have hafter : t.total ≤ now.total := Int.not_lt.1 (mt isBefore_iff.2 hbefore)
    simp only [total, perSecond] at hafter hnanos hnanos' ⊢
    obtain ⟨d, hd, htotal⟩ := Span.make?_eq (now.secs - t.secs - 1)
      (now.nanos + perSecond - t.nanos) (by omega) (by omega) (by simp only [perSecond]; omega)
    simp only [perSecond] at htotal hd
    exact ⟨d, hd, by omega⟩

/-- A sum is an instant unless it lies beyond the last one. -/
theorem add?_eq (t : Instant) (d : Span) :
    (∃ u, t.add? d = some u ∧ u.total = t.total + d.total ∧ t.total + d.total ≤ last) ∨
      t.add? d = none ∧ last < t.total + d.total := by
  have hnanos := t.nanos_lt
  have hnanos' := d.nanos_lt
  have hlow := t.le_secs
  -- the carry is all that the nanoseconds can add to the seconds
  obtain ⟨secs, nanos, hadd, hlt, htotal⟩ : ∃ secs nanos, t.add? d = make? secs nanos ∧
      nanos < perSecond ∧ t.total + d.total = secs * perSecond + nanos := by
    unfold add?
    split_ifs with hcarry
    · refine ⟨_, _, rfl, hcarry, ?_⟩
      simp only [total, Span.total, perSecond]
      omega
    · refine ⟨_, _, rfl, by omega, ?_⟩
      simp only [total, Span.total, perSecond] at *
      omega
  rw [hadd, htotal]
  simp only [total, Span.total, perSecond] at htotal hlt hnanos hnanos'
  by_cases hlast : secs ≤ lastSecond
  · obtain ⟨u, hu, hutotal⟩ := make?_eq secs nanos (by omega) hlast hlt
    refine .inl ⟨u, hu, hutotal, ?_⟩
    simp only [last, perSecond]
    omega
  · refine .inr ⟨make?_eq_none (by omega), ?_⟩
    simp only [last, perSecond]
    omega

theorem later_isAfter (t far : Instant) (d : Span) : IsAfter far t d.total (t.later far d) := by
  unfold IsAfter later
  rcases t.add?_eq d with ⟨u, hu, htotal, hle⟩ | ⟨hnone, hlt⟩
  · rw [if_pos hle, hu]
    exact htotal
  · rw [if_neg (Int.not_le.2 hlt), hnone]
    rfl

theorem eq_of_total (h : t.total = t'.total) : t = t' := by
  obtain ⟨secs, nanos, _, _, hnanos⟩ := t
  obtain ⟨secs', nanos', _, _, hnanos'⟩ := t'
  simp only [total, perSecond] at h hnanos hnanos'
  obtain rfl : secs = secs' := by omega
  obtain rfl : nanos = nanos' := by omega
  rfl

end Instant

/-! ## What is computed with them -/

variable {s : Settings} {far : Instant}

namespace Admitted

theorem isOver?_eq (hs : Admitted s) (x : Aging) (now t : Instant) :
    x.isOver? s now t
      = some (decide (x.ttlSecs s * perSecond ≤ (now.total - t.total).toNat)) := by
  obtain ⟨ttl, httl, httlTotal⟩ := Span.ofSeconds?_eq (hs.ttlSecs_le x)
  obtain ⟨age, hage, hageTotal⟩ := now.since?_eq t
  have hshorter : age.isShorter ttl
      = decide ((now.total - t.total).toNat < x.ttlSecs s * perSecond) := by
    rw [← httlTotal, ← hageTotal, Bool.eq_iff_iff, decide_eq_true_iff]
    exact Span.isShorter_iff
  rw [Aging.isOver?, httl, Option.bind_eq_bind, Option.bind_some, hage]
  simp only [hshorter, Option.bind_some, ← decide_not, Nat.not_lt]
  rfl

theorem sweepIntervalMs_pos (hs : Admitted s) : 0 < s.sweepIntervalMs := by
  refine Nat.pos_of_ne_zero fun hzero => ?_
  have hobjection := Settings.objection?_isSome_iff.2 (.inl (.inr (.inl hzero)))
  rw [hs.valid] at hobjection
  cases hobjection

theorem firstSweep?_eq (hs : Admitted s) (now : Instant) : firstSweep? s now = some now := by
  obtain ⟨period, hperiod, htotal⟩ := Span.ofMillis?_eq hs.sweepIntervalMs_le
  have hpos : period.total ≠ 0 := by
    rw [htotal]
    exact Nat.mul_ne_zero (Nat.ne_of_gt hs.sweepIntervalMs_pos) (by decide)
  have hfirst : firstSweep? s now = if period.total = 0 then none else some now := by
    rw [firstSweep?, hperiod, Option.bind_eq_bind, Option.bind_some]
  rw [hfirst, if_neg hpos]

theorem nextSweep?_eq (hs : Admitted s) (far due now : Instant) :
    ∃ u, nextSweep? s far due now = some u ∧
      Instant.IsAfter far
        (if due.total + (tickTolerance * perMilli : Nat) < now.total then now else due)
        (s.sweepIntervalMs * perMilli) u := by
  obtain ⟨period, hperiod, htotal⟩ := Span.ofMillis?_eq hs.sweepIntervalMs_le
  obtain ⟨tolerance, htolerance, htoleranceTotal⟩ :=
    Span.ofMillis?_eq (n := tickTolerance) (by decide)
  obtain ⟨lateness, hlateness, hlatenessTotal⟩ := now.since?_eq due
  have hlate : tolerance.isShorter lateness
      ↔ due.total + (tickTolerance * perMilli : Nat) < now.total := by
    rw [Span.isShorter_iff, htoleranceTotal, hlatenessTotal]
    omega
  refine ⟨(if tolerance.isShorter lateness then now else due).later far period, ?_, ?_⟩
  · simp [nextSweep?, hperiod, htolerance, hlateness]
  · rw [← htotal]
    simp only [← hlate]
    exact Instant.later_isAfter _ _ _

end Admitted

theorem callback?_eq {latencyMs : Nat} (h : latencyMs ≤ largest) (far now : Instant) :
    ∃ u, callback? latencyMs far now = some u ∧
      Instant.IsAfter far now (latencyMs * perMilli) u := by
  obtain ⟨delay, hdelay, htotal⟩ := Span.ofMillis?_eq h
  refine ⟨now.later far delay, by simp [callback?, hdelay], ?_⟩
  rw [← htotal]
  exact Instant.later_isAfter _ _ _

/-- Every timeout is a span. -/
theorem Timeout.span?_eq {w : Timeout} (h : w.amount ≤ largest) :
    ∃ d, w.span? = some d ∧ d.total = w.inMillis * perMilli := by
  cases w with
  | seconds n =>
    obtain ⟨d, hd, htotal⟩ := Span.ofSeconds?_eq h
    refine ⟨d, hd, ?_⟩
    rw [htotal]
    show n * perSecond = n * 1000 * perMilli
    rw [Nat.mul_assoc]
    rfl
  | millis n => exact Span.ofMillis?_eq h

/-- A deadline is an instant unless it lies beyond the last one. -/
theorem Timeout.deadline?_eq {w : Timeout} (h : w.amount ≤ largest) (now : Instant) :
    (∃ u, w.deadline? now = some u ∧
        u.total = now.total + (w.inMillis * perMilli : Nat) ∧
        now.total + (w.inMillis * perMilli : Nat) ≤ Instant.last) ∨
      w.deadline? now = none ∧ Instant.last < now.total + (w.inMillis * perMilli : Nat) := by
  obtain ⟨d, hd, htotal⟩ := Timeout.span?_eq h
  rw [Timeout.deadline?, hd, Option.bind_some, ← htotal]
  exact now.add?_eq d

theorem Admitted.computes (hs : Admitted s) (far : Instant) : Computes s far where
  isOver := hs.isOver?_eq
  firstSweep := hs.firstSweep?_eq
  nextSweep := hs.nextSweep?_eq far
  callback _ h now := callback?_eq h far now
  deadline _ h now :=
    (Timeout.deadline?_eq h now).imp_left fun ⟨u, hu, htotal, _⟩ => ⟨u, hu, htotal⟩

/-! ## The milliseconds of an engine -/

namespace Instant.Shows

variable {t u : Instant} {n m : Nat}

theorem total_eq (h : t.Shows n) : t.total = (n * perMilli : Nat) := by
  unfold Shows ofMillis? make? at h
  split at h
  · obtain rfl := Option.some.inj h
    simp only [total, perSecond, perMilli]
    omega
  · cases h

theorem eq_of_total (h : t.Shows n) (htotal : u.total = (n * perMilli : Nat)) : u = t :=
  Instant.eq_of_total (htotal.trans h.total_eq.symm)

end Instant.Shows

namespace Instant

theorem le_last_iff (n : Nat) : ((n * perMilli : Nat) : Int) ≤ last ↔ n / 1000 ≤ lastSecond := by
  simp only [last, perSecond, perMilli]
  omega

/-- A clock can show every millisecond up to the last one. -/
theorem exists_shows {n : Nat} (h : n / 1000 ≤ lastSecond) : ∃ t : Instant, t.Shows n := by
  obtain ⟨t, ht, -⟩ := make?_eq (n / 1000 : Nat) (n % 1000 * perMilli) (by omega) (by omega)
    (mod_mul_perMilli_lt n)
  exact ⟨t, ht⟩

/-- A reading beyond the last instant is put off. -/
theorem eq_some_far {far t : Instant} {n : Nat} {o : Option Instant}
    (h : ∃ u, o = some u ∧ IsAfter far t n u) (hlast : last < t.total + n) : o = some far := by
  obtain ⟨u, rfl, hu⟩ := h
  rw [IsAfter, if_neg (Int.not_le.2 hlast)] at hu
  rw [hu]

theorem IsAfter.eq_of_shows {far t u v : Instant} {n m : Nat}
    (h : IsAfter far t (n * perMilli) v) (ht : t.Shows m) (hu : u.Shows (m + n)) : v = u := by
  have htotal : t.total + (n * perMilli : Nat) = u.total := by
    rw [ht.total_eq, hu.total_eq, Nat.add_mul, Int.natCast_add]
  rw [IsAfter, if_pos (htotal ▸ u.total_le_last)] at h
  exact Instant.eq_of_total (h.trans htotal)

end Instant

theorem Admitted.isOver?_shows (hs : Admitted s) (x : Aging) {t u : Instant} {now since : Nat}
    (ht : t.Shows now) (hu : u.Shows since) :
    x.isOver? s t u = some (decide (seconds (x.ttlSecs s) ≤ age now since)) := by
  have hiff : x.ttlSecs s * perSecond ≤ (t.total - u.total).toNat ↔
      seconds (x.ttlSecs s) ≤ age now since := by
    rw [ht.total_eq, hu.total_eq]
    simp only [seconds, age, perSecond, perMilli]
    omega
  rw [hs.isOver?_eq, decide_eq_decide.2 hiff]

/-- What is kept until it has reached an age is dropped when that is over. -/
theorem isNone_filter {α : Type} (a : α) (n ttl : Nat) :
    ((some a).filter fun _ => decide (n < ttl)).isNone = decide (ttl ≤ n) := by
  by_cases h : n < ttl
  · simp [Option.filter, h]
  · simp [Option.filter, h, Nat.le_of_not_lt h]

theorem Admitted.nextSweep?_shows (hs : Admitted s) (far : Instant) {k : Ticker}
    (hk : k.interval = s.sweepInterval) {now : Nat} {due t u : Instant} (hdue : due.Shows k.due)
    (ht : t.Shows now) (hu : u.Shows (k.next now)) : nextSweep? s far due t = some u := by
  obtain ⟨v, hv, hafter⟩ := hs.nextSweep?_eq far due t
  have hlate : due.total + (tickTolerance * perMilli : Nat) < t.total
      ↔ k.due + tickTolerance < now := by
    rw [hdue.total_eq, ht.total_eq]
    simp only [perMilli]
    omega
  -- both put the sweep off from the same instant
  simp only [hlate] at hafter
  rw [hv]
  rw [Ticker.next, hk] at hu
  split_ifs at hafter hu with h
  · exact congrArg some (hafter.eq_of_shows ht hu)
  · exact congrArg some (hafter.eq_of_shows hdue hu)

/-- A deadline in milliseconds is the deadline of the clock, and there is one for both or none. -/
theorem Timeout.deadline?_shows {w : Timeout} (h : w.amount ≤ largest) {now : Nat} {t : Instant}
    (ht : t.Shows now) :
    (Rendezvous.deadline? now w.inMillis).bind Instant.ofMillis? = w.deadline? t ∧
      (Rendezvous.deadline? now w.inMillis = none ↔ w.deadline? t = none) := by
  have htotal : t.total + (w.inMillis * perMilli : Nat)
      = ((now + w.inMillis) * perMilli : Nat) := by
    rw [ht.total_eq, Nat.add_mul, Int.natCast_add]
  rcases w.deadline?_eq h t with ⟨v, hv, hvTotal, hle⟩ | ⟨hnone, hlt⟩
  · rw [htotal] at hvTotal hle
    have hlast := (Instant.le_last_iff _).1 hle
    obtain ⟨u, hu⟩ := Instant.exists_shows hlast
    rw [hv, Rendezvous.deadline?, if_pos hlast]
    obtain rfl := hu.eq_of_total hvTotal
    exact ⟨hu, by simp⟩
  · rw [htotal] at hlt
    have hlast := mt (Instant.le_last_iff _).2 (Int.not_le.2 hlt)
    rw [hnone, Rendezvous.deadline?, if_neg hlast]
    simp

theorem Admitted.counts (hs : Admitted s) (far : Instant) : Counts s far where
  isExpired c _ _ _ ht hu := hs.isOver?_shows .liveCase ht hu
  isFresh x m hm now since _ _ ht hu := by
    rw [hs.isOver?_shows x ht hu]
    by_cases hfresh : age now since < m.ttl
    · simp [ExpiringMap.isFresh, ← hm, hfresh]
    · simp [ExpiringMap.isFresh, ← hm, hfresh, Nat.le_of_not_lt hfresh]
  purgeParked r n p now _ _ hp ht hu := by
    rw [hs.isOver?_shows .parked ht hu, Registry.purgeParked, Assoc.get?_keep, hp]
    exact congrArg some (isNone_filter _ _ _).symm
  purgeClosed r n since now _ _ hclosed ht hu := by
    rw [hs.isOver?_shows .closed ht hu, Registry.purgeClosed, Assoc.get?_keep, hclosed]
    exact congrArg some (isNone_filter _ _ _).symm
  nextSweep _ hk _ _ _ _ hdue ht hu := hs.nextSweep?_shows far hk hdue ht hu
  callback latencyMs h now t u ht hu := by
    obtain ⟨v, hv, hafter⟩ := callback?_eq h far t
    rw [hv, hafter.eq_of_shows ht hu]
  deadline _ h _ _ ht := Timeout.deadline?_shows h ht

/-! ## Runs -/

open CommandLine

theorem deadline?_eq_none_iff (now span : Nat) :
    Rendezvous.deadline? now span = none ↔
      Instant.last < ((now + span) * perMilli : Nat) := by
  rw [← Int.not_le, Instant.le_last_iff, Rendezvous.deadline?]
  split_ifs with h <;> simp [h]

/-- A report is not finished exactly if an inquiry has no deadline. -/
theorem report_eq_none_iff {span : Nat} {keys : List CorrelationKey} {host : Host Loopback}
    {w : Report.Writer} :
    report span keys host w = none ↔
      ∃ i ∈ inquire span keys host, Rendezvous.deadline? i.begun span = none := by
  induction keys generalizing host w with
  | nil => simp [report, inquire]
  | cons key keys ih =>
    cases hwait : host.waitFor key span with
    | none =>
      have hlate : Rendezvous.deadline? host.now span = none := Option.map_eq_none_iff.1 hwait
      simp [report, inquire, hwait, hlate]
    | some p =>
      obtain ⟨o?, later⟩ := p
      have htime : Rendezvous.deadline? host.now span ≠ none := fun hlate => by
        rw [Host.waitFor, hlate] at hwait
        cases hwait
      simp [report, inquire, hwait, htime, ih]

/-- A run breaks off exactly if an inquiry has no deadline. -/
theorem exit_eq_beyondTime_iff {environment : List (String × String)}
    {read : String → Option (List UInt8)} {args : List String} {a : Args} {bytes : List UInt8}
    (hargs : parse environment args = .ok (.run a))
    (hsettings : Settings.load (a.settingsFile? read) environment = .ok s)
    (hbytes : read a.input = some bytes) :
    (perform environment read args).exit = beyondTime ↔
      ∃ i ∈ a.inquiries s bytes, Rendezvous.deadline? i.begun (seconds a.timeoutSecs) = none := by
  obtain ⟨host, hstart, -, -⟩ := exists_startLoopback (objection?_of_load hsettings) a.provider
  have hrun : perform environment read args = serve a host bytes := by
    have hload := hsettings
    unfold Args.settingsFile? at hload
    simp only [perform, hargs, run, hload, hstart, hbytes]
  rw [hrun, Args.inquiries, hstart]
  simp only [← report_eq_none_iff (w := { format := a.format }), serve]
  cases report (seconds a.timeoutSecs) _ _ { format := a.format } with
  | none => simp
  | some w => simp [beyondTime]

/-- The times that an engine works with are computed without fail, whatever the settings, the
latency and the clock; only the deadline of a caller can lie beyond the last instant, and then a run
breaks off. -/
theorem only_deadlines_leave_time (hs : Admitted s) (far : Instant) :
    Computes s far ∧ Counts s far ∧
      ∀ (environment : List (String × String)) (read : String → Option (List UInt8))
        (args : List String) (a : Args) (bytes : List UInt8),
        parse environment args = .ok (.run a) →
        Settings.load (a.settingsFile? read) environment = .ok s → read a.input = some bytes →
        a.latencyMs ≤ largest ∧ a.timeoutSecs ≤ largest ∧
          ((perform environment read args).exit = beyondTime ↔
            ∃ i ∈ a.inquiries s bytes,
              Instant.last < ((i.begun + seconds a.timeoutSecs) * perMilli : Nat)) := by
  refine ⟨hs.computes far, hs.counts far, ?_⟩
  intro environment read args a bytes hargs hload hbytes
  obtain ⟨hlatency, htimeout⟩ := parse_bounded hargs
  refine ⟨hlatency, htimeout, ?_⟩
  simp only [exit_eq_beyondTime_iff hargs hload hbytes, deadline?_eq_none_iff]

/-- With the clock at its last instant: what has begun at the first one is over, sweeps and
callbacks are put off to the far instant, and nobody can wait any more.  A run that begins at the
zero of the clock does not break off. -/
theorem only_deadlines_leave_time_at_the_end :
    let first : Instant := ⟨-(lastSecond : Int) - 1, 0, by decide, by decide, by decide⟩
    let last : Instant := ⟨lastSecond, perSecond - 1, by decide, by decide, by decide⟩
    let file := Text.encode "key,asset,provider\nk1,a1,http://p\n".toList
    let read := fun path : String => if path = "requests.csv" then some file else none
    Aging.liveCase.isOver? {} last first = some true ∧
      nextSweep? {} first last last = some first ∧
      callback? largest first last = some first ∧
      (Timeout.seconds 1).deadline? last = none ∧
      (perform [] read ["requests.csv"]).exit ≠ beyondTime := by
  intro first last file read
  have hadmitted : Admitted {} := ⟨rfl, fun x => by cases x <;> decide, by decide⟩
  obtain ⟨⟨hover, -, hsweep, hcallback, hdeadline⟩, -, hrun⟩ :=
    only_deadlines_leave_time hadmitted first
  refine ⟨?_, ?_, ?_, ?_, ?_⟩
  · rw [hover]
    decide
  · exact Instant.eq_some_far (hsweep last last) (by decide)
  · exact Instant.eq_some_far (hcallback largest (Nat.le_refl _) last) (by decide)
  · rcases hdeadline (.seconds 1) (by decide) last with ⟨u, -, htotal⟩ | ⟨hnone, -⟩
    · have hlast := u.total_le_last
      rw [htotal] at hlast
      exact absurd hlast (by decide)
    · exact hnone
  · have hexit := (hrun [] read ["requests.csv"] { input := "requests.csv" } file rfl rfl rfl).2.2
    rw [Ne, hexit]
    decide +kernel

/-- Valid settings, a timeout that the command line takes, and a deadline that is no instant: the
run breaks off before anything is reported. -/
theorem longest_timeout_breaks_off :
    let file := Text.encode "key,asset,provider\nk1,a1,http://p\n".toList
    let read := fun path : String => if path = "requests.csv" then some file else none
    let args := ["requests.csv", "--timeout-secs", "18446744073709551615"]
    parse [] args = .ok (.run { input := "requests.csv", timeoutSecs := largest }) ∧
      Settings.load none [] = .ok {} ∧
      perform [] read args = { exit := beyondTime } := by
  refine ⟨rfl, rfl, ?_⟩
  decide +kernel

end Rendezvous.Clock
