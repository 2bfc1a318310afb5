import Rendezvous.Adapter
import Rendezvous.Settings.Convert

/-!
# Clocks

The clock of a machine counts seconds in 64 bits with a sign, and nanoseconds within a second.  A
span of time has 64 bits without a sign for its seconds.  A result that does not fit in does not
exist: the operations here have no value then, and a program that needs one breaks off.

* `Instant`, `Span`: a reading of a clock and a span of time;
* `Instant.since?`, `Instant.add?`, `Instant.later`: the operations on them;
* `Aging.isOver?`, `firstSweep?`, `nextSweep?`, `callback?`, `Timeout.deadline?`: what a program
  computes with them.
-/

namespace Rendezvous.Clock

open Settings (largest)

/-- How many nanoseconds make a second. -/
def perSecond : Nat := 1000000000

/-- How many nanoseconds make a millisecond. -/
def perMilli : Nat := 1000000

/-! ### Spans -/

/-- A span of time. -/
structure Span where
  secs : Nat
  nanos : Nat
  secs_le : secs ≤ largest
  nanos_lt : nanos < perSecond

namespace Span

/-- The span of so many seconds and nanoseconds, if there is one. -/
def make? (secs : Int) (nanos : Nat) : Option Span :=
  if h : (0 ≤ secs ∧ secs ≤ largest) ∧ nanos < perSecond then
    some ⟨secs.toNat, nanos, Int.toNat_le.2 h.1.2, h.2⟩
  else none

/-- A span in nanoseconds. -/
def total (d : Span) : Nat := d.secs * perSecond + d.nanos

def ofSeconds? (n : Nat) : Option Span := make? n 0

def ofMillis? (n : Nat) : Option Span := make? (n / 1000 : Nat) (n % 1000 * perMilli)

/-- Whether one span is shorter than another. -/
def isShorter (d d' : Span) : Bool := d.secs < d'.secs || (d.secs = d'.secs && d.nanos < d'.nanos)

end Span

/-! ### Instants -/

/-- A reading of the clock. -/
structure Instant where
  secs : Int
  nanos : Nat
  le_secs : -(lastSecond : Int) - 1 ≤ secs
  secs_le : secs ≤ lastSecond
  nanos_lt : nanos < perSecond

namespace Instant

/-- The reading with so many seconds and nanoseconds, if there is one. -/
def make? (secs : Int) (nanos : Nat) : Option Instant :=
  if h : (-(lastSecond : Int) - 1 ≤ secs ∧ secs ≤ lastSecond) ∧ nanos < perSecond then
    some ⟨secs, nanos, h.1.1, h.1.2, h.2⟩
  else none

/-- A reading in nanoseconds. -/
def total (t : Instant) : Int := t.secs * perSecond + t.nanos

/-- The last instant in nanoseconds. -/
def last : Int := lastSecond * perSecond + (perSecond - 1 : Nat)

/-- The reading so many milliseconds after the zero of the clock. -/
def ofMillis? (n : Nat) : Option Instant := make? (n / 1000 : Nat) (n % 1000 * perMilli)

/-- Whether one reading comes before another. -/
def isBefore (t t' : Instant) : Bool := t.secs < t'.secs || (t.secs = t'.secs && t.nanos < t'.nanos)

/-- How long before `now` the instant `t` was; zero for an instant still to come. -/
def since? (now t : Instant) : Option Span :=
  if now.isBefore t then Span.make? 0 0
  else if t.nanos ≤ now.nanos then Span.make? (now.secs - t.secs) (now.nanos - t.nanos)
  else Span.make? (now.secs - t.secs - 1) (now.nanos + perSecond - t.nanos)

/-- The instant a span after another. -/
def add? (t : Instant) (d : Span) : Option Instant :=
  if t.nanos + d.nanos < perSecond then make? (t.secs + d.secs) (t.nanos + d.nanos)
  else make? (t.secs + d.secs + 1) (t.nanos + d.nanos - perSecond)

/-- The instant a span after another, or some far instant. -/
def later (t far : Instant) (d : Span) : Instant := (t.add? d).getD far

end Instant

/-! ### Computations -/

/-- What is over when it has reached an age. -/
inductive Aging
  | liveCase
  | outcome
  | offer
  /-- An early confirmation. -/
  | parked
  /-- The memory of a closed negotiation. -/
  | closed
deriving DecidableEq, Repr

/-- The age at which it is over. -/
def Aging.ttlSecs (s : Settings) : Aging → Nat
  | .liveCase | .closed => s.caseTtlSecs
  | .outcome => s.resultTtlSecs
  | .offer => s.offerCacheTtlSecs
  | .parked => s.parkedEventTtlSecs

/-- Whether at `now` it is over with what began at `t`. -/
def Aging.isOver? (s : Settings) (x : Aging) (now t : Instant) : Option Bool := do
  let ttl ← Span.ofSeconds? (x.ttlSecs s)
  let age ← now.since? t
  return !age.isShorter ttl

/-- When the first sweep is due; there are no sweeps without time between them. -/
def firstSweep? (s : Settings) (now : Instant) : Option Instant := do
  let period ← Span.ofMillis? s.sweepIntervalMs
  if period.total = 0 then none else some now

/-- When the next sweep is due after one that was due at `due` and began at `now`. -/
def nextSweep? (s : Settings) (far due now : Instant) : Option Instant := do
  let period ← Span.ofMillis? s.sweepIntervalMs
  let tolerance ← Span.ofMillis? tickTolerance
  let lateness ← now.since? due
  return (if tolerance.isShorter lateness then now else due).later far period

/-- When the callbacks of a provider come. -/
def callback? (latencyMs : Nat) (far now : Instant) : Option Instant := do
  return now.later far (← Span.ofMillis? latencyMs)

/-- How long a caller waits. -/
inductive Timeout
  | seconds (n : Nat)
  | millis (n : Nat)
deriving DecidableEq, Repr

namespace Timeout

/-- How much it is, in the unit that it is given in. -/
def amount : Timeout → Nat
  | .seconds n | .millis n => n

/-- A timeout in milliseconds. -/
def inMillis : Timeout → Nat
  | .seconds n => Rendezvous.seconds n
  | .millis n => n

/-- A timeout as a span. -/
def span? : Timeout → Option Span
  | .seconds n => Span.ofSeconds? n
  | .millis n => Span.ofMillis? n

/-- When a caller gives up. -/
def deadline? (w : Timeout) (now : Instant) : Option Instant := w.span?.bind now.add?

end Timeout

/-! ### What is right -/

/-- Settings that are valid, each with a number of 64 bits. -/
structure Admitted (s : Settings) : Prop where
  valid : s.objection? = none
  ttlSecs_le : ∀ x : Aging, x.ttlSecs s ≤ largest
  sweepIntervalMs_le : s.sweepIntervalMs ≤ largest

/-- `u` is `n` nanoseconds after `t`, or else `far` if that is beyond the last instant. -/
def Instant.IsAfter (far t : Instant) (n : Nat) (u : Instant) : Prop :=
  if t.total + n ≤ last then u.total = t.total + n else u = far

/-- Everything that is computed with the times of an engine has a value, whatever the clock reads,
and it is the right one; only a deadline has none, if it lies beyond the last instant. -/
structure Computes (s : Settings) (far : Instant) : Prop where
  isOver : ∀ (x : Aging) (now t : Instant),
    x.isOver? s now t = some (decide (x.ttlSecs s * perSecond ≤ (now.total - t.total).toNat))
  firstSweep : ∀ now, firstSweep? s now = some now
  nextSweep : ∀ due now : Instant, ∃ u, nextSweep? s far due now = some u ∧
    Instant.IsAfter far
      (if due.total + (tickTolerance * perMilli : Nat) < now.total then now else due)
      (s.sweepIntervalMs * perMilli) u
  callback : ∀ latencyMs ≤ largest, ∀ now, ∃ u, callback? latencyMs far now = some u ∧
    Instant.IsAfter far now (latencyMs * perMilli) u
  deadline : ∀ w : Timeout, w.amount ≤ largest → ∀ now : Instant,
    (∃ u, w.deadline? now = some u ∧ u.total = now.total + (w.inMillis * perMilli : Nat)) ∨
      w.deadline? now = none ∧ Instant.last < now.total + (w.inMillis * perMilli : Nat)

/-- The clock shows `n` milliseconds after its zero. -/
def Instant.Shows (t : Instant) (n : Nat) : Prop := ofMillis? n = some t

/-- The milliseconds that an engine counts are right on a clock that was at zero when it started, as
long as the clock can show them. -/
structure Counts (s : Settings) (far : Instant) : Prop where
  isExpired : ∀ (c : Case) {now : Nat} {t u : Instant}, t.Shows now → u.Shows c.createdAt →
    Aging.liveCase.isOver? s t u = some (c.isExpired s.caseTtl now)
  /-- Outcomes and offers, when they are read and when they are purged. -/
  isFresh : ∀ {κ α : Type} (x : Aging) (m : ExpiringMap κ α), m.ttl = seconds (x.ttlSecs s) →
    ∀ {now since : Nat} {t u : Instant}, t.Shows now → u.Shows since →
      x.isOver? s t u = some (!m.isFresh now since)
  purgeParked : ∀ (r : Registry) {n : NegotiationId} {p : ParkedConfirmation} {now : Nat}
    {t u : Instant}, r.parked.get? n = some p → t.Shows now → u.Shows p.since →
      Aging.parked.isOver? s t u
        = some ((r.purgeParked now s.parkedEventTtl).2.parked.get? n).isNone
  purgeClosed : ∀ (r : Registry) {n : NegotiationId} {since now : Nat} {t u : Instant},
    r.closed.get? n = some since → t.Shows now → u.Shows since →
      Aging.closed.isOver? s t u = some ((r.purgeClosed now s.caseTtl).2.closed.get? n).isNone
  nextSweep : ∀ (k : Ticker), k.interval = s.sweepInterval → ∀ {now : Nat} {due t u : Instant},
    due.Shows k.due → t.Shows now → u.Shows (k.next now) → nextSweep? s far due t = some u
  callback : ∀ latencyMs ≤ largest, ∀ {now : Nat} {t u : Instant}, t.Shows now →
    u.Shows (now + latencyMs) → callback? latencyMs far t = some u
  deadline : ∀ w : Timeout, w.amount ≤ largest → ∀ {now : Nat} {t : Instant}, t.Shows now →
    (deadline? now w.inMillis).bind Instant.ofMillis? = w.deadline? t ∧
      (deadline? now w.inMillis = none ↔ w.deadline? t = none)

end Rendezvous.Clock
