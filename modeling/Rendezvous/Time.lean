/-!
# Instants and spans of time

Time is counted in whole milliseconds, as a `Nat`: an instant is the time since the engine started,
a span is a difference of instants.  Neither is bounded, so differences and comparisons never wrap.
Only `deadline?`, which a caller's timeout goes through, knows the end of the representable range.
-/

namespace Rendezvous

/-- A span of whole seconds. -/
def seconds (n : Nat) : Nat := n * 1000

/-- How long before `now` the instant `since` was; zero for an instant still to come. -/
def age (now since : Nat) : Nat := now - since

/-- The last second that an instant can lie in. -/
def lastSecond : Nat := Nat.pow 2 63 - 1

/-- The instant a span after `now`, if there is such an instant. -/
def deadline? (now span : Nat) : Option Nat :=
  if (now + span) / 1000 ≤ lastSecond then some (now + span) else none

end Rendezvous
