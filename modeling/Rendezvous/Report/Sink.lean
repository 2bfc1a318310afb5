/-!
# Sinks

A sink stores the bytes that are written to it.  It may have room for a limited number of bytes
only; what exceeds the room is cut off, and from then on nothing can be written.
-/

namespace Rendezvous.Report

/-- A place for bytes. -/
structure Sink where
  taken : Array UInt8 := #[]
  /-- How many more bytes it can store, if that is limited. -/
  room? : Option Nat := none

namespace Sink

/-- Stores bytes as far as there is room; tells whether there was room for all of them. -/
def put (s : Sink) (bytes : List UInt8) : Bool × Sink :=
  match s.room? with
  | none => (true, { s with taken := s.taken ++ bytes })
  | some room =>
      (decide (bytes.length ≤ room),
        { taken := s.taken ++ bytes.take room, room? := some (room - bytes.length) })

end Sink

end Rendezvous.Report
