import Rendezvous.Error
import Rendezvous.KeyLocks

/-!
# The store of live cases

The store maps each key to its case and has the locks under which cases are changed.  Reading needs
no lock; whoever registers, replaces or removes the case of a key owns the lock of that key.
-/

namespace Rendezvous

/-- The live cases, the locks of their keys and the time to live of a case. -/
structure CaseStore where
  ttl : Nat
  cases : Assoc CorrelationKey Case := {}
  locks : KeyLocks CorrelationKey := {}

namespace CaseStore

/-- The case of a key. -/
def get? (s : CaseStore) (key : CorrelationKey) : Option Case := s.cases.get? key

/-- The case of a key, unless it has come to an end. -/
def live? (s : CaseStore) (key : CorrelationKey) : Option Case :=
  (s.get? key).filter fun c => !c.stage.isTerminal

/-- Adds a case for a key that has none. -/
def register (s : CaseStore) (key : CorrelationKey) (c : Case) : Except EngineError CaseStore :=
  if s.cases.contains key then .error (.duplicateCase key)
  else .ok { s with cases := s.cases.insert key c }

/-- Makes `c` the case of a key. -/
def put (s : CaseStore) (key : CorrelationKey) (c : Case) : CaseStore :=
  { s with cases := s.cases.insert key c }

/-- Removes the case of a key. -/
def remove (s : CaseStore) (key : CorrelationKey) : CaseStore :=
  { s with cases := s.cases.erase key }

/-- The keys whose cases are expired at `now`, with the stages the cases are in. -/
def expired (s : CaseStore) (now : Nat) : List (CorrelationKey × Stage) :=
  (s.cases.values.filter fun c => c.isExpired s.ttl now).map fun c => (c.key, c.stage)

end CaseStore

end Rendezvous
