import Rendezvous.OutcomeBoard

/-!
# Rows of a report

A report has one row for each request: its key, how it ended, and where its data is or what went
wrong.  A request that has not ended is pending.
-/

namespace Rendezvous.Report

/-- What a report says about one request. -/
structure Row where
  key : String
  status : String
  detail : String := ""
deriving DecidableEq, Repr

/-- The row of a request and its outcome, if it has one. -/
def Row.ofOutcome (key : CorrelationKey) : Option Outcome → Row
  | none => { key := key.text, status := "pending" }
  | some (.success reference) =>
      { key := key.text, status := "success", detail := reference.endpoint }
  | some (.error reason) => { key := key.text, status := "error", detail := reason.message }

/-- The names of the columns. -/
def columns : List String := ["key", "status", "detail"]

/-- The contents of a row, in the order of the columns. -/
def Row.cells (r : Row) : List String := [r.key, r.status, r.detail]

end Rendezvous.Report
