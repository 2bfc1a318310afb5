/-!
# Views of a log

What the theorems tell of a run they read off its log.  A view says what an entry of the log shows,
if it shows anything, and `log.filterMap view` is what the whole log shows, in the order of the log.
The lemmas below say what a log shows after it has grown, for any log and any view.  The logs of the
bus, of a lobby, of a lock and of the sessions grow at their ends; the history of an engine has its
latest event first.
-/

namespace Rendezvous

variable {ε α : Type} {view : ε → Option α} {log log' news : List ε} {ev : ε}

theorem view_of_append (h : log' = log ++ news) :
    log'.filterMap view = log.filterMap view ++ news.filterMap view := by
  rw [h, List.filterMap_append]

/-- One more entry shows one more thing at most. -/
theorem view_of_concat (h : log' = log ++ [ev]) :
    log'.filterMap view = log.filterMap view ++ (view ev).toList := by
  rw [view_of_append h]
  cases hev : view ev <;> simp [hev]

theorem view_of_cons (h : log' = ev :: log) :
    log'.filterMap view = (view ev).toList ++ log.filterMap view := by
  cases hev : view ev <;> simp [h, hev]

/-- Entries that show nothing leave what is seen as it was. -/
theorem view_of_silent (hsilent : ∀ ev ∈ news, view ev = none) (h : log' = news ++ log) :
    log'.filterMap view = log.filterMap view := by
  rw [view_of_append h, List.filterMap_eq_nil_iff.mpr hsilent, List.nil_append]

end Rendezvous
