import Mathlib.Tactic.SplitIfs
import Rendezvous.CommandLine.Args
import Rendezvous.Proofs.Complaints

/-!
# Numbers among the arguments

A number that the command line takes has at most 64 bits, and nothing that is looked at later
changes it.

* `Draft.Bounded`: the arguments looked at so far have no larger number;
* `Draft.Bounded.readArgs`: one argument after the other;
* `parse_bounded`: what the program is called with.
-/

namespace Rendezvous.CommandLine

open Settings (largest natural?)

theorem natural?_le {cs : List Char} {n : Nat} (h : natural? cs = some n) : n ≤ largest := by
  unfold natural? at h
  simp only at h
  split_ifs at h with hdigits hle
  exact Option.some.inj h ▸ hle

namespace Draft

/-- The numbers that have been set are not too large. -/
structure Bounded (d : Draft) : Prop where
  latencyMs : ∀ n, d.latencyMs? = some n → n ≤ largest
  timeoutSecs : ∀ n, d.timeoutSecs? = some n → n ≤ largest

variable {d d' : Draft} {name value arg : String} {value? next? : Option String}

theorem once_eq_ok {α : Type} {read? : String → Option α} {old? new? : Option α}
    (h : once name read? old? value = .ok new?) : ∃ a, new? = some a ∧ read? value = some a := by
  unfold once at h
  split at h
  · cases h
  · cases h
  · rename_i a hread
    exact ⟨a, (Except.ok.inj h).symm, hread⟩

/-- A draft in which one option has been set. -/
theorem exists_of_map {α : Type} {read? : String → Option α} {old? : Option α}
    {set : Option α → Draft}
    (h : some ((once name read? old? value).map set) = some (Except.ok d')) :
    ∃ a, read? value = some a ∧ set (some a) = d' := by
  cases honce : once name read? old? value with
  | error e =>
    rw [honce] at h
    cases Option.some.inj h
  | ok new? =>
    obtain ⟨a, rfl, hread⟩ := once_eq_ok honce
    rw [honce] at h
    exact ⟨a, hread, Except.ok.inj (Option.some.inj h)⟩

namespace Bounded

theorem set? (h : d.Bounded) (hset : d.set? name value = some (.ok d')) : d'.Bounded := by
  unfold Draft.set? at hset
  -- only two of the options have numbers
  split at hset
  · obtain ⟨path, -, rfl⟩ := exists_of_map hset
    exact ⟨h.latencyMs, h.timeoutSecs⟩
  · cases hset
    exact ⟨h.latencyMs, h.timeoutSecs⟩
  · cases hset
    exact ⟨h.latencyMs, h.timeoutSecs⟩
  · cases hset
    exact ⟨h.latencyMs, h.timeoutSecs⟩
  · obtain ⟨latencyMs, hread, rfl⟩ := exists_of_map hset
    exact ⟨fun n hn => Option.some.inj hn ▸ natural?_le hread, h.timeoutSecs⟩
  · obtain ⟨timeoutSecs, hread, rfl⟩ := exists_of_map hset
    exact ⟨h.latencyMs, fun n hn => Option.some.inj hn ▸ natural?_le hread⟩
  · obtain ⟨format, -, rfl⟩ := exists_of_map hset
    exact ⟨h.latencyMs, h.timeoutSecs⟩
  · cases hset

theorem setInput (h : d.Bounded) (hset : d.setInput arg = .ok d') : d'.Bounded := by
  unfold Draft.setInput at hset
  split at hset
  · cases hset
  · obtain ⟨path, -, rfl⟩ := exists_of_map (congrArg some hset)
    exact ⟨h.latencyMs, h.timeoutSecs⟩

theorem setLong (h : d.Bounded) (hset : d.setLong name value? next? = .ok d') : d'.Bounded := by
  unfold Draft.setLong at hset
  simp only at hset
  split at hset
  · cases hset
  · cases hset
  · rename_i result? _ hresult _
    exact h.set? (hset ▸ hresult)

theorem readFiles {args : List String} (h : d.Bounded)
    (hread : readFiles d args = .ok (.draft d')) : d'.Bounded := by
  induction args generalizing d with
  | nil =>
    cases hread
    exact h
  | cons arg args ih =>
    obtain ⟨next, hset, hread⟩ := Csv.exists_ok_of_bind hread
    exact ih (h.setInput hset) hread

/-- One argument after the other. -/
theorem readArgs {args : List String} (h : d.Bounded)
    (hread : readArgs d args = .ok (.draft d')) : d'.Bounded := by
  fun_induction CommandLine.readArgs d args with
  | case1 =>
    cases hread
    exact h
  | case2 => exact h.readFiles hread
  | case3 _ _ _ _ ih =>
    obtain ⟨next, hset, hread⟩ := Csv.exists_ok_of_bind hread
    exact ih next (h.setInput hset) hread
  | case4 | case5 | case6 | case7 | case8 => cases hread
  | case9 _ _ _ _ _ _ ih | case10 _ _ _ _ _ _ ih | case11 _ _ _ _ _ _ _ _ ih =>
    obtain ⟨next, hset, hread⟩ := Csv.exists_ok_of_bind hread
    exact ih next (h.setLong hset) hread

end Bounded

end Draft

/-- What stands in for a missing number has to keep the bound too. -/
theorem getD_le {n? : Option Nat} {n bound : Nat} (h : ∀ m, n? = some m → m ≤ bound)
    (hn : n ≤ bound) : n?.getD n ≤ bound := by
  cases hgiven : n? with
  | none => exact hn
  | some m => exact h m hgiven

/-- The numbers that the program is called with have at most 64 bits. -/
theorem parse_bounded {environment : List (String × String)} {args : List String} {a : Args}
    (h : parse environment args = .ok (.run a)) :
    a.latencyMs ≤ largest ∧ a.timeoutSecs ≤ largest := by
  obtain ⟨reading, hread, h⟩ := Csv.exists_ok_of_bind h
  cases reading with
  | help => cases h
  | version => cases h
  | draft d =>
    have hbounded : d.Bounded := by
      have hempty : Draft.Bounded {} := ⟨by simp, by simp⟩
      exact hempty.readArgs hread
    obtain ⟨config?, -, h⟩ := Csv.exists_ok_of_bind h
    split at h
    · cases h
    · cases h
      exact ⟨getD_le hbounded.latencyMs (show 5 ≤ largest by decide),
        getD_le hbounded.timeoutSecs (show 30 ≤ largest by decide)⟩

end Rendezvous.CommandLine
