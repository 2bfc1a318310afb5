import Rendezvous.Proofs.Fetching

/-!
# The clock of a host

Nothing that an engine does takes time.  So the clock of a host stands still while anything can run;
it goes on only for somebody who waits, and then to the next timer or to the end of the wait,
whichever comes first.

* `Engine.Step.now_eq`: an action that is not the passing of time leaves the clock alone;
* `Host.now_settle`: so does everything that can run;
* `Host.now_waitFor_le`: a wait for an outcome is over at its deadline.
-/

namespace Rendezvous

namespace Engine

variable {e e' : Engine} {t : TaskId}

/-! ## What an engine does -/

@[simp] theorem now_lookForOutcome (e : Engine) (t : TaskId) (key : CorrelationKey)
    (deadline : Nat) : (e.lookForOutcome t key deadline).now = e.now := by
  unfold lookForOutcome
  dsimp only
  split <;> rfl

/-- An action that is not the passing of time leaves the clock alone. -/
theorem Step.now_eq {a : Action} (h : e.Step a e') (hpass : ∀ span, a ≠ .pass span) :
    e'.now = e.now := by
  cases h with
  | idle | park | dispatch | begin | look | queueUp | keep | finishSweep | take | neverMind => rfl
  | submit | forward | outcome | visit | listen | letGo | leaveQueue => simp
  | handle t m => simp [(handle_contained e m).now]
  | offer t m asset provider answer =>
    simp [(onOffer_contained e m asset provider answer).now]
  | negotiation t m asset provider offer answer =>
    simp [(onNegotiation_contained e m asset provider offer answer).now]
  | transfer t m c request answer =>
    simp [(onTransfer_contained e m c request.contract answer).now]
  | pass span => exact absurd rfl (hpass span)

@[simp] theorem now_stride (e : Engine) (t : TaskId) : (e.stride t).now = e.now :=
  (e.step_stride t).now_eq (by simp)

@[simp] theorem now_reply (e : Engine) (t : TaskId) (r : Reply) : (e.reply t r).now = e.now :=
  (e.step_reply t r).now_eq (by simp)

@[simp] theorem now_deliver (e : Engine) (c : Callback) : (e.deliver c).1.now = e.now :=
  (e.step_deliver c).now_eq (by simp)

/-- What is done again and again leaves the clock alone if doing it once does. -/
theorem now_repeat {f : Engine → Engine} (hf : ∀ e, (f e).now = e.now) (n : Nat) (e : Engine) :
    (Nat.repeat f n e).now = e.now := by
  induction n with
  | zero => rfl
  | succ n ih => exact (hf _).trans ih

@[simp] theorem now_dispatch (e : Engine) : e.dispatch.now = e.now :=
  now_repeat (fun e => (e.act_step .dispatch).now_eq (by simp)) _ e

@[simp] theorem now_goOn (e : Engine) (t : TaskId) : (e.goOn t).now = e.now := by
  unfold goOn
  split
  · exact now_repeat (fun e => e.now_stride t) _ e
  · rfl

@[simp] theorem now_run (e : Engine) (t : TaskId) : (e.run t).now = e.now := by
  unfold run
  split <;> simp [lookAround]

@[simp] theorem now_cancel (e : Engine) (t : TaskId) : (e.cancel t).now = e.now := by
  unfold cancel
  split <;> simp

end Engine

namespace Host

variable {σ : Type} {h : Host σ}

/-! ## What a host does while anything can run -/

theorem now_apply (h : Host σ) {f : Engine → Engine} (hf : ∀ e, (f e).now = e.now) :
    (h.apply f).now = h.now := by
  unfold now
  rw [engine_apply]
  exact hf _

theorem now_answerCalls [Services σ] (n : Nat) (t : TaskId) (h : Host σ) :
    (answerCalls n t h).now = h.now := by
  induction n generalizing h with
  | zero => rfl
  | succ n ih =>
    unfold answerCalls
    split
    · rfl
    · rw [ih]
      exact now_apply _ fun e => e.now_reply t _

theorem now_renewTimer (h : Host σ) (t : TaskId) : (h.renewTimer t).now = h.now := by
  unfold renewTimer
  split <;> rfl

theorem now_runTask [Services σ] (h : Host σ) (t : TaskId) : (h.runTask t).now = h.now := by
  unfold runTask
  split
  · exact now_apply _ fun e => e.now_cancel t
  · rw [now_renewTimer, now_answerCalls, now_apply h fun e => e.now_run t]

theorem now_callBack (cs : List Callback) (h : Host σ) : (callBack cs h).now = h.now := by
  induction cs generalizing h with
  | nil => rfl
  | cons c cs ih =>
    have hdeliver := now_apply h fun e => e.now_deliver c
    unfold callBack
    dsimp only
    split
    · exact hdeliver
    · rw [ih, hdeliver]

theorem now_beginSweep (h : Host σ) (k : Ticker) : (h.beginSweep k).now = h.now :=
  now_apply _ fun e => by simp [Engine.addTask]

theorem now_step [Services σ] (h : Host σ) : h.step.now = h.now := by
  unfold step
  split
  · rfl
  · dsimp only
    split
    · exact now_apply _ Engine.now_dispatch
    · exact now_runTask _ _
    · split
      · exact now_callBack _ _
      · rfl
    · exact now_callBack _ _
    · split
      · rfl
      · exact now_beginSweep _ _

theorem now_steps [Services σ] (n : Nat) (h : Host σ) : (steps n h).now = h.now := by
  induction n generalizing h with
  | zero => rfl
  | succ n ih =>
    unfold steps
    split
    · rfl
    · rw [ih, now_step]

/-- The clock stands still while anything can run. -/
theorem now_settle [Services σ] (h : Host σ) : h.settle.now = h.now := now_steps _ h

/-! ## Waiting -/

@[simp] theorem now_wake (h : Host σ) (t : TaskId) : (h.wake t).now = h.now := by
  unfold wake
  split <;> rfl

theorem now_foldl {α : Type} {f : Host σ → α → Host σ} (hf : ∀ h a, (f h a).now = h.now)
    (as : List α) (h : Host σ) : (as.foldl f h).now = h.now := by
  induction as generalizing h with
  | nil => rfl
  | cons a as ih => rw [List.foldl_cons, ih, hf]

theorem now_goTo (h : Host σ) (instant : Nat) : (h.goTo instant).now = instant := by
  refine now_foldl (fun h w => ?_) _ _
  split
  · exact now_wake h _
  · rfl

theorem now_takeOutcome (h : Host σ) (key : CorrelationKey) : (h.takeOutcome key).2.now = h.now :=
  now_apply h fun _ => rfl

/-- Who waits until a deadline does not wait longer. -/
theorem now_waitUntil_le [Services σ] {α : Type} {look : Host σ → Option α × Host σ}
    (hlook : ∀ h, (look h).2.now = h.now) (n deadline : Nat) (h : Host σ)
    (hle : h.now ≤ deadline) : (waitUntil look n deadline h).2.now ≤ deadline := by
  have hdeadline (h : Host σ) : (look (h.goTo deadline)).2.now ≤ deadline :=
    Nat.le_of_eq ((hlook _).trans (now_goTo h deadline))
  induction n generalizing h with
  | zero => exact hle
  | succ n ih =>
    have hfirst : (look h).2.now ≤ deadline := hlook h ▸ hle
    unfold waitUntil
    split
    · rename_i found
      exact found ▸ hfirst
    · rename_i h' found
      rw [found] at hfirst
      split
      · exact hfirst
      · -- what can run is run without time passing, so the second look is as early as the first
        have hsecond : (look h'.settle).2.now ≤ deadline := by
          rw [hlook, now_settle]
          exact hfirst
        split
        · rename_i found'
          exact found' ▸ hsecond
        · split
          · rename_i due _
            split
            · rename_i hdue
              exact ih _ (by rw [now_goTo]; exact Nat.le_of_lt hdue)
            · exact hdeadline _
          · exact hdeadline _

/-- A wait for an outcome is over at its deadline. -/
theorem now_waitFor_le [Services σ] {key : CorrelationKey} {span : Nat} {o? : Option Outcome}
    {h' : Host σ} (hwait : h.waitFor key span = some (o?, h')) : h'.now ≤ h.now + span := by
  obtain ⟨deadline, hd, hw⟩ := Option.map_eq_some_iff.1 hwait
  have hdeadline : deadline = h.now + span := by
    unfold deadline? at hd
    split at hd
    · exact (Option.some.inj hd).symm
    · cases hd
  have hle := now_waitUntil_le (fun h => now_takeOutcome h key) (span + 1) deadline h (by omega)
  rw [hw] at hle
  exact hdeadline ▸ hle

end Host

end Rendezvous
