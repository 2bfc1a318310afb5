import Rendezvous.Proofs.Conservation
import Rendezvous.Proofs.Transfers

/-!
# Redelivered notices

A notice about a transfer names the key of the request and nothing else, so one that comes again
cannot be told from a new one.  What it meets decides what it does: `Callback.fits` says in which
stages a notice takes effect.  A notice that has taken effect has left its case in a stage that it
does not fit, or has ended it, so it finds something to do again only if the key has got another
case since.

* `Harmless`: nothing that a caller could notice has happened;
* `handling_harmless_iff`: a notice is harmless exactly if there is no case that it fits;
* `UsedUp`: a notice that has taken effect fits nothing that its case can become;
* `redelivery_harmless_unless_reused`: a notice that has taken effect is harmless when it comes
  again, unless the key has got another case;
* `redelivery_ends_reuse`: then it can end that one.
-/

namespace Rendezvous

/-- The key that a notice about a transfer names. -/
def Callback.transferKey? : Callback → Option CorrelationKey
  | .transferStarted key | .dataReference key _ | .transferFailed key _ => some key
  | .accepted _ | .confirmed .. | .negotiationFailed .. => none

/-- Whether a notice about a transfer takes effect on a case in the stage. -/
def Callback.fits (stage : Stage) : Callback → Bool
  | .transferStarted _ => stage = .confirmed
  | .dataReference .. => stage = .confirmed || stage = .transferring
  | .transferFailed .. => !stage.isTerminal
  | .accepted _ | .confirmed .. | .negotiationFailed .. => false

/-- Whether an event records an outcome, or publishes a message on one of the two channels that lead
to the board. -/
def Event.isOutcome : Event → Bool
  | .published m => m.channel = .result || m.channel = .dlq
  | .recorded .. => true
  | _ => false

namespace Engine

/-- From `e` to `e'` no case changes, nothing is published for the board, and no outcome is
recorded. -/
structure Harmless (e e' : Engine) : Prop where
  cases : e'.store.cases = e.store.cases
  board : e'.board = e.board
  history : ∃ evs, e'.history = evs ++ e.history ∧ ∀ ev ∈ evs, ev.isOutcome = false

theorem Harmless.get? {e e' : Engine} (h : Harmless e e') (k : CorrelationKey) :
    e'.store.get? k = e.store.get? k :=
  congrArg (Assoc.get? · k) h.cases

/-- The key has a case that the notice fits. -/
def Fits (e : Engine) (notice : Callback) (k : CorrelationKey) : Prop :=
  ∃ c, e.store.get? k = some c ∧ notice.fits c.stage

variable {e : Engine} {a : Action} {notice : Callback} {k : CorrelationKey}

/-! ## What a notice does -/

/-- A notice about a transfer finds the key that it names. -/
theorem deliver_of_transferKey? (e : Engine) (hkey : notice.transferKey? = some k) :
    (e.deliver notice).1 = e.publish (notice.message k) := by
  cases notice <;> cases hkey <;> rfl

/-- To take a notice about a transfer in changes nothing but the queue. -/
theorem harmless_notify (hkey : notice.transferKey? = some k) (hopen : e.bus.isOpen) :
    Harmless e (e.act (.notify notice)) := by
  have hact : e.act (.notify notice) = e.publish (notice.message k) :=
    e.deliver_of_transferKey? hkey
  rw [hact, publish_of_isOpen e _ hopen]
  refine ⟨rfl, rfl, [.published (notice.message k)], rfl, fun ev hmem => ?_⟩
  obtain rfl := List.mem_singleton.mp hmem
  cases notice <;> cases hkey <;> rfl

/-- A notice that fits no case is dropped. -/
theorem handle_of_not_fits (h : Sound e) (hkey : notice.transferKey? = some k)
    (hnot : ¬ e.Fits notice k) : e.handle (notice.message k) = (e, .done) := by
  have hlive : e.store.live? k = e.store.get? k := live?_eq_get? (h.coherent k)
  cases hcase : e.store.get? k with
  | none =>
      rw [hcase] at hlive
      cases notice <;> cases hkey <;>
        simp [Callback.message, handle, onTransferStarted, onDataReference, onTransferFailed, hlive]
  | some c =>
      rw [hcase] at hlive
      have hunfit : notice.fits c.stage = false := by
        rw [← Bool.not_eq_true]
        exact fun hfits => hnot ⟨c, hcase, hfits⟩
      cases notice with
      | accepted | confirmed | negotiationFailed => cases hkey
      | transferStarted =>
          cases hkey
          simp_all [Callback.message, Callback.fits, handle, onTransferStarted]
      | dataReference =>
          cases hkey
          simp_all [Callback.message, Callback.fits, handle, onDataReference]
      | transferFailed =>
          -- a failed transfer fits every stage that a stored case can be in
          obtain ⟨-, hearly | hlate⟩ := h.filed hcase
          · rcases hearly.stage with hstage | hstage <;> rw [hstage] at hunfit <;> cases hunfit
          · rcases hlate.stage with hstage | hstage <;> rw [hstage] at hunfit <;> cases hunfit

/-- A handler that drops its message changes nothing but tasks and locks. -/
theorem harmless_leave_done (e : Engine) (t : TaskId) (m : Message) :
    Harmless e (e.leave t m .done) := by
  rw [leave_done]
  refine ⟨by simp, by simp, .finished t .handled ::
    (e.store.locks.heir? m.key t).toList.map Event.granted, by simp, fun ev hmem => ?_⟩
  rcases List.mem_cons.mp hmem with rfl | hmem
  · rfl
  · obtain ⟨t', -, rfl⟩ := List.mem_map.mp hmem
    rfl

/-- A notice that fits the case of its key moves it on or ends it. -/
theorem get?_of_fits (h : Sound e) (hkey : notice.transferKey? = some k) {c : Case}
    (hcase : e.store.get? k = some c) (hfits : notice.fits c.stage)
    (hhandling : e.handling? a = some (notice.message k)) :
    (e.act a).store.get? k ≠ some c := by
  obtain ⟨t, hact⟩ := act_of_handling? hhandling
  have hlive : e.store.live? k = some c := (live?_eq_get? (h.coherent k)).trans hcase
  have hopen := h.regular.isOpen
  rw [hact]
  cases notice with
  | accepted | confirmed | negotiationFailed => cases hkey
  | transferStarted =>
      cases hkey
      have hstage : c.stage = .confirmed := by simpa [Callback.fits] using hfits
      have hmoved : c.advance .transferring ≠ c := by
        intro heq
        have hsame := congrArg Case.stage heq
        rw [hstage] at hsame
        cases hsame
      simp [Callback.message, handle, onTransferStarted, hlive, hstage, leave_done, hmoved]
  | dataReference =>
      cases hkey
      have hstage : c.stage = .confirmed ∨ c.stage = .transferring := by
        simpa [Callback.fits] using hfits
      simp [Callback.message, handle, onDataReference, hlive, hstage, leave, finishHandler,
        Bus.refusal?, hopen]
  | transferFailed =>
      cases hkey
      simp [Callback.message, handle, onTransferFailed, hlive, fail, leave, finishHandler,
        Bus.refusal?, hopen]

/-- A notice is harmless exactly if there is no case that it fits. -/
theorem handling_harmless_iff (h : Sound e) (hkey : notice.transferKey? = some k)
    (hhandling : e.handling? a = some (notice.message k)) :
    Harmless e (e.act a) ↔ ¬ e.Fits notice k := by
  constructor
  · rintro hharmless ⟨c, hcase, hfits⟩
    exact get?_of_fits h hkey hcase hfits hhandling ((hharmless.get? k).trans hcase)
  · intro hnot
    obtain ⟨t, hact⟩ := act_of_handling? hhandling
    rw [hact, handle_of_not_fits h hkey hnot]
    exact harmless_leave_done e t _

theorem cause_of_handling? {m : Message} (h : e.handling? a = some m) : e.cause a = .handled m := by
  unfold handling? at h
  split at h
  · split at h
    · rename_i hold
      split at h
      · cases h
        simp [Engine.cause, hold]
      · cases h
    · cases h
  · cases h

/-- The notice fits neither the case of the key nor anything that the case can become. -/
def UsedUp (e : Engine) (notice : Callback) (k : CorrelationKey) : Prop :=
  ∀ c c', e.store.get? k = some c → c.Follows c' → notice.fits c'.stage = false

/-- A notice that takes effect is used up. -/
theorem usedUp_of_effect (h : Sound e) (hkey : notice.transferKey? = some k)
    (hhandling : e.handling? a = some (notice.message k))
    (heffect : (e.act a).store.get? k ≠ e.store.get? k) : (e.act a).UsedUp notice k := by
  intro c c' hcase hfollows
  have hcause : e.cause a = .handled (notice.message k) := cause_of_handling? hhandling
  rcases h.transition a k with hsame | ⟨published, hrow, -⟩
  · exact absurd hsame heffect
  · rw [hcause, hcase] at hrow
    generalize e.store.get? k = before? at hrow
    cases notice with
    | accepted | confirmed | negotiationFailed => cases hkey
    | transferStarted =>
        cases hkey
        cases hrow with
        | start c₀ =>
            -- the transfer has started, and no case goes back to the stage before that
            rcases hfollows.stage with rfl | hless
            · rfl
            · have hlater : Stage.rank .transferring < c'.stage.rank := hless
              cases hstage : c'.stage with
              | confirmed =>
                  rw [hstage] at hlater
                  exact absurd hlater (by decide)
              | started | negotiating | transferring | completed | failed => rfl
    -- these two end the case
    | dataReference | transferFailed => cases hkey; cases hrow

/-! ## Coming again -/

/-- As long as no case of `k` is registered, the case that `k` has comes from the one it had. -/
theorem Sound.follows_of_no_registration (h : Sound e) (bs : List Action) {c' : Case}
    (hnone : registrations k e bs = 0) (hcase' : (e.after bs).store.get? k = some c') :
    ∃ c, e.store.get? k = some c ∧ c.Follows c' := by
  induction bs generalizing e with
  | nil => exact ⟨c', hcase', .refl c'⟩
  | cons a bs ih =>
      rw [registrations, Nat.add_eq_zero_iff] at hnone
      obtain ⟨c₁, hcase₁, hfollows₁⟩ := ih (h.act a) hnone.2 hcase'
      rcases h.origin_act a hcase₁ with ⟨hvacant, -⟩ | ⟨c, hcase, hfollows⟩
      · have hregisters : e.registers k a = true := by simp [registers, hvacant, hcase₁]
        rw [hregisters] at hnone
        cases hnone.1
      · exact ⟨c, hcase, hfollows.trans hfollows₁⟩

/-- A notice that is used up fits only a case that is registered later. -/
theorem UsedUp.registrations_pos (hused : e.UsedUp notice k) (h : Sound e) (bs : List Action)
    (hfits : (e.after bs).Fits notice k) : 0 < registrations k e bs := by
  refine Nat.pos_of_ne_zero fun hnone => ?_
  obtain ⟨c', hcase', hfits⟩ := hfits
  obtain ⟨c, hcase, hfollows⟩ := h.follows_of_no_registration bs hnone hcase'
  rw [hused c c' hcase hfollows] at hfits
  cases hfits

/-- Let a notice about a transfer take effect on a case of `k`, and let it come again at any later
time.  To take it in changes nothing but the queue.  Handling it then is harmless exactly if `k` has
no case that it fits; and it fits only a case that `k` has got since it took effect. -/
theorem redelivery_harmless_unless_reused (s : Settings) (as bs : List Action) (a : Action)
    (notice : Callback) (k : CorrelationKey) (hkey : notice.transferKey? = some k)
    (hhandling : ((ofSettings s).after as).handling? a = some (notice.message k))
    (heffect : (((ofSettings s).after as).act a).store.get? k ≠
      ((ofSettings s).after as).store.get? k) :
    let e := ((ofSettings s).after as).act a
    let e' := e.after bs
    Harmless e' (e'.act (.notify notice)) ∧
      (e'.act (.notify notice)).bus.queue = e'.bus.queue ++ [notice.message k] ∧
      (∀ b, e'.handling? b = some (notice.message k) →
        (Harmless e' (e'.act b) ↔ ¬ e'.Fits notice k)) ∧
      (e'.Fits notice k → 0 < registrations k e bs) := by
  intro e e'
  have hsound : Sound ((ofSettings s).after as) := sound_after s as
  have h : Sound e := hsound.act a
  have h' : Sound e' := h.after bs
  have hopen := h'.regular.isOpen
  have hqueue : (e'.act (.notify notice)).bus.queue = e'.bus.queue ++ [notice.message k] := by
    have hact : e'.act (.notify notice) = e'.publish (notice.message k) :=
      e'.deliver_of_transferKey? hkey
    rw [hact]
    simp [Bus.publish, hopen]
  exact ⟨harmless_notify hkey hopen, hqueue,
    fun b hagain => handling_harmless_iff h' hkey hagain,
    (usedUp_of_effect hsound hkey hhandling heffect).registrations_pos h bs⟩

/-- A failed transfer has ended its case, and comes again when the key has no case. -/
theorem redelivery_harmless_unless_reused_of_failure :
    let r : DataRequest := { key := ⟨"k"⟩, asset := ⟨"a"⟩, provider := "p" }
    let offer : ContractOffer := { id := "o", asset := ⟨"a"⟩, provider := "p" }
    let notice : Callback := .transferFailed ⟨"k"⟩ "broken"
    let as : List Action :=
      [.submit r, .dispatch, .stride 0, .stride 0, .reply 0 (.offer (.ok offer)),
        .reply 0 (.negotiation (.ok ⟨"n"⟩)), .notify notice, .dispatch, .stride 1]
    let bs : List Action := [.notify notice, .dispatch, .dispatch, .stride 3]
    let e := ((ofSettings {}).after as).act (.stride 1)
    let e' := e.after bs
    ((ofSettings {}).after as).handling? (.stride 1) = some (notice.message ⟨"k"⟩) ∧
      e'.handling? (.stride 3) = some (notice.message ⟨"k"⟩) ∧
      registrations ⟨"k"⟩ e bs = 0 ∧ Harmless e' (e'.act (.stride 3)) := by
  intro r offer notice as bs e e'
  have hhandling : ((ofSettings {}).after as).handling? (.stride 1) =
      some (notice.message ⟨"k"⟩) := by decide
  have hagain : e'.handling? (.stride 3) = some (notice.message ⟨"k"⟩) := by decide
  have hnone : registrations ⟨"k"⟩ e bs = 0 := by decide
  obtain ⟨-, -, hharmless, hreused⟩ := redelivery_harmless_unless_reused {} as bs (.stride 1)
    notice ⟨"k"⟩ rfl hhandling (by decide)
  refine ⟨hhandling, hagain, hnone, (hharmless _ hagain).mpr fun hfits => ?_⟩
  have hpos := hreused hfits
  rw [hnone] at hpos
  cases hpos

/-- A data reference has completed a case.  It comes again when the key has been used for another
request, and completes the case of that one too, with data that is not its own. -/
theorem redelivery_ends_reuse :
    let first : DataRequest := { key := ⟨"k"⟩, asset := ⟨"a"⟩, provider := "p" }
    let second : DataRequest := { key := ⟨"k"⟩, asset := ⟨"b"⟩, provider := "p" }
    let offer (asset : AssetId) : ContractOffer := { id := "o", asset, provider := "p" }
    let reference : DataReference :=
      { id := "r", endpoint := "p/a", authKey := "", authCode := "", properties := .ofList [] }
    let notice : Callback := .dataReference ⟨"k"⟩ reference
    let request (r : DataRequest) (n : NegotiationId) (t : TaskId) : List Action :=
      [.submit r, .dispatch, .stride t, .stride t, .reply t (.offer (.ok (offer r.asset))),
        .reply t (.negotiation (.ok n)), .notify (.confirmed n ⟨"c"⟩), .dispatch, .stride (t + 1),
        .stride (t + 1), .reply (t + 1) (.transfer (.ok ⟨"x"⟩))]
    let as := request first ⟨"m"⟩ 0 ++ [.notify notice, .dispatch, .stride 2]
    let bs := [.dispatch, .stride 3] ++ request second ⟨"n"⟩ 4 ++
      [.notify notice, .dispatch, .stride 6]
    let e := (ofSettings {}).after as
    let e' := (e.act (.stride 2)).after bs
    e.handling? (.stride 2) = some (notice.message ⟨"k"⟩) ∧
      (e.act (.stride 2)).store.get? ⟨"k"⟩ ≠ e.store.get? ⟨"k"⟩ ∧
      e'.handling? (.stride 6) = some (notice.message ⟨"k"⟩) ∧
      (e'.store.get? ⟨"k"⟩).bind (·.data.asset) = some ⟨"b"⟩ ∧
      (e'.act (.stride 6)).store.get? ⟨"k"⟩ = none ∧
      (e'.act (.stride 6)).terminals ⟨"k"⟩ =
        (Outcome.success reference).message ⟨"k"⟩ :: e'.terminals ⟨"k"⟩ ∧
      ¬ Harmless e' (e'.act (.stride 6)) := by
  intro first second offer reference notice request as bs e e'
  have hcase : (e'.store.get? ⟨"k"⟩).bind (·.data.asset) = some ⟨"b"⟩ := by decide
  have hgone : (e'.act (.stride 6)).store.get? ⟨"k"⟩ = none := by decide
  refine ⟨by decide, by decide, by decide, hcase, hgone, by decide, fun hharmless => ?_⟩
  rw [← hharmless.get? ⟨"k"⟩, hgone] at hcase
  cases hcase

end Engine

end Rendezvous
