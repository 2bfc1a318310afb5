import Rendezvous.Adapter
import Rendezvous.Proofs.CourseTurns

/-!
# What becomes of every request

An adapter is started on a loopback provider.  Callers submit requests with distinct keys whenever
they like, between any two turns, and time passes.  Each request ends as the provider's sets say, at
the instant that follows from when it was submitted, and nothing of it is left afterwards; nobody
else's requests matter.

* `Going.potential_le_turnBound`, `Running.settle`: at every instant the host comes to rest;
* `Running.goTo`, `Running.sleep`: time passes, and no instant is waited for in vain;
* `Running.play`: whatever the callers do, every request stays on course;
* `Loopback.every_request_ends`: how every request ends, and when.
-/

namespace Rendezvous

theorem Loopback.le_endsAt (p : Loopback) (ttl : Nat) {interval : Nat} (hpos : 0 < interval)
    (t₀ : Nat) (asset : AssetId) : t₀ ≤ p.endsAt ttl interval t₀ asset := by
  have htick := le_tickFrom hpos (t₀ + ttl)
  unfold Loopback.endsAt
  cases p.verdict asset <;> dsimp only <;> omega

variable {s : Setup} {own : NegotiationId → CorrelationKey} {issued t₀ : Nat} {r : DataRequest}
variable {now due : Nat} {q : Picture}

/-- Where nothing is left for the instants before `instant`, a request that has its end before it
has ended. -/
theorem Course.ended_of_past (h : Course s own issued t₀ r now due q) {instant : Nat}
    (hpast : s.provider.endsAt s.ttl s.interval t₀ r.asset < instant)
    (hmail : ∀ m, q.load? = some (.mail m) → instant ≤ now)
    (herrand : ∀ d cs, q.load? = some (.errand d cs) → instant ≤ d) (hdue : instant ≤ due)
    (hmultiple : s.interval ∣ due) :
    ∃ o, s.provider.Gives r o ∧
      q = { outcomes := [(s.provider.endsAt s.ttl s.interval t₀ r.asset, o)] } := by
  have hcoming : ∀ {d before callback load}, q.load? = some load →
      Coming r.key now d before callback load → instant ≤ d := by
    intro d before callback load heq hcoming
    cases hcoming with
    | errand => exact herrand _ _ heq
    | mail hnow => exact hnow ▸ hmail _ heq
  cases h with
  | requested hnow =>
      have hlate := hmail _ rfl
      have hends := s.provider.le_endsAt s.ttl s.interval_pos t₀ r.asset
      omega
  | refusing c i load hverdict hn hload =>
      have hlate := hcoming rfl hload
      rw [Loopback.endsAt, hverdict] at hpast
      exact absurd hlate (Nat.not_le.mpr hpast)
  | agreeing c i contract load hverdict hn hload =>
      have hlate := hcoming rfl hload
      rw [Loopback.endsAt, hverdict] at hpast
      dsimp only at hpast
      omega
  | silent c i hverdict hn hsoon =>
      have hlate := le_tickFrom_of_lt s.interval_pos hmultiple hsoon
      rw [Loopback.endsAt, hverdict] at hpast
      dsimp only at hpast
      omega
  | delivering c reference load hc hgives hload =>
      have hlate := hcoming rfl hload
      cases hgives with
      | granted hverdict =>
          rw [Loopback.endsAt, hverdict] at hpast
          exact absurd hlate (Nat.not_le.mpr hpast)
  | ending o hgives hnow =>
      have hlate := hmail _ rfl
      omega
  | ended o hgives => exact ⟨o, hgives, rfl⟩

/-! ## Coming to rest -/

/-- What a course still waits for is bounded. -/
theorem Course.weight_le (h : Course s own issued t₀ r now due q) {load : Load}
    (hload : q.load? = some load) : load.weight ≤ 14 := by
  have hcoming : ∀ {d before c}, Coming r.key now d before c load →
      ((before ++ [c]).map Callback.weight).sum ≤ 14 → load.weight ≤ 14 := by
    intro d before c hcoming hsum
    cases hcoming with
    | errand => exact hsum
    | mail hnow => exact Message.weight_le _
  cases h with
  | silent | ended => cases hload
  | requested hnow =>
      obtain rfl := Option.some.inj hload
      exact (Message.ofRequest r).weight_le
  | ending o hgives hnow =>
      obtain rfl := Option.some.inj hload
      exact (o.message r.key).weight_le
  | refusing c i load hverdict hn hload' =>
      obtain rfl := Option.some.inj hload
      exact hcoming hload' (by simp [Callback.weight])
  | agreeing c i contract load hverdict hn hload' =>
      obtain rfl := Option.some.inj hload
      exact hcoming hload' (by simp [Callback.weight])
  | delivering c reference load hc hgives hload' =>
      obtain rfl := Option.some.inj hload
      exact hcoming hload' (by simp [Callback.weight])

theorem sum_weight_le {loads : List Load} (h : ∀ load ∈ loads, load.weight ≤ 14) :
    (loads.map Load.weight).sum ≤ 14 * loads.length := by
  induction loads with
  | nil => simp
  | cons load loads ih =>
      have hhead := h load (by simp)
      have hrest := ih fun load' hmem => h load' (by simp [hmem])
      rw [List.map_cons, List.sum_cons, List.length_cons, Nat.mul_add, Nat.mul_one]
      omega

section

variable {asked : CorrelationKey → Option (Nat × DataRequest)} {h : Host Loopback}

namespace Going

theorem weight_le (hg : Going s own issued due asked h) {load : Load} (hmem : load ∈ h.loads) :
    load.weight ≤ 14 := by
  cases load with
  | mail m => exact m.weight_le
  | errand d cs =>
      cases cs with
      | nil => simp [Load.weight]
      | cons c cs =>
          obtain ⟨q, hs, hcourse⟩ := hg.courses (c.owner own)
          have hload := hs.load_eq hmem (by simp [Load.isFor])
          obtain ⟨t₀, r, -, -, hcourse⟩ := hcourse.of_load hload
          exact hcourse.weight_le hload

/-- The bound on the turns without time passing is large enough. -/
theorem potential_le_turnBound (hg : Going s own issued due asked h) :
    h.potential ≤ h.turnBound := by
  have hweight := sum_weight_le fun load hmem => hg.weight_le hmem
  have hlength : h.loads.length ≤ h.engine.bus.queue.length + h.engine.tasks.size +
      h.ready.length + h.timers.length := by
    have htasks := List.length_filterMap_le Task.message? h.engine.tasks.values
    have hready := List.length_filterMap_le (Turn.load? h.now) h.ready
    have htimers := List.length_filterMap_le (fun w : Timer => w.turn.load? w.due) h.timers
    rw [Assoc.length_values] at htasks
    unfold Host.loads Engine.mail
    simp only [List.length_append, List.length_map]
    omega
  unfold Host.potential Host.backlog Host.turnBound
  dsimp only
  refine Nat.le_trans ?_ (Nat.le_mul_of_pos_right _ (Nat.succ_pos _))
  omega

/-- When the host is at rest, no message is on its way. -/
theorem no_mail (hg : Going s own issued due asked h) (hidle : h.ready = []) (m : Message) :
    .mail m ∉ h.loads := by
  have hqueue : h.engine.bus.queue = [] := by
    refine Decidable.byContradiction fun hne => ?_
    have hturn := hg.calm.queue hne
    rw [hidle] at hturn
    cases hturn
  unfold Host.loads Engine.mail
  rw [hqueue, hidle]
  simp only [List.nil_append, List.filterMap_nil, List.append_nil, List.mem_append, List.mem_map,
    List.mem_filterMap]
  rintro (⟨m', ⟨task, hmem, -⟩, -⟩ | ⟨w, hw, hload⟩)
  · obtain ⟨t, hold⟩ := (Assoc.mem_values _ _).mp hmem
    have hturn := (hg.calm.tasks t task hold).2
    rw [hidle] at hturn
    cases hturn
  · generalize w.turn = turn at hload
    cases turn <;> cases hload

end Going

/-- The requests of a host are on course, whoever its negotiations are about. -/
def Running (s : Setup) (asked : CorrelationKey → Option (Nat × DataRequest)) (h : Host Loopback) :
    Prop :=
  ∃ own issued due, Going s own issued due asked h

namespace Running

theorem step {turn : Turn} {rest : List Turn} (hr : Running s asked h)
    (hready : h.ready = turn :: rest) : Running s asked h.step ∧ h.Proceeds h.step := by
  obtain ⟨own, issued, due, hg⟩ := hr
  obtain ⟨own', issued', due', hnext, hproceeds⟩ := hg.step hready
  exact ⟨⟨own', issued', due', hnext⟩, hproceeds⟩

/-- The host comes to rest, and no time passes. -/
theorem steps (hr : Running s asked h) (n : Nat) (hn : h.potential ≤ n) :
    Running s asked (h.steps n) ∧ (h.steps n).ready = [] ∧ (h.steps n).now = h.now := by
  induction n generalizing h with
  | zero =>
      have hidle : h.ready = [] := by
        unfold Host.potential Host.backlog at hn
        exact List.length_eq_zero_iff.mp (by omega)
      exact ⟨hr, hidle, rfl⟩
  | succ n ih =>
      unfold Host.steps
      cases hready : h.ready with
      | nil => exact ⟨hr, hready, rfl⟩
      | cons turn rest =>
          obtain ⟨hnext, hproceeds⟩ := hr.step hready
          have hlt := hproceeds.potential
          obtain ⟨hend, hidle, hnow⟩ := ih hnext (by omega)
          exact ⟨hend, hidle, hnow.trans hproceeds.now⟩

theorem settle (hr : Running s asked h) :
    Running s asked h.settle ∧ h.settle.ready = [] ∧ h.settle.now = h.now := by
  obtain ⟨own, issued, due, hg⟩ := hr
  exact steps ⟨own, issued, due, hg⟩ h.turnBound hg.potential_le_turnBound

/-! ## Time -/

theorem le_due_of_nextDue? {instant : Nat} (hnext : ∀ due, h.nextDue? = some due → instant ≤ due) :
    ∀ w ∈ h.timers, instant ≤ w.due := by
  intro w hw
  have hmem : w.due ∈ h.timers.map Timer.due := List.mem_map.mpr ⟨w, hw, rfl⟩
  obtain ⟨due, hdue⟩ := Option.isSome_iff_exists.mp (List.isSome_min?_of_mem hmem)
  exact Nat.le_trans (hnext due hdue) ((List.min?_eq_some_iff.mp hdue).2 _ hmem)

/-- The next timer is not due yet. -/
theorem lt_nextDue (hr : Running s asked h) {next : Nat} (hnext : h.nextDue? = some next) :
    h.now < next := by
  obtain ⟨own, issued, due, hg⟩ := hr
  obtain ⟨w, hw, rfl⟩ := List.mem_map.mp (List.min?_eq_some_iff.mp hnext).1
  exact (hg.calm.timers w hw).1

/-- When the host is at rest the clock goes to the next timer, or not as far. -/
theorem goTo (hr : Running s asked h) (hidle : h.ready = []) {instant : Nat}
    (hlater : h.now ≤ instant) (hnext : ∀ due, h.nextDue? = some due → instant ≤ due) :
    Running s asked (h.goTo instant) ∧ (h.goTo instant).now = instant := by
  obtain ⟨own, issued, due, hg⟩ := hr
  obtain ⟨hcalm, hloads⟩ := hg.calm.goTo hidle hlater (le_due_of_nextDue? hnext)
  have hsame := Host.goTo_of_no_task h hg.calm.no_task instant
  generalize h.goTo instant = h' at hcalm hloads hsame ⊢
  have hnow : h'.now = instant := by rw [hsame]; rfl
  refine ⟨⟨own, issued, due, hcalm, ?_, ?_, ?_, ?_, ?_, fun k => ?_⟩, hnow⟩
  · rw [hsame]
    exact hg.services
  · rw [hsame]
    exact hg.ttl
  · rw [hsame]
    exact hg.parked
  · rw [hsame]
    exact hg.indexed
  · rw [hsame]
    exact hg.faithful
  · obtain ⟨q, hs, hcourse⟩ := hg.courses k
    refine ⟨q, ⟨(hloads.filter _).trans hs.loads, ?_, ?_, ?_⟩, ?_⟩
    · rw [hsame]
      exact hs.case
    · rw [hsame]
      exact hs.record
    · rw [hsame]
      exact hs.outcomes
    · generalize asked k = asked? at hcourse ⊢
      cases hcourse with
      | unasked => exact .unasked k
      | asked hcourse =>
          exact .asked (hcourse.later fun m hload => hg.no_mail hidle m (hs.mem_loads hload))

/-- Time passes up to `target`. -/
theorem passTime (hr : Running s asked h) (n target : Nat) (hlater : h.now ≤ target)
    (hn : target < h.now + n) :
    Running s asked (h.passTime n target) ∧ (h.passTime n target).now = target := by
  induction n generalizing h with
  | zero => omega
  | succ n ih =>
      obtain ⟨hrest, hidle, hnow⟩ := hr.settle
      unfold Host.passTime
      dsimp only
      cases hnext : h.settle.nextDue? with
      | none =>
          refine hrest.goTo hidle (hnow ▸ hlater) fun due hdue => ?_
          rw [hnext] at hdue
          cases hdue
      | some next =>
          dsimp only
          split
          · rename_i hsoon
            -- the next timer is not due yet, so there are fewer instants left
            have hlt := hrest.lt_nextDue hnext
            obtain ⟨hthere, hinstant⟩ := hrest.goTo hidle (Nat.le_of_lt hlt) fun due hdue =>
              Nat.le_of_eq (Option.some.inj (hnext.symm.trans hdue))
            refine ih hthere ?_ ?_
            · rw [hinstant]
              exact hsoon
            · rw [hinstant]
              omega
          · rename_i hfar
            refine hrest.goTo hidle (hnow ▸ hlater) fun due hdue => ?_
            obtain rfl := Option.some.inj (hnext.symm.trans hdue)
            exact Nat.le_of_lt (Nat.not_le.mp hfar)

/-- After sleeping the host is at rest. -/
theorem sleep (hr : Running s asked h) (span : Nat) :
    Running s asked (h.sleep span) ∧ (h.sleep span).ready = [] ∧
      (h.sleep span).now = h.now + span := by
  obtain ⟨hthere, hnow⟩ :=
    hr.passTime (span + 2) (h.now + span) (Nat.le_add_right _ _) (by omega)
  obtain ⟨hrest, hidle, hsame⟩ := hthere.settle
  exact ⟨hrest, hidle, hsame.trans hnow⟩

/-! ## Callers -/

/-- A request with a key of its own is submitted. -/
theorem submit (hr : Running s asked h) (hfree : asked r.key = none) :
    Running s (fun k => if k = r.key then some (h.now, r) else asked k)
      (Adapter.submit h r).2 := by
  obtain ⟨own, issued, due, hg⟩ := hr
  obtain ⟨hd, hk⟩ :=
    Host.publishes hg.calm.undisturbed hg.calm.blank hg.calm.ticker (.ofRequest r)
  unfold Adapter.submit
  dsimp only
  generalize (h.apply fun e => e.publish (.ofRequest r)) = h' at hd hk ⊢
  have hcalm := hg.calm.does hd (by simp) (by simp) (by simp) (by simp)
  obtain ⟨q, hs, hcourse⟩ := hg.courses r.key
  rw [hfree] at hcourse
  cases hcourse with
  | unasked =>
      refine ⟨own, issued, due, hg.advance hd hcalm (hk.services.trans hg.services)
        (Nat.le_refl _) (fun _ _ => rfl) (hk.registry ▸ hg.parked) (hk.registry ▸ hg.indexed)
        (hk.offers ▸ hg.faithful) hs (some (.mail (.ofRequest r))) (fun k => (ite_self _).symm)
        (filter_isFor_mail own rfl)
        (fun k hne => ⟨hk.get? k, by rw [hk.registry], rfl, if_neg hne⟩) ?_⟩
      rw [if_pos rfl, hk.get?, hs.case, hk.registry, hs.record]
      exact .asked (.requested rfl)

end Running

end

/-- What can happen to a running adapter. -/
inductive Deed
  /-- A caller submits a request. -/
  | submit (r : DataRequest)
  /-- The first turn is taken. -/
  | turn
  /-- Nothing can run, and time passes, up to the next timer at most. -/
  | wait (span : Nat)
  /-- Everything that can run runs, and time passes, timer by timer. -/
  | sleep (span : Nat)

namespace Deed

/-- The key of the request that is submitted. -/
def key? : Deed → Option CorrelationKey
  | submit r => some r.key
  | turn | wait _ | sleep _ => none

def perform (h : Host Loopback) : Deed → Host Loopback
  | submit r => (Adapter.submit h r).2
  | turn => h.step
  | wait span =>
      if h.ready.isEmpty then h.goTo (min (h.now + span) (h.nextDue?.getD (h.now + span))) else h
  | sleep span => h.sleep span

end Deed

/-- An adapter after the deeds `ds`. -/
def play (h : Host Loopback) (ds : List Deed) : Host Loopback := ds.foldl Deed.perform h

section

variable {asked : CorrelationKey → Option (Nat × DataRequest)} {h : Host Loopback}

namespace Running

/-- One deed keeps all requests on course. -/
theorem perform (hr : Running s asked h) (d : Deed)
    (hfree : ∀ k, d.key? = some k → asked k = none) :
    ∃ asked', Running s asked' (d.perform h) ∧ ∀ k, d.key? ≠ some k → asked' k = asked k := by
  cases d with
  | submit r =>
      refine ⟨_, hr.submit (hfree _ rfl), fun k hne => if_neg ?_⟩
      rintro rfl
      exact hne rfl
  | turn =>
      refine ⟨asked, ?_, fun k _ => rfl⟩
      cases hready : h.ready with
      | nil =>
          have hsame : h.step = h := by simp [Host.step, hready]
          rw [Deed.perform, hsame]
          exact hr
      | cons turn rest => exact (hr.step hready).1
  | wait span =>
      refine ⟨asked, ?_, fun k _ => rfl⟩
      show Running s asked
        (if h.ready.isEmpty then h.goTo (min (h.now + span) (h.nextDue?.getD (h.now + span)))
          else h)
      split
      · rename_i hidle
        refine (hr.goTo (List.isEmpty_iff.mp hidle) ?_ fun due hdue => ?_).1
        · cases hnext : h.nextDue? with
          | none => simp
          | some next =>
              have hlt := hr.lt_nextDue hnext
              simp only [Option.getD_some]
              omega
        · rw [hdue]
          exact Nat.min_le_right _ _
      · exact hr
  | sleep span => exact ⟨asked, (hr.sleep span).1, fun k _ => rfl⟩

/-- Whatever happens, every request stays on course. -/
theorem play (hr : Running s asked h) (ds : List Deed) (hkeys : (ds.filterMap Deed.key?).Nodup)
    (hfree : ∀ k ∈ ds.filterMap Deed.key?, asked k = none) :
    ∃ asked', Running s asked' (Rendezvous.play h ds) ∧
      ∀ k, k ∉ ds.filterMap Deed.key? → asked' k = asked k := by
  induction ds generalizing asked h with
  | nil => exact ⟨asked, hr, fun k _ => rfl⟩
  | cons d ds ih =>
      have hsplit : (d :: ds).filterMap Deed.key? = d.key?.toList ++ ds.filterMap Deed.key? := by
        rw [List.filterMap_cons]
        cases d.key? <;> rfl
      rw [hsplit] at hkeys hfree ⊢
      rw [List.nodup_append] at hkeys
      obtain ⟨-, hrest, hdistinct⟩ := hkeys
      obtain ⟨asked₁, hnext, hothers⟩ := hr.perform d fun k hkey =>
        hfree k (List.mem_append_left _ (Option.mem_toList.mpr hkey))
      have hsame : ∀ k ∈ ds.filterMap Deed.key?, asked₁ k = asked k := fun k hmem =>
        hothers k fun hkey => hdistinct k (Option.mem_toList.mpr hkey) k hmem rfl
      obtain ⟨asked₂, hend, hframe⟩ := ih hnext hrest fun k hmem =>
        (hsame k hmem).trans (hfree k (List.mem_append_right _ hmem))
      refine ⟨asked₂, hend, fun k hnot => ?_⟩
      rw [List.mem_append, not_or] at hnot
      rw [hframe k hnot.2, hothers k fun hkey => hnot.1 (Option.mem_toList.mpr hkey)]

/-- Where a request was submitted among others, it is known what was asked and when. -/
theorem play_asked (hr : Running s (fun _ => none) h) {before after : List Deed}
    (hkeys : ((before ++ .submit r :: after).filterMap Deed.key?).Nodup) :
    ∃ asked', Running s asked' (Rendezvous.play h (before ++ .submit r :: after)) ∧
      asked' r.key = some ((Rendezvous.play h before).now, r) := by
  have hsplit : (before ++ .submit r :: after).filterMap Deed.key? =
      before.filterMap Deed.key? ++ r.key :: after.filterMap Deed.key? := List.filterMap_append
  rw [hsplit, List.nodup_append] at hkeys
  obtain ⟨hbefore, hafter, hdistinct⟩ := hkeys
  obtain ⟨hnot, hafter⟩ := List.nodup_cons.mp hafter
  obtain ⟨asked₁, hgo, hsame⟩ := hr.play before hbefore fun _ _ => rfl
  have hkey : r.key ∉ before.filterMap Deed.key? := fun hmem =>
    hdistinct _ hmem _ List.mem_cons_self rfl
  obtain ⟨asked₂, hgo₂, hframe⟩ :=
    (hgo.submit (hsame _ hkey)).play after hafter fun k hmem => by
      have hother : k ≠ r.key := fun heq => hnot (heq ▸ hmem)
      exact (if_neg hother).trans
        (hsame k fun hold => hdistinct k hold k (List.mem_cons_of_mem _ hmem) rfl)
  refine ⟨asked₂, ?_, ?_⟩
  · unfold Rendezvous.play
    rw [List.foldl_append, List.foldl_cons]
    exact hgo₂
  · rw [hframe _ hnot, if_pos rfl]

end Running

end

/-! ## From the start to the end -/

theorem Settings.sweepInterval_pos {settings : Settings} (h : settings.objection? = none) :
    0 < settings.sweepInterval := by
  unfold Settings.objection? at h
  cases hfind : settings.positive.find? fun p => p.2 = 0 with
  | some p =>
      rw [hfind] at h
      cases h
  | none =>
      have hmem : ("sweep_interval_ms", settings.sweepIntervalMs) ∈ settings.positive := by
        simp [Settings.positive]
      have hne := List.find?_eq_none.mp hfind _ hmem
      exact Nat.pos_of_ne_zero fun heq => hne (decide_eq_true heq)

/-- The adapter starts with nothing in it but a sweep. -/
theorem Running.start {settings : Settings} {p : Loopback} {h₀ : Host Loopback}
    (hstart : Adapter.startLoopback settings p = .ok h₀)
    (hprompt : 2 * p.latency < settings.caseTtl) :
    ∃ s : Setup, s.provider = p ∧ s.ttl = settings.caseTtl ∧ s.interval = settings.sweepInterval ∧
      Running s (fun _ => none) h₀ := by
  unfold Adapter.startLoopback Adapter.start at hstart
  split at hstart
  · cases hstart
  · rename_i hvalid
    obtain rfl := Except.ok.inj hstart
    have hpos := Settings.sweepInterval_pos hvalid
    refine ⟨⟨p, settings.caseTtl, settings.sweepInterval, hpos, hprompt⟩, rfl, rfl, rfl,
      fun _ => ⟨""⟩, p.issued, 0, ?_, rfl, rfl, fun n => rfl, fun k record hrecord => ?_, ?_,
      fun k => ⟨{}, ⟨.refl _, rfl, rfl, rfl⟩, .unasked k⟩⟩
    · refine ⟨⟨rfl, rfl, rfl, fun t _ => rfl⟩, rfl, fun t task hold => ?_, fun hqueue => ?_, rfl,
        fun w hw => ?_, rfl, rfl, fun _ => rfl, fun w hw => ?_, Nat.dvd_zero _, Nat.zero_le _⟩
      · cases hold
      · exact absurd rfl hqueue
      · cases hw
      · cases hw
    · cases hrecord
    · intro key entry hentry
      cases hentry

namespace Loopback

/-- The request `r` ended at `instant` as the provider has it, and nothing of it is left. -/
structure Over (p : Loopback) (h : Host Loopback) (r : DataRequest) (instant : Nat) : Prop where
  outcomes : ∃ o, p.Gives r o ∧ h.outcomes r.key = [(instant, o)]
  case : h.engine.store.get? r.key = none
  record : h.engine.registry.records.get? r.key = none

end Loopback

theorem Shows.over_of_ended {h : Host Loopback} {instant : Nat} {o : Outcome}
    (hs : Shows own h r.key { outcomes := [(instant, o)] }) (hgives : s.provider.Gives r o) :
    s.provider.Over h r instant :=
  ⟨⟨o, hgives, hs.outcomes⟩, hs.case, hs.record⟩

section

variable {asked : CorrelationKey → Option (Nat × DataRequest)} {h : Host Loopback}

namespace Running

/-- At every moment the request has no outcome yet, or it has ended as it should. -/
theorem quiet_or_over (hr : Running s asked h) (hasked : asked r.key = some (t₀, r)) :
    h.outcomes r.key = [] ∨
      s.provider.Over h r (s.provider.endsAt s.ttl s.interval t₀ r.asset) := by
  obtain ⟨own, issued, due, hg⟩ := hr
  obtain ⟨q, hs, hcourse⟩ := hg.courses r.key
  rw [hasked] at hcourse
  cases hcourse.course with
  | requested | refusing | agreeing | silent | delivering | ending => exact .inl hs.outcomes
  | ended o hgives => exact .inr (hs.over_of_ended hgives)

/-- When its instant is past, or is now and the host is at rest, the request has ended. -/
theorem over_of_past (hr : Running s asked h) (hasked : asked r.key = some (t₀, r))
    (hpast : s.provider.endsAt s.ttl s.interval t₀ r.asset < h.now ∨
      h.ready = [] ∧ s.provider.endsAt s.ttl s.interval t₀ r.asset ≤ h.now) :
    s.provider.Over h r (s.provider.endsAt s.ttl s.interval t₀ r.asset) := by
  obtain ⟨own, issued, due, hg⟩ := hr
  obtain ⟨q, hs, hcourse⟩ := hg.courses r.key
  rw [hasked] at hcourse
  have hleft : ∃ instant, s.provider.endsAt s.ttl s.interval t₀ r.asset < instant ∧
      (∀ m, q.load? = some (.mail m) → instant ≤ h.now) ∧
      (∀ d cs, q.load? = some (.errand d cs) → instant ≤ d) ∧ instant ≤ due := by
    rcases hpast with hpast | ⟨hidle, hpast⟩
    · exact ⟨h.now, hpast, fun _ _ => Nat.le_refl _,
        fun d cs hload => (hg.calm.errand_due (hs.mem_loads hload)).1, hg.calm.sweep_due.1⟩
    · exact ⟨h.now + 1, Nat.lt_succ_of_le hpast,
        fun m hload => absurd (hs.mem_loads hload) (hg.no_mail hidle m),
        fun d cs hload => (hg.calm.errand_due (hs.mem_loads hload)).2 hidle,
        hg.calm.sweep_due.2 hidle⟩
  obtain ⟨instant, hends, hmail, herrand, hdue⟩ := hleft
  obtain ⟨o, hgives, rfl⟩ := hcourse.course.ended_of_past hends hmail herrand hdue hg.calm.multiple
  exact hs.over_of_ended hgives

end Running

end

/-- A request among others with other keys has no outcome before its end and one afterwards: the one
that the provider's sets say, at the instant that follows from when it was submitted. -/
theorem Loopback.every_request_ends {settings : Settings} {p : Loopback} {h₀ : Host Loopback}
    (hstart : Adapter.startLoopback settings p = .ok h₀)
    (hprompt : 2 * p.latency < settings.caseTtl) (before after : List Deed) (r : DataRequest)
    (hkeys : ((before ++ .submit r :: after).filterMap Deed.key?).Nodup) :
    let ends := p.endsAt settings.caseTtl settings.sweepInterval (play h₀ before).now r.asset
    let h := play h₀ (before ++ .submit r :: after)
    (h.outcomes r.key = [] ∨ p.Over h r ends) ∧ (ends < h.now → p.Over h r ends) ∧
      ∀ span, ends ≤ h.now + span → p.Over (h.sleep span) r ends := by
  obtain ⟨s, rfl, httl, hinterval, hr⟩ := Running.start hstart hprompt
  obtain ⟨asked, hr, hasked⟩ := hr.play_asked hkeys
  rw [← httl, ← hinterval]
  refine ⟨hr.quiet_or_over hasked, fun hpast => hr.over_of_past hasked (.inl hpast),
    fun span hlong => ?_⟩
  obtain ⟨hrest, hidle, hnow⟩ := hr.sleep span
  exact hrest.over_of_past hasked (.inr ⟨hidle, hnow ▸ hlong⟩)

/-- Of two requests one is never answered, the other is declined. -/
theorem Loopback.every_request_ends_of_declined :
    let p : Loopback := { latency := 40, declined := [⟨"d"⟩], silent := [⟨"s"⟩] }
    let before : List Deed := [.submit ⟨⟨"k1"⟩, ⟨"s"⟩, "P"⟩, .turn, .sleep 7]
    let after : List Deed := [.turn, .wait 3]
    let r : DataRequest := ⟨⟨"k2"⟩, ⟨"d"⟩, "P"⟩
    ∃ h₀, Adapter.startLoopback {} p = .ok h₀ ∧ 2 * p.latency < Settings.caseTtl {} ∧
      ((before ++ .submit r :: after).filterMap Deed.key?).Nodup ∧ (play h₀ before).now = 7 ∧
      p.Over ((play h₀ (before ++ .submit r :: after)).sleep 47) r 47 := by
  intro p before after r
  have hends : ∀ h₀, Adapter.startLoopback {} p = .ok h₀ → (play h₀ before).now = 7 →
      p.Over ((play h₀ (before ++ .submit r :: after)).sleep 47) r 47 := by
    intro h₀ hstart hnow
    have hend := (every_request_ends hstart (by decide) before after r (by decide)).2.2 47
    rw [hnow] at hend
    exact hend (Nat.le_add_left _ _)
  refine ⟨_, rfl, by decide, by decide, ?now, hends _ rfl ?now⟩
  decide +kernel

end Rendezvous
