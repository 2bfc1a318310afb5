import Rendezvous.Proofs.Expiry
import Rendezvous.Proofs.Redelivery
import Rendezvous.Proofs.Stamps

/-!
# The cache of offers

A request asks the catalog for an offer unless the cache has one.  Entries go stale, reading drops
them, and sweeps purge them; none of it shows.  What the cache has for a pair of provider and asset
follows from the answers that the catalog gave for that pair, and from nothing else.

The answers are arbitrary, so the catalog may change its mind at any time, and handlers of different
keys may wait for it side by side.

* `Engine.lookups`: the answers of the catalog along a schedule;
* `offered?`: the last offer among them for a pair;
* `caches_after`: what can be read of the cache is that offer, as long as it is young;
* `asks?_after`, `Sound.asks_cases`: what is asked, and by whom;
* `offer_cache_is_transparent`: all of it together.
-/

namespace Rendezvous

/-- An answer of the catalog, with what it was asked for and the instant of the answer. -/
structure Lookup where
  pair : String × AssetId
  instant : Nat
  answer : Except EngineError ContractOffer

/-- The offer for the pair that the lookup has found, with its instant. -/
def Lookup.found? (pair : String × AssetId) (l : Lookup) : Option (ContractOffer × Nat) :=
  if l.pair = pair then l.answer.toOption.map (·, l.instant) else none

/-- The last offer for the pair that lookups have found, with its instant. -/
def offered? (pair : String × AssetId) : List Lookup → Option (ContractOffer × Nat)
  | [] => none
  | l :: ls => (offered? pair ls).or (l.found? pair)

section

variable {pair : String × AssetId} {ls : List Lookup} {offer : ContractOffer}
variable {instant ttl now : Nat}

theorem offered?_append (pair : String × AssetId) (ls ls' : List Lookup) :
    offered? pair (ls ++ ls') = (offered? pair ls').or (offered? pair ls) := by
  induction ls with
  | nil => simp [offered?]
  | cons l ls ih => rw [List.cons_append, offered?, ih, offered?, Option.or_assoc]

theorem offered?_concat (pair : String × AssetId) (ls : List Lookup) (l : Lookup) :
    offered? pair (ls ++ [l]) = (l.found? pair).or (offered? pair ls) := by
  simp [offered?_append, offered?]

theorem mem_of_offered? (h : offered? pair ls = some (offer, instant)) :
    ∃ l ∈ ls, l.found? pair = some (offer, instant) := by
  induction ls with
  | nil => cases h
  | cons l ls ih =>
      rw [offered?] at h
      rcases Option.or_eq_some_iff.mp h with h | ⟨-, h⟩
      · obtain ⟨l', hmem, hfound⟩ := ih h
        exact ⟨l', List.mem_cons_of_mem _ hmem, hfound⟩
      · exact ⟨l, List.mem_cons_self, h⟩

theorem Lookup.instant_of_found? {l : Lookup} (h : l.found? pair = some (offer, instant)) :
    l.instant = instant := by
  unfold found? at h
  split at h
  · obtain ⟨_, -, heq⟩ := Option.map_eq_some_iff.mp h
    exact congrArg Prod.snd heq
  · cases h

/-- An offer that can still be read is one that was found not too long ago. -/
theorem exists_young (h : ExpiringMap.readable? ttl now (offered? pair ls) = some offer) :
    ∃ l ∈ ls, l.found? pair = some (offer, l.instant) ∧ age now l.instant < ttl := by
  obtain ⟨⟨offer', since⟩, hfilter, rfl⟩ := Option.map_eq_some_iff.mp h
  obtain ⟨hlast, hyoung⟩ := Option.filter_eq_some_iff.mp hfilter
  obtain ⟨l, hmem, hfound⟩ := mem_of_offered? hlast
  have hinstant := Lookup.instant_of_found? hfound
  rw [← hinstant] at hfound hyoung
  exact ⟨l, hmem, hfound, by simpa using hyoung⟩

theorem readable?_some_eq_none_iff : ExpiringMap.readable? ttl now (some (offer, instant)) = none ↔
    ttl ≤ age now instant := by
  by_cases h : age now instant < ttl
  · simp [ExpiringMap.readable?, Option.filter, h, Nat.not_le_of_lt h]
  · simp [ExpiringMap.readable?, Option.filter, h, Nat.le_of_not_lt h]

/-- The last offer found is the youngest, so it is too old exactly if all are. -/
theorem readable?_offered?_eq_none_iff (hsorted : ls.Pairwise fun l l' => l.instant ≤ l'.instant) :
    ExpiringMap.readable? ttl now (offered? pair ls) = none ↔
      ∀ l ∈ ls, (l.found? pair).isSome → ttl ≤ age now l.instant := by
  induction ls with
  | nil => simp [offered?, ExpiringMap.readable?]
  | cons l ls ih =>
      obtain ⟨hfirst, hrest⟩ := List.pairwise_cons.mp hsorted
      specialize ih hrest
      rw [offered?, List.forall_mem_cons, ← ih]
      cases hlast : offered? pair ls with
      | none =>
          rw [Option.none_or]
          cases hfound : l.found? pair with
          | none => simp [ExpiringMap.readable?]
          | some x =>
              obtain ⟨offer, since⟩ := x
              have hinstant : l.instant = since := Lookup.instant_of_found? hfound
              simp [ExpiringMap.readable?, hinstant]
      | some x =>
          obtain ⟨offer, since⟩ := x
          obtain ⟨l', hmem, hfound⟩ := mem_of_offered? hlast
          rw [Option.some_or, readable?_some_eq_none_iff]
          refine ⟨fun hold => ⟨fun _ => ?_, hold⟩, And.right⟩
          have hle : l.instant ≤ since := Lookup.instant_of_found? hfound ▸ hfirst l' hmem
          exact Nat.le_trans hold (Nat.sub_le_sub_left hle now)

end

namespace Engine

variable {e e' : Engine} {a : Action} {l : Lookup} {t : TaskId} {m : Message} {q : Asking}
variable {r : DataRequest} {pair : String × AssetId} {offer : ContractOffer}

/-- The lookup that an action ends: the catalog answers a handler that waits for it. -/
def lookup? (e : Engine) : Action → Option Lookup
  | .reply t (.offer answer) =>
      match e.tasks.get? t with
      | some (.resolving _ asset provider) =>
          some { pair := (provider, asset), instant := e.now, answer }
      | _ => none
  | _ => none

/-- The answers of the catalog along a schedule, in order. -/
def lookups : Engine → List Action → List Lookup
  | _, [] => []
  | e, a :: as => (e.lookup? a).toList ++ lookups (e.act a) as

/-! ## What an action makes of the cache -/

theorem lookup?_eq_some (h : e.lookup? a = some l) :
    ∃ t m, a = .reply t (.offer l.answer) ∧
      e.tasks.get? t = some (.resolving m l.pair.2 l.pair.1) ∧ l.instant = e.now := by
  unfold lookup? at h
  split at h
  · rename_i t answer
    split at h
    · rename_i m asset provider hold
      cases h
      exact ⟨t, m, rfl, hold, rfl⟩
    · cases h
  · cases h

theorem lookup?_resolving {asset : AssetId} {provider : String}
    (hold : e.tasks.get? t = some (.resolving m asset provider))
    (answer : Except EngineError ContractOffer) :
    e.lookup? (.reply t (.offer answer)) =
      some { pair := (provider, asset), instant := e.now, answer } := by
  simp [lookup?, hold]

theorem act_reply_offer {asset : AssetId} {provider : String}
    (hold : e.tasks.get? t = some (.resolving m asset provider))
    (answer : Except EngineError ContractOffer) :
    e.act (.reply t (.offer answer)) =
      (e.onOffer m asset provider answer).1.leave t m (e.onOffer m asset provider answer).2 := by
  simp [act, reply, hold]

/-- Only an answer of the catalog changes what can be read of the cache. -/
theorem Step.offers_unchanged (hs : e.Step a e') (hnone : e.lookup? a = none) :
    e'.offers.Shows e.now e.offers.peek? := by
  have hsame : ∀ {offers : OfferCache}, offers = e.offers → offers.Shows e.now e.offers.peek? := by
    rintro offers rfl
    exact fun _ _ _ => rfl
  cases hs with
  | idle | park | dispatch | begin | look | queueUp | keep | neverMind | pass | take =>
      exact hsame rfl
  | submit | forward | letGo | leaveQueue => exact hsame (by simp)
  | outcome t m => exact hsame (by simp)
  | handle t m =>
      rw [offers_leave]
      rcases (e.stock_handle m).2 with heq | ⟨pair, heq⟩
      · exact hsame heq
      · rw [heq]
        exact (hsame rfl).get pair
  | visit t sweep key seen => exact hsame (by simp)
  | finishSweep => exact (hsame rfl).purge
  | listen t key deadline =>
      refine hsame ?_
      unfold lookForOutcome
      dsimp only
      split <;> rfl
  | offer t m asset provider answer hold =>
      rw [lookup?_resolving hold] at hnone
      cases hnone
  | negotiation => exact hsame (by simp [stock_onNegotiation])
  | transfer t m c request answer =>
      refine hsame ?_
      rw [offers_leave]
      cases answer <;> rfl

/-- An answer of the catalog comes to the cache if it is an offer. -/
theorem offers_act_of_lookup (hl : e.lookup? a = some l) :
    (e.act a).offers =
      match l.answer with
      | .ok offer => e.offers.insert e.now l.pair offer
      | .error _ => e.offers := by
  obtain ⟨t, m, rfl, hold, -⟩ := lookup?_eq_some hl
  rw [act_reply_offer hold]
  cases l.answer <;> simp [onOffer]

/-- From `e` on, what can be read of the cache is what was found last, as long as it is young. -/
def Caches (e : Engine) (ttl : Nat) (ls : List Lookup) : Prop :=
  e.offers.ttl = ttl ∧
    e.offers.Shows e.now fun later pair => ExpiringMap.readable? ttl later (offered? pair ls)

theorem Caches.lookup {ls : List Lookup} {ttl : Nat} (hc : e.Caches ttl ls)
    (hl : e.lookup? a = some l) :
    (e.act a).offers.Shows e.now fun later pair =>
      ExpiringMap.readable? ttl later (offered? pair (ls ++ [l])) := by
  obtain ⟨httl, hshows⟩ := hc
  obtain ⟨-, -, -, -, hinstant⟩ := lookup?_eq_some hl
  rw [offers_act_of_lookup hl]
  cases hanswer : l.answer with
  | error error =>
      refine hshows.congr fun later _ pair => ?_
      have hfound : l.found? pair = none := by simp [Lookup.found?, hanswer, Except.toOption]
      rw [offered?_concat, hfound, Option.none_or]
  | ok offer =>
      refine (hshows.insert l.pair offer).congr fun later _ pair => ?_
      rw [offered?_concat]
      by_cases hpair : l.pair = pair
      · have hfound : l.found? pair = some (offer, e.now) := by
          simp [Lookup.found?, hanswer, hpair, hinstant, Except.toOption]
        rw [hfound, Option.some_or, if_pos hpair, httl]
        by_cases hyoung : age later e.now < ttl <;>
          simp [ExpiringMap.readable?, Option.filter, hyoung]
      · have hfound : l.found? pair = none := by simp [Lookup.found?, hpair]
        rw [hfound, Option.none_or, if_neg hpair]

/-- What can be read of the cache follows the answers of the catalog. -/
theorem Caches.act {ls : List Lookup} {ttl : Nat} (hc : e.Caches ttl ls) (h : Sound e)
    (a : Action) : (e.act a).Caches ttl (ls ++ (e.lookup? a).toList) := by
  have hnow := (act_leads h a).now_le
  refine ⟨(act_stocks h a).offers.ttl.trans hc.1, ?_⟩
  cases hl : e.lookup? a with
  | some l => exact (hc.lookup hl).later hnow
  | none =>
      have hunchanged := ((e.act_step a).offers_unchanged hl).later hnow
      rw [Option.toList_none, List.append_nil]
      exact hunchanged.congr fun later hlater pair =>
        hc.2 later (Nat.le_trans hnow hlater) pair

theorem Caches.after {ls : List Lookup} {ttl : Nat} (hc : e.Caches ttl ls) (h : Sound e)
    (as : List Action) : (e.after as).Caches ttl (ls ++ e.lookups as) := by
  induction as generalizing e ls with
  | nil => simpa [lookups] using hc
  | cons a as ih =>
      rw [after_cons, lookups, ← List.append_assoc]
      exact ih (hc.act h a) (h.act a)

/-- In every reachable state the cache has the offers found last, as long as they are young. -/
theorem caches_after (s : Settings) (as : List Action) :
    ((ofSettings s).after as).Caches s.offerCacheTtl ((ofSettings s).lookups as) := by
  have hempty : (ofSettings s).Caches s.offerCacheTtl [] := ⟨rfl, fun _ _ _ => rfl⟩
  exact hempty.after (sound_ofSettings s) as

/-- The catalog gives its answers one after the other. -/
theorem Sound.lookups_sorted (h : Sound e) (as : List Action) :
    (e.lookups as).Pairwise (fun l l' => l.instant ≤ l'.instant) ∧
      ∀ l ∈ e.lookups as, e.now ≤ l.instant := by
  induction as generalizing e with
  | nil => exact ⟨.nil, by simp [lookups]⟩
  | cons a as ih =>
      obtain ⟨hsorted, hlater⟩ := ih (h.act a)
      have hnow := (act_leads h a).now_le
      rw [lookups]
      cases hl : e.lookup? a with
      | none => exact ⟨hsorted, fun l hmem => Nat.le_trans hnow (hlater l hmem)⟩
      | some l =>
          obtain ⟨-, -, -, -, hinstant⟩ := lookup?_eq_some hl
          refine ⟨List.pairwise_cons.mpr ⟨fun l' hmem => ?_, hsorted⟩, fun l' hmem => ?_⟩
          · exact hinstant ▸ Nat.le_trans hnow (hlater l' hmem)
          · rcases List.mem_cons.mp hmem with rfl | hmem
            · exact Nat.le_of_eq hinstant.symm
            · exact Nat.le_trans hnow (hlater l' hmem)

/-! ## What is asked -/

theorem passage?_of_handling? (h : e.handling? a = some m) :
    ∃ t, e.passage? a = some ⟨t, m, e.handle m⟩ := by
  unfold handling? at h
  split at h
  · rename_i t
    split at h
    · rename_i m' hold
      split at h
      · rename_i howns
        cases h
        exact ⟨t, passage?_handle hold (by simpa [owns] using howns)⟩
      · cases h
    · cases h
  · cases h

/-- The call by which a request without a case begins: for a negotiation if there is an offer, for
an offer if not. -/
def opening (r : DataRequest) : Option ContractOffer → Call
  | some offer => .negotiate offer
  | none => .resolve r.provider r.asset

theorem opening_eq_negotiate_iff {offer? : Option ContractOffer} :
    opening r offer? = .negotiate offer ↔ offer? = some offer := by
  cases offer? <;> simp [opening]

theorem opening_eq_resolve_iff {offer? : Option ContractOffer} {provider : String}
    {asset : AssetId} : opening r offer? = .resolve provider asset ↔
      offer? = none ∧ r.provider = provider ∧ r.asset = asset := by
  cases offer? <;> simp [opening]

/-- A request that finds no case asks the catalog unless the cache has an offer. -/
theorem Sound.asks?_of_vacant (h : Sound e) (hhandling : e.handling? a = some (.ofRequest r))
    (hvacant : e.store.live? r.key = none) :
    ∃ t, e.asks? a = some
      { task := t
        message := .ofRequest r
        call := opening r (e.offers.peek? e.now (r.provider, r.asset)) } := by
  obtain ⟨t, hpassage⟩ := passage?_of_handling? hhandling
  have hcase : e.store.get? r.key = none := (live?_eq_get? (h.coherent r.key)).symm.trans hvacant
  have hhandle : e.handle (.ofRequest r) = e.onRequest (.ofRequest r) r.asset r.provider := rfl
  have hkey : (Message.ofRequest r).key = r.key := rfl
  simp only [onRequest, hkey, hcase] at hhandle
  rw [← ExpiringMap.fst_get]
  cases hoffer : (e.offers.get e.now (r.provider, r.asset)).1 with
  | some offer =>
      rw [hoffer] at hhandle
      exact ⟨t, asks?_eq_some.mpr ⟨_, .negotiating (.ofRequest r) r.asset r.provider offer,
        hpassage, congrArg Prod.snd hhandle, rfl, rfl, rfl⟩⟩
  | none =>
      rw [hoffer] at hhandle
      exact ⟨t, asks?_eq_some.mpr ⟨_, .resolving (.ofRequest r) r.asset r.provider, hpassage,
        congrArg Prod.snd hhandle, rfl, rfl, rfl⟩⟩

theorem lookup?_of_cause {answer : Except EngineError ContractOffer} {asset : AssetId}
    {provider : String}
    (hcause : e.cause a = .answered (.resolving m asset provider) (.offer answer)) :
    e.lookup? a = some { pair := (provider, asset), instant := e.now, answer } := by
  unfold Engine.cause at hcause
  split at hcause
  · split at hcause <;> cases hcause
  · split at hcause
    · rename_i hold
      cases hcause
      exact lookup?_resolving hold answer
    · cases hcause
  · cases hcause

/-- Who makes a call by handling a message has entered its section. -/
theorem Asks.handling? {task : Task} (h : e.Asks a q task) (hcause : e.cause a = .handled m) :
    e.handling? a = some m := by
  cases hhandling : e.handling? a with
  | some m' =>
      have hsame := (cause_of_handling? hhandling).symm.trans hcause
      cases hsame
      rfl
  | none =>
      -- then the action would do nothing, but the call is in the history
      obtain ⟨own, hhistory, -⟩ := h.history
      rw [act_of_handling?_eq_none hhandling hcause] at hhistory
      have hlength := congrArg List.length hhistory
      simp only [List.length_cons, List.length_append] at hlength
      omega

/-- Who makes a call handles a request that finds no case, or has just been given an offer, or asks
for a transfer. -/
theorem Sound.asks_cases (h : Sound e) (hq : e.asks? a = some q) :
    (∃ r, e.handling? a = some (.ofRequest r) ∧ e.store.live? r.key = none) ∨
      (∃ (r : DataRequest) (offer : ContractOffer),
        e.lookup? a =
          some { pair := (r.provider, r.asset), instant := e.now, answer := .ok offer } ∧
        q.message = .ofRequest r ∧ q.call = .negotiate offer) ∨
      ∃ request, q.call = .transfer request := by
  obtain ⟨task, hasks⟩ := h.asks hq
  have hcalls : task.call?.isSome := by
    rw [hasks.call]
    rfl
  rcases hasks.move.of_call hasks.openCall hcalls with
    ⟨r, hkey, -, hvacant, hcause⟩ | ⟨r, offer, -, hcause, htask⟩ |
      ⟨c, record, n, contract, -, -, -, -, -, -, -, htask⟩
  · refine .inl ⟨r, hasks.handling? hcause, CaseStore.live?_eq_none _ _ ?_⟩
    rw [hkey]
    exact hvacant
  · have hcall := hasks.call
    rw [htask] at hcall
    refine .inr (.inl ⟨r, offer, lookup?_of_cause hcause, ?_, (Option.some.inj hcall).symm⟩)
    cases hasks.calling with
    | begins _ hhandled => rw [hhandled] at hcause; cases hcause
    | offered asset provider offer' _ htask' =>
        exact (Task.negotiating.inj (htask'.symm.trans htask)).1
  · have hcall := hasks.call
    rw [htask] at hcall
    exact .inr (.inr ⟨_, (Option.some.inj hcall).symm⟩)

/-- A request that cannot have an offer is rejected with the reason that the catalog gives. -/
theorem Sound.act_refused (h : Sound e) {asset : AssetId} {provider : String}
    (hold : e.tasks.get? t = some (.resolving m asset provider)) (error : EngineError) :
    let e' := e.act (.reply t (.offer (.error error)))
    e'.offers = e.offers ∧ e.asks? (.reply t (.offer (.error error))) = none ∧
      e'.bus.queue = e.bus.queue ++ [.failed m.key (.offerUnavailable error.message)] ∧
      e'.tasks.get? t = none := by
  intro e'
  have hopen := h.regular.isOpen
  have hact : e' = ((e.leaveLock t m.key).publish
      (.failed m.key (.offerUnavailable error.message))).finish t .handled :=
    (act_reply_offer hold _).trans (leave_publish t m _ hopen)
  refine ⟨by simp [hact], ?_, by simp [hact, Bus.publish, hopen], by simp [hact]⟩
  simp [asks?, passage?_offer hold, onOffer]

/-- A request that finds no case asks for a negotiation about the offer that was found last if that
is young, and asks the catalog if not. -/
theorem asks?_after (s : Settings) (as : List Action)
    (hhandling : ((ofSettings s).after as).handling? a = some (.ofRequest r))
    (hvacant : ((ofSettings s).after as).store.live? r.key = none) :
    ∃ t, ((ofSettings s).after as).asks? a = some
      { task := t
        message := .ofRequest r
        call := opening r (ExpiringMap.readable? s.offerCacheTtl ((ofSettings s).after as).now
          (offered? (r.provider, r.asset) ((ofSettings s).lookups as))) } := by
  obtain ⟨t, hasks⟩ := (sound_after s as).asks?_of_vacant hhandling hvacant
  rw [(caches_after s as).2 _ (Nat.le_refl _)] at hasks
  exact ⟨t, hasks⟩

/-- Let `ls` be what the catalog has answered along a schedule, and let an action follow.

* An offer that a negotiation is asked for is one that the catalog has given for the provider and
  the asset of the request, by this action, or for a request that is handled now less than the time
  to live ago.
* A request that finds no live case asks for something, and it asks the catalog exactly if no offer
  that the catalog has given for its pair is younger than the time to live.
* Nobody else asks the catalog.
* If the catalog answers with an error then the cache stays as it is, nothing is asked, the request
  is rejected with the text of the error and its handler ends.
* Unless the action brings an offer of the catalog for a pair, it does not change what anybody finds
  in the cache for that pair: neither a sweep does nor a request for another pair. -/
theorem offer_cache_is_transparent (s : Settings) (as : List Action) (a : Action) :
    let e := (ofSettings s).after as
    let ls := (ofSettings s).lookups as
    let ttl := s.offerCacheTtl
    (∀ q offer, e.asks? a = some q → q.call = .negotiate offer →
      ∃ r, q.message = .ofRequest r ∧
        ((∃ l, e.lookup? a = some l ∧ l.found? (r.provider, r.asset) = some (offer, e.now)) ∨
          e.handling? a = some q.message ∧
            ∃ l ∈ ls, l.found? (r.provider, r.asset) = some (offer, l.instant) ∧
              age e.now l.instant < ttl)) ∧
    (∀ r, e.handling? a = some (.ofRequest r) → e.store.live? r.key = none →
      ∃ q, e.asks? a = some q ∧ q.message = .ofRequest r ∧
        (q.call = .resolve r.provider r.asset ↔
          ∀ l ∈ ls, (l.found? (r.provider, r.asset)).isSome → ttl ≤ age e.now l.instant)) ∧
    (∀ q provider asset, e.asks? a = some q → q.call = .resolve provider asset →
      ∃ r, e.handling? a = some (.ofRequest r) ∧ e.store.live? r.key = none ∧
        q.message = .ofRequest r ∧ r.provider = provider ∧ r.asset = asset) ∧
    (∀ t m asset provider error, a = .reply t (.offer (.error error)) →
      e.tasks.get? t = some (.resolving m asset provider) →
      (e.act a).offers = e.offers ∧ e.asks? a = none ∧
        (e.act a).bus.queue = e.bus.queue ++ [.failed m.key (.offerUnavailable error.message)] ∧
        (e.act a).tasks.get? t = none) ∧
    ∀ pair, (∀ l, e.lookup? a = some l → l.found? pair = none) →
      ∀ later, (e.act a).now ≤ later →
        (e.act a).offers.peek? later pair = e.offers.peek? later pair := by
  intro e ls ttl
  have h : Sound e := sound_after s as
  have hcaches : e.Caches ttl ls := caches_after s as
  have hsorted : ls.Pairwise fun l l' => l.instant ≤ l'.instant :=
    ((sound_ofSettings s).lookups_sorted as).1
  refine ⟨fun q offer hq hcall => ?_, fun r hhandling hvacant => ?_,
    fun q provider asset hq hcall => ?_, ?_, fun pair hother later hlater => ?_⟩
  · rcases h.asks_cases hq with ⟨r, hhandling, hvacant⟩ | ⟨r, offer', hlookup, hmessage, hcall'⟩ |
      ⟨request, hcall'⟩
    · obtain ⟨t, hasks⟩ := asks?_after s as hhandling hvacant
      cases hq.symm.trans hasks
      exact ⟨r, rfl, .inr ⟨hhandling, exists_young (opening_eq_negotiate_iff.mp hcall)⟩⟩
    · rw [hcall'] at hcall
      cases hcall
      exact ⟨r, hmessage, .inl ⟨_, hlookup, by simp [Lookup.found?, Except.toOption]⟩⟩
    · rw [hcall'] at hcall
      cases hcall
  · obtain ⟨t, hasks⟩ := asks?_after s as hhandling hvacant
    refine ⟨_, hasks, rfl, ?_⟩
    rw [opening_eq_resolve_iff, readable?_offered?_eq_none_iff hsorted]
    exact and_iff_left ⟨rfl, rfl⟩
  · rcases h.asks_cases hq with ⟨r, hhandling, hvacant⟩ | ⟨r, offer, -, -, hcall'⟩ |
      ⟨request, hcall'⟩
    · obtain ⟨t, hasks⟩ := asks?_after s as hhandling hvacant
      cases hq.symm.trans hasks
      obtain ⟨-, hprovider, hasset⟩ := opening_eq_resolve_iff.mp hcall
      exact ⟨r, hhandling, hvacant, rfl, hprovider, hasset⟩
    · rw [hcall'] at hcall
      cases hcall
    · rw [hcall'] at hcall
      cases hcall
  · rintro t m asset provider error rfl hold
    exact h.act_refused hold error
  · have hnow := (act_leads h a).now_le
    rw [hcaches.2 later (Nat.le_trans hnow hlater) pair, (hcaches.act h a).2 later hlater pair]
    cases hl : e.lookup? a with
    | none => simp
    | some l => simp [offered?_concat, hother l hl]

/-- An offer serves a second request in the last instant of its time to live.  A third one, an
instant later, asks the catalog again, which has no offer any more. -/
theorem offer_cache_is_transparent_of_expiry :
    let s : Settings := { offerCacheTtlSecs := 1 }
    let offer : ContractOffer := { id := "o", asset := ⟨"a"⟩, provider := "p" }
    let r (key : String) : DataRequest := { key := ⟨key⟩, asset := ⟨"a"⟩, provider := "p" }
    let enter (key : String) (t : TaskId) : List Action := [.submit (r key), .dispatch, .stride t]
    let as₁ := enter "k" 0 ++ [.stride 0, .reply 0 (.offer (.ok offer)), .pass 999] ++ enter "l" 1
    let as₂ := as₁ ++ [.stride 1, .pass 1] ++ enter "m" 2
    let e₁ := (ofSettings s).after as₁
    let e₂ := (ofSettings s).after as₂
    let e₃ := (ofSettings s).after (as₂ ++ [.stride 2])
    let gone : Action := .reply 2 (.offer (.error (.collaborator "gone")))
    (∃ q, e₁.asks? (.stride 1) = some q ∧ q.call = .negotiate offer ∧
      ∃ l ∈ (ofSettings s).lookups as₁, l.found? ("p", ⟨"a"⟩) = some (offer, l.instant) ∧
        age e₁.now l.instant < s.offerCacheTtl) ∧
      (∃ q, e₂.asks? (.stride 2) = some q ∧ q.call = .resolve "p" ⟨"a"⟩) ∧
      (e₃.act gone).bus.queue =
        [.failed ⟨"m"⟩ (.offerUnavailable (EngineError.collaborator "gone").message)] ∧
      (e₃.act gone).offers.peek? 1000 ("p", ⟨"a"⟩) = e₃.offers.peek? 1000 ("p", ⟨"a"⟩) := by
  intro s offer r enter as₁ as₂ e₁ e₂ e₃ gone
  have hserved : (e₁.asks? (.stride 1)).map Asking.call = some (.negotiate offer) := by decide
  obtain ⟨q, hq, hcall⟩ := Option.map_eq_some_iff.mp hserved
  obtain ⟨hnegotiates, hvacant₁, -⟩ := offer_cache_is_transparent s as₁ (.stride 1)
  obtain ⟨q₁, hq₁, hmessage₁, -⟩ := hvacant₁ (r "l") (by decide) (by decide)
  obtain ⟨hvacant₂, -⟩ := (offer_cache_is_transparent s as₂ (.stride 2)).2
  obtain ⟨q₂, hq₂, -, hasks₂⟩ := hvacant₂ (r "m") (by decide) (by decide)
  obtain ⟨-, -, -, hrefused, hother⟩ := offer_cache_is_transparent s (as₂ ++ [.stride 2]) gone
  have hold₃ : e₃.tasks.get? 2 = some (.resolving (.ofRequest (r "m")) ⟨"a"⟩ "p") := by decide
  have hqueue := (hrefused 2 _ _ _ (.collaborator "gone") rfl hold₃).2.2.1
  have hempty : e₃.bus.queue = [] := by decide
  have hold : ∀ l ∈ (ofSettings s).lookups as₂, (l.found? ("p", ⟨"a"⟩)).isSome →
      s.offerCacheTtl ≤ age e₂.now l.instant := by decide
  have hnone : ∀ l, e₃.lookup? gone = some l → l.found? ("p", ⟨"a"⟩) = none := by
    intro l hl
    rw [lookup?_resolving hold₃] at hl
    cases hl
    rfl
  refine ⟨⟨q, hq, hcall, ?_⟩, ⟨q₂, hq₂, hasks₂.mpr hold⟩, ?_, hother _ hnone _ (by decide)⟩
  · obtain ⟨r', hmessage, ⟨l, hl, -⟩ | ⟨-, hyoung⟩⟩ := hnegotiates q offer hq hcall
    · cases hl
    · cases hq.symm.trans hq₁
      cases Message.ofRequest_inj (hmessage.symm.trans hmessage₁)
      exact hyoung
  · rw [hqueue, hempty]
    rfl

end Engine

end Rendezvous
