import Rendezvous.Proofs.DeadLetters
import Rendezvous.Proofs.States

/-!
# The registry of an engine is exact

The engine turns to its registry for four reasons, and whatever else it does leaves the registry
alone.  So the registry of an engine is one to which requests were made.  These keep negotiations
apart if every negotiation that begins is new, and then the maps of the registry agree whatever is
published and whoever handles it.

* `Engine.Arises`: the states of an engine whose negotiations are new when they begin;
* `act_requests`: what an action does to the registry is a list of requests;
* `Arises.exact`: the maps of the registry agree.
-/

namespace Rendezvous

/-- The negotiation that a service tells a handler of. -/
def Action.begun? : Action → Option NegotiationId
  | .reply _ (.negotiation (.ok n)) => some n
  | _ => none

namespace Engine

variable {e e' : Engine} {a : Action} {n : NegotiationId}

/-- No record has the negotiation. -/
def Unused (e : Engine) (n : NegotiationId) : Prop :=
  ∀ entry ∈ e.registry.records.entries, entry.2.negotiation ≠ n

instance (e : Engine) : DecidablePred e.Unused :=
  fun _ => inferInstanceAs (Decidable (∀ _ ∈ _, _))

theorem Unused.ne_negotiation (h : e.Unused n) {k : CorrelationKey} {r : PendingRecord}
    (hrecord : e.registry.records.get? k = some r) : r.negotiation ≠ n :=
  h (k, r) ((e.registry.records.mem_entries k r).mpr hrecord)

/-- Whether a negotiation that begins by the action is a new one. -/
def BeginsNew (e : Engine) (a : Action) : Prop := ∀ n ∈ a.begun?, e.Unused n

instance (e : Engine) : DecidablePred e.BeginsNew :=
  fun a => inferInstanceAs (Decidable (∀ _ ∈ a.begun?, _))

/-- Whether all negotiations that begin in a schedule are new ones. -/
def BeginsNewAll (e : Engine) : List Action → Prop
  | [] => True
  | a :: as => e.BeginsNew a ∧ (e.act a).BeginsNewAll as

/-- Whether negotiations are new can be found out by running the schedule. -/
instance decidableBeginsNewAll (e : Engine) : DecidablePred e.BeginsNewAll
  | [] => inferInstanceAs (Decidable True)
  | a :: as =>
      have := decidableBeginsNewAll (e.act a) as
      inferInstanceAs (Decidable (e.BeginsNew a ∧ (e.act a).BeginsNewAll as))

/-- The states that a bus with its handlers comes to when anybody may publish anything, and every
negotiation that begins is a new one. -/
inductive Arises (s : Settings) : Engine → Prop
  | start : Arises s (ofSettings s)
  | act {e : Engine} (h : Arises s e) (a : Action) (hnew : e.BeginsNew a) : Arises s (e.act a)
  | publish {e : Engine} (h : Arises s e) (m : Message) : Arises s (e.publish m)

theorem Arises.exposed {s : Settings} (h : Arises s e) : Exposed s e := by
  induction h with
  | start => exact .start
  | act _ a _ ih => exact ih.act a
  | publish _ m ih => exact ih.publish m

theorem Arises.after {s : Settings} (h : Arises s e) {as : List Action}
    (hnew : e.BeginsNewAll as) : Arises s (e.after as) := by
  induction as generalizing e with
  | nil => exact h
  | cons a as ih => exact ih (h.act a hnew.1) hnew.2

/-! ## Requests to the registry -/

/-- The registry became `registry` by requests that keep negotiations apart. -/
def Requests (e : Engine) (registry : Registry) : Prop :=
  ∃ reqs, e.registry.AdmitsAll reqs ∧ registry = e.registry.after reqs

theorem requests_of_eq {registry : Registry} (h : registry = e.registry) : e.Requests registry :=
  ⟨[], trivial, h⟩

theorem requests_take (k : CorrelationKey) : e.Requests (e.registry.take e.now k).2 :=
  ⟨[(e.now, .take k)], ⟨trivial, trivial⟩, rfl⟩

theorem requests_park (contract : ContractId)
    (hindex : e.registry.index.get? n = none) (hclosed : e.registry.closed.contains n = false) :
    e.Requests { e.registry with
      parked := e.registry.parked.insert n { contract, since := e.now } } := by
  refine ⟨[(e.now, .resolve n contract)], ⟨trivial, trivial⟩, ?_⟩
  simp [Registry.after, Registry.answer, Registry.resolveOrPark, hindex, hclosed]

theorem requests_purge (startedAt : Nat) :
    e.Requests (e.registry.purge startedAt e.parkedTtl e.store.ttl) :=
  ⟨[(e.now, .purgeParked startedAt e.parkedTtl), (e.now, .purgeClosed startedAt e.store.ttl)],
    ⟨trivial, trivial, trivial⟩, rfl⟩

/-- A negotiation that begins is stored, unless its key has a record. -/
theorem requests_onNegotiation (hnew : e.Unused n) (m : Message)
    (asset : AssetId) (provider : String) (offer : ContractOffer) :
    e.Requests (e.onNegotiation m asset provider offer (.ok n)).1.registry := by
  refine ⟨[(e.now, .store m.key { offer, negotiation := n })], ⟨?_, trivial⟩, ?_⟩
  · -- No record has the negotiation, so none of another key has it.
    intro entry hmem hshared
    exact absurd hshared (hnew entry hmem)
  · have hafter : e.registry.after [(e.now, .store m.key { offer, negotiation := n })] =
        (e.registry.answer e.now (.store m.key { offer, negotiation := n })).2 := rfl
    unfold onNegotiation
    rw [hafter]
    cases hstore : e.registry.store m.key { offer, negotiation := n } with
    | error error => simp [Registry.answer, hstore]
    | ok stored =>
        simp only [Registry.answer, hstore]
        split
        · rfl
        · split <;> simp

/-- What an action does to the registry is a list of requests. -/
theorem Step.requests (hs : e.Step a e') (hnew : e.BeginsNew a) : e.Requests e'.registry := by
  cases hs with
  | idle | take | pass | dispatch | begin | look | queueUp | keep | neverMind =>
      exact requests_of_eq rfl
  | submit | forward | outcome | letGo | leaveQueue => exact requests_of_eq (by simp)
  | park n contract hindex hclosed => exact requests_park contract hindex hclosed
  | handle t m hold ho =>
      rw [registry_leave]
      rcases registry_handle e m with hsame | htake
      · exact requests_of_eq hsame
      · rw [htake]
        exact requests_take m.key
  | visit t sweep key seen hold ho =>
      by_cases hdue : e.Due sweep.startedAt key seen
      · rw [visit_of_due hdue]
        simp only [setTask_frame, expel_frame]
        exact requests_take key
      · rw [visit_of_not_due hdue]
        exact requests_of_eq (by simp)
  | finishSweep t sweep hold hrest => exact requests_purge sweep.startedAt
  | listen t key deadline hold =>
      unfold lookForOutcome
      dsimp only
      split
      · exact requests_of_eq rfl
      · exact requests_of_eq rfl
  | offer t m asset provider answer hold =>
      rw [registry_leave]
      cases answer <;> exact requests_of_eq rfl
  | negotiation t m asset provider offer answer hold =>
      rw [registry_leave]
      cases answer with
      | error error => exact requests_of_eq rfl
      | ok n => exact requests_onNegotiation (hnew n rfl) m asset provider offer
  | transfer t m c request answer hold =>
      rw [registry_leave]
      cases answer with
      | error error => exact requests_take m.key
      | ok id => exact requests_of_eq rfl

theorem act_requests (hnew : e.BeginsNew a) : e.Requests (e.act a).registry :=
  (e.act_step a).requests hnew

/-- As long as every negotiation that begins is new, the maps of the registry agree. -/
theorem Arises.exact {s : Settings} (h : Arises s e) : e.registry.Exact := by
  induction h with
  | start => exact Registry.exact_empty
  | act _ a hnew ih =>
      obtain ⟨reqs, hadmits, hregistry⟩ := act_requests hnew
      rw [hregistry]
      exact ih.after hadmits
  | publish _ m ih => simpa using ih

end Engine

end Rendezvous
