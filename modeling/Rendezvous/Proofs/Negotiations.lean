import Rendezvous.Proofs.Passages

/-!
# What happens to the registry

The registry of negotiations changes for four reasons: a confirmation that finds its negotiation
unknown is parked, a negotiation that has begun is filed, a record is taken, and a sweep that ends
drops what has outlived its use.  `Engine.Files` lists them; `act_files` says that nothing else
happens to the registry.

A confirmation is published when its callback finds the negotiation filed, or when the negotiation
is filed after it (`Writes.confirmation`).  So whatever is parked or published as a confirmation was
delivered by a callback before (`Informed.after`).
-/

namespace Rendezvous

namespace Registry

variable (r : Registry) (key k : CorrelationKey) (record : PendingRecord) (now ttl : Nat)
  (n : NegotiationId)

/-- The registry after `key` got its record. -/
def file : Registry where
  records := r.records.insert key record
  index := r.index.insert record.negotiation key
  parked := r.parked.erase record.negotiation
  closed := r.closed.erase record.negotiation

/-- The registry after the record of `key` was taken. -/
def unfile : Registry where
  records := r.records.erase key
  index := r.index.erase record.negotiation
  parked := r.parked
  closed := r.closed.insert record.negotiation now

/-- The registry without what a sweep that began at `now` no longer keeps. -/
def purge (now parkedTtl ttl : Nat) : Registry :=
  ((r.purgeParked now parkedTtl).2.purgeClosed now ttl).2

theorem take_of_get?_eq_some {record : PendingRecord} (h : r.records.get? key = some record) :
    r.take now key = (some record, r.unfile key record now) := by
  simp [take, h, unfile]

theorem take_of_get?_eq_none (h : r.records.get? key = none) : r.take now key = (none, r) := by
  simp [take, h]

@[simp] theorem purge_frame (parkedTtl : Nat) :
    (r.purge now parkedTtl ttl).records = r.records ∧
      (r.purge now parkedTtl ttl).index = r.index :=
  ⟨rfl, rfl⟩

@[simp] theorem get?_parked_purge (parkedTtl : Nat) :
    (r.purge now parkedTtl ttl).parked.get? n =
      (r.parked.get? n).filter fun p => age now p.since < parkedTtl :=
  Assoc.get?_keep ..

@[simp] theorem get?_closed_purge (parkedTtl : Nat) :
    (r.purge now parkedTtl ttl).closed.get? n =
      (r.closed.get? n).filter fun since => age now since < ttl :=
  Assoc.get?_keep ..

end Registry

/-- How a handler leaves that may have a follow-up. -/
def Exit.ofFollowUp : Option Message → Exit
  | none => .done
  | some next => .publish next

namespace Engine

/-- The sweep that ends by the action. -/
def purging? (e : Engine) : Action → Option Sweep
  | .stride t =>
      match e.tasks.get? t with
      | some (.walking sweep) => if sweep.rest = [] then some sweep else none
      | _ => none
  | _ => none

/-- What the action `a` can make of the registry of `e`, and why. -/
inductive Files (e : Engine) (a : Action) : Registry → Prop
  | same : Files e a e.registry
  /-- A confirmation finds its negotiation unknown. -/
  | park (n : NegotiationId) (contract : ContractId) (ha : a = .notify (.confirmed n contract))
      (hindex : e.registry.index.get? n = none)
      (hclosed : e.registry.closed.contains n = false) :
      Files e a
        { e.registry with parked := e.registry.parked.insert n { contract, since := e.now } }
  /-- A negotiation has begun. -/
  | file (t : TaskId) (r : DataRequest) (offer : ContractOffer) (n : NegotiationId)
      (ha : a = .reply t (.negotiation (.ok n)))
      (hold : e.tasks.get? t = some (.negotiating (.ofRequest r) r.asset r.provider offer))
      (hrecord : e.registry.records.get? r.key = none) :
      Files e a (e.registry.file r.key { offer, negotiation := n })
  /-- A case is confirmed or ends. -/
  | take (key : CorrelationKey) (record : PendingRecord)
      (hrecord : e.registry.records.get? key = some record) :
      Files e a (e.registry.unfile key record e.now)
  /-- A sweep ends. -/
  | purge (sweep : Sweep) (ha : e.purging? a = some sweep) :
      Files e a (e.registry.purge sweep.startedAt e.parkedTtl e.store.ttl)

variable {e e' : Engine} {a : Action} {t : TaskId}

theorem files_take (key : CorrelationKey) : e.Files a (e.registry.take e.now key).2 := by
  cases hrecord : e.registry.records.get? key with
  | none =>
      rw [e.registry.take_of_get?_eq_none key e.now hrecord]
      exact .same
  | some record =>
      rw [e.registry.take_of_get?_eq_some key e.now hrecord]
      exact .take key record hrecord

theorem files_of_eq {registry : Registry} (h : registry = e.registry) : e.Files a registry :=
  h ▸ .same

/-! ## Sections -/

/-- The section of a message leaves the registry alone or takes the record of its key. -/
theorem registry_handle (e : Engine) (m : Message) :
    (e.handle m).1.registry = e.registry ∨
      (e.handle m).1.registry = (e.registry.take e.now m.key).2 := by
  unfold handle
  split
  · left
    unfold onRequest
    cases e.store.get? m.key with
    | some c => rfl
    | none =>
        dsimp only
        split <;> rfl
  · left
    unfold onAccepted
    repeat' split
    all_goals rfl
  · unfold onNegotiationFailed
    split
    · exact .inl rfl
    · split
      · exact .inr rfl
      · exact .inl rfl
  · unfold onConfirmed
    split
    · exact .inl rfl
    · split
      · cases htake : e.registry.take e.now m.key with
        | mk record? registry =>
            cases record? with
            | none => exact .inl rfl
            | some record => exact .inr rfl
      · exact .inl rfl
  · left
    unfold onTransferStarted
    repeat' split
    all_goals rfl
  · left
    unfold onDataReference
    repeat' split
    all_goals rfl
  · unfold onTransferFailed
    split
    · exact .inl rfl
    · exact .inr rfl
  · exact .inr rfl
  · exact .inl rfl

/-- The section of a message publishes nothing but the end of its case. -/
theorem isTerminal_of_handle {m next : Message} (hexit : (e.handle m).2 = .publish next) :
    next.isTerminal := by
  unfold handle at hexit
  split at hexit
  · unfold onRequest at hexit
    cases hcase : e.store.get? m.key with
    | some c => simp [hcase] at hexit
    | none =>
        simp only [hcase] at hexit
        split at hexit <;> cases hexit
  · unfold onAccepted at hexit
    repeat' split at hexit
    all_goals cases hexit
  · unfold onNegotiationFailed at hexit
    repeat' split at hexit
    all_goals cases hexit
    rfl
  · unfold onConfirmed at hexit
    repeat' split at hexit
    all_goals cases hexit
  · unfold onTransferStarted at hexit
    repeat' split at hexit
    all_goals cases hexit
  · unfold onDataReference at hexit
    repeat' split at hexit
    all_goals cases hexit
    rfl
  · unfold onTransferFailed at hexit
    split at hexit <;> cases hexit
    rfl
  · cases hexit
  · cases hexit

/-! ## A negotiation begins -/

/-- Who waits for a negotiation to begin is opening a request whose key has neither case nor
record. -/
theorem Sound.negotiating (h : Sound e) {m : Message} {asset : AssetId} {provider : String}
    {offer : ContractOffer} (hold : e.tasks.get? t = some (.negotiating m asset provider offer)) :
    ∃ r : DataRequest, m = .ofRequest r ∧ asset = r.asset ∧ provider = r.provider ∧
      e.store.get? r.key = none ∧ e.registry.records.get? r.key = none := by
  obtain ⟨-, hopen, ⟨r, hkey, hopens⟩ | ⟨n, c, request, hcall⟩⟩ := h.open_call hold rfl rfl
  · obtain ⟨hcase, hrecord⟩ := (h.coherent m.key).of_opens hopen hopens
    rcases hopens with hcall | ⟨offer', hcall⟩
    · cases hcall
    · obtain ⟨rfl, rfl, rfl, -⟩ := Task.negotiating.inj hcall
      exact ⟨r, rfl, rfl, rfl, hcase, hrecord⟩
  · cases hcall

/-- The state in which `r` has its case and the record of its negotiation. -/
def enroll (e : Engine) (r : DataRequest) (offer : ContractOffer) (n : NegotiationId) : Engine :=
  ({ e with
    registry := e.registry.file r.key { offer, negotiation := n }
    store := e.store.put r.key (.ofRequest r n e.now) } : Engine).note (.registered r.key)

/-- The confirmation for `key` that is parked for the negotiation `n`. -/
def replay? (e : Engine) (key : CorrelationKey) (n : NegotiationId) : Option Message :=
  (e.registry.parked.get? n).map fun p => .confirmation key n p.contract

/-- A negotiation that has begun is filed, its case is registered, and the confirmation parked for
it is the follow-up. -/
theorem onNegotiation_ok {r : DataRequest} (offer : ContractOffer) (n : NegotiationId)
    (hcase : e.store.get? r.key = none) (hrecord : e.registry.records.get? r.key = none) :
    e.onNegotiation (.ofRequest r) r.asset r.provider offer (.ok n) =
      (e.enroll r offer n, .ofFollowUp (e.replay? r.key n)) := by
  have hregister := CaseStore.register_of_get?_eq_none e.store r.key (.ofRequest r n e.now) hcase
  unfold onNegotiation
  dsimp only [Message.ofRequest]
  rw [Registry.store_of_get?_eq_none _ _ _ hrecord]
  dsimp only
  rw [Case.ofRequest] at hregister
  rw [hregister]
  cases hparked : e.registry.parked.get? n with
  | none => simp [replay?, hparked, Exit.ofFollowUp, enroll, Registry.file, Case.ofRequest]
  | some p =>
      simp [replay?, hparked, Exit.ofFollowUp, enroll, Registry.file, Case.ofRequest,
        Message.confirmation]

/-! ## What an action does to the registry -/

theorem Step.files (h : Sound e) (hs : e.Step a e') : e.Files a e'.registry := by
  cases hs with
  | idle | take | pass => exact .same
  | submit | forward => exact files_of_eq (by simp)
  | park n contract hindex hclosed => exact .park n contract rfl hindex hclosed
  | dispatch | begin | look | queueUp | keep | neverMind => exact .same
  | outcome t m hold hlock =>
      have hregular := h.regular.tasks t m (by simp [hold, Task.message?])
      obtain ⟨o, ho⟩ := eq_message_of_isRegular hregular hlock
      rw [ho, begin_message]
      exact files_of_eq (by simp)
  | handle t m hold ho =>
      rw [registry_leave]
      rcases registry_handle e m with hsame | htake
      · exact files_of_eq hsame
      · rw [htake]
        exact files_take m.key
  | visit t sweep key seen hold ho =>
      by_cases hdue : e.Due sweep.startedAt key seen
      · rw [visit_of_due hdue]
        simp only [setTask_frame, expel_frame]
        exact files_take key
      · rw [visit_of_not_due hdue]
        exact files_of_eq (by simp)
  | finishSweep t sweep hold hrest =>
      exact .purge sweep (by simp [purging?, hold, hrest])
  | listen t key deadline hold =>
      unfold lookForOutcome
      dsimp only
      split
      · exact .same
      · exact .same
  | offer t m asset provider answer hold =>
      rw [registry_leave]
      cases answer <;> exact .same
  | negotiation t m asset provider offer answer hold =>
      rw [registry_leave]
      cases answer with
      | error error => exact .same
      | ok n =>
          obtain ⟨r, rfl, rfl, rfl, hcase, hrecord⟩ := h.negotiating hold
          rw [onNegotiation_ok offer n hcase hrecord]
          exact .file t r offer n rfl hold hrecord
  | transfer t m c request answer hold =>
      rw [registry_leave]
      cases answer with
      | error error => exact files_take m.key
      | ok id => exact .same
  | letGo | leaveQueue => exact files_of_eq (by simp)

/-- What an action does to the registry of a sound engine. -/
theorem act_files (h : Sound e) (a : Action) : e.Files a (e.act a).registry :=
  (e.act_step a).files h

/-! ## Where confirmations come from -/

/-- The confirmation `m` was parked and is replayed by `a`, which files its negotiation `n`. -/
def Replays (e : Engine) (a : Action) (n : NegotiationId) (m : Message) : Prop :=
  ∃ t r offer, a = .reply t (.negotiation (.ok n)) ∧
    e.tasks.get? t = some (.negotiating (.ofRequest r) r.asset r.provider offer) ∧
    e.replay? r.key n = some m

/-- A handler's follow-up ends a request, or replays a confirmation. -/
theorem Sound.followUp (h : Sound e) {p : Passage} {next : Message} (hp : e.passage? a = some p)
    (hexit : p.result.2 = .publish next) : next.isTerminal ∨ ∃ n, e.Replays a n next := by
  unfold passage? at hp
  split at hp
  · split at hp
    · split at hp
      · cases hp
        exact .inl (isTerminal_of_handle hexit)
      · cases hp
    · cases hp
  · rename_i t answer
    split at hp
    · rename_i answer hold
      cases hp
      cases answer with
      | error error =>
          cases hexit
          exact .inl rfl
      | ok offer => cases hexit
    · rename_i asset provider offer answer hold
      cases hp
      cases answer with
      | error error =>
          cases hexit
          exact .inl rfl
      | ok n =>
          obtain ⟨r, rfl, rfl, rfl, hcase, hrecord⟩ := h.negotiating hold
          simp only [onNegotiation_ok offer n hcase hrecord] at hexit
          refine .inr ⟨n, t, r, offer, rfl, hold, ?_⟩
          cases hreplay : e.replay? r.key n with
          | none => simp [hreplay, Exit.ofFollowUp] at hexit
          | some m =>
              rw [hreplay] at hexit
              cases hexit
              rfl
    · rename_i answer hold
      cases hp
      cases answer with
      | error error =>
          cases hexit
          exact .inl rfl
      | ok id => cases hexit
    · cases hp
  · cases hp

/-- A confirmation is published when its callback finds the negotiation filed, or it is replayed. -/
theorem Writes.confirmation {m : Message} {n : NegotiationId} {contract : ContractId}
    (hw : e.Writes a (.published m)) (h : Sound e)
    (hm : m.payload = .contractConfirmed n contract) :
    (∃ key, a = .notify (.confirmed n contract) ∧ e.registry.index.get? n = some key ∧
      m = .confirmation key n contract) ∨ e.Replays a n m := by
  cases hw with
  | routine hroutine => cases hroutine
  | submitted r => cases hm
  | forwarded c key ha hkey =>
      cases c <;> cases hm
      exact .inl ⟨key, ha, hkey, rfl⟩
  | followed p _ hp hexit =>
      right
      rcases h.followUp hp hexit with hterminal | ⟨n', t, r, offer, ha, hold, hreplay⟩
      · cases m
        cases hm
        simp [Message.isTerminal] at hterminal
      · obtain ⟨parked, hparked, rfl⟩ := Option.map_eq_some_iff.mp hreplay
        cases hm
        exact ⟨t, r, offer, ha, hold, hreplay⟩
  | expired => cases hm

/-- Whatever confirmation is parked or published, a callback has delivered it: `D n contract` says
that one told that `n` is confirmed by `contract`. -/
structure Informed (D : NegotiationId → ContractId → Prop) (e : Engine) : Prop where
  parked : ∀ n p, e.registry.parked.get? n = some p → D n p.contract
  published : ∀ m n contract, .published m ∈ e.history →
    m.payload = .contractConfirmed n contract → D n contract

namespace Informed

variable {D : NegotiationId → ContractId → Prop}

theorem act (hi : e.Informed D) (h : Sound e)
    (hD : ∀ n contract, a = .notify (.confirmed n contract) → D n contract) :
    (e.act a).Informed D where
  parked n p hparked := by
    generalize hregistry : (e.act a).registry = registry at hparked
    have hfiles := hregistry ▸ act_files h a
    cases hfiles with
    | same => exact hi.parked n p hparked
    | park n' contract ha =>
        by_cases hn : n' = n
        · subst hn
          obtain rfl : _ = p := by simpa using hparked
          exact hD n' contract ha
        · exact hi.parked n p (by simpa [hn] using hparked)
    | file t r offer n' =>
        refine hi.parked n p ?_
        have hkept : n ≠ n' ∧ e.registry.parked.get? n = some p := by
          simpa [Registry.file] using hparked
        exact hkept.2
    | take => exact hi.parked n p hparked
    | purge sweep =>
        rw [Registry.get?_parked_purge] at hparked
        exact hi.parked n p (Option.filter_eq_some_iff.mp hparked).1
  published m n contract hmem hm := by
    obtain ⟨evs, hnews⟩ := act_news h a
    rw [hnews.history, List.mem_append] at hmem
    rcases hmem with hnew | hold
    · rcases (hnews.writes _ hnew).confirmation h hm with
        ⟨key, ha, -⟩ | ⟨t, r, offer, -, -, hreplay⟩
      · exact hD n contract ha
      · obtain ⟨p, hparked, rfl⟩ := Option.map_eq_some_iff.mp hreplay
        cases hm
        exact hi.parked n p hparked
    · exact hi.published m n contract hold hm

theorem after (hi : e.Informed D) (h : Sound e) (as : List Action)
    (hD : ∀ n contract, .notify (.confirmed n contract) ∈ as → D n contract) :
    (e.after as).Informed D := by
  have hall : ∀ a ∈ as, a ∈ as := fun _ hmem => hmem
  refine h.after_induction (P := Informed D) hi (fun h hi ha => ?_) hall
  exact hi.act h fun n contract hnotify => hD n contract (hnotify ▸ ha)

end Informed

/-- In every reachable state, whatever confirmation is parked or published was delivered by a
callback. -/
theorem informed_after (s : Settings) (as : List Action) :
    ((ofSettings s).after as).Informed fun n contract => .notify (.confirmed n contract) ∈ as := by
  have hstart : (ofSettings s).Informed fun n contract => .notify (.confirmed n contract) ∈ as :=
    ⟨fun n p hparked => by simp [ofSettings] at hparked,
      fun m n contract hmem => by simp [ofSettings] at hmem⟩
  exact hstart.after (sound_ofSettings s) as fun _ _ hmem => hmem

end Engine

end Rendezvous
