import EventPipeline.Analysis.ExactlyOnceAcceptance
import EventPipeline.Analysis.DeletedSubscribers

/-!
# The foreign keys hold in every state

The tables have two foreign keys, and no row of them is ever removed. The references come
from two reads: the message of an attempt is inserted in the same transaction, and its
subscriber is one that the transaction has selected. So the worker always finds the event
and the subscriber of a row that it has claimed, and the test `sub is None` never succeeds.
-/

set_option autoImplicit false

namespace EventPipeline.Analysis

open EventPipeline.Model EventPipeline.Program EventPipeline.Interface EventPipeline.Computation

def Registered (g : Registry) (id : Uuid) : Prop := id ∈ g.subscribers.map Subscriber.id

/-- Subscribers that were read from the table are still there, each once. -/
structure ReadFrom (g : Registry) (seen : List Subscriber) : Prop where
  nodup : (seen.map Subscriber.id).Nodup
  registered : ∀ sub ∈ seen, Registered g sub.id

/-- A subscriber that was fetched for an attempt. -/
def FetchedFor (x : Snapshot) (sub : Option Subscriber) : Prop :=
  ∃ y, sub = some y ∧ y.id = x.attempt.subscriberId

/-- SOURCE: app/db/models.py:68-70, app/consumer/rabbitmq.py:74-93, app/delivery/worker.py:101-108 -/
structure ReferenceInv (s : World) : Prop where
  selected : ∀ t ev receivedAt seen readAt,
    s.intake.handlers t = .selected ev receivedAt seen readAt → ReadFrom s.registry seen
  row : ∀ row ∈ s.delivery.attempts, Registered s.registry row.subscriberId
  claimed : ∀ w, ∀ x ∈ (s.delivery.workers w).phase.batch,
    Registered s.registry x.attempt.subscriberId
  fetched : ∀ w x sub todo, (s.delivery.workers w).phase = .fetched x sub todo → FetchedFor x sub

section
variable {cfg : Settings} {s s' : World} {a : Action}

/-- No subscriber is ever removed; a DELETE only marks its row.
SOURCE: app/api/subscribers.py:106-114 -/
theorem Registered.step {id : Uuid} (h : Registered s.registry id)
    (hs : Program.step cfg s a = some s') : Registered s'.registry id :=
  RegistryStep.ids_subset (registryStep_of_step hs) h

/-- What was read from the table is still there after a step. -/
theorem ReadFrom.step {seen : List Subscriber} (h : ReadFrom s.registry seen)
    (hs : Program.step cfg s a = some s') : ReadFrom s'.registry seen :=
  ⟨h.nodup, fun sub hsub => (h.registered sub hsub).step hs⟩

/-- The subscriber of an attempt is that of an old attempt, or one that the call has read.
SOURCE: app/consumer/rabbitmq.py:83-91 -/
theorem subscriberId_of_step (hs : step cfg s a = some s') {row' : DeliveryAttempt}
    (hrow' : row' ∈ s'.delivery.attempts) :
    (∃ row ∈ s.delivery.attempts, row.subscriberId = row'.subscriberId) ∨
      ∃ t ev receivedAt seen readAt, s.intake.handlers t = .selected ev receivedAt seen readAt ∧
        ∃ sub ∈ seen, sub.id = row'.subscriberId := by
  have hpair : row'.pair ∈ s'.delivery.attempts.map DeliveryAttempt.pair :=
    List.mem_map_of_mem hrow'
  have hold : row'.pair ∈ s.delivery.attempts.map DeliveryAttempt.pair →
      ∃ row ∈ s.delivery.attempts, row.subscriberId = row'.subscriberId := by
    intro hmem
    obtain ⟨row, hrow, heq⟩ := List.mem_map.1 hmem
    exact ⟨row, hrow, (Prod.mk.inj heq).2⟩
  cases accepts_of_step hs with
  | nothing _ _ hpairs => exact Or.inl (hold (hpairs ▸ hpair))
  | message hh _ _ hpairs _ _ =>
    rw [hpairs] at hpair
    obtain hmem | hmem := List.mem_append.1 hpair
    · exact Or.inl (hold hmem)
    · obtain ⟨r, hr, heq⟩ := List.mem_map.1 hmem
      obtain ⟨sub, hsub, hid⟩ := List.mem_map.1 hr
      exact Or.inr ⟨_, _, _, _, _, hh, sub, (List.mem_filter.1 hsub).1,
        hid.trans (Prod.mk.inj heq).2⟩

/-- The re-fetch finds a subscriber that is registered. SOURCE: app/delivery/worker.py:107-108 -/
theorem fetched_of_step (hinv : ReferenceInv s) (hs : step cfg s a = some s') {w : WorkerId}
    {x : Snapshot} {sub : Option Subscriber} {todo : List Snapshot}
    (hph : (s'.delivery.workers w).phase = .fetched x sub todo) : FetchedFor x sub := by
  obtain hkeep | ⟨b, d, rfl, rfl, h⟩ := worker_of_step hs w
  · exact hinv.fetched w x sub todo (hkeep ▸ hph)
  · cases h with
    | fetch hdelivering =>
      simp only [Delivery.setPhase_eq, Delivery.setWorker_workers, Function.update_self] at hph
      cases hph
      have hreg := hinv.claimed w x (by rw [hdelivering]; exact List.mem_cons_self)
      obtain ⟨y, hy⟩ := Option.isSome_iff_exists.1 (isSome_lookup_iff.2 hreg)
      exact ⟨y, hy, (of_lookup_eq_some hy).2⟩
    | resetStale _ => exact hinv.fetched w x sub todo hph
    | _ =>
      simp only [Delivery.setPhase_eq, Delivery.setWorker_workers, Function.update_self] at hph
      cases hph

/-- One step keeps every reference to a subscriber. SOURCE: app/consumer/rabbitmq.py:74-93,
app/api/subscribers.py:106-114 -/
theorem referenceInv_step (hreach : Reachable (Program.step cfg) World.init s)
    (hinv : ReferenceInv s) (hs : Program.step cfg s a = some s') : ReferenceInv s' := by
  refine ⟨fun t ev receivedAt seen readAt hh => ?_, fun row' hrow' => ?_, fun w x hx => ?_,
    fun w x sub todo hph => fetched_of_step hinv hs hph⟩
  · obtain ⟨hold, _⟩ | ⟨_, _, rfl⟩ := selected_of_step hs hh
    · exact (hinv.selected t ev receivedAt seen readAt hold).step hs
    · have hread : ReadFrom s.registry s.registry.subscribers :=
        ⟨subscriber_ids_nodup hreach, fun _ hsub => List.mem_map_of_mem hsub⟩
      exact hread.step hs
  · obtain ⟨row, hrow, hid⟩ | ⟨t, ev, _, seen, _, hh, sub, hsub, hid⟩ :=
      subscriberId_of_step hs hrow'
    · rw [← hid]
      exact (hinv.row row hrow).step hs
    · rw [← hid]
      exact ((hinv.selected t ev _ seen _ hh).registered sub hsub).step hs
  · obtain hx | ⟨_, _, _, _, _, hsnap, _⟩ := batch_of_step hs hx
    · exact (hinv.claimed w x hx).step hs
    · exact (hinv.row _ (of_snapshotOf hsnap).1).step hs

/-- Every reference to a subscriber resolves, in every reachable state. -/
theorem referenceInv_of_reachable (h : Reachable (Program.step cfg) World.init s) :
    ReferenceInv s := by
  refine h.induct (I := ReferenceInv) ?_ fun s a s' hreach hinv hs =>
    referenceInv_step hreach hinv hs
  refine ⟨fun _ _ _ _ _ hh => ?_, fun _ h => absurd h List.not_mem_nil,
    fun _ _ h => absurd h List.not_mem_nil, fun _ _ _ _ hph => ?_⟩
  · cases hh
  · cases hph

/-- The claim loads every row of the table together with its event.
SOURCE: app/delivery/worker.py:72-75, app/db/models.py:68 -/
theorem exists_snapshot (h : Reachable (Program.step cfg) World.init s) {row : DeliveryAttempt}
    (hrow : row ∈ s.delivery.attempts) :
    ∃ ik ∈ s.intake.keys, ik.messageId = row.messageId ∧
      snapshotOf s.delivery.attempts s.intake.keys row.id = some ⟨row, ik⟩ := by
  obtain ⟨_, hrefines⟩ := refinesInbox_of_reachable h
  have hmem : row.pair ∈ Inbox.entries (inboxOf s) := hrefines.entries ▸ List.mem_map_of_mem hrow
  obtain ⟨rs, hmem, _⟩ := Inbox.mem_entries.1 hmem
  have hid : row.messageId ∈ s.intake.ids := hrefines.keys ▸ List.mem_map_of_mem hmem
  obtain ⟨ik, hik⟩ := Option.isSome_iff_exists.1 (isSome_lookup_iff.2 hid)
  obtain ⟨hkey, hmessage⟩ := of_lookup_eq_some hik
  refine ⟨ik, hkey, hmessage, ?_⟩
  rw [snapshotOf, lookup_of_mem (lockInv_of_reachable h).ids_nodup hrow, Option.bind_some, hik,
    Option.map_some]

end

/-! ## The result -/

/-- What the foreign keys give the worker. -/
structure ReferencesResolve (s : World) : Prop where
  /-- the event of an attempt has a row, and the claim loads it -/
  event : ∀ row ∈ s.delivery.attempts, ∃ ik ∈ s.intake.keys, ik.messageId = row.messageId ∧
    snapshotOf s.delivery.attempts s.intake.keys row.id = some ⟨row, ik⟩
  /-- the subscriber of an attempt has a row -/
  subscriber : ∀ row ∈ s.delivery.attempts,
    ∃ sub ∈ s.registry.subscribers, sub.id = row.subscriberId
  /-- the re-fetch has returned the subscriber, and not `None` -/
  fetched : ∀ w x sub todo, (s.delivery.workers w).phase = .fetched x sub todo →
    ∃ y, sub = some y ∧ y.id = x.attempt.subscriberId

/-- In every reachable state, whatever the interleaving, the crashes and the deletions, both
references of every attempt resolve, and a re-fetch never comes back empty.
SOURCE: app/db/models.py:67-80, app/consumer/rabbitmq.py:74-93, app/delivery/worker.py:63-108,
app/api/subscribers.py:106-114 -/
theorem references_resolve (cfg : Settings) (s : World)
    (h : Reachable (step cfg) World.init s) : ReferencesResolve s := by
  have hinv := referenceInv_of_reachable h
  refine ⟨fun row hrow => exists_snapshot h hrow, fun row hrow => ?_, hinv.fetched⟩
  obtain ⟨sub, hsub, hid⟩ := List.mem_map.1 (hinv.row row hrow)
  exact ⟨sub, hsub, hid⟩

/-- The subscriber is deleted while its attempt is in flight, and is still found. -/
theorem references_resolve_deleting : ∃ row ∈ deleting.delivery.attempts,
    row.status = .inFlight ∧ ∃ sub ∈ deleting.registry.subscribers, sub.id = row.subscriberId :=
  ⟨_, List.Mem.head _, rfl, (references_resolve .default deleting
    (Reachable.of_run deletedAfterClaim_enabled)).subscriber _ (List.Mem.head _)⟩

end EventPipeline.Analysis
