import EventPipeline.Computation.Transition
import EventPipeline.Program.PatchRequests

/-!
# What a step of a PATCH or DELETE request can do

`PatchStep` lists the enabled steps of `patchStep`. The requests are the PATCH and DELETE
calls of the registry, which has no cache, and a request that runs alone computes
`updateSubscriber`.
-/

set_option autoImplicit false

namespace EventPipeline.Interface

open EventPipeline.Model EventPipeline.Program EventPipeline.Computation

/-- SOURCE: app/api/subscribers.py:78-127 -/
inductive PatchStep (s : PatchProcess) : PatchAction → PatchProcess → Prop
  | tick {d : Time} : PatchStep s (.tick d) { s with now := s.now + d }
  | answered {r : RequestId} {q : PatchRequest} {response : SubscriberResponse}
      (hr : s.calls r = .idle) (hc : cachedResponse s.now q s.api.cache = some response) :
      PatchStep s (.start r q) s
  | started {r : RequestId} {q : PatchRequest} (hr : s.calls r = .idle)
      (hc : cachedResponse s.now q s.api.cache = none) :
      PatchStep s (.start r q) (s.setCall r (.selecting q))
  | selected {r : RequestId} {q : PatchRequest} {sub : SubscriberRow}
      (hr : s.calls r = .selecting q) (hl : getRowOr404 q.id s.api.subscribers = some sub) :
      PatchStep s (.select r) (s.setCall r (.loaded q sub))
  | notFound {r : RequestId} {q : PatchRequest} (hr : s.calls r = .selecting q)
      (hl : getRowOr404 q.id s.api.subscribers = none) :
      PatchStep s (.select r) (s.setCall r .idle)
  | committed {r : RequestId} {q : PatchRequest} {sub : SubscriberRow}
      (hr : s.calls r = .loaded q sub) :
      PatchStep s (.commit r) ({ s with
        api := { s.api with
          subscribers := commitPatch sub q.body s.now s.api.subscribers } }.setCall r
        (.committed q))
  | deleted {r : RequestId} {sub : SubscriberRow} (hr : s.calls r = .deleting sub) :
      PatchStep s (.commit r) ({ s with
        api := { s.api with
          subscribers := commitDelete sub s.now s.api.subscribers } }.setCall r .idle)
  | refreshed {r : RequestId} {q : PatchRequest} {row : SubscriberRow}
      (hr : s.calls r = .committed q) (hl : Program.refresh q.id s.api.subscribers = some row) :
      PatchStep s (.refresh r) (s.setCall r (.refreshed q row))
  | gone {r : RequestId} {q : PatchRequest} (hr : s.calls r = .committed q)
      (hl : Program.refresh q.id s.api.subscribers = none) :
      PatchStep s (.refresh r) (s.setCall r .idle)
  | finished {r : RequestId} {q : PatchRequest} {row : SubscriberRow}
      (hr : s.calls r = .refreshed q row) :
      PatchStep s (.finish r) ({ s with
        api := { s.api with
          cache := cacheResponse s.now q row.response s.api.cache } }.setCall r .idle)
  | deleting {r : RequestId} {id : Uuid} {sub : SubscriberRow} (hr : s.calls r = .idle)
      (hl : getRowOr404 id s.api.subscribers = some sub) :
      PatchStep s (.delete r id) (s.setCall r (.deleting sub))
  | nothing {r : RequestId} {id : Uuid} (hr : s.calls r = .idle)
      (hl : getRowOr404 id s.api.subscribers = none) : PatchStep s (.delete r id) s
  | aborted {r : RequestId} (hr : s.calls r ≠ .idle) : PatchStep s (.abort r) (s.setCall r .idle)

/-- The list of steps is complete. -/
theorem patchStep_of_eq_some {s s' : PatchProcess} {a : PatchAction}
    (h : patchStep s a = some s') : PatchStep s a s' := by
  cases a with
  | tick d =>
    cases h
    exact .tick
  | start r q =>
    simp only [patchStep] at h
    split at h
    · split at h <;> cases h
      · exact .answered ‹_› ‹_›
      · exact .started ‹_› ‹_›
    · cases h
  | select r =>
    simp only [patchStep] at h
    split at h
    · split at h <;> cases h
      · exact .selected ‹_› ‹_›
      · exact .notFound ‹_› ‹_›
    · cases h
  | commit r =>
    simp only [patchStep] at h
    split at h <;> cases h
    · exact .committed ‹_›
    · exact .deleted ‹_›
  | refresh r =>
    simp only [patchStep] at h
    split at h
    · split at h <;> cases h
      · exact .refreshed ‹_› ‹_›
      · exact .gone ‹_› ‹_›
    · cases h
  | finish r =>
    simp only [patchStep] at h
    split at h <;> cases h
    exact .finished ‹_›
  | delete r id =>
    simp only [patchStep] at h
    split at h
    · split at h <;> cases h
      · exact .deleting ‹_› ‹_›
      · exact .nothing ‹_› ‹_›
    · cases h
  | abort r =>
    simp only [patchStep] at h
    split at h <;> cases h
    exact .aborted (by assumption)

/-! ## The registry behind the requests -/

/-- The request as the registry sees it. -/
def registryRequest : PatchCall → SubscriberRequest
  | .loaded q sub => .patching sub.toSubscriber q.body
  | .deleting sub => .deleting sub.toSubscriber
  | _ => .idle

/-- The table without the two columns that only the response reads, and the requests between
their SELECT and their commit. -/
def registryOf (s : PatchProcess) : Registry where
  subscribers := s.api.subscribers.map SubscriberRow.toSubscriber
  requests r := registryRequest (s.calls r)

/-- The SELECT finds the same row in the registry of the pipeline.
SOURCE: app/api/subscribers.py:117-127 -/
theorem getOr404_map (id : Uuid) (rows : List SubscriberRow) :
    getOr404 id (rows.map SubscriberRow.toSubscriber) =
      (getRowOr404 id rows).map SubscriberRow.toSubscriber := by
  rw [getOr404, getRowOr404, lookup_map]
  cases lookup (fun row : SubscriberRow => row.id) id rows with
  | none => rfl
  | some row =>
    simp only [Option.map_some, Option.filter_some]
    split <;> rfl

section
variable {s s' : PatchProcess} {a : PatchAction}

/-- A call that goes on is a request of the registry that goes on. -/
theorem registryOf_setCall (r : RequestId) (x : PatchCall) :
    registryOf (s.setCall r x) = (registryOf s).setRequest r (registryRequest x) := by
  have hrequests : (registryOf (s.setCall r x)).requests =
      Function.update (registryOf s).requests r (registryRequest x) := by
    funext r'
    show registryRequest (Function.update s.calls r x r') = _
    by_cases hr : r' = r
    · subst hr
      rw [Function.update_self, Function.update_self]
    · rw [Function.update_of_ne hr, Function.update_of_ne hr]
      rfl
  rw [Registry.setRequest, ← hrequests]
  rfl

/-- The registry does not see a request move where it has no call. -/
theorem registryOf_setCall_of_eq {r : RequestId} {x : PatchCall}
    (h : registryRequest x = registryRequest (s.calls r)) :
    registryOf (s.setCall r x) = registryOf s := by
  rw [registryOf_setCall, h]
  show ({ registryOf s with
    requests := Function.update (registryOf s).requests r ((registryOf s).requests r) } :
    Registry) = _
  rw [Function.update_eq_self]

/-- The flush of a PATCH is the one of the registry. SOURCE: app/api/subscribers.py:91-97 -/
theorem map_commitPatch (sub : SubscriberRow) (body : SubscriberUpdate) (now : Time)
    (rows : List SubscriberRow) :
    (commitPatch sub body now rows).map SubscriberRow.toSubscriber =
      updateWhere (fun x => x.id = sub.id) (patchRow sub.toSubscriber body now)
        (rows.map SubscriberRow.toSubscriber) :=
  map_updateWhere_comm _ (fun _ => Iff.rfl) fun _ => rfl

/-- The flush of a DELETE is the one of the registry. SOURCE: app/api/subscribers.py:111-114 -/
theorem map_commitDelete (sub : SubscriberRow) (now : Time) (rows : List SubscriberRow) :
    (commitDelete sub now rows).map SubscriberRow.toSubscriber =
      updateWhere (fun x => x.id = sub.id) (deleteRow sub.toSubscriber now)
        (rows.map SubscriberRow.toSubscriber) :=
  map_updateWhere_comm _ (fun _ => Iff.rfl) fun _ => rfl

/-- Every step of a request is a step of its call of the registry, or leaves the registry
alone. SOURCE: app/api/subscribers.py:78-127 -/
theorem registry_of_patchStep (h : PatchStep s a s') : registryOf s' = registryOf s ∨
    ∃ r b, subscriber s.now (registryOf s) r b = some (registryOf s') := by
  have hrequest : ∀ {r x}, s.calls r = x → (registryOf s).requests r = registryRequest x :=
    fun hr => congrArg registryRequest hr
  cases h with
  | tick => exact Or.inl rfl
  | answered _ _ => exact Or.inl rfl
  | nothing _ _ => exact Or.inl rfl
  | started hr _ => exact Or.inl (registryOf_setCall_of_eq (by rw [hr]; rfl))
  | notFound hr _ => exact Or.inl (registryOf_setCall_of_eq (by rw [hr]; rfl))
  | refreshed hr _ => exact Or.inl (registryOf_setCall_of_eq (by rw [hr]; rfl))
  | gone hr _ => exact Or.inl (registryOf_setCall_of_eq (by rw [hr]; rfl))
  | finished hr => exact Or.inl (registryOf_setCall_of_eq (by rw [hr]; rfl))
  | @selected r q sub hr hl =>
    refine Or.inr ⟨r, .patch q.id q.body, ?_⟩
    have hfound : getOr404 q.id (registryOf s).subscribers = some sub.toSubscriber := by
      rw [registryOf, getOr404_map, hl, Option.map_some]
    simp only [subscriber, hrequest hr, registryRequest, hfound, registryOf_setCall]
  | @deleting r id sub hr hl =>
    refine Or.inr ⟨r, .delete id, ?_⟩
    have hfound : getOr404 id (registryOf s).subscribers = some sub.toSubscriber := by
      rw [registryOf, getOr404_map, hl, Option.map_some]
    simp only [subscriber, hrequest hr, registryRequest, hfound, registryOf_setCall]
  | @committed r q sub hr =>
    refine Or.inr ⟨r, .commit, ?_⟩
    simp only [subscriber, hrequest hr, registryRequest, registryOf_setCall]
    rw [registryOf, registryOf, map_commitPatch]
  | @deleted r sub hr =>
    refine Or.inr ⟨r, .commit, ?_⟩
    simp only [subscriber, hrequest hr, registryRequest, registryOf_setCall]
    rw [registryOf, registryOf, map_commitDelete]
  | @aborted r hr =>
    cases hx : registryRequest (s.calls r) with
    | idle => exact Or.inl (registryOf_setCall_of_eq hx.symm)
    | patching sub body =>
      refine Or.inr ⟨r, .abort, ?_⟩
      have hreq : (registryOf s).requests r = .patching sub body := hx
      simp only [subscriber, hreq, registryOf_setCall, registryRequest]
    | deleting sub =>
      refine Or.inr ⟨r, .abort, ?_⟩
      have hreq : (registryOf s).requests r = .deleting sub := hx
      simp only [subscriber, hreq, registryOf_setCall, registryRequest]

end

/-! ## A request that runs alone -/

section
variable {s : PatchProcess} {r : RequestId} {q : PatchRequest}

/-- The actions of request `r`, and the clock. -/
def ofRequest (r : RequestId) : PatchAction → Prop
  | .tick _ => True
  | .start r' _ | .select r' | .commit r' | .refresh r' | .finish r' | .delete r' _ | .abort r' =>
    r' = r

/-- A PATCH in whose steps no other request takes part computes `updateSubscriber`: it reads
the cache at once, commits after `d` and stores its response after another `d'`.
SOURCE: app/api/subscribers.py:78-104 -/
theorem updateSubscriber_of_alone (hr : s.calls r = .idle) (q : PatchRequest) (d d' : Time) :
    ∃ as s', run patchStep s as = some s' ∧ (∀ a ∈ as, ofRequest r a) ∧ s'.calls = s.calls ∧
      s'.api = (updateSubscriber s.now (s.now + d) (s.now + d + d') q s.api).2 := by
  have hidle : Function.update s.calls r .idle = s.calls := by rw [← hr, Function.update_eq_self]
  cases hc : cachedResponse s.now q s.api.cache with
  | some response =>
    refine ⟨[.start r q], s, ?_, by simp [ofRequest], rfl, ?_⟩
    · simp [run_singleton, patchStep, hr, hc]
    · simp [updateSubscriber, hc]
  | none =>
    cases hl : getRowOr404 q.id s.api.subscribers with
    | none =>
      refine ⟨[.start r q, .select r], s, ?_, by simp [ofRequest], rfl, ?_⟩
      · simp [run, patchStep, hr, hc, hl, PatchProcess.setCall, hidle]
      · simp [updateSubscriber, hc, hl]
    | some sub =>
      cases hf : refresh q.id (commitPatch sub q.body (s.now + d) s.api.subscribers) with
      | none =>
        refine ⟨[.start r q, .select r, .tick d, .commit r, .refresh r],
          ⟨s.now + d, { s.api with
            subscribers := commitPatch sub q.body (s.now + d) s.api.subscribers }, s.calls⟩,
          ?_, by simp [ofRequest], rfl, ?_⟩
        · simp [run, patchStep, hr, hc, hl, hf, PatchProcess.setCall, hidle]
        · simp [updateSubscriber, hc, hl, hf]
      | some row =>
        refine ⟨[.start r q, .select r, .tick d, .commit r, .refresh r, .tick d', .finish r],
          ⟨s.now + d + d', ⟨commitPatch sub q.body (s.now + d) s.api.subscribers,
            cacheResponse (s.now + d + d') q row.response s.api.cache⟩, s.calls⟩,
          ?_, by simp [ofRequest], rfl, ?_⟩
        · simp [run, patchStep, hr, hc, hl, hf, PatchProcess.setCall, hidle]
        · simp [updateSubscriber, hc, hl, hf]

end

end EventPipeline.Interface
