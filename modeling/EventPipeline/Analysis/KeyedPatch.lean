import EventPipeline.Program.PatchRequests
import EventPipeline.Computation.History

/-!
# Which request a keyed PATCH answers

The cache is looked up by the header alone, before the subscriber and the body are read. When
requests are served one after the other, at most one response is live for a key, that of the
PATCH that was last committed under it. So a PATCH answers for its own request exactly when
its key has not been used, less than 60 s before, for another subscriber or body.
-/

set_option autoImplicit false

namespace EventPipeline.Analysis

open EventPipeline.Model EventPipeline.Program EventPipeline.Computation

/-! ## The committed requests -/

/-- A PATCH that was committed, with its response and the time at which this was cached. -/
structure CommittedPatch where
  request : PatchRequest
  storedAt : Time
  response : SubscriberResponse

/-- What a request adds to the log of committed PATCH requests. -/
def committedPatch (s : PatchService) : ServiceRequest → List CommittedPatch
  | .patch q lookupAt now storedAt =>
    match (updateSubscriber lookupAt now storedAt q s.api).1 with
    | .updated response => [⟨q, storedAt, response⟩]
    | _ => []
  | .delete _ _ => []

/-- The committed PATCH requests of a sequence that starts with the process. -/
def patchLog (clock : Time) (subscribers : List SubscriberRow) (rs : List ServiceRequest) :
    List CommittedPatch :=
  history serve committedPatch (.start clock subscribers) rs

/-- The PATCH `e` had the key of `q` and is less than 60 s old at time `now`. -/
def SharesKey (q : PatchRequest) (now : Time) (e : CommittedPatch) : Prop :=
  q.key ≠ none ∧ e.request.key = q.key ∧ now - e.storedAt < patchIdempotencyTtl

/-! ## What one request does -/

section
variable {lookupAt : Time} {q : PatchRequest} {s : PatchApi}

/-- A PATCH that the cache answers changes nothing. SOURCE: app/api/subscribers.py:86-89 -/
theorem updateSubscriber_of_cached (now storedAt : Time) {r : SubscriberResponse}
    (h : cachedResponse lookupAt q s.cache = some r) :
    updateSubscriber lookupAt now storedAt q s = (.cached r, s) := by
  rw [updateSubscriber, h]

/-- The row that was loaded as `sub`, after a PATCH with `body` at time `now`.
SOURCE: app/api/subscribers.py:92-96 -/
def patchedRow (sub : SubscriberRow) (body : SubscriberUpdate) (now : Time) : SubscriberRow :=
  { sub with
    endpoint := body.endpoint.getD sub.endpoint
    isActive := body.isActive.getD sub.isActive
    updatedAt := now }

/-- The row to refresh is the one that was loaded, with the fields of the body.
SOURCE: app/api/subscribers.py:91-98 -/
theorem refresh_commitPatch {sub : SubscriberRow} {id : Uuid} (body : SubscriberUpdate)
    (now : Time) {subscribers : List SubscriberRow} (h : getRowOr404 id subscribers = some sub) :
    refresh id (commitPatch sub body now subscribers) = some (patchedRow sub body now) := by
  obtain ⟨hl, _⟩ := Option.filter_eq_some_iff.1 h
  have hkey : ∀ row : SubscriberRow, row.id = sub.id →
      (patchRow sub.toSubscriber body now row.toSubscriber).id = row.id := fun _ _ => rfl
  rw [refresh, commitPatch, lookup_updateWhere hkey, hl, Option.map_some, if_pos rfl,
    patchRow_loaded]
  rfl

/-- A PATCH changes no other row. SOURCE: app/api/subscribers.py:91-97 -/
theorem lookup_commitPatch_of_ne {sub : SubscriberRow} {id : Uuid} (body : SubscriberUpdate)
    (now : Time) (subscribers : List SubscriberRow) (h : id ≠ sub.id) :
    lookup (fun row => row.id) id (commitPatch sub body now subscribers) =
      lookup (fun row => row.id) id subscribers :=
  lookup_updateWhere_of_not (fun _ _ => rfl) fun _ hid heq => h (hid.symm.trans heq)

/-- The ways through `update_subscriber`. SOURCE: app/api/subscribers.py:78-104 -/
theorem updateSubscriber_cases (lookupAt now storedAt : Time) (q : PatchRequest) (s : PatchApi) :
    (∃ r, cachedResponse lookupAt q s.cache = some r ∧
      updateSubscriber lookupAt now storedAt q s = (.cached r, s)) ∨
    cachedResponse lookupAt q s.cache = none ∧
      ((getRowOr404 q.id s.subscribers = none ∧
        updateSubscriber lookupAt now storedAt q s = (.notFound, s)) ∨
      ∃ sub, getRowOr404 q.id s.subscribers = some sub ∧ sub.id = q.id ∧
        updateSubscriber lookupAt now storedAt q s =
          (.updated (patchedRow sub q.body now).response,
            ⟨commitPatch sub q.body now s.subscribers,
              cacheResponse storedAt q (patchedRow sub q.body now).response s.cache⟩)) := by
  cases hc : cachedResponse lookupAt q s.cache with
  | some r => exact Or.inl ⟨r, rfl, updateSubscriber_of_cached now storedAt hc⟩
  | none =>
    refine Or.inr ⟨rfl, ?_⟩
    cases hsub : getRowOr404 q.id s.subscribers with
    | none => exact Or.inl ⟨rfl, by simp only [updateSubscriber, hc, hsub]⟩
    | some sub =>
      have hrow := refresh_commitPatch q.body now hsub
      have hid : sub.id = q.id := (of_lookup_eq_some (Option.filter_eq_some_iff.1 hsub).1).2
      exact Or.inr ⟨sub, rfl, hid, by simp only [updateSubscriber, hc, hsub, hrow]⟩

end

/-! ## The cache and the log -/

/-- The invariant of a sequence of requests with the log `log`: the cache has the responses of
the log that are live, and for each key at most one of them is. -/
structure LogInv (s : PatchService) (log : List CommittedPatch) : Prop where
  unique : s.api.cache.Unique
  cached : ∀ c ∈ s.api.cache, ∃ e ∈ log, e.request.key = some c.key ∧ e.storedAt = c.storedAt ∧
    e.response = c.value
  live : ∀ e ∈ log, ∀ k, e.request.key = some k → s.clock - e.storedAt < patchIdempotencyTtl →
    ⟨k, e.storedAt, e.response⟩ ∈ s.api.cache
  one : ∀ e ∈ log, ∀ e' ∈ log, e.request.key ≠ none → e.request.key = e'.request.key →
    s.clock - e.storedAt < patchIdempotencyTtl → s.clock - e'.storedAt < patchIdempotencyTtl →
    e = e'
  response : ∀ e ∈ log, e.response.id = e.request.id

section
variable {s s' : PatchService} {log : List CommittedPatch} {q : PatchRequest}
  {lookupAt now storedAt : Time}

/-- Time passes and the cache stays as it is. -/
theorem LogInv.later (h : LogInv s log) (hclock : s.clock ≤ s'.clock)
    (hcache : s'.api.cache = s.api.cache) : LogInv s' log := by
  refine ⟨hcache ▸ h.unique, hcache ▸ h.cached, fun e he k hk hlive => ?_,
    fun e he e' he' hne heq hlive hlive' => ?_, h.response⟩
  · rw [hcache]
    exact h.live e he k hk (young_of_le hclock hlive)
  · exact h.one e he e' he' hne heq (young_of_le hclock hlive) (young_of_le hclock hlive')

/-- A response is served from the cache exactly when a committed request shares the key. -/
theorem LogInv.cachedResponse_eq_some (h : LogInv s log) (hclock : s.clock ≤ lookupAt)
    {r : SubscriberResponse} : cachedResponse lookupAt q s.api.cache = some r ↔
      ∃ e ∈ log, SharesKey q lookupAt e ∧ e.response = r := by
  rw [cachedResponse, Option.bind_eq_some_iff]
  constructor
  · rintro ⟨k, hk, hget⟩
    obtain ⟨c, hc, rfl, hlive, rfl⟩ := (ExpiringCache.get_eq_some_iff h.unique).1 hget
    obtain ⟨e, he, hkey, hat, hresponse⟩ := h.cached c hc
    refine ⟨e, he, ⟨by rw [hk]; nofun, hkey.trans hk.symm, ?_⟩, hresponse⟩
    rw [hat]
    exact of_decide_eq_true hlive
  · rintro ⟨e, he, ⟨hne, hkey, hlive⟩, rfl⟩
    obtain ⟨k, hk⟩ := Option.ne_none_iff_exists'.1 hne
    have hmem := h.live e he k (hkey.trans hk) (young_of_le hclock hlive)
    exact ⟨k, hk, (ExpiringCache.get_eq_some_iff h.unique).2
      ⟨_, hmem, rfl, decide_eq_true hlive, rfl⟩⟩

/-- Where the cache has no answer, the requests of the log with the same key have expired. -/
theorem LogInv.expired_of_miss (h : LogInv s log) (hlookup : s.clock ≤ lookupAt)
    (hstored : lookupAt ≤ storedAt) (hmiss : cachedResponse lookupAt q s.api.cache = none)
    {e : CommittedPatch} (he : e ∈ log) (hne : q.key ≠ none) (hkey : e.request.key = q.key) :
    ¬ storedAt - e.storedAt < patchIdempotencyTtl := by
  intro hlive
  have hsome := (h.cachedResponse_eq_some hlookup).2
    ⟨e, he, ⟨hne, hkey, young_of_le hstored hlive⟩, rfl⟩
  rw [hmiss] at hsome
  cases hsome

/-- The log still has at most one live request for each key, when those with the key of the new
one have expired. -/
theorem LogInv.one_snoc (h : LogInv s log) {new : CommittedPatch}
    (hexpired : ∀ e ∈ log, new.request.key ≠ none → e.request.key = new.request.key →
      ¬ s.clock - e.storedAt < patchIdempotencyTtl) {e e' : CommittedPatch}
    (he : e ∈ log ++ [new]) (he' : e' ∈ log ++ [new]) (hne : e.request.key ≠ none)
    (heq : e.request.key = e'.request.key) (hlive : s.clock - e.storedAt < patchIdempotencyTtl)
    (hlive' : s.clock - e'.storedAt < patchIdempotencyTtl) : e = e' := by
  obtain hold | hnew := List.mem_append.1 he
  · obtain hold' | hnew' := List.mem_append.1 he'
    · exact h.one e hold e' hold' hne heq hlive hlive'
    · obtain rfl := List.mem_singleton.1 hnew'
      exact absurd hlive (hexpired e hold (heq ▸ hne) heq)
  · obtain rfl := List.mem_singleton.1 hnew
    obtain hold' | hnew' := List.mem_append.1 he'
    · exact absurd hlive' (hexpired e' hold' hne heq.symm)
    · exact (List.mem_singleton.1 hnew').symm

/-- A PATCH that was not answered from the cache stores its response.
SOURCE: app/api/subscribers.py:86-104 -/
theorem LogInv.store (h : LogInv s log) (hlookup : s.clock ≤ lookupAt)
    (hstored : lookupAt ≤ storedAt) (hmiss : cachedResponse lookupAt q s.api.cache = none)
    {row : SubscriberRow} (hid : row.id = q.id) {subscribers : List SubscriberRow} :
    LogInv ⟨storedAt, subscribers, cacheResponse storedAt q row.response s.api.cache⟩
      (log ++ [⟨q, storedAt, row.response⟩]) := by
  have hexpired : ∀ e ∈ log, q.key ≠ none → e.request.key = q.key →
      ¬ storedAt - e.storedAt < patchIdempotencyTtl := fun e he hne hkey =>
    h.expired_of_miss hlookup hstored hmiss he hne hkey
  have hlater : LogInv ⟨storedAt, subscribers, s.api.cache⟩ log :=
    h.later (hlookup.trans hstored) rfl
  refine ⟨unique_cacheResponse h.unique, fun c hc => ?_, fun e he k hkey hlive => ?_,
    fun e he e' he' => hlater.one_snoc hexpired he he', fun e he => ?_⟩
  · obtain ⟨hk, hat, hvalue⟩ | ⟨hc, _⟩ := mem_cacheResponse_iff.1 hc
    · exact ⟨_, List.mem_append_right _ List.mem_cons_self, hk, hat.symm, hvalue.symm⟩
    · obtain ⟨e, he, hfrom⟩ := h.cached c hc
      exact ⟨e, List.mem_append_left _ he, hfrom⟩
  · refine mem_cacheResponse_iff.2 ?_
    obtain he | he := List.mem_append.1 he
    · have hother : q.key ≠ some k := fun hk =>
        hexpired e he (by rw [hk]; nofun) (hkey.trans hk.symm) hlive
      exact Or.inr ⟨hlater.live e he k hkey hlive, hother, fun _ => decide_eq_true hlive⟩
    · obtain rfl := List.mem_singleton.1 he
      exact Or.inl ⟨hkey, rfl, rfl⟩
  · obtain he | he := List.mem_append.1 he
    · exact h.response e he
    · obtain rfl := List.mem_singleton.1 he
      exact hid

/-- The cache has the live responses of the log, after every sequence of requests. -/
theorem logInv_of_run {clock : Time} {subscribers : List SubscriberRow} {rs : List ServiceRequest}
    (h : run serve (.start clock subscribers) rs = some s) :
    LogInv s (patchLog clock subscribers rs) := by
  refine history_induct (I := LogInv) ?_ ?_ h
  · exact ⟨List.nodup_nil, nofun, nofun, nofun, nofun⟩
  · intro s log r s' _ hinv hs
    cases r with
    | delete id now =>
      cases hs
      rw [committedPatch, List.append_nil]
      refine hinv.later (le_refl _) ?_
      show (deleteSubscriber now id s.api).cache = s.api.cache
      unfold deleteSubscriber
      split <;> rfl
    | patch q lookupAt now storedAt =>
      simp only [serve] at hs
      split at hs
      · rename_i htimes
        cases hs
        obtain ⟨hlookup, hstored⟩ := htimes
        have hclock : s.clock ≤ storedAt := hlookup.trans hstored
        obtain ⟨r, _, heq⟩ | ⟨hmiss, ⟨_, heq⟩ | ⟨sub, _, hid, heq⟩⟩ :=
          updateSubscriber_cases lookupAt now storedAt q s.api
        · rw [committedPatch, heq, List.append_nil]
          exact hinv.later hclock rfl
        · rw [committedPatch, heq, List.append_nil]
          exact hinv.later hclock rfl
        · rw [committedPatch, heq]
          have hrow : (patchedRow sub q.body now).id = q.id := hid
          exact hinv.store hlookup hstored hmiss hrow
      · cases hs

end

/-! ## The result -/

/-- The request `q` has committed its body to its subscriber, whose row then has the fields of
the body and otherwise those it had; no other row has changed, and the response is the row after
the commit. -/
def CommitsItself (lookupAt now storedAt : Time) (q : PatchRequest) (s : PatchApi)
    (r : SubscriberResponse) : Prop :=
  ∃ sub row, getRowOr404 q.id s.subscribers = some sub ∧
    (updateSubscriber lookupAt now storedAt q s).1 = .updated r ∧
    (updateSubscriber lookupAt now storedAt q s).2.subscribers =
      commitPatch sub q.body now s.subscribers ∧
    refresh q.id (commitPatch sub q.body now s.subscribers) = some row ∧ r = row.response ∧
    row = patchedRow sub q.body now ∧
    ∀ id ≠ q.id, lookup (fun row => row.id) id (commitPatch sub q.body now s.subscribers) =
      lookup (fun row => row.id) id s.subscribers

/-- When `q` is answered with 200 after the requests of `log`, the answer describes its
subscriber, and it is its own or that of an earlier PATCH, less than 60 s old, with the same
key, subscriber and body. -/
def AnswersItself (lookupAt now storedAt : Time) (q : PatchRequest) (s : PatchApi)
    (log : List CommittedPatch) : Prop :=
  ∀ r, (updateSubscriber lookupAt now storedAt q s).1.ok = some r → r.id = q.id ∧
    (CommitsItself lookupAt now storedAt q s r ∨
      ∃ e ∈ log, SharesKey q lookupAt e ∧ e.request.id = q.id ∧ e.request.body = q.body ∧
        e.response = r)

def twoSubscribers : List SubscriberRow :=
  [⟨⟨⟨1⟩, py "http://a", py "s", true, 0, none⟩, py "a", 0⟩,
    ⟨⟨⟨2⟩, py "http://b", py "s", true, 0, none⟩, py "b", 0⟩]

/-- Deactivates a subscriber, under the key `k`. -/
def deactivate (id : Uuid) : PatchRequest := ⟨id, ⟨none, some false⟩, some (py "k")⟩

/-- The first subscriber is deactivated under the key. -/
def firstDeactivated : List ServiceRequest := [.patch (deactivate ⟨1⟩) 0 0 0]

theorem firstDeactivated_enabled :
    (run serve (.start 0 twoSubscribers) firstDeactivated).isSome = true := by decide

def afterFirst : PatchService :=
  (run serve (.start 0 twoSubscribers) firstDeactivated).get firstDeactivated_enabled

end EventPipeline.Analysis
