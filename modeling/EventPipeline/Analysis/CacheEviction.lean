import EventPipeline.Computation.History
import EventPipeline.Interface.PatchSteps

/-!
# Eviction from the response cache

The specification of the cache is a log of all responses that were stored, from which nothing
is ever removed. The cache drops what has expired, at each write, and answers every lookup as
the log does. After a write it has one entry for each key that was written in the last 60 s.
-/

set_option autoImplicit false

namespace EventPipeline.Analysis

open EventPipeline.Model EventPipeline.Program EventPipeline.Interface EventPipeline.Computation

/-! ## The log that never evicts -/

abbrev WriteLog := List (CacheEntry PyStr SubscriberResponse)

/-- The log with the last reading of the monotonic clock. -/
structure PutLog where
  clock : Time
  log : WriteLog

def PutLog.start (clock : Time) : PutLog := ⟨clock, []⟩

/-- A lookup leaves the log as it is, and a write is appended to it. -/
def callLog (l : PutLog) : Time × CacheCall → Option PutLog
  | (t, call) =>
    if l.clock ≤ t then
      match call with
      | .getCachedPatch _ => some { l with clock := t }
      | .cachePatchResult key result => some ⟨t, l.log ++ [⟨key, t, result⟩]⟩
    else none

/-- A lookup returns the value of the last write with its key, if that is less than 60 s old. -/
def logReturns (l : PutLog) : Time × CacheCall → List (Option SubscriberResponse)
  | (t, .getCachedPatch key) => [ExpiringCache.answer patchIdempotencyTtl t key l.log]
  | (_, .cachePatchResult _ _) => []

/-! ## The refinement -/

/-- The cache reflects the log. -/
structure RefinesLog (s : CacheProcess) (l : PutLog) : Prop where
  clock : s.clock = l.clock
  cache : ExpiringCache.Reflects patchIdempotencyTtl s.clock s.cache l.log

/-- The cache and the log start empty. -/
theorem refinesLog_start (clock : Time) : RefinesLog (.start clock) (.start clock) :=
  ⟨rfl, .nil⟩

section
variable {s s' : CacheProcess} {l : PutLog} {t : Time}

/-- A response that is cached is the last put of its key. SOURCE: app/api/subscribers.py:40-47 -/
theorem RefinesLog.put (h : RefinesLog s l) (hle : s.clock ≤ t) (key : PyStr)
    (result : SubscriberResponse) :
    ExpiringCache.Reflects patchIdempotencyTtl t (cachePatchResult t key result s.cache)
      (l.log ++ [⟨key, t, result⟩]) :=
  h.cache.put hle

/-- A call returns what the log answers, and is a call of the log. -/
theorem RefinesLog.call {call : Time × CacheCall} (h : RefinesLog s l)
    (hs : callCache s call = some s') :
    cacheReturns s call = logReturns l call ∧
      ∃ l', callLog l call = some l' ∧ RefinesLog s' l' := by
  obtain ⟨t, call⟩ := call
  simp only [callCache] at hs
  split at hs
  · rename_i hle
    have hle' : l.clock ≤ t := h.clock ▸ hle
    cases call with
    | getCachedPatch key =>
      cases hs
      refine ⟨congrArg (· :: []) ((h.cache.later hle).get_eq key), ⟨t, l.log⟩, ?_, rfl,
        h.cache.later hle⟩
      simp only [callLog, if_pos hle']
    | cachePatchResult key result =>
      cases hs
      refine ⟨rfl, ⟨t, l.log ++ [⟨key, t, result⟩]⟩, ?_, rfl, h.put hle key result⟩
      simp only [callLog, if_pos hle']
  · cases hs

/-- Every sequence of calls is one of the log, with the same answers. -/
theorem refinesLog_of_run {clock : Time} {calls : List (Time × CacheCall)}
    (h : run callCache (.start clock) calls = some s) :
    ∃ l, run callLog (.start clock) calls = some l ∧ RefinesLog s l ∧
      history callCache cacheReturns (.start clock) calls =
        history callLog logReturns (.start clock) calls :=
  lockstep (refinesLog_start clock) (fun _ _ _ _ hR hs => hR.call hs) h

/-! ## What a write leaves -/

/-- What the cache has right after a write at time `now`, when `log` has all writes up to it. -/
structure BoundedBy (now : Time) (cache : PatchCache) (log : WriteLog) : Prop where
  /-- each entry is less than 60 s old -/
  young : ∀ e ∈ cache, now - e.storedAt < patchIdempotencyTtl
  /-- no key has two entries -/
  one : (cache.map CacheEntry.key).Nodup
  /-- the keys are those written less than 60 s ago -/
  keys : ∀ k, k ∈ cache.map CacheEntry.key ↔
    ∃ p ∈ log, p.key = k ∧ now - p.storedAt < patchIdempotencyTtl

/-- After a put the cache has at most the keys that were put within the last 60 s. -/
theorem RefinesLog.boundedBy (h : RefinesLog s l) (hle : s.clock ≤ t) (key : PyStr)
    (result : SubscriberResponse) :
    BoundedBy t (cachePatchResult t key result s.cache) (l.log ++ [⟨key, t, result⟩]) := by
  have hput := h.put hle key result
  have hlive : ∀ e ∈ cachePatchResult t key result s.cache,
      e.live patchIdempotencyTtl t = true := by
    intro e he
    obtain rfl | ⟨_, _, hlive⟩ := ExpiringCache.mem_put.1 he
    · exact decide_eq_true (by rw [Nat.sub_self]; decide)
    · exact hlive
  refine ⟨fun e he => of_decide_eq_true (hlive e he), hput.unique, fun k => ?_⟩
  rw [hput.mem_keys_iff hlive]
  simp only [CacheEntry.live, decide_eq_true_eq]

/-! ## The result -/

/-- The clock accepts every sequence of calls in the order of time. -/
theorem exists_run_callCache {calls : List (Time × CacheCall)}
    (h : (s.clock :: calls.map Prod.fst).Pairwise (· ≤ ·)) :
    ∃ s', run callCache s calls = some s' := by
  induction calls generalizing s with
  | nil => exact ⟨s, rfl⟩
  | cons call calls ih =>
    obtain ⟨t, call⟩ := call
    obtain ⟨hle, hrest⟩ := List.pairwise_cons.1 h
    have ht : s.clock ≤ t := hle t List.mem_cons_self
    obtain ⟨s', hs', hclock⟩ : ∃ s', callCache s (t, call) = some s' ∧ s'.clock = t := by
      cases call with
      | getCachedPatch key => exact ⟨⟨t, s.cache⟩, if_pos ht, rfl⟩
      | cachePatchResult key result =>
        exact ⟨⟨t, cachePatchResult t key result s.cache⟩, if_pos ht, rfl⟩
    obtain ⟨s'', hs''⟩ := ih (s := s') (hclock ▸ hrest)
    exact ⟨s'', run_cons_eq_some.2 ⟨s', hs', hs''⟩⟩

end

/-- After any sequence of calls from an empty cache, at times that do not go back, every
lookup has returned what a log of all writes answers that never evicts, and a further write
leaves exactly one entry, less than 60 s old, for each key written in the last 60 s.
SOURCE: app/api/subscribers.py:26-47 -/
theorem eviction_unobservable (clock : Time) (calls : List (Time × CacheCall))
    (h : (clock :: calls.map Prod.fst).Pairwise (· ≤ ·)) :
    ∃ s l, run callCache (.start clock) calls = some s ∧
      run callLog (.start clock) calls = some l ∧
      history callCache cacheReturns (.start clock) calls =
        history callLog logReturns (.start clock) calls ∧
      ∀ t key result, s.clock ≤ t →
        BoundedBy t (cachePatchResult t key result s.cache) (l.log ++ [⟨key, t, result⟩]) := by
  obtain ⟨s, hs⟩ := exists_run_callCache (s := .start clock) h
  obtain ⟨l, hl, hR, hhistory⟩ := refinesLog_of_run hs
  exact ⟨s, l, hs, hl, hhistory, fun t key result hle => hR.boundedBy hle key result⟩

def cachedActive (active : Bool) : SubscriberResponse := ⟨⟨1⟩, py "a", py "http://a", active, 0⟩

/-- Two keys; the first is looked up on both sides of the end of its 60 s, and the write of
the second one evicts it. -/
def twoKeys : List (Time × CacheCall) :=
  [(0, .cachePatchResult (py "k") (cachedActive true)),
    (seconds 60 - 1, .getCachedPatch (py "k")), (seconds 60, .getCachedPatch (py "k")),
    (seconds 60, .cachePatchResult (py "l") (cachedActive false)),
    (seconds 61, .getCachedPatch (py "l"))]

example : history callCache cacheReturns (.start 0) twoKeys =
    [some (cachedActive true), none, some (cachedActive false)] := by decide

/-- Two keys, of which the first one is evicted by the put of the second. -/
theorem eviction_unobservable_twoKeys :
    ∃ s l, run callCache (.start 0) twoKeys = some s ∧
      run callLog (.start 0) twoKeys = some l ∧
      history callCache cacheReturns (.start 0) twoKeys =
        history callLog logReturns (.start 0) twoKeys ∧
      ∀ t key result, s.clock ≤ t →
        BoundedBy t (cachePatchResult t key result s.cache) (l.log ++ [⟨key, t, result⟩]) :=
  eviction_unobservable 0 twoKeys (by decide)

/-! ## The cache of an API process -/

/-- The calls of the cache functions that a step makes.
SOURCE: app/api/subscribers.py:86-89,101-102 -/
def cacheCalls (s : PatchProcess) : PatchAction → List (Time × CacheCall)
  | .start r q =>
    match s.calls r with
    | .idle => (q.key.map fun k => (s.now, CacheCall.getCachedPatch k)).toList
    | _ => []
  | .finish r =>
    match s.calls r with
    | .refreshed q row =>
      (q.key.map fun k => (s.now, CacheCall.cachePatchResult k row.response)).toList
    | _ => []
  | _ => []

/-- The cache functions have left the cache of the process, at some time up to now. -/
structure OwnsCache (s : PatchProcess) (c : CacheProcess) : Prop where
  clock : c.clock ≤ s.now
  cache : c.cache = s.api.cache

section
variable {s s' : PatchProcess} {c : CacheProcess}

/-- A lookup, with a key or without one. -/
theorem OwnsCache.lookup (h : OwnsCache s c) (key : Option PyStr) :
    ∃ c', run callCache c (key.map fun k => (s.now, CacheCall.getCachedPatch k)).toList = some c' ∧
      OwnsCache s c' := by
  cases key with
  | none => exact ⟨c, rfl, h⟩
  | some k => exact ⟨⟨s.now, c.cache⟩, run_singleton.trans (if_pos h.clock), le_refl _, h.cache⟩

/-- A step changes the cache by the calls that it makes. -/
theorem OwnsCache.step {a : PatchAction} (h : OwnsCache s c) (hs : patchStep s a = some s') :
    ∃ c', run callCache c (cacheCalls s a) = some c' ∧ OwnsCache s' c' := by
  cases patchStep_of_eq_some hs with
  | tick => exact ⟨c, rfl, h.clock.trans (Nat.le_add_right _ _), h.cache⟩
  | answered hr hc =>
    simp only [cacheCalls, hr]
    exact h.lookup _
  | started hr hc =>
    simp only [cacheCalls, hr]
    obtain ⟨c', hc', hown⟩ := h.lookup _
    exact ⟨c', hc', hown.clock, hown.cache⟩
  | finished hr =>
    rename_i r q row
    simp only [cacheCalls, hr, PatchProcess.setCall, cacheResponse]
    cases q.key with
    | none => exact ⟨c, rfl, h.clock, h.cache⟩
    | some k =>
      refine ⟨_, run_singleton.trans (if_pos h.clock), le_refl _, ?_⟩
      rw [h.cache]
  | _ => exact ⟨c, rfl, h.clock, h.cache⟩

end

/-- In every run of an API process, whatever the order in which its requests proceed, the
cache is what its calls make of an empty one. SOURCE: app/api/subscribers.py:78-104 -/
theorem ownsCache_of_run {now : Time} {subscribers : List SubscriberRow}
    {as : List PatchAction} {s : PatchProcess}
    (h : run patchStep (.start now subscribers) as = some s) :
    ∃ c, run callCache (.start now) (history patchStep cacheCalls (.start now subscribers) as) =
      some c ∧ OwnsCache s c := by
  refine history_induct
    (I := fun s calls => ∃ c, run callCache (.start now) calls = some c ∧ OwnsCache s c)
    ⟨.start now, rfl, le_refl _, rfl⟩ ?_ h
  rintro s calls a s' _ ⟨c, hc, hown⟩ hs
  obtain ⟨c', hc', hown'⟩ := hown.step hs
  exact ⟨c', run_append_eq_some.2 ⟨c, hc, hc'⟩, hown'⟩

/-- So a PATCH is answered from the cache exactly when the log of the responses stored before
has one for its key. SOURCE: app/api/subscribers.py:86-89 -/
theorem cachedResponse_eq_answer {now : Time} {subscribers : List SubscriberRow}
    {as : List PatchAction} {s : PatchProcess}
    (h : run patchStep (.start now subscribers) as = some s) :
    ∃ l, run callLog (.start now) (history patchStep cacheCalls (.start now subscribers) as) =
      some l ∧ ∀ q, cachedResponse s.now q s.api.cache =
        q.key.bind fun k => ExpiringCache.answer patchIdempotencyTtl s.now k l.log := by
  obtain ⟨c, hc, hown⟩ := ownsCache_of_run h
  obtain ⟨l, hl, hR, _⟩ := refinesLog_of_run hc
  refine ⟨l, hl, fun q => ?_⟩
  have hget : ∀ k, getCachedPatch s.now k s.api.cache =
      ExpiringCache.answer patchIdempotencyTtl s.now k l.log := by
    intro k
    rw [← hown.cache]
    exact (hR.cache.later hown.clock).get_eq k
  simp only [cachedResponse, hget]

end EventPipeline.Analysis
