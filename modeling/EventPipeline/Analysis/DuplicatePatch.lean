import EventPipeline.Computation.History
import EventPipeline.Interface.PatchSteps

/-!
# Duplicates of a keyed PATCH

A PATCH looks its key up at its start and stores its response at its end, with three awaits
between. A duplicate that starts in between finds nothing. When no duplicate starts while a
request with the key is in progress, and no such request ends by an exception after its
commit, the first one that commits is in the cache before the next one starts, and the row is
written once.
-/

set_option autoImplicit false

namespace EventPipeline.Analysis

open EventPipeline.Model EventPipeline.Program EventPipeline.Interface EventPipeline.Computation

/-! ## The requests with a key -/

/-- The key of a PATCH in progress. -/
def callKey : PatchCall → Option PyStr
  | .selecting q | .loaded q _ | .committed q | .refreshed q _ => q.key
  | .idle | .deleting _ => none

/-- The PATCH is committed, and its response is not stored yet. -/
def unstored : PatchCall → Bool
  | .committed _ | .refreshed _ _ => true
  | _ => false

/-- The requests that an action writes the subscriber row for, under the key `k`.
SOURCE: app/api/subscribers.py:97 -/
def keyedWrites (k : PyStr) (s : PatchProcess) : PatchAction → List RequestId
  | .commit r =>
    match s.calls r with
    | .loaded q _ => if q.key = some k then [r] else []
    | _ => []
  | _ => []

/-- The key of the request that acts. -/
def actionKey (s : PatchProcess) : PatchAction → Option PyStr
  | .tick _ | .delete _ _ => none
  | .start _ q => q.key
  | .select r | .commit r | .refresh r | .finish r | .abort r => callKey (s.calls r)

/-- The requests with the key `k` act within 60 s from time `T` on. -/
def WithinTtl (k : PyStr) (T : Time) (s : PatchProcess) (a : PatchAction) : Prop :=
  actionKey s a = some k → T ≤ s.now ∧ s.now < T + patchIdempotencyTtl

instance (k : PyStr) (T : Time) (s : PatchProcess) (a : PatchAction) :
    Decidable (WithinTtl k T s a) :=
  inferInstanceAs (Decidable (actionKey s a = some k → _))

/-- A request with the key `k` starts only when no other one is in progress, and none of them
ends by an exception between its commit and the storing of its response. -/
structure OneAtATime (k : PyStr) (s : PatchProcess) (a : PatchAction) : Prop where
  alone : ∀ r q, a = .start r q → q.key = some k → ∀ r', callKey (s.calls r') ≠ some k
  stored : ∀ r, a = .abort r → callKey (s.calls r) = some k → unstored (s.calls r) = false

/-! ## The row to refresh -/

/-- The subscriber that the request has loaded and not refreshed yet. -/
def writing : PatchCall → Option Uuid
  | .loaded q _ | .committed q => some q.id
  | _ => none

def rowIds (s : PatchProcess) : List Uuid := s.api.subscribers.map fun row => row.id

section
variable {s s' : PatchProcess} {a : PatchAction}

/-- No step removes a row or changes its id. -/
theorem rowIds_of_step (h : PatchStep s a s') : rowIds s' = rowIds s := by
  cases h with
  | committed _ => exact map_updateWhere _ fun _ _ => rfl
  | deleted _ => exact map_updateWhere _ fun _ _ => rfl
  | _ => rfl

/-- A subscriber that is found has a row. -/
theorem mem_rowIds_of_getRowOr404 {id : Uuid} {sub : SubscriberRow}
    (h : getRowOr404 id s.api.subscribers = some sub) : id ∈ rowIds s := by
  obtain ⟨hl, _⟩ := Option.filter_eq_some_iff.1 h
  obtain ⟨hmem, rfl⟩ := of_lookup_eq_some hl
  exact List.mem_map_of_mem hmem

/-- A subscriber that is being written has a row. -/
theorem mem_rowIds_of_reachable {now : Time} {subscribers : List SubscriberRow}
    (h : Reachable patchStep (.start now subscribers) s) :
    ∀ r id, writing (s.calls r) = some id → id ∈ rowIds s := by
  refine h.induct (I := fun s => ∀ r id, writing (s.calls r) = some id → id ∈ rowIds s) nofun ?_
  intro s a s' _ hinv hs r id hw
  have hstep := patchStep_of_eq_some hs
  rw [rowIds_of_step hstep]
  have hset : ∀ {s₁ : PatchProcess} {r' : RequestId} {x : PatchCall}, s₁.calls = s.calls →
      writing ((s₁.setCall r' x).calls r) = some id →
      (writing x = some id → id ∈ rowIds s) → id ∈ rowIds s := by
    intro s₁ r' x hcalls hw hx
    by_cases hr : r = r'
    · rw [hr, PatchProcess.setCall_self] at hw
      exact hx hw
    · rw [PatchProcess.setCall_of_ne hr, hcalls] at hw
      exact hinv r id hw
  cases hstep with
  | tick => exact hinv r id hw
  | answered _ _ => exact hinv r id hw
  | nothing _ _ => exact hinv r id hw
  | selected hr hl =>
    refine hset rfl hw fun hx => ?_
    obtain rfl := Option.some.inj hx
    exact mem_rowIds_of_getRowOr404 hl
  | @committed r' q sub hr =>
    refine hset rfl hw fun hx => hinv r' id ?_
    rw [hr]
    exact hx
  | _ => exact hset rfl hw nofun

/-- The refresh finds its row. SOURCE: app/api/subscribers.py:97-98 -/
theorem refresh_ne_none {now : Time} {subscribers : List SubscriberRow}
    (h : Reachable patchStep (.start now subscribers) s) {r : RequestId} {q : PatchRequest}
    (hr : s.calls r = .committed q) : refresh q.id s.api.subscribers ≠ none := by
  have hrow : q.id ∈ rowIds s := mem_rowIds_of_reachable h r q.id (by rw [hr]; rfl)
  exact Option.isSome_iff_ne_none.1 (isSome_lookup_iff.2 hrow)

end

/-! ## The invariant -/

/-- The requests `l` with the key `k` have written the row. -/
structure WrittenOnce (k : PyStr) (T : Time) (s : PatchProcess) (l : List RequestId) : Prop where
  le : l.length ≤ 1
  alone : ∀ r r', callKey (s.calls r) = some k → callKey (s.calls r') = some k → r = r'
  /-- after a write no request goes on that has not written itself -/
  first : ∀ r, callKey (s.calls r) = some k → unstored (s.calls r) = false → l = []
  /-- after a write the response is about to be stored, or it is in the cache -/
  cached : l ≠ [] → T + patchIdempotencyTtl ≤ s.now ∨
    (∃ r, callKey (s.calls r) = some k ∧ unstored (s.calls r) = true) ∨
    ∃ e ∈ s.api.cache, e.key = k ∧ T ≤ e.storedAt
  unique : s.api.cache.Unique

section
variable {k : PyStr} {T : Time} {s s' : PatchProcess} {l : List RequestId} {a : PatchAction}
  {r : RequestId} {x : PatchCall}

/-- A request that ends or goes on, without a write. -/
theorem WrittenOnce.move (h : WrittenOnce k T s l)
    (hkey : callKey x = some k → callKey (s.calls r) = some k)
    (hnew : callKey x = some k → unstored x = false → unstored (s.calls r) = false)
    (hkeep : callKey (s.calls r) = some k → unstored (s.calls r) = true →
      callKey x = some k ∧ unstored x = true) :
    WrittenOnce k T (s.setCall r x) l := by
  have hown : ∀ {r'}, callKey ((s.setCall r x).calls r') = some k →
      callKey (s.calls r') = some k := by
    intro r' hr'
    by_cases heq : r' = r
    · rw [heq, PatchProcess.setCall_self] at hr'
      exact heq ▸ hkey hr'
    · rwa [PatchProcess.setCall_of_ne heq] at hr'
  refine ⟨h.le, fun r₁ r₂ h₁ h₂ => h.alone r₁ r₂ (hown h₁) (hown h₂), fun r' hr' hun => ?_,
    fun hl => ?_, h.unique⟩
  · refine h.first r' (hown hr') ?_
    by_cases heq : r' = r
    · subst heq
      rw [PatchProcess.setCall_self] at hr' hun
      exact hnew hr' hun
    · rwa [PatchProcess.setCall_of_ne heq] at hun
  · obtain hlate | ⟨r', hr', hun⟩ | hstored := h.cached hl
    · exact Or.inl hlate
    · refine Or.inr (Or.inl ⟨r', ?_⟩)
      by_cases heq : r' = r
      · subst heq
        rw [PatchProcess.setCall_self]
        exact hkeep hr' hun
      · rw [PatchProcess.setCall_of_ne heq]
        exact ⟨hr', hun⟩
    · exact Or.inr (Or.inr hstored)

/-- A request with another key ends or goes on. -/
theorem WrittenOnce.other (h : WrittenOnce k T s l) (hx : callKey x ≠ some k)
    (hr : callKey (s.calls r) ≠ some k) : WrittenOnce k T (s.setCall r x) l :=
  h.move (fun h => absurd h hx) (fun h => absurd h hx) fun h => absurd h hr

/-- The first request with the key starts: none of them is in progress and none has written.
SOURCE: app/api/subscribers.py:86-91 -/
theorem WrittenOnce.start (h : WrittenOnce k T s l) {q : PatchRequest} (hl : q.key = some k → l = [])
    (hr : s.calls r = .idle) (halone : q.key = some k → ∀ r', callKey (s.calls r') ≠ some k) :
    WrittenOnce k T (s.setCall r (.selecting q)) l := by
  by_cases hq : q.key = some k
  · obtain rfl := hl hq
    refine ⟨h.le, fun r₁ r₂ h₁ h₂ => ?_, fun _ _ _ => rfl, fun hne => absurd rfl hne, h.unique⟩
    have honly : ∀ r', callKey ((s.setCall r (.selecting q)).calls r') = some k → r' = r := by
      intro r' hr'
      by_contra hne
      rw [PatchProcess.setCall_of_ne hne] at hr'
      exact halone hq r' hr'
    rw [honly r₁ h₁, honly r₂ h₂]
  · exact h.other hq (by rw [hr]; nofun)

/-- A request with the key writes the row; none has written before.
SOURCE: app/api/subscribers.py:92-97 -/
theorem WrittenOnce.write (h : WrittenOnce k T s l) {q : PatchRequest} {sub : SubscriberRow}
    (hr : s.calls r = .loaded q sub) (hq : q.key = some k) :
    WrittenOnce k T (s.setCall r (.committed q)) (l ++ [r]) := by
  have hkey : callKey (s.calls r) = some k := by rw [hr]; exact hq
  obtain rfl := h.first r hkey (by rw [hr]; rfl)
  have hself := s.setCall_self r (.committed q)
  have honly : ∀ r', callKey ((s.setCall r (.committed q)).calls r') = some k → r' = r := by
    intro r' hr'
    by_contra hne
    rw [PatchProcess.setCall_of_ne hne] at hr'
    exact hne (h.alone r' r hr' hkey)
  refine ⟨le_refl 1, fun r₁ r₂ h₁ h₂ => by rw [honly r₁ h₁, honly r₂ h₂], fun r' hr' hun => ?_,
    fun _ => Or.inr (Or.inl ⟨r, ?_⟩), h.unique⟩
  · rw [honly r' hr', hself] at hun
    cases hun
  · rw [hself]
    exact ⟨hq, rfl⟩

/-- A response is stored. An entry of the key that this evicts has outlived the 60 s.
SOURCE: app/api/subscribers.py:40-47,101-104 -/
theorem WrittenOnce.finish (h : WrittenOnce k T s l) {q : PatchRequest} {row : SubscriberRow}
    (hr : s.calls r = .refreshed q row) (hT : q.key = some k → T ≤ s.now) :
    WrittenOnce k T ({ s with
      api := { s.api with
        cache := cacheResponse s.now q row.response s.api.cache } }.setCall r .idle) l := by
  have hcall : callKey (s.calls r) = q.key := by rw [hr]; rfl
  have hother : ∀ r', callKey (({ s with
      api := { s.api with
        cache := cacheResponse s.now q row.response s.api.cache } }.setCall r .idle).calls r') =
      some k → r' ≠ r ∧ callKey (s.calls r') = some k := by
    intro r' hr'
    by_cases heq : r' = r
    · rw [heq, PatchProcess.setCall_self] at hr'
      cases hr'
    · rw [PatchProcess.setCall_of_ne heq] at hr'
      exact ⟨heq, hr'⟩
  refine ⟨h.le, fun r₁ r₂ h₁ h₂ => h.alone r₁ r₂ (hother r₁ h₁).2 (hother r₂ h₂).2,
    fun r' hr' hun => ?_, fun hl => ?_, unique_cacheResponse h.unique⟩
  · obtain ⟨hne, hr'⟩ := hother r' hr'
    rw [PatchProcess.setCall_of_ne hne] at hun
    exact h.first r' hr' hun
  · by_cases hq : q.key = some k
    · refine Or.inr (Or.inr ⟨⟨k, s.now, row.response⟩, ?_, rfl, hT hq⟩)
      exact mem_cacheResponse_iff.2 (Or.inl ⟨hq, rfl, rfl⟩)
    · obtain hlate | ⟨r', hr', hun⟩ | ⟨e, he, hkey, hat⟩ := h.cached hl
      · exact Or.inl hlate
      · refine Or.inr (Or.inl ⟨r', ?_⟩)
        have hne : r' ≠ r := by
          rintro rfl
          exact hq (hcall ▸ hr')
        rw [PatchProcess.setCall_of_ne hne]
        exact ⟨hr', hun⟩
      · by_cases hlive : e.live patchIdempotencyTtl s.now = true
        · refine Or.inr (Or.inr ⟨e, mem_cacheResponse_iff.2 (Or.inr ⟨he, ?_, fun _ => hlive⟩), hkey,
            hat⟩)
          rw [hkey]
          exact hq
        · refine Or.inl ?_
          have hold : patchIdempotencyTtl ≤ s.now - e.storedAt :=
            not_lt.1 fun hlt => hlive (decide_eq_true hlt)
          have hpos : 0 < s.now - e.storedAt := lt_of_lt_of_le (by decide) hold
          exact (Nat.add_le_add_right hat _).trans
            (Nat.add_le_of_le_sub' (Nat.lt_of_sub_pos hpos).le hold)

/-- A request that starts with the key finds the response of a write.
SOURCE: app/api/subscribers.py:33-37,86-89 -/
theorem WrittenOnce.eq_nil_of_miss (h : WrittenOnce k T s l) {q : PatchRequest}
    (hc : cachedResponse s.now q s.api.cache = none) (hq : q.key = some k)
    (hnow : T ≤ s.now ∧ s.now < T + patchIdempotencyTtl)
    (halone : ∀ r', callKey (s.calls r') ≠ some k) : l = [] := by
  by_contra hl
  obtain hlate | ⟨r', hr', _⟩ | ⟨e, he, rfl, hat⟩ := h.cached hl
  · exact absurd hnow.2 hlate.not_gt
  · exact halone r' hr'
  · have hage : s.now - T < patchIdempotencyTtl := Nat.sub_lt_left_of_lt_add hnow.1 hnow.2
    have hlive : e.live patchIdempotencyTtl s.now = true :=
      decide_eq_true ((Nat.sub_le_sub_left hat s.now).trans_lt hage)
    have hget := (ExpiringCache.get_eq_some_iff h.unique).2 ⟨e, he, rfl, hlive, rfl⟩
    rw [cachedResponse, hq, Option.bind_some, getCachedPatch, hget] at hc
    cases hc

/-- SOURCE: app/api/subscribers.py:78-104 -/
theorem writtenOnce_step (h : WrittenOnce k T s l) (hrows : ∀ r q, s.calls r = .committed q →
      refresh q.id s.api.subscribers ≠ none)
    (hT : WithinTtl k T s a) (hC : OneAtATime k s a) (hs : PatchStep s a s') :
    WrittenOnce k T s' (l ++ keyedWrites k s a) := by
  have hnil : keyedWrites k s a = [] → WrittenOnce k T s' l →
      WrittenOnce k T s' (l ++ keyedWrites k s a) := by
    intro hw h
    rwa [hw, List.append_nil]
  cases hs with
  | tick =>
    refine hnil rfl ⟨h.le, h.alone, h.first, fun hl => ?_, h.unique⟩
    exact (h.cached hl).imp_left fun hlate => hlate.trans (Nat.le_add_right _ _)
  | answered _ _ => exact hnil rfl h
  | nothing _ _ => exact hnil rfl h
  | @started r q hr hc =>
    refine hnil rfl (h.start (fun hq => ?_) hr fun hq => hC.alone r q rfl hq)
    exact h.eq_nil_of_miss hc hq (hT hq) (hC.alone r q rfl hq)
  | @selected r q sub hr _ =>
    refine hnil rfl (h.move (by rw [hr]; exact id) (fun _ _ => by rw [hr]; rfl) fun _ hun => ?_)
    rw [hr] at hun
    cases hun
  | notFound hr _ =>
    refine hnil rfl (h.move nofun nofun fun _ hun => ?_)
    rw [hr] at hun
    cases hun
  | @committed r q sub hr =>
    have hmoved : ∀ l', WrittenOnce k T (s.setCall r (.committed q)) l' →
        WrittenOnce k T ({ s with
          api := { s.api with
            subscribers := commitPatch sub q.body s.now s.api.subscribers } }.setCall r
          (.committed q)) l' := fun _ h => ⟨h.le, h.alone, h.first, h.cached, h.unique⟩
    by_cases hq : q.key = some k
    · have hw : keyedWrites k s (.commit r) = [r] := by simp only [keyedWrites, hr, if_pos hq]
      rw [hw]
      exact hmoved _ (h.write hr hq)
    · have hw : keyedWrites k s (.commit r) = [] := by simp only [keyedWrites, hr, if_neg hq]
      exact hnil hw (hmoved _ (h.other hq (by rw [hr]; exact hq)))
  | @deleted r sub hr =>
    have hw : keyedWrites k s (.commit r) = [] := by simp only [keyedWrites, hr]
    have hmoved := h.other (x := .idle) nofun (by rw [hr]; exact nofun : callKey (s.calls r) ≠ some k)
    exact hnil hw ⟨hmoved.le, hmoved.alone, hmoved.first, hmoved.cached, hmoved.unique⟩
  | @refreshed r q row hr _ =>
    refine hnil rfl (h.move (by rw [hr]; exact id) nofun fun hkey _ => ?_)
    rw [hr] at hkey
    exact ⟨hkey, rfl⟩
  | gone hr hl => exact absurd hl (hrows _ _ hr)
  | @finished r q row hr =>
    refine hnil rfl (h.finish hr fun hq => (hT ?_).1)
    show callKey (s.calls r) = some k
    rw [hr]
    exact hq
  | deleting hr _ => exact hnil rfl (h.other nofun (by rw [hr]; nofun))
  | @aborted r hr =>
    refine hnil rfl (h.move nofun nofun fun hkey hun => ?_)
    rw [hC.stored r rfl hkey] at hun
    cases hun

end

/-! ## The result -/

/-- In a run in which the requests with the key `k` come one at a time and within 60 s, at most
one of them writes the row, whatever the other requests do.
SOURCE: app/api/subscribers.py:26-47,78-104, app/api/README.md:10 -/
theorem keyed_patch_written_once (k : PyStr) (T now : Time) (subscribers : List SubscriberRow)
    (as : List PatchAction) (s : PatchProcess)
    (h : run patchStep (.start now subscribers) as = some s)
    (hT : Meets patchStep (WithinTtl k T) (.start now subscribers) as)
    (hC : Meets patchStep (OneAtATime k) (.start now subscribers) as) :
    (history patchStep (keyedWrites k) (.start now subscribers) as).length ≤ 1 := by
  have hinv : WrittenOnce k T s
      (history patchStep (keyedWrites k) (.start now subscribers) as) := by
    refine history_induct_if (I := WrittenOnce k T) ?_ ?_ h (hT.and hC)
    · exact ⟨Nat.zero_le 1, nofun, nofun, fun hl => absurd rfl hl, List.nodup_nil⟩
    · intro s l a s' hreach hinv hcond hs
      exact writtenOnce_step hinv (fun _ _ hr => refresh_ne_none hreach.reachable hr) hcond.1
        hcond.2 (patchStep_of_eq_some hs)
  exact hinv.le

/-! ## Concrete histories -/

def oneSubscriber : List SubscriberRow :=
  [⟨⟨⟨1⟩, py "http://a", py "s", true, 0, none⟩, py "a", 0⟩]

def setActive (isActive : Bool) (key : PyStr) : PatchRequest := ⟨⟨1⟩, ⟨none, some isActive⟩, some key⟩

/-- Request `r` after its cache lookup, up to its answer. -/
def patchToEnd (r : RequestId) : List PatchAction := [.select r, .commit r, .refresh r, .finish r]

/-- A duplicate that starts after the answer. -/
def duplicateAfter : List PatchAction :=
  .start 0 (setActive false (py "k")) :: patchToEnd 0 ++ [.start 1 (setActive false (py "k"))]

/-- The duplicate comes after the first request was answered. -/
theorem oneAtATime_duplicateAfter :
    Meets patchStep (OneAtATime (py "k")) (.start 0 oneSubscriber) duplicateAfter := by
  refine .cons rfl ⟨fun _ _ _ _ _ => nofun, nofun⟩ (.cons rfl ⟨nofun, nofun⟩
    (.cons rfl ⟨nofun, nofun⟩ (.cons rfl ⟨nofun, nofun⟩ (.cons rfl ⟨nofun, nofun⟩
      (.cons rfl ⟨fun _ _ _ _ r' => ?_, nofun⟩ trivial)))))
  match r' with
  | 0 => exact nofun
  | r' + 1 => exact nofun

theorem duplicateAfter_enabled :
    (run patchStep (.start 0 oneSubscriber) duplicateAfter).isSome = true := by decide

/-- The duplicate writes nothing. -/
theorem keyed_patch_written_once_duplicateAfter :
    (history patchStep (keyedWrites (py "k")) (.start 0 oneSubscriber) duplicateAfter).length ≤ 1 :=
  keyed_patch_written_once (py "k") 0 0 oneSubscriber duplicateAfter _
    (Option.some_get duplicateAfter_enabled).symm (by decide) oneAtATime_duplicateAfter

/-- Two duplicates overlap, and between their commits the subscriber is activated under
another key. -/
def duplicatesOverlap : List PatchAction :=
  [.start 0 (setActive false (py "k")), .start 1 (setActive false (py "k"))] ++ patchToEnd 0 ++
    .start 2 (setActive true (py "other")) :: patchToEnd 2 ++ patchToEnd 1

theorem duplicatesOverlap_enabled :
    (run patchStep (.start 0 oneSubscriber) duplicatesOverlap).isSome = true := by decide

/-- The second duplicate has found nothing at its start, so it writes the row again.
SOURCE: app/api/subscribers.py:86-102 -/
theorem keyed_patch_written_twice :
    ¬ ∀ (k : PyStr) (T now : Time) (subscribers : List SubscriberRow) (as : List PatchAction)
      (s : PatchProcess) (id : Uuid) (body : SubscriberUpdate),
      run patchStep (.start now subscribers) as = some s →
      Meets patchStep (WithinTtl k T) (.start now subscribers) as →
      (∀ r q, .start r q ∈ as → q.key = some k → q.id = id ∧ q.body = body) →
      (∀ r, .abort r ∉ as) →
      (history patchStep (keyedWrites k) (.start now subscribers) as).length ≤ 1 := by
  intro h
  have hle := h (py "k") 0 0 oneSubscriber duplicatesOverlap _ ⟨1⟩ ⟨none, some false⟩
    (Option.some_get duplicatesOverlap_enabled).symm (by decide) ?_ ?_
  · exact absurd hle (by decide)
  · intro r q hq hk
    simp only [duplicatesOverlap, patchToEnd, List.cons_append, List.nil_append, List.mem_cons,
      PatchAction.start.injEq, List.not_mem_nil, or_false, false_or, reduceCtorEq] at hq
    obtain ⟨_, rfl⟩ | ⟨_, rfl⟩ | ⟨_, rfl⟩ := hq
    · exact ⟨rfl, rfl⟩
    · exact ⟨rfl, rfl⟩
    · exact absurd hk (by decide)
  · intro r hr
    simp [duplicatesOverlap, patchToEnd] at hr

end EventPipeline.Analysis
