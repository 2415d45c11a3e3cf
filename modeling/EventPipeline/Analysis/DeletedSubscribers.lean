import EventPipeline.Computation.History
import EventPipeline.Analysis.OneWorkerPerDelivery
import EventPipeline.Interface.SubscriberRows

/-!
# A deleted subscriber is never contacted

A PATCH writes other columns than `deleted_at`, and a DELETE works on a row that was not
deleted when it was read. So a deletion is never undone, whatever a late PATCH does to
`is_active`. The worker fetches the subscriber again for every row of its batch, and what it
sends comes from that read alone.
-/

set_option autoImplicit false

namespace EventPipeline.Analysis

open EventPipeline.Model EventPipeline.Program EventPipeline.Interface EventPipeline.Computation

/-! ## Deletions stay -/

def Deleted (g : Registry) (id : Uuid) : Prop :=
  ∃ sub ∈ g.subscribers, sub.id = id ∧ sub.deletedAt ≠ none

/-- A DELETE in progress has loaded a row of the table that was not deleted.
SOURCE: app/api/subscribers.py:106-127 -/
def DeletesOk (g : Registry) : Prop :=
  ∀ r sub, g.requests r = .deleting sub →
    sub.deletedAt = none ∧ sub.id ∈ g.subscribers.map Subscriber.id

section
variable {cfg : Settings} {s s' : World} {a : Action} {g : Registry} {id : Uuid}

/-- The row has a time of deletion after a DELETE. SOURCE: app/api/subscribers.py:111-114 -/
theorem deletedAt_deleteRow {loaded row : Subscriber} {now : Time}
    (h : loaded.deletedAt = none ∨ row.deletedAt ≠ none) :
    (deleteRow loaded now row).deletedAt ≠ none := by
  unfold deleteRow flushColumn
  dsimp only
  split
  · rename_i heq
    obtain hnone | hrow := h
    · rw [hnone] at heq
      cases heq
    · exact hrow
  · simp

/-- No request takes a deletion back. SOURCE: app/api/subscribers.py:78-114 -/
theorem Deleted.step (h : Deleted s.registry id) (hs : RegistryStep s a g) : Deleted g id := by
  obtain ⟨sub, hsub, hid, hdel⟩ := h
  cases hs with
  | create _ => exact ⟨sub, List.mem_append_left _ hsub, hid, hdel⟩
  | patch _ =>
    refine ⟨_, mem_updateWhere_of_mem hsub, ?_, ?_⟩
    · split <;> exact hid
    · split <;> exact hdel
  | delete _ =>
    refine ⟨_, mem_updateWhere_of_mem hsub, ?_, ?_⟩
    · split <;> exact hid
    · split
      · exact deletedAt_deleteRow (Or.inr hdel)
      · exact hdel
  | _ => exact ⟨sub, hsub, hid, hdel⟩

/-- No subscriber is ever removed from the table. -/
theorem RegistryStep.ids_subset (hs : RegistryStep s a g) :
    s.registry.subscribers.map Subscriber.id ⊆ g.subscribers.map Subscriber.id := by
  obtain heq | ⟨_, _, heq⟩ := hs.ids
  · rw [heq]
    exact List.Subset.refl _
  · rw [heq]
    exact List.subset_append_left _ _

/-- One step keeps what the DELETE requests have loaded. SOURCE: app/api/subscribers.py:106-114 -/
theorem deletesOk_step (hinv : DeletesOk s.registry) (hs : RegistryStep s a g) :
    DeletesOk g := by
  intro r sub hr
  have hids : s.registry.subscribers.map Subscriber.id ⊆ g.subscribers.map Subscriber.id :=
    RegistryStep.ids_subset hs
  have hold : s.registry.requests r = .deleting sub →
      sub.deletedAt = none ∧ sub.id ∈ g.subscribers.map Subscriber.id :=
    fun hr => ⟨(hinv r sub hr).1, hids (hinv r sub hr).2⟩
  -- Request `r'` goes on as `x`; the others stay as they are.
  have hmove : ∀ r' x, g.requests = Function.update s.registry.requests r' x →
      (x = .deleting sub → sub.deletedAt = none ∧ sub.id ∈ g.subscribers.map Subscriber.id) →
      sub.deletedAt = none ∧ sub.id ∈ g.subscribers.map Subscriber.id := by
    intro r' x heq hx
    rw [heq] at hr
    by_cases hrr : r = r'
    · rw [hrr, Function.update_self] at hr
      exact hx hr
    · rw [Function.update_of_ne hrr] at hr
      exact hold hr
  cases hs with
  | loadPatch _ _ => exact hmove _ _ rfl (by simp)
  | loadDelete _ hl =>
    refine hmove _ _ rfl fun heq => ?_
    cases heq
    obtain ⟨hmem, _, hdel⟩ := of_getOr404_eq_some hl
    exact ⟨hdel, List.mem_map_of_mem hmem⟩
  | patch _ => exact hmove _ _ rfl (by simp)
  | delete _ => exact hmove _ _ rfl (by simp)
  | abort => exact hmove _ _ rfl (by simp)
  | _ => exact hold hr

/-- A DELETE in progress has loaded a row without a time of deletion, in every reachable state. -/
theorem deletesOk_of_reachable (h : Reachable (step cfg) World.init s) :
    DeletesOk s.registry := by
  refine h.induct (I := fun s => DeletesOk s.registry) ?_ fun _ _ _ _ hinv hs =>
    deletesOk_step hinv (registryStep_of_step hs)
  intro r sub hr
  cases hr

/-- The commit of a DELETE deletes. SOURCE: app/api/subscribers.py:111-114 -/
theorem deleted_of_commit {r : RequestId} {sub : Subscriber}
    (h : Reachable (step cfg) World.init s) (hr : s.registry.requests r = .deleting sub)
    (hs : step cfg s (.subscriber r .commit) = some s') : Deleted s'.registry sub.id := by
  obtain ⟨hdel, hid⟩ := deletesOk_of_reachable h r sub hr
  obtain ⟨row, hrow, hrid⟩ := List.mem_map.1 hid
  simp only [step, subscriber, hr, Option.map_some, Option.some.injEq] at hs
  subst hs
  exact ⟨_, mem_updateWhere_of_pos hrow hrid, hrid, deletedAt_deleteRow (Or.inl hdel)⟩

/-- A deleted subscriber stays deleted. SOURCE: app/api/subscribers.py:78-127 -/
theorem Deleted.later (h : Deleted s.registry id) (h' : Reachable (Program.step cfg) s s') :
    Deleted s'.registry id :=
  h'.induct (I := fun s => Deleted s.registry id) h fun _ _ _ _ hinv hs =>
    hinv.step (registryStep_of_step hs)

/-- A re-fetch of a deleted subscriber finds one that does not receive. -/
theorem not_receives_of_deleted (hn : (s.registry.subscribers.map Subscriber.id).Nodup)
    (h : Deleted s.registry id) :
    (lookup Subscriber.id id s.registry.subscribers).any Subscriber.receives = false := by
  obtain ⟨sub, hsub, hid, hdel⟩ := h
  cases hl : lookup Subscriber.id id s.registry.subscribers with
  | none => rfl
  | some found =>
    obtain ⟨hmem, hfid⟩ := of_lookup_eq_some hl
    have heq := eq_of_key_eq hn hmem hsub (hfid.trans hid.symm)
    subst heq
    cases hd : found.deletedAt with
    | none => exact absurd hd hdel
    | some t => simp [Subscriber.receives, hd]

end

/-! ## After the re-fetch -/

/-- The steps that do not go on with the batch of worker `w`: those of the other processes, and
the stale resets. -/
def NotMovedBy (w : WorkerId) (_ : World) : Action → Prop
  | .worker _ (.resetStale _) => True
  | .worker w' _ => w' ≠ w
  | _ => True

instance (w : WorkerId) (s : World) (a : Action) : Decidable (NotMovedBy w s a) := by
  unfold NotMovedBy
  split <;> infer_instance

/-- The worker is past the re-fetch for `x`, and closes the row without a POST: no step of the
worker makes a POST, the row is closed unless the process dies or the database fails, and the
commit makes it `dead` and leaves the counters alone. -/
structure OnlyCloses (cfg : Settings) (w : WorkerId) (x : Snapshot) (s : World) : Prop where
  no_post : ∀ a s', step cfg s (.worker w a) = some s' → s'.delivery.posts = s.delivery.posts
  ends : ∀ a s', step cfg s (.worker w a) = some s' →
    a = .close ∨ a = .dbError ∨ a = .crash ∨ ∃ t₀, a = .resetStale t₀
  enabled : x.attempt.id ∉ s.delivery.locked → (step cfg s (.worker w .close)).isSome = true
  dead : ∀ s', step cfg s (.worker w .close) = some s' →
    (∀ row ∈ s'.delivery.attempts, row.id = x.attempt.id → row.status = .dead) ∧
    s'.delivery.attempts.map (fun row => (row.id, row.attemptCount)) =
      s.delivery.attempts.map (fun row => (row.id, row.attemptCount))

section
variable {cfg : Settings} {s s' : World} {w : WorkerId}

/-- A step of another process leaves the phase of the worker. -/
theorem phase_of_not_moved {a : Action} (hC : NotMovedBy w s a) (hs : step cfg s a = some s') :
    (s'.delivery.workers w).phase = (s.delivery.workers w).phase := by
  obtain hkeep | ⟨b, d, rfl, rfl, h⟩ := worker_of_step hs w
  · rw [hkeep]
  · cases h with
    | resetStale _ => rfl
    | _ => exact absurd rfl hC

/-- SOURCE: app/delivery/worker.py:105-117 -/
theorem onlyCloses_of_fetched {x : Snapshot} {sub : Option Subscriber} {todo : List Snapshot}
    (hph : (s.delivery.workers w).phase = .fetched x sub todo)
    (hsub : sub.any Subscriber.receives = false) : OnlyCloses cfg w x s := by
  have hnot : ∀ y, sub = some y → y.receives = false := by
    intro y hy
    simpa [hy] using hsub
  have hcase : ∀ a s', step cfg s (.worker w a) = some s' →
      s'.delivery.posts = s.delivery.posts ∧
        (a = .close ∨ a = .dbError ∨ a = .crash ∨ ∃ t₀, a = .resetStale t₀) := by
    intro a s' hs
    cases worldStep_of_eq_some hs with
    | worker h =>
      cases h with
      | close => exact ⟨rfl, by simp⟩
      | dbError => exact ⟨rfl, by simp⟩
      | crash => exact ⟨rfl, by simp⟩
      | resetStale => exact ⟨rfl, by simp⟩
      | post hph' hrec =>
        rw [hph] at hph'
        cases hph'
        rw [hnot _ rfl] at hrec
        cases hrec
      | _ =>
        -- The other steps start in another phase.
        cases hph.symm.trans ‹(s.delivery.workers w).phase = _›
  refine ⟨fun a s' hs => (hcase a s' hs).1, fun a s' hs => (hcase a s' hs).2, fun hl => ?_,
    fun s' hs => ?_⟩
  · simp [step, worker, hph, hsub, hl]
  · cases worldStep_of_eq_some hs with
    | worker h =>
      cases h with
      | close hph' _ _ =>
        rw [hph] at hph'
        cases hph'
        refine ⟨fun row' hrow' hid => ?_, map_updateWhere _ fun _ _ => rfl⟩
        obtain ⟨_, hne⟩ | ⟨row, _, _, rfl⟩ := of_mem_updateWhere hrow'
        · exact absurd hid hne
        · rfl

/-- The re-fetch of a deleted subscriber, and whatever the other processes do after it. -/
theorem onlyCloses_of_refetch {s₃ : World} {x : Snapshot} {todo : List Snapshot}
    (hreach : Reachable (step cfg) World.init s) (hdel : Deleted s.registry x.attempt.subscriberId)
    (hph : (s.delivery.workers w).phase = .delivering (x :: todo))
    (hs : step cfg s (.worker w .fetch) = some s')
    (hlater : ReachableIf (step cfg) (NotMovedBy w) s' s₃) : OnlyCloses cfg w x s₃ := by
  have hsub := not_receives_of_deleted (subscriber_ids_nodup hreach) hdel
  have hfetched : (s'.delivery.workers w).phase = .fetched x
      (lookup Subscriber.id x.attempt.subscriberId s.registry.subscribers) todo := by
    cases worldStep_of_eq_some hs with
    | worker h =>
      cases h with
      | fetch hph' =>
        rw [hph] at hph'
        cases hph'
        simp
  have hstay : (s₃.delivery.workers w).phase = (s'.delivery.workers w).phase :=
    hlater.induct (I := fun m => (m.delivery.workers w).phase = (s'.delivery.workers w).phase)
      rfl fun _ _ _ _ ih hC hs => (phase_of_not_moved hC hs).trans ih
  exact onlyCloses_of_fetched (hstay.trans hfetched) hsub

end

/-! ## Where a POST takes its endpoint from -/

/-- Worker `w` has committed the claim that picked `x`, and has claimed nothing since.
SOURCE: app/delivery/worker.py:63-95 -/
def ClaimedIn (cfg : Settings) (as : List Action) (w : WorkerId) (x : Snapshot) : Prop :=
  ∃ as₀ as₁ m t₀ picked, as = as₀ ++ .worker w .claimCommit :: as₁ ∧
    run (step cfg) World.init as₀ = some m ∧
    (m.delivery.workers w).phase = .claiming t₀ picked ∧ x ∈ picked ∧
    ∀ t picks, Action.worker w (.claim t picks) ∉ as₁

/-- Worker `w` has read the committed version `sub` of the subscriber of `x` after the claim of
the batch. SOURCE: app/delivery/worker.py:105-108 -/
def FetchedIn (cfg : Settings) (as : List Action) (w : WorkerId) (x : Snapshot)
    (sub : Subscriber) : Prop :=
  ∃ as₁ as₂ m, as = as₁ ++ .worker w .fetch :: as₂ ∧
    run (step cfg) World.init as₁ = some m ∧ ClaimedIn cfg as₁ w x ∧
    sub ∈ m.registry.subscribers ∧ sub.id = x.attempt.subscriberId ∧
    ∀ t picks, Action.worker w (.claim t picks) ∉ as₂

section
variable {cfg : Settings} {as : List Action} {s s' : World} {a : Action} {w : WorkerId}
  {x : Snapshot} {sub : Subscriber}

/-- A claim stays the last one until the worker claims again. -/
theorem ClaimedIn.snoc (h : ClaimedIn cfg as w x) (ha : ∀ t picks, a ≠ .worker w (.claim t picks)) :
    ClaimedIn cfg (as ++ [a]) w x := by
  obtain ⟨as₀, as₁, m, t₀, picked, rfl, hrun, hph, hx, hnone⟩ := h
  refine ⟨as₀, as₁ ++ [a], m, t₀, picked, by simp, hrun, hph, hx, fun t picks hmem => ?_⟩
  obtain hmem | hmem := List.mem_append.1 hmem
  · exact hnone t picks hmem
  · exact ha t picks (List.mem_singleton.1 hmem).symm

/-- A fetch stays one of the last batch until the worker claims again. -/
theorem FetchedIn.snoc (h : FetchedIn cfg as w x sub)
    (ha : ∀ t picks, a ≠ .worker w (.claim t picks)) : FetchedIn cfg (as ++ [a]) w x sub := by
  obtain ⟨as₁, as₂, m, rfl, hrun, hclaim, hsub, hid, hnone⟩ := h
  refine ⟨as₁, as₂ ++ [a], m, by simp, hrun, hclaim, hsub, hid, fun t picks hmem => ?_⟩
  obtain hmem | hmem := List.mem_append.1 hmem
  · exact hnone t picks hmem
  · exact ha t picks (List.mem_singleton.1 hmem).symm

/-- What the history says about the batch of a worker. -/
structure Provenance (cfg : Settings) (as : List Action) (s : World) (w : WorkerId) : Prop where
  claimed : ∀ x ∈ WorkerPhase.claimed (s.delivery.workers w).phase, ClaimedIn cfg as w x
  fetched : ∀ x sub todo, (s.delivery.workers w).phase = .fetched x (some sub) todo →
    FetchedIn cfg as w x sub

/-- An idle worker has nothing to account for. -/
theorem Provenance.idle (h : (s.delivery.workers w).phase = .idle) : Provenance cfg as s w := by
  constructor
  · intro x hx
    rw [h] at hx
    exact absurd hx List.not_mem_nil
  · intro x sub todo hph
    rw [h] at hph
    cases hph

/-- The worker goes on with its batch, or with less of it, without a new fetch. -/
theorem Provenance.next (h : Provenance cfg as s w)
    (ha : ∀ t picks, a ≠ .worker w (.claim t picks))
    (hbatch : ∀ x ∈ WorkerPhase.claimed (s'.delivery.workers w).phase,
      x ∈ WorkerPhase.claimed (s.delivery.workers w).phase)
    (hfetched : ∀ x sub todo, (s'.delivery.workers w).phase = .fetched x (some sub) todo →
      (s.delivery.workers w).phase = .fetched x (some sub) todo) :
    Provenance cfg (as ++ [a]) s' w :=
  ⟨fun x hx => (h.claimed x (hbatch x hx)).snoc ha,
    fun x sub todo hph => (h.fetched x sub todo (hfetched x sub todo hph)).snoc ha⟩

/-- One step keeps the claim and the fetch that a worker's state comes from.
SOURCE: app/delivery/worker.py:58-123 -/
theorem provenance_step (hrun : run (step cfg) World.init as = some s)
    (hinv : Provenance cfg as s w) (hs : step cfg s a = some s') :
    Provenance cfg (as ++ [a]) s' w := by
  have hother : NotMovedBy w s a → Provenance cfg (as ++ [a]) s' w := by
    intro hC
    have hph := phase_of_not_moved hC hs
    refine hinv.next (fun t picks heq => ?_) (by rw [hph]; exact fun _ hx => hx)
      (by rw [hph]; exact fun _ _ _ h => h)
    subst heq
    exact hC rfl
  cases worldStep_of_eq_some hs with
  | @worker w' b d h =>
    by_cases hw : w' = w
    · subst hw
      cases h with
      | claim hph =>
        constructor
        · intro x hx
          simp [WorkerPhase.claimed] at hx
        · intro x sub todo hph'
          simp at hph'
      | @claimCommit t₀ picked hph =>
        constructor
        · intro x hx
          simp only [Delivery.setWorker_workers, Function.update_self, WorkerPhase.claimed,
            WorkerPhase.batch] at hx
          exact ⟨as, [], s, t₀, picked, rfl, hrun, hph, hx, fun _ _ => List.not_mem_nil⟩
        · intro x sub todo hph'
          simp at hph'
      | @fetch y rest hph =>
        have hclaim : ∀ x ∈ y :: rest, ClaimedIn cfg as w' x := by
          intro x hx
          refine hinv.claimed x ?_
          rw [hph]
          exact hx
        constructor
        · intro x hx
          simp only [Delivery.setPhase_eq, Delivery.setWorker_workers, Function.update_self,
            WorkerPhase.claimed, WorkerPhase.batch] at hx
          exact (hclaim x hx).snoc (by simp)
        · intro x sub todo hph'
          simp only [Delivery.setPhase_eq, Delivery.setWorker_workers, Function.update_self,
            WorkerPhase.fetched.injEq] at hph'
          obtain ⟨rfl, hl, _⟩ := hph'
          obtain ⟨hmem, hid⟩ := of_lookup_eq_some hl
          exact ⟨as, [], s, rfl, hrun, hclaim y List.mem_cons_self, hmem, hid,
            fun _ _ => List.not_mem_nil⟩
      | resetStale _ => exact hother trivial
      | close hph _ _ =>
        exact hinv.next (by simp)
          (by simp [hph, WorkerPhase.claimed, WorkerPhase.batch]; tauto) (by simp)
      | post hph _ =>
        exact hinv.next (by simp) (by simp [hph, WorkerPhase.claimed, WorkerPhase.batch]) (by simp)
      | returned hph _ =>
        exact hinv.next (by simp) (by simp [hph, WorkerPhase.claimed, WorkerPhase.batch]) (by simp)
      | writeBack hph _ _ =>
        exact hinv.next (by simp)
          (by simp [hph, WorkerPhase.claimed, WorkerPhase.batch]; tauto) (by simp)
      | _ => exact Provenance.idle (by simp)
    · apply hother
      cases b <;> first | exact hw | trivial
  | _ => exact hother trivial

/-- The state of a worker comes from a claim and a fetch of the run. -/
theorem provenance_of_run (h : run (step cfg) World.init as = some s) (w : WorkerId) :
    Provenance cfg as s w := by
  refine run_induct (I := fun as s => Provenance cfg as s w) (Provenance.idle rfl) ?_ h
  intro as s a s' hrun ih hs
  exact provenance_step hrun ih hs

end

/-! ## The three parts together -/

/-- SOURCE: app/delivery/worker.py:101-123, app/api/subscribers.py:78-127 -/
structure DeletedNeverContacted (cfg : Settings) : Prop where
  /-- after the commit of a DELETE, `deleted_at` stays non-null -/
  stays : ∀ s s₁ s₂ r sub, Reachable (step cfg) World.init s →
    s.registry.requests r = .deleting sub → step cfg s (.subscriber r .commit) = some s₁ →
    Reachable (step cfg) s₁ s₂ →
    ∀ row ∈ s₂.registry.subscribers, row.id = sub.id → row.deletedAt ≠ none
  /-- a worker that fetches the subscriber after that commit only closes the row -/
  closes : ∀ s s₁ s₂ s₃ s₄ r sub w x todo, Reachable (step cfg) World.init s →
    s.registry.requests r = .deleting sub → step cfg s (.subscriber r .commit) = some s₁ →
    Reachable (step cfg) s₁ s₂ → (s₂.delivery.workers w).phase = .delivering (x :: todo) →
    x.attempt.subscriberId = sub.id → step cfg s₂ (.worker w .fetch) = some s₃ →
    ReachableIf (step cfg) (NotMovedBy w) s₃ s₄ → OnlyCloses cfg w x s₄
  /-- a POST goes to one committed version that receives and was read after the claim -/
  version : ∀ as s s' a p, run (step cfg) World.init as = some s → step cfg s a = some s' →
    s'.delivery.posts = s.delivery.posts ++ [p] →
    ∃ w x sub, FetchedIn cfg as w x sub ∧ sub.isActive = true ∧ sub.deletedAt = none ∧
      p.endpoint = sub.endpoint ∧ p.secret = sub.secret ∧ p.subscriberId = sub.id ∧
      p.deliveryId = x.attempt.id

/-- For every interleaving, a subscriber whose deletion the re-fetch sees is not contacted, and
the parts of two versions of a subscriber are never mixed.
SOURCE: app/delivery/worker.py:101-123, app/api/subscribers.py:78-127 -/
theorem deleted_never_contacted (cfg : Settings) : DeletedNeverContacted cfg := by
  refine ⟨?_, ?_, ?_⟩
  · intro s s₁ s₂ r sub hreach hr hs hlater row hrow hid
    obtain ⟨row', hrow', hid', hdel⟩ := (deleted_of_commit hreach hr hs).later hlater
    have hn := subscriber_ids_nodup ((hreach.snoc hs).trans hlater)
    rwa [eq_of_key_eq hn hrow hrow' (hid.trans hid'.symm)]
  · intro s s₁ s₂ s₃ s₄ r sub w x todo hreach hr hs hlater hph hid hfetch hothers
    have hdel := (deleted_of_commit hreach hr hs).later hlater
    rw [← hid] at hdel
    exact onlyCloses_of_refetch ((hreach.snoc hs).trans hlater) hdel hph hfetch hothers
  · intro as s s' a p hrun hs hp
    obtain ⟨w, x, sub, todo, _, hph, hrec, rfl⟩ := post_of_step hs hp
    have hfetched := (provenance_of_run hrun w).fetched x sub todo hph
    have hid : sub.id = x.attempt.subscriberId := by
      obtain ⟨_, _, _, _, _, _, _, hid, _⟩ := hfetched
      exact hid
    simp only [Subscriber.receives, Bool.and_eq_true, Option.isNone_iff_eq_none] at hrec
    exact ⟨w, x, sub, hfetched, hrec.1, hrec.2, rfl, rfl, hid.symm, rfl⟩

/-! ## A concrete history -/

/-- The row is claimed; then its subscriber is deleted. -/
def deletedAfterClaim : List Action :=
  oneAttempt ++ claimBatch 0 0 [⟨3⟩] ++ [.subscriber 1 (.delete ⟨1⟩)]

theorem deletedAfterClaim_enabled :
    (run (step .default) World.init deletedAfterClaim).isSome = true := by decide

def deleting : World :=
  (run (step .default) World.init deletedAfterClaim).get deletedAfterClaim_enabled

theorem refetchAfterDelete_enabled :
    (run (step .default) deleting [.subscriber 1 .commit, .worker 0 .fetch]).isSome = true := by
  decide

/-- The worker only closes the row. -/
theorem deleted_never_contacted_deletedAfterClaim : ∃ x, OnlyCloses .default 0 x
    ((run (step .default) deleting [.subscriber 1 .commit, .worker 0 .fetch]).get
      refetchAfterDelete_enabled) :=
  ⟨_, (deleted_never_contacted .default).closes deleting _ _ _ _ 1 _ 0 _ _
    (Reachable.of_run deletedAfterClaim_enabled) rfl rfl (Reachable.refl _) rfl rfl rfl
    (ReachableIf.refl _)⟩

end EventPipeline.Analysis
