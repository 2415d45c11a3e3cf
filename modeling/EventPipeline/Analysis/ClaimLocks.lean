import EventPipeline.Interface.AttemptRows

/-!
# The row locks of the claim

Between its SELECT ... FOR UPDATE SKIP LOCKED and its commit a worker has the picked rows
locked. No other claim has them, and no UPDATE of another transaction reaches them, so they
are still claimable by status when the claim marks them.
-/

set_option autoImplicit false

namespace EventPipeline.Analysis

open EventPipeline.Model EventPipeline.Program EventPipeline.Interface EventPipeline.Computation

def Open (row : DeliveryAttempt) : Prop := row.status = .pending ∨ row.status = .failed

/-- A row that is open is not delivered. -/
theorem Open.ne_delivered {row : DeliveryAttempt} (h : Open row) : row.status ≠ .delivered := by
  intro hd
  obtain h | h := h
  · rw [hd] at h
    cases h
  · rw [hd] at h
    cases h

/-- SOURCE: app/delivery/worker.py:63-89 -/
structure LockInv (d : Delivery) : Prop where
  ids_nodup : (d.attempts.map DeliveryAttempt.id).Nodup
  lock_iff : ∀ w id, (w, id) ∈ d.rowLocks ↔
    ∃ t₀ picked, (d.workers w).phase = .claiming t₀ picked ∧
      id ∈ picked.map fun a => a.attempt.id
  lock_unique : ∀ w w' id, (w, id) ∈ d.rowLocks → (w', id) ∈ d.rowLocks → w = w'
  lock_row : ∀ id ∈ d.locked, ∃ row ∈ d.attempts, row.id = id ∧ Open row

/-- A row is locked when some worker holds its lock. -/
theorem mem_locked {d : Delivery} {id : Uuid} : id ∈ d.locked ↔ ∃ w, (w, id) ∈ d.rowLocks := by
  simp [Delivery.locked]

/-- A row that a claim has picked and not marked yet is locked, so it has stayed open. -/
theorem LockInv.picked_row {d : Delivery} (hinv : LockInv d) {w : WorkerId} {t₀ : Time}
    {picked : List Snapshot} (hph : (d.workers w).phase = .claiming t₀ picked) {id : Uuid}
    (hid : id ∈ picked.map fun a => a.attempt.id) : ∃ row ∈ d.attempts, row.id = id ∧ Open row :=
  hinv.lock_row id (mem_locked.2 ⟨w, (hinv.lock_iff w id).2 ⟨t₀, picked, hph, hid⟩⟩)

/-- The rows that a worker has picked stay open until it commits.
SOURCE: app/delivery/worker.py:63-91 -/
theorem LockInv.open_of_picked {d : Delivery} (hinv : LockInv d) {w : WorkerId} {t₀ : Time}
    {picked : List Snapshot} (hph : (d.workers w).phase = .claiming t₀ picked)
    {row : DeliveryAttempt} (hrow : row ∈ d.attempts)
    (hid : row.id ∈ picked.map fun a => a.attempt.id) : Open row := by
  obtain ⟨row₀, hrow₀, hid₀, hopen⟩ := hinv.picked_row hph hid
  rwa [eq_of_key_eq hinv.ids_nodup hrow₀ hrow hid₀] at hopen

/-- The claim picks open rows only. SOURCE: app/delivery/worker.py:65-71 -/
theorem open_of_claimable {t₀ : Time} {row : DeliveryAttempt} (h : claimable t₀ row = true) :
    Open row := by
  simp only [claimable, Bool.and_eq_true, Bool.or_eq_true, decide_eq_true_eq] at h
  exact h.1

/-- A row that is picked is in the table. SOURCE: app/delivery/worker.py:63-75 -/
theorem of_snapshotOf {attempts : List DeliveryAttempt} {keys : List IdempotencyKey} {id : Uuid}
    {x : Snapshot} (h : snapshotOf attempts keys id = some x) :
    x.attempt ∈ attempts ∧ x.attempt.id = id ∧ x.event ∈ keys ∧
      x.event.messageId = x.attempt.messageId := by
  obtain ⟨row, hrow, hmap⟩ := Option.bind_eq_some_iff.1 h
  obtain ⟨k, hk, rfl⟩ := Option.map_eq_some_iff.1 hmap
  obtain ⟨hmem, hid⟩ := of_lookup_eq_some hrow
  obtain ⟨hkmem, hkid⟩ := of_lookup_eq_some hk
  exact ⟨hmem, hid, hkmem, hkid⟩

/-- The snapshots of a claim are those of the picked rows, in their order. -/
theorem ids_picked {attempts : List DeliveryAttempt} {keys : List IdempotencyKey}
    {picks : List Uuid} (h : ∀ id ∈ picks, ∃ x, snapshotOf attempts keys id = some x) :
    (picks.filterMap (snapshotOf attempts keys)).map (fun a => a.attempt.id) = picks := by
  induction picks with
  | nil => rfl
  | cons id picks ih =>
    obtain ⟨x, hx⟩ := h id List.mem_cons_self
    rw [List.filterMap_cons_some hx, List.map_cons, (of_snapshotOf hx).2.1,
      ih fun id' hid' => h id' (List.mem_cons_of_mem _ hid')]

section
variable {cfg : Settings} {now : Time} {subscribers : List Subscriber} {keys : List IdempotencyKey}
  {d d' : Delivery} {w : WorkerId} {a : WorkerAction}

/-- The claim of `w` picks rows that are open and that nobody has locked. -/
theorem LockInv.claim (hinv : LockInv d) {t₀ : Time} {picks : List Uuid}
    (hph : (d.workers w).phase = .idle)
    (hp : ∀ id ∈ picks, id ∉ d.locked ∧
      ∃ x, snapshotOf d.attempts keys id = some x ∧ claimable t₀ x.attempt = true) :
    LockInv (({ d with rowLocks := d.rowLocks ++ picks.map fun id => (w, id) } :
      Delivery).setPhase w (.claiming t₀ (picks.filterMap (snapshotOf d.attempts keys)))) := by
  have hids := ids_picked fun id hid => (hp id hid).2.imp fun _ hx => hx.1
  have hfree : ∀ id, (w, id) ∉ d.rowLocks := by
    intro id hmem
    obtain ⟨t, picked, hc, _⟩ := (hinv.lock_iff w id).1 hmem
    rw [hph] at hc
    cases hc
  have hmem : ∀ w' id, (w', id) ∈ d.rowLocks ++ picks.map (fun id => (w, id)) ↔
      (w', id) ∈ d.rowLocks ∨ (w' = w ∧ id ∈ picks) := by
    intro w' id
    simp only [List.mem_append, List.mem_map, Prod.mk.injEq]
    constructor
    · rintro (h | ⟨_, hid, rfl, rfl⟩)
      · exact Or.inl h
      · exact Or.inr ⟨rfl, hid⟩
    · rintro (h | ⟨rfl, hid⟩)
      · exact Or.inl h
      · exact Or.inr ⟨id, hid, rfl, rfl⟩
  refine ⟨hinv.ids_nodup, fun w' id => ?_, fun w' w'' id h' h'' => ?_, fun id hid => ?_⟩
  · show (w', id) ∈ d.rowLocks ++ _ ↔ _
    rw [hmem]
    simp only [Delivery.setPhase_eq, Delivery.setWorker_workers]
    by_cases hw : w' = w
    · subst hw
      rw [Function.update_self]
      constructor
      · rintro (h | ⟨_, hid⟩)
        · exact absurd h (hfree id)
        · exact ⟨_, _, rfl, hids.symm ▸ hid⟩
      · rintro ⟨_, _, hc, hid⟩
        cases hc
        exact Or.inr ⟨rfl, hids ▸ hid⟩
    · rw [Function.update_of_ne hw, ← hinv.lock_iff]
      constructor
      · rintro (h | ⟨hw', _⟩)
        · exact h
        · exact absurd hw' hw
      · exact Or.inl
  · rw [Delivery.setPhase_eq, Delivery.setWorker_rowLocks, hmem] at h' h''
    obtain h' | ⟨rfl, hid'⟩ := h'
    · obtain h'' | ⟨rfl, hid''⟩ := h''
      · exact hinv.lock_unique w' w'' id h' h''
      · exact absurd (mem_locked.2 ⟨w', h'⟩) (hp id hid'').1
    · obtain h'' | ⟨rfl, _⟩ := h''
      · exact absurd (mem_locked.2 ⟨w'', h''⟩) (hp id hid').1
      · rfl
  · obtain ⟨w', hlock⟩ := mem_locked.1 hid
    rw [Delivery.setPhase_eq, Delivery.setWorker_rowLocks, hmem] at hlock
    obtain hlock | ⟨_, hpick⟩ := hlock
    · exact hinv.lock_row id (mem_locked.2 ⟨w', hlock⟩)
    · obtain ⟨x, hx, hc⟩ := (hp id hpick).2
      obtain ⟨hrow, hrid, _⟩ := of_snapshotOf hx
      exact ⟨x.attempt, hrow, hrid, open_of_claimable hc⟩

/-- A step that keeps the locks, the claims and the open rows keeps the invariant. -/
theorem LockInv.frame (hinv : LockInv d) (hids : (d'.attempts.map DeliveryAttempt.id).Nodup)
    (hl : d'.rowLocks = d.rowLocks)
    (hph : ∀ w t₀ picked, (d'.workers w).phase = .claiming t₀ picked ↔
      (d.workers w).phase = .claiming t₀ picked)
    (hrow : ∀ id ∈ d.locked, ∃ row ∈ d'.attempts, row.id = id ∧ Open row) : LockInv d' := by
  refine ⟨hids, fun w id => ?_, fun w w' id h h' => ?_, fun id hid => ?_⟩
  · rw [hl, hinv.lock_iff]
    simp only [hph]
  · rw [hl] at h h'
    exact hinv.lock_unique w w' id h h'
  · exact hrow id (by rwa [Delivery.locked, hl] at hid)

/-- A worker that is not claiming goes on with something else. -/
theorem LockInv.move (hinv : LockInv d) {x : Worker}
    (hids : (d'.attempts.map DeliveryAttempt.id).Nodup) (hl : d'.rowLocks = d.rowLocks)
    (hw : d'.workers = Function.update d.workers w x)
    (hold : ∀ t₀ picked, (d.workers w).phase ≠ .claiming t₀ picked)
    (hnew : ∀ t₀ picked, x.phase ≠ .claiming t₀ picked)
    (hrow : ∀ id ∈ d.locked, ∃ row ∈ d'.attempts, row.id = id ∧ Open row) : LockInv d' := by
  refine hinv.frame hids hl (fun w' t₀ picked => ?_) hrow
  rw [hw]
  by_cases heq : w' = w
  · subst heq
    rw [Function.update_self]
    exact iff_of_false (hnew t₀ picked) (hold t₀ picked)
  · rw [Function.update_of_ne heq]

/-- So does the end of a claim, which releases the locks of its worker.
SOURCE: app/delivery/worker.py:84-91 -/
theorem LockInv.unlock (hinv : LockInv d) {x : Worker}
    (hids : (d'.attempts.map DeliveryAttempt.id).Nodup)
    (hl : d'.rowLocks = d.rowLocks.filter fun p => p.1 ≠ w)
    (hw : d'.workers = Function.update d.workers w x)
    (hnew : ∀ t₀ picked, x.phase ≠ .claiming t₀ picked)
    (hrow : ∀ w' id, (w', id) ∈ d.rowLocks → w' ≠ w →
      ∃ row ∈ d'.attempts, row.id = id ∧ Open row) : LockInv d' := by
  have hmem : ∀ w' id, (w', id) ∈ d'.rowLocks ↔ (w', id) ∈ d.rowLocks ∧ w' ≠ w := by
    intro w' id
    rw [hl, List.mem_filter, decide_eq_true_eq]
  refine ⟨hids, fun w' id => ?_, fun w' w'' id h h' => ?_, fun id hid => ?_⟩
  · rw [hmem, hinv.lock_iff, hw]
    by_cases heq : w' = w
    · subst heq
      rw [Function.update_self]
      constructor
      · rintro ⟨_, hne⟩
        exact absurd rfl hne
      · rintro ⟨t₀, picked, hc, _⟩
        exact absurd hc (hnew t₀ picked)
    · rw [Function.update_of_ne heq]
      exact and_iff_left heq
  · exact hinv.lock_unique w' w'' id ((hmem w' id).1 h).1 ((hmem w'' id).1 h').1
  · obtain ⟨w', hlock⟩ := mem_locked.1 hid
    obtain ⟨hlock, hne⟩ := (hmem w' id).1 hlock
    exact hrow w' id hlock hne

end

/-! ## Every step keeps the invariant -/

section
variable {cfg : Settings}

/-- A locked row stays open until the transaction that has locked it marks it. -/
theorem open_after_step {s : World} {a : Action} {attempts : List DeliveryAttempt}
    (hinv : LockInv s.delivery) (h : AttemptsStep cfg s a attempts) {w : WorkerId} {id : Uuid}
    (hlock : (w, id) ∈ s.delivery.rowLocks) (ha : a ≠ .worker w .claimCommit) :
    ∃ row ∈ attempts, row.id = id ∧ Open row := by
  have hlocked : id ∈ s.delivery.locked := mem_locked.2 ⟨w, hlock⟩
  obtain ⟨row, hrow, rfl, hopen⟩ := hinv.lock_row id hlocked
  obtain ⟨row', hrow', hstep⟩ := h.exists_row hrow
  refine ⟨row', hrow', hstep.identity.1, ?_⟩
  cases hstep with
  | same => exact hopen
  | @mark w' t₀ picked _ hph hid =>
    have hw : w = w' :=
      hinv.lock_unique w w' row.id hlock ((hinv.lock_iff w' _).2 ⟨t₀, picked, hph, hid⟩)
    exact absurd (by rw [hw]) ha
  | close _ hl _ => exact absurd hlocked hl
  | writeBack _ hl _ _ => exact absurd hlocked hl
  | retry _ hl _ => exact absurd hlocked hl
  | reset hst =>
    simp only [staleInFlight, Bool.and_eq_true, decide_eq_true_eq] at hst
    obtain h | h := hopen
    · rw [h] at hst
      cases hst.1
    · rw [h] at hst
      cases hst.1

/-- A step of a worker keeps the invariant of the locks. SOURCE: app/delivery/worker.py:58-174 -/
theorem lockInv_worker {s : World} {w : WorkerId} {a : WorkerAction} {d' : Delivery}
    (hinv : LockInv s.delivery) (hatt : AttemptsStep cfg s (.worker w a) d'.attempts)
    (h : WorkerStep cfg s.now s.registry.subscribers s.intake.keys s.delivery w a d') :
    LockInv d' := by
  have hids := hatt.ids_nodup hinv.ids_nodup
  have hrow : a ≠ .claimCommit → ∀ id ∈ s.delivery.locked,
      ∃ row ∈ d'.attempts, row.id = id ∧ Open row := by
    intro ha id hid
    obtain ⟨w', hlock⟩ := mem_locked.1 hid
    refine open_after_step hinv hatt hlock fun heq => ?_
    cases heq
    exact ha rfl
  have hother : ∀ w' id, (w', id) ∈ s.delivery.rowLocks → w' ≠ w →
      ∃ row ∈ d'.attempts, row.id = id ∧ Open row := by
    intro w' id hlock hne
    refine open_after_step hinv hatt hlock fun heq => ?_
    cases heq
    exact hne rfl
  cases h with
  | claim hph _ _ _ _ hp => exact hinv.claim hph hp
  | claimCommit hph => exact hinv.unlock hids rfl rfl nofun hother
  | fetch hph => exact hinv.move hids rfl rfl (by rw [hph]; nofun) nofun (hrow nofun)
  | close hph _ _ => exact hinv.move hids rfl rfl (by rw [hph]; nofun) nofun (hrow nofun)
  | post hph _ => exact hinv.move hids rfl rfl (by rw [hph]; nofun) nofun (hrow nofun)
  | returned hph _ => exact hinv.move hids rfl rfl (by rw [hph]; nofun) nofun (hrow nofun)
  | escaped hph _ => exact hinv.move hids rfl rfl (by rw [hph]; nofun) nofun (hrow nofun)
  | writeBack hph _ _ => exact hinv.move hids rfl rfl (by rw [hph]; nofun) nofun (hrow nofun)
  | writeBackRaised hph _ => exact hinv.move hids rfl rfl (by rw [hph]; nofun) nofun (hrow nofun)
  | finish hph => exact hinv.move hids rfl rfl (by rw [hph]; nofun) nofun (hrow nofun)
  | dbError => exact hinv.unlock hids rfl rfl nofun hother
  | resetStale _ => exact hinv.frame hids rfl (fun _ _ _ => Iff.rfl) (hrow nofun)
  | crash => exact hinv.unlock hids rfl rfl nofun hother

/-- The invariant of the locks holds in every reachable state. -/
theorem lockInv_of_reachable {s : World} (h : Reachable (step cfg) World.init s) :
    LockInv s.delivery := by
  refine h.induct (I := fun s => LockInv s.delivery) ?_ ?_
  · refine ⟨List.nodup_nil, fun w id => ?_, nofun, nofun⟩
    simp [World.init, Delivery.init]
  · intro s a s' _ hinv hs
    have hatt := attemptsStep_of_step hs
    have hids := hatt.ids_nodup hinv.ids_nodup
    have hframe : (∀ w, a ≠ .worker w .claimCommit) → s'.delivery.rowLocks = s.delivery.rowLocks →
        s'.delivery.workers = s.delivery.workers → LockInv s'.delivery := by
      intro ha hl hw
      refine hinv.frame hids hl (fun w t₀ picked => by rw [hw]) fun id hid => ?_
      obtain ⟨w, hlock⟩ := mem_locked.1 hid
      exact open_after_step hinv hatt hlock (ha w)
    cases worldStep_of_eq_some hs with
    | worker hstep => exact lockInv_worker hinv hatt hstep
    | retry hstep =>
      refine hframe nofun ?_ ?_
      · cases hstep <;> rfl
      · cases hstep <;> rfl
    | _ => exact hframe nofun rfl rfl

end

end EventPipeline.Analysis
