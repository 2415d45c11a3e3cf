import EventPipeline.Analysis.AttemptCounter
import EventPipeline.Analysis.BatchFinalisation

/-!
# Delivery accounting with one worker

One worker process, with its periodic stale reset firing between any two steps of a batch.
The outcomes of the POSTs that have returned for a row are the outcomes that its counter
counts, followed by the one that is not written back yet. The invariant ties them to the
local list of the worker: the rows that are still to do have the counter of their snapshot
and no successful outcome, whatever the reset does to their status. A result is lost, and its
row posted once more, when the retry that it calls for has no date: then `_deliver_attempt`
raises between the POST and the UPDATE.
-/

set_option autoImplicit false

namespace EventPipeline.Analysis

open EventPipeline.Model EventPipeline.Program EventPipeline.Interface EventPipeline.Computation

/-! ## The runs -/

/-- The process does not die, the database calls succeed, and `deliver` returns a result,
whose error text the database can store. -/
def Succeeds : WorkerAction → Prop
  | .crash | .dbError => False
  | .postEnds o =>
    ((deliver o).any fun r => r.success || Json.storable (errorText r)) = true
  | _ => True

instance : DecidablePred Succeeds
  | .crash | .dbError => inferInstanceAs (Decidable False)
  | .postEnds _ => inferInstanceAs (Decidable (_ = true))
  | .claim _ _ | .claimCommit | .fetch | .close | .post | .writeBack _ | .finish | .resetStale _ =>
    inferInstanceAs (Decidable True)

/-- Worker `w₀` is the only one, and no `retry_delivery` call is made. -/
def OneWorkerRun (w₀ : WorkerId) (_ : World) : Action → Prop
  | .worker w a => w = w₀ ∧ Succeeds a
  | .retry _ _ => False
  | _ => True

instance (w₀ : WorkerId) (s : World) : DecidablePred (OneWorkerRun w₀ s)
  | .worker w a => inferInstanceAs (Decidable (w = w₀ ∧ Succeeds a))
  | .retry _ _ => inferInstanceAs (Decidable False)
  | .tick _ | .publish _ _ | .handler _ _ | .reconciler _ _ | .subscriber _ _ =>
    inferInstanceAs (Decidable True)

/-- The write-back of the phase, with the draw `k`, does not raise for want of a date.
SOURCE: app/delivery/worker.py:146-151 -/
def WorkerPhase.DatesRetry (cfg : Settings) (k : Draw) : WorkerPhase → Prop
  | .posted x r at' _ => r.success = true ∨ BackoffFits cfg x.attempt at' k
  | _ => True

instance (cfg : Settings) (k : Draw) : DecidablePred (WorkerPhase.DatesRetry cfg k)
  | .posted _ _ _ _ => inferInstanceAs (Decidable (_ ∨ _ ∨ _))
  | .idle | .claiming _ _ | .delivering _ | .fetched _ _ _ | .posting _ _ _ =>
    inferInstanceAs (Decidable True)

/-- The retry that the step computes, if it does, has a date before the year 10000. -/
def DatesRetries (cfg : Settings) (s : World) : Action → Prop
  | .worker w (.writeBack k) => WorkerPhase.DatesRetry cfg k (s.delivery.workers w).phase
  | _ => True

instance (cfg : Settings) (s : World) : DecidablePred (DatesRetries cfg s)
  | .worker w (.writeBack k) =>
    inferInstanceAs (Decidable (WorkerPhase.DatesRetry cfg k (s.delivery.workers w).phase))
  | .worker _ (.claim _ _) | .worker _ .claimCommit | .worker _ .fetch | .worker _ .close
  | .worker _ .post | .worker _ (.postEnds _) | .worker _ .finish | .worker _ (.resetStale _)
  | .worker _ .dbError | .worker _ .crash => inferInstanceAs (Decidable True)
  | .tick _ | .publish _ _ | .handler _ _ | .reconciler _ _ | .subscriber _ _ | .retry _ _ =>
    inferInstanceAs (Decidable True)

/-- The steps of one worker in which every retry has a date. -/
def DatedRun (cfg : Settings) (w₀ : WorkerId) (s : World) (a : Action) : Prop :=
  OneWorkerRun w₀ s a ∧ DatesRetries cfg s a

instance (cfg : Settings) (w₀ : WorkerId) (s : World) : DecidablePred (DatedRun cfg w₀ s) :=
  fun a => inferInstanceAs (Decidable (OneWorkerRun w₀ s a ∧ DatesRetries cfg s a))

/-! ## The POSTs that have returned -/

/-- The row of a POST that returns in this step, and whether the answer was 2xx.
SOURCE: app/delivery/worker.py:123 -/
def returnedPost (d : Delivery) : Action → List (Uuid × Bool)
  | .worker w (.postEnds o) =>
    match (d.workers w).phase, deliver o with
    | .posting a _ _, some r => [(a.attempt.id, r.success)]
    | _, _ => []
  | _ => []

def returnedPosts (cfg : Settings) (as : List Action) : List (Uuid × Bool) :=
  history (step cfg) (fun s a => returnedPost s.delivery a) World.init as

/-- The outcomes of the POSTs for one row, in their order. -/
def outcomesOf (id : Uuid) (log : List (Uuid × Bool)) : List Bool :=
  (log.filter fun e => e.1 = id).map Prod.snd

/-- The outcome that the worker has not written back yet. -/
def WorkerPhase.unwritten : WorkerPhase → Uuid → List Bool
  | .posted a r _ _, id => if a.attempt.id = id then [r.success] else []
  | _, _ => []

/-- Only a worker that holds a result has one to write back. -/
theorem unwritten_of_ne {ph : WorkerPhase} (h : ∀ x r at' todo, ph ≠ .posted x r at' todo) :
    WorkerPhase.unwritten ph = fun _ => [] := by
  cases ph with
  | posted x r at' todo => exact absurd rfl (h x r at' todo)
  | _ => rfl

/-- An outcome that is not written back is that of a row of the batch. -/
theorem unwritten_cases (ph : WorkerPhase) (id : Uuid) : WorkerPhase.unwritten ph id = [] ∨
    ∃ x ∈ ph.batch, x.attempt.id = id ∧ ∃ b, WorkerPhase.unwritten ph id = [b] := by
  cases ph with
  | posted x r at' todo =>
    by_cases hid : x.attempt.id = id
    · exact Or.inr ⟨x, List.mem_cons_self, hid, r.success, if_pos hid⟩
    · exact Or.inl (if_neg hid)
  | _ => exact Or.inl rfl

/-- The outcomes of two logs come one after the other. -/
theorem outcomesOf_append (id : Uuid) (log log' : List (Uuid × Bool)) :
    outcomesOf id (log ++ log') = outcomesOf id log ++ outcomesOf id log' := by
  simp [outcomesOf]

/-- A POST that has returned for a row is an outcome of it. -/
theorem outcomesOf_singleton_self (id : Uuid) (b : Bool) : outcomesOf id [(id, b)] = [b] := by
  simp [outcomesOf]

/-- A POST for another row is none. -/
theorem outcomesOf_singleton_of_ne {id id' : Uuid} (h : id' ≠ id) (b : Bool) :
    outcomesOf id [(id', b)] = [] := by
  simp [outcomesOf, h]

/-! ## The invariant -/

/-- The outcomes for a row: those that were written back, which its counter counts, and then
those that are not. Only the last one written back may be a success. -/
def RowAccount (row : DeliveryAttempt) (outcomes unwritten : List Bool) : Prop :=
  ∃ written, outcomes = written ++ unwritten ∧ written.length = row.attemptCount ∧
    true ∉ written.dropLast ∧ (true ∈ written → row.status = .delivered)

/-- A row that the worker still has to finish has no success, and its snapshot has its count. -/
structure InStep (x : Snapshot) (row : DeliveryAttempt) : Prop where
  attemptCount : row.attemptCount = x.attempt.attemptCount
  status : row.status ≠ .delivered

/-- SOURCE: app/delivery/worker.py:36-201 -/
structure Accounting (w₀ : WorkerId) (s : World) (log : List (Uuid × Bool)) : Prop where
  row : ∀ row ∈ s.delivery.attempts,
    RowAccount row (outcomesOf row.id log)
      (WorkerPhase.unwritten (s.delivery.workers w₀).phase row.id)
  logged : ∀ id, id ∉ s.delivery.attempts.map DeliveryAttempt.id → outcomesOf id log = []
  batch_nodup : ((s.delivery.workers w₀).phase.batch.map fun x => x.attempt.id).Nodup
  batch_row : ∀ x ∈ (s.delivery.workers w₀).phase.batch,
    x.attempt.id ∈ s.delivery.attempts.map DeliveryAttempt.id
  snapshot : ∀ x ∈ (s.delivery.workers w₀).phase.batch, ∀ row ∈ s.delivery.attempts,
    row.id = x.attempt.id → InStep x row
  result : ∀ x r at' todo, (s.delivery.workers w₀).phase = .posted x r at' todo →
    (r.success || Json.storable (errorText r)) = true

/-- What a step that writes no result back does to a row. -/
structure Kept (row row' : DeliveryAttempt) : Prop where
  id : row'.id = row.id
  attemptCount : row'.attemptCount = row.attemptCount
  status : row'.status = .delivered ↔ row.status = .delivered

/-- A row that keeps its counter and its success keeps its account. -/
theorem RowAccount.kept {row row' : DeliveryAttempt} {outcomes unwritten : List Bool}
    (h : RowAccount row outcomes unwritten) (hk : Kept row row') :
    RowAccount row' outcomes unwritten := by
  obtain ⟨written, hsplit, hlen, hlast, hdel⟩ := h
  exact ⟨written, hsplit, hlen.trans hk.attemptCount.symm, hlast,
    fun hmem => hk.status.2 (hdel hmem)⟩

/-- A snapshot stays in step with a row that keeps these. -/
theorem InStep.kept {x : Snapshot} {row row' : DeliveryAttempt} (h : InStep x row)
    (hk : Kept row row') : InStep x row' :=
  ⟨hk.attemptCount.trans h.attemptCount, fun hd => h.status (hk.status.1 hd)⟩

/-- The outcome that is not written back becomes the last one that is.
SOURCE: app/delivery/worker.py:126-174 -/
theorem RowAccount.writeBack {cfg : Settings} {x : Snapshot} {row : DeliveryAttempt}
    {r : DeliveryResult} {at' : Time} {k : Draw} {u : FinalUpdate} {outcomes : List Bool}
    (h : RowAccount row outcomes [r.success]) (hin : InStep x row)
    (hu : finalUpdate cfg x.attempt r at' k = some u) :
    RowAccount (u.apply x.attempt r at' row) outcomes [] := by
  obtain ⟨written, hsplit, hlen, _, hdel⟩ := h
  have hfailed : true ∉ written := fun hmem => hin.status (hdel hmem)
  refine ⟨written ++ [r.success], ?_, ?_, ?_, fun hmem => ?_⟩
  · rw [List.append_nil]
    exact hsplit
  · simp [FinalUpdate.apply, hlen, hin.attemptCount]
  · rw [List.dropLast_concat]
    exact hfailed
  · have hsuccess : r.success = true := by simpa [hfailed] using hmem
    show u.status = .delivered
    simp only [finalUpdate, hsuccess, if_true, Option.some.injEq] at hu
    rw [← hu]

section
variable {cfg : Settings} {s s' : World} {w₀ : WorkerId} {log : List (Uuid × Bool)} {a : Action}

/-- A step that is not a write-back keeps every row, or inserts it with count 0. -/
theorem kept_of_step (hlock : LockInv s.delivery) (hinv : Accounting w₀ s log)
    (hC : OneWorkerRun w₀ s a) (hs : step cfg s a = some s')
    (hwb : ∀ w j, a ≠ .worker w (.writeBack j)) {row' : DeliveryAttempt}
    (hrow' : row' ∈ s'.delivery.attempts) :
    (∃ row ∈ s.delivery.attempts, Kept row row') ∨
      (NewAttempt s row' ∧ row'.id ∉ s.delivery.attempts.map DeliveryAttempt.id) := by
  refine ((attemptsStep_of_step hs).of_mem hrow').imp_left ?_
  rintro ⟨row, hrow, hstep⟩
  refine ⟨row, hrow, ?_⟩
  cases hstep with
  | same => exact ⟨rfl, rfl, Iff.rfl⟩
  | mark hph hid =>
    have hopen : Open row := hlock.open_of_picked hph hrow hid
    exact ⟨rfl, rfl, iff_of_false (by simp) hopen.ne_delivered⟩
  | @close w x _ _ _ hph _ hid =>
    have hin : InStep x row := by
      refine hinv.snapshot x ?_ row hrow hid
      rw [← hC.1, hph]
      exact List.mem_cons_self
    exact ⟨rfl, rfl, iff_of_false (by simp) hin.status⟩
  | writeBack => exact absurd rfl (hwb _ _)
  | reset hst =>
    simp only [staleInFlight, Bool.and_eq_true, decide_eq_true_eq] at hst
    exact ⟨rfl, rfl, iff_of_false (by simp) (by rw [hst.1]; simp)⟩
  | retry => exact hC.elim

/-- The ids of the table only grow. -/
theorem attempt_ids_subset (hs : step cfg s a = some s') :
    s.delivery.attempts.map DeliveryAttempt.id ⊆ s'.delivery.attempts.map DeliveryAttempt.id := by
  intro id hid
  obtain ⟨row, hrow, rfl⟩ := List.mem_map.1 hid
  obtain ⟨row', hrow', hstep⟩ := (attemptsStep_of_step hs).exists_row hrow
  exact hstep.identity.1 ▸ List.mem_map_of_mem hrow'

/-- A phase that has written back everything, or has posted a row of the table, has nothing
unwritten for a row that is not in the table. -/
theorem Accounting.unwritten_new (hinv : Accounting w₀ s log) {id : Uuid}
    (hid : id ∉ s.delivery.attempts.map DeliveryAttempt.id) :
    WorkerPhase.unwritten (s.delivery.workers w₀).phase id = [] := by
  obtain hnil | ⟨x, hx, rfl, _⟩ := unwritten_cases (s.delivery.workers w₀).phase id
  · exact hnil
  · exact absurd (hinv.batch_row x hx) hid

/-- The rule for a step that returns no POST and writes none back: the worker goes on with the
batch, or with less of it. -/
theorem Accounting.quiet (hlock : LockInv s.delivery) (hinv : Accounting w₀ s log)
    (hC : OneWorkerRun w₀ s a) (hs : step cfg s a = some s')
    (hwb : ∀ w j, a ≠ .worker w (.writeBack j))
    (hun : WorkerPhase.unwritten (s'.delivery.workers w₀).phase =
      WorkerPhase.unwritten (s.delivery.workers w₀).phase)
    (hbatch : List.Sublist (s'.delivery.workers w₀).phase.batch
      (s.delivery.workers w₀).phase.batch)
    (hresult : ∀ x r at' todo, (s'.delivery.workers w₀).phase = .posted x r at' todo →
      (s.delivery.workers w₀).phase = .posted x r at' todo) :
    Accounting w₀ s' log := by
  have hids : s.delivery.attempts.map DeliveryAttempt.id ⊆
      s'.delivery.attempts.map DeliveryAttempt.id := attempt_ids_subset hs
  refine ⟨fun row' hrow' => ?_, fun id hid => hinv.logged id fun hmem => hid (hids hmem), ?_, ?_,
    fun x hx row' hrow' hid => ?_, fun x r at' todo hph => hinv.result x r at' todo
      (hresult x r at' todo hph)⟩
  · rw [hun]
    obtain ⟨row, hrow, hk⟩ | ⟨hnew, hfresh⟩ := kept_of_step hlock hinv hC hs hwb hrow'
    · rw [hk.id]
      exact (hinv.row row hrow).kept hk
    · refine ⟨[], ?_, hnew.attemptCount.symm, by simp, by simp⟩
      rw [hinv.logged _ hfresh, hinv.unwritten_new hfresh, List.append_nil]
  · exact hinv.batch_nodup.sublist (hbatch.map _)
  · exact fun x hx => hids (hinv.batch_row x (hbatch.subset hx))
  · have hx' := hbatch.subset hx
    obtain ⟨row, hrow, hk⟩ | ⟨_, hfresh⟩ := kept_of_step hlock hinv hC hs hwb hrow'
    · exact (hinv.snapshot x hx' row hrow (hk.id.symm.trans hid)).kept hk
    · exact absurd (hid ▸ hinv.batch_row x hx') hfresh

/-- The claim picks open rows, which have no success. SOURCE: app/delivery/worker.py:63-75 -/
theorem Accounting.claim (hlock : LockInv s.delivery) (hinv : Accounting w₀ s log)
    {t₀ : Time} {picks : List Uuid} {d' : Delivery}
    (hph : (s.delivery.workers w₀).phase = .idle) (hn : picks.Nodup)
    (hp : ∀ id ∈ picks, ∃ x, snapshotOf s.delivery.attempts s.intake.keys id = some x ∧
      claimable t₀ x.attempt = true)
    (hatt : d'.attempts = s.delivery.attempts)
    (hph' : (d'.workers w₀).phase =
      .claiming t₀ (picks.filterMap (snapshotOf s.delivery.attempts s.intake.keys))) :
    Accounting w₀ { s with delivery := d' } log := by
  have hids := ids_picked fun id hid => (hp id hid).imp fun _ hx => hx.1
  have hpicked : ∀ x ∈ picks.filterMap (snapshotOf s.delivery.attempts s.intake.keys),
      x.attempt ∈ s.delivery.attempts ∧ Open x.attempt := by
    intro x hx
    obtain ⟨id, hid, hsnap⟩ := List.mem_filterMap.1 hx
    obtain ⟨y, hy, hc⟩ := hp id hid
    rw [hsnap] at hy
    cases hy
    exact ⟨(of_snapshotOf hsnap).1, open_of_claimable hc⟩
  refine ⟨?_, ?_, ?_, ?_, ?_, ?_⟩
  · intro row hrow
    simp only [hatt] at hrow
    have hacc := hinv.row row hrow
    rw [hph] at hacc
    simp only [hph']
    exact hacc
  · simp only [hatt]
    exact hinv.logged
  · simp only [hph', WorkerPhase.batch, hids]
    exact hn
  · intro x hx
    simp only [hph', WorkerPhase.batch] at hx
    simp only [hatt]
    exact List.mem_map_of_mem (hpicked x hx).1
  · intro x hx row hrow hid
    simp only [hph', WorkerPhase.batch] at hx
    simp only [hatt] at hrow
    obtain ⟨hmem, hopen⟩ := hpicked x hx
    have heq := eq_of_key_eq hlock.ids_nodup hrow hmem hid
    subst heq
    exact ⟨rfl, hopen.ne_delivered⟩
  · intro x r at' todo hposted
    simp only [hph'] at hposted
    cases hposted

/-- A POST returns: its outcome is the unwritten one. SOURCE: app/delivery/worker.py:123 -/
theorem Accounting.returned (hinv : Accounting w₀ s log) {x : Snapshot} {sub : Subscriber}
    {todo : List Snapshot} {r : DeliveryResult} {at' : Time} {d' : Delivery}
    (hph : (s.delivery.workers w₀).phase = .posting x sub todo)
    (hr : (r.success || Json.storable (errorText r)) = true)
    (hatt : d'.attempts = s.delivery.attempts)
    (hph' : (d'.workers w₀).phase = .posted x r at' todo) :
    Accounting w₀ { s with delivery := d' } (log ++ [(x.attempt.id, r.success)]) := by
  have hbatch := hinv.batch_row
  have hnodup := hinv.batch_nodup
  have hsnap := hinv.snapshot
  rw [hph] at hbatch hnodup hsnap
  refine ⟨?_, ?_, ?_, ?_, ?_, ?_⟩
  · intro row hrow
    simp only [hatt] at hrow
    obtain ⟨written, hsplit, hrest⟩ := hinv.row row hrow
    rw [hph] at hsplit
    have hall : outcomesOf row.id log = written := by
      rw [hsplit, WorkerPhase.unwritten, List.append_nil]
      intro _ _ _ _ h
      cases h
    refine ⟨written, ?_, hrest⟩
    simp only [hph', WorkerPhase.unwritten, outcomesOf_append, hall]
    by_cases hid : x.attempt.id = row.id
    · rw [if_pos hid, hid, outcomesOf_singleton_self]
    · rw [if_neg hid, outcomesOf_singleton_of_ne hid]
  · intro id hid
    simp only [hatt] at hid
    have hne : x.attempt.id ≠ id := by
      intro heq
      exact hid (heq ▸ hbatch x List.mem_cons_self)
    rw [outcomesOf_append, hinv.logged id hid, outcomesOf_singleton_of_ne hne, List.append_nil]
  · simp only [hph']
    exact hnodup
  · simp only [hph', hatt]
    exact hbatch
  · simp only [hph', hatt]
    exact hsnap
  · intro y r' t' todo' hposted
    simp only [hph'] at hposted
    cases hposted
    exact hr

/-- The result of a POST is written back into its row. SOURCE: app/delivery/worker.py:125-174 -/
theorem Accounting.writeBack (hinv : Accounting w₀ s log) {x : Snapshot} {r : DeliveryResult}
    {at' : Time} {k : Draw} {todo : List Snapshot} {u : FinalUpdate} {d' : Delivery}
    (hph : (s.delivery.workers w₀).phase = .posted x r at' todo)
    (hu : finalUpdate cfg x.attempt r at' k = some u)
    (hatt : d'.attempts = updateAttempt x.attempt.id (u.apply x.attempt r at') s.delivery.attempts)
    (hph' : (d'.workers w₀).phase = .delivering todo) :
    Accounting w₀ { s with delivery := d' } log := by
  have hbatch := hinv.batch_row
  have hnodup := hinv.batch_nodup
  have hsnap := hinv.snapshot
  rw [hph] at hbatch hnodup hsnap
  simp only [WorkerPhase.batch, List.map_cons, List.nodup_cons] at hnodup
  have hids : d'.attempts.map DeliveryAttempt.id = s.delivery.attempts.map DeliveryAttempt.id := by
    rw [hatt]
    exact map_updateWhere _ fun _ _ => rfl
  have hmem : ∀ row' ∈ d'.attempts, (row' ∈ s.delivery.attempts ∧ row'.id ≠ x.attempt.id) ∨
      ∃ row ∈ s.delivery.attempts, row.id = x.attempt.id ∧ u.apply x.attempt r at' row = row' := by
    intro row' hrow'
    rw [hatt] at hrow'
    exact of_mem_updateWhere hrow'
  refine ⟨?_, ?_, ?_, ?_, ?_, ?_⟩
  · intro row' hrow'
    simp only [hph', WorkerPhase.unwritten]
    obtain ⟨hrow, hne⟩ | ⟨row, hrow, hid, rfl⟩ := hmem row' hrow'
    · have hacc := hinv.row row' hrow
      rw [hph, WorkerPhase.unwritten, if_neg (Ne.symm hne)] at hacc
      exact hacc
    · have hacc := hinv.row row hrow
      rw [hph, WorkerPhase.unwritten, if_pos hid.symm] at hacc
      exact hacc.writeBack (hsnap x List.mem_cons_self row hrow hid) hu
  · simp only [hids]
    exact hinv.logged
  · simp only [hph', WorkerPhase.batch]
    exact hnodup.2
  · intro y hy
    simp only [hph', WorkerPhase.batch] at hy
    simp only [hids]
    exact hbatch y (List.mem_cons_of_mem _ hy)
  · intro y hy row' hrow' hid
    simp only [hph', WorkerPhase.batch] at hy
    obtain ⟨hrow, _⟩ | ⟨row, _, hrid, rfl⟩ := hmem row' hrow'
    · exact hsnap y (List.mem_cons_of_mem _ hy) row' hrow hid
    · -- The other rows of the batch have other ids.
      have heq : x.attempt.id = y.attempt.id := hrid.symm.trans hid
      exact absurd (heq ▸ List.mem_map_of_mem hy) hnodup.1
  · intro y r' t' todo' hposted
    simp only [hph'] at hposted
    cases hposted

/-- A result that can be stored is written back, unless its retry has no date.
SOURCE: app/delivery/worker.py:29-33,126-158 -/
theorem writeBack_ne_none {w : WorkerId} {x : Snapshot} {r : DeliveryResult} {at' : Time}
    {k : Draw} {todo : List Snapshot} {t : List DeliveryAttempt}
    (hph : (s.delivery.workers w).phase = .posted x r at' todo)
    (hdate : DatesRetries cfg s (.worker w (.writeBack k)))
    (hr : (r.success || Json.storable (errorText r)) = true) :
    Program.writeBack cfg x.attempt r at' k t ≠ none := by
  refine Option.isSome_iff_ne_none.1 (writeBack_isSome_iff.2 ?_)
  have hfits : r.success = true ∨ BackoffFits cfg x.attempt at' k := by
    have hphase : WorkerPhase.DatesRetry cfg k (s.delivery.workers w).phase := hdate
    rwa [hph] at hphase
  obtain hs | htext := Bool.or_eq_true_iff.1 hr
  · exact Or.inl hs
  · exact hfits.imp_right fun hb => ⟨(storable_errorText r).1 htext, hb⟩

/-- One step with a dated retry keeps the accounting. SOURCE: app/delivery/worker.py:101-174 -/
theorem accounting_step (hlock : LockInv s.delivery) (hinv : Accounting w₀ s log)
    (hdated : DatedRun cfg w₀ s a) (hs : step cfg s a = some s') :
    Accounting w₀ s' (log ++ returnedPost s.delivery a) := by
  obtain ⟨hC, hdate⟩ := hdated
  have hsame : (∀ w j, a ≠ .worker w (.writeBack j)) → returnedPost s.delivery a = [] →
      (s'.delivery.workers w₀).phase = (s.delivery.workers w₀).phase →
      Accounting w₀ s' (log ++ returnedPost s.delivery a) := by
    intro hwb hlog hph
    rw [hlog, List.append_nil]
    exact hinv.quiet hlock hC hs hwb (by rw [hph]) (by rw [hph]) fun _ _ _ _ h => hph ▸ h
  cases worldStep_of_eq_some hs with
  | @worker w b d' h =>
    obtain rfl : w = w₀ := hC.1
    have hok : Succeeds b := hC.2
    have hmove : (∀ j, b ≠ .writeBack j) → returnedPost s.delivery (.worker w b) = [] →
        (∀ x r at' todo, (s.delivery.workers w).phase ≠ .posted x r at' todo) →
        List.Sublist (d'.workers w).phase.batch (s.delivery.workers w).phase.batch →
        (∀ x r at' todo, (d'.workers w).phase ≠ .posted x r at' todo) →
        Accounting w { s with delivery := d' }
          (log ++ returnedPost s.delivery (.worker w b)) := by
      intro hwb hlog hold hbatch hnew
      rw [hlog, List.append_nil]
      refine hinv.quiet hlock hC hs (fun w' j heq => ?_) ?_ hbatch
        fun x r at' todo h => absurd h (hnew x r at' todo)
      · cases heq
        exact hwb j rfl
      · exact (unwritten_of_ne hnew).trans (unwritten_of_ne hold).symm
    cases h with
    | claim hph _ _ hn _ hp =>
      rw [returnedPost, List.append_nil]
      · exact hinv.claim hlock hph hn (fun id hid => (hp id hid).2) rfl (by simp)
      · intro _ _ h
        cases h
    | claimCommit hph =>
      exact hmove (by simp) rfl (by simp [hph])
        (by simp [hph, WorkerPhase.batch]) (by simp)
    | fetch hph =>
      exact hmove (by simp) rfl (by simp [hph])
        (by simp [hph, WorkerPhase.batch]) (by simp)
    | close hph _ _ =>
      exact hmove (by simp) rfl (by simp [hph])
        (by simp [hph, WorkerPhase.batch]) (by simp)
    | post hph _ =>
      exact hmove (by simp) rfl (by simp [hph])
        (by simp [hph, WorkerPhase.batch]) (by simp)
    | @returned x sub todo o r hph hr =>
      have hlog : returnedPost s.delivery (.worker w (.postEnds o)) =
          [(x.attempt.id, r.success)] := by
        simp [returnedPost, hph, hr]
      rw [hlog]
      have hres : (r.success || Json.storable (errorText r)) = true := by
        simpa [Succeeds, hr] using hok
      have hph' : ((s.delivery.setPhase w (.posted x r s.now todo)).workers w).phase =
          .posted x r s.now todo := by simp
      exact hinv.returned hph hres rfl hph'
    | @escaped _ _ _ o _ hr => simp [Succeeds, hr] at hok
    | writeBack hph _ hw =>
      obtain ⟨u, hu, rfl⟩ := writeBack_eq_some hw
      rw [returnedPost, List.append_nil]
      · exact hinv.writeBack hph hu rfl (by simp)
      · intro _ _ h
        cases h
    | writeBackRaised hph hw =>
      exact absurd hw (writeBack_ne_none hph hdate (hinv.result _ _ _ _ hph))
    | finish hph =>
      exact hmove (by simp) rfl (by simp [hph])
        (by simp [hph, WorkerPhase.batch]) (by simp)
    | dbError => exact hok.elim
    | resetStale _ => exact hsame (by simp) rfl rfl
    | crash => exact hok.elim
  | retry _ => exact hC.elim
  | _ => exact hsame (by simp) rfl rfl

/-- The accounting holds after every run whose retries have dates. -/
theorem accounting_of_run {as : List Action} (h : run (step cfg) World.init as = some s)
    (hC : Meets (step cfg) (DatedRun cfg w₀) World.init as) :
    Accounting w₀ s (returnedPosts cfg as) := by
  refine history_induct_if (I := Accounting w₀) ?_ ?_ h hC
  · refine ⟨fun _ hrow => absurd hrow List.not_mem_nil, fun _ _ => rfl, List.nodup_nil,
      fun _ hx => absurd hx List.not_mem_nil, fun _ hx => absurd hx List.not_mem_nil, ?_⟩
    intro _ _ _ _ hph
    cases hph
  · intro s log a s' hreach hinv hC hs
    exact accounting_step (lockInv_of_reachable hreach.reachable) hinv hC hs

/-- Without retries the log of retries is empty. -/
theorem committedRetries_eq_nil {as : List Action} (h : run (step cfg) World.init as = some s)
    (hC : Meets (step cfg) (DatedRun cfg w₀) World.init as) : committedRetries cfg as = [] := by
  refine history_induct_if (I := fun _ log => log = []) rfl ?_ h hC
  rintro s log a s' _ rfl ⟨hC, _⟩ _
  cases a with
  | retry r a => exact hC.elim
  | worker w a => rfl
  | _ => rfl

end

/-! ## The accounting -/

/-- What the outcomes of the returned POSTs for a row say about the row.
SOURCE: app/delivery/worker.py:101-174 -/
structure Accounted (cfg : Settings) (w₀ : WorkerId) (s : World) (row : DeliveryAttempt)
    (outcomes : List Bool) : Prop where
  count : outcomes.length = row.attemptCount +
    (WorkerPhase.unwritten (s.delivery.workers w₀).phase row.id).length
  bound : outcomes.length ≤ cfg.deliveryMaxAttempts
  /-- a success is the last outcome, so there is at most one -/
  success_last : true ∉ outcomes.dropLast
  delivered : true ∈ outcomes →
    WorkerPhase.unwritten (s.delivery.workers w₀).phase row.id = [] → row.status = .delivered
  /-- no POST for the row starts after a success -/
  final : true ∈ outcomes → ∀ a s' p, OneWorkerRun w₀ s a → step cfg s a = some s' →
    s'.delivery.posts = s.delivery.posts ++ [p] → p.deliveryId ≠ row.id

/-- In a run with one worker, without crashes and retries, in which every retry has a date, the
POSTs that have returned for a row are those that its counter counts and the one that is not
written back yet; there are at most `delivery_max_attempts` of them, and only the last one may
be a success. SOURCE: app/delivery/worker.py:36-201 -/
theorem deliveries_accounted (cfg : Settings) (w₀ : WorkerId) (as : List Action) (s : World)
    (hM : 1 ≤ cfg.deliveryMaxAttempts) (h : run (step cfg) World.init as = some s)
    (hC : Meets (step cfg) (DatedRun cfg w₀) World.init as) :
    ∀ row ∈ s.delivery.attempts,
      Accounted cfg w₀ s row (outcomesOf row.id (returnedPosts cfg as)) := by
  intro row hrow
  have hinv := accounting_of_run h hC
  have hcount := countInv_of_run hM h
  rw [committedRetries_eq_nil h hC] at hcount
  obtain ⟨written, hsplit, hlen, hlast, hdel⟩ := hinv.row row hrow
  have hle : row.attemptCount ≤ cfg.deliveryMaxAttempts := by simpa using (hcount.row row hrow).le
  -- A row with an unwritten outcome is in the batch, so it has no success yet.
  have hun : WorkerPhase.unwritten (s.delivery.workers w₀).phase row.id = [] ∨
      ∃ b, WorkerPhase.unwritten (s.delivery.workers w₀).phase row.id = [b] ∧ true ∉ written ∧
        row.attemptCount + 1 ≤ cfg.deliveryMaxAttempts := by
    refine (unwritten_cases (s.delivery.workers w₀).phase row.id).imp_right ?_
    rintro ⟨x, hx, hid, b, hb⟩
    obtain ⟨hsnap, hst⟩ := hinv.snapshot x hx row hrow hid.symm
    have hroom := hcount.snapshot w₀ x hx
    rw [List.count_nil, Nat.add_zero, ← hsnap] at hroom
    exact ⟨b, hb, fun hmem => hst (hdel hmem), hroom⟩
  refine ⟨?_, ?_, ?_, ?_, ?_⟩
  · rw [hsplit, List.length_append, hlen]
  · rw [hsplit, List.length_append, hlen]
    obtain hnil | ⟨b, hb, _, hroom⟩ := hun
    · rw [hnil]
      exact hle
    · rw [hb]
      exact hroom
  · rw [hsplit]
    obtain hnil | ⟨b, hb, hnot, _⟩ := hun
    · rw [hnil, List.append_nil]
      exact hlast
    · rw [hb, List.dropLast_concat]
      exact hnot
  · intro hmem hnil
    rw [hsplit, hnil, List.append_nil] at hmem
    exact hdel hmem
  · intro hmem a s' p ha hs hp heq
    obtain ⟨w, x, sub, todo, rfl, hph, _, rfl⟩ := post_of_step hs hp
    obtain rfl : w = w₀ := ha.1
    have hx : x ∈ (s.delivery.workers w).phase.batch := by
      rw [hph]
      exact List.mem_cons_self
    have hid : row.id = x.attempt.id := heq.symm
    rw [hsplit, hph, WorkerPhase.unwritten, List.append_nil] at hmem
    · exact (hinv.snapshot x hx row hrow hid).status (hdel hmem)
    · intro _ _ _ _ hposted
      cases hposted

/-! ## A concrete history -/

/-- The first POST fails, and the reset takes the row while it is written back; the second one
is a success. -/
def resetInBatch : List Action :=
  oneAttempt ++ claimBatch 0 0 [⟨3⟩] ++
  [.worker 0 .fetch, .worker 0 .post, .tick (minutes 11), .worker 0 (.resetStale (minutes 11)),
    .worker 0 (.postEnds (.timeout [])), .worker 0 (.writeBack 0), .worker 0 .finish] ++
  claimBatch 0 (minutes 11) [⟨3⟩] ++ deliverNext 0 (.response 200 none) 0

theorem resetInBatch_enabled :
    (run (step .default) World.init resetInBatch).isSome = true := by decide +kernel

/-- Every retry of the history has a date. -/
theorem resetInBatch_dated :
    Meets (step .default) (DatedRun .default 0) World.init resetInBatch := by decide +kernel

/-- Both answers are counted at the row, which ends delivered.
SOURCE: app/delivery/worker.py:130-155 -/
theorem deliveries_accounted_resetInBatch :
    outcomesOf ⟨3⟩ (returnedPosts .default resetInBatch) = [false, true] ∧
    ∃ row ∈ ((run (step .default) World.init resetInBatch).get
        resetInBatch_enabled).delivery.attempts, row.status = .delivered := by
  have hlog : outcomesOf ⟨3⟩ (returnedPosts .default resetInBatch) = [false, true] := by
    decide +kernel
  have hrow : ∃ row ∈ ((run (step .default) World.init resetInBatch).get
      resetInBatch_enabled).delivery.attempts, row.id = ⟨3⟩ := by decide +kernel
  obtain ⟨row, hrow, hid⟩ := hrow
  have h := deliveries_accounted .default 0 resetInBatch _ (by decide)
    (Option.some_get resetInBatch_enabled).symm resetInBatch_dated row hrow
  have hun : WorkerPhase.unwritten (((run (step .default) World.init resetInBatch).get
      resetInBatch_enabled).delivery.workers 0).phase ⟨3⟩ = [] := by decide +kernel
  rw [hid, hlog] at h
  exact ⟨hlog, row, hrow, h.delivered (by decide) (hid ▸ hun)⟩

/-- A base and a maximum of `10 ^ 12` seconds. -/
def longDelays : Settings :=
  { Settings.default with
    deliveryBaseDelaySeconds := .ofRat (10 ^ 12)
    deliveryMaxDelaySeconds := .ofRat (10 ^ 12) }

/-- The first POST fails, and half of the longest delay is drawn for the retry. -/
def undatedRetry : List Action :=
  oneAttempt ++ claimBatch 0 0 [⟨3⟩] ++ deliverNext 0 (.response 500 none) ⟨2 ^ 52, by decide⟩

theorem undatedRetry_enabled :
    (run (step longDelays) World.init undatedRetry).isSome = true := by decide +kernel

/-- The worker is idle again, and the row has no attempt. -/
theorem undatedRetry_lost : ∃ row ∈ ((run (step longDelays) World.init undatedRetry).get
      undatedRetry_enabled).delivery.attempts,
    row.attemptCount = 0 ∧ (outcomesOf row.id (returnedPosts longDelays undatedRetry)).length = 1 ∧
    WorkerPhase.unwritten (((run (step longDelays) World.init undatedRetry).get
      undatedRetry_enabled).delivery.workers 0).phase row.id = [] := by
  decide +kernel

/-- The retry would be due after the year 9999, so the POST is not counted.
SOURCE: app/delivery/worker.py:150-151 -/
theorem deliveries_not_accounted :
    ¬ ∀ (cfg : Settings) (w₀ : WorkerId) (as : List Action) (s : World),
      1 ≤ cfg.deliveryMaxAttempts → cfg.deliveryMaxAttempts ≤ 1024 →
      run (step cfg) World.init as = some s →
      Meets (step cfg) (OneWorkerRun w₀) World.init as →
      ∀ row ∈ s.delivery.attempts,
        Accounted cfg w₀ s row (outcomesOf row.id (returnedPosts cfg as)) := by
  intro h
  obtain ⟨row, hrow, hzero, hone, hun⟩ := undatedRetry_lost
  have hcount := (h longDelays 0 undatedRetry _ (by decide) (by decide)
    (Option.some_get undatedRetry_enabled).symm (by decide +kernel) row hrow).count
  rw [hone, hzero, hun] at hcount
  cases hcount

end EventPipeline.Analysis
