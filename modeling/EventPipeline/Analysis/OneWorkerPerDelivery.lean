import EventPipeline.Computation.Family
import EventPipeline.Analysis.ClaimLocks

/-!
# One worker per delivery

After the commit of its claim a worker owns a row by its status `in_flight` alone. In a run
where nothing takes a held row out of `in_flight` but its holder, no two workers hold the
same row. Two operations can take it out: a stale reset, when the batch of the holder is
slower than the threshold, and a `retry_delivery` that has read the row before the claim.
-/

set_option autoImplicit false

namespace EventPipeline.Analysis

open EventPipeline.Model EventPipeline.Program EventPipeline.Interface EventPipeline.Computation

/-! ## The condition -/

/-- The stale reset of an action selects the row. SOURCE: app/delivery/worker.py:41-47 -/
def resets (cfg : Settings) (row : DeliveryAttempt) : Action → Bool
  | .worker _ (.resetStale t₀) => staleInFlight cfg t₀ row
  | _ => false

/-- No row that a live worker holds is selected by a stale reset or committed by a retry. -/
def HeldLeftAlone (cfg : Settings) (s : World) (a : Action) : Prop :=
  ∀ w, ∀ row ∈ s.delivery.attempts, row.id ∈ (s.delivery.workers w).held →
    resets cfg row a = false ∧ row.id ∉ retried s.delivery a

/-! ## The invariant -/

/-- The rows that the rest of a claimed batch is about. -/
def WorkerPhase.claimed : WorkerPhase → List Snapshot
  | .claiming _ _ => []
  | ph => ph.batch

def Holds (x : Worker) (id : Uuid) : Prop := id ∈ x.held

/-- The rest of a worker's batch consists of rows that it holds, each once. -/
structure BatchOk (x : Worker) : Prop where
  held : ∀ a ∈ WorkerPhase.claimed x.phase, Holds x a.attempt.id
  nodup : (x.phase.batch.map fun a => a.attempt.id).Nodup

/-- An idle worker has no batch. -/
theorem batchOk_idle (held : List Uuid) : BatchOk ⟨.idle, held⟩ :=
  ⟨fun _ h => absurd h List.not_mem_nil, List.nodup_nil⟩

/-- SOURCE: app/delivery/worker.py:58-174 -/
structure HeldInv (d : Delivery) : Prop where
  row : ∀ w id, Holds (d.workers w) id →
    ∃ row ∈ d.attempts, row.id = id ∧ row.status = .inFlight
  unique : Exclusive Holds d.workers
  batch : ∀ w, BatchOk (d.workers w)

section
variable {cfg : Settings} {s : World} {d' : Delivery} {w : WorkerId} {x : Worker}

/-- A held row stays `in_flight` in a step that leaves it alone, unless its holder finishes
it. -/
theorem held_row_step {a : Action} (hinv : HeldInv s.delivery)
    (hC : HeldLeftAlone cfg s a) (hatt : AttemptsStep cfg s a d'.attempts) {id : Uuid}
    (hid : Holds (s.delivery.workers w) id)
    (hfin : ∀ b, a = .worker w b → id ∉ finalises s.delivery a) :
    ∃ row ∈ d'.attempts, row.id = id ∧ row.status = .inFlight := by
  obtain ⟨row, hrow, rfl, hst⟩ := hinv.row w id hid
  obtain ⟨row', hrow', hstep⟩ := hatt.exists_row hrow
  refine ⟨row', hrow', hstep.identity.1, ?_⟩
  obtain ⟨hreset, hretry⟩ := hC w row hrow hid
  -- A final update of the row comes from its holder, because the writer holds its batch.
  have hwriter : ∀ w' y todo, WorkerPhase.claimed (s.delivery.workers w').phase = y :: todo →
      row.id = y.attempt.id → w' = w := by
    intro w' y todo hb hy
    refine hinv.unique w' w row.id ?_ hid
    rw [hy]
    exact (hinv.batch w').held y (by rw [hb]; exact List.mem_cons_self)
  cases hstep with
  | same => exact hst
  | mark _ _ => rfl
  | close hph _ hy =>
    have hw := hwriter _ _ _ (by rw [hph]; rfl) hy
    subst hw
    exact absurd (by simp only [finalises, hph, hy, List.mem_singleton]) (hfin _ rfl)
  | writeBack hph _ hy _ =>
    have hw := hwriter _ _ _ (by rw [hph]; rfl) hy
    subst hw
    exact absurd (by simp only [finalises, hph, hy, List.mem_singleton]) (hfin _ rfl)
  | reset hstale =>
    have heq : staleInFlight cfg _ row = false := hreset
    rw [hstale] at heq
    cases heq
  | retry hr _ hy => exact absurd (by simp only [retried, hr, hy, List.mem_singleton]) hretry

/-- Worker `w` becomes `x`, and holds no row that it did not hold before. -/
theorem HeldInv.move (hinv : HeldInv s.delivery)
    (hw : d'.workers = Function.update s.delivery.workers w x)
    (hheld : ∀ id, Holds x id → Holds (s.delivery.workers w) id)
    (hrow : ∀ w' id, Holds (d'.workers w') id → Holds (s.delivery.workers w') id →
      ∃ row ∈ d'.attempts, row.id = id ∧ row.status = .inFlight)
    (hx : BatchOk x) : HeldInv d' := by
  refine ⟨fun w' id hid => hrow w' id hid ?_, ?_, ?_⟩
  · rw [hw] at hid
    exact owns_of_update hheld hid
  · rw [hw]
    exact hinv.unique.update fun id hid => Or.inl (hheld id hid)
  · rw [hw]
    exact (Function.forall_update_iff _ fun _ => BatchOk).2 ⟨hx, fun w' _ => hinv.batch w'⟩

/-- The claim commits: its rows were open, so nobody held them.
SOURCE: app/delivery/worker.py:83-89 -/
theorem HeldInv.claimCommit (hlock : LockInv s.delivery) (hinv : HeldInv s.delivery) {t₀ : Time}
    {picked : List Snapshot} (hph : (s.delivery.workers w).phase = .claiming t₀ picked)
    (hC : HeldLeftAlone cfg s (.worker w .claimCommit))
    (hatt : AttemptsStep cfg s (.worker w .claimCommit) d'.attempts)
    (hmark : d'.attempts = markInFlight (picked.map fun a => a.attempt.id) t₀ s.delivery.attempts)
    (hw : d'.workers = Function.update s.delivery.workers w
      ⟨.delivering picked, (s.delivery.workers w).held ++ picked.map fun a => a.attempt.id⟩) :
    HeldInv d' := by
  have hpicked : ∀ id ∈ picked.map fun a => a.attempt.id,
      ∃ row ∈ s.delivery.attempts, row.id = id ∧ Open row := fun _ hid =>
    hlock.picked_row hph hid
  have hfree : ∀ id ∈ picked.map fun a => a.attempt.id,
      ∀ w', ¬ Holds (s.delivery.workers w') id := by
    intro id hid w' hheld
    obtain ⟨row, hrow, hrid, hopen⟩ := hpicked id hid
    obtain ⟨row', hrow', hrid', hst⟩ := hinv.row w' id hheld
    rw [eq_of_key_eq hlock.ids_nodup hrow hrow' (hrid.trans hrid'.symm), Open, hst] at hopen
    obtain h | h := hopen <;> cases h
  refine ⟨fun w' id hid => ?_, ?_, ?_⟩
  · have hold : Holds (s.delivery.workers w') id ∨ id ∈ picked.map fun a => a.attempt.id := by
      rw [hw] at hid
      obtain ⟨rfl, hid⟩ | ⟨_, hid⟩ := owns_update hid
      · exact List.mem_append.1 hid
      · exact Or.inl hid
    obtain hold | hnew := hold
    · exact held_row_step hinv hC hatt hold fun _ _ => List.not_mem_nil
    · obtain ⟨row, hrow, hrid, _⟩ := hpicked id hnew
      rw [hmark]
      exact ⟨_, mem_updateWhere_of_pos hrow (hrid ▸ hnew), hrid, rfl⟩
  · rw [hw]
    exact hinv.unique.update fun id hid => (List.mem_append.1 hid).imp_right (hfree id)
  · rw [hw]
    refine (Function.forall_update_iff _ fun _ => BatchOk).2
      ⟨⟨fun a ha => ?_, ?_⟩, fun w' _ => hinv.batch w'⟩
    · exact List.mem_append_right _ (List.mem_map_of_mem ha)
    · have hn := (hinv.batch w).nodup
      rwa [hph] at hn

/-- The holder finishes the first row of its batch: the other rows stay held. -/
theorem HeldInv.finishes (hinv : HeldInv s.delivery) {b : WorkerAction}
    {y : Snapshot} {todo : List Snapshot}
    (hb : WorkerPhase.claimed (s.delivery.workers w).phase = y :: todo)
    (hbatch : (s.delivery.workers w).phase.batch = y :: todo)
    (hfin : finalises s.delivery (.worker w b) = [y.attempt.id])
    (hC : HeldLeftAlone cfg s (.worker w b))
    (hatt : AttemptsStep cfg s (.worker w b) d'.attempts)
    (hw : d'.workers = Function.update s.delivery.workers w ⟨.delivering todo,
      (s.delivery.workers w).held.filter fun i => i ≠ y.attempt.id⟩) : HeldInv d' := by
  have hn := (hinv.batch w).nodup
  rw [hbatch, List.map_cons, List.nodup_cons] at hn
  refine hinv.move hw (fun id hid => (List.mem_filter.1 hid).1) (fun w' id hid hold => ?_)
    ⟨fun a ha => ?_, hn.2⟩
  · rw [hw] at hid
    obtain ⟨_, hid⟩ | ⟨hne, _⟩ := owns_update hid
    · have hne : id ≠ y.attempt.id := of_decide_eq_true (List.mem_filter.1 hid).2
      refine held_row_step hinv hC hatt hold fun _ _ hmem => hne ?_
      rwa [hfin, List.mem_singleton] at hmem
    · exact held_row_step hinv hC hatt hold fun _ h => absurd (by cases h; rfl) hne
  · have hmem : a ∈ WorkerPhase.claimed (s.delivery.workers w).phase := by
      rw [hb]
      exact List.mem_cons_of_mem _ ha
    refine List.mem_filter.2 ⟨(hinv.batch w).held a hmem, decide_eq_true fun heq => hn.1 ?_⟩
    exact heq ▸ List.mem_map_of_mem ha

end

/-! ## Every step keeps the invariant -/

section
variable {cfg : Settings} {s : World} {w : WorkerId}

/-- A step of a worker. SOURCE: app/delivery/worker.py:58-201 -/
theorem heldInv_worker {a : WorkerAction} {d' : Delivery} (hlock : LockInv s.delivery)
    (hinv : HeldInv s.delivery) (hC : HeldLeftAlone cfg s (.worker w a))
    (hatt : AttemptsStep cfg s (.worker w a) d'.attempts)
    (h : WorkerStep cfg s.now s.registry.subscribers s.intake.keys s.delivery w a d') :
    HeldInv d' := by
  have hbatch := hinv.batch w
  -- Steps that finish no row and take none.
  have hkeep : ∀ x : Worker, d'.workers = Function.update s.delivery.workers w x →
      (∀ id, Holds x id → Holds (s.delivery.workers w) id) →
      finalises s.delivery (.worker w a) = [] → BatchOk x → HeldInv d' := by
    intro x hw hheld hfin hx
    refine hinv.move hw hheld (fun w' id _ hold => ?_) hx
    refine held_row_step hinv hC hatt hold fun _ _ => ?_
    rw [hfin]
    exact List.not_mem_nil
  have hheld : ∀ ph : WorkerPhase, ∀ id,
      Holds { s.delivery.workers w with phase := ph } id → Holds (s.delivery.workers w) id :=
    fun _ _ h => h
  cases h with
  | @claim t₀ picks hph _ _ hn _ hp =>
    have hids := ids_picked fun id hid => (hp id hid).2.imp fun _ hx => hx.1
    refine hkeep { s.delivery.workers w with
      phase := .claiming t₀ (picks.filterMap (snapshotOf s.delivery.attempts s.intake.keys)) }
      rfl (hheld _) rfl ⟨fun _ h => absurd h List.not_mem_nil, ?_⟩
    rw [WorkerPhase.batch, hids]
    exact hn
  | claimCommit hph => exact hinv.claimCommit hlock hph hC hatt rfl rfl
  | @fetch y todo hph =>
    obtain ⟨hrows, hn⟩ := hbatch
    rw [hph] at hrows hn
    exact hkeep { s.delivery.workers w with phase := .fetched y _ todo } rfl (hheld _) rfl
      ⟨hrows, hn⟩
  | close hph _ _ =>
    exact hinv.finishes (by rw [hph]; rfl) (by rw [hph]; rfl)
      (by simp only [finalises, hph]) hC hatt rfl
  | @post y sub todo hph _ =>
    obtain ⟨hrows, hn⟩ := hbatch
    rw [hph] at hrows hn
    exact hkeep { s.delivery.workers w with phase := .posting y sub todo } rfl (hheld _) rfl
      ⟨hrows, hn⟩
  | @returned y _ todo _ r hph _ =>
    obtain ⟨hrows, hn⟩ := hbatch
    rw [hph] at hrows hn
    exact hkeep { s.delivery.workers w with phase := .posted y r s.now todo } rfl (hheld _) rfl
      ⟨hrows, hn⟩
  | escaped hph _ => exact hkeep _ rfl (hheld .idle) rfl (batchOk_idle _)
  | writeBack hph _ _ =>
    exact hinv.finishes (by rw [hph]; rfl) (by rw [hph]; rfl)
      (by simp only [finalises, hph]) hC hatt rfl
  | writeBackRaised hph _ =>
    -- The UPDATE has raised, so the rows are those before the step.
    exact hinv.move rfl (hheld .idle) (fun w' id _ hold => hinv.row w' id hold) (batchOk_idle _)
  | finish hph => exact hkeep _ rfl (hheld .idle) rfl (batchOk_idle _)
  | dbError => exact hkeep _ rfl (hheld .idle) rfl (batchOk_idle _)
  | resetStale _ =>
    exact hkeep _ (Function.update_eq_self _ _).symm (fun _ h => h) rfl hbatch
  | crash =>
    exact hkeep _ rfl (fun _ h => absurd h List.not_mem_nil) rfl (batchOk_idle [])

/-- In a run that leaves the held rows alone no row is held twice. -/
theorem heldInv_of_reachableIf {s : World}
    (h : ReachableIf (step cfg) (HeldLeftAlone cfg) World.init s) : HeldInv s.delivery := by
  refine h.induct (I := fun s => HeldInv s.delivery) ?_ ?_
  · exact ⟨fun _ _ h => absurd h List.not_mem_nil, fun _ _ _ h => absurd h List.not_mem_nil,
      fun _ => batchOk_idle []⟩
  · intro s a s' hreach hinv hC hs
    have hlock := lockInv_of_reachable hreach.reachable
    have hatt := attemptsStep_of_step hs
    have hframe : (∀ w b, a ≠ .worker w b) → s'.delivery.workers = s.delivery.workers →
        HeldInv s'.delivery := by
      intro ha hw
      refine ⟨fun w id hid => ?_, by rw [hw]; exact hinv.unique, by rw [hw]; exact hinv.batch⟩
      rw [hw] at hid
      exact held_row_step hinv hC hatt hid fun b heq => absurd heq (ha w b)
    cases worldStep_of_eq_some hs with
    | worker hstep => exact heldInv_worker hlock hinv hC hatt hstep
    | retry hstep =>
      refine hframe nofun ?_
      cases hstep <;> rfl
    | _ => exact hframe nofun rfl

end

/-! ## The result -/

/-- No two live workers hold the same row. -/
def AtMostOneHolder (d : Delivery) : Prop :=
  ∀ id w w', id ∈ (d.workers w).held → id ∈ (d.workers w').held → w = w'

/-- In a run where every held row is left alone, at most one live worker holds a row.
SOURCE: app/delivery/worker.py:36-98, app/api/deliveries.py:50-71 -/
theorem held_by_at_most_one (cfg : Settings) (s : World)
    (h : ReachableIf (step cfg) (HeldLeftAlone cfg) World.init s) : AtMostOneHolder s.delivery :=
  fun id w w' hw hw' => (heldInv_of_reachableIf h).unique w w' id hw hw'

/-! ## Concrete histories -/

def NoResetNoRetry (cfg : Settings) (s : World) (a : Action) : Prop :=
  (∀ row ∈ s.delivery.attempts, resets cfg row a = false) ∧ retried s.delivery a = []

instance (cfg : Settings) (s : World) (a : Action) : Decidable (NoResetNoRetry cfg s a) :=
  inferInstanceAs (Decidable (_ ∧ _))

/-- Without resets and retries the held rows are left alone. -/
theorem heldLeftAlone_of_noResetNoRetry {cfg : Settings} {s : World} {a : Action}
    (h : NoResetNoRetry cfg s a) : HeldLeftAlone cfg s a := by
  intro w row hrow _
  refine ⟨h.1 row hrow, ?_⟩
  rw [h.2]
  exact List.not_mem_nil

def twoWorkers : List Action :=
  [.subscriber 0 (.create ⟨1⟩ (py "http://a") (py "s")),
    .subscriber 0 (.create ⟨2⟩ (py "http://b") (py "s")),
    .publish 0 (eventBody (py "m") (py "e") (.obj []))] ++
  acceptance 0 ⟨3⟩ [⟨4⟩, ⟨5⟩] ++ claimBatch 0 0 [⟨4⟩] ++ claimBatch 1 0 [⟨5⟩]

theorem twoWorkers_enabled : (run (step .default) World.init twoWorkers).isSome = true := by decide

/-- Two workers with a row each. -/
theorem held_by_at_most_one_twoWorkers :
    AtMostOneHolder ((run (step .default) World.init twoWorkers).get twoWorkers_enabled).delivery :=
  held_by_at_most_one .default _ ((ReachableIf.of_run twoWorkers_enabled (by decide)).mono
    fun _ _ => heldLeftAlone_of_noResetNoRetry)

/-- The endpoint of the only subscriber sends its response slowly, one chunk within each read
timeout, until the row of the first worker is stale; a second worker resets and claims it. -/
def slowEndpoint : List Action :=
  [.subscriber 0 (.create ⟨1⟩ (py "http://a") (py "s")),
    .publish 0 (eventBody (py "m") (py "e") (.obj []))] ++
  acceptance 0 ⟨2⟩ [⟨3⟩] ++ claimBatch 0 0 [⟨3⟩] ++ [.worker 0 .fetch, .worker 0 .post] ++
  [.tick (minutes 10 + 1), .worker 1 (.resetStale (minutes 10 + 1))] ++
  claimBatch 1 (minutes 10 + 1) [⟨3⟩]

theorem slowEndpoint_enabled : (run (step .default) World.init slowEndpoint).isSome = true := by
  decide

/-- Two live workers hold the same row. SOURCE: app/delivery/worker.py:36-98 -/
theorem held_by_two_workers :
    ¬ ∀ s : World, Reachable (step .default) World.init s → AtMostOneHolder s.delivery := by
  intro h
  have heq := h _ (Reachable.of_run slowEndpoint_enabled) ⟨3⟩ 0 1 (by decide) (by decide)
  cases heq

end EventPipeline.Analysis
