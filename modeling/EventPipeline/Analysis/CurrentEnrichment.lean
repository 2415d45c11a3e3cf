import EventPipeline.Computation.History
import EventPipeline.Analysis.IntakeInvariant
import EventPipeline.Analysis.ClaimLocks
import EventPipeline.Interface.KeyRows

/-!
# Deliveries and the current enrichment

The worker takes the payload from the event row that the claim has loaded. So a POST that
starts after the commit of an enrichment carries the enriched payload when the worker's last
claim comes after that commit, and the raw payload when it comes before it.
-/

set_option autoImplicit false

namespace EventPipeline.Analysis

open EventPipeline.Model EventPipeline.Program EventPipeline.Interface EventPipeline.Computation

/-! ## The rows that a worker still has to post -/

/-- The rows of the batch whose POST has not started. -/
def WorkerPhase.unposted : WorkerPhase → List Snapshot
  | .idle => []
  | .claiming _ picked => picked
  | .delivering todo => todo
  | .fetched a _ todo => a :: todo
  | .posting _ _ todo | .posted _ _ _ todo => todo

/-- A row gets into the list by the claim only. SOURCE: app/delivery/worker.py:63-98 -/
theorem unposted_of_step {cfg : Settings} {s s' : World} {a : Action}
    (hs : step cfg s a = some s') {w : WorkerId} {x : Snapshot}
    (hx : x ∈ WorkerPhase.unposted (s'.delivery.workers w).phase) :
    x ∈ WorkerPhase.unposted (s.delivery.workers w).phase ∨
      ((∃ t₀ picks, a = .worker w (.claim t₀ picks)) ∧ s'.intake = s.intake ∧
        ∃ id, snapshotOf s.delivery.attempts s.intake.keys id = some x) := by
  obtain hkeep | ⟨b, d, rfl, rfl, h⟩ := worker_of_step hs w
  · exact Or.inl (hkeep ▸ hx)
  · cases h with
    | claim hph _ _ _ _ _ =>
      simp only [Delivery.setPhase_eq, Delivery.setWorker_workers, Function.update_self,
        WorkerPhase.unposted, List.mem_filterMap] at hx
      obtain ⟨id, _, hx⟩ := hx
      exact Or.inr ⟨⟨_, _, rfl⟩, rfl, id, hx⟩
    | resetStale _ => exact Or.inl hx
    | claimCommit hph | fetch hph | close hph _ _ | post hph _ | returned hph _
    | writeBack hph _ _ =>
      simp only [Delivery.setPhase_eq, Delivery.setWorker_workers, Function.update_self] at hx
      refine Or.inl ?_
      rw [hph]
      first | exact hx | exact List.mem_cons_of_mem _ hx
    | _ =>
      -- The batch is over.
      simp only [Delivery.setPhase_eq, Delivery.setWorker_workers, Function.update_self,
        WorkerPhase.unposted, List.not_mem_nil] at hx

/-! ## An event is enriched once -/

/-- The enrichment that an action stores, with its message.
SOURCE: app/consumer/rabbitmq.py:191-195 -/
def storing (s : Intake) : Action → Option (MessageId × Json)
  | .handler t .write =>
    match s.handlers t with
    | .storeLoaded m enriched _ _ => some (m, enriched)
    | _ => none
  | _ => none

/-- An owned event has no enrichment yet, and the snapshot that its owner has loaded says so. -/
structure EnrichedOnce (s : Intake) : Prop where
  owned : ∀ t m, (s.handlers t).owns = some m → ∀ k ∈ s.keys, k.messageId = m →
    k.enrichedPayload = none
  loaded : ∀ t m enriched at' ik, s.handlers t = .storeLoaded m enriched at' ik →
    ik.messageId = m ∧ ik.enrichedPayload = none

section
variable {cfg : Settings} {s s' : World} {a : Action}

/-- The enrichment of a row is kept, or the action stores one, and its call ends. -/
theorem rowStep_enrichedPayload {k k' : IdempotencyKey} (hinv : EnrichedOnce s.intake)
    (h : RowStep s.intake s'.intake a k k') :
    k'.enrichedPayload = k.enrichedPayload ∨
      ∃ t v, storing s.intake a = some (k.messageId, v) ∧ k'.enrichedPayload = some v ∧
        (s.intake.handlers t).owns = some k.messageId ∧ s'.intake.handlers t = .idle := by
  cases h with
  | same => exact Or.inl rfl
  | @store t enriched at' ik _ hh ht =>
    have hnone := (hinv.loaded _ _ _ _ _ hh).2
    refine Or.inr ⟨t, enriched, by simp only [storing, hh], ?_, by rw [hh]; rfl, ht⟩
    simp only [storeEnrichment, hnone]
    exact flushColumn_of_ne _ (by simp)
  | record _ => exact Or.inl rfl
  | flush _ => exact Or.inl (flushRow_enrichedPayload _ _)

/-- One step keeps the events that have an owner without an enrichment.
SOURCE: app/consumer/rabbitmq.py:182-195 -/
theorem enrichedOnce_step (hintake : IntakeInv cfg s.intake) (hinv : EnrichedOnce s.intake)
    (hs : step cfg s a = some s') : EnrichedOnce s'.intake := by
  have hkeys := keysStep_of_step hs
  constructor
  · intro t m ho k' hk' hm
    obtain ⟨k, hk, hrow⟩ | ⟨_, _, _, _, _, _, rfl⟩ := hkeys.of_mem hk'
    · have hid : k.messageId = m := hrow.messageId ▸ hm
      obtain hown | hins := hkeys.owns ho
      · have hnone := hinv.owned t m hown k hk hid
        obtain hkeep | ⟨t', _, _, _, hown', hidle⟩ := rowStep_enrichedPayload hinv hrow
        · exact hkeep.trans hnone
        · -- Only the owner of an event enriches its row, and with that it ends.
          have heq : t = t' := hintake.owner_unique t t' m hown (hid ▸ hown')
          rw [heq, hidle] at ho
          cases ho
      · exact absurd (hid ▸ List.mem_map_of_mem hk) (hintake.open_new t m hins)
    · rfl
  · intro t m enriched at' ik hl
    obtain hl | ⟨hown, hlook⟩ := hkeys.loaded hl
    · exact hinv.loaded t m enriched at' ik hl
    · obtain ⟨hmem, hid⟩ := of_lookup_eq_some hlook
      exact ⟨hid, hinv.owned t m hown ik hmem hid⟩

/-- In every reachable state an event with an owner has no enrichment yet. -/
theorem enrichedOnce_of_reachable (h : Reachable (step cfg) World.init s) :
    EnrichedOnce s.intake := by
  refine h.induct (I := fun s => EnrichedOnce s.intake) ?_ ?_
  · refine ⟨fun _ _ ho => ?_, fun _ _ _ _ _ hl => ?_⟩
    · cases ho
    · cases hl
  · intro s a s' hreach hinv hs
    exact enrichedOnce_step (intakeInv_of_reachable hreach) hinv hs

def Carries (s : Intake) (m : MessageId) (v : Json) : Prop :=
  ∃ k ∈ s.keys, k.messageId = m ∧ k.enrichedPayload = some v

/-- An enrichment is stored by the last step of its call. SOURCE: app/consumer/rabbitmq.py:187-195
-/
theorem storeLoaded_of_storing {m : MessageId} {v : Json}
    (h : storing s.intake a = some (m, v)) :
    ∃ t at' ik, a = .handler t .write ∧ s.intake.handlers t = .storeLoaded m v at' ik := by
  unfold storing at h
  split at h
  · split at h
    · cases h
      exact ⟨_, _, _, rfl, ‹_›⟩
    · cases h
  · cases h

/-- The commit of an enrichment writes it into the row. SOURCE: app/consumer/rabbitmq.py:191-195 -/
theorem carries_of_store {m : MessageId} {v : Json} (hintake : IntakeInv cfg s.intake)
    (honce : EnrichedOnce s.intake) (hst : storing s.intake a = some (m, v))
    (hs : step cfg s a = some s') : Carries s'.intake m v := by
  obtain ⟨t, at', ik, rfl, hh⟩ := storeLoaded_of_storing hst
  have hown : (s.intake.handlers t).owns = some m := by rw [hh]; rfl
  obtain ⟨k, hk, hid⟩ := List.mem_map.1 ((hintake.call t).owned m hown)
  have hnone := (honce.loaded _ _ _ _ _ hh).2
  cases worldStep_of_eq_some hs with
  | handler hstep =>
    cases hstep with
    | store hh' =>
      rw [hh] at hh'
      cases hh'
      refine ⟨storeEnrichment ik v at' k, mem_updateWhere_of_pos hk hid, hid, ?_⟩
      simp only [storeEnrichment, hnone]
      exact flushColumn_of_ne _ (by simp)
    | record hh' =>
      rw [hh] at hh'
      cases hh'

/-- An enrichment is never replaced. -/
theorem Carries.step {m : MessageId} {v : Json} (h : Carries s.intake m v)
    (hinv : EnrichedOnce s.intake) (hs : Program.step cfg s a = some s') :
    Carries s'.intake m v := by
  obtain ⟨k, hk, hid, hv⟩ := h
  obtain ⟨k', hk', hrow⟩ := (keysStep_of_step hs).exists_row hk
  refine ⟨k', hk', hrow.messageId.trans hid, ?_⟩
  obtain hkeep | ⟨t, _, _, _, hown, _⟩ := rowStep_enrichedPayload hinv hrow
  · exact hkeep.trans hv
  · have hnone := hinv.owned t k.messageId hown k hk rfl
    rw [hv] at hnone
    cases hnone

end

/-! ## The claims and the enrichments of a run -/

inductive Mark where
  | claimed (w : WorkerId)
  /-- step 5 has committed the enrichment `v` of message `m` -/
  | enriched (m : MessageId) (v : Json)

def Mark.isClaim (w : WorkerId) : Mark → Bool
  | .claimed w' => w' = w
  | .enriched _ _ => false

/-- SOURCE: app/delivery/worker.py:63-81, app/consumer/rabbitmq.py:191-195 -/
def marks (s : World) : Action → List Mark
  | .worker w (.claim _ _) => [.claimed w]
  | a => ((storing s.intake a).map fun p => Mark.enriched p.1 p.2).toList

def marksOf (cfg : Settings) (as : List Action) : List Mark :=
  history (step cfg) marks World.init as

/-- An enrichment of `m` was committed after the last claim of worker `w`. -/
def EnrichedSinceClaim (log : List Mark) (w : WorkerId) (m : MessageId) : Prop :=
  ∃ v, Mark.enriched m v ∈ since (Mark.isClaim w) log

/-- A mark that is no claim of the worker does not forget an enrichment. -/
theorem enrichedSinceClaim_snoc {log : List Mark} {w : WorkerId} {m : MessageId} {e : Mark}
    (he : e.isClaim w = false) : EnrichedSinceClaim (log ++ [e]) w m ↔
      (∃ v, e = .enriched m v) ∨ EnrichedSinceClaim log w m := by
  simp only [EnrichedSinceClaim, since_snoc_of_neg he, List.mem_cons, exists_or]
  simp only [eq_comm]

/-- After a claim nothing has been enriched since. -/
theorem not_enrichedSinceClaim_claimed (log : List Mark) (w : WorkerId) (m : MessageId) :
    ¬ EnrichedSinceClaim (log ++ [.claimed w]) w m := by
  rintro ⟨v, hv⟩
  rw [since_snoc_of_pos (by simp [Mark.isClaim])] at hv
  exact absurd hv List.not_mem_nil

/-- An action is a claim, or it stores an enrichment, or it leaves no mark. -/
theorem marks_cases (s : World) (a : Action) :
    (∃ w t₀ picks, a = .worker w (.claim t₀ picks) ∧ marks s a = [.claimed w]) ∨
      (∃ m v, storing s.intake a = some (m, v) ∧ marks s a = [.enriched m v]) ∨
      (storing s.intake a = none ∧ marks s a = []) := by
  unfold marks
  split
  · exact Or.inl ⟨_, _, _, rfl, rfl⟩
  · cases hst : storing s.intake a with
    | none => exact Or.inr (Or.inr ⟨rfl, rfl⟩)
    | some p => exact Or.inr (Or.inl ⟨p.1, p.2, rfl, rfl⟩)

/-- The mark of an enrichment is made by the step that stores it. -/
theorem storing_of_mem_marks {s : World} {a : Action} {m : MessageId} {v : Json}
    (h : Mark.enriched m v ∈ marks s a) : storing s.intake a = some (m, v) := by
  obtain ⟨_, _, _, _, hmarks⟩ | ⟨_, _, hst, hmarks⟩ | ⟨_, hmarks⟩ := marks_cases s a
  · rw [hmarks] at h
    cases List.mem_singleton.1 h
  · rw [hmarks] at h
    cases List.mem_singleton.1 h
    exact hst
  · rw [hmarks] at h
    exact absurd h List.not_mem_nil

/-! ## What the claims have loaded -/

/-- The snapshot of a row that worker `w` has claimed and not posted: it has the enrichment of
the event row, or none when the event was enriched after the claim. -/
structure Loaded (s : Intake) (log : List Mark) (w : WorkerId) (x : Snapshot) : Prop where
  messageId : x.event.messageId = x.attempt.messageId
  recorded : x.event.messageId ∈ s.ids
  current : ¬ EnrichedSinceClaim log w x.event.messageId → ∀ k ∈ s.keys,
    k.messageId = x.event.messageId → x.event.enrichedPayload = k.enrichedPayload
  stale : EnrichedSinceClaim log w x.event.messageId → x.event.enrichedPayload = none

structure LoadInv (s : World) (log : List Mark) : Prop where
  carries : ∀ m v, Mark.enriched m v ∈ log → Carries s.intake m v
  snapshot : ∀ w, ∀ x ∈ WorkerPhase.unposted (s.delivery.workers w).phase,
    Loaded s.intake log w x

section
variable {cfg : Settings} {s s' : World} {log : List Mark} {a : Action} {w : WorkerId}
  {x : Snapshot}

/-- A step that stores no enrichment of the event of `x` leaves its row as enriched as before. -/
theorem Loaded.kept (hintake : IntakeInv cfg s.intake) (honce : EnrichedOnce s.intake)
    (h : Loaded s.intake log w x)
    (hst : ∀ v, storing s.intake a ≠ some (x.event.messageId, v))
    (hsince : EnrichedSinceClaim (log ++ marks s a) w x.event.messageId ↔
      EnrichedSinceClaim log w x.event.messageId)
    (hs : step cfg s a = some s') : Loaded s'.intake (log ++ marks s a) w x := by
  have hkeys := keysStep_of_step hs
  refine ⟨h.messageId, hkeys.ids_subset h.recorded, fun hn k' hk' hid => ?_,
    fun hy => h.stale (hsince.1 hy)⟩
  obtain ⟨k, hk, hrow⟩ | ⟨t, ev, _, _, _, hh, rfl⟩ := hkeys.of_mem hk'
  · have hkid : k.messageId = x.event.messageId := hrow.messageId.symm.trans hid
    obtain hkeep | ⟨_, v, hst', _⟩ := rowStep_enrichedPayload honce hrow
    · rw [hkeep]
      exact h.current (fun hy => hn (hsince.2 hy)) k hk hkid
    · rw [hkid] at hst'
      exact absurd hst' (hst v)
  · -- The new row has a message that was not recorded.
    have hnew : ev.messageId ∉ s.intake.ids := hintake.open_new t _ (by rw [hh]; rfl)
    have hevent : ev.messageId = x.event.messageId := hid
    rw [hevent] at hnew
    exact absurd h.recorded hnew

/-- When the event of `x` is enriched, the snapshot has no enrichment and does not get it. -/
theorem Loaded.enriched {v : Json} (honce : EnrichedOnce s.intake)
    (h : Loaded s.intake log w x) (hst : storing s.intake a = some (x.event.messageId, v))
    (hmarks : marks s a = [.enriched x.event.messageId v]) (hs : step cfg s a = some s') :
    Loaded s'.intake (log ++ marks s a) w x := by
  have hsince : EnrichedSinceClaim (log ++ marks s a) w x.event.messageId := by
    rw [hmarks, enrichedSinceClaim_snoc rfl]
    exact Or.inl ⟨v, rfl⟩
  refine ⟨h.messageId, (keysStep_of_step hs).ids_subset h.recorded,
    fun hn => absurd hsince hn, fun _ => ?_⟩
  by_cases hold : EnrichedSinceClaim log w x.event.messageId
  · exact h.stale hold
  · obtain ⟨t, _, _, _, hh⟩ := storeLoaded_of_storing hst
    have hown : (s.intake.handlers t).owns = some x.event.messageId := by rw [hh]; rfl
    obtain ⟨k, hk, hid⟩ := List.mem_map.1 h.recorded
    rw [h.current hold k hk hid]
    exact honce.owned t _ hown k hk hid

/-- What a worker has loaded stays what the marks say, until it claims again.
SOURCE: app/delivery/worker.py:72-79 -/
theorem Loaded.step (hintake : IntakeInv cfg s.intake) (honce : EnrichedOnce s.intake)
    (h : Loaded s.intake log w x) (ha : ∀ t₀ picks, a ≠ .worker w (.claim t₀ picks))
    (hs : Program.step cfg s a = some s') : Loaded s'.intake (log ++ marks s a) w x := by
  obtain ⟨w', t₀, picks, rfl, hmarks⟩ | ⟨m, v, hst, hmarks⟩ | ⟨hst, hmarks⟩ := marks_cases s a
  · have hne : w' ≠ w := fun heq => ha t₀ picks (by rw [heq])
    refine h.kept hintake honce (fun v => by simp [storing]) ?_ hs
    rw [hmarks, enrichedSinceClaim_snoc (by simp [Mark.isClaim, hne])]
    simp
  · by_cases hm : m = x.event.messageId
    · subst hm
      exact h.enriched honce hst hmarks hs
    · refine h.kept hintake honce (fun v' => by simp [hst, hm]) ?_ hs
      rw [hmarks, enrichedSinceClaim_snoc rfl]
      simp [hm]
  · exact h.kept hintake honce (fun v => by simp [hst]) (by rw [hmarks, List.append_nil]) hs

/-- A worker that claims was idle. -/
theorem idle_of_claim {t₀ : Time} {picks : List Uuid}
    (hs : step cfg s (.worker w (.claim t₀ picks)) = some s') :
    (s.delivery.workers w).phase = .idle := by
  cases worldStep_of_eq_some hs with
  | worker h =>
    cases h with
    | claim hph _ _ _ _ _ => exact hph

/-- One step keeps what the snapshots say of the enrichments. SOURCE: app/delivery/worker.py:72-79
-/
theorem loadInv_step (hintake : IntakeInv cfg s.intake) (honce : EnrichedOnce s.intake)
    (hinv : LoadInv s log) (hs : step cfg s a = some s') : LoadInv s' (log ++ marks s a) := by
  constructor
  · intro m v hmem
    obtain hlog | hnew := List.mem_append.1 hmem
    · exact (hinv.carries m v hlog).step honce hs
    · exact carries_of_store hintake honce (storing_of_mem_marks hnew) hs
  · intro w x hx
    obtain hx | ⟨⟨t₀, picks, rfl⟩, hkeep, id, hsnap⟩ := unposted_of_step hs hx
    · refine (hinv.snapshot w x hx).step hintake honce (fun t₀ picks heq => ?_) hs
      -- A worker that claims has nothing left to post.
      subst heq
      rw [idle_of_claim hs] at hx
      exact absurd hx List.not_mem_nil
    · obtain ⟨_, _, hk, hid⟩ := of_snapshotOf hsnap
      have hsince := not_enrichedSinceClaim_claimed log w x.event.messageId
      rw [hkeep]
      refine ⟨hid, List.mem_map_of_mem hk, fun _ k hk' hkid => ?_, fun hy => absurd hy hsince⟩
      rw [eq_of_key_eq hintake.ids_nodup hk' hk hkid]

/-- What the snapshots say of the enrichments holds after every run. -/
theorem loadInv_of_run {as : List Action} (h : run (Program.step cfg) World.init as = some s) :
    LoadInv s (marksOf cfg as) := by
  refine history_induct (I := LoadInv) ?_ ?_ h
  · refine ⟨fun _ _ hmem => ?_, fun _ _ hx => ?_⟩
    · exact absurd hmem List.not_mem_nil
    · exact absurd hx List.not_mem_nil
  · intro s log a s' hreach hinv hs
    exact loadInv_step (intakeInv_of_reachable hreach) (enrichedOnce_of_reachable hreach) hinv hs

end

/-! ## The result -/

/-- Every POST that starts after the commit of an enrichment of its message carries that
enrichment. SOURCE: app/delivery/worker.py:101-123, app/consumer/rabbitmq.py:184-195 -/
def PostsCurrent (cfg : Settings) (as : List Action) : Prop :=
  ∀ as₁ a as₂ s s' p v, as = as₁ ++ a :: as₂ → run (step cfg) World.init as₁ = some s →
    step cfg s a = some s' → s'.delivery.posts = s.delivery.posts ++ [p] →
    Mark.enriched p.messageId v ∈ marksOf cfg as₁ → p.payload = v

/-- Whenever a worker is about to post a row of a message that was enriched with `v`, its last
claim comes after that commit and `v` is not an empty dict; or `v` is the raw payload itself.
SOURCE: app/delivery/worker.py:63-98,120 -/
def ClaimedAfterCommit (cfg : Settings) (as : List Action) : Prop :=
  ∀ as₁ w as₂ s x sub todo v, as = as₁ ++ .worker w .post :: as₂ →
    run (step cfg) World.init as₁ = some s →
    (s.delivery.workers w).phase = .fetched x (some sub) todo →
    Mark.enriched x.attempt.messageId v ∈ marksOf cfg as₁ →
    (¬ EnrichedSinceClaim (marksOf cfg as₁) w x.attempt.messageId ∧ v.truthy = true) ∨
      x.event.rawPayload = v

/-- What a snapshot delivers when its event has the enrichment `v`. -/
theorem deliveredPayload_eq_iff {s : World} {log : List Mark} {w : WorkerId} {x : Snapshot}
    {v : Json} (h : Loaded s.intake log w x) (hv : Carries s.intake x.event.messageId v) :
    deliveredPayload x.event = v ↔
      (¬ EnrichedSinceClaim log w x.event.messageId ∧ v.truthy = true) ∨
        x.event.rawPayload = v := by
  by_cases hsince : EnrichedSinceClaim log w x.event.messageId
  · simp [deliveredPayload, h.stale hsince, hsince]
  · obtain ⟨k, hk, hid, hkv⟩ := hv
    have hloaded : x.event.enrichedPayload = some v := (h.current hsince k hk hid).trans hkv
    by_cases ht : v.truthy = true
    · simp [deliveredPayload, hloaded, hsince, ht]
    · simp [deliveredPayload, hloaded, ht]

/-- In a run, every POST carries the enrichment that was committed before it if and only if
the worker's claim of the row was made after that commit.
SOURCE: app/delivery/worker.py:58-123, app/consumer/rabbitmq.py:184-195 -/
theorem posts_current_iff (cfg : Settings) (as : List Action) (s : World)
    (h : run (step cfg) World.init as = some s) :
    PostsCurrent cfg as ↔ ClaimedAfterCommit cfg as := by
  have hpost : ∀ as₁ m w x sub todo v, run (step cfg) World.init as₁ = some m →
      (m.delivery.workers w).phase = .fetched x (some sub) todo →
      Mark.enriched x.attempt.messageId v ∈ marksOf cfg as₁ →
      (deliveredPayload x.event = v ↔
        (¬ EnrichedSinceClaim (marksOf cfg as₁) w x.attempt.messageId ∧ v.truthy = true) ∨
          x.event.rawPayload = v) := by
    intro as₁ m w x sub todo v hrun hph hmem
    have hinv := loadInv_of_run hrun
    have hloaded : Loaded m.intake (marksOf cfg as₁) w x := by
      refine hinv.snapshot w x ?_
      rw [hph]
      exact List.mem_cons_self
    have hcarries := hinv.carries _ v hmem
    rw [← hloaded.messageId] at hcarries ⊢
    exact deliveredPayload_eq_iff hloaded hcarries
  constructor
  · intro hcurrent as₁ w as₂ m x sub todo v heq hrun hph hmem
    rw [heq] at h
    obtain ⟨m', hrun', hrest⟩ := run_append_eq_some.1 h
    obtain ⟨s', hs, _⟩ := run_cons_eq_some.1 hrest
    obtain rfl : m = m' := Option.some.inj (hrun.symm.trans hrun')
    refine (hpost as₁ m w x sub todo v hrun hph hmem).1 ?_
    have hposts : s'.delivery.posts = m.delivery.posts ++ [postOf x sub] := by
      cases worldStep_of_eq_some hs with
      | worker hstep =>
        cases hstep with
        | post hph' _ =>
          rw [hph] at hph'
          cases hph'
          rfl
    exact hcurrent as₁ _ as₂ m s' (postOf x sub) v heq hrun hs hposts hmem
  · intro hclaimed as₁ a as₂ m s' p v heq hrun hs hp hmem
    obtain ⟨w, x, sub, todo, rfl, hph, _, rfl⟩ := post_of_step hs hp
    exact (hpost as₁ m w x sub todo v hrun hph hmem).2
      (hclaimed as₁ w as₂ m x sub todo v heq hrun hph hmem)

/-! ## Concrete histories -/

def enrichedPing : List (PyStr × Json) := [(py "_enrichment", .str (py "x"))]

/-- The call has an enrichment and is about to store it. -/
def enrichmentLoaded : List Action :=
  oneAttempt ++ [.handler 0 (.enrich (.result enrichedPing)), .handler 0 .load]

def claimAndFetch : List Action := claimBatch 0 0 [⟨3⟩] ++ [.worker 0 .fetch]

def storedThenFetched : List Action :=
  enrichmentLoaded ++ .handler 0 .write :: claimAndFetch

theorem storedThenFetched_enabled :
    (run (step .default) World.init storedThenFetched).isSome = true := by decide

def fetchedAfterStore : World :=
  (run (step .default) World.init storedThenFetched).get storedThenFetched_enabled

theorem post_enabled : (step .default fetchedAfterStore (.worker 0 .post)).isSome = true := by
  decide

/-- The enrichment is stored before the claim. -/
theorem marksOf_storedThenFetched :
    marksOf .default storedThenFetched =
      [.enriched (py "m") (.obj enrichedPing)] ++ [.claimed 0] := rfl

/-- The only POST of the run is its last action. -/
theorem posts_current_iff_claimAfterStore :
    PostsCurrent .default (storedThenFetched ++ [.worker 0 .post]) := by
  have hrun := (Option.some_get storedThenFetched_enabled).symm
  have hpost := (Option.some_get post_enabled).symm
  refine (posts_current_iff .default _ _ (run_append_eq_some.2
    ⟨_, hrun, run_cons_eq_some.2 ⟨_, hpost, rfl⟩⟩)).2 ?_
  intro as₁ w as₂ _ _ _ _ v heq _ _ hmem
  have hnotin : Action.worker w .post ∉ storedThenFetched := by
    simp [storedThenFetched, enrichmentLoaded, oneAttempt, acceptance, claimAndFetch, claimBatch]
  obtain ⟨rfl, hw, _⟩ := (List.append_cons_inj_of_notMem hnotin List.not_mem_nil).1 heq
  cases hw
  rw [marksOf_storedThenFetched] at hmem ⊢
  refine Or.inl ⟨not_enrichedSinceClaim_claimed _ _ _, ?_⟩
  obtain hm | hm := List.mem_append.1 hmem
  · obtain ⟨_, rfl⟩ := Mark.enriched.inj (List.mem_singleton.1 hm)
    rfl
  · cases List.mem_singleton.1 hm

/-- The worker claims the row, and the enrichment is committed before the row is posted. -/
def claimedThenStored : List Action :=
  enrichmentLoaded ++ claimBatch 0 0 [⟨3⟩] ++ [.handler 0 .write, .worker 0 .fetch]

theorem claimedThenStored_enabled :
    (run (step .default) World.init claimedThenStored).isSome = true := by decide

def fetchedBeforeStore : World :=
  (run (step .default) World.init claimedThenStored).get claimedThenStored_enabled

theorem stalePost_enabled :
    (step .default fetchedBeforeStore (.worker 0 .post)).isSome = true := by decide

/-- The POST that starts after the commit of the enrichment carries the raw payload.
SOURCE: app/delivery/worker.py:63-98,120 -/
theorem posts_stale_payload :
    ¬ ∀ (as : List Action) (s : World), run (step .default) World.init as = some s →
      PostsCurrent .default as := by
  intro h
  have hrun : run (step .default) World.init claimedThenStored = some fetchedBeforeStore :=
    (Option.some_get claimedThenStored_enabled).symm
  have hpost := (Option.some_get stalePost_enabled).symm
  have hcurrent := h (claimedThenStored ++ [.worker 0 .post]) _ (run_append_eq_some.2
    ⟨_, hrun, run_cons_eq_some.2 ⟨_, hpost, rfl⟩⟩)
  have hmarks : marksOf .default claimedThenStored =
      [.claimed 0, .enriched (py "m") (.obj enrichedPing)] := rfl
  have hpayload := hcurrent claimedThenStored _ [] _ _ _ (.obj enrichedPing) rfl hrun hpost rfl
    (hmarks ▸ List.mem_cons_of_mem _ List.mem_cons_self)
  cases hpayload

end EventPipeline.Analysis
