import EventPipeline.Interface.SystemSteps

/-!
# One attempt row in one step

`AttemptsStep` is about the table; `AttemptStep` follows one row of it.
-/

set_option autoImplicit false

namespace EventPipeline.Interface

open EventPipeline.Model EventPipeline.Program EventPipeline.Computation

/-- How one row may change in one step. SOURCE: app/delivery/worker.py:36-55,83-89,109-117,160-174,
app/api/deliveries.py:65-69 -/
inductive AttemptStep (cfg : Settings) (s : World) :
    Action → DeliveryAttempt → DeliveryAttempt → Prop
  | same {a : Action} {row : DeliveryAttempt} : AttemptStep cfg s a row row
  | mark {w : WorkerId} {t₀ : Time} {picked : List Snapshot} {row : DeliveryAttempt}
      (hph : (s.delivery.workers w).phase = .claiming t₀ picked)
      (hid : row.id ∈ picked.map fun a => a.attempt.id) :
      AttemptStep cfg s (.worker w .claimCommit) row { row with status := .inFlight, updatedAt := t₀ }
  | close {w : WorkerId} {a : Snapshot} {sub : Option Subscriber} {todo : List Snapshot}
      {row : DeliveryAttempt} (hph : (s.delivery.workers w).phase = .fetched a sub todo)
      (hl : row.id ∉ s.delivery.locked) (hid : row.id = a.attempt.id) :
      AttemptStep cfg s (.worker w .close) row
        { row with status := .dead, lastError := some inactiveError, updatedAt := s.now }
  | writeBack {w : WorkerId} {a : Snapshot} {r : DeliveryResult} {at' : Time} {k : Draw}
      {todo : List Snapshot} {u : FinalUpdate} {row : DeliveryAttempt}
      (hph : (s.delivery.workers w).phase = .posted a r at' todo)
      (hl : row.id ∉ s.delivery.locked) (hid : row.id = a.attempt.id)
      (hu : finalUpdate cfg a.attempt r at' k = some u) :
      AttemptStep cfg s (.worker w (.writeBack k)) row (u.apply a.attempt r at' row)
  | reset {w : WorkerId} {t₀ : Time} {row : DeliveryAttempt}
      (hst : staleInFlight cfg t₀ row = true) :
      AttemptStep cfg s (.worker w (.resetStale t₀)) row
        { row with
          status := .failed, lastError := some resetError, nextAttemptAt := t₀, updatedAt := t₀ }
  | retry {r : RequestId} {a row : DeliveryAttempt} (hr : s.delivery.retries r = .loaded a)
      (hl : row.id ∉ s.delivery.locked) (hid : row.id = a.id) :
      AttemptStep cfg s (.retry r .commit) row (retryRow a s.now row)

/-- A row that the commit of an event inserts. SOURCE: app/consumer/rabbitmq.py:74-93 -/
structure NewAttempt (s : World) (row : DeliveryAttempt) : Prop where
  selected : ∃ t ev receivedAt seen,
    s.intake.handlers t = .selected ev receivedAt seen row.nextAttemptAt
  status : row.status = .pending
  attemptCount : row.attemptCount = 0
  updatedAt : row.updatedAt = s.now

section
variable {cfg : Settings} {s : World} {a : Action} {attempts : List DeliveryAttempt}

/-- No step changes what identifies a row. -/
theorem AttemptStep.identity {row row' : DeliveryAttempt} (h : AttemptStep cfg s a row row') :
    row'.id = row.id ∧ row'.messageId = row.messageId ∧ row'.subscriberId = row.subscriberId := by
  cases h <;> exact ⟨rfl, rfl, rfl⟩

/-- An UPDATE of some rows, seen from one of them. -/
theorem attemptStep_update {p : DeliveryAttempt → Prop} [DecidablePred p]
    {f : DeliveryAttempt → DeliveryAttempt} {row : DeliveryAttempt}
    (h : p row → AttemptStep cfg s a row (f row)) :
    AttemptStep cfg s a row (if p row then f row else row) := by
  by_cases hp : p row
  · rw [if_pos hp]
    exact h hp
  · rw [if_neg hp]
    exact .same

/-- The rows after a step: the versions of the rows before it, then the rows of a new event. -/
theorem AttemptsStep.rows (h : AttemptsStep cfg s a attempts) :
    ∃ f new, attempts = s.delivery.attempts.map f ++ new ∧
      (∀ row, AttemptStep cfg s a row (f row)) ∧
      (∀ row ∈ new, NewAttempt s row) ∧
      (new ≠ [] → (attempts.map DeliveryAttempt.id).Nodup) := by
  have hupd : ∀ (p : DeliveryAttempt → Prop) (_ : DecidablePred p)
      (f : DeliveryAttempt → DeliveryAttempt),
      (∀ row, p row → AttemptStep cfg s a row (f row)) →
      ∃ g new, updateWhere p f s.delivery.attempts = s.delivery.attempts.map g ++ new ∧
        (∀ row, AttemptStep cfg s a row (g row)) ∧ (∀ row ∈ new, NewAttempt s row) ∧
        (new ≠ [] → ((updateWhere p f s.delivery.attempts).map DeliveryAttempt.id).Nodup) :=
    fun p _ f hf => ⟨_, [], (List.append_nil _).symm, fun row => attemptStep_update (hf row), nofun,
      fun h => absurd rfl h⟩
  cases h with
  | same =>
    exact ⟨id, [], by rw [List.map_id, List.append_nil], fun _ => .same, nofun,
      fun h => absurd rfl h⟩
  | insert hh hlen hins =>
    unfold insertAttempts at hins
    split at hins
    · rename_i hn
      cases hins
      refine ⟨id, _, by rw [List.map_id], fun _ => .same, fun row hrow => ?_, fun _ => hn.1⟩
      obtain ⟨_, _, rfl⟩ := List.mem_map.1 hrow
      exact ⟨⟨_, _, _, _, hh⟩, rfl, rfl, rfl⟩
    · cases hins
  | mark hph => exact hupd _ _ _ fun row hid => .mark hph hid
  | close hph hl => exact hupd _ _ _ fun row hid => .close hph (hid ▸ hl) hid
  | writeBack hph hl hu => exact hupd _ _ _ fun row hid => .writeBack hph (hid ▸ hl) hid hu
  | reset => exact hupd _ _ _ fun row hst => .reset hst
  | retry hr hl => exact hupd _ _ _ fun row hid => .retry hr (hid ▸ hl) hid

/-- Every row before the step has a version after it. -/
theorem AttemptsStep.exists_row (h : AttemptsStep cfg s a attempts) {row : DeliveryAttempt}
    (hrow : row ∈ s.delivery.attempts) :
    ∃ row' ∈ attempts, AttemptStep cfg s a row row' := by
  obtain ⟨f, new, rfl, hf, _⟩ := h.rows
  exact ⟨f row, List.mem_append_left _ (List.mem_map_of_mem hrow), hf row⟩

/-- A row after the step is the version of a row before it, or a row with a new id. -/
theorem AttemptsStep.of_mem (h : AttemptsStep cfg s a attempts) {row' : DeliveryAttempt}
    (hrow : row' ∈ attempts) :
    (∃ row ∈ s.delivery.attempts, AttemptStep cfg s a row row') ∨
      (NewAttempt s row' ∧ row'.id ∉ s.delivery.attempts.map DeliveryAttempt.id) := by
  obtain ⟨f, new, rfl, hf, hnew, hn⟩ := h.rows
  obtain hold | hin := List.mem_append.1 hrow
  · obtain ⟨row, hmem, rfl⟩ := List.mem_map.1 hold
    exact Or.inl ⟨row, hmem, hf row⟩
  · refine Or.inr ⟨hnew row' hin, fun hid => ?_⟩
    obtain ⟨row, hmem, hid⟩ := List.mem_map.1 hid
    have hnodup := hn (List.ne_nil_of_mem hin)
    rw [List.map_append] at hnodup
    have hfid : row'.id ∈ (s.delivery.attempts.map f).map DeliveryAttempt.id := by
      rw [← hid, ← (hf row).identity.1]
      exact List.mem_map_of_mem (List.mem_map_of_mem hmem)
    exact (List.nodup_append.1 hnodup).2.2 _ hfid _ (List.mem_map_of_mem hin) rfl

/-- The ids stay unique. -/
theorem AttemptsStep.ids_nodup (h : AttemptsStep cfg s a attempts)
    (hn : (s.delivery.attempts.map DeliveryAttempt.id).Nodup) :
    (attempts.map DeliveryAttempt.id).Nodup := by
  obtain ⟨f, new, rfl, hf, _, hnew⟩ := h.rows
  by_cases hnil : new = []
  · subst hnil
    rw [List.append_nil, List.map_map]
    have hcongr : s.delivery.attempts.map (DeliveryAttempt.id ∘ f) =
        s.delivery.attempts.map DeliveryAttempt.id :=
      List.map_congr_left fun row _ => (hf row).identity.1
    rwa [hcongr]
  · exact hnew hnil

end

/-! ## What identifies a row -/

/-- The table has a row with this id, and it is for this message and subscriber. -/
def HasRow (attempts : List DeliveryAttempt) (id : Uuid) (pair : MessageId × Uuid) : Prop :=
  ∃ row ∈ attempts, row.id = id ∧ row.pair = pair

/-- No step rewrites the identifying columns. SOURCE: app/db/models.py:67-83 -/
theorem HasRow.step {cfg : Settings} {s s' : World} {a : Action} {id : Uuid}
    {pair : MessageId × Uuid} (h : HasRow s.delivery.attempts id pair)
    (hs : Program.step cfg s a = some s') : HasRow s'.delivery.attempts id pair := by
  obtain ⟨row, hrow, rfl, rfl⟩ := h
  obtain ⟨row', hrow', hstep⟩ := (attemptsStep_of_step hs).exists_row hrow
  obtain ⟨hid, hmessage, hsubscriber⟩ := hstep.identity
  exact ⟨row', hrow', hid, Prod.ext hmessage hsubscriber⟩

/-! ## The rows that an action writes without looking at them again -/

/-- The row whose final update the action commits. SOURCE: app/delivery/worker.py:109-117,160-174 -/
def finalises (d : Delivery) : Action → List Uuid
  | .worker w .close =>
    match (d.workers w).phase with
    | .fetched a _ _ => [a.attempt.id]
    | _ => []
  | .worker w (.writeBack _) =>
    match (d.workers w).phase with
    | .posted a _ _ _ => [a.attempt.id]
    | _ => []
  | _ => []

/-- The row that a `retry_delivery` call commits. SOURCE: app/api/deliveries.py:65-69 -/
def retried (d : Delivery) : Action → List Uuid
  | .retry r .commit =>
    match d.retries r with
    | .loaded a => [a.id]
    | .idle => []
  | _ => []

end EventPipeline.Interface
