import EventPipeline.Interface.SystemSteps

/-!
# One key row in one step

`KeysStep` is about the table; `RowStep` follows one row of it. A row that is there after a
step is a new row, or a row that was there before in one of four versions: untouched, with
the enrichment stored, with the error text stored, or as a cycle flushed it.
-/

set_option autoImplicit false

namespace EventPipeline.Interface

open EventPipeline.Model EventPipeline.Program EventPipeline.Computation

/-! ## The flush of a cycle, row by row -/

/-- What one change does to a row. SOURCE: app/consumer/rabbitmq.py:229-233,254 -/
def KeyWrite.apply : KeyWrite → IdempotencyKey → IdempotencyKey
  | .abandoned m e, k =>
    if k.messageId = m then { k with status := .failed, error := some e } else k
  | .counted m n, k => if k.messageId = m then { k with reconcileCount := n } else k

def flushRow (dirty : List KeyWrite) (k : IdempotencyKey) : IdempotencyKey :=
  dirty.foldl (fun k w => KeyWrite.apply w k) k

/-- A flush writes each row on its own. -/
theorem flush_eq_map (w : KeyWrite) (keys : List IdempotencyKey) :
    Program.KeyWrite.flush w keys = keys.map (KeyWrite.apply w) := by
  cases w <;> rfl

/-- The flush of a session writes each row on its own. -/
theorem flushWrites_eq_map (dirty : List KeyWrite) (keys : List IdempotencyKey) :
    flushWrites dirty keys = keys.map (flushRow dirty) := by
  unfold flushWrites
  induction dirty generalizing keys with
  | nil => exact (List.map_id' keys).symm
  | cons w dirty ih =>
    rw [List.foldl_cons, ih, flush_eq_map, List.map_map]
    rfl

section
variable (dirty : List KeyWrite) (k : IdempotencyKey)

/-- What no single write changes the whole flush keeps. -/
theorem flushRow_keeps {α : Type} (g : IdempotencyKey → α)
    (hg : ∀ w k, g (KeyWrite.apply w k) = g k) : g (flushRow dirty k) = g k := by
  unfold flushRow
  induction dirty generalizing k with
  | nil => rfl
  | cons w dirty ih => rw [List.foldl_cons, ih, hg]

/-- The reconciler never writes the id. SOURCE: app/consumer/rabbitmq.py:219-254 -/
@[simp] theorem flushRow_messageId : (flushRow dirty k).messageId = k.messageId :=
  flushRow_keeps dirty k _ fun w k => by cases w <;> simp only [KeyWrite.apply] <;> split <;> rfl

/-- The reconciler never writes the type. SOURCE: app/consumer/rabbitmq.py:219-254 -/
@[simp] theorem flushRow_eventType : (flushRow dirty k).eventType = k.eventType :=
  flushRow_keeps dirty k _ fun w k => by cases w <;> simp only [KeyWrite.apply] <;> split <;> rfl

/-- The reconciler never writes the payload. SOURCE: app/consumer/rabbitmq.py:219-254 -/
@[simp] theorem flushRow_rawPayload : (flushRow dirty k).rawPayload = k.rawPayload :=
  flushRow_keeps dirty k _ fun w k => by cases w <;> simp only [KeyWrite.apply] <;> split <;> rfl

/-- The reconciler never writes an enrichment. SOURCE: app/consumer/rabbitmq.py:219-254 -/
@[simp] theorem flushRow_enrichedPayload : (flushRow dirty k).enrichedPayload = k.enrichedPayload :=
  flushRow_keeps dirty k _ fun w k => by cases w <;> simp only [KeyWrite.apply] <;> split <;> rfl

/-- The reconciler never writes the time of receipt. SOURCE: app/consumer/rabbitmq.py:219-254 -/
@[simp] theorem flushRow_receivedAt : (flushRow dirty k).receivedAt = k.receivedAt :=
  flushRow_keeps dirty k _ fun w k => by cases w <;> simp only [KeyWrite.apply] <;> split <;> rfl

/-- The reconciler never writes the time of enrichment. SOURCE: app/consumer/rabbitmq.py:219-254 -/
@[simp] theorem flushRow_enrichedAt : (flushRow dirty k).enrichedAt = k.enrichedAt :=
  flushRow_keeps dirty k _ fun w k => by cases w <;> simp only [KeyWrite.apply] <;> split <;> rfl

/-- The count after the flush depends on the count before it and on nothing else. -/
theorem flushRow_reconcileCount_congr {k k' : IdempotencyKey} (hid : k.messageId = k'.messageId)
    (hcount : k.reconcileCount = k'.reconcileCount) :
    (flushRow dirty k).reconcileCount = (flushRow dirty k').reconcileCount := by
  unfold flushRow
  induction dirty generalizing k k' with
  | nil => exact hcount
  | cons w dirty ih =>
    rw [List.foldl_cons, List.foldl_cons]
    refine ih ?_ ?_
    · cases w <;> simp only [KeyWrite.apply, hid] <;> split <;> first | rfl | exact hid
    · cases w <;> simp only [KeyWrite.apply, hid] <;> split <;> first | rfl | exact hcount

/-- A cycle that has counted nothing keeps the count. -/
theorem flushRow_reconcileCount_of_abandoned (h : ∀ m n, KeyWrite.counted m n ∉ dirty) :
    (flushRow dirty k).reconcileCount = k.reconcileCount := by
  unfold flushRow
  induction dirty generalizing k with
  | nil => rfl
  | cons w dirty ih =>
    rw [List.foldl_cons, ih _ fun m n hmem => h m n (List.mem_cons_of_mem _ hmem)]
    cases w with
    | abandoned m e =>
      simp only [KeyWrite.apply]
      split <;> rfl
    | counted m n => exact absurd List.mem_cons_self (h m n)

/-- The last write of a flush comes after the others. -/
theorem flushRow_append (w : KeyWrite) :
    flushRow (dirty ++ [w]) k = KeyWrite.apply w (flushRow dirty k) := by
  unfold flushRow
  rw [List.foldl_append]
  rfl

/-- A cycle leaves the rows alone that it has not changed. -/
theorem flushRow_of_not_mem (h : k.messageId ∉ dirty.map KeyWrite.messageId) :
    flushRow dirty k = k := by
  unfold flushRow
  induction dirty generalizing k with
  | nil => rfl
  | cons w dirty ih =>
    rw [List.map_cons, List.mem_cons, not_or] at h
    have hw : KeyWrite.apply w k = k := by
      cases w <;> exact if_neg h.1
    rw [List.foldl_cons, hw]
    exact ih k h.2

/-- A cycle that changes every row at most once applies the change of the row. -/
theorem flushRow_of_mem (hn : (dirty.map KeyWrite.messageId).Nodup) {w : KeyWrite}
    (hw : w ∈ dirty) (hid : w.messageId = k.messageId) : flushRow dirty k = KeyWrite.apply w k := by
  induction dirty generalizing k with
  | nil => cases hw
  | cons v dirty ih =>
    have hv : (KeyWrite.apply v k).messageId = k.messageId := by
      cases v <;> simp only [KeyWrite.apply] <;> split <;> rfl
    rw [List.map_cons, List.nodup_cons] at hn
    show flushRow dirty (KeyWrite.apply v k) = _
    obtain rfl | hw := List.mem_cons.1 hw
    · refine flushRow_of_not_mem dirty _ ?_
      rw [hv, ← hid]
      exact hn.1
    · have hne : k.messageId ≠ v.messageId := fun heq =>
        hn.1 (heq ▸ hid ▸ List.mem_map_of_mem hw)
      have hsame : KeyWrite.apply v k = k := by
        cases v <;> exact if_neg hne
      rw [hsame]
      exact ih k hn.2 hw hid

/-- The status is kept, or the cycle has abandoned the event. -/
theorem flushRow_status : (flushRow dirty k).status = k.status ∨
    ((flushRow dirty k).status = .failed ∧ ∃ e, KeyWrite.abandoned k.messageId e ∈ dirty) := by
  unfold flushRow
  induction dirty generalizing k with
  | nil => exact Or.inl rfl
  | cons w dirty ih =>
    rw [List.foldl_cons]
    have hid : (KeyWrite.apply w k).messageId = k.messageId := by
      cases w <;> simp only [KeyWrite.apply] <;> split <;> rfl
    obtain hkeep | ⟨hfail, e, he⟩ := ih (KeyWrite.apply w k)
    · rw [hkeep]
      cases w with
      | abandoned m e =>
        simp only [KeyWrite.apply]
        split
        · rename_i hm
          exact Or.inr ⟨rfl, e, hm ▸ List.mem_cons_self⟩
        · exact Or.inl rfl
      | counted m n =>
        simp only [KeyWrite.apply]
        split <;> exact Or.inl rfl
    · rw [hid] at he
      exact Or.inr ⟨hfail, e, List.mem_cons_of_mem _ he⟩

end

/-! ## One row -/

/-- How one row may change in one step from `s` to `s'`. -/
inductive RowStep (s s' : Intake) : Action → IdempotencyKey → IdempotencyKey → Prop
  | same {a : Action} {k : IdempotencyKey} : RowStep s s' a k k
  | store {t : Tag} {enriched : Json} {at' : Time} {ik k : IdempotencyKey}
      (hh : s.handlers t = .storeLoaded k.messageId enriched at' ik)
      (ht : s'.handlers t = .idle) :
      RowStep s s' (.handler t .write) k (storeEnrichment ik enriched at' k)
  | record {t : Tag} {error : PyStr} {ik k : IdempotencyKey}
      (hh : s.handlers t = .recordLoaded k.messageId error ik) :
      RowStep s s' (.handler t .write) k (storeError ik error k)
  | flush {p : ConsumerId} {dirty : List KeyWrite} {k : IdempotencyKey}
      (hc : s.reconcilers p = .running [] dirty) :
      RowStep s s' (.reconciler p .commit) k (flushRow dirty k)

/-- A flush sets no status but `failed`. -/
theorem status_flushRow_ne {st : EventStatus} {dirty : List KeyWrite} {k : IdempotencyKey}
    (hst : EventStatus.failed ≠ st) (hk : k.status ≠ st) : (flushRow dirty k).status ≠ st := by
  obtain heq | ⟨heq, _⟩ := flushRow_status dirty k
  · rwa [heq]
  · rwa [heq]

/-- A flush takes no error away. -/
theorem error_flushRow_ne {dirty : List KeyWrite} {k : IdempotencyKey} (hk : k.error ≠ none) :
    (flushRow dirty k).error ≠ none := by
  unfold flushRow
  induction dirty generalizing k with
  | nil => exact hk
  | cons w dirty ih =>
    rw [List.foldl_cons]
    refine ih ?_
    cases w with
    | abandoned m e =>
      simp only [KeyWrite.apply]
      split
      · simp
      · exact hk
    | counted m n =>
      simp only [KeyWrite.apply]
      split <;> exact hk

/-- A row becomes enriched by the store of its owner only.
SOURCE: app/consumer/rabbitmq.py:187-195 -/
theorem RowStep.store_of_enriched {s s' : Intake} {a : Action} {k k' : IdempotencyKey}
    (h : RowStep s s' a k k') (hk : k.status ≠ .enriched) (hk' : k'.status = .enriched) :
    ∃ t enriched at' ik, s.handlers t = .storeLoaded k.messageId enriched at' ik ∧
      s'.handlers t = .idle := by
  cases h with
  | store hh ht => exact ⟨_, _, _, _, hh, ht⟩
  | flush _ => exact absurd hk' (status_flushRow_ne nofun hk)
  | _ => exact absurd hk' hk

/-- No version of a row changes its time of receipt. -/
theorem RowStep.receivedAt {s s' : Intake} {a : Action} {k k' : IdempotencyKey}
    (h : RowStep s s' a k k') : k'.receivedAt = k.receivedAt := by
  cases h with
  | flush _ => exact flushRow_receivedAt _ _
  | _ => rfl

/-- No version of a row changes its id. -/
theorem RowStep.messageId {s s' : Intake} {a : Action} {k k' : IdempotencyKey}
    (h : RowStep s s' a k k') : k'.messageId = k.messageId := by
  cases h with
  | flush _ => exact flushRow_messageId _ _
  | _ => rfl

section
variable {s s' : Intake} {a : Action}

/-- A row after the step comes from a row before it, or is the row of a new event. -/
theorem KeysStep.of_mem (h : KeysStep s a s') {k' : IdempotencyKey} (hk' : k' ∈ s'.keys) :
    (∃ k ∈ s.keys, RowStep s s' a k k') ∨
      ∃ t ev receivedAt seen readAt, s.handlers t = .selected ev receivedAt seen readAt ∧
        k' = newKey ev receivedAt := by
  cases h with
  | same hkeys _ =>
    rw [hkeys] at hk'
    exact Or.inl ⟨k', hk', .same⟩
  | insert hh hkeys _ _ =>
    rw [hkeys] at hk'
    obtain hk' | hk' := List.mem_append.1 hk'
    · exact Or.inl ⟨k', hk', .same⟩
    · exact Or.inr ⟨_, _, _, _, _, hh, List.mem_singleton.1 hk'⟩
  | store hh hkeys _ ht =>
    rw [hkeys] at hk'
    obtain ⟨hk, _⟩ | ⟨k, hk, hm, rfl⟩ := of_mem_updateWhere hk'
    · exact Or.inl ⟨k', hk, .same⟩
    · exact Or.inl ⟨k, hk, .store (hm ▸ hh) ht⟩
  | record hh hkeys _ _ =>
    rw [hkeys] at hk'
    obtain ⟨hk, _⟩ | ⟨k, hk, hm, rfl⟩ := of_mem_updateWhere hk'
    · exact Or.inl ⟨k', hk, .same⟩
    · exact Or.inl ⟨k, hk, .record (hm ▸ hh)⟩
  | flush hc hkeys _ =>
    rw [hkeys, flushWrites_eq_map] at hk'
    obtain ⟨k, hk, rfl⟩ := List.mem_map.1 hk'
    exact Or.inl ⟨k, hk, .flush hc⟩

/-- Every row before the step has a version after it. -/
theorem KeysStep.exists_row (h : KeysStep s a s') {k : IdempotencyKey} (hk : k ∈ s.keys) :
    ∃ k' ∈ s'.keys, RowStep s s' a k k' := by
  cases h with
  | same hkeys _ => exact ⟨k, hkeys ▸ hk, .same⟩
  | insert hh hkeys _ _ => exact ⟨k, hkeys ▸ List.mem_append_left _ hk, .same⟩
  | @store t _ m enriched at' ik hh hkeys _ ht =>
    rw [hkeys]
    by_cases hm : k.messageId = m
    · exact ⟨_, mem_updateWhere_of_pos hk hm, .store (hm ▸ hh) ht⟩
    · exact ⟨k, mem_updateWhere_of_not hk hm, .same⟩
  | @record t _ m error ik hh hkeys _ _ =>
    rw [hkeys]
    by_cases hm : k.messageId = m
    · exact ⟨_, mem_updateWhere_of_pos hk hm, .record (hm ▸ hh)⟩
    · exact ⟨k, mem_updateWhere_of_not hk hm, .same⟩
  | flush hc hkeys _ =>
    refine ⟨_, ?_, .flush hc⟩
    rw [hkeys, flushWrites_eq_map]
    exact List.mem_map_of_mem hk

/-- No key row is ever removed. -/
theorem KeysStep.ids_subset (h : KeysStep s a s') : s.ids ⊆ s'.ids := by
  intro m hm
  obtain ⟨k, hk, rfl⟩ := List.mem_map.1 hm
  obtain ⟨k', hk', hrow⟩ := h.exists_row hk
  exact hrow.messageId ▸ List.mem_map_of_mem hk'

/-- A call that owns an event after the step owned it before, or has just created its row. -/
theorem KeysStep.owns (h : KeysStep s a s') {t : Tag} {m : MessageId}
    (ho : (s'.handlers t).owns = some m) :
    (s.handlers t).owns = some m ∨ (s.handlers t).inserting = some m := by
  have hfollows : Follows s.keys (s.handlers t) (s'.handlers t) →
      (s.handlers t).owns = some m := by
    rintro (heq | hnone | ⟨heq, _⟩)
    · rwa [← heq]
    · rw [hnone] at ho
      cases ho
    · rwa [← heq]
  cases h with
  | same _ hf => exact Or.inl (hfollows (hf t))
  | @insert t' _ _ ev _ _ _ hh _ hf ht =>
    by_cases heq : t = t'
    · subst heq
      obtain hc | hi := ht
      · rw [hc] at ho
        rw [hh]
        exact Or.inr ho
      · rw [hi] at ho
        cases ho
    · exact Or.inl (hfollows (Or.inl (hf t heq)))
  | @store t' _ _ _ _ _ _ _ hf ht =>
    by_cases heq : t = t'
    · rw [heq, ht] at ho
      cases ho
    · exact Or.inl (hfollows (Or.inl (hf t heq)))
  | @record t' _ _ _ _ _ _ hf ht =>
    by_cases heq : t = t'
    · rw [heq, ht] at ho
      cases ho
    · exact Or.inl (hfollows (Or.inl (hf t heq)))
  | flush _ _ hf => exact Or.inl (hfollows (Or.inl (by rw [hf])))

/-- The snapshot of a call that is about to store an enrichment is an old one of the call, or
the row as it is now, of an event that the call owns. -/
theorem KeysStep.loaded (h : KeysStep s a s') {t : Tag} {m : MessageId} {enriched : Json}
    {at' : Time} {ik : IdempotencyKey} (hl : s'.handlers t = .storeLoaded m enriched at' ik) :
    s.handlers t = .storeLoaded m enriched at' ik ∨
      ((s.handlers t).owns = some m ∧ lookup IdempotencyKey.messageId m s.keys = some ik) := by
  have hfrom : ∀ t', (∀ u, u ≠ t' → s'.handlers u = s.handlers u) →
      (∀ m enriched at' ik, s'.handlers t' ≠ .storeLoaded m enriched at' ik) →
      s.handlers t = .storeLoaded m enriched at' ik := by
    intro t' hf hne
    by_cases heq : t = t'
    · exact absurd (heq ▸ hl) (hne m enriched at' ik)
    · rw [← hf t heq, hl]
  cases h with
  | same _ hf =>
    obtain heq | hnone | ⟨howns, hlook⟩ := hf t
    · exact Or.inl (heq ▸ hl)
    · rw [hl] at hnone
      cases hnone
    · rw [hl] at howns
      exact Or.inr ⟨howns.symm, hlook m enriched at' ik hl⟩
  | @insert t' _ _ _ _ _ _ _ _ hf ht =>
    refine Or.inl (hfrom t' hf fun _ _ _ _ heq => ?_)
    obtain hc | hi := ht
    · rw [hc] at heq
      cases heq
    · rw [hi] at heq
      cases heq
  | @store t' _ _ _ _ _ _ _ hf ht =>
    refine Or.inl (hfrom t' hf fun _ _ _ _ heq => ?_)
    rw [ht] at heq
    cases heq
  | @record t' _ _ _ _ _ _ hf ht =>
    refine Or.inl (hfrom t' hf fun _ _ _ _ heq => ?_)
    rw [ht] at heq
    cases heq
  | flush _ _ hf => exact Or.inl (by rw [← hf, hl])

end

/-! ## New rows and loaded rows -/

/-- The row that a call commits, with the call. SOURCE: app/consumer/rabbitmq.py:132-141 -/
def recordedBy (s : Intake) : Action → List (Tag × MessageId)
  | .handler t (.commit _) | .handler t (.commitLost _) =>
    match s.handlers t with
    | .selected ev _ _ _ => [(t, ev.messageId)]
    | _ => []
  | _ => []

/-- A call records a message by the commit of its transaction.
SOURCE: app/consumer/rabbitmq.py:131-142 -/
theorem of_mem_recordedBy {s : Intake} {a : Action} {t : Tag} {m : MessageId}
    (h : (t, m) ∈ recordedBy s a) :
    ∃ ids ev receivedAt seen readAt,
      (a = .handler t (.commit ids) ∨ a = .handler t (.commitLost ids)) ∧
      s.handlers t = .selected ev receivedAt seen readAt ∧ m = ev.messageId := by
  unfold recordedBy at h
  split at h
  · split at h
    · rename_i hh
      cases List.mem_singleton.1 h
      exact ⟨_, _, _, _, _, Or.inl rfl, hh, rfl⟩
    · exact absurd h List.not_mem_nil
  · split at h
    · rename_i hh
      cases List.mem_singleton.1 h
      exact ⟨_, _, _, _, _, Or.inr rfl, hh, rfl⟩
    · exact absurd h List.not_mem_nil
  · exact absurd h List.not_mem_nil

/-- A row that is committed is in the table. -/
theorem mem_ids_of_recordedBy {cfg : Settings} {s s' : World} {a : Action} {t : Tag}
    {m : MessageId} (hs : step cfg s a = some s') (h : (t, m) ∈ recordedBy s.intake a) :
    m ∈ s'.intake.ids := by
  obtain ⟨ids, ev, receivedAt, seen, readAt, ha, hh, rfl⟩ := of_mem_recordedBy h
  have hnew : ev.messageId ∈ (s.intake.keys ++ [newKey ev receivedAt]).map
      IdempotencyKey.messageId := by simp [newKey]
  cases worldStep_of_eq_some hs with
  | handler hstep =>
    cases hstep with
    | commit hh' hc =>
      obtain ⟨_, _, rfl⟩ := commitEvent_eq_some hc
      obtain ha | ha := ha <;> cases ha
      rw [hh] at hh'
      cases hh'
      exact hnew
    | commitLost hh' hc =>
      obtain ⟨_, _, rfl⟩ := commitEvent_eq_some hc
      obtain ha | ha := ha <;> cases ha
      rw [hh] at hh'
      cases hh'
      exact hnew
    | _ => obtain ha | ha := ha <;> cases ha
  | _ => obtain ha | ha := ha <;> cases ha

/-- A row with a new id is the row of a call that commits in the step. -/
theorem recordedBy_of_new {cfg : Settings} {s s' : World} {a : Action}
    (hs : step cfg s a = some s') {k' : IdempotencyKey} (hk' : k' ∈ s'.intake.keys)
    (hnew : k'.messageId ∉ s.intake.ids) :
    ∃ t ev receivedAt seen readAt,
      s.intake.handlers t = .selected ev receivedAt seen readAt ∧ k' = newKey ev receivedAt ∧
      recordedBy s.intake a = [(t, ev.messageId)] := by
  have hmem : ∀ k ∈ s.intake.keys, k.messageId ≠ k'.messageId :=
    fun k hk heq => hnew (heq ▸ List.mem_map_of_mem hk)
  have hold : k' ∉ s.intake.keys := fun hk => hmem k' hk rfl
  have hcommit : ∀ (t : Tag) (ev : NewEvent) (receivedAt readAt : Time) (seen : List Subscriber),
      s.intake.handlers t = .selected ev receivedAt seen readAt →
      k' ∈ s.intake.keys ++ [newKey ev receivedAt] →
      recordedBy s.intake a = [(t, ev.messageId)] →
      ∃ t ev receivedAt seen readAt,
        s.intake.handlers t = .selected ev receivedAt seen readAt ∧ k' = newKey ev receivedAt ∧
        recordedBy s.intake a = [(t, ev.messageId)] := by
    intro t ev receivedAt readAt seen hh hin hrec
    obtain hin | hin := List.mem_append.1 hin
    · exact absurd hin hold
    · exact ⟨t, ev, receivedAt, seen, readAt, hh, List.mem_singleton.1 hin, hrec⟩
  have hupdate : ∀ (m : MessageId) (f : IdempotencyKey → IdempotencyKey),
      (∀ k, (f k).messageId = k.messageId) → k' ∉ updateKey m f s.intake.keys := by
    intro m f hf hin
    obtain ⟨hin, _⟩ | ⟨k, hk, _, heq⟩ := of_mem_updateWhere hin
    · exact hold hin
    · exact hmem k hk (by rw [← heq, hf])
  cases worldStep_of_eq_some hs with
  | handler h =>
    cases h with
    | commit hh hc =>
      obtain ⟨_, _, rfl⟩ := commitEvent_eq_some hc
      exact hcommit _ _ _ _ _ hh hk' (by simp only [recordedBy, hh])
    | commitLost hh hc =>
      obtain ⟨_, _, rfl⟩ := commitEvent_eq_some hc
      exact hcommit _ _ _ _ _ hh hk' (by simp only [recordedBy, hh])
    | store _ => exact absurd hk' (hupdate _ _ fun _ => rfl)
    | record _ => exact absurd hk' (hupdate _ _ fun _ => rfl)
    | _ => exact absurd hk' hold
  | reconciler h =>
    cases h with
    | commit _ =>
      have hin : k' ∈ flushWrites _ s.intake.keys := hk'
      rw [flushWrites_eq_map] at hin
      obtain ⟨k, hk, heq⟩ := List.mem_map.1 hin
      exact absurd (by rw [← heq, flushRow_messageId]) (hmem k hk)
    | _ => exact absurd hk' hold
  | _ => exact absurd hk' hold

/-- A row that a cycle still has to do was to do before, or its SELECT has found it stale in
the table. SOURCE: app/consumer/rabbitmq.py:208-227 -/
theorem todo_of_step {cfg : Settings} {s s' : World} {a : Action}
    (hs : step cfg s a = some s') {p : ConsumerId} {ik : IdempotencyKey}
    (hik : ik ∈ (s'.intake.reconcilers p).todo) :
    ik ∈ (s.intake.reconcilers p).todo ∨
      ∃ t₀ picks, a = .reconciler p (.select t₀ picks) ∧ ik ∈ s.intake.keys ∧
        isStale cfg t₀ ik = true := by
  obtain hkeep | ⟨b, i, rfl, rfl, h⟩ := reconciler_of_step hs p
  · exact Or.inl (hkeep ▸ hik)
  · cases h with
    | select _ _ _ _ hp =>
      simp only [setCycle_self, Cycle.todo, List.mem_filterMap] at hik
      obtain ⟨m, hm, hl⟩ := hik
      have hstale := hp m hm
      rw [hl, Option.map_some, Option.some.injEq] at hstale
      exact Or.inr ⟨_, _, rfl, (of_lookup_eq_some hl).1, hstale⟩
    | abandon hc _ | accepted hc _ _ | timeout hc _ =>
      simp only [setCycle_self, Cycle.todo] at hik
      refine Or.inl ?_
      rw [hc]
      exact List.mem_cons_of_mem _ hik
    | _ =>
      -- The cycle is over.
      simp only [setCycle_self, Cycle.todo, List.not_mem_nil] at hik

end EventPipeline.Interface
