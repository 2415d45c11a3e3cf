import EventPipeline.Interface.BackoffDates
import EventPipeline.Interface.BatchSteps

/-!
# Batch isolation and finalisation

An exception that leaves `_deliver_attempt` ends the loop over the batch, and the row it is
about and all rows behind it stay `in_flight`. So a batch is finalised exactly when no row
raises, and a row raises exactly when its POST ends by an exception that `deliver` does not
catch, when the text to store is not storable, or when the retry that is needed has no date.
-/

set_option autoImplicit false

namespace EventPipeline.Analysis

open EventPipeline.Model EventPipeline.Program EventPipeline.Interface EventPipeline.Computation

/-! ## A finalised row -/

def Answered2xx : PostOutcome → Prop
  | .response statusCode _ => 200 ≤ statusCode ∧ statusCode < 300
  | _ => False

/-- The row of the snapshot `a` is finalised by its own outcome.
SOURCE: app/delivery/worker.py:101-174 -/
structure Finalised (a : Snapshot) (e : RowEnv) (row : DeliveryAttempt) : Prop where
  status : row.status = .delivered ∨ (row.status = .failed ∧ e.at' ≤ row.nextAttemptAt) ∨
    row.status = .dead
  count : e.sub.any Subscriber.receives = true → row.attemptCount = a.attempt.attemptCount + 1
  own : row.status = .delivered ↔ e.sub.any Subscriber.receives = true ∧ Answered2xx e.outcome

/-! ## When a row does not raise -/

/-- The retry has a date, if the failure of the row at time `now` calls for one. -/
def BackoffFits (cfg : Settings) (a : DeliveryAttempt) (now : Time) (k : Draw) : Prop :=
  cfg.deliveryMaxAttempts ≤ a.attemptCount + 1 ∨ RetryDated cfg (a.attemptCount + 1) now k

/-- The behaviour of the endpoint is harmless: the POST does not end by an uncaught exception,
and unless it succeeds the text it leaves to store is storable and the retry has a date.
SOURCE: app/delivery/sender.py:65-90, app/delivery/worker.py:29-33,150-158 -/
def Harmless (cfg : Settings) (a : DeliveryAttempt) (now : Time) (k : Draw) : PostOutcome → Prop
  | .response statusCode text => (200 ≤ statusCode ∧ statusCode < 300) ∨
      ((∀ t ∈ text, Json.storable (t.take 500) = true) ∧ BackoffFits cfg a now k)
  | .timeout exc | .requestError exc => Json.storable exc = true ∧ BackoffFits cfg a now k
  | .raised => False

/-- A row that receives has a harmless endpoint. -/
def RowHarmless (cfg : Settings) (a : Snapshot) (e : RowEnv) : Prop :=
  e.sub.any Subscriber.receives = true → Harmless cfg a.attempt e.at' e.draw e.outcome

/-! ## The stored text -/

/-- A text is storable if and only if its two parts are. -/
theorem storable_append {s t : PyStr} :
    Json.storable (s ++ t) = true ↔ Json.storable s = true ∧ Json.storable t = true := by
  simp only [Json.storable, List.all_append, Bool.and_eq_true]

/-- A number is storable. -/
theorem storable_decimal (n : ℕ) : Json.storable (decimal n) = true := by
  unfold Json.storable decimal
  rw [List.all_eq_true]
  intro c hc
  obtain ⟨ch, hch, rfl⟩ := List.mem_map.1 hc
  have hdigit := Nat.isDigit_of_mem_toDigits (by decide) (by decide) hch
  simp only [Char.isDigit, Bool.and_eq_true, decide_eq_true_eq] at hdigit
  have hlow : 48 ≤ ch.toNat := hdigit.1
  have hhigh : ch.toNat ≤ 57 := hdigit.2
  have hval : (Fin.ofNat 0x110000 ch.toNat).val = ch.toNat := Nat.mod_eq_of_lt (by omega)
  simp only [isSurrogate, hval, Bool.and_eq_true, decide_eq_true_eq, Bool.not_eq_true',
    Bool.and_eq_false_iff, decide_eq_false_iff_not]
  omega

/-- So is the text for a status code. SOURCE: app/delivery/worker.py:138,152 -/
theorem storable_httpText (statusCode : Option ℕ) : Json.storable (httpText statusCode) = true := by
  unfold httpText
  rw [storable_append]
  refine ⟨by decide, ?_⟩
  cases statusCode with
  | none => decide
  | some n => exact storable_decimal n

/-- The text of a failure is storable when what `deliver` returns as its error is. -/
theorem storable_errorText (r : DeliveryResult) :
    Json.storable (errorText r) = true ↔ ∀ e ∈ r.error, Json.storable e = true := by
  unfold errorText
  cases r.error with
  | none => exact iff_of_true (storable_httpText _) nofun
  | some e =>
    cases e with
    | nil => exact iff_of_true (storable_httpText _) fun _ h => by cases h; rfl
    | cons c e => simp

/-! ## One row -/

section
variable {cfg : Settings} {a : DeliveryAttempt} {r : DeliveryResult} {now : Time} {k : Draw}
  {t : List DeliveryAttempt}

/-- The final update exists unless a retry is needed that has no date.
SOURCE: app/delivery/worker.py:126-158 -/
theorem finalUpdate_isSome_iff : (finalUpdate cfg a r now k).isSome = true ↔
    r.success = true ∨ BackoffFits cfg a now k := by
  unfold finalUpdate BackoffFits
  by_cases hs : r.success = true
  · simp [hs]
  · by_cases hm : cfg.deliveryMaxAttempts ≤ a.attemptCount + 1
    · simp [hs, hm]
    · simp [hs, hm, retryAt_isSome_iff]

structure UpdateOk (r : DeliveryResult) (now : Time) (u : FinalUpdate) : Prop where
  status : u.status = .delivered ∨ (u.status = .failed ∧ now ≤ u.nextAttemptAt) ∨ u.status = .dead
  own : u.status = .delivered ↔ r.success = true
  error : u.lastError = if r.success then none else some (errorText r)

/-- A final update that is computed is one of the outcome. SOURCE: app/delivery/worker.py:126-158 -/
theorem updateOk_of_finalUpdate {u : FinalUpdate} (h : finalUpdate cfg a r now k = some u) :
    UpdateOk r now u := by
  unfold finalUpdate at h
  by_cases hs : r.success = true
  · rw [if_pos hs] at h
    cases h
    exact ⟨Or.inl rfl, iff_of_true rfl hs, (if_pos hs).symm⟩
  · rw [if_neg hs] at h
    split at h
    · cases h
      exact ⟨Or.inr (Or.inr rfl), iff_of_false nofun hs, (if_neg hs).symm⟩
    · obtain ⟨_, hat, rfl⟩ := Option.map_eq_some_iff.1 h
      exact ⟨Or.inr (Or.inl ⟨rfl, (retryAt_le hat).1⟩), iff_of_false nofun hs, (if_neg hs).symm⟩

/-- The final UPDATE takes effect exactly when the update exists and its text is storable.
SOURCE: app/delivery/worker.py:125-174 -/
theorem writeBack_isSome_iff : (writeBack cfg a r now k t).isSome = true ↔
    r.success = true ∨ ((∀ e ∈ r.error, Json.storable e = true) ∧ BackoffFits cfg a now k) := by
  unfold writeBack
  cases hu : finalUpdate cfg a r now k with
  | none =>
    have hnone := finalUpdate_isSome_iff.not.1 (by rw [hu]; nofun)
    rw [not_or] at hnone
    simp [hnone.1, hnone.2]
  | some u =>
    have hsome := finalUpdate_isSome_iff.1 (by rw [hu]; rfl)
    have hok := updateOk_of_finalUpdate hu
    rw [Option.bind_some, hok.error]
    by_cases hs : r.success = true
    · simp [hs]
    · have hfits := hsome.resolve_left hs
      simp only [hs, if_false, Option.all_some, storable_errorText, hfits, and_true, false_or,
        Bool.false_eq_true]
      split
      · rename_i he
        exact iff_of_true rfl he
      · rename_i he
        exact iff_of_false nofun he

end

/-- `deliver` returns a success exactly for a 2xx answer. SOURCE: app/delivery/sender.py:67-78 -/
theorem success_iff_of_deliver {o : PostOutcome} {r : DeliveryResult} (h : deliver o = some r) :
    r.success = true ↔ Answered2xx o := by
  cases o with
  | response statusCode text =>
    cases h
    simp [Answered2xx]
  | timeout exc =>
    cases h
    exact iff_of_false nofun id
  | requestError exc =>
    cases h
    exact iff_of_false nofun id
  | raised => cases h

/-- `_deliver_attempt` ends without an exception exactly when its row is harmless.
SOURCE: app/delivery/worker.py:101-174 -/
theorem deliverAttempt_isSome_iff {cfg : Settings} {a : Snapshot} {e : RowEnv}
    {t : List DeliveryAttempt} :
    (deliverAttempt cfg a e t).isSome = true ↔ RowHarmless cfg a e := by
  unfold deliverAttempt RowHarmless
  by_cases hsub : e.sub.any Subscriber.receives = true
  · rw [if_pos hsub]
    have himp : ∀ P : Prop, (e.sub.any Subscriber.receives = true → P) ↔ P :=
      fun P => ⟨fun h => h hsub, fun h _ => h⟩
    rw [himp]
    cases e.outcome with
    | response statusCode text =>
      simp only [deliver, Option.bind_some, writeBack_isSome_iff, Harmless, Bool.and_eq_true,
        decide_eq_true_eq]
      by_cases h2xx : 200 ≤ statusCode ∧ statusCode < 300
      · simp [h2xx]
      · have htext : (∀ x ∈ some ((text.map fun t => t.take 500).getD (httpText (some statusCode))),
            Json.storable x = true) ↔ ∀ t ∈ text, Json.storable (t.take 500) = true := by
          cases text with
          | none =>
            refine iff_of_true (fun x hx => ?_) fun t ht => absurd ht (Option.not_mem_none t)
            cases hx
            exact storable_httpText _
          | some t => simp
        simp only [h2xx, false_or, if_false, htext]
    | timeout exc =>
      have hexc : Json.storable (py "timeout: " ++ exc) = true ↔ Json.storable exc = true := by
        rw [storable_append]
        exact and_iff_right (by decide)
      simp [deliver, writeBack_isSome_iff, Harmless, hexc]
    | requestError exc => simp [deliver, writeBack_isSome_iff, Harmless]
    | raised => simp [deliver, Harmless]
  · rw [if_neg hsub]
    exact iff_of_true rfl fun h => absurd h hsub

section
variable {cfg : Settings} {a : Snapshot} {e : RowEnv} {t t' : List DeliveryAttempt}

/-- The row of a subscriber that receives gets the final update for its answer.
SOURCE: app/delivery/worker.py:119-174 -/
theorem exists_finalUpdate_of_deliverAttempt (hsub : e.sub.any Subscriber.receives = true)
    (h : deliverAttempt cfg a e t = some t') :
    ∃ r u, deliver e.outcome = some r ∧ finalUpdate cfg a.attempt r e.at' e.draw = some u ∧
      t' = updateAttempt a.attempt.id (u.apply a.attempt r e.at') t := by
  unfold deliverAttempt at h
  rw [if_pos hsub] at h
  obtain ⟨r, hr, hw⟩ := Option.bind_eq_some_iff.1 h
  obtain ⟨u, hu, htable⟩ := writeBack_eq_some hw
  exact ⟨r, u, hr, hu, htable⟩

/-- Without an exception `_deliver_attempt` updates the row of its snapshot, finalises it and
touches no other row. -/
theorem deliverAttempt_eq_some (h : deliverAttempt cfg a e t = some t') :
    ∃ f, t' = updateAttempt a.attempt.id f t ∧
      ∀ row, (f row).id = row.id ∧ Finalised a e (f row) := by
  by_cases hsub : e.sub.any Subscriber.receives = true
  · obtain ⟨r, u, hr, hu, rfl⟩ := exists_finalUpdate_of_deliverAttempt hsub h
    have hok := updateOk_of_finalUpdate hu
    refine ⟨_, rfl, fun row => ⟨rfl, hok.status, fun _ => rfl, ?_⟩⟩
    exact hok.own.trans ((success_iff_of_deliver hr).trans (and_iff_right hsub).symm)
  · unfold deliverAttempt at h
    rw [if_neg hsub] at h
    cases h
    refine ⟨_, rfl, fun row => ⟨rfl, Or.inr (Or.inr rfl), fun h => absurd h hsub, ?_⟩⟩
    exact iff_of_false nofun fun h => hsub h.1

end

/-! ## The whole batch -/

section
variable {cfg : Settings}

/-- The loop does not touch the rows outside the batch. -/
theorem mem_deliverBatch_of_notMem {batch : List (Snapshot × RowEnv)} {t : List DeliveryAttempt}
    {row : DeliveryAttempt} (hrow : row ∈ t) (hid : row.id ∉ batchIds batch) :
    row ∈ (deliverBatch cfg batch t).1 := by
  induction batch generalizing t with
  | nil => exact hrow
  | cons p rest ih =>
    obtain ⟨a, e⟩ := p
    obtain ⟨hne, hrest⟩ := not_or.1 (mt List.mem_cons.2 hid)
    cases hd : deliverAttempt cfg a e t with
    | none =>
      rw [deliverBatch_cons_of_none hd]
      exact hrow
    | some t' =>
      rw [deliverBatch_cons_of_some hd]
      obtain ⟨f, rfl, _⟩ := deliverAttempt_eq_some hd
      exact ih (mem_updateWhere_of_not hrow hne) hrest

/-- The loop keeps the identifiers of the table. -/
theorem ids_deliverBatch (batch : List (Snapshot × RowEnv)) (t : List DeliveryAttempt) :
    (deliverBatch cfg batch t).1.map DeliveryAttempt.id = t.map DeliveryAttempt.id := by
  induction batch generalizing t with
  | nil => rfl
  | cons p rest ih =>
    obtain ⟨a, e⟩ := p
    cases hd : deliverAttempt cfg a e t with
    | none => rw [deliverBatch_cons_of_none hd]
    | some t' =>
      rw [deliverBatch_cons_of_some hd, ih]
      obtain ⟨f, rfl, hf⟩ := deliverAttempt_eq_some hd
      exact map_updateWhere _ fun row _ => (hf row).1

/-- When every row is harmless the loop finalises all of them. SOURCE: app/delivery/worker.py:94-96
-/
theorem finalised_of_harmless {batch : List (Snapshot × RowEnv)} {t : List DeliveryAttempt}
    (hn : (batchIds batch).Nodup) (ht : ∀ p ∈ batch, ∃ row ∈ t, row.id = p.1.attempt.id)
    (h : ∀ p ∈ batch, RowHarmless cfg p.1 p.2) :
    ∀ p ∈ batch, ∃ row ∈ (deliverBatch cfg batch t).1, row.id = p.1.attempt.id ∧
      Finalised p.1 p.2 row := by
  induction batch generalizing t with
  | nil =>
    intro p hp
    cases hp
  | cons p rest ih =>
    obtain ⟨a, e⟩ := p
    obtain ⟨hfresh, hn⟩ := List.nodup_cons.1 hn
    obtain ⟨t', hd⟩ := Option.isSome_iff_exists.1
      (deliverAttempt_isSome_iff.2 (h (a, e) List.mem_cons_self))
    rw [deliverBatch_cons_of_some hd]
    obtain ⟨f, rfl, hf⟩ := deliverAttempt_eq_some hd
    intro p hp
    obtain rfl | hp := List.mem_cons.1 hp
    · -- The row is updated now and not touched by the rest of the loop.
      obtain ⟨row, hrow, hid⟩ := ht (a, e) List.mem_cons_self
      have hmem : f row ∈ updateAttempt a.attempt.id f t := mem_updateWhere_of_pos hrow hid
      have hid' : (f row).id = a.attempt.id := (hf row).1.trans hid
      exact ⟨f row, mem_deliverBatch_of_notMem hmem (hid' ▸ hfresh), hid', (hf row).2⟩
    · refine ih hn (fun q hq => ?_) (fun q hq => h q (List.mem_cons_of_mem _ hq)) p hp
      obtain ⟨row, hrow, hid⟩ := ht q (List.mem_cons_of_mem _ hq)
      refine ⟨_, mem_updateWhere_of_mem hrow, ?_⟩
      split
      · exact (hf row).1.trans hid
      · exact hid

/-- When some row is not harmless, the first such row is left as it was before the loop. -/
theorem exists_untouched {batch : List (Snapshot × RowEnv)} {t : List DeliveryAttempt}
    (hn : (batchIds batch).Nodup) (h : ∃ p ∈ batch, ¬ RowHarmless cfg p.1 p.2) :
    ∃ p ∈ batch, ∀ row ∈ t, row.id = p.1.attempt.id → row ∈ (deliverBatch cfg batch t).1 := by
  induction batch generalizing t with
  | nil =>
    obtain ⟨p, hp, _⟩ := h
    cases hp
  | cons p rest ih =>
    obtain ⟨a, e⟩ := p
    obtain ⟨hfresh, hn⟩ := List.nodup_cons.1 hn
    cases hd : deliverAttempt cfg a e t with
    | none =>
      rw [deliverBatch_cons_of_none hd]
      exact ⟨(a, e), List.mem_cons_self, fun row hrow _ => hrow⟩
    | some t' =>
      rw [deliverBatch_cons_of_some hd]
      have hharmless := deliverAttempt_isSome_iff.1 (Option.isSome_iff_exists.2 ⟨t', hd⟩)
      obtain ⟨f, rfl, _⟩ := deliverAttempt_eq_some hd
      obtain ⟨q, hq, hnot⟩ := h
      have hq' : q ∈ rest := by
        obtain rfl | hq := List.mem_cons.1 hq
        · exact absurd hharmless hnot
        · exact hq
      obtain ⟨p, hp, hkeep⟩ := ih (t := updateAttempt a.attempt.id f t) hn ⟨q, hq', hnot⟩
      refine ⟨p, List.mem_cons_of_mem _ hp, fun row hrow hid => hkeep row ?_ hid⟩
      have hne : row.id ≠ a.attempt.id := fun heq =>
        hfresh (List.mem_map.2 ⟨p, hp, hid.symm.trans heq⟩)
      exact mem_updateWhere_of_not hrow hne

/-- When `_process_batch` ends, by return or by exception, every row that it has claimed is
finalised by its own outcome exactly when every row is harmless.
SOURCE: app/delivery/worker.py:58-174, app/delivery/sender.py:65-90 -/
theorem batch_finalised_iff (cfg : Settings) (t₀ : Time) (batch : List (Snapshot × RowEnv))
    (t : List DeliveryAttempt) (h : Claimed t₀ batch t) :
    (∀ p ∈ batch, ∀ row ∈ (processBatch cfg t₀ batch t).1, row.id = p.1.attempt.id →
      Finalised p.1 p.2 row) ↔
    ∀ p ∈ batch, RowHarmless cfg p.1 p.2 := by
  have hids : ((processBatch cfg t₀ batch t).1.map DeliveryAttempt.id).Nodup := by
    have hmark : (markInFlight (batchIds batch) t₀ t).map DeliveryAttempt.id =
        t.map DeliveryAttempt.id := map_updateWhere _ fun _ _ => rfl
    rw [processBatch, ids_deliverBatch]
    exact hmark ▸ h.ids_nodup
  -- The rows of the batch after the claim.
  have hmarked : ∀ p ∈ batch, ({ p.1.attempt with status := .inFlight, updatedAt := t₀ } :
      DeliveryAttempt) ∈ markInFlight (batchIds batch) t₀ t := by
    intro p hp
    have hin : p.1.attempt.id ∈ batchIds batch := List.mem_map.2 ⟨p, hp, rfl⟩
    exact mem_updateWhere_of_pos (h.rows p hp).1 hin
  constructor
  · intro hfinal
    by_contra hnot
    have huntouched : ∃ p ∈ batch, ∀ row ∈ markInFlight (batchIds batch) t₀ t,
        row.id = p.1.attempt.id → row ∈ (processBatch cfg t₀ batch t).1 :=
      exists_untouched h.batch_nodup (by simpa using hnot)
    obtain ⟨p, hp, hkeep⟩ := huntouched
    obtain h | ⟨h, _⟩ | h := (hfinal p hp _ (hkeep _ (hmarked p hp) rfl) rfl).status <;> cases h
  · intro hharmless p hp row hrow hid
    obtain ⟨row', hrow', hid', hfinal⟩ := finalised_of_harmless h.batch_nodup
      (fun q hq => ⟨_, hmarked q hq, rfl⟩) hharmless p hp
    rwa [eq_of_key_eq hids hrow hrow' (hid.trans hid'.symm)]

/-! ## A concrete batch -/

def sampleAttempt (id : Uuid) (sub : Uuid) : DeliveryAttempt :=
  ⟨id, py "m", sub, .pending, 0, 0, none, none, none, 0, 0⟩

def sampleSnapshot (id : Uuid) (sub : Uuid) : Snapshot :=
  ⟨sampleAttempt id sub,
    ⟨py "m", py "e", .obj [], some (.obj []), .enriched, 0, some 0, none, 0⟩⟩

/-- The first endpoint answers 500 with the body `body`, the second one 200. -/
def sampleBatch (body : PyStr) : List (Snapshot × RowEnv) :=
  [(sampleSnapshot ⟨3⟩ ⟨1⟩,
      ⟨some ⟨⟨1⟩, py "http://a", py "s", true, 0, none⟩, .response 500 (some body), 5, 0⟩),
    (sampleSnapshot ⟨4⟩ ⟨2⟩,
      ⟨some ⟨⟨2⟩, py "http://b", py "s", true, 0, none⟩, .response 200 none, 6, 0⟩)]

def sampleTable : List DeliveryAttempt := [sampleAttempt ⟨3⟩ ⟨1⟩, sampleAttempt ⟨4⟩ ⟨2⟩]

/-- The two rows can be claimed. -/
theorem claimed_sampleBatch (body : PyStr) : Claimed 0 (sampleBatch body) sampleTable :=
  ⟨by decide, by simp [batchIds, sampleBatch, sampleSnapshot, sampleAttempt],
    by simp [sampleBatch, sampleTable, sampleSnapshot]; decide⟩

/-- With a storable error text both are finalised. -/
theorem batch_finalised_iff_sampleBatch :
    (∀ p ∈ sampleBatch (py "error"), ∀ row ∈
      (processBatch .default 0 (sampleBatch (py "error")) sampleTable).1,
      row.id = p.1.attempt.id → Finalised p.1 p.2 row) ↔
    ∀ p ∈ sampleBatch (py "error"), RowHarmless .default p.1 p.2 :=
  batch_finalised_iff .default 0 _ _ (claimed_sampleBatch (py "error"))

/-- A body with U+0000 leaves its own row and the row behind it `in_flight`.
SOURCE: app/delivery/sender.py:70-78, app/delivery/worker.py:91-94,160-174 -/
theorem batch_not_finalised :
    ¬ ∀ (t₀ : Time) (batch : List (Snapshot × RowEnv)) (t : List DeliveryAttempt),
      Claimed t₀ batch t →
      ∀ p ∈ batch, ∀ row ∈ (processBatch .default t₀ batch t).1, row.id = p.1.attempt.id →
        Finalised p.1 p.2 row := by
  intro h
  have hraised : deliverAttempt .default (sampleSnapshot ⟨3⟩ ⟨1⟩)
      ⟨some ⟨⟨1⟩, py "http://a", py "s", true, 0, none⟩, .response 500 (some [0]), 5, 0⟩
      (markInFlight (batchIds (sampleBatch [0])) 0 sampleTable) = none := by
    rw [← Option.not_isSome_iff_eq_none, deliverAttempt_isSome_iff]
    intro hharmless
    have htext := ((hharmless rfl).resolve_left (by decide)).1 [0] rfl
    exact absurd htext (by decide)
  have hloop : (processBatch .default 0 (sampleBatch [0]) sampleTable).1 =
      markInFlight (batchIds (sampleBatch [0])) 0 sampleTable :=
    congrArg Prod.fst (deliverBatch_cons_of_none hraised)
  have hrow := h 0 (sampleBatch [0]) sampleTable (claimed_sampleBatch [0]) _
    (List.mem_cons_of_mem _ (List.mem_singleton.2 rfl))
    { sampleAttempt ⟨4⟩ ⟨2⟩ with status := .inFlight } (hloop ▸ .tail _ (.head _)) rfl
  obtain h | ⟨h, _⟩ | h := hrow.status <;> cases h

end

end EventPipeline.Analysis
