import EventPipeline.Program.Reads
import EventPipeline.Interface.CallSteps
import EventPipeline.Analysis.PayloadIntegrity

/-!
# What `get_event` shows

Calls, cycles and requests go on while events are read, and the row of an event is written by
several of them. Still the answers about one event agree: what a later answer adds is the
enrichment, once, and the outcome, which only goes on to change between success and failure. The
response model takes dicts only, and the consumer accepts any JSON value as payload, so for some
events every answer is a 500; none of them was published through the API.
-/

set_option autoImplicit false

namespace EventPipeline.Analysis

open EventPipeline.Model EventPipeline.Program EventPipeline.Interface EventPipeline.Computation

/-! ## Rows that can be read -/

def IsDict (v : Json) : Prop := ∃ fields, v = .obj fields

/-- The texts are ones that the database takes, and the two columns of the enrichment go together,
of which the first one is a dict. -/
structure Readable (k : IdempotencyKey) : Prop where
  id : Json.storable k.messageId = true
  eventType : Json.storable k.eventType = true
  dict : ∀ v, k.enrichedPayload = some v → IsDict v
  together : k.enrichedAt = none ↔ k.enrichedPayload = none

/-- What a call holds for the row that it is going to write. -/
def WritesReadable : Handler → Prop
  | .inserted ev _ | .selected ev _ _ _ =>
    Json.storable ev.messageId = true ∧ Json.storable ev.eventType = true
  | .storing _ enriched _ => IsDict enriched
  | .storeLoaded _ enriched _ ik => IsDict enriched ∧ ik.enrichedAt = none
  | _ => True

/-- SOURCE: app/consumer/rabbitmq.py:47-66,187-195 -/
structure ReadInv (s : Intake) : Prop where
  row : ∀ k ∈ s.keys, Readable k
  call : ∀ t, WritesReadable (s.handlers t)

/-- The SELECT and the INSERT take the same texts. SOURCE: app/consumer/rabbitmq.py:47-66 -/
theorem storable_of_insertValues {ev : RawEvent} {new : NewEvent}
    (h : insertValues ev = some new) :
    Json.storable new.messageId = true ∧ Json.storable new.eventType = true := by
  unfold insertValues at h
  split at h
  · split at h
    · rename_i hok
      cases h
      simp only [Json.varcharAccepts, Bool.and_eq_true] at hok
      exact ⟨hok.1.1.2, hok.1.2.2⟩
    · cases h
  · cases h

section
variable {cfg : Settings} {s s' : World} {a : Action}

/-- A call writes only what the response can show. SOURCE: app/consumer/rabbitmq.py:106-195 -/
theorem writesReadable_of_handlerStep {now : Time} {subscribers : List Subscriber}
    {i i' : Intake} {attempts attempts' : List DeliveryAttempt} {t : Tag} {b : HandlerAction}
    (honce : EnrichedOnce i) (hinv : ReadInv i)
    (h : HandlerStep cfg now subscribers i attempts t b i' attempts') :
    WritesReadable (i'.handlers t) := by
  have hold := hinv.call t
  cases h with
  | insert hh hv _ _ => simpa [WritesReadable] using storable_of_insertValues hv
  | select hh =>
    rw [hh] at hold
    simpa [WritesReadable] using hold
  | commit _ hc =>
    obtain ⟨_, _, rfl⟩ := commitEvent_eq_some hc
    simp [WritesReadable]
  | commitLost _ hc =>
    obtain ⟨_, _, rfl⟩ := commitEvent_eq_some hc
    simp [WritesReadable, raiseFrom]
  | @enriched ev enriched hh => simp [WritesReadable, IsDict]
  | @loadStore m enriched at' ik hh hl =>
    rw [hh] at hold
    obtain ⟨hmem, hid⟩ := of_lookup_eq_some hl
    have hnone := honce.owned t m (by rw [hh]; rfl) ik hmem hid
    have hat := (hinv.row ik hmem).together.2 hnone
    simp only [Intake.setHandler_handlers, Function.update_self, WritesReadable]
    exact ⟨hold, hat⟩
  | _ => simp [WritesReadable, raiseFrom, crashHandler]

/-- One step keeps what the calls are about to write readable. -/
theorem call_of_readInv (hreach : Reachable (step cfg) World.init s) (hinv : ReadInv s.intake)
    (hs : step cfg s a = some s') (t : Tag) : WritesReadable (s'.intake.handlers t) := by
  cases callStep_of_step hs t with
  | still _ hh => rw [hh]; exact hinv.call t
  | published _ _ hh => rw [hh]; exact hinv.call t
  | reEnqueued _ _ _ hh => rw [hh]; exact hinv.call t
  | moved h =>
    exact writesReadable_of_handlerStep (enrichedOnce_of_reachable hreach) hinv h

/-- Each writer of a row leaves one that can be read. SOURCE: app/consumer/rabbitmq.py:187-195 -/
theorem Readable.step (honce : EnrichedOnce s.intake) (hinv : ReadInv s.intake)
    {k k' : IdempotencyKey} (hk : Readable k) (h : RowStep s.intake s'.intake a k k') :
    Readable k' := by
  cases h with
  | same => exact hk
  | @store t enriched at' ik _ hh _ =>
    have hcall := hinv.call t
    rw [hh] at hcall
    have hat : ik.enrichedAt = none := hcall.2
    have hnone := (honce.loaded _ _ _ _ _ hh).2
    refine ⟨hk.id, hk.eventType, fun v hv => ?_, ?_⟩
    · simp only [storeEnrichment, hnone] at hv
      rw [flushColumn_of_ne _ (by simp)] at hv
      cases hv
      exact hcall.1
    · simp only [storeEnrichment, hnone, hat]
      rw [flushColumn_of_ne _ (by simp), flushColumn_of_ne _ (by simp)]
      simp
  | record _ => exact ⟨hk.id, hk.eventType, hk.dict, hk.together⟩
  | flush _ =>
    refine ⟨?_, ?_, ?_, ?_⟩
    · simpa using hk.id
    · simpa using hk.eventType
    · simpa using hk.dict
    · simpa using hk.together

/-- In every reachable state what is stored can be shown. -/
theorem readInv_of_reachable (h : Reachable (step cfg) World.init s) : ReadInv s.intake := by
  refine h.induct (I := fun s => ReadInv s.intake) ?_ ?_
  · exact ⟨fun _ h => absurd h List.not_mem_nil, fun _ => trivial⟩
  intro s a s' hreach hinv hs
  refine ⟨fun k' hk' => ?_, call_of_readInv hreach hinv hs⟩
  obtain ⟨k, hk, hrow⟩ | ⟨t, ev, _, _, _, hh, rfl⟩ := (keysStep_of_step hs).of_mem hk'
  · exact (hinv.row k hk).step (enrichedOnce_of_reachable hreach) hinv hrow
  · have hcall := hinv.call t
    rw [hh] at hcall
    exact ⟨hcall.1, hcall.2, by simp [newKey], by simp [newKey]⟩

end

/-! ## What a later version of a row keeps -/

/-- The later version `k'` tells at least what `k` tells. -/
structure RowExtends (k k' : IdempotencyKey) : Prop where
  messageId : k'.messageId = k.messageId
  eventType : k'.eventType = k.eventType
  rawPayload : k'.rawPayload = k.rawPayload
  receivedAt : k'.receivedAt = k.receivedAt
  decided : k.status ≠ .received → k'.status ≠ .received
  error : k.error ≠ none → k'.error ≠ none
  enriched : k.enrichedPayload ≠ none →
    k'.enrichedPayload = k.enrichedPayload ∧ k'.enrichedAt = k.enrichedAt

def KeysExtend (s s' : World) : Prop :=
  ∀ k ∈ s.intake.keys, ∃ k' ∈ s'.intake.keys, RowExtends k k'

/-- A row keeps what it has when nothing happens. -/
theorem RowExtends.refl (k : IdempotencyKey) : RowExtends k k :=
  ⟨rfl, rfl, rfl, rfl, fun h => h, fun h => h, fun _ => ⟨rfl, rfl⟩⟩

/-- What is kept twice is kept. -/
theorem RowExtends.trans {k₁ k₂ k₃ : IdempotencyKey} (h : RowExtends k₁ k₂)
    (h' : RowExtends k₂ k₃) : RowExtends k₁ k₃ := by
  refine ⟨h'.messageId.trans h.messageId, h'.eventType.trans h.eventType,
    h'.rawPayload.trans h.rawPayload, h'.receivedAt.trans h.receivedAt,
    fun hst => h'.decided (h.decided hst), fun herr => h'.error (h.error herr), fun hsome => ?_⟩
  obtain ⟨hpayload, hat⟩ := h.enriched hsome
  obtain ⟨hpayload', hat'⟩ := h'.enriched (by rwa [hpayload])
  exact ⟨hpayload'.trans hpayload, hat'.trans hat⟩

section
variable {cfg : Settings} {s s' : World} {a : Action}

/-- An enrichment is stored for an event that has none. SOURCE: app/consumer/rabbitmq.py:187-195 -/
theorem rowExtends_of_rowStep (honce : EnrichedOnce s.intake) {k k' : IdempotencyKey}
    (hk : k ∈ s.intake.keys) (h : RowStep s.intake s'.intake a k k') : RowExtends k k' := by
  cases h with
  | same => exact .refl k
  | @store t _ _ _ _ hh _ =>
    have hnone := honce.owned t k.messageId (by rw [hh]; rfl) k hk rfl
    refine ⟨rfl, rfl, rfl, rfl, fun hst => ?_, fun herr => herr, fun hsome => absurd hnone hsome⟩
    simp only [storeEnrichment, flushColumn]
    split
    · exact hst
    · simp
  | record _ =>
    refine ⟨rfl, rfl, rfl, rfl, fun h => h, fun herr => ?_, fun _ => ⟨rfl, rfl⟩⟩
    simp only [storeError, flushColumn]
    split
    · exact herr
    · simp
  | flush _ =>
    exact ⟨by simp, by simp, by simp, by simp, status_flushRow_ne (by decide), error_flushRow_ne,
      fun _ => ⟨by simp, by simp⟩⟩

/-- No code sets the status `dispatched`. SOURCE: app/db/models.py:52 -/
theorem not_dispatched (h : Reachable (step cfg) World.init s) :
    ∀ k ∈ s.intake.keys, k.status ≠ .dispatched := by
  refine h.induct (I := fun s => ∀ k ∈ s.intake.keys, k.status ≠ .dispatched)
    (fun k hk => absurd hk List.not_mem_nil) ?_
  intro s a s' _ hinv hs k' hk'
  obtain ⟨k, hk, hrow⟩ | ⟨_, _, _, _, _, _, rfl⟩ := (keysStep_of_step hs).of_mem hk'
  · have hold := hinv k hk
    cases hrow with
    | same => exact hold
    | store _ _ =>
      simp only [storeEnrichment, flushColumn]
      split
      · exact hold
      · simp
    | record _ => exact hold
    | flush _ => exact status_flushRow_ne (by decide) hold
  · simp [newKey]

/-- Every row keeps what it has through any run. SOURCE: app/consumer/rabbitmq.py:149-265 -/
theorem keysExtend_of_reachable (h : Reachable (step cfg) World.init s)
    (h' : Reachable (step cfg) s s') : KeysExtend s s' := by
  refine h.rel (R := KeysExtend) (fun _ k hk => ⟨k, hk, .refl k⟩) ?_ ?_ h'
  · intro s₁ s₂ s₃ h₁ h₂ k hk
    obtain ⟨k', hk', hext⟩ := h₁ k hk
    obtain ⟨k'', hk'', hext'⟩ := h₂ k' hk'
    exact ⟨k'', hk'', hext.trans hext'⟩
  · intro s a s' hreach hs k hk
    obtain ⟨k', hk', hrow⟩ := (keysStep_of_step hs).exists_row hk
    exact ⟨k', hk', rowExtends_of_rowStep (enrichedOnce_of_reachable hreach) hk hrow⟩

/-! ## The answers -/

/-- The answer about an event that has a row. SOURCE: app/api/events.py:49-59 -/
theorem getEvent_of_mem (h : Reachable (step cfg) World.init s) {k : IdempotencyKey}
    (hk : k ∈ s.intake.keys) :
    getEvent k.messageId s.intake.keys = .ofResponse (EnrichedEventResponse.ofRow k) := by
  have hid := ((readInv_of_reachable h).row k hk).id
  have hl := lookup_of_mem (ids_nodup_of_reachable h) hk
  simp only [getEvent, if_pos hid, hl]

/-- The response tells what the row tells. -/
structure Shows (response : EnrichedEventResponse) (k : IdempotencyKey) : Prop where
  messageId : response.messageId = k.messageId
  eventType : response.eventType = k.eventType
  rawPayload : .obj response.rawPayload = k.rawPayload
  enrichedPayload : response.enrichedPayload.map Json.obj = k.enrichedPayload
  status : response.status = k.status
  receivedAt : response.receivedAt = k.receivedAt
  enrichedAt : response.enrichedAt = k.enrichedAt
  dispatchedAt : response.dispatchedAt = none
  error : response.error = k.error

/-- A row with a dict as payload is shown. SOURCE: app/schemas/event.py:49-60 -/
theorem exists_shows {k : IdempotencyKey} (hk : Readable k) (hraw : IsDict k.rawPayload) :
    ∃ response, EnrichedEventResponse.ofRow k = some response ∧ Shows response k := by
  obtain ⟨raw, hraw⟩ := hraw
  unfold EnrichedEventResponse.ofRow
  rw [hraw]
  cases hv : k.enrichedPayload with
  | none => exact ⟨_, rfl, rfl, rfl, hraw.symm, hv.symm, rfl, rfl, rfl, rfl, rfl⟩
  | some v =>
    obtain ⟨fields, rfl⟩ := hk.dict v hv
    exact ⟨_, rfl, rfl, rfl, hraw.symm, hv.symm, rfl, rfl, rfl, rfl, rfl⟩

/-- A payload that is no dict has no response. SOURCE: app/schemas/event.py:49-60 -/
theorem ofRow_of_not_dict {k : IdempotencyKey} (hraw : ¬ IsDict k.rawPayload) :
    EnrichedEventResponse.ofRow k = none := by
  unfold EnrichedEventResponse.ofRow
  split
  · rename_i raw _ heq _
    exact absurd ⟨raw, heq⟩ hraw
  · rfl

/-- An accepted event has the answer 500 just when its payload is no dict.
SOURCE: app/consumer/rabbitmq.py:128, app/schemas/event.py:52 -/
theorem failed_iff (h : Reachable (step cfg) World.init s) {k : IdempotencyKey}
    (hk : k ∈ s.intake.keys) :
    getEvent k.messageId s.intake.keys = .failed ↔ ¬ IsDict k.rawPayload := by
  rw [getEvent_of_mem h hk]
  constructor
  · intro hfailed hraw
    obtain ⟨response, hresponse, _⟩ := exists_shows ((readInv_of_reachable h).row k hk) hraw
    rw [hresponse] at hfailed
    cases hfailed
  · intro hraw
    rw [ofRow_of_not_dict hraw]
    rfl

/-- A 200 shows a row of the table. -/
theorem shows_of_found (h : Reachable (step cfg) World.init s) {m : PyStr}
    {response : EnrichedEventResponse} (hfound : getEvent m s.intake.keys = .found response) :
    ∃ k ∈ s.intake.keys, k.messageId = m ∧ IsDict k.rawPayload ∧ Shows response k := by
  unfold getEvent at hfound
  split at hfound
  · split at hfound
    · rename_i k hl
      obtain ⟨hk, hid⟩ := of_lookup_eq_some hl
      by_cases hraw : IsDict k.rawPayload
      · obtain ⟨response', hresponse, hshows⟩ :=
          exists_shows ((readInv_of_reachable h).row k hk) hraw
        rw [hresponse] at hfound
        cases hfound
        exact ⟨k, hk, hid, hraw, hshows⟩
      · rw [ofRow_of_not_dict hraw] at hfound
        cases hfound
    · cases hfound
  · cases hfound

end

/-! ## The results -/

/-- The later response agrees with the earlier one. The outcome may change: an event that is
enriched or failed is still the one or the other, and an error may give way to another one. -/
structure ResponseExtends (r r' : EnrichedEventResponse) : Prop where
  messageId : r'.messageId = r.messageId
  eventType : r'.eventType = r.eventType
  rawPayload : r'.rawPayload = r.rawPayload
  receivedAt : r'.receivedAt = r.receivedAt
  /-- no code sets it -/
  dispatchedAt : r.dispatchedAt = none ∧ r'.dispatchedAt = none
  decided : r.status ≠ .received → r'.status = .enriched ∨ r'.status = .failed
  error : r.error ≠ none → r'.error ≠ none
  enriched : r.enrichedPayload ≠ none →
    r'.enrichedPayload = r.enrichedPayload ∧ r'.enrichedAt = r.enrichedAt

/-- What the later version of the row keeps, the later response keeps. -/
theorem responseExtends_of_shows {k k' : IdempotencyKey} {r r' : EnrichedEventResponse}
    (h : RowExtends k k') (hdispatched : k'.status ≠ .dispatched) (hr : Shows r k)
    (hr' : Shows r' k') : ResponseExtends r r' := by
  refine ⟨?_, ?_, ?_, ?_, ?_, fun hst => ?_, fun herr => ?_, fun hsome => ?_⟩
  · rw [hr'.messageId, hr.messageId, h.messageId]
  · rw [hr'.eventType, hr.eventType, h.eventType]
  · exact Json.obj.inj (by rw [hr'.rawPayload, hr.rawPayload, h.rawPayload])
  · rw [hr'.receivedAt, hr.receivedAt, h.receivedAt]
  · exact ⟨hr.dispatchedAt, hr'.dispatchedAt⟩
  · have hdecided := h.decided (hr.status ▸ hst)
    rw [hr'.status]
    cases hk' : k'.status with
    | received => exact absurd hk' hdecided
    | enriched => exact Or.inl rfl
    | dispatched => exact absurd hk' hdispatched
    | failed => exact Or.inr rfl
  · rw [hr'.error]
    exact h.error (hr.error ▸ herr)
  · have hk : k.enrichedPayload ≠ none := by
      rw [← hr.enrichedPayload]
      simpa using hsome
    obtain ⟨hpayload, hat⟩ := h.enriched hk
    rw [← hr.enrichedPayload, ← hr'.enrichedPayload] at hpayload
    refine ⟨Option.map_injective (fun _ _ => Json.obj.inj) hpayload, ?_⟩
    rw [hr'.enrichedAt, hr.enrichedAt, hat]

/-- The answers about event `m` in a state and in a later one. -/
structure AnswersAgree (s s' : World) (m : PyStr) : Prop where
  /-- an event that was shown is shown again -/
  found : ∀ r, getEvent m s.intake.keys = .found r →
    ∃ r', getEvent m s'.intake.keys = .found r' ∧ ResponseExtends r r'
  /-- an event that cannot be shown is one whose payload is no dict, and is never shown -/
  failed : ∀ k ∈ s.intake.keys, k.messageId = m →
    (getEvent m s.intake.keys = .failed ↔ ¬ IsDict k.rawPayload) ∧
    (getEvent m s.intake.keys = .failed → getEvent m s'.intake.keys = .failed)

/-- Whatever happens between two reads of an event, the later answer agrees with the earlier one.
SOURCE: app/api/events.py:49-59, app/schemas/event.py:49-60,
app/consumer/rabbitmq.py:47-71,149-265 -/
theorem event_answers_agree (cfg : Settings) (s s' : World)
    (h : Reachable (step cfg) World.init s) (h' : Reachable (step cfg) s s') (m : PyStr) :
    AnswersAgree s s' m := by
  have hextend := keysExtend_of_reachable h h'
  have hreach' := h.trans h'
  constructor
  · intro r hr
    obtain ⟨k, hk, rfl, hraw, hshows⟩ := shows_of_found h hr
    obtain ⟨k', hk', hext⟩ := hextend k hk
    obtain ⟨r', hr', hshows'⟩ := exists_shows ((readInv_of_reachable hreach').row k' hk')
      (hext.rawPayload ▸ hraw)
    have hanswer := getEvent_of_mem hreach' hk'
    rw [hr', hext.messageId] at hanswer
    exact ⟨r', hanswer,
      responseExtends_of_shows hext (not_dispatched hreach' k' hk') hshows hshows'⟩
  · rintro k hk rfl
    refine ⟨failed_iff h hk, fun hfailed => ?_⟩
    obtain ⟨k', hk', hext⟩ := hextend k hk
    rw [← hext.messageId, failed_iff hreach' hk', hext.rawPayload]
    exact (failed_iff h hk).1 hfailed

def enrichedLater : World :=
  (run (step .default) duplicateSkipped
    (.handler 0 (.enrich mockOutcome) :: enrichedAndFetched)).get enrichedAndFetched_enabled

/-- An event is read before and after its enrichment is stored. -/
theorem event_answers_agree_enrichedLater :
    AnswersAgree duplicateSkipped enrichedLater (py "shared") :=
  event_answers_agree .default duplicateSkipped enrichedLater
    (Reachable.of_run publishedTwice_enabled) (Reachable.of_run enrichedAndFetched_enabled) _

/-- The response shows the request. -/
structure ShowsRequest (response : EnrichedEventResponse) (req : EventPublishRequest) (u : Uuid) :
    Prop where
  messageId : response.messageId = publishedId req u
  eventType : response.eventType = req.eventType
  rawPayload : response.rawPayload = req.payload
  enrichedPayload : ∀ e, response.enrichedPayload = some e → ∃ x, e = withEnrichment req.payload x

/-- Every event that was accepted from the API is shown, and what is shown is one request, the
one whose message was accepted. SOURCE: app/api/events.py:23-59, app/consumer/rabbitmq.py:106-265 -/
theorem published_event_is_shown (cfg : Settings) (as : List Action) (s : World)
    (h : run (step cfg) World.init as = some s)
    (hC : Meets (step cfg) PublishesAndEnriches World.init as) :
    ∀ m ∈ s.intake.ids, ∃ t req u response,
      getEvent m s.intake.keys = .found response ∧ ShowsRequest response req u ∧
      Entry.published t (publishEvent req u) ∈ entriesOf cfg as ∧
      ∀ t', Entry.recorded t' m ∈ entriesOf cfg as ↔ t' = t := by
  intro m hm
  have hreach : Reachable (step cfg) World.init s := ⟨as, h⟩
  have hinv := traceInv_of_run h hC
  obtain ⟨k, hk, rfl⟩ := List.mem_map.1 hm
  obtain ⟨t, c, e, hrec, hc, hbears, hrow⟩ := hinv.rows k hk
  -- The copy of the call is a published one.
  obtain ⟨_, b, hpub⟩ := hinv.recorded t _ hrec
  obtain ⟨c', hc', rfl⟩ := hinv.published t b hpub
  rw [hc] at hc'
  cases hc'
  obtain ⟨req, u, hbody, hround⟩ := hinv.request t _ hpub
  rw [hbody] at hpub hbears
  obtain rfl : e = requestEvent req u := hbears.unique (bears_publishEvent hround)
  obtain ⟨response, hresponse, hshows⟩ :=
    exists_shows ((readInv_of_reachable hreach).row k hk) ⟨_, hrow.rawPayload⟩
  refine ⟨t, req, u, response, by rw [getEvent_of_mem hreach hk, hresponse]; rfl,
    ⟨hshows.messageId.trans hrow.messageId, hshows.eventType.trans hrow.eventType,
      Json.obj.inj (hshows.rawPayload.trans hrow.rawPayload), fun enriched he => ?_⟩,
    hpub, fun t' => ⟨fun hrec' => hinv.unique t' t _ hrec' hrec, fun heq => heq ▸ hrec⟩⟩
  have hpayload := hshows.enrichedPayload
  rw [he] at hpayload
  obtain ⟨x, hx⟩ := hrow.enrichedPayload _ hpayload.symm
  exact ⟨x, Json.obj.inj hx⟩

/-- Two requests share an id, and the first one is accepted and shown. -/
theorem published_event_is_shown_sharedId : ∃ t req u response,
    getEvent (py "shared") enrichedLater.intake.keys = .found response ∧
      ShowsRequest response req u ∧
      Entry.published t (publishEvent req u) ∈ entriesOf .default wholeHistory := by
  have hrun := run_append_eq_some.2 ⟨_, (Option.some_get publishedTwice_enabled).symm,
    (Option.some_get enrichedAndFetched_enabled).symm⟩
  have hC := Meets.append (Option.some_get publishedTwice_enabled).symm meets_publishedTwice
    meets_enriched
  obtain ⟨t, req, u, response, hfound, hshows, hpub, _⟩ :=
    published_event_is_shown .default wholeHistory enrichedLater hrun hC (py "shared")
      (List.Mem.head _)
  exact ⟨t, req, u, response, hfound, hshows, hpub⟩

end EventPipeline.Analysis
