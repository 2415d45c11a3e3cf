import EventPipeline.Analysis.ClaimLocks
import EventPipeline.Analysis.ExactlyOnceAcceptance
import EventPipeline.Analysis.PublishLimits
import EventPipeline.Interface.CallSteps
import EventPipeline.Interface.KeyRows
import EventPipeline.Interface.SubscriberRows

/-!
# Whether the consumer can store what the API accepts

The request schema bounds lengths; the columns also refuse U+0000, an unpaired surrogate and
the number tokens that are not JSON. A published message is recorded in every run in which
the database works for its call if and only if the three values are free of these.
-/

set_option autoImplicit false

namespace EventPipeline.Analysis

open EventPipeline.Model EventPipeline.Program EventPipeline.Interface EventPipeline.Computation

/-! ## The condition -/

/-- The message id that the consumer reads from the body of a published event.
SOURCE: app/api/events.py:25-33, app/consumer/rabbitmq.py:125 -/
def recordedId (body : EventPublishRequest) (u : Uuid) : MessageId :=
  Json.joinSurrogates (publishedId body u)

/-- The values of the request contain no U+0000, no unpaired surrogate, and no NaN, Infinity
or -Infinity. -/
structure StorableRequest (body : EventPublishRequest) (u : Uuid) : Prop where
  message_id : Json.storable (recordedId body u) = true
  event_type : Json.storable (Json.joinSurrogates body.eventType) = true
  payload : (Json.obj body.payload).reread.jsonbAccepts = true

/-- The event that the call takes from the body. -/
def publishedRaw (body : EventPublishRequest) (u : Uuid) : RawEvent where
  messageId := .str (recordedId body u)
  eventType := .str (Json.joinSurrogates body.eventType)
  payload := (Json.obj body.payload).reread

/-- Joining surrogates does not lengthen a text. -/
theorem length_joinSurrogates_le (s : PyStr) : (Json.joinSurrogates s).length ≤ s.length := by
  fun_induction Json.joinSurrogates s with
  | case1 => simp
  | case2 => simp
  | case3 _ _ _ _ ih =>
    simp only [List.length_cons]
    omega
  | case4 _ _ _ _ ih =>
    simp only [List.length_cons] at ih ⊢
    omega

/-- Nor does it empty one. -/
theorem joinSurrogates_ne_nil {s : PyStr} (h : s ≠ []) : Json.joinSurrogates s ≠ [] := by
  unfold Json.joinSurrogates
  split
  · exact absurd rfl h
  · exact List.cons_ne_nil _ _
  · split
    · exact List.cons_ne_nil _ _
    · exact List.cons_ne_nil _ _

/-- The items of the body as the consumer reads them. SOURCE: app/api/events.py:27-32 -/
def publishedItems (body : EventPublishRequest) (u : Uuid) : List (PyStr × Json) :=
  [(py "message_id", .str (recordedId body u)),
    (py "event_type", .str (Json.joinSurrogates body.eventType)),
    (py "payload", (Json.obj body.payload).reread)]

/-- What the consumer reads of a published event. SOURCE: app/api/events.py:27-32 -/
theorem reread_publishedEvent (body : EventPublishRequest) (u : Uuid) :
    (publishedEvent body u).reread = .obj (publishedItems body u) := by
  have hkeys : Json.joinSurrogates (py "message_id") = py "message_id" ∧
      Json.joinSurrogates (py "event_type") = py "event_type" ∧
      Json.joinSurrogates (py "payload") = py "payload" := by decide
  have hne : py "message_id" ≠ py "event_type" ∧ py "message_id" ≠ py "payload" ∧
      py "event_type" ≠ py "payload" := by decide
  obtain ⟨hid, htype, hpayload⟩ := hkeys
  simp only [publishedEvent, Json.reread, Json.rereadFields, hid, htype, hpayload]
  rw [Json.setItem_of_new (k := py "message_id"), Json.setItem_of_new (k := py "event_type"),
    Json.setItem_of_new (k := py "payload")]
  · rfl
  · simp [hne]
  · simp [hne]
  · simp

/-- The body names the message, and the call parses it to the published event.
SOURCE: app/consumer/rabbitmq.py:109-128 -/
theorem parseMessage_published {cfg : Settings} (body : EventPublishRequest) (u u' : Uuid)
    (hcfg : Settings.default.consumerMaxMessageBytes ≤ cfg.consumerMaxMessageBytes) :
    parseMessage cfg (publishEvent body u) u' = .event (publishedRaw body u) := by
  have hsize := length_publishEvent_le body u
  have hguard : ¬ cfg.consumerMaxMessageBytes < (publishEvent body u).size := by omega
  have hid := joinSurrogates_ne_nil (publishedId_ne_nil body u)
  have hne : py "message_id" ≠ py "event_type" ∧ py "message_id" ≠ py "payload" ∧
      py "event_type" ≠ py "payload" := by decide
  rw [parseMessage, if_neg hguard]
  simp [publishEvent, reread_publishedEvent, publishedItems, Json.get, hne, Json.truthy,
    publishedRaw, recordedId, hid]

/-- A published body names its message. SOURCE: app/consumer/rabbitmq.py:125 -/
theorem names_publishEvent {cfg : Settings} (body : EventPublishRequest) (u : Uuid)
    (hcfg : Settings.default.consumerMaxMessageBytes ≤ cfg.consumerMaxMessageBytes) :
    Names cfg (publishEvent body u) (recordedId body u) := by
  refine ⟨(length_publishEvent_le body u).trans hcfg, ⟨publishedItems body u, ?_, ?_⟩,
    joinSurrogates_ne_nil (publishedId_ne_nil body u)⟩
  · rw [publishEvent, reread_publishedEvent]
  · simp [publishedItems, Json.get]

/-- The database takes the values of the INSERT if and only if the request is storable.
SOURCE: app/consumer/rabbitmq.py:47-66, app/db/models.py:45-48 -/
theorem insertValues_publishedRaw_iff (body : EventPublishRequest) (u : Uuid) :
    (∃ new, insertValues (publishedRaw body u) = some new) ↔ StorableRequest body u := by
  have hid : (recordedId body u).length ≤ 255 :=
    (length_joinSurrogates_le _).trans (length_publishedId_le body u)
  have htype : (Json.joinSurrogates body.eventType).length ≤ 255 :=
    (length_joinSurrogates_le _).trans body.event_type_length.2
  simp only [insertValues, publishedRaw, Json.varcharAccepts, hid, htype, decide_true,
    Bool.true_and]
  constructor
  · rintro ⟨new, h⟩
    split at h
    · rename_i hall
      simp only [Bool.and_eq_true] at hall
      exact ⟨hall.1.1, hall.1.2, hall.2⟩
    · cases h
  · intro h
    rw [h.message_id, h.event_type, h.payload]
    exact ⟨_, rfl⟩

/-! ## The property -/

/-- The database works for call `t`. -/
def DatabaseAvailable (t : Tag) (_ : World) (a : Action) : Prop := a ≠ .handler t .dbError

/-- The broker holds the copy no longer. -/
def Settled (s : World) (t : Tag) : Prop := ∃ c, s.intake.copies t = some c ∧ c.held = false

/-- Whenever and wherever the message is published, its call settles the copy in some run
with the database available, and in every such run the message is recorded once the copy is
settled. -/
structure StoredWhenHandled (cfg : Settings) (body : EventPublishRequest) (u : Uuid) : Prop where
  recorded : ∀ s s₁ s' t, Reachable (step cfg) World.init s →
    step cfg s (.publish t (publishEvent body u)) = some s₁ →
    ReachableIf (step cfg) (DatabaseAvailable t) s₁ s' → Settled s' t →
    recordedId body u ∈ s'.intake.ids
  settles : ∀ s s₁ t, Reachable (step cfg) World.init s →
    step cfg s (.publish t (publishEvent body u)) = some s₁ →
    ∃ s', ReachableIf (step cfg) (DatabaseAvailable t) s₁ s' ∧ Settled s' t

/-! ## Storable requests are recorded -/

/-- What holds of the copy of a published message and of its call: a rejected copy is one
whose message is recorded. -/
structure PublishedOk (body : EventPublishRequest) (u : Uuid) (t : Tag) (i : Intake) : Prop where
  copy : ∃ st, i.copies t = some ⟨publishEvent body u, st⟩ ∧
    (st = .rejected → recordedId body u ∈ i.ids)
  parsed : ∀ ev, i.handlers t = .parsed ev → ev = publishedRaw body u

section
variable {cfg : Settings} {body : EventPublishRequest} {u : Uuid} {t : Tag} {s s' : World}

/-- The event of a call on the copy is the message. -/
theorem messageId_of_selected (hreach : Reachable (step cfg) World.init s)
    (hcfg : Settings.default.consumerMaxMessageBytes ≤ cfg.consumerMaxMessageBytes)
    (hok : PublishedOk body u t s.intake) {ev : NewEvent} {receivedAt readAt : Time}
    {seen : List Subscriber} (hh : s.intake.handlers t = .selected ev receivedAt seen readAt) :
    ev.messageId = recordedId body u := by
  obtain ⟨st, hc, _⟩ := hok.copy
  have hworks := ((intakeInv_of_reachable hreach).call t).works _ _ hc
    (names_publishEvent body u hcfg)
  rwa [hh] at hworks

/-- One step of the call. SOURCE: app/consumer/rabbitmq.py:106-197 -/
theorem PublishedOk.moved {a : HandlerAction} {i : Intake} {attempts : List DeliveryAttempt}
    (hreach : Reachable (step cfg) World.init s)
    (hcfg : Settings.default.consumerMaxMessageBytes ≤ cfg.consumerMaxMessageBytes)
    (hst : StorableRequest body u) (hok : PublishedOk body u t s.intake) (ha : a ≠ .dbError)
    (hsub : s.intake.ids ⊆ i.ids)
    (h : HandlerStep cfg s.now s.registry.subscribers s.intake s.delivery.attempts t a i
      attempts) : PublishedOk body u t i := by
  obtain ⟨⟨st, hc, hrej⟩, hparsed⟩ := hok
  have hkeep : i.copies t = s.intake.copies t →
      ∃ st, i.copies t = some ⟨publishEvent body u, st⟩ ∧
        (st = .rejected → recordedId body u ∈ i.ids) :=
    fun heq => ⟨st, heq.trans hc, fun hst => hsub (hrej hst)⟩
  have hstart : ∀ b u', s.intake.copies t = some ⟨b, .ready⟩ →
      parseMessage cfg b u' = .event (publishedRaw body u) := by
    intro b u' hb
    have heq : b = publishEvent body u := congrArg Copy.body (Option.some.inj (hb.symm.trans hc))
    rw [heq]
    exact parseMessage_published body u u' hcfg
  cases h with
  | discard hcopy _ hp =>
    rw [hstart _ _ hcopy] at hp
    cases hp
  | raised hcopy _ hp =>
    rw [hstart _ _ hcopy] at hp
    cases hp
  | event hcopy _ hp =>
    rw [hstart _ _ hcopy] at hp
    cases hp
    exact ⟨⟨.unacked, by simp [hc], by simp⟩, by simp⟩
  | insertRaised hh hv =>
    obtain ⟨new, hnew⟩ := (insertValues_publishedRaw_iff body u).2 hst
    rw [hparsed _ hh, hnew] at hv
    cases hv
  | commit hh hcommit =>
    obtain ⟨_, _, rfl⟩ := commitEvent_eq_some hcommit
    exact ⟨hkeep rfl, by simp⟩
  | commitLost hh hcommit =>
    -- The COMMIT has taken effect, so the rejected copy is recorded.
    obtain ⟨_, _, rfl⟩ := commitEvent_eq_some hcommit
    have hid := messageId_of_selected hreach hcfg ⟨⟨st, hc, hrej⟩, hparsed⟩ hh
    refine ⟨⟨processOnException processRequeue st, by simp [raiseFrom, hc], fun _ => ?_⟩,
      by simp [raiseFrom]⟩
    rw [← hid]
    simp [raiseFrom, Intake.ids, newKey]
  | dbError => exact absurd rfl ha
  | ackOnly _ => exact ⟨⟨.acked, by simp [hc], by simp⟩, by simp⟩
  | ackEarly _ => exact ⟨⟨.acked, by simp [hc], by simp⟩, by simp⟩
  | crash =>
    refine ⟨⟨_, by simp [crashHandler, hc]; rfl, fun hst' => hsub (hrej ?_)⟩, by simp [crashHandler]⟩
    cases st <;> simp_all
  | _ => exact ⟨hkeep rfl, by simp⟩

/-- A step of the pipeline. -/
theorem PublishedOk.step {a : Action} (hreach : Reachable (step cfg) World.init s)
    (hcfg : Settings.default.consumerMaxMessageBytes ≤ cfg.consumerMaxMessageBytes)
    (hst : StorableRequest body u) (hok : PublishedOk body u t s.intake)
    (ha : DatabaseAvailable t s a) (hs : Program.step cfg s a = some s') :
    PublishedOk body u t s'.intake := by
  have hsub := (keysStep_of_step hs).ids_subset
  obtain ⟨st, hc, hrej⟩ := hok.copy
  cases callStep_of_step hs t with
  | still hcopy hh =>
    exact ⟨⟨st, hcopy.trans hc, fun h => hsub (hrej h)⟩, fun ev hev => hok.parsed ev (hh ▸ hev)⟩
  | published hnone _ _ =>
    rw [hnone] at hc
    cases hc
  | reEnqueued _ hnone _ _ =>
    rw [hnone] at hc
    cases hc
  | moved h => exact hok.moved hreach hcfg hst (fun heq => ha (by rw [heq])) hsub h

/-- Right after the publish. SOURCE: app/api/events.py:35-43 -/
theorem publishedOk_of_publish (hreach : Reachable (step cfg) World.init s)
    (hs : Program.step cfg s (.publish t (publishEvent body u)) = some s') :
    s'.intake.copies t = some ⟨publishEvent body u, .ready⟩ ∧
      s'.intake.handlers t = .idle ∧ PublishedOk body u t s'.intake := by
  have hidle : s.intake.copies t = none → s.intake.handlers t = .idle :=
    ((intakeInv_of_reachable hreach).call t).idle_of_none
  cases worldStep_of_eq_some hs with
  | publish hc =>
    refine ⟨Function.update_self _ _ _, hidle hc, ⟨.ready, Function.update_self _ _ _, by simp⟩, ?_⟩
    intro ev hev
    have hparsed : s.intake.handlers t = .parsed ev := hev
    rw [hidle hc] at hparsed
    cases hparsed

/-- A storable request is recorded once its copy is settled.
SOURCE: app/consumer/rabbitmq.py:106-147 -/
theorem recorded_of_storable
    (hcfg : Settings.default.consumerMaxMessageBytes ≤ cfg.consumerMaxMessageBytes)
    (hst : StorableRequest body u) {s₁ : World} (hreach : Reachable (step cfg) World.init s)
    (hs : Program.step cfg s (.publish t (publishEvent body u)) = some s₁)
    (h : ReachableIf (step cfg) (DatabaseAvailable t) s₁ s') (hsettled : Settled s' t) :
    recordedId body u ∈ s'.intake.ids := by
  have hreach₁ := hreach.snoc hs
  have hok : PublishedOk body u t s'.intake := by
    refine h.induct (I := fun s => PublishedOk body u t s.intake)
      (publishedOk_of_publish hreach hs).2.2 ?_
    intro m a m' hm hok ha hstep
    exact hok.step (hreach₁.trans hm.reachable) hcfg hst ha hstep
  obtain ⟨c, hc, hheld⟩ := hsettled
  obtain ⟨st, hc', hrej⟩ := hok.copy
  obtain rfl := Option.some.inj (hc.symm.trans hc')
  cases st with
  | ready => cases hheld
  | unacked => cases hheld
  | rejected => exact hrej rfl
  | acked =>
    have hinv := intakeInv_of_reachable (hreach₁.trans h.reachable)
    exact (hinv.call t).acked _ _ hc' (names_publishEvent body u hcfg) rfl

end

/-! ## The call of a storable request settles its copy -/

/-- There are always enough new identifiers. -/
theorem exists_new_ids (used : List Uuid) (n : ℕ) :
    ∃ ids : List Uuid, ids.length = n ∧ ids.Nodup ∧ ∀ id ∈ ids, id ∉ used := by
  obtain ⟨bound, hbound⟩ : ∃ bound, ∀ id ∈ used, id.val < bound := by
    induction used with
    | nil => exact ⟨0, by simp⟩
    | cons id used ih =>
      obtain ⟨bound, hbound⟩ := ih
      refine ⟨max (id.val + 1) bound, fun id' hid' => ?_⟩
      obtain rfl | hmem := List.mem_cons.1 hid'
      · omega
      · have hlt := hbound id' hmem
        omega
  refine ⟨(List.range n).map fun i => ⟨bound + i⟩, by simp, ?_, ?_⟩
  · refine List.Nodup.map (fun i j h => ?_) List.nodup_range
    have hval : bound + i = bound + j := congrArg Uuid.val h
    omega
  · intro id hid hused
    obtain ⟨i, _, rfl⟩ := List.mem_map.1 hid
    have hlt : bound + i < bound := hbound _ hused
    omega

section
variable {cfg : Settings} {body : EventPublishRequest} {u : Uuid} {t : Tag} {s : World}

/-- The INSERT of the attempts of a new message goes through for some identifiers.
SOURCE: app/consumer/rabbitmq.py:74-93, app/db/models.py:67-83 -/
theorem exists_insertAttempts (hreach : Reachable (step cfg) World.init s) {m : MessageId}
    (hm : m ∉ s.intake.ids) (readAt now : Time) :
    ∃ ids, ids.length = (s.registry.subscribers.filter Subscriber.receives).length ∧
      insertAttempts s.delivery.attempts
        (createDeliveryAttempts m s.registry.subscribers ids readAt now) =
          some (s.delivery.attempts ++
            createDeliveryAttempts m s.registry.subscribers ids readAt now) := by
  obtain ⟨ids, hlen, hnodup, hnew⟩ := exists_new_ids
    (s.delivery.attempts.map DeliveryAttempt.id)
    (s.registry.subscribers.filter Subscriber.receives).length
  obtain ⟨hvalid, hrefines⟩ := refinesInbox_of_reachable hreach
  have hrecipients : (recipients s.registry.subscribers).Nodup :=
    ((List.filter_sublist).map Subscriber.id).nodup (subscriber_ids_nodup hreach)
  refine ⟨ids, hlen, insertAttempts_of_new hlen ?_ (hrefines.entries ▸ hvalid.entries_nodup)
    hrecipients fun r hmem => ?_⟩
  · exact (lockInv_of_reachable hreach).ids_nodup.append hnodup fun id hused hid => hnew id hid hused
  · rw [← hrefines.entries] at hmem
    obtain ⟨rs, hmem, _⟩ := Inbox.mem_entries.1 hmem
    exact hm (hrefines.keys ▸ List.mem_map_of_mem hmem)

/-- A run in which no other call has an INSERT of `m` open any more: the process of the one
that had it has died. -/
theorem exists_unblocked (hreach : Reachable (step cfg) World.init s) (m : MessageId)
    {c : Option Copy} (hc : s.intake.copies t = c) (hh : s.intake.handlers t = .idle) :
    ∃ s', ReachableIf (step cfg) (DatabaseAvailable t) s s' ∧ s'.intake.copies t = c ∧
      s'.intake.handlers t = .idle ∧ m ∉ s'.intake.openInserts.map Prod.snd := by
  by_cases hopen : m ∈ s.intake.openInserts.map Prod.snd
  · obtain ⟨⟨t', m'⟩, hmem, rfl⟩ := List.mem_map.1 hopen
    have hinv := intakeInv_of_reachable hreach
    have hins := (hinv.open_iff t' m').1 hmem
    have hne : s.intake.handlers t' ≠ .idle := by
      intro heq
      rw [heq] at hins
      cases hins
    have ht : t ≠ t' := fun heq => hne (heq ▸ hh)
    refine ⟨{ s with intake := crashHandler s.intake t' },
      (ReachableIf.refl s).snoc (a := .handler t' .crash) (by simp [DatabaseAvailable]) ?_, ?_, ?_, ?_⟩
    · cases hphase : s.intake.handlers t' with
      | idle => exact absurd hphase hne
      | _ => simp [step, handleMessage, hphase]
    · simp [crashHandler, ht, hc]
    · simp [crashHandler, ht, hh]
    · simp only [crashHandler, Intake.modifyCopy_openInserts, Intake.setHandler_openInserts,
        Intake.closeInsert_openInserts]
      intro hmem'
      obtain ⟨⟨t'', m''⟩, hfiltered, rfl⟩ := List.mem_map.1 hmem'
      obtain ⟨hmem'', hne''⟩ := List.mem_filter.1 hfiltered
      have heq := hinv.open_unique t'' t' _ ((hinv.open_iff t'' _).1 hmem'') hins
      exact of_decide_eq_true hne'' heq
  · exact ⟨s, ReachableIf.refl s, hc, hh, hopen⟩

/-- The call runs to its ACK when nothing interferes. SOURCE: app/consumer/rabbitmq.py:106-147 -/
theorem exists_settled
    (hcfg : Settings.default.consumerMaxMessageBytes ≤ cfg.consumerMaxMessageBytes)
    (hst : StorableRequest body u) (hreach : Reachable (step cfg) World.init s)
    (hc : s.intake.copies t = some ⟨publishEvent body u, .ready⟩)
    (hh : s.intake.handlers t = .idle)
    (hopen : recordedId body u ∉ s.intake.openInserts.map Prod.snd) :
    ∃ s', ReachableIf (step cfg) (DatabaseAvailable t) s s' ∧ Settled s' t := by
  obtain ⟨new, hnew⟩ := (insertValues_publishedRaw_iff body u).2 hst
  have hid : new.messageId = recordedId body u :=
    (Json.str.inj (messageId_of_insertValues hnew)).symm
  have hparse := parseMessage_published body u ⟨0⟩ hcfg
  by_cases hm : recordedId body u ∈ s.intake.ids
  · -- The message is recorded already.
    have hrun : ∃ s', run (step cfg) s ([.start ⟨0⟩, .insert, .ack].map (.handler t)) = some s' ∧
        Settled s' t := by
      simp [run, step, handleMessage, hc, hh, hparse, hnew, hid, hm, Settled, Copy.held]
    obtain ⟨s', hrun, hsettled⟩ := hrun
    exact ⟨s', ⟨_, hrun, by simp [Meets, DatabaseAvailable]⟩, hsettled⟩
  · obtain ⟨ids, hlen, hins⟩ := exists_insertAttempts hreach hm s.now s.now
    have hrun : ∃ s', run (step cfg) s
        ([.start ⟨0⟩, .insert, .selectSubscribers, .commit ids, .ack].map (.handler t)) = some s' ∧
        Settled s' t := by
      simp [run, step, handleMessage, hc, hh, hparse, hnew, hid, hm, hopen, commitEvent, hlen, hins,
        Settled, Copy.held]
    obtain ⟨s', hrun, hsettled⟩ := hrun
    exact ⟨s', ⟨_, hrun, by simp [Meets, DatabaseAvailable]⟩, hsettled⟩

end

/-! ## The result -/

/-- A request that can be stored is stored when it is handled. -/
theorem stored_of_storable {cfg : Settings} {body : EventPublishRequest} {u : Uuid}
    (hcfg : Settings.default.consumerMaxMessageBytes ≤ cfg.consumerMaxMessageBytes)
    (hst : StorableRequest body u) : StoredWhenHandled cfg body u := by
  constructor
  · intro s s₁ s' t hreach hs h hsettled
    exact recorded_of_storable hcfg hst hreach hs h hsettled
  · intro s s₁ t hreach hs
    obtain ⟨hc, hh, _⟩ := publishedOk_of_publish hreach hs
    have hreach₁ := hreach.snoc hs
    obtain ⟨s₂, hrun, hc₂, hh₂, hopen⟩ := exists_unblocked hreach₁ (recordedId body u) hc hh
    obtain ⟨s', hrest, hsettled⟩ :=
      exists_settled hcfg hst (hreach₁.trans hrun.reachable) hc₂ hh₂ hopen
    exact ⟨s', hrun.trans hrest, hsettled⟩

/-- The API answers with 202, the INSERT raises, and the copy is rejected.
SOURCE: app/consumer/rabbitmq.py:107,131-133 -/
theorem not_stored_of_not_storable {cfg : Settings} {body : EventPublishRequest} {u : Uuid}
    (hcfg : Settings.default.consumerMaxMessageBytes ≤ cfg.consumerMaxMessageBytes)
    (hst : ¬ StorableRequest body u) : ¬ StoredWhenHandled cfg body u := by
  intro h
  have hnone : insertValues (publishedRaw body u) = none := by
    rw [← insertValues_publishedRaw_iff] at hst
    exact Option.eq_none_iff_forall_ne_some.2 fun new hnew => hst ⟨new, hnew⟩
  have hparse := parseMessage_published body u ⟨0⟩ hcfg
  obtain ⟨s₁, hs₁, hc, hh, hids⟩ : ∃ s₁,
      step cfg World.init (.publish 0 (publishEvent body u)) = some s₁ ∧
      s₁.intake.copies 0 = some ⟨publishEvent body u, .ready⟩ ∧
      s₁.intake.handlers 0 = .idle ∧ s₁.intake.ids = [] := by
    simp [step, World.init, Intake.init, Intake.ids]
  obtain ⟨s', hrun, hsettled, hids'⟩ : ∃ s',
      run (step cfg) s₁ ([.start ⟨0⟩, .insert].map (.handler 0)) = some s' ∧ Settled s' 0 ∧
      s'.intake.ids = [] := by
    simp [run, step, handleMessage, hc, hh, hparse, hnone, raiseFrom, Settled, Copy.held,
      processOnException, processRequeue, hids]
  have hmem := h.recorded World.init s₁ s' 0 (Reachable.refl _) hs₁
    ⟨_, hrun, by simp [Meets, DatabaseAvailable]⟩ hsettled
  rw [hids'] at hmem
  cases hmem

/-- What the API accepts is stored whenever it is handled if and only if its values are
storable. SOURCE: app/schemas/event.py:11-41, app/consumer/rabbitmq.py:40-71,
app/db/models.py:45-61 -/
theorem stored_when_handled_iff (cfg : Settings) (body : EventPublishRequest) (u : Uuid)
    (hcfg : Settings.default.consumerMaxMessageBytes ≤ cfg.consumerMaxMessageBytes) :
    StoredWhenHandled cfg body u ↔ StorableRequest body u := by
  constructor
  · intro h
    by_contra hst
    exact not_stored_of_not_storable hcfg hst h
  · exact stored_of_storable hcfg

/-- A request with an emoji. -/
def emojiRequest : EventPublishRequest where
  eventType := py "note.added"
  payload := [(py "note", .str [chr 0x1f600])]
  messageId := some (py "n")
  event_type_length := by decide
  event_type_unicode := by decide
  payload_size := rfl
  message_id_length := by decide
  message_id_unicode := by decide
  payload_floats := by decide

/-- A pair of escaped surrogates is stored as one character. -/
theorem stored_when_handled_iff_emojiRequest : StoredWhenHandled .default emojiRequest ⟨7⟩ :=
  (stored_when_handled_iff .default emojiRequest ⟨7⟩ le_rfl).2
    ⟨by decide, by decide, by decide⟩

/-- The API accepts a payload with `NaN`, and the message is lost.
SOURCE: app/schemas/event.py:32-41, app/consumer/rabbitmq.py:107,131-133 -/
theorem accepted_not_stored :
    ¬ ∀ (body : EventPublishRequest) (u : Uuid), StoredWhenHandled .default body u := by
  intro h
  have hst : ¬ StorableRequest sampleRequest ⟨7⟩ := fun hst => absurd hst.payload (by decide)
  exact not_stored_of_not_storable le_rfl hst (h sampleRequest ⟨7⟩)

end EventPipeline.Analysis
