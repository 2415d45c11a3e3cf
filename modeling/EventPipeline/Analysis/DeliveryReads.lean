import EventPipeline.Program.Reads
import EventPipeline.Analysis.ExactlyOnceAcceptance
import EventPipeline.Analysis.ClaimLocks
import EventPipeline.Analysis.EventReads
import EventPipeline.Analysis.DeliveredIsFinal

/-!
# What `list_deliveries` and `pipeline_stats` show

The two calls read tables that workers, retries and calls on messages go on writing. The list
for one event is fixed by the acceptance of the event: later answers have the same deliveries,
with other outcomes. The counts add up to what has been accepted, also when other transactions
commit between the two statements of `pipeline_stats`.
-/

set_option autoImplicit false

namespace EventPipeline.Analysis

open EventPipeline.Model EventPipeline.Program EventPipeline.Interface EventPipeline.Computation

/-! ## What a later state keeps -/

/-- What identifies a delivery in a response. -/
abbrev DeliveryKey := Uuid × Uuid × Time

def rowKey (a : DeliveryAttempt) : DeliveryKey := (a.id, a.subscriberId, a.createdAt)

def responseKey (d : DeliveryAttemptResponse) : DeliveryKey := (d.id, d.subscriberId, d.createdAt)

/-- The rows of one message. -/
def rowsOf (m : MessageId) (attempts : List DeliveryAttempt) : List DeliveryAttempt :=
  attempts.filter fun a => a.messageId = m

section
variable {cfg : Settings} {s s' : World} {a : Action} {m : MessageId} {seen : List Subscriber}

/-- Acceptances are only added. -/
theorem inboxOf_grows (h : Reachable (step cfg) World.init s) (h' : Reachable (step cfg) s s') :
    inboxOf s <+: inboxOf s' := by
  refine h.rel (R := fun s s' => inboxOf s <+: inboxOf s') (fun s => List.prefix_rfl)
    (fun h₁ h₂ => h₁.trans h₂) ?_ h'
  intro s a s' _ hs
  cases accepts_of_step hs with
  | nothing hledger _ _ =>
    rw [inboxOf, inboxOf, hledger]
  | message _ hledger _ _ _ _ =>
    rw [inboxOf, inboxOf, hledger, List.map_append]
    exact List.prefix_append _ _

/-- The keys of the rows of a message are never lost. -/
theorem rowKeys_subset (h : Reachable (step cfg) World.init s) (h' : Reachable (step cfg) s s')
    (m : MessageId) :
    (rowsOf m s.delivery.attempts).map rowKey ⊆ (rowsOf m s'.delivery.attempts).map rowKey := by
  refine h.rel (R := fun s s' => (rowsOf m s.delivery.attempts).map rowKey ⊆
    (rowsOf m s'.delivery.attempts).map rowKey) (fun s => List.Subset.refl _)
    (fun h₁ h₂ => List.Subset.trans h₁ h₂) ?_ h'
  intro s a s' _ hs key hkey
  obtain ⟨row, hrow, rfl⟩ := List.mem_map.1 hkey
  obtain ⟨hrow, hm⟩ := List.mem_filter.1 hrow
  obtain ⟨row', hrow', hstep⟩ := (attemptsStep_of_step hs).exists_row hrow
  refine List.mem_map.2 ⟨row', List.mem_filter.2 ⟨hrow', ?_⟩, ?_⟩
  · rwa [hstep.identity.2.1]
  · cases hstep <;> rfl

/-! ## The rows of one message -/

/-- The subscribers of the rows of a message are its recipients.
SOURCE: app/consumer/rabbitmq.py:74-93 -/
theorem subscriberIds_perm (h : Reachable (step cfg) World.init s)
    (hm : (m, recipients seen) ∈ inboxOf s) :
    ((rowsOf m s.delivery.attempts).map DeliveryAttempt.subscriberId).Perm (recipients seen) := by
  obtain ⟨hvalid, hrefines⟩ := refinesInbox_of_reachable h
  have hpairs : ((rowsOf m s.delivery.attempts).map DeliveryAttempt.pair).Nodup :=
    ((List.filter_sublist).map _).nodup (hrefines.entries ▸ hvalid.entries_nodup)
  -- All these rows have the same first component, so the second one tells them apart.
  have hnodup : ((rowsOf m s.delivery.attempts).map DeliveryAttempt.subscriberId).Nodup := by
    refine List.Nodup.of_map (fun r => (m, r)) ?_
    rw [List.map_map]
    rwa [List.map_congr_left (g := DeliveryAttempt.pair)]
    intro row hrow
    rw [← of_decide_eq_true (List.mem_filter.1 hrow).2]
    rfl
  refine (List.perm_ext_iff_of_nodup hnodup (hvalid.recipients_nodup _ hm)).2 fun r => ?_
  have hentry : (m, r) ∈ Inbox.entries (inboxOf s) ↔ r ∈ recipients seen := by
    rw [Inbox.mem_entries]
    constructor
    · rintro ⟨rs, hrs, hr⟩
      rwa [hvalid.recipients_eq hm hrs]
    · exact fun hr => ⟨_, hm, hr⟩
  rw [← hentry, hrefines.entries]
  constructor
  · intro hr
    obtain ⟨row, hrow, rfl⟩ := List.mem_map.1 hr
    obtain ⟨hrow, heq⟩ := List.mem_filter.1 hrow
    exact of_decide_eq_true heq ▸ List.mem_map_of_mem hrow
  · intro hr
    obtain ⟨row, hrow, heq⟩ := List.mem_map.1 hr
    cases heq
    exact List.mem_map_of_mem (List.mem_filter.2 ⟨hrow, decide_eq_true rfl⟩)

/-- The rows of one message have different keys. -/
theorem rowKeys_nodup (h : Reachable (step cfg) World.init s) (m : MessageId) :
    ((rowsOf m s.delivery.attempts).map rowKey).Nodup := by
  have hids := ((List.filter_sublist (p := fun a => a.messageId = m)).map _).nodup
    (lockInv_of_reachable h).ids_nodup
  refine List.Nodup.of_map Prod.fst ?_
  rwa [List.map_map]

/-- No row is added for a message that has been accepted. -/
theorem rowKeys_perm (h : Reachable (step cfg) World.init s) (h' : Reachable (step cfg) s s')
    (hm : (m, recipients seen) ∈ inboxOf s) :
    ((rowsOf m s'.delivery.attempts).map rowKey).Perm
      ((rowsOf m s.delivery.attempts).map rowKey) := by
  have hlen := (subscriberIds_perm h hm).length_eq
  have hlen' :=
    (subscriberIds_perm (h.trans h') ((inboxOf_grows h h').subset hm)).length_eq
  rw [List.length_map] at hlen hlen'
  have hsub := List.subperm_of_subset (rowKeys_nodup h m) (rowKeys_subset h h' m)
  exact (hsub.perm_of_length_le (by rw [List.length_map, List.length_map, hlen, hlen'])).symm

/-- A message that is not accepted has no rows. -/
theorem rowsOf_eq_nil (h : Reachable (step cfg) World.init s) (hm : m ∉ s.intake.ids) :
    rowsOf m s.delivery.attempts = [] := by
  obtain ⟨_, hrefines⟩ := refinesInbox_of_reachable h
  refine List.filter_eq_nil_iff.2 fun row hrow heq => hm ?_
  have hentry : row.pair ∈ Inbox.entries (inboxOf s) :=
    hrefines.entries ▸ List.mem_map_of_mem hrow
  obtain ⟨rs, hmem, _⟩ := Inbox.mem_entries.1 hentry
  rw [← of_decide_eq_true heq]
  exact hrefines.keys ▸ List.mem_map_of_mem hmem

end

/-! ## The list for one event -/

/-- The query asks for one event and for nothing else. -/
structure AsksFor (q : DeliveryQuery) (m : MessageId) : Prop where
  messageId : q.messageId = some m
  nonempty : m.isEmpty = false
  status : q.status = none
  subscriberId : q.subscriberId = none

/-- The list has deliveries of event `m` only, one for each recipient as far as the limit allows. -/
structure ListsEvent (m : MessageId) (seen : List Subscriber) (limit : ℕ)
    (response : List DeliveryAttemptResponse) : Prop where
  messageId : ∀ d ∈ response, d.messageId = m
  length : response.length = min limit (recipients seen).length
  nodup : (response.map DeliveryAttemptResponse.subscriberId).Nodup
  recipient : ∀ d ∈ response, d.subscriberId ∈ recipients seen

section
variable {cfg : Settings} {s s' : World} {m : MessageId} {seen : List Subscriber}
  {q : DeliveryQuery} {response : List DeliveryAttemptResponse}

/-- A query for a message selects the rows of that message. SOURCE: app/api/deliveries.py:39-45 -/
theorem AsksFor.filter (h : AsksFor q m) (attempts : List DeliveryAttempt) :
    attempts.filter q.selects = rowsOf m attempts := by
  refine List.filter_congr fun row _ => ?_
  simp [DeliveryQuery.selects, h.messageId, h.nonempty, h.status, h.subscriberId]

/-- The response is a page of the rows of the message. -/
theorem AsksFor.page (h : AsksFor q m) {attempts : List DeliveryAttempt}
    (hl : ListsDeliveries q attempts response) :
    ∃ page, IsPage DeliveryAttempt.createdAt q.limit (rowsOf m attempts) page ∧
      response = page.map DeliveryAttemptResponse.ofRow := by
  obtain ⟨_, page, hpage, heq⟩ := hl
  exact ⟨page, h.filter attempts ▸ hpage, heq⟩

/-- A page of the rows of an event lists its recipients. -/
theorem listsEvent_of_page (h : Reachable (step cfg) World.init s)
    (hm : (m, recipients seen) ∈ inboxOf s) {limit : ℕ} {page : List DeliveryAttempt}
    (hpage : IsPage DeliveryAttempt.createdAt limit (rowsOf m s.delivery.attempts) page) :
    ListsEvent m seen limit (page.map DeliveryAttemptResponse.ofRow) := by
  obtain ⟨hvalid, _⟩ := refinesInbox_of_reachable h
  have hperm := subscriberIds_perm h hm
  have hlen := hperm.length_eq
  rw [List.length_map] at hlen
  refine ⟨fun d hd => ?_, ?_, ?_, fun d hd => ?_⟩
  · obtain ⟨row, hrow, rfl⟩ := List.mem_map.1 hd
    exact of_decide_eq_true (List.mem_filter.1 (hpage.subset hrow)).2
  · rw [List.length_map, hpage.length, hlen]
  · rw [List.map_map]
    exact hpage.nodup_map (hperm.nodup_iff.2 (hvalid.recipients_nodup _ hm))
  · obtain ⟨row, hrow, rfl⟩ := List.mem_map.1 hd
    exact hperm.subset (List.mem_map_of_mem (hpage.subset hrow))

/-- A limit that is large enough shows all the deliveries. -/
theorem responseKeys_perm (h : Reachable (step cfg) World.init s)
    (hm : (m, recipients seen) ∈ inboxOf s) (hq : AsksFor q m)
    (hlimit : (recipients seen).length ≤ q.limit)
    (hl : ListsDeliveries q s.delivery.attempts response) :
    (response.map responseKey).Perm ((rowsOf m s.delivery.attempts).map rowKey) := by
  obtain ⟨page, hpage, rfl⟩ := hq.page hl
  have hlen := (subscriberIds_perm h hm).length_eq
  rw [List.length_map] at hlen
  rw [List.map_map]
  exact (hpage.perm (hlen ▸ hlimit)).map rowKey

end

/-- What the lists of an event have to do with its acceptance. -/
structure ListsAgree (s s' : World) (m : MessageId) (q q' : DeliveryQuery) : Prop where
  /-- an event that is not accepted has no deliveries -/
  unknown : m ∉ s.intake.ids → ∀ r, ListsDeliveries q s.delivery.attempts r → r = []
  /-- the call can answer about an accepted event, and the answer lists its recipients -/
  accepted : ∀ seen, ⟨m, seen⟩ ∈ s.intake.ledger →
    (∃ r, ListsDeliveries q s.delivery.attempts r) ∧
    ∀ r, ListsDeliveries q s.delivery.attempts r → ListsEvent m seen q.limit r
  /-- a later answer has the same deliveries -/
  later : ∀ seen, ⟨m, seen⟩ ∈ s.intake.ledger → (recipients seen).length ≤ q.limit →
    (recipients seen).length ≤ q'.limit →
    ∀ r r', ListsDeliveries q s.delivery.attempts r → ListsDeliveries q' s'.delivery.attempts r' →
      (r'.map responseKey).Perm (r.map responseKey)

/-- Two lists of the deliveries of an event, with any steps between the two calls.
SOURCE: app/api/deliveries.py:31-47, app/consumer/rabbitmq.py:74-93 -/
theorem listed_deliveries_agree (cfg : Settings) (s s' : World)
    (h : Reachable (step cfg) World.init s) (h' : Reachable (step cfg) s s') (m : MessageId)
    (q q' : DeliveryQuery) (hq : AsksFor q m) (hq' : AsksFor q' m) : ListsAgree s s' m q q' := by
  have hinbox : ∀ seen, ⟨m, seen⟩ ∈ s.intake.ledger → (m, recipients seen) ∈ inboxOf s :=
    fun seen hm => List.mem_map.2 ⟨_, hm, rfl⟩
  refine ⟨fun hm r hr => ?_, fun seen hm => ⟨?_, fun r hr => ?_⟩,
    fun seen hm hlimit hlimit' r r' hr hr' => ?_⟩
  · obtain ⟨page, hpage, rfl⟩ := hq.page hr
    rw [rowsOf_eq_nil h hm] at hpage
    rw [List.subset_nil.1 hpage.subset]
    rfl
  · -- The key row has taken the text, so the SELECT takes it.
    obtain ⟨page, hpage⟩ := exists_isPage DeliveryAttempt.createdAt q.limit
      (rowsOf m s.delivery.attempts)
    have hid : m ∈ s.intake.ids :=
      (intakeInv_of_reachable h).ledger_ids ▸ List.mem_map.2 ⟨_, hm, rfl⟩
    obtain ⟨k, hk, rfl⟩ := List.mem_map.1 hid
    have hstorable := ((readInv_of_reachable h).row k hk).id
    refine ⟨_, ?_, page, (hq.filter _).symm ▸ hpage, rfl⟩
    rw [hq.messageId]
    exact hstorable
  · obtain ⟨page, hpage, rfl⟩ := hq.page hr
    exact listsEvent_of_page h (hinbox seen hm) hpage
  · have hkeep := rowKeys_perm h h' (hinbox seen hm)
    have hlater := (inboxOf_grows h h').subset (hinbox seen hm)
    exact ((responseKeys_perm (h.trans h') hlater hq' hlimit' hr').trans hkeep).trans
      (responseKeys_perm h (hinbox seen hm) hq hlimit hr).symm

theorem firstDeliveryFails_enabled :
    (run (step .default) World.init firstDeliveryFails).isSome = true := by decide +kernel

def firstFailed : World :=
  (run (step .default) World.init firstDeliveryFails).get firstDeliveryFails_enabled

theorem secondDelivery_enabled : (run (step .default) firstFailed secondDelivery).isSome = true := by
  decide +kernel

def secondDelivered : World :=
  (run (step .default) firstFailed secondDelivery).get secondDelivery_enabled

/-- `GET /deliveries?message_id=m`. -/
def queryFor (m : MessageId) : DeliveryQuery := ⟨none, none, some m, 50, by decide⟩

/-- The list is read after a failed delivery, and again after the second one. -/
theorem listed_deliveries_agree_retried :
    ListsAgree firstFailed secondDelivered (py "m") (queryFor (py "m")) (queryFor (py "m")) :=
  listed_deliveries_agree .default firstFailed secondDelivered
    (Reachable.of_run firstDeliveryFails_enabled) (Reachable.of_run secondDelivery_enabled) _ _ _
    ⟨rfl, rfl, rfl, rfl⟩ ⟨rfl, rfl, rfl, rfl⟩

/-! ## The counts -/

/-- The number of deliveries that the acceptances of a state ask for. -/
def acceptedDeliveries (s : World) : ℕ :=
  (s.intake.ledger.map fun a => (recipients a.seen).length).sum

section
variable {cfg : Settings} {s s' : World}

/-- There is one row for each delivery that was asked for. SOURCE: app/consumer/rabbitmq.py:74-93 -/
theorem length_attempts (h : Reachable (step cfg) World.init s) :
    s.delivery.attempts.length = acceptedDeliveries s := by
  obtain ⟨_, hrefines⟩ := refinesInbox_of_reachable h
  have hlen := congrArg List.length hrefines.entries
  rw [List.length_map] at hlen
  rw [← hlen, Inbox.entries, inboxOf, List.length_flatMap, List.map_map, acceptedDeliveries]
  exact congrArg List.sum (List.map_congr_left fun a _ => List.length_map _)

/-- There are as many key rows as acceptances. -/
theorem length_keys (h : Reachable (step cfg) World.init s) :
    s.intake.keys.length = s.intake.ledger.length := by
  have hids := congrArg List.length (intakeInv_of_reachable h).ledger_ids
  simpa [Intake.ids] using hids.symm

end

/-- Whether the management API has told the queue depth. SOURCE: app/api/deliveries.py:99-110 -/
def TellsDepth (reply : ManagementReply) : Prop :=
  ∃ data, reply = .response 200 (.ok (.obj data))

/-- The management API tells the depth when reading its reply succeeds.
SOURCE: app/api/deliveries.py:90-112 -/
theorem tellsDepth_iff (reply : ManagementReply) :
    TellsDepth reply ↔ ∃ depth, queueDepth reply = .ok depth := by
  constructor
  · rintro ⟨data, rfl⟩
    exact ⟨_, rfl⟩
  · rintro ⟨depth, h⟩
    cases reply with
    | raised exc => cases h
    | response statusCode json =>
      by_cases hcode : statusCode = 200
      · subst hcode
        obtain _ | v := json
        · cases h
        · cases v with
          | obj data => exact ⟨data, rfl⟩
          | _ => cases h
      · simp [queueDepth, hcode] at h

/-- What the answer tells, when its first statement has read the tables of `s` and its second one
those of `s'`. -/
structure StatsAddUp (s s' : World) (reply : ManagementReply) (stats : PipelineStats) : Prop where
  /-- every delivery that was asked for is counted once -/
  deliveries : (stats.deliveriesByStatus.map Prod.snd).sum = acceptedDeliveries s
  /-- every accepted event is counted once -/
  events : (stats.idempotencyKeysByStatus.map Prod.snd).sum = s'.intake.ledger.length
  /-- no delivery is counted without its event, which is one of the events that are counted -/
  covered : acceptedDeliveries s ≤ acceptedDeliveries s' ∧
    ∀ row ∈ s.delivery.attempts, row.messageId ∈ s'.intake.ids
  /-- a status is listed once, with the number of its rows, and only when it has rows -/
  delivery_groups : (stats.deliveriesByStatus.map Prod.fst).Nodup ∧
    ∀ g ∈ stats.deliveriesByStatus,
      0 < g.2 ∧ g.2 = (s.delivery.attempts.map DeliveryAttempt.status).count g.1
  event_groups : (stats.idempotencyKeysByStatus.map Prod.fst).Nodup ∧
    ∀ g ∈ stats.idempotencyKeysByStatus, g.1 ≠ .dispatched ∧
      0 < g.2 ∧ g.2 = (s'.intake.keys.map IdempotencyKey.status).count g.1
  /-- the depth is available when the management API has told it, and else there is an error -/
  available : stats.queueDepthAvailable = true ↔ TellsDepth reply
  error : stats.queueDepthError = none ↔ TellsDepth reply
  unavailable : ¬ TellsDepth reply → stats.queueDepth = none

/-- The event of a delivery has a row, then and later. -/
theorem messageId_mem_ids {cfg : Settings} {s s' : World} (h : Reachable (step cfg) World.init s)
    (h' : Reachable (step cfg) s s') {row : DeliveryAttempt} (hrow : row ∈ s.delivery.attempts) :
    row.messageId ∈ s'.intake.ids := by
  have hid : row.messageId ∈ s.intake.ids := by
    by_contra hnone
    have hmem : row ∈ rowsOf row.messageId s.delivery.attempts :=
      List.mem_filter.2 ⟨hrow, decide_eq_true rfl⟩
    rw [rowsOf_eq_nil h hnone] at hmem
    cases hmem
  obtain ⟨k, hk, heq⟩ := List.mem_map.1 hid
  obtain ⟨k', hk', hext⟩ := keysExtend_of_reachable h h' k hk
  exact List.mem_map.2 ⟨k', hk', hext.messageId.trans heq⟩

/-- Acceptances are only added. -/
theorem acceptedDeliveries_le {cfg : Settings} {s s' : World}
    (h : Reachable (step cfg) World.init s) (h' : Reachable (step cfg) s s') :
    acceptedDeliveries s ≤ acceptedDeliveries s' := by
  have hsum : ∀ w, acceptedDeliveries w = ((inboxOf w).map fun e => e.2.length).sum := fun w => by
    rw [inboxOf, List.map_map, acceptedDeliveries]
    rfl
  obtain ⟨new, hnew⟩ := inboxOf_grows h h'
  rw [hsum, hsum, ← hnew, List.map_append, List.sum_append]
  exact Nat.le_add_right _ _

/-- Other transactions may commit between the two statements, and the management API may answer
anything. SOURCE: app/api/deliveries.py:74-126, app/consumer/rabbitmq.py:74-93 -/
theorem stats_add_up (cfg : Settings) (s s' : World) (h : Reachable (step cfg) World.init s)
    (h' : Reachable (step cfg) s s') (laxInt : Json → Option ℤ) (reply : ManagementReply) :
    (pipelineStats laxInt s.delivery.attempts s'.intake.keys reply = none → TellsDepth reply) ∧
    ∀ stats, pipelineStats laxInt s.delivery.attempts s'.intake.keys reply = some stats →
      StatsAddUp s s' reply stats := by
  have htells := tellsDepth_iff reply
  have hdeliveries : ((groupCounts DeliveryAttempt.status s.delivery.attempts).map Prod.snd).sum =
      acceptedDeliveries s := sum_groupCounts.trans (length_attempts h)
  have hevents : ((groupCounts IdempotencyKey.status s'.intake.keys).map Prod.snd).sum =
      s'.intake.ledger.length := sum_groupCounts.trans (length_keys (h.trans h'))
  have hdgroup : ∀ g ∈ groupCounts DeliveryAttempt.status s.delivery.attempts,
      0 < g.2 ∧ g.2 = (s.delivery.attempts.map DeliveryAttempt.status).count g.1 :=
    fun _ hg => ⟨pos_of_mem_groupCounts hg, (mem_groupCounts.1 hg).2⟩
  have hegroup : ∀ g ∈ groupCounts IdempotencyKey.status s'.intake.keys, g.1 ≠ .dispatched ∧
      0 < g.2 ∧ g.2 = (s'.intake.keys.map IdempotencyKey.status).count g.1 := by
    intro g hg
    obtain ⟨hmem, hcount⟩ := mem_groupCounts.1 hg
    obtain ⟨k, hk, heq⟩ := List.mem_map.1 hmem
    exact ⟨heq ▸ not_dispatched (h.trans h') k hk, pos_of_mem_groupCounts hg, hcount⟩
  have hcovered := And.intro (acceptedDeliveries_le h h')
    fun row (hrow : row ∈ s.delivery.attempts) => messageId_mem_ids h h' hrow
  unfold pipelineStats
  cases hdepth : queueDepth reply with
  | error e =>
    have hnot : ¬ TellsDepth reply := by
      rw [htells, hdepth]
      rintro ⟨_, hok⟩
      cases hok
    refine ⟨nofun, fun stats hstats => ?_⟩
    cases hstats
    exact ⟨hdeliveries, hevents, hcovered, ⟨groupCounts_nodup, hdgroup⟩,
      ⟨groupCounts_nodup, hegroup⟩, iff_of_false nofun hnot, iff_of_false nofun hnot,
      fun _ => rfl⟩
  | ok depth =>
    have hdid : TellsDepth reply := htells.2 ⟨depth, hdepth⟩
    refine ⟨fun _ => hdid, fun stats hstats => ?_⟩
    obtain ⟨n, _, rfl⟩ := Option.map_eq_some_iff.1 hstats
    exact ⟨hdeliveries, hevents, hcovered, ⟨groupCounts_nodup, hdgroup⟩,
      ⟨groupCounts_nodup, hegroup⟩, iff_of_true rfl hdid, iff_of_true rfl hdid,
      fun hnot => absurd hdid hnot⟩

/-- A delivery succeeds between the two statements, and the management API is unavailable. -/
theorem stats_add_up_unavailable : ∃ stats,
    stats.queueDepthError = some (py "management API returned HTTP 503") ∧
      StatsAddUp firstFailed secondDelivered (.response 503 (.ok .null)) stats :=
  ⟨_, rfl, (stats_add_up .default firstFailed secondDelivered
    (Reachable.of_run firstDeliveryFails_enabled) (Reachable.of_run secondDelivery_enabled)
    (fun _ => none) (.response 503 (.ok .null))).2 _ rfl⟩

end EventPipeline.Analysis
