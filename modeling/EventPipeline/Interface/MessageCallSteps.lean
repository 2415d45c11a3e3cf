import EventPipeline.Computation.Transition
import EventPipeline.Program.MessageCall

/-!
# A message call as a run of the step function

`handleMessageCall` over PostgreSQL computes what the steps of a `handle_message` call do that no
other process interferes with: after the ACK, the transaction, and the start of the call.
-/

set_option autoImplicit false

namespace EventPipeline.Interface

open EventPipeline.Model EventPipeline.Program EventPipeline.Computation

/-- Call `t` alone, with the time and the subscribers that each step finds. -/
def aloneCall (cfg : Settings) (t : Tag) (p : Intake × List DeliveryAttempt)
    (x : Time × List Subscriber × HandlerAction) : Option (Intake × List DeliveryAttempt) :=
  handleMessage cfg x.1 x.2.1 p.1 p.2 t x.2.2

/-- The call has ended as `r` says. -/
structure Ended (t : Tag) (body : Body) (r : CallResult) (s : Intake)
    (attempts : List DeliveryAttempt) : Prop where
  handler : s.handlers t = .idle
  copy : s.copies t = some ⟨body, r.copy⟩
  keys : s.keys = r.keys
  attempts : attempts = r.attempts

/-- Some steps of the call take it to its end. -/
def EndsWith (cfg : Settings) (t : Tag) (body : Body) (r : CallResult) (s : Intake)
    (attempts : List DeliveryAttempt) : Prop :=
  ∃ actions s' attempts', run (aloneCall cfg t) (s, attempts) actions = some (s', attempts') ∧
    Ended t body r s' attempts'

section
variable {cfg : Settings} {t : Tag} {body : Body} {r : CallResult} {s : Intake}
  {attempts : List DeliveryAttempt}

/-- A call that ends in some way after a step ends so before it. -/
theorem EndsWith.step (x : Time × List Subscriber × HandlerAction) (s₁ : Intake)
    (attempts₁ : List DeliveryAttempt)
    (hx : aloneCall cfg t (s, attempts) x = some (s₁, attempts₁))
    (h : EndsWith cfg t body r s₁ attempts₁) : EndsWith cfg t body r s attempts := by
  obtain ⟨actions, s', attempts', hrun, hended⟩ := h
  exact ⟨x :: actions, s', attempts', run_cons_eq_some.2 ⟨_, hx, hrun⟩, hended⟩

/-- A call that has ended takes no further step. -/
theorem EndsWith.ended (h : Ended t body r s attempts) : EndsWith cfg t body r s attempts :=
  ⟨[], s, attempts, rfl, h⟩

/-- A row is loaded and written, or it is not there. SOURCE: app/consumer/rabbitmq.py:174-195 -/
theorem EndsWith.load {m : MessageId} {f : IdempotencyKey → IdempotencyKey → IdempotencyKey}
    (loaded : IdempotencyKey → Handler) (hc : s.copies t = some ⟨body, .acked⟩)
    (hload : ∀ ik, lookup IdempotencyKey.messageId m s.keys = some ik →
      aloneCall cfg t (s, attempts) (0, [], .load) = some (s.setHandler t (loaded ik), attempts))
    (hmiss : lookup IdempotencyKey.messageId m s.keys = none →
      aloneCall cfg t (s, attempts) (0, [], .load) = some (s.setHandler t .idle, attempts))
    (hwrite : ∀ ik, aloneCall cfg t (s.setHandler t (loaded ik), attempts) (0, [], .write) =
      some (({ s.setHandler t (loaded ik) with keys := updateKey m (f ik) s.keys } :
        Intake).setHandler t .idle, attempts)) :
    EndsWith cfg t body (.done (updateLoaded m f s.keys) attempts) s attempts := by
  unfold updateLoaded
  cases hl : lookup IdempotencyKey.messageId m s.keys with
  | none =>
    refine .step (0, [], .load) (s.setHandler t .idle) attempts (hmiss hl) (.ended ?_)
    exact ⟨by simp, hc, rfl, rfl⟩
  | some ik =>
    refine .step (0, [], .load) _ attempts (hload ik hl) ?_
    refine .step (0, [], .write) _ attempts (hwrite ik) (.ended ?_)
    exact ⟨by simp, hc, rfl, rfl⟩

/-- The rest of the call after the commit. SOURCE: app/consumer/rabbitmq.py:146-197 -/
theorem endsWith_enrichMessage {e : CallEnv} {new : NewEvent} (hh : s.handlers t = .committed new)
    (hc : s.copies t = some ⟨body, .unacked⟩) :
    EndsWith cfg t body (enrichMessage e new s.keys attempts) s attempts := by
  -- The state after the early ACK.
  obtain ⟨s₁, hack, hh₁, hc₁, hkeys₁⟩ : ∃ s₁,
      aloneCall cfg t (s, attempts) (0, [], .ack) = some (s₁, attempts) ∧
      s₁.handlers t = .enriching new ∧ s₁.copies t = some ⟨body, .acked⟩ ∧ s₁.keys = s.keys := by
    refine ⟨(s.setHandler t (.enriching new)).setCopy t .acked, ?_, by simp, by simp [hc], rfl⟩
    simp only [aloneCall, handleMessage, hh]
  refine .step (0, [], .ack) s₁ attempts hack ?_
  rw [← hkeys₁]
  unfold enrichMessage
  cases e.enrich new.eventType new.payload with
  | result enriched =>
    refine .step (e.enrichedAt, [], .enrich (.result enriched))
      (s₁.setHandler t (.storing new.messageId (.obj enriched) e.enrichedAt)) attempts ?_ ?_
    · simp only [aloneCall, handleMessage, hh₁]
    · refine .load (fun ik => .storeLoaded new.messageId (.obj enriched) e.enrichedAt ik)
        (by simpa using hc₁) (fun ik hl => ?_) (fun hl => ?_) fun ik => ?_
      · rw [Intake.setHandler_keys] at hl
        simp [aloneCall, handleMessage, hl]
      · rw [Intake.setHandler_keys] at hl
        simp [aloneCall, handleMessage, hl]
      · simp [aloneCall, handleMessage]
  | transient =>
    refine .step (0, [], .enrich .transient) (s₁.setHandler t .idle) attempts ?_ (.ended ?_)
    · simp only [aloneCall, handleMessage, hh₁]
    · exact ⟨by simp, hc₁, rfl, rfl⟩
  | fatal error =>
    refine .step (0, [], .enrich (.fatal error))
      (s₁.setHandler t (.recording new.messageId error)) attempts ?_ ?_
    · simp only [aloneCall, handleMessage, hh₁]
    · refine .load (fun ik => .recordLoaded new.messageId error ik)
        (by simpa using hc₁) (fun ik hl => ?_) (fun hl => ?_) fun ik => ?_
      · rw [Intake.setHandler_keys] at hl
        simp [aloneCall, handleMessage, hl]
      · rw [Intake.setHandler_keys] at hl
        simp [aloneCall, handleMessage, hl]
      · simp [aloneCall, handleMessage]
  | other =>
    refine .step (0, [], .enrich .other) (s₁.setHandler t .idle) attempts ?_ (.ended ?_)
    · simp only [aloneCall, handleMessage, hh₁]
    · exact ⟨by simp, hc₁, rfl, rfl⟩

/-- The transaction, from the INSERT on. SOURCE: app/consumer/rabbitmq.py:131-147 -/
theorem endsWith_storeMessage {e : CallEnv} {ev : RawEvent} {new : NewEvent}
    (hh : s.handlers t = .parsed ev) (hv : insertValues ev = some new)
    (hc : s.copies t = some ⟨body, .unacked⟩) (ho : s.openInserts = [])
    (hlen : e.ids.length = (e.subscribers.filter Subscriber.receives).length) :
    EndsWith cfg t body (storeMessage e new s.keys attempts) s attempts := by
  have hids : (lookup IdempotencyKey.messageId new.messageId s.keys).isSome = true ↔
      new.messageId ∈ s.ids := isSome_lookup_iff
  unfold storeMessage
  simp only [hids]
  by_cases hm : new.messageId ∈ s.ids
  · rw [if_pos hm]
    refine .step (0, [], .insert) (s.setHandler t .acking) attempts ?_ ?_
    · simp only [aloneCall, handleMessage, hh, hv, if_pos hm]
    · refine .step (0, [], .ack) (((s.setHandler t .acking).setHandler t .idle).setCopy t .acked)
        attempts (by simp [aloneCall, handleMessage]) (.ended ?_)
      exact ⟨by simp, by simp [hc, CallResult.done], rfl, rfl⟩
  · rw [if_neg hm]
    -- The state before the commit.
    obtain ⟨s₁, hrun, hh₁, hc₁, hkeys₁⟩ : ∃ s₁,
        run (aloneCall cfg t) (s, attempts)
          [(e.receivedAt, [], .insert), (e.readAt, e.subscribers, .selectSubscribers)] =
            some (s₁, attempts) ∧
        s₁.handlers t = .selected new e.receivedAt e.subscribers e.readAt ∧
        s₁.copies t = some ⟨body, .unacked⟩ ∧ s₁.keys = s.keys := by
      refine ⟨(({ s with openInserts := [(t, new.messageId)] } : Intake).setHandler t
        (.inserted new e.receivedAt)).setHandler t
          (.selected new e.receivedAt e.subscribers e.readAt), ?_, by simp, by simpa using hc, rfl⟩
      simp [run, aloneCall, handleMessage, hh, hv, hm, ho]
    obtain ⟨p, hinsert, hselect⟩ := run_cons_eq_some.1 hrun
    rw [run_singleton] at hselect
    refine .step _ p.1 p.2 hinsert (.step _ s₁ attempts hselect ?_)
    cases hins : insertAttempts attempts
        (createDeliveryAttempts new.messageId e.subscribers e.ids e.readAt e.committedAt) with
    | none =>
      refine .step (0, [], .dbError) (raiseFrom s₁ t) attempts ?_ (.ended ?_)
      · simp [aloneCall, handleMessage, hh₁]
      · exact ⟨by simp [raiseFrom], by simp [raiseFrom, hc₁, CallResult.raised], hkeys₁, rfl⟩
    | some attempts' =>
      have hcommit : aloneCall cfg t (s₁, attempts) (e.committedAt, [], .commit e.ids) =
          some (({ s₁.closeInsert t with
              keys := s₁.keys ++ [newKey new e.receivedAt]
              ledger := s₁.ledger ++ [⟨new.messageId, e.subscribers⟩] } : Intake).setHandler t
            (.committed new), attempts') := by
        simp only [aloneCall, handleMessage, hh₁, commitEvent, if_pos hlen, hins, Option.map_some]
      refine .step _ _ attempts' hcommit ?_
      rw [← hkeys₁]
      exact endsWith_enrichMessage (by simp) (by simpa using hc₁)

/-- A call that no other process interferes with: its steps end as `handleMessageCall` says. -/
theorem endsWith_handleMessageCall {e : CallEnv} (hc : s.copies t = some ⟨body, .ready⟩)
    (hh : s.handlers t = .idle) (ho : s.openInserts = [])
    (hlen : e.ids.length = (e.subscribers.filter Subscriber.receives).length) :
    EndsWith cfg t body (handleMessageCall cfg .postgres e body s.keys attempts) s attempts := by
  unfold handleMessageCall
  cases hp : parseMessage cfg body e.fallback with
  | discard =>
    refine .step (0, [], .start e.fallback) ((s.setHandler t .acking).setCopy t .unacked) attempts
      (by simp only [aloneCall, handleMessage, hc, hh, hp]) ?_
    refine .step (0, [], .ack)
      ((((s.setHandler t .acking).setCopy t .unacked).setHandler t .idle).setCopy t .acked) attempts
      (by simp [aloneCall, handleMessage]) (.ended ?_)
    exact ⟨by simp, by simp [hc, CallResult.done], rfl, rfl⟩
  | raised =>
    refine .step (0, [], .start e.fallback) (raiseFrom (s.setCopy t .unacked) t) attempts
      (by simp only [aloneCall, handleMessage, hc, hh, hp]) (.ended ?_)
    exact ⟨by simp [raiseFrom], by simp [raiseFrom, hc, CallResult.raised], rfl, rfl⟩
  | event ev =>
    refine .step (0, [], .start e.fallback) ((s.setHandler t (.parsed ev)).setCopy t .unacked)
      attempts (by simp only [aloneCall, handleMessage, hc, hh, hp]) ?_
    dsimp only
    rw [bind_postgres]
    cases hv : insertValues ev with
    | none =>
      refine .step (0, [], .insert)
        (raiseFrom ((s.setHandler t (.parsed ev)).setCopy t .unacked) t) attempts ?_ (.ended ?_)
      · simp [aloneCall, handleMessage, hv]
      · exact ⟨by simp [raiseFrom], by simp [raiseFrom, hc, CallResult.raised], rfl, rfl⟩
    | some new =>
      exact endsWith_storeMessage (s := (s.setHandler t (.parsed ev)).setCopy t .unacked) (by simp)
        hv (by simp [hc]) (by simpa using ho) hlen

end

end EventPipeline.Interface
