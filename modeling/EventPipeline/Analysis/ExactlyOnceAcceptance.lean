import EventPipeline.Interface.CallSteps
import EventPipeline.Analysis.IntakeInvariant
import EventPipeline.Computation.Inbox

/-!
# Exactly-once acceptance

The pipeline refines an inbox: a transaction that creates a key row accepts the message with
the subscribers its SELECT returned, and no other step accepts anything. The entries of the
inbox are the rows of `delivery_attempts`, so what holds of every inbox holds of the two
tables in every reachable state.
-/

set_option autoImplicit false

namespace EventPipeline.Analysis

open EventPipeline.Model EventPipeline.Program EventPipeline.Interface EventPipeline.Computation

/-- The subscribers that get an attempt. SOURCE: app/consumer/rabbitmq.py:76-84 -/
def recipients (seen : List Subscriber) : List Uuid :=
  (seen.filter Subscriber.receives).map Subscriber.id

def inboxOf (s : World) : Inbox MessageId Uuid :=
  s.intake.ledger.map fun a => (a.messageId, recipients a.seen)

/-- The inbox is what the two tables hold. -/
structure RefinesInbox (s : World) (t : Inbox MessageId Uuid) : Prop where
  inbox : t = inboxOf s
  keys : Inbox.keys t = s.intake.ids
  entries : Inbox.entries t = s.delivery.attempts.map DeliveryAttempt.pair

/-! ## What the transaction inserts -/

/-- The new attempts are those of the recipients, in the order of the SELECT.
SOURCE: app/consumer/rabbitmq.py:74-93 -/
theorem pair_createDeliveryAttempts {m : MessageId} {seen : List Subscriber} {ids : List Uuid}
    {readAt now : Time} (hlen : ids.length = (seen.filter Subscriber.receives).length) :
    (createDeliveryAttempts m seen ids readAt now).map DeliveryAttempt.pair =
      (recipients seen).map fun r => (m, r) := by
  have hfst : ((seen.filter Subscriber.receives).zip ids).map Prod.fst =
      seen.filter Subscriber.receives := List.map_fst_zip (le_of_eq hlen.symm)
  unfold createDeliveryAttempts recipients
  rw [List.map_map, List.map_map]
  conv_rhs => rw [← hfst]
  rw [List.map_map]
  rfl

/-- An INSERT that succeeds appends its rows and keeps both constraints.
SOURCE: app/db/models.py:67-83 -/
theorem insertAttempts_eq_some {attempts new attempts' : List DeliveryAttempt}
    (h : insertAttempts attempts new = some attempts') :
    attempts' = attempts ++ new ∧ (attempts'.map DeliveryAttempt.id).Nodup ∧
      (attempts'.map DeliveryAttempt.pair).Nodup := by
  unfold insertAttempts at h
  split at h
  · rename_i hn
    cases h
    exact ⟨rfl, hn⟩
  · cases h

/-- The new attempts have the identifiers that were generated. SOURCE: app/db/models.py:67 -/
theorem id_createDeliveryAttempts {m : MessageId} {seen : List Subscriber} {ids : List Uuid}
    {readAt now : Time} (hlen : ids.length = (seen.filter Subscriber.receives).length) :
    (createDeliveryAttempts m seen ids readAt now).map DeliveryAttempt.id = ids := by
  have hsnd : ((seen.filter Subscriber.receives).zip ids).map Prod.snd = ids :=
    List.map_snd_zip (le_of_eq hlen)
  conv_rhs => rw [← hsnd]
  rw [createDeliveryAttempts, List.map_map]
  rfl

/-- The INSERT of the attempts of a new message goes through when the identifiers are new.
SOURCE: app/consumer/rabbitmq.py:74-93, app/db/models.py:67-83 -/
theorem insertAttempts_of_new {attempts : List DeliveryAttempt} {m : MessageId}
    {seen : List Subscriber} {ids : List Uuid} {readAt now : Time}
    (hlen : ids.length = (seen.filter Subscriber.receives).length)
    (hids : (attempts.map DeliveryAttempt.id ++ ids).Nodup)
    (hpairs : (attempts.map DeliveryAttempt.pair).Nodup) (hseen : (recipients seen).Nodup)
    (hnew : ∀ r, (m, r) ∉ attempts.map DeliveryAttempt.pair) :
    insertAttempts attempts (createDeliveryAttempts m seen ids readAt now) =
      some (attempts ++ createDeliveryAttempts m seen ids readAt now) := by
  rw [insertAttempts, if_pos]
  constructor
  · rw [List.map_append, id_createDeliveryAttempts hlen]
    exact hids
  · rw [List.map_append, pair_createDeliveryAttempts hlen]
    refine List.Nodup.append hpairs (hseen.map fun _ _ h => (Prod.mk.inj h).2) ?_
    intro p hp hp'
    obtain ⟨r, _, rfl⟩ := List.mem_map.1 hp'
    exact hnew r hp

/-- One step accepts nothing and keeps the identity of every row, or it is the commit of a
call, which accepts the call's message with the recipients that the call has read. -/
inductive Accepts (s : World) (a : Action) (s' : World) : Prop
  | nothing (hledger : s'.intake.ledger = s.intake.ledger) (hids : s'.intake.ids = s.intake.ids)
      (hpairs : s'.delivery.attempts.map DeliveryAttempt.pair =
        s.delivery.attempts.map DeliveryAttempt.pair)
  | message {t : Tag} {ev : NewEvent} {receivedAt readAt : Time} {seen : List Subscriber}
      (hh : s.intake.handlers t = .selected ev receivedAt seen readAt)
      (hledger : s'.intake.ledger = s.intake.ledger ++ [⟨ev.messageId, seen⟩])
      (hids : s'.intake.ids = s.intake.ids ++ [ev.messageId])
      (hpairs : s'.delivery.attempts.map DeliveryAttempt.pair =
        s.delivery.attempts.map DeliveryAttempt.pair ++
          (recipients seen).map fun r => (ev.messageId, r))
      (hn : (recipients seen).Nodup)
      (hact : ∃ ids, a = .handler t (.commit ids) ∨ a = .handler t (.commitLost ids))

/-- A commit accepts the message of its call. SOURCE: app/consumer/rabbitmq.py:131-143 -/
theorem accepts_of_commit {s s' : World} {a : Action} {t : Tag} {ev : NewEvent}
    {receivedAt readAt : Time}
    {seen : List Subscriber} {ids : List Uuid} {attempts : List DeliveryAttempt}
    (hh : s.intake.handlers t = .selected ev receivedAt seen readAt)
    (hlen : ids.length = (seen.filter Subscriber.receives).length)
    (hins : insertAttempts s.delivery.attempts
      (createDeliveryAttempts ev.messageId seen ids readAt s.now) = some attempts)
    (hledger : s'.intake.ledger = s.intake.ledger ++ [⟨ev.messageId, seen⟩])
    (hkeys : s'.intake.keys = s.intake.keys ++ [newKey ev receivedAt])
    (hatt : s'.delivery.attempts = attempts)
    (hact : a = .handler t (.commit ids) ∨ a = .handler t (.commitLost ids)) :
    Accepts s a s' := by
  obtain ⟨rfl, _, hn⟩ := insertAttempts_eq_some hins
  rw [List.map_append, pair_createDeliveryAttempts hlen] at hn
  refine .message hh hledger ?_ ?_ (List.Nodup.of_map _ (List.Nodup.of_append_right hn))
    ⟨ids, hact⟩
  · rw [Intake.ids, hkeys, List.map_append]
    rfl
  · rw [hatt, List.map_append, pair_createDeliveryAttempts hlen]

/-- SOURCE: app/consumer/rabbitmq.py:131-143 -/
theorem accepts_of_step {cfg : Settings} {s s' : World} {a : Action}
    (h : step cfg s a = some s') : Accepts s a s' := by
  have hids : ∀ m (f : IdempotencyKey → IdempotencyKey), (∀ k, (f k).messageId = k.messageId) →
      (updateKey m f s.intake.keys).map IdempotencyKey.messageId = s.intake.ids :=
    fun m f hf => map_updateWhere _ fun k _ => hf k
  have hpairs : ∀ p (_ : DecidablePred p) (f : DeliveryAttempt → DeliveryAttempt),
      (∀ a, (f a).pair = a.pair) →
      (updateWhere p f s.delivery.attempts).map DeliveryAttempt.pair =
        s.delivery.attempts.map DeliveryAttempt.pair :=
    fun p _ f hf => map_updateWhere _ fun k _ => hf k
  cases worldStep_of_eq_some h with
  | handler hs =>
    cases hs with
    | commit hh hc =>
      obtain ⟨hlen, hins, rfl⟩ := commitEvent_eq_some hc
      exact accepts_of_commit hh hlen hins rfl rfl rfl (Or.inl rfl)
    | commitLost hh hc =>
      obtain ⟨hlen, hins, rfl⟩ := commitEvent_eq_some hc
      exact accepts_of_commit hh hlen hins rfl rfl rfl (Or.inr rfl)
    | store hh => exact .nothing rfl (hids _ _ fun _ => rfl) rfl
    | record hh => exact .nothing rfl (hids _ _ fun _ => rfl) rfl
    | _ => exact .nothing rfl rfl rfl
  | reconciler hs =>
    cases hs with
    | commit hc => exact .nothing rfl (ids_flushWrites _ _) rfl
    | _ => exact .nothing rfl rfl rfl
  | worker hs =>
    cases hs with
    | claimCommit hph => exact .nothing rfl rfl (hpairs _ _ _ fun _ => rfl)
    | close hph _ hl => exact .nothing rfl rfl (hpairs _ _ _ fun _ => rfl)
    | writeBack hph hl hw =>
      obtain ⟨u, _, rfl⟩ := writeBack_eq_some hw
      exact .nothing rfl rfl (hpairs _ _ _ fun _ => rfl)
    | resetStale _ => exact .nothing rfl rfl (hpairs _ _ _ fun _ => rfl)
    | _ => exact .nothing rfl rfl rfl
  | retry hs =>
    cases hs with
    | commit hr hl => exact .nothing rfl rfl (hpairs _ _ _ fun _ => rfl)
    | _ => exact .nothing rfl rfl rfl
  | _ => exact .nothing rfl rfl rfl

/-! ## The refinement -/

/-- Every step of the pipeline is no step or one `accept` of the inbox. -/
theorem simulates_inbox (cfg : Settings) :
    Simulates (step cfg) World.init Inbox.accept [] RefinesInbox where
  init := ⟨rfl, rfl, rfl⟩
  step s a s' t hreach hR hs := by
    cases accepts_of_step hs with
    | nothing hledger hids hpairs =>
      refine ⟨t, Reachable.refl t, ?_, ?_, ?_⟩
      · rw [hR.inbox, inboxOf, inboxOf, hledger]
      · rw [hR.keys, hids]
      · rw [hR.entries, hpairs]
    | @message t' ev _ _ seen hh hledger hids hpairs hn _ =>
      have hnew : ev.messageId ∉ s.intake.ids :=
        (intakeInv_of_reachable hreach).open_new t' _ (by rw [hh]; rfl)
      have haccept : Inbox.accept t (ev.messageId, recipients seen) =
          some (t ++ [(ev.messageId, recipients seen)]) := by
        rw [Inbox.accept, if_pos ⟨hR.keys ▸ hnew, hn⟩]
      refine ⟨_, (Reachable.refl t).snoc haccept, ?_, ?_, ?_⟩
      · rw [hR.inbox, inboxOf, inboxOf, hledger, List.map_append]
        rfl
      · rw [Inbox.keys, List.map_append, hids, ← hR.keys]
        rfl
      · rw [Inbox.entries, List.flatMap_append, hpairs, ← hR.entries]
        simp [Inbox.entries]

/-- The two tables of a reachable state are those of a valid inbox. -/
theorem refinesInbox_of_reachable {cfg : Settings} {s : World}
    (h : Reachable (step cfg) World.init s) :
    Inbox.Valid (inboxOf s) ∧ RefinesInbox s (inboxOf s) := by
  obtain ⟨t, ht, hR⟩ := (simulates_inbox cfg).reachable h
  have heq := hR.inbox
  subst heq
  exact ⟨Inbox.valid_of_reachable ht, hR⟩

/-! ## The transaction that accepts a message -/

/-- The SELECT in the transaction in which call `t` inserts `m`; it reads the table of `s₁`.
SOURCE: app/consumer/rabbitmq.py:76-82 -/
structure ReadsSubscribers (cfg : Settings) (t : Tag) (m : MessageId) (seen : List Subscriber)
    (s₁ s₂ : World) : Prop where
  reached : Reachable (step cfg) World.init s₁
  inserted : ∃ ev receivedAt, s₁.intake.handlers t = .inserted ev receivedAt ∧ ev.messageId = m
  select : step cfg s₁ (.handler t .selectSubscribers) = some s₂
  seen : seen = s₁.registry.subscribers

/-- Call `t` has run that SELECT, and has taken no step since then. -/
def SelectedBy (cfg : Settings) (t : Tag) (m : MessageId) (seen : List Subscriber)
    (s : World) : Prop :=
  ∃ s₁ s₂ as, ReadsSubscribers cfg t m seen s₁ s₂ ∧ run (step cfg) s₂ as = some s ∧
    ∀ b, Action.handler t b ∉ as

/-- The next step of the call was the COMMIT, which made the key row of `m`.
SOURCE: app/consumer/rabbitmq.py:131-143 -/
def AcceptedBy (cfg : Settings) (t : Tag) (m : MessageId) (seen : List Subscriber)
    (s : World) : Prop :=
  ∃ s₁ s₂ ids a, SelectedBy cfg t m seen s₁ ∧
    (a = .handler t (.commit ids) ∨ a = .handler t (.commitLost ids)) ∧
    step cfg s₁ a = some s₂ ∧ m ∉ s₁.intake.ids ∧ m ∈ s₂.intake.ids ∧ Reachable (step cfg) s₂ s

section
variable {cfg : Settings} {s s' : World} {a : Action}

/-- A call that has its subscribers had them before a step of another one, or has read them
in this step. SOURCE: app/consumer/rabbitmq.py:76-82 -/
theorem selected_of_step (hs : step cfg s a = some s') {t : Tag} {ev : NewEvent}
    {receivedAt readAt : Time} {seen : List Subscriber}
    (hh : s'.intake.handlers t = .selected ev receivedAt seen readAt) :
    (s.intake.handlers t = .selected ev receivedAt seen readAt ∧ ∀ b, a ≠ .handler t b) ∨
      (a = .handler t .selectSubscribers ∧ s.intake.handlers t = .inserted ev receivedAt ∧
        seen = s.registry.subscribers) := by
  cases worldStep_of_eq_some hs with
  | @handler t' b i attempts h =>
    by_cases ht : t = t'
    · subst ht
      cases h with
      | select hins =>
        simp only [Intake.setHandler_handlers, Function.update_self] at hh
        cases hh
        exact Or.inr ⟨rfl, hins, rfl⟩
      | commit _ hc =>
        obtain ⟨_, _, rfl⟩ := commitEvent_eq_some hc
        simp only [Intake.setHandler_handlers, Function.update_self] at hh
        cases hh
      | commitLost _ hc =>
        obtain ⟨_, _, rfl⟩ := commitEvent_eq_some hc
        simp [raiseFrom] at hh
      | _ => simp [raiseFrom, crashHandler] at hh
    · exact Or.inl ⟨(h.frame ht).1 ▸ hh, fun b heq => ht (Action.handler.inj heq).1.symm⟩
  | reconciler h =>
    cases h <;> exact Or.inl ⟨hh, fun b heq => by cases heq⟩
  | _ => exact Or.inl ⟨hh, fun b heq => by cases heq⟩

/-- Steps of others do not matter to a call that has run its SELECT. -/
theorem SelectedBy.step {t : Tag} {m : MessageId} {seen : List Subscriber}
    (h : SelectedBy cfg t m seen s) (hs : Program.step cfg s a = some s')
    (ha : ∀ b, a ≠ .handler t b) : SelectedBy cfg t m seen s' := by
  obtain ⟨s₁, s₂, as, hsel, hrun, hnot⟩ := h
  refine ⟨s₁, s₂, as ++ [a], hsel, run_append_eq_some.2 ⟨s, hrun, run_singleton.trans hs⟩, ?_⟩
  intro b hb
  obtain hb | hb := List.mem_append.1 hb
  · exact hnot b hb
  · exact ha b (List.mem_singleton.1 hb).symm

/-- An acceptance stays one. -/
theorem AcceptedBy.step {t : Tag} {m : MessageId} {seen : List Subscriber}
    (h : AcceptedBy cfg t m seen s) (hs : Program.step cfg s a = some s') :
    AcceptedBy cfg t m seen s' := by
  obtain ⟨s₁, s₂, ids, b, hsel, hb, hcommit, hnew, hmem, hlater⟩ := h
  exact ⟨s₁, s₂, ids, b, hsel, hb, hcommit, hnew, hmem, hlater.snoc hs⟩

/-- Whatever a call holds as its subscribers it has read in its own transaction, and every
entry of the ledger is that of a transaction that has read what the entry says. -/
structure TransactionInv (cfg : Settings) (s : World) : Prop where
  selected : ∀ t ev receivedAt seen readAt,
    s.intake.handlers t = .selected ev receivedAt seen readAt → SelectedBy cfg t ev.messageId seen s
  accepted : ∀ e ∈ s.intake.ledger, ∃ t, AcceptedBy cfg t e.messageId e.seen s

/-- SOURCE: app/consumer/rabbitmq.py:129-143 -/
theorem transactionInv_step (hreach : Reachable (step cfg) World.init s)
    (hinv : TransactionInv cfg s) (hs : step cfg s a = some s') : TransactionInv cfg s' := by
  refine ⟨fun t ev receivedAt seen readAt hh => ?_, fun e he => ?_⟩
  · obtain ⟨hold, ha⟩ | ⟨rfl, hins, hseen⟩ := selected_of_step hs hh
    · exact (hinv.selected t ev receivedAt seen readAt hold).step hs ha
    · exact ⟨s, s', [], ⟨hreach, ⟨ev, receivedAt, hins, rfl⟩, hs, hseen⟩, rfl,
        fun b => List.not_mem_nil⟩
  · have hkept : ∀ e ∈ s.intake.ledger, ∃ t, AcceptedBy cfg t e.messageId e.seen s' :=
      fun e he => (hinv.accepted e he).imp fun t ht => ht.step hs
    cases accepts_of_step hs with
    | nothing hledger _ _ =>
      rw [hledger] at he
      exact hkept e he
    | @message t ev receivedAt readAt seen hh hledger hids _ _ hact =>
      rw [hledger] at he
      obtain hold | hnew := List.mem_append.1 he
      · exact hkept e hold
      · cases List.mem_singleton.1 hnew
        obtain ⟨ids, hact⟩ := hact
        have hfresh : ev.messageId ∉ s.intake.ids :=
          (intakeInv_of_reachable hreach).open_new t _ (by rw [hh]; rfl)
        have hrow : ev.messageId ∈ s'.intake.ids := by
          rw [hids]
          exact List.mem_append_right _ (List.mem_singleton_self _)
        exact ⟨t, s, s', ids, a, hinv.selected t ev receivedAt seen readAt hh, hact, hs, hfresh,
          hrow, Reachable.refl s'⟩

/-- In every reachable state the calls and the ledger have what a SELECT has read. -/
theorem transactionInv_of_reachable (h : Reachable (step cfg) World.init s) :
    TransactionInv cfg s := by
  refine h.induct (I := TransactionInv cfg) ⟨?_, ?_⟩
    fun s a s' hreach hinv hs => transactionInv_step hreach hinv hs
  · intro t ev receivedAt seen readAt hh
    cases hh
  · intro e he
    cases he

end

/-! ## The result -/

/-- What exactly-once acceptance asks of a state. The ledger has one entry for each
transaction that created a key row, with the subscribers that its SELECT returned. -/
structure AcceptedOnce (cfg : Settings) (s : World) : Prop where
  /-- a message has at most one key row -/
  one_row : ∀ m, s.intake.ids.count m ≤ 1
  /-- a message with a key row was accepted by one transaction, whose SELECT has read the table
  of the subscribers as it was then, and has exactly one attempt for each subscriber that was
  active and not deleted there, and no other attempt -/
  one_attempt : ∀ m ∈ s.intake.ids, ∃ t seen, AcceptedBy cfg t m seen s ∧
    ⟨m, seen⟩ ∈ s.intake.ledger ∧ (∀ a ∈ s.intake.ledger, a.messageId = m → a.seen = seen) ∧
    ∀ sub, (s.delivery.attempts.map DeliveryAttempt.pair).count (m, sub) =
      if sub ∈ (seen.filter Subscriber.receives).map Subscriber.id then 1 else 0
  /-- an ACKed copy that names a message has its key row committed -/
  acked_recorded : ∀ t c m, s.intake.copies t = some c → Names cfg c.body m → c.state = .acked →
    m ∈ s.intake.ids

/-- Two subscribers of which one is inactive, and two copies of one message; the second copy
has another payload and is handled after the first call has died before its ACK. -/
def twoCopies : List Action :=
  [.subscriber 0 (.create ⟨1⟩ (py "http://a") (py "s")),
    .subscriber 0 (.create ⟨2⟩ (py "http://b") (py "s")),
    .subscriber 0 (.patch ⟨2⟩ ⟨none, some false⟩), .subscriber 0 .commit,
    .publish 0 (eventBody (py "m") (py "e") (.obj [])),
    .publish 1 (eventBody (py "m") (py "e") (.obj [(py "k", .null)]))] ++
  [.start ⟨3⟩, .insert, .selectSubscribers, .commit [⟨4⟩], .crash].map (.handler 0) ++
  [.start ⟨5⟩, .insert, .ack].map (.handler 1)

theorem twoCopies_enabled : (run (step .default) World.init twoCopies).isSome = true := by
  decide

end EventPipeline.Analysis
