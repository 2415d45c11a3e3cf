import EventPipeline.Analysis.ExactlyOnceAcceptance
import EventPipeline.Interface.CallSteps
import EventPipeline.Computation.History

/-!
# Redelivered messages

A call that has committed its event ACKs the message next, and the broker does not deliver a
message again that is ACKed or rejected. So a message creates rows once, whatever its body,
as long as the consumer does not die between the COMMIT and the ACK. When it does, the second
delivery is recognised by its `message_id` alone. A body without one gets a new identity at
each delivery, and the event is accepted a second time.
-/

set_option autoImplicit false

namespace EventPipeline.Analysis

open EventPipeline.Model EventPipeline.Program EventPipeline.Interface EventPipeline.Computation

/-! ## The rows of one message -/

/-- What the steps of call `t` add to the tables, where `added` compares the tables before
and after a step. -/
def addedBy {ο : Type} (cfg : Settings) (t : Tag) (added : World → World → List ο) (s : World) :
    Action → List ο
  | .handler t' b =>
    if t' = t then ((step cfg s (.handler t' b)).map (added s)).getD [] else []
  | _ => []

def addedKeys (s s' : World) : List IdempotencyKey :=
  addedRows IdempotencyKey.messageId s.intake.keys s'.intake.keys

def addedAttempts (s s' : World) : List DeliveryAttempt :=
  addedRows DeliveryAttempt.pair s.delivery.attempts s'.delivery.attempts

/-- The calls that die between the COMMIT and the ACK.
SOURCE: app/consumer/rabbitmq.py:142-147 -/
def diesBeforeAck (s : World) : Action → List Tag
  | .handler t .crash =>
    match s.intake.handlers t with
    | .committed _ => [t]
    | _ => []
  | _ => []

/-- The consumer does not die between the COMMIT and the ACK of message `t`. -/
def AcksCommitted (t : Tag) (s : World) (a : Action) : Prop := t ∉ diesBeforeAck s a

instance (t : Tag) (s : World) (a : Action) : Decidable (AcksCommitted t s a) :=
  inferInstanceAs (Decidable (t ∉ diesBeforeAck s a))

/-- A body that is an object whose `message_id` is missing, null or empty. -/
def WithoutId (body : Body) : Prop :=
  ∃ data, body.loads = .value (.obj data) ∧
    ((Json.get data (py "message_id")).getD .null).truthy = false

/-! ## A message that is spent -/

/-- No later step of call `t` creates a row: the call is about to ACK what it has committed,
or the broker has done with the message and the call is past its transaction. -/
inductive Spent (s : Intake) (t : Tag) : Prop
  | committed {ev : NewEvent} (hh : s.handlers t = .committed ev)
  | done {c : Copy} (hc : s.copies t = some c) (hheld : c.held = false)
      (hh : ¬ Unsettled (s.handlers t))

section
variable {cfg : Settings} {now : Time} {subscribers : List Subscriber} {s s' : Intake}
  {attempts attempts' : List DeliveryAttempt} {t : Tag} {a : HandlerAction}

/-- The broker has done with the copy, and an exception or a crash does not give it back. -/
theorem processOnException_of_not_held {c : Copy} (hheld : c.held = false) (requeue : Bool) :
    processOnException requeue c.state = c.state := by
  obtain ⟨body, st⟩ := c
  cases st <;> first | rfl | cases hheld

/-- A call that is past its transaction does not go back to it. -/
theorem spent_of_done (h : HandlerStep cfg now subscribers s attempts t a s' attempts')
    {c : Copy} (hc : s.copies t = some c) (hheld : c.held = false)
    (hh : ¬ Unsettled (s.handlers t)) : Spent s' t := by
  have hstart : ∀ body, s.copies t ≠ some ⟨body, .ready⟩ := by
    intro body hready
    rw [hc, Option.some.injEq] at hready
    subst hready
    cases hheld
  have hunsettled : ∀ h, s.handlers t = h → Unsettled h → Spent s' t := by
    intro h heq hu
    exact absurd (heq ▸ hu) hh
  have hstop : ∀ (i : Intake) requeue, i.copies t = s.copies t →
      Spent ((i.setHandler t .idle).modifyCopy t (processOnException requeue)) t := by
    intro i requeue hi
    refine .done (c := c) ?_ hheld ?_
    · simp [hi, hc, processOnException_of_not_held hheld]
    · simp [Unsettled]
  cases h with
  | discard hcopy _ _ => exact absurd hcopy (hstart _)
  | raised hcopy _ _ => exact absurd hcopy (hstart _)
  | event hcopy _ _ => exact absurd hcopy (hstart _)
  | insertRaised hp _ => exact hunsettled _ hp trivial
  | duplicate hp _ _ => exact hunsettled _ hp trivial
  | insert hp _ _ _ => exact hunsettled _ hp trivial
  | select hp => exact hunsettled _ hp trivial
  | commit hp _ => exact hunsettled _ hp trivial
  | commitLost hp _ => exact hunsettled _ hp trivial
  | ackOnly hp => exact hunsettled _ hp trivial
  | ackEarly hp => exact hunsettled _ hp trivial
  | dbError _ _ _ _ => exact hstop (s.closeInsert t) _ rfl
  | crash => exact hstop (s.closeInsert t) true rfl
  | _ => exact .done hc hheld (by simp [Unsettled])

/-- A call that has committed can only go on with the ACK, or die.
SOURCE: app/consumer/rabbitmq.py:142-147 -/
theorem ack_or_crash_of_committed {r : Intake × List DeliveryAttempt} {ev : NewEvent}
    (h : handleMessage cfg now subscribers s attempts t a = some r)
    (hh : s.handlers t = .committed ev) : a = .ack ∨ a = .crash := by
  cases a <;> simp_all [handleMessage]

/-- The ACK leaves the message spent. -/
theorem spent_of_ack (h : HandlerStep cfg now subscribers s attempts t .ack s' attempts')
    {c : Copy} (hc : s.copies t = some c) : Spent s' t := by
  cases h <;>
    exact .done (c := ⟨c.body, .acked⟩) (by simp [hc]) rfl (by simp [Unsettled])

/-- A call adds rows in its commit only, which leaves its message spent.
SOURCE: app/consumer/rabbitmq.py:131-147 -/
theorem adds_of_step (h : HandlerStep cfg now subscribers s attempts t a s' attempts')
    (hunacked : ∀ x, Unsettled (s.handlers t) → s.copies t = some x → x.state = .unacked)
    (hcopy : s.copies t = none → s.handlers t = .idle) :
    (s'.ids = s.ids ∧ attempts' = attempts) ∨ ((s.handlers t).inserting ≠ none ∧ Spent s' t) := by
  have hset : ∀ m f, (∀ k : IdempotencyKey, (f k).messageId = k.messageId) →
      (updateKey m f s.keys).map IdempotencyKey.messageId = s.ids :=
    fun m f hf => map_updateWhere _ fun k _ => hf k
  cases h with
  | commit hh hc =>
    obtain ⟨_, _, rfl⟩ := commitEvent_eq_some hc
    exact Or.inr ⟨by simp [hh, Handler.inserting], .committed (Function.update_self _ _ _)⟩
  | commitLost hh hc =>
    obtain ⟨_, _, rfl⟩ := commitEvent_eq_some hc
    cases hx : s.copies t with
    | none => rw [hcopy hx] at hh; cases hh
    | some x =>
      have hst := hunacked x (hh ▸ trivial) hx
      refine Or.inr ⟨by simp [hh, Handler.inserting], .done (c := ⟨x.body, .rejected⟩) ?_ rfl ?_⟩
      · simp [raiseFrom, hx, hst, processOnException, processRequeue]
      · simp [raiseFrom, Unsettled]
  | store _ => exact Or.inl ⟨hset _ _ fun _ => rfl, rfl⟩
  | record _ => exact Or.inl ⟨hset _ _ fun _ => rfl, rfl⟩
  | _ => exact Or.inl ⟨rfl, rfl⟩

end

section
variable {cfg : Settings} {s s' : World} {t : Tag} {a : Action}

/-- A call that has spent its message inserts nothing more. -/
theorem Spent.inserting (hset : Spent s.intake t) : (s.intake.handlers t).inserting = none := by
  cases hset with
  | committed hh => rw [hh]; rfl
  | done _ _ hu =>
    generalize s.intake.handlers t = h at hu
    cases h with
    | inserted _ _ => exact absurd trivial hu
    | selected _ _ _ _ => exact absurd trivial hu
    | _ => rfl

/-- A spent message stays spent while the consumer does not die before the ACK. -/
theorem Spent.step (hset : Spent s.intake t) (hinv : IntakeInv cfg s.intake)
    (hC : AcksCommitted t s a) (hs : Program.step cfg s a = some s') : Spent s'.intake t := by
  have hstill : s'.intake.copies t = s.intake.copies t →
      s'.intake.handlers t = s.intake.handlers t → Spent s'.intake t := by
    intro hc hh
    cases hset with
    | committed h => exact .committed (hh.trans h)
    | done h hheld hu => exact .done (hc.trans h) hheld (hh ▸ hu)
  have hnew : s.intake.copies t ≠ none := by
    intro hnone
    cases hset with
    | committed h =>
      rw [(hinv.call t).idle_of_none hnone] at h
      cases h
    | done h _ _ =>
      rw [hnone] at h
      cases h
  cases callStep_of_step hs t with
  | still hc hh => exact hstill hc hh
  | published hnone _ _ => exact absurd hnone hnew
  | reEnqueued _ hnone _ _ => exact absurd hnone hnew
  | @moved b h =>
    cases hset with
    | committed hh =>
      obtain ⟨c, hc⟩ := Option.ne_none_iff_exists'.1 hnew
      obtain ⟨r, hr, _⟩ := Option.map_eq_some_iff.1 hs
      obtain rfl | rfl := ack_or_crash_of_committed hr hh
      · exact spent_of_ack h hc
      · refine absurd ?_ hC
        simp [diesBeforeAck, hh]
    | done hc hheld hu => exact spent_of_done h hc hheld hu

end

/-! ## The history of one message -/

section
variable {ο : Type} {g : World → World → List ο} {cfg : Settings} {s s' : World} {t : Tag}

/-- A step adds nothing for message `t`, or it is the commit of its call. -/
theorem addedBy_of_step {a : Action}
    (hg : ∀ s s' : World, s'.intake.ids = s.intake.ids →
      s'.delivery.attempts = s.delivery.attempts → g s s' = [])
    (hinv : IntakeInv cfg s.intake) (hs : step cfg s a = some s') :
    addedBy cfg t g s a = [] ∨ ((s.intake.handlers t).inserting ≠ none ∧
      Spent s'.intake t ∧ addedBy cfg t g s a = g s s') := by
  have hother : (∀ b, a ≠ .handler t b) → addedBy cfg t g s a = [] := by
    intro hne
    cases a with
    | handler t' b =>
      have ht : t' ≠ t := fun heq => hne b (heq ▸ rfl)
      simp only [addedBy, if_neg ht]
    | _ => rfl
  cases worldStep_of_eq_some hs with
  | @handler t' b i attempts h =>
    by_cases ht : t' = t
    · subst ht
      have heq : addedBy cfg t' g s (.handler t' b) = g s
          { s with intake := i, delivery := { s.delivery with attempts := attempts } } := by
        simp only [addedBy, if_true, hs, Option.map_some, Option.getD_some]
      obtain ⟨hids, hattempts⟩ | ⟨hins, hspent⟩ := adds_of_step h
        (fun x hu hx => (hinv.call t').unacked hu x hx) (hinv.call t').idle_of_none
      · exact Or.inl (heq.trans (hg _ _ hids hattempts))
      · exact Or.inr ⟨hins, hspent, heq⟩
    · refine Or.inl (hother fun b' heq => ht ?_)
      cases heq
      rfl
  | _ => exact Or.inl rfl

/-- In a run in which the consumer does not die before the ACK of message `t`, all that its
call adds is added by one step. -/
theorem addedBy_once {as : List Action}
    (hg : ∀ s s' : World, s'.intake.ids = s.intake.ids →
      s'.delivery.attempts = s.delivery.attempts → g s s' = [])
    (h : run (step cfg) World.init as = some s)
    (hC : Meets (step cfg) (AcksCommitted t) World.init as) :
    history (step cfg) (addedBy cfg t g) World.init as = [] ∨
      Spent s.intake t ∧ ∃ m a m', Reachable (step cfg) World.init m ∧
        step cfg m a = some m' ∧
        history (step cfg) (addedBy cfg t g) World.init as = g m m' := by
  refine history_induct_if (I := fun s l => l = [] ∨ Spent s.intake t ∧ ∃ m a m',
    Reachable (step cfg) World.init m ∧ step cfg m a = some m' ∧ l = g m m')
    (Or.inl rfl) ?_ h hC
  intro s l a s' hreach hl hC hs
  have hinv := intakeInv_of_reachable hreach.reachable
  obtain hnothing | ⟨hins, hspent, heq⟩ := addedBy_of_step hg hinv hs
  · rw [hnothing, List.append_nil]
    obtain hnil | ⟨hspent, hfrom⟩ := hl
    · exact Or.inl hnil
    · exact Or.inr ⟨hspent.step hinv hC hs, hfrom⟩
  · obtain hnil | ⟨hspent, _⟩ := hl
    · refine Or.inr ⟨‹_›, s, a, s', hreach.reachable, hs, ?_⟩
      rw [hnil, List.nil_append, heq]
    · exact absurd hspent.inserting hins

end

/-! ## What one step adds -/

section
variable {cfg : Settings} {s s' : World} {a : Action}

/-- SOURCE: app/consumer/rabbitmq.py:131-142 -/
theorem addedKeys_le_one (hreach : Reachable (step cfg) World.init s')
    (hs : step cfg s a = some s') : (addedKeys s s').length ≤ 1 := by
  cases accepts_of_step hs with
  | nothing _ hids _ =>
    rw [addedKeys, addedRows_of_map_eq hids]
    exact Nat.zero_le 1
  | message _ _ hids _ _ _ =>
    have hkeys := map_addedRows hids (ids_nodup_of_reachable hreach)
    rw [addedKeys, ← List.length_map, hkeys]
    exact le_refl 1

/-- SOURCE: app/consumer/rabbitmq.py:74-93, app/db/models.py:83 -/
theorem addedAttempts_nodup (hreach : Reachable (step cfg) World.init s')
    (hs : step cfg s a = some s') :
    ((addedAttempts s s').map DeliveryAttempt.subscriberId).Nodup := by
  cases accepts_of_step hs with
  | nothing _ _ hpairs =>
    rw [addedAttempts, addedRows_of_map_eq hpairs]
    exact List.nodup_nil
  | @message _ ev _ _ seen _ _ _ hpairs hn _ =>
    obtain ⟨hvalid, hrefines⟩ := refinesInbox_of_reachable hreach
    have hadded := map_addedRows hpairs (hrefines.entries ▸ hvalid.entries_nodup)
    have hsubs := congrArg (List.map Prod.snd) hadded
    rw [List.map_map, List.map_map] at hsubs
    have hself : (recipients seen).map (Prod.snd ∘ fun r => (ev.messageId, r)) = recipients seen :=
      List.map_id _
    rw [hself] at hsubs
    exact hsubs ▸ hn

end

/-! ## The result -/

/-- All that call `t` creates in a run: key rows, and delivery attempts. -/
def createdKeys (cfg : Settings) (t : Tag) (as : List Action) : List IdempotencyKey :=
  history (step cfg) (addedBy cfg t addedKeys) World.init as

def createdAttempts (cfg : Settings) (t : Tag) (as : List Action) : List DeliveryAttempt :=
  history (step cfg) (addedBy cfg t addedAttempts) World.init as

/-- However often the message is delivered, it creates one key row and one attempt for each
subscriber, in every run in which the consumer does not die between its COMMIT and its ACK.
SOURCE: app/consumer/rabbitmq.py:106-147, app/consumer/README.md:40-41 -/
theorem message_creates_rows_once (cfg : Settings) (t : Tag) (as : List Action) (s : World)
    (h : run (step cfg) World.init as = some s)
    (hC : Meets (step cfg) (AcksCommitted t) World.init as) :
    (createdKeys cfg t as).length ≤ 1 ∧
      ((createdAttempts cfg t as).map DeliveryAttempt.subscriberId).Nodup := by
  constructor
  · obtain hnil | ⟨_, m, a, m', hm, hs, heq⟩ := addedBy_once (g := addedKeys)
      (fun _ _ hids _ => addedRows_of_map_eq hids) h hC
    · rw [createdKeys, hnil]
      exact Nat.zero_le 1
    · rw [createdKeys, heq]
      exact addedKeys_le_one (hm.snoc hs) hs
  · obtain hnil | ⟨_, m, a, m', hm, hs, heq⟩ := addedBy_once (g := addedAttempts)
      (fun _ _ _ hatt => addedRows_of_map_eq (congrArg _ hatt)) h hC
    · rw [createdAttempts, hnil]
      exact List.nodup_nil
    · rw [createdAttempts, heq]
      exact addedAttempts_nodup (hm.snoc hs) hs

/-! ## Concrete histories -/

/-- An event without an id. -/
def bodyWithoutId : Body :=
  .ofDumps (.obj [(py "event_type", .str (py "e")), (py "payload", .obj [])])

/-- The body names no message. -/
theorem withoutId_bodyWithoutId : WithoutId bodyWithoutId :=
  ⟨_, rfl, rfl⟩

/-- One subscriber, and message 0 without an id. -/
def anonymousMessage : List Action :=
  [.subscriber 0 (.create ⟨1⟩ (py "http://a") (py "s")), .publish 0 bodyWithoutId]

/-- A delivery of message 0 up to the COMMIT. -/
def deliveredToCommit (u : Uuid) (ids : List Uuid) : List Action :=
  [.start u, .insert, .selectSubscribers, .commit ids].map (.handler 0)

/-- The consumer dies before the COMMIT, and the second delivery goes through. -/
def diesBeforeCommit : List Action :=
  anonymousMessage ++ [.start ⟨2⟩, .insert, .selectSubscribers, .crash].map (.handler 0) ++
    acceptance 0 ⟨3⟩ [⟨4⟩]

theorem diesBeforeCommit_enabled :
    (run (step .default) World.init diesBeforeCommit).isSome = true := by decide

/-- The first delivery dies before its COMMIT, the second one creates the rows. -/
theorem message_creates_rows_once_diesBeforeCommit :
    (createdKeys .default 0 diesBeforeCommit).length ≤ 1 ∧
      ((createdAttempts .default 0 diesBeforeCommit).map DeliveryAttempt.subscriberId).Nodup :=
  message_creates_rows_once .default 0 diesBeforeCommit _
    (Option.some_get diesBeforeCommit_enabled).symm (by decide)

/-- The consumer dies between the COMMIT and the ACK, and the broker delivers the message
again. -/
def diesAfterCommit : List Action :=
  anonymousMessage ++ deliveredToCommit ⟨2⟩ [⟨3⟩] ++ [.handler 0 .crash] ++
    deliveredToCommit ⟨4⟩ [⟨5⟩]

theorem diesAfterCommit_enabled :
    (run (step .default) World.init diesAfterCommit).isSome = true := by decide

/-- The second delivery creates a second key row and a second attempt for the subscriber.
SOURCE: app/consumer/rabbitmq.py:125 -/
theorem message_creates_rows_twice :
    ¬ ∀ (cfg : Settings) (t : Tag) (body : Body) (as : List Action) (s : World),
      WithoutId body → run (step cfg) World.init as = some s →
      (∃ st, s.intake.copies t = some ⟨body, st⟩) →
      (createdKeys cfg t as).length ≤ 1 ∧
        ((createdAttempts cfg t as).map DeliveryAttempt.subscriberId).Nodup := by
  intro h
  have hle := (h .default 0 bodyWithoutId diesAfterCommit _ withoutId_bodyWithoutId
    (Option.some_get diesAfterCommit_enabled).symm ⟨.unacked, rfl⟩).1
  exact absurd hle (by decide)

end EventPipeline.Analysis
