import EventPipeline.Interface.IntakeSteps
import EventPipeline.Interface.DeliverySteps
import EventPipeline.Program.System

/-!
# What a step of the pipeline can do

`WorldStep` lists the steps of the whole system. `KeysStep` and `AttemptsStep` say what one
step does to each of the two tables that several processes write: which writer it was, and
which new version of the table it committed. An invariant of a table is then proved by cases
on its writers.
-/

set_option autoImplicit false

namespace EventPipeline.Interface

open EventPipeline.Model EventPipeline.Program EventPipeline.Computation

/-- The enabled steps of the pipeline. SOURCE: app/consumer/rabbitmq.py, app/delivery/worker.py,
app/api/deliveries.py, app/api/subscribers.py -/
inductive WorldStep (cfg : Settings) (s : World) : Action → World → Prop
  | tick {d : Time} : WorldStep cfg s (.tick d) { s with now := s.now + d }
  | publish {t : Tag} {body : Body} (hc : s.intake.copies t = none) :
      WorldStep cfg s (.publish t body)
        { s with
          intake :=
            { s.intake with copies := Function.update s.intake.copies t (some ⟨body, .ready⟩) } }
  | handler {t : Tag} {a : HandlerAction} {i : Intake} {attempts : List DeliveryAttempt}
      (h : HandlerStep cfg s.now s.registry.subscribers s.intake s.delivery.attempts t a i
        attempts) :
      WorldStep cfg s (.handler t a)
        { s with intake := i, delivery := { s.delivery with attempts := attempts } }
  | reconciler {p : ConsumerId} {a : ReconcilerAction} {i : Intake}
      (h : ReconcilerStep cfg s.now s.intake p a i) :
      WorldStep cfg s (.reconciler p a) { s with intake := i }
  | worker {w : WorkerId} {a : WorkerAction} {d : Delivery}
      (h : WorkerStep cfg s.now s.registry.subscribers s.intake.keys s.delivery w a d) :
      WorldStep cfg s (.worker w a) { s with delivery := d }
  | retry {r : RequestId} {a : RetryAction} {d : Delivery} (h : RetryStep s.now s.delivery r a d) :
      WorldStep cfg s (.retry r a) { s with delivery := d }
  | subscriber {r : RequestId} {a : SubscriberAction} {g : Registry} :
      WorldStep cfg s (.subscriber r a) { s with registry := g }

/-- The list of steps is complete. -/
theorem worldStep_of_eq_some {cfg : Settings} {s s' : World} {a : Action}
    (h : step cfg s a = some s') : WorldStep cfg s a s' := by
  cases a with
  | tick d =>
    cases h
    exact .tick
  | publish t body =>
    simp only [step, Option.isNone_iff_eq_none] at h
    split at h
    · rename_i hc
      cases h
      exact .publish hc
    · cases h
  | handler t a =>
    obtain ⟨⟨i, attempts⟩, hi, rfl⟩ := Option.map_eq_some_iff.1 h
    exact .handler (handlerStep_of_eq_some hi)
  | reconciler p a =>
    obtain ⟨i, hi, rfl⟩ := Option.map_eq_some_iff.1 h
    exact .reconciler (reconcilerStep_of_eq_some hi)
  | worker w a =>
    obtain ⟨d, hd, rfl⟩ := Option.map_eq_some_iff.1 h
    exact .worker (workerStep_of_eq_some hd)
  | retry r a =>
    obtain ⟨d, hd, rfl⟩ := Option.map_eq_some_iff.1 h
    exact .retry (retryStep_of_eq_some hd)
  | subscriber r a =>
    obtain ⟨g, _, rfl⟩ := Option.map_eq_some_iff.1 h
    exact .subscriber

/-- A step leaves worker `w` alone, or it is a step of that worker. -/
theorem worker_of_step {cfg : Settings} {s s' : World} {a : Action}
    (hs : step cfg s a = some s') (w : WorkerId) :
    s'.delivery.workers w = s.delivery.workers w ∨
      ∃ b d, a = .worker w b ∧ s' = { s with delivery := d } ∧
        WorkerStep cfg s.now s.registry.subscribers s.intake.keys s.delivery w b d := by
  cases worldStep_of_eq_some hs with
  | @worker w' b d h =>
    by_cases hw : w = w'
    · subst hw
      exact Or.inr ⟨b, d, rfl, rfl, h⟩
    · exact Or.inl (h.frame hw)
  | retry h => cases h <;> exact Or.inl rfl
  | _ => exact Or.inl rfl

/-- A worker that takes no step of a run stays as it is. -/
theorem worker_of_run {cfg : Settings} {s s' : World} {w : WorkerId} {as : List Action}
    (h : run (step cfg) s as = some s') (hw : ∀ b, Action.worker w b ∉ as) :
    s'.delivery.workers w = s.delivery.workers w := by
  induction as generalizing s with
  | nil =>
    cases h
    rfl
  | cons a as ih =>
    obtain ⟨m, hm, hrest⟩ := run_cons_eq_some.1 h
    rw [ih hrest fun b hb => hw b (List.mem_cons_of_mem _ hb)]
    obtain hkeep | ⟨b, _, rfl, _⟩ := worker_of_step hm w
    · exact hkeep
    · exact absurd List.mem_cons_self (hw b)

/-- A snapshot in a batch was there before, or this step claims its row.
SOURCE: app/delivery/worker.py:63-79 -/
theorem batch_of_step {cfg : Settings} {s s' : World} {a : Action}
    (hs : step cfg s a = some s') {w : WorkerId} {x : Snapshot}
    (hx : x ∈ (s'.delivery.workers w).phase.batch) :
    x ∈ (s.delivery.workers w).phase.batch ∨
      ∃ t₀ picks id, a = .worker w (.claim t₀ picks) ∧ id ∈ picks ∧
        snapshotOf s.delivery.attempts s.intake.keys id = some x ∧
        claimable t₀ x.attempt = true := by
  obtain hkeep | ⟨b, d, rfl, rfl, h⟩ := worker_of_step hs w
  · exact Or.inl (hkeep ▸ hx)
  · obtain hx | ⟨t₀, picks, id, rfl, hpick⟩ := h.batch hx
    · exact Or.inl hx
    · exact Or.inr ⟨t₀, picks, id, rfl, hpick⟩

/-- A step that adds a POST is the `post` of a worker that has fetched a subscriber that
receives. SOURCE: app/delivery/worker.py:105-123 -/
theorem post_of_step {cfg : Settings} {s s' : World} {a : Action} {p : Post}
    (hs : step cfg s a = some s') (hp : s'.delivery.posts = s.delivery.posts ++ [p]) :
    ∃ w x sub todo, a = .worker w .post ∧
      (s.delivery.workers w).phase = .fetched x (some sub) todo ∧ sub.receives = true ∧
      p = postOf x sub := by
  have hne : s.delivery.posts ≠ s.delivery.posts ++ [p] := by simp
  cases worldStep_of_eq_some hs with
  | worker hw =>
    cases hw with
    | post hph hsub =>
      have heq := List.append_cancel_left hp
      exact ⟨_, _, _, _, rfl, hph, hsub, (List.cons.inj heq).1.symm⟩
    | _ => exact absurd hp hne
  | retry hr => cases hr <;> exact absurd hp hne
  | _ => exact absurd hp hne

/-! ## The writers of `idempotency_keys` -/

/-- What the transaction of a new message writes, when both INSERTs go through.
SOURCE: app/consumer/rabbitmq.py:131-142 -/
theorem commitEvent_eq_some {s s' : Intake} {attempts attempts' : List DeliveryAttempt}
    {now receivedAt readAt : Time} {t : Tag} {ev : NewEvent} {seen : List Subscriber}
    {ids : List Uuid}
    (h : commitEvent s attempts now t ev receivedAt seen readAt ids = some (s', attempts')) :
    ids.length = (seen.filter Subscriber.receives).length ∧
      insertAttempts attempts (createDeliveryAttempts ev.messageId seen ids readAt now) =
        some attempts' ∧
      s' = ({ s.closeInsert t with
        keys := s.keys ++ [newKey ev receivedAt]
        ledger := s.ledger ++ [⟨ev.messageId, seen⟩] } : Intake).setHandler t (.committed ev) := by
  unfold commitEvent at h
  split at h
  · rename_i hlen
    obtain ⟨attempts'', hins, heq⟩ := Option.map_eq_some_iff.1 h
    cases heq
    exact ⟨hlen, hins, rfl⟩
  · cases h

/-- A call does not touch the cycles. -/
theorem HandlerStep.cycles {cfg : Settings} {now : Time} {subscribers : List Subscriber}
    {s s' : Intake} {attempts attempts' : List DeliveryAttempt} {t : Tag} {a : HandlerAction}
    (h : HandlerStep cfg now subscribers s attempts t a s' attempts') :
    s'.reconcilers = s.reconcilers ∧ s'.reEnqueued = s.reEnqueued := by
  cases h with
  | commit _ hc =>
    obtain ⟨_, _, rfl⟩ := commitEvent_eq_some hc
    exact ⟨rfl, rfl⟩
  | commitLost _ hc =>
    obtain ⟨_, _, rfl⟩ := commitEvent_eq_some hc
    exact ⟨rfl, rfl⟩
  | _ => exact ⟨rfl, rfl⟩

/-- A step leaves the cycle of consumer `p` alone, or it is a step of that cycle. -/
theorem reconciler_of_step {cfg : Settings} {s s' : World} {a : Action}
    (hs : step cfg s a = some s') (p : ConsumerId) :
    s'.intake.reconcilers p = s.intake.reconcilers p ∨
      ∃ b i, a = .reconciler p b ∧ s' = { s with intake := i } ∧
        ReconcilerStep cfg s.now s.intake p b i := by
  cases worldStep_of_eq_some hs with
  | handler h => exact Or.inl (congrFun h.cycles.1 p)
  | @reconciler q b i h =>
    by_cases hp : p = q
    · subst hp
      exact Or.inr ⟨b, i, rfl, rfl, h⟩
    · exact Or.inl (h.frame hp)
  | _ => exact Or.inl rfl

/-- How a phase may follow another when no key row is written by the call: it is the same
phase, or one that owns no event, or one that owns the same event. A snapshot of the event
row is taken from the table. -/
def Follows (keys : List IdempotencyKey) (h h' : Handler) : Prop :=
  h' = h ∨ h'.owns = none ∨
    (h'.owns = h.owns ∧ ∀ m enriched at' ik, h' = .storeLoaded m enriched at' ik →
      lookup IdempotencyKey.messageId m keys = some ik)

/-- What a step does to the key rows and to the calls that own one.
SOURCE: app/consumer/rabbitmq.py:47-58,179-182,191-195,261 -/
inductive KeysStep (s : Intake) : Action → Intake → Prop
  | same {a : Action} {s' : Intake} (hkeys : s'.keys = s.keys)
      (hf : ∀ t, Follows s.keys (s.handlers t) (s'.handlers t)) : KeysStep s a s'
  | insert {t : Tag} {a : HandlerAction} {s' : Intake} {ev : NewEvent} {receivedAt readAt : Time}
      {seen : List Subscriber} (hh : s.handlers t = .selected ev receivedAt seen readAt)
      (hkeys : s'.keys = s.keys ++ [newKey ev receivedAt])
      (hf : ∀ t', t' ≠ t → s'.handlers t' = s.handlers t')
      (ht : s'.handlers t = .committed ev ∨ s'.handlers t = .idle) : KeysStep s (.handler t a) s'
  | store {t : Tag} {s' : Intake} {m : MessageId} {enriched : Json} {at' : Time}
      {ik : IdempotencyKey} (hh : s.handlers t = .storeLoaded m enriched at' ik)
      (hkeys : s'.keys = updateKey m (storeEnrichment ik enriched at') s.keys)
      (hf : ∀ t', t' ≠ t → s'.handlers t' = s.handlers t') (ht : s'.handlers t = .idle) :
      KeysStep s (.handler t .write) s'
  | record {t : Tag} {s' : Intake} {m : MessageId} {error : PyStr} {ik : IdempotencyKey}
      (hh : s.handlers t = .recordLoaded m error ik)
      (hkeys : s'.keys = updateKey m (storeError ik error) s.keys)
      (hf : ∀ t', t' ≠ t → s'.handlers t' = s.handlers t') (ht : s'.handlers t = .idle) :
      KeysStep s (.handler t .write) s'
  | flush {p : ConsumerId} {s' : Intake} {dirty : List KeyWrite}
      (hc : s.reconcilers p = .running [] dirty) (hkeys : s'.keys = flushWrites dirty s.keys)
      (hf : s'.handlers = s.handlers) : KeysStep s (.reconciler p .commit) s'

section
variable {keys : List IdempotencyKey} {handlers : Tag → Handler} {t : Tag} {h : Handler}

/-- A call that stays as it is follows itself. -/
theorem Follows.rfl' (t' : Tag) : Follows keys (handlers t') (handlers t') := Or.inl rfl

/-- Only call `t` moves. -/
theorem follows_update (hh : Follows keys (handlers t) h) (t' : Tag) :
    Follows keys (handlers t') (Function.update handlers t h t') := by
  by_cases ht : t' = t
  · rw [ht, Function.update_self]
    exact hh
  · rw [Function.update_of_ne ht]
    exact Or.inl rfl

/-- A call that owns no event follows whatever it was. -/
theorem follows_free (hh : h.owns = none) (t' : Tag) :
    Follows keys (handlers t') (Function.update handlers t h t') :=
  follows_update (Or.inr (Or.inl hh)) t'

end

/-- A step of a call writes the key rows in one of these ways. -/
theorem keysStep_of_handlerStep {cfg : Settings} {now : Time} {subscribers : List Subscriber}
    {s s' : Intake} {attempts attempts' : List DeliveryAttempt} {t : Tag} {a : HandlerAction}
    (h : HandlerStep cfg now subscribers s attempts t a s' attempts') :
    KeysStep s (.handler t a) s' := by
  have hne : ∀ h t', t' ≠ t → Function.update s.handlers t h t' = s.handlers t' :=
    fun _ _ ht => Function.update_of_ne ht _ _
  have hself : ∀ h, Function.update s.handlers t h t = h := fun _ => Function.update_self _ _ _
  cases h with
  | commit hh hc =>
    obtain ⟨_, _, rfl⟩ := commitEvent_eq_some hc
    exact .insert hh rfl (hne _) (Or.inl (hself _))
  | commitLost hh hc =>
    obtain ⟨_, _, rfl⟩ := commitEvent_eq_some hc
    refine .insert hh rfl (fun t' ht => ?_) (Or.inr ?_)
    · show Function.update (Function.update s.handlers t _) t _ t' = s.handlers t'
      rw [Function.update_of_ne ht, Function.update_of_ne ht]
    · exact Function.update_self _ _ _
  | store hh => exact .store hh rfl (hne _) (hself _)
  | record hh => exact .record hh rfl (hne _) (hself _)
  | ackEarly hh => exact .same rfl (follows_update (Or.inr (Or.inr ⟨by rw [hh]; rfl, nofun⟩)))
  | enriched hh => exact .same rfl (follows_update (Or.inr (Or.inr ⟨by rw [hh]; rfl, nofun⟩)))
  | fatal hh => exact .same rfl (follows_update (Or.inr (Or.inr ⟨by rw [hh]; rfl, nofun⟩)))
  | loadRecord hh _ => exact .same rfl (follows_update (Or.inr (Or.inr ⟨by rw [hh]; rfl, nofun⟩)))
  | loadStore hh hl =>
    refine .same rfl (follows_update (Or.inr (Or.inr ⟨by rw [hh]; rfl, ?_⟩)))
    intro m enriched at' ik heq
    cases heq
    exact hl
  | _ => exact .same rfl (follows_free rfl)

/-- Every step writes the key rows in one of the ways that `KeysStep` lists. -/
theorem keysStep_of_step {cfg : Settings} {s s' : World} {a : Action}
    (h : step cfg s a = some s') : KeysStep s.intake a s'.intake := by
  cases worldStep_of_eq_some h with
  | handler hs => exact keysStep_of_handlerStep hs
  | reconciler hs =>
    cases hs with
    | commit hc => exact .flush hc rfl rfl
    | _ => exact .same rfl Follows.rfl'
  | _ => exact .same rfl Follows.rfl'

/-! ## The writers of `delivery_attempts` -/

/-- What a step does to the attempt rows. SOURCE: app/consumer/rabbitmq.py:74-93,
app/delivery/worker.py:36-55,83-89,109-117,160-174, app/api/deliveries.py:65-69 -/
inductive AttemptsStep (cfg : Settings) (s : World) : Action → List DeliveryAttempt → Prop
  | same {a : Action} : AttemptsStep cfg s a s.delivery.attempts
  | insert {t : Tag} {a : HandlerAction} {ev : NewEvent} {receivedAt readAt : Time}
      {seen : List Subscriber} {ids : List Uuid} {attempts : List DeliveryAttempt}
      (hh : s.intake.handlers t = .selected ev receivedAt seen readAt)
      (hlen : ids.length = (seen.filter Subscriber.receives).length)
      (hins : insertAttempts s.delivery.attempts
        (createDeliveryAttempts ev.messageId seen ids readAt s.now) = some attempts) :
      AttemptsStep cfg s (.handler t a) attempts
  | mark {w : WorkerId} {t₀ : Time} {picked : List Snapshot}
      (hph : (s.delivery.workers w).phase = .claiming t₀ picked) :
      AttemptsStep cfg s (.worker w .claimCommit)
        (markInFlight (picked.map fun a => a.attempt.id) t₀ s.delivery.attempts)
  | close {w : WorkerId} {a : Snapshot} {sub : Option Subscriber} {todo : List Snapshot}
      (hph : (s.delivery.workers w).phase = .fetched a sub todo)
      (hl : a.attempt.id ∉ s.delivery.locked) :
      AttemptsStep cfg s (.worker w .close) (closeInactive a.attempt s.now s.delivery.attempts)
  | writeBack {w : WorkerId} {a : Snapshot} {r : DeliveryResult} {at' : Time} {k : Draw}
      {todo : List Snapshot} {u : FinalUpdate}
      (hph : (s.delivery.workers w).phase = .posted a r at' todo)
      (hl : a.attempt.id ∉ s.delivery.locked)
      (hu : finalUpdate cfg a.attempt r at' k = some u) :
      AttemptsStep cfg s (.worker w (.writeBack k))
        (updateAttempt a.attempt.id (u.apply a.attempt r at') s.delivery.attempts)
  | reset {w : WorkerId} {t₀ : Time} :
      AttemptsStep cfg s (.worker w (.resetStale t₀))
        (resetStaleInFlight cfg t₀ s.delivery.attempts)
  | retry {r : RequestId} {a : DeliveryAttempt} (hr : s.delivery.retries r = .loaded a)
      (hl : a.id ∉ s.delivery.locked) :
      AttemptsStep cfg s (.retry r .commit)
        (updateWhere (fun row => row.id = a.id) (retryRow a s.now) s.delivery.attempts)

/-- Every step writes the attempt rows in one of the ways that `AttemptsStep` lists. -/
theorem attemptsStep_of_step {cfg : Settings} {s s' : World} {a : Action}
    (h : step cfg s a = some s') : AttemptsStep cfg s a s'.delivery.attempts := by
  cases worldStep_of_eq_some h with
  | handler hs =>
    cases hs with
    | commit hh hc =>
      obtain ⟨hlen, hins, _⟩ := commitEvent_eq_some hc
      exact .insert hh hlen hins
    | commitLost hh hc =>
      obtain ⟨hlen, hins, _⟩ := commitEvent_eq_some hc
      exact .insert hh hlen hins
    | _ => exact .same
  | worker hs =>
    cases hs with
    | claimCommit hph => exact .mark hph
    | close hph _ hl => exact .close hph hl
    | writeBack hph hl hw =>
      obtain ⟨u, hu, rfl⟩ := writeBack_eq_some hw
      exact .writeBack hph hl hu
    | resetStale _ => exact .reset
    | _ => exact .same
  | retry hs =>
    cases hs with
    | commit hr hl => exact .retry hr hl
    | _ => exact .same
  | _ => exact .same

end EventPipeline.Interface
