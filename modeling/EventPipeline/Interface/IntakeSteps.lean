import EventPipeline.Program.Reconciler

/-!
# What a step of the intake side can do

`HandlerStep` and `ReconcilerStep` list the enabled steps of `handleMessage` and
`reconciler`, one constructor for each way through the source, guards included.
`handlerStep_of_eq_some` and `reconcilerStep_of_eq_some` say that the lists are complete.
The invariants of the intake side are proved by cases on these relations and never unfold
the step functions.
-/

set_option autoImplicit false

namespace EventPipeline.Interface

open EventPipeline.Model EventPipeline.Program EventPipeline.Computation

/-- The enabled steps of a `handle_message` call. The commit has the new rows as a
parameter; `commitLost` is `commit` followed by the exception. -/
inductive HandlerStep (cfg : Settings) (now : Time) (subscribers : List Subscriber) (s : Intake)
    (attempts : List DeliveryAttempt) (t : Tag) :
    HandlerAction → Intake → List DeliveryAttempt → Prop
  | discard {u : Uuid} {body : Body} (hcopy : s.copies t = some ⟨body, .ready⟩)
      (hh : s.handlers t = .idle) (hp : parseMessage cfg body u = .discard) :
      HandlerStep cfg now subscribers s attempts t (.start u)
        ((s.setHandler t .acking).setCopy t .unacked) attempts
  | raised {u : Uuid} {body : Body} (hcopy : s.copies t = some ⟨body, .ready⟩)
      (hh : s.handlers t = .idle) (hp : parseMessage cfg body u = .raised) :
      HandlerStep cfg now subscribers s attempts t (.start u)
        (raiseFrom (s.setCopy t .unacked) t) attempts
  | event {u : Uuid} {body : Body} {ev : RawEvent} (hcopy : s.copies t = some ⟨body, .ready⟩)
      (hh : s.handlers t = .idle) (hp : parseMessage cfg body u = .event ev) :
      HandlerStep cfg now subscribers s attempts t (.start u)
        ((s.setHandler t (.parsed ev)).setCopy t .unacked) attempts
  | insertRaised {ev : RawEvent} (hh : s.handlers t = .parsed ev) (hv : insertValues ev = none) :
      HandlerStep cfg now subscribers s attempts t .insert (raiseFrom s t) attempts
  | duplicate {ev : RawEvent} {new : NewEvent} (hh : s.handlers t = .parsed ev)
      (hv : insertValues ev = some new) (hm : new.messageId ∈ s.ids) :
      HandlerStep cfg now subscribers s attempts t .insert (s.setHandler t .acking) attempts
  | insert {ev : RawEvent} {new : NewEvent} (hh : s.handlers t = .parsed ev)
      (hv : insertValues ev = some new) (hm : new.messageId ∉ s.ids)
      (ho : new.messageId ∉ s.openInserts.map Prod.snd) :
      HandlerStep cfg now subscribers s attempts t .insert
        (({ s with openInserts := s.openInserts ++ [(t, new.messageId)] } : Intake).setHandler t
          (.inserted new now)) attempts
  | select {ev : NewEvent} {receivedAt : Time} (hh : s.handlers t = .inserted ev receivedAt) :
      HandlerStep cfg now subscribers s attempts t .selectSubscribers
        (s.setHandler t (.selected ev receivedAt subscribers now)) attempts
  | commit {ids : List Uuid} {ev : NewEvent} {receivedAt readAt : Time} {seen : List Subscriber}
      {s' : Intake} {attempts' : List DeliveryAttempt}
      (hh : s.handlers t = .selected ev receivedAt seen readAt)
      (hc : commitEvent s attempts now t ev receivedAt seen readAt ids = some (s', attempts')) :
      HandlerStep cfg now subscribers s attempts t (.commit ids) s' attempts'
  | commitLost {ids : List Uuid} {ev : NewEvent} {receivedAt readAt : Time}
      {seen : List Subscriber} {s' : Intake} {attempts' : List DeliveryAttempt}
      (hh : s.handlers t = .selected ev receivedAt seen readAt)
      (hc : commitEvent s attempts now t ev receivedAt seen readAt ids = some (s', attempts')) :
      HandlerStep cfg now subscribers s attempts t (.commitLost ids) (raiseFrom s' t) attempts'
  | dbError (hne : s.handlers t ≠ .idle) (hna : s.handlers t ≠ .acking)
      (hnc : ∀ ev, s.handlers t ≠ .committed ev) (hnr : ∀ ev, s.handlers t ≠ .enriching ev) :
      HandlerStep cfg now subscribers s attempts t .dbError (raiseFrom s t) attempts
  | ackOnly (hh : s.handlers t = .acking) :
      HandlerStep cfg now subscribers s attempts t .ack
        ((s.setHandler t .idle).setCopy t .acked) attempts
  | ackEarly {ev : NewEvent} (hh : s.handlers t = .committed ev) :
      HandlerStep cfg now subscribers s attempts t .ack
        ((s.setHandler t (.enriching ev)).setCopy t .acked) attempts
  | enriched {ev : NewEvent} {enriched : List (PyStr × Json)}
      (hh : s.handlers t = .enriching ev) :
      HandlerStep cfg now subscribers s attempts t (.enrich (.result enriched))
        (s.setHandler t (.storing ev.messageId (.obj enriched) now)) attempts
  | fatal {ev : NewEvent} {error : PyStr} (hh : s.handlers t = .enriching ev) :
      HandlerStep cfg now subscribers s attempts t (.enrich (.fatal error))
        (s.setHandler t (.recording ev.messageId error)) attempts
  | notEnriched {ev : NewEvent} {o : EnrichOutcome} (hh : s.handlers t = .enriching ev) :
      HandlerStep cfg now subscribers s attempts t (.enrich o) (s.setHandler t .idle) attempts
  | loadStore {m : MessageId} {enriched : Json} {at' : Time} {ik : IdempotencyKey}
      (hh : s.handlers t = .storing m enriched at')
      (hl : lookup IdempotencyKey.messageId m s.keys = some ik) :
      HandlerStep cfg now subscribers s attempts t .load
        (s.setHandler t (.storeLoaded m enriched at' ik)) attempts
  | loadRecord {m : MessageId} {error : PyStr} {ik : IdempotencyKey}
      (hh : s.handlers t = .recording m error)
      (hl : lookup IdempotencyKey.messageId m s.keys = some ik) :
      HandlerStep cfg now subscribers s attempts t .load
        (s.setHandler t (.recordLoaded m error ik)) attempts
  | loadNone (hh : s.handlers t ≠ .idle ∧ (s.handlers t).inserting = none) :
      HandlerStep cfg now subscribers s attempts t .load (s.setHandler t .idle) attempts
  | store {m : MessageId} {enriched : Json} {at' : Time} {ik : IdempotencyKey}
      (hh : s.handlers t = .storeLoaded m enriched at' ik) :
      HandlerStep cfg now subscribers s attempts t .write
        (({ s with keys := updateKey m (storeEnrichment ik enriched at') s.keys } :
          Intake).setHandler t .idle) attempts
  | record {m : MessageId} {error : PyStr} {ik : IdempotencyKey}
      (hh : s.handlers t = .recordLoaded m error ik) :
      HandlerStep cfg now subscribers s attempts t .write
        (({ s with keys := updateKey m (storeError ik error) s.keys } : Intake).setHandler t .idle)
        attempts
  | crash : HandlerStep cfg now subscribers s attempts t .crash (crashHandler s t) attempts

/-- The list of handler steps is complete. -/
theorem handlerStep_of_eq_some {cfg : Settings} {now : Time} {subscribers : List Subscriber}
    {s s' : Intake} {attempts attempts' : List DeliveryAttempt} {t : Tag} {a : HandlerAction}
    (h : handleMessage cfg now subscribers s attempts t a = some (s', attempts')) :
    HandlerStep cfg now subscribers s attempts t a s' attempts' := by
  cases a with
  | start u =>
    simp only [handleMessage] at h
    split at h
    · rename_i body hcopy hh
      split at h <;> cases h
      · exact .discard hcopy hh ‹_›
      · exact .raised hcopy hh ‹_›
      · exact .event hcopy hh ‹_›
    · cases h
  | insert =>
    simp only [handleMessage] at h
    split at h
    · rename_i ev hh
      split at h
      · cases h
        exact .insertRaised hh ‹_›
      · rename_i new hv
        split at h
        · cases h
          exact .duplicate hh hv ‹_›
        · split at h
          · cases h
          · cases h
            exact .insert hh hv ‹_› ‹_›
    · cases h
  | selectSubscribers =>
    simp only [handleMessage] at h
    split at h <;> cases h
    exact .select ‹_›
  | commit ids =>
    simp only [handleMessage] at h
    split at h
    · exact .commit ‹_› h
    · cases h
  | commitLost ids =>
    simp only [handleMessage] at h
    split at h
    · obtain ⟨⟨r, attempts''⟩, hc, hr⟩ := Option.map_eq_some_iff.1 h
      cases hr
      exact .commitLost ‹_› hc
    · cases h
  | dbError =>
    simp only [handleMessage] at h
    split at h <;> cases h
    exact .dbError (by assumption) (by assumption) (by assumption) (by assumption)
  | ack =>
    simp only [handleMessage] at h
    split at h <;> cases h
    · exact .ackOnly ‹_›
    · exact .ackEarly ‹_›
  | enrich o =>
    simp only [handleMessage] at h
    split at h
    · split at h <;> cases h
      · exact .enriched ‹_›
      · exact .fatal ‹_›
      · exact .notEnriched ‹_›
      · exact .notEnriched ‹_›
    · cases h
  | load =>
    simp only [handleMessage] at h
    split at h
    · rename_i hh
      split at h <;> cases h
      · exact .loadStore hh ‹_›
      · exact .loadNone (by rw [hh]; exact ⟨Handler.noConfusion, rfl⟩)
    · rename_i hh
      split at h <;> cases h
      · exact .loadRecord hh ‹_›
      · exact .loadNone (by rw [hh]; exact ⟨Handler.noConfusion, rfl⟩)
    · cases h
  | write =>
    simp only [handleMessage] at h
    split at h <;> cases h
    · exact .store ‹_›
    · exact .record ‹_›
  | crash =>
    simp only [handleMessage] at h
    split at h <;> cases h
    exact .crash

inductive ReconcilerStep (cfg : Settings) (now : Time) (s : Intake) (p : ConsumerId) :
    ReconcilerAction → Intake → Prop
  | select {t₀ : Time} {picks : List MessageId} (hc : s.reconcilers p = .idle) (ht : t₀ ≤ now)
      (hn : picks.Nodup)
      (hl : picks.length = min cfg.reconcilerBatchSize (s.keys.countP (isStale cfg t₀)))
      (hp : ∀ m ∈ picks,
        ((lookup IdempotencyKey.messageId m s.keys).map (isStale cfg t₀)) = some true) :
      ReconcilerStep cfg now s p (.select t₀ picks)
        (setCycle s p
          (.running (picks.filterMap fun m => lookup IdempotencyKey.messageId m s.keys) []))
  | abandon {ik : IdempotencyKey} {todo : List IdempotencyKey} {dirty : List KeyWrite}
      (hc : s.reconcilers p = .running (ik :: todo) dirty)
      (hcap : cfg.reconcilerMaxAttempts ≤ ik.reconcileCount) :
      ReconcilerStep cfg now s p .abandon
        (setCycle s p
          (.running todo (dirty ++ [.abandoned ik.messageId (abandonError ik.reconcileCount)])))
  | accepted {ik : IdempotencyKey} {todo : List IdempotencyKey} {dirty : List KeyWrite} {t : Tag}
      (hc : s.reconcilers p = .running (ik :: todo) dirty)
      (hcap : ik.reconcileCount < cfg.reconcilerMaxAttempts) (ht : s.copies t = none) :
      ReconcilerStep cfg now s p (.publish (.accepted t))
        (setCycle (enqueueCopy s ik t) p
          (.running todo (dirty ++ [.counted ik.messageId (ik.reconcileCount + 1)])))
  | timeout {ik : IdempotencyKey} {todo : List IdempotencyKey} {dirty : List KeyWrite}
      (hc : s.reconcilers p = .running (ik :: todo) dirty)
      (hcap : ik.reconcileCount < cfg.reconcilerMaxAttempts) :
      ReconcilerStep cfg now s p (.publish .timeout) (setCycle s p (.running todo dirty))
  | error {ik : IdempotencyKey} {todo : List IdempotencyKey} {dirty : List KeyWrite}
      (hc : s.reconcilers p = .running (ik :: todo) dirty)
      (hcap : ik.reconcileCount < cfg.reconcilerMaxAttempts) :
      ReconcilerStep cfg now s p (.publish (.error none)) (setCycle s p .idle)
  | errorAccepted {ik : IdempotencyKey} {todo : List IdempotencyKey} {dirty : List KeyWrite}
      {t : Tag} (hc : s.reconcilers p = .running (ik :: todo) dirty)
      (hcap : ik.reconcileCount < cfg.reconcilerMaxAttempts) (ht : s.copies t = none) :
      ReconcilerStep cfg now s p (.publish (.error (some t)))
        (setCycle (enqueueCopy s ik t) p .idle)
  | commit {dirty : List KeyWrite} (hc : s.reconcilers p = .running [] dirty) :
      ReconcilerStep cfg now s p .commit
        (setCycle { s with keys := flushWrites dirty s.keys } p .idle)
  | stop {todo : List IdempotencyKey} {dirty : List KeyWrite} {a : ReconcilerAction}
      (hc : s.reconcilers p = .running todo dirty) (ha : a = .fail ∨ a = .crash) :
      ReconcilerStep cfg now s p a (setCycle s p .idle)

/-- The list of reconciler steps is complete. -/
theorem reconcilerStep_of_eq_some {cfg : Settings} {now : Time} {s s' : Intake} {p : ConsumerId}
    {a : ReconcilerAction} (h : reconciler cfg now s p a = some s') :
    ReconcilerStep cfg now s p a s' := by
  cases a with
  | select t₀ picks =>
    simp only [reconciler] at h
    split at h
    · split at h
      · rename_i hc hg
        cases h
        exact .select hc hg.1 hg.2.1 hg.2.2.1 hg.2.2.2
      · cases h
    · cases h
  | abandon =>
    simp only [reconciler] at h
    split at h
    · split at h
      · cases h
        exact .abandon ‹_› ‹_›
      · cases h
    · cases h
  | publish o =>
    simp only [reconciler] at h
    split at h
    · rename_i hc
      split at h
      · rename_i hcap
        cases o with
        | accepted t =>
          simp only [Option.isNone_iff_eq_none] at h
          split at h
          · cases h
            exact .accepted hc hcap ‹_›
          · cases h
        | timeout =>
          cases h
          exact .timeout hc hcap
        | error o =>
          cases o with
          | none =>
            cases h
            exact .error hc hcap
          | some t =>
            simp only [Option.isNone_iff_eq_none] at h
            split at h
            · cases h
              exact .errorAccepted hc hcap ‹_›
            · cases h
      · cases h
    · cases h
  | commit =>
    simp only [reconciler] at h
    split at h
    · cases h
      exact .commit ‹_›
    · cases h
  | fail =>
    simp only [reconciler] at h
    split at h
    · cases h
      exact .stop ‹_› (Or.inl rfl)
    · cases h
  | crash =>
    simp only [reconciler] at h
    split at h
    · cases h
      exact .stop ‹_› (Or.inr rfl)
    · cases h

/-- A step of reconciler `p` leaves the other cycles alone. -/
theorem ReconcilerStep.frame {cfg : Settings} {now : Time} {s s' : Intake} {p : ConsumerId}
    {a : ReconcilerAction} (h : ReconcilerStep cfg now s p a s') {q : ConsumerId} (hq : q ≠ p) :
    s'.reconcilers q = s.reconcilers q := by
  cases h <;> exact Function.update_of_ne hq _ _

end EventPipeline.Interface
