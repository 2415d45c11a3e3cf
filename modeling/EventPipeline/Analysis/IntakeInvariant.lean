import EventPipeline.Computation.Family
import EventPipeline.Interface.SystemSteps

/-!
# The invariant of the intake side

What holds of the queue, the `handle_message` calls and the key rows in every reachable
state. The invariant has a local part, `CallOk`, about one call with its copy, and a global
part about uncommitted INSERTs and about the calls that own an event. A call owns the event
whose key row it has committed until the call ends; no two calls own the same event.
-/

set_option autoImplicit false

namespace EventPipeline.Analysis

open EventPipeline.Model EventPipeline.Program EventPipeline.Interface EventPipeline.Computation

/-! ## Bodies that name a message -/

/-- The body is within the size limit and is a JSON object with the non-empty string `m` as
`message_id`. SOURCE: app/consumer/rabbitmq.py:109-126 -/
structure Names (cfg : Settings) (body : Body) (m : MessageId) : Prop where
  size : body.size ≤ cfg.consumerMaxMessageBytes
  value : ∃ data, body.loads = .value (.obj data) ∧
    Json.get data (py "message_id") = some (.str m)
  nonempty : m ≠ []

/-- The start of the call on such a body takes `m` as the message id.
SOURCE: app/consumer/rabbitmq.py:125-128 -/
theorem parseMessage_of_names {cfg : Settings} {body : Body} {m : MessageId}
    (h : Names cfg body m) (u : Uuid) :
    ∃ ev, parseMessage cfg body u = .event ev ∧ ev.messageId = .str m := by
  obtain ⟨data, hloads, hget⟩ := h.value
  have hsize : ¬ cfg.consumerMaxMessageBytes < body.size := Nat.not_lt.2 h.size
  have htruthy : (Json.str m).truthy = true := by simp [Json.truthy, h.nonempty]
  refine ⟨_, by rw [parseMessage, if_neg hsize, hloads], ?_⟩
  simp only [hget, Option.getD_some, htruthy, if_true]

/-- The database takes the message id as it is. SOURCE: app/consumer/rabbitmq.py:61-66 -/
theorem messageId_of_insertValues {ev : RawEvent} {new : NewEvent}
    (h : insertValues ev = some new) : ev.messageId = .str new.messageId := by
  unfold insertValues at h
  split at h
  · rename_i hm _
    split at h
    · cases h
      exact hm
    · cases h
  · cases h

/-! ## The local part -/

/-- The call has not settled its copy: it ends by an ACK, or by an exception that makes
`process()` reject. -/
def Unsettled : Handler → Prop
  | .acking | .parsed _ | .inserted _ _ | .selected _ _ _ _ | .committed _ => True
  | _ => False

/-- A call on a body that names `m` works on `m`; when only the ACK is left, `m` is
recorded. -/
def WorksOn (ids : List MessageId) (m : MessageId) : Handler → Prop
  | .acking => m ∈ ids
  | .parsed ev => ev.messageId = .str m
  | .inserted ev _ | .selected ev _ _ _ | .committed ev => ev.messageId = m
  | _ => True

/-- What holds of one copy and the call that handles it, when `ids` are the recorded
messages. -/
structure CallOk (cfg : Settings) (ids : List MessageId) (c : Option Copy) (h : Handler) :
    Prop where
  idle_of_none : c = none → h = .idle
  unacked : Unsettled h → ∀ x, c = some x → x.state = .unacked
  owned : ∀ m, h.owns = some m → m ∈ ids
  works : ∀ x m, c = some x → Names cfg x.body m → WorksOn ids m h
  acked : ∀ x m, c = some x → Names cfg x.body m → x.state = .acked → m ∈ ids

/-- More key rows do not harm a call. -/
theorem CallOk.mono {cfg : Settings} {ids ids' : List MessageId} {c : Option Copy} {h : Handler}
    (hok : CallOk cfg ids c h) (hsub : ids ⊆ ids') : CallOk cfg ids' c h := by
  refine ⟨hok.idle_of_none, hok.unacked, fun m hm => hsub (hok.owned m hm), ?_,
    fun x m hx hn hst => hsub (hok.acked x m hx hn hst)⟩
  intro x m hx hn
  have hw := hok.works x m hx hn
  cases h with
  | acking => exact hsub hw
  | _ => exact hw

/-- An idle call is consistent when its copy is acknowledged only for a recorded message. -/
theorem CallOk.idle {cfg : Settings} {ids : List MessageId} {c : Option Copy}
    (hack : ∀ x m, c = some x → Names cfg x.body m → x.state = .acked → m ∈ ids) :
    CallOk cfg ids c .idle :=
  ⟨fun _ => rfl, fun h => h.elim, fun _ h => (nomatch h), fun _ _ _ _ => trivial, hack⟩

/-- A call that stops leaves its copy consistent, unless it acknowledges it. -/
theorem CallOk.stop {cfg : Settings} {ids : List MessageId} {c : Option Copy} {h : Handler}
    (hok : CallOk cfg ids c h) {f : CopyState → CopyState}
    (hf : ∀ st, f st = .acked → st = .acked) :
    CallOk cfg ids (c.map fun x => { x with state := f x.state }) .idle := by
  refine CallOk.idle fun x m hx hn hst => ?_
  obtain ⟨y, hy, rfl⟩ := Option.map_eq_some_iff.1 hx
  exact hok.acked y m hy hn (hf _ hst)

/-- A call that goes on with its copy as it is. The obligations are about the new phase. -/
theorem CallOk.next {cfg : Settings} {ids : List MessageId} {c : Option Copy} {h h' : Handler}
    (hok : CallOk cfg ids c h) (hne : h ≠ .idle) (huns : Unsettled h' → Unsettled h)
    (howns : ∀ m, h'.owns = some m → m ∈ ids)
    (hworks : ∀ x m, c = some x → Names cfg x.body m → WorksOn ids m h → WorksOn ids m h') :
    CallOk cfg ids c h' :=
  ⟨fun hc => absurd (hok.idle_of_none hc) hne, fun hu => hok.unacked (huns hu), howns,
    fun x m hx hn => hworks x m hx hn (hok.works x m hx hn), hok.acked⟩

/-! ## The whole invariant -/

def Inserts (h : Handler) (m : MessageId) : Prop := h.inserting = some m

def Owns (h : Handler) (m : MessageId) : Prop := h.owns = some m

/-- SOURCE: app/consumer/rabbitmq.py:40-197 -/
structure IntakeInv (cfg : Settings) (s : Intake) : Prop where
  call : ∀ t, CallOk cfg s.ids (s.copies t) (s.handlers t)
  ids_nodup : s.ids.Nodup
  /-- the open INSERTs are those of the calls in that phase -/
  open_iff : ∀ t m, (t, m) ∈ s.openInserts ↔ (s.handlers t).inserting = some m
  open_unique : Exclusive Inserts s.handlers
  open_new : ∀ t m, (s.handlers t).inserting = some m → m ∉ s.ids
  owner_unique : Exclusive Owns s.handlers
  ledger_ids : s.ledger.map Acceptance.messageId = s.ids

/-- The empty intake is consistent. -/
theorem intakeInv_init (cfg : Settings) : IntakeInv cfg Intake.init where
  call _ := CallOk.idle fun _ _ h => by cases h
  ids_nodup := List.nodup_nil
  open_iff t m := by simp [Intake.init, Handler.inserting]
  open_unique t t' m h := by cases h
  open_new t m h := by cases h
  owner_unique t t' m h := by cases h
  ledger_ids := rfl

/-! ## Rules for one step

A step of call `t` leaves the other calls and their copies alone. The rules differ in what
happens to the open INSERT and to the recorded ids. -/

section
variable {cfg : Settings} {s s' : Intake} {t : Tag}

/-- Only the part of the state that the invariant does not mention changes. -/
theorem IntakeInv.congr (hinv : IntakeInv cfg s) (hc : s'.copies = s.copies)
    (hh : s'.handlers = s.handlers) (ho : s'.openInserts = s.openInserts) (hi : s'.ids = s.ids)
    (hl : s'.ledger = s.ledger) : IntakeInv cfg s' := by
  obtain ⟨h₁, h₂, h₃, h₄, h₅, h₆, h₇⟩ := hinv
  constructor
  · rw [hc, hh, hi]
    exact h₁
  · rw [hi]
    exact h₂
  · rw [ho, hh]
    exact h₃
  · rw [hh]
    exact h₄
  · rw [hh, hi]
    exact h₅
  · rw [hh]
    exact h₆
  · rw [hl, hi]
    exact h₇

/-- Call `t` goes to phase `h` with its copy set to `c`; its INSERT stays as it is, and it
owns no event that it did not own before. -/
theorem IntakeInv.advance (hinv : IntakeInv cfg s) {c : Option Copy} {h : Handler}
    (hc : s'.copies = Function.update s.copies t c)
    (hh : s'.handlers = Function.update s.handlers t h)
    (ho : s'.openInserts = s.openInserts) (hi : s'.ids = s.ids) (hl : s'.ledger = s.ledger)
    (hcall : CallOk cfg s.ids c h) (hins : h.inserting = (s.handlers t).inserting)
    (hown : ∀ m, h.owns = some m → (s.handlers t).owns = some m) : IntakeInv cfg s' := by
  have hins' : ∀ t', (s'.handlers t').inserting = (s.handlers t').inserting := by
    rw [hh]
    exact (Function.forall_update_iff _ fun t' (x : Handler) =>
      x.inserting = (s.handlers t').inserting).2 ⟨hins, fun _ _ => rfl⟩
  refine ⟨?_, hi ▸ hinv.ids_nodup, ?_, ?_, ?_, ?_, by rw [hl, hi, hinv.ledger_ids]⟩
  · intro t'
    rw [hi, hc, hh]
    by_cases ht : t' = t
    · subst ht
      rwa [Function.update_self, Function.update_self]
    · rw [Function.update_of_ne ht, Function.update_of_ne ht]
      exact hinv.call t'
  · intro t' m
    rw [ho, hins', hinv.open_iff]
  · rw [hh]
    exact hinv.open_unique.update fun m hm => Or.inl (hins.symm.trans hm)
  · intro t' m h'
    rw [hins'] at h'
    rw [hi]
    exact hinv.open_new t' m h'
  · rw [hh]
    exact hinv.owner_unique.update fun m hm => Or.inl (hown m hm)

/-- Once the INSERT of call `t` is closed, only other calls insert. -/
theorem inserts_of_closed {h : Handler} (hh : h.inserting = none) {t' : Tag} {m : MessageId}
    (hm : Inserts (Function.update s.handlers t h t') m) :
    t' ≠ t ∧ Inserts (s.handlers t') m := by
  obtain ⟨_, hnew⟩ | hold := owns_update hm
  · rw [Inserts, hh] at hnew
    cases hnew
  · exact hold

/-- A call that inserts nothing more has no open INSERT. -/
theorem IntakeInv.open_iff_of_closed (hinv : IntakeInv cfg s) {h : Handler}
    (hh : h.inserting = none) (t' : Tag) (m : MessageId) :
    (t', m) ∈ (s.closeInsert t).openInserts ↔ Inserts (Function.update s.handlers t h t') m := by
  simp only [Intake.closeInsert_openInserts, List.mem_filter, decide_eq_true_eq, hinv.open_iff]
  constructor
  · rintro ⟨hm, ht⟩
    rwa [Function.update_of_ne ht]
  · intro hm
    exact (inserts_of_closed hh hm).symm

/-- Call `t` ends with an exception or with its process; its transaction is rolled back. -/
theorem IntakeInv.stop (hinv : IntakeInv cfg s) {f : CopyState → CopyState}
    (hf : ∀ st, f st = .acked → st = .acked) :
    IntakeInv cfg (((s.closeInsert t).setHandler t .idle).modifyCopy t f) := by
  refine ⟨?_, hinv.ids_nodup, ?_, ?_, ?_, ?_, hinv.ledger_ids⟩
  · intro t'
    simp only [Intake.modifyCopy_copies, Intake.modifyCopy_handlers, Intake.modifyCopy_ids,
      Intake.setHandler_copies, Intake.setHandler_handlers, Intake.setHandler_ids,
      Intake.closeInsert_copies, Intake.closeInsert_handlers, Intake.closeInsert_ids]
    by_cases ht : t' = t
    · subst ht
      rw [Function.update_self, Function.update_self]
      exact (hinv.call t').stop hf
    · rw [Function.update_of_ne ht, Function.update_of_ne ht]
      exact hinv.call t'
  · exact hinv.open_iff_of_closed rfl
  · exact hinv.open_unique.update fun _ h => by cases h
  · exact fun t' m h' => hinv.open_new t' m (inserts_of_closed rfl h').2
  · exact hinv.owner_unique.update fun _ h => by cases h

/-- The INSERT of call `t` finds neither a row nor another INSERT of the same key. -/
theorem IntakeInv.insert (hinv : IntakeInv cfg s) {ev : RawEvent} {new : NewEvent} {now : Time}
    (hh : s.handlers t = .parsed ev) (hv : insertValues ev = some new)
    (hm : new.messageId ∉ s.ids) (ho : new.messageId ∉ s.openInserts.map Prod.snd) :
    IntakeInv cfg
      (({ s with openInserts := s.openInserts ++ [(t, new.messageId)] } : Intake).setHandler t
        (.inserted new now)) := by
  have hopen : ∀ t', (s.handlers t').inserting ≠ some new.messageId := by
    intro t' h'
    exact ho (List.mem_map_of_mem ((hinv.open_iff t' _).2 h'))
  have hself : (s.handlers t).inserting = none := by rw [hh]; rfl
  have hne : s.handlers t ≠ .idle := by rw [hh]; intro h; cases h
  refine ⟨?_, hinv.ids_nodup, ?_, ?_, ?_, ?_, hinv.ledger_ids⟩
  · intro t'
    simp only [Intake.setHandler_copies, Intake.setHandler_handlers, Intake.setHandler_ids]
    by_cases ht : t' = t
    · subst ht
      rw [Function.update_self]
      refine (hinv.call t').next hne (fun _ => by rw [hh]; trivial) (fun m h => by cases h) ?_
      intro x m hx hn hw
      rw [hh] at hw
      have hval : Json.str new.messageId = .str m := (messageId_of_insertValues hv).symm.trans hw
      exact Json.str.inj hval
    · rw [Function.update_of_ne ht]
      exact hinv.call t'
  · intro t' m
    simp only [Intake.setHandler_openInserts, Intake.setHandler_handlers, List.mem_append,
      List.mem_singleton, Prod.mk.injEq, hinv.open_iff]
    by_cases ht : t' = t
    · subst ht
      rw [Function.update_self, hself]
      simp [Handler.inserting, eq_comm]
    · rw [Function.update_of_ne ht]
      simp [ht]
  · refine hinv.open_unique.update fun m hm => Or.inr fun u hu => hopen u ?_
    exact hu.trans hm.symm
  · intro t' m h'
    obtain ⟨_, hm'⟩ | ⟨_, hm'⟩ : (t' = t ∧ Inserts (.inserted new now) m) ∨ _ := owns_update h'
    · rw [← Option.some.inj hm']
      exact hm
    · exact hinv.open_new t' m hm'
  · exact hinv.owner_unique.update fun _ h => by cases h

/-- The transaction of call `t` commits: its message becomes recorded, and `t` owns it. -/
theorem IntakeInv.commit (hinv : IntakeInv cfg s) {ev : NewEvent} {receivedAt readAt : Time}
    {seen : List Subscriber} (hh : s.handlers t = .selected ev receivedAt seen readAt) :
    IntakeInv cfg
      (({ s.closeInsert t with
        keys := s.keys ++ [newKey ev receivedAt]
        ledger := s.ledger ++ [⟨ev.messageId, seen⟩] } : Intake).setHandler t (.committed ev)) := by
  have hself : (s.handlers t).inserting = some ev.messageId := by rw [hh]; rfl
  have hnew : ev.messageId ∉ s.ids := hinv.open_new t _ hself
  have hne : s.handlers t ≠ .idle := by rw [hh]; intro h; cases h
  have hids : (s.keys ++ [newKey ev receivedAt]).map IdempotencyKey.messageId =
      s.ids ++ [ev.messageId] := by
    simp [Intake.ids, newKey]
  have hsub : s.ids ⊆ s.ids ++ [ev.messageId] := List.subset_append_left _ _
  constructor
  · intro t'
    simp only [Intake.setHandler_copies, Intake.setHandler_handlers, Intake.ids,
      Intake.setHandler_keys, Intake.closeInsert_copies, Intake.closeInsert_handlers, hids]
    by_cases ht : t' = t
    · subst ht
      rw [Function.update_self]
      refine ((hinv.call t').mono hsub).next hne (fun _ => by rw [hh]; trivial) ?_ ?_
      · intro m hm
        rw [← Option.some.inj hm]
        exact List.mem_append_right _ (List.mem_singleton.2 rfl)
      · intro x m _ _ hw
        rw [hh] at hw
        exact hw
    · rw [Function.update_of_ne ht]
      exact (hinv.call t').mono hsub
  · show ((s.keys ++ [newKey ev receivedAt]).map IdempotencyKey.messageId).Nodup
    rw [hids]
    exact List.Nodup.append hinv.ids_nodup (List.nodup_singleton _)
      (List.disjoint_singleton.2 hnew)
  · exact hinv.open_iff_of_closed rfl
  · exact hinv.open_unique.update fun _ h => by cases h
  · intro t' m h'
    obtain ⟨ht, hm⟩ := inserts_of_closed rfl h'
    show m ∉ (s.keys ++ [newKey ev receivedAt]).map IdempotencyKey.messageId
    rw [hids, List.mem_append, List.mem_singleton, not_or]
    refine ⟨hinv.open_new t' m hm, fun heq => ht ?_⟩
    exact hinv.open_unique t' t m hm (heq ▸ hself)
  · -- An owner owns a recorded message, and the message of `t` is new.
    refine hinv.owner_unique.update fun m hm => Or.inr fun u hu => hnew ?_
    exact Option.some.inj hm ▸ (hinv.call u).owned m hu
  · show (s.ledger ++ [(⟨ev.messageId, seen⟩ : Acceptance)]).map Acceptance.messageId =
      (s.keys ++ [newKey ev receivedAt]).map IdempotencyKey.messageId
    rw [hids, List.map_append, hinv.ledger_ids]
    rfl

/-- A new copy enters the queue under a fresh tag. -/
theorem IntakeInv.enqueue (hinv : IntakeInv cfg s) {body : Body} (hn : s.copies t = none)
    (hc : s'.copies = Function.update s.copies t (some ⟨body, .ready⟩))
    (hh : s'.handlers = s.handlers) (ho : s'.openInserts = s.openInserts) (hi : s'.ids = s.ids)
    (hl : s'.ledger = s.ledger) : IntakeInv cfg s' := by
  have hidle : s.handlers t = .idle := (hinv.call t).idle_of_none hn
  refine hinv.advance (t := t) (h := .idle) hc ?_ ho hi hl ?_ ?_ ?_
  · rw [hh, ← hidle, Function.update_eq_self]
  · refine CallOk.idle fun x m hx _ hst => ?_
    cases hx
    cases hst
  · rw [hidle]
  · intro m h
    cases h

end

/-! ## Every step keeps the invariant -/

section
variable {cfg : Settings}

/-- The reconciler keeps the ids of the rows. SOURCE: app/consumer/rabbitmq.py:220-261 -/
theorem ids_flushWrites (dirty : List KeyWrite) (keys : List IdempotencyKey) :
    (flushWrites dirty keys).map IdempotencyKey.messageId =
      keys.map IdempotencyKey.messageId := by
  unfold flushWrites
  induction dirty generalizing keys with
  | nil => rfl
  | cons w dirty ih =>
    rw [List.foldl_cons, ih]
    cases w with
    | abandoned m e => exact map_updateWhere _ fun _ _ => rfl
    | counted m n => exact map_updateWhere _ fun _ _ => rfl

/-- `process()` never acknowledges a copy on an exception. SOURCE: app/consumer/rabbitmq.py:107 -/
theorem processOnException_acked {st : CopyState}
    (h : processOnException processRequeue st = .acked) : st = .acked := by
  cases st <;> first | rfl | cases h

/-- An exception keeps the intake consistent. SOURCE: app/consumer/rabbitmq.py:106-108 -/
theorem IntakeInv.raiseFrom {s : Intake} (hinv : IntakeInv cfg s) (t : Tag) :
    IntakeInv cfg (Program.raiseFrom s t) :=
  hinv.stop fun _ => processOnException_acked

/-- So does the start of a call, if it works on the message that its copy names.
SOURCE: app/consumer/rabbitmq.py:106-128 -/
theorem IntakeInv.start {s : Intake} {t : Tag} (hinv : IntakeInv cfg s) {body : Body}
    (hcopy : s.copies t = some ⟨body, .ready⟩) (hh : s.handlers t = .idle) {h : Handler}
    (hins : h.inserting = none) (hown : h.owns = none)
    (hworks : ∀ m, Names cfg body m → WorksOn s.ids m h) :
    IntakeInv cfg ((s.setHandler t h).setCopy t .unacked) := by
  refine hinv.advance (t := t) (c := some ⟨body, .unacked⟩) (h := h) ?_ rfl rfl rfl rfl ?_ ?_ ?_
  · simp only [Intake.setCopy_eq, Intake.modifyCopy_copies, Intake.setHandler_copies, hcopy,
      Option.map_some]
  · refine ⟨nofun, fun _ x hx => ?_, fun m hm => ?_, fun x m hx hn => ?_, fun x m hx _ hst => ?_⟩
    · cases hx
      rfl
    · rw [hown] at hm
      cases hm
    · cases hx
      exact hworks m hn
    · cases hx
      cases hst
  · rw [hins, hh]
    rfl
  · intro m hm
    rw [hown] at hm
    cases hm

/-- After the ACK nothing is left to check of a call but what it owns. -/
theorem IntakeInv.goOn {s s' : Intake} {t : Tag} (hinv : IntakeInv cfg s) {h : Handler}
    (hne : s.handlers t ≠ .idle) (hc : s'.copies = s.copies)
    (hh : s'.handlers = Function.update s.handlers t h) (ho : s'.openInserts = s.openInserts)
    (hi : s'.ids = s.ids) (hl : s'.ledger = s.ledger) (huns : ¬ Unsettled h)
    (hins : h.inserting = (s.handlers t).inserting)
    (hown : ∀ m, h.owns = some m → (s.handlers t).owns = some m) : IntakeInv cfg s' := by
  refine hinv.advance (t := t) (c := s.copies t) (h := h) ?_ hh ho hi hl ?_ hins hown
  · rw [hc, Function.update_eq_self]
  · refine (hinv.call t).next hne (fun hu => absurd hu huns)
      (fun m hm => (hinv.call t).owned m (hown m hm)) fun x m _ _ _ => ?_
    cases h <;> first | trivial | exact absurd trivial huns

/-- A step of a `handle_message` call. SOURCE: app/consumer/rabbitmq.py:106-197 -/
theorem IntakeInv.handler {now : Time} {subscribers : List Subscriber} {s s' : Intake}
    {attempts attempts' : List DeliveryAttempt} {t : Tag} {a : HandlerAction}
    (hinv : IntakeInv cfg s)
    (hstep : HandlerStep cfg now subscribers s attempts t a s' attempts') : IntakeInv cfg s' := by
  have hcall := hinv.call t
  cases hstep with
  | discard hcopy hh hp =>
    refine hinv.start hcopy hh rfl rfl fun m hn => ?_
    obtain ⟨ev, hev, _⟩ := parseMessage_of_names hn _
    rw [hp] at hev
    cases hev
  | raised hcopy hh hp =>
    have hstart : IntakeInv cfg ((s.setHandler t .idle).setCopy t .unacked) :=
      hinv.start hcopy hh rfl rfl fun _ _ => trivial
    have heq : s.setHandler t .idle = s := by
      rw [Intake.setHandler, ← hh, Function.update_eq_self]
    rw [heq] at hstart
    exact hstart.raiseFrom t
  | event hcopy hh hp =>
    refine hinv.start hcopy hh rfl rfl fun m hn => ?_
    obtain ⟨ev, hev, hm⟩ := parseMessage_of_names hn _
    rw [hp] at hev
    cases hev
    exact hm
  | insertRaised hh hv => exact hinv.raiseFrom t
  | duplicate hh hv hm =>
    refine hinv.advance (t := t) (c := s.copies t) (h := .acking)
      (Function.update_eq_self _ _).symm rfl rfl rfl rfl ?_ (by rw [hh]; rfl) nofun
    refine hcall.next (by rw [hh]; nofun) (fun _ => by rw [hh]; trivial) nofun fun x m _ _ hw => ?_
    rw [hh] at hw
    have hval : Json.str _ = Json.str m := (messageId_of_insertValues hv).symm.trans hw
    show m ∈ s.ids
    rw [← Json.str.inj hval]
    exact hm
  | insert hh hv hm ho => exact hinv.insert hh hv hm ho
  | select hh =>
    refine hinv.advance (t := t) (c := s.copies t) (Function.update_eq_self _ _).symm rfl rfl rfl
      rfl ?_ (by rw [hh]; rfl) nofun
    refine hcall.next (by rw [hh]; nofun) (fun _ => by rw [hh]; trivial) nofun fun x m _ _ hw => ?_
    rw [hh] at hw
    exact hw
  | commit hh hc =>
    obtain ⟨_, _, rfl⟩ := commitEvent_eq_some hc
    exact hinv.commit hh
  | commitLost hh hc =>
    obtain ⟨_, _, rfl⟩ := commitEvent_eq_some hc
    exact (hinv.commit hh).raiseFrom t
  | dbError => exact hinv.raiseFrom t
  | ackOnly hh =>
    refine hinv.advance (t := t) (c := (s.copies t).map fun c => { c with state := .acked })
      (h := .idle) rfl rfl rfl rfl rfl ?_ (by rw [hh]; rfl) nofun
    refine CallOk.idle fun x m hx hn _ => ?_
    obtain ⟨y, hy, rfl⟩ := Option.map_eq_some_iff.1 hx
    have hw := hcall.works y m hy hn
    rwa [hh] at hw
  | ackEarly hh =>
    have hmem := hcall.owned _ (by rw [hh]; rfl)
    refine hinv.advance (t := t) (c := (s.copies t).map fun c => { c with state := .acked })
      rfl rfl rfl rfl rfl ?_ (by rw [hh]; rfl) fun m hm => by rw [hh]; exact hm
    have hne : s.copies t ≠ none := fun hc => by
      rw [hcall.idle_of_none hc] at hh
      cases hh
    refine ⟨fun hc => absurd (Option.map_eq_none_iff.1 hc) hne, fun h => h.elim, fun m hm => ?_,
      fun _ _ _ _ => trivial, fun x m hx hn _ => ?_⟩
    · rw [← Option.some.inj hm]
      exact hmem
    · obtain ⟨y, hy, rfl⟩ := Option.map_eq_some_iff.1 hx
      have hw := hcall.works y m hy hn
      rw [hh] at hw
      rw [← show _ = m from hw]
      exact hmem
  | enriched hh =>
    exact hinv.goOn (by rw [hh]; nofun) rfl rfl rfl rfl rfl id (by rw [hh]; rfl)
      fun m hm => by rw [hh]; exact hm
  | fatal hh =>
    exact hinv.goOn (by rw [hh]; nofun) rfl rfl rfl rfl rfl id (by rw [hh]; rfl)
      fun m hm => by rw [hh]; exact hm
  | notEnriched hh =>
    exact hinv.goOn (by rw [hh]; nofun) rfl rfl rfl rfl rfl id (by rw [hh]; rfl) nofun
  | loadStore hh hl =>
    exact hinv.goOn (by rw [hh]; nofun) rfl rfl rfl rfl rfl id (by rw [hh]; rfl)
      fun m hm => by rw [hh]; exact hm
  | loadRecord hh hl =>
    exact hinv.goOn (by rw [hh]; nofun) rfl rfl rfl rfl rfl id (by rw [hh]; rfl)
      fun m hm => by rw [hh]; exact hm
  | store hh =>
    exact hinv.goOn (by rw [hh]; nofun) rfl rfl rfl (map_updateWhere _ fun _ _ => rfl) rfl id
      (by rw [hh]; rfl) nofun
  | record hh =>
    exact hinv.goOn (by rw [hh]; nofun) rfl rfl rfl (map_updateWhere _ fun _ _ => rfl) rfl id
      (by rw [hh]; rfl) nofun
  | crash => exact hinv.stop fun st h => by cases st <;> first | rfl | cases h
  | loadNone hh =>
    exact hinv.goOn hh.1 rfl rfl rfl rfl rfl id hh.2.symm nofun

/-- A step of a reconciler. SOURCE: app/consumer/rabbitmq.py:200-265 -/
theorem IntakeInv.reconciler {now : Time} {s s' : Intake} {p : ConsumerId} {a : ReconcilerAction}
    (hinv : IntakeInv cfg s) (hstep : ReconcilerStep cfg now s p a s') : IntakeInv cfg s' := by
  cases hstep with
  | accepted _ _ ht => exact hinv.enqueue ht rfl rfl rfl rfl rfl
  | errorAccepted _ _ ht => exact hinv.enqueue ht rfl rfl rfl rfl rfl
  | commit _ => exact hinv.congr rfl rfl rfl (ids_flushWrites _ _) rfl
  | _ => exact hinv.congr rfl rfl rfl rfl rfl

/-- The intake is consistent in every reachable state. -/
theorem intakeInv_of_reachable {s : World} (h : Reachable (step cfg) World.init s) :
    IntakeInv cfg s.intake := by
  refine h.induct (I := fun s => IntakeInv cfg s.intake) (intakeInv_init cfg) ?_
  intro s a s' _ hinv hs
  cases worldStep_of_eq_some hs with
  | publish hc => exact hinv.enqueue hc rfl rfl rfl rfl rfl
  | handler hstep => exact hinv.handler hstep
  | reconciler hstep => exact hinv.reconciler hstep
  | _ => exact hinv

/-- No message has two key rows. SOURCE: app/db/models.py:45-48 -/
theorem ids_nodup_of_reachable {s : World} (h : Reachable (step cfg) World.init s) :
    s.intake.ids.Nodup := (intakeInv_of_reachable h).ids_nodup

end

end EventPipeline.Analysis
