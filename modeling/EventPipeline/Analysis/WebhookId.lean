import EventPipeline.Program.Signing
import EventPipeline.Analysis.ExactlyOnceAcceptance
import EventPipeline.Analysis.ClaimLocks
import EventPipeline.Interface.AttemptRows

/-!
# The webhook id is an idempotency key

Every request carries the id of its attempt row. A row never changes its id or its pair of
message and subscriber, two rows never share either of them, and a request is always made for
a row of the table. So the id in the header and in the body stands for the pair.
-/

set_option autoImplicit false

namespace EventPipeline.Analysis

open EventPipeline.Model EventPipeline.Program EventPipeline.Interface EventPipeline.Computation

/-! ## The request of a POST -/

/-- What `deliver` sends for a POST at time `nowMs`. SOURCE: app/delivery/sender.py:41-67 -/
def webhookRequest (hmacSha256 : Bytes → Bytes → Bytes) (p : Post) (nowMs : ℤ) :
    Option WebhookRequest :=
  deliverRequest hmacSha256 p.deliveryId p.secret p.eventType p.payload nowMs

/-- SOURCE: app/delivery/sender.py:49-53 -/
def bodyData (p : Post) : List (PyStr × Json) :=
  [(py "delivery_id", .str p.deliveryId.str), (py "event_type", .str p.eventType),
    (py "payload", p.payload)]

section
variable {hmacSha256 : Bytes → Bytes → Bytes} {p : Post} {nowMs : ℤ} {req : WebhookRequest}

/-- The body is the text of the object. SOURCE: app/delivery/sender.py:49-54 -/
theorem body_webhookRequest (h : webhookRequest hmacSha256 p nowMs = some req) :
    req.body = (Json.obj (bodyData p)).dumps .compact := by
  obtain ⟨_, _, rfl⟩ := Option.map_eq_some_iff.1 h
  rfl

/-- The header has the id of the delivery. SOURCE: app/delivery/sender.py:58-63 -/
theorem webhookId_webhookRequest (h : webhookRequest hmacSha256 p nowMs = some req) :
    req.header (ascii "X-Webhook-ID") =
      some (p.deliveryId.str.map fun c => UInt8.ofNat c.val) := by
  obtain ⟨_, _, rfl⟩ := Option.map_eq_some_iff.1 h
  rfl

/-- ASCII text is read back from its bytes. -/
theorem map_ofNat_inj {s t : PyStr} (hs : ∀ c ∈ s, c.val < 128) (ht : ∀ c ∈ t, c.val < 128)
    (h : s.map (fun c => UInt8.ofNat c.val) = t.map fun c => UInt8.ofNat c.val) : s = t := by
  have hread : ∀ s : PyStr, (∀ c ∈ s, c.val < 128) →
      (s.map fun c => UInt8.ofNat c.val).map (fun b => chr b.toNat) = s := by
    intro s hs
    rw [List.map_map]
    refine (List.map_congr_left fun c hc => ?_).trans (List.map_id s)
    have hc := hs c hc
    apply Fin.ext
    show (UInt8.ofNat c.val).toNat % 0x110000 = c.val
    rw [UInt8.toNat_ofNat']
    omega
  rw [← hread s hs, ← hread t ht, h]

end

/-! ## The identifiers -/

/-- The identifiers that a step generates for attempt rows. SOURCE: app/db/models.py:67 -/
def generated : Action → List Uuid
  | .handler _ (.commit ids) | .handler _ (.commitLost ids) => ids
  | _ => []

/-- Generated identifiers are UUIDs, that is, values of 128 bits. -/
def GeneratesUuids (_ : World) (a : Action) : Prop := ∀ id ∈ generated a, id.val < 2 ^ 128

instance (s : World) (a : Action) : Decidable (GeneratesUuids s a) :=
  inferInstanceAs (Decidable (∀ id ∈ generated a, id.val < 2 ^ 128))

/-- A claimed row and a row that was posted are rows of the table. -/
structure PostInv (s : World) : Prop where
  posted : ∀ p ∈ s.delivery.posts,
    HasRow s.delivery.attempts p.deliveryId (p.messageId, p.subscriberId)
  claimed : ∀ w, ∀ x ∈ (s.delivery.workers w).phase.batch,
    HasRow s.delivery.attempts x.attempt.id x.attempt.pair
  uuids : ∀ row ∈ s.delivery.attempts, row.id.val < 2 ^ 128

section
variable {cfg : Settings} {s s' : World} {a : Action}

/-- A POST is an old one, or it is for a row of the worker's batch.
SOURCE: app/delivery/worker.py:101-123 -/
theorem mem_posts_of_step (hs : step cfg s a = some s') {p : Post}
    (hp : p ∈ s'.delivery.posts) : p ∈ s.delivery.posts ∨
      ∃ w x sub, x ∈ (s.delivery.workers w).phase.batch ∧ p = postOf x sub := by
  cases worldStep_of_eq_some hs with
  | @worker w _ _ h =>
    cases h with
    | @post x sub todo hph _ =>
      obtain hp | hp := List.mem_append.1 hp
      · exact Or.inl hp
      · have hx : x ∈ (s.delivery.workers w).phase.batch := by
          rw [hph]
          exact List.mem_cons_self
        exact Or.inr ⟨w, x, sub, hx, List.mem_singleton.1 hp⟩
    | _ => exact Or.inl hp
  | retry h => cases h <;> exact Or.inl hp
  | _ => exact Or.inl hp

/-- A row has an old id, or one that the step has generated.
SOURCE: app/consumer/rabbitmq.py:83-91 -/
theorem id_of_step (hs : step cfg s a = some s') {row' : DeliveryAttempt}
    (hrow' : row' ∈ s'.delivery.attempts) :
    (∃ row ∈ s.delivery.attempts, row.id = row'.id) ∨ row'.id ∈ generated a := by
  have hold : row' ∈ s.delivery.attempts →
      (∃ row ∈ s.delivery.attempts, row.id = row'.id) ∨ row'.id ∈ generated a :=
    fun h => Or.inl ⟨row', h, rfl⟩
  have hupd : s'.delivery.attempts.map DeliveryAttempt.id =
      s.delivery.attempts.map DeliveryAttempt.id →
      (∃ row ∈ s.delivery.attempts, row.id = row'.id) ∨ row'.id ∈ generated a := by
    intro heq
    have hmem : row'.id ∈ s'.delivery.attempts.map DeliveryAttempt.id := List.mem_map_of_mem hrow'
    rw [heq] at hmem
    exact Or.inl (List.mem_map.1 hmem)
  have hins : ∀ {m : MessageId} {seen : List Subscriber} {ids : List Uuid} {readAt now : Time}
      {attempts : List DeliveryAttempt}, ids = generated a →
      insertAttempts s.delivery.attempts (createDeliveryAttempts m seen ids readAt now) =
        some attempts → row' ∈ attempts →
      (∃ row ∈ s.delivery.attempts, row.id = row'.id) ∨ row'.id ∈ generated a := by
    intro m seen ids readAt now attempts hids h hmem
    obtain ⟨rfl, _⟩ := insertAttempts_eq_some h
    obtain hmem | hmem := List.mem_append.1 hmem
    · exact hold hmem
    · obtain ⟨q, hq, rfl⟩ := List.mem_map.1 hmem
      exact Or.inr (hids ▸ (List.of_mem_zip hq).2)
  cases worldStep_of_eq_some hs with
  | handler h =>
    cases h with
    | commit _ hc => exact hins rfl (commitEvent_eq_some hc).2.1 hrow'
    | commitLost _ hc => exact hins rfl (commitEvent_eq_some hc).2.1 hrow'
    | _ => exact hold hrow'
  | worker h =>
    cases h with
    | claimCommit _ => exact hupd (map_updateWhere _ fun _ _ => rfl)
    | close _ _ _ => exact hupd (map_updateWhere _ fun _ _ => rfl)
    | writeBack _ _ hw =>
      obtain ⟨_, _, rfl⟩ := writeBack_eq_some hw
      exact hupd (map_updateWhere _ fun _ _ => rfl)
    | resetStale _ => exact hupd (map_updateWhere _ fun _ _ => rfl)
    | _ => exact hold hrow'
  | retry h =>
    cases h with
    | commit _ _ => exact hupd (map_updateWhere _ fun _ _ => rfl)
    | _ => exact hold hrow'
  | _ => exact hold hrow'

/-- One step keeps every POST and every claim that of a row. SOURCE: app/delivery/worker.py:63-123
-/
theorem postInv_step (hinv : PostInv s) (hC : GeneratesUuids s a) (hs : step cfg s a = some s') :
    PostInv s' := by
  refine ⟨fun p hp => ?_, fun w x hx => ?_, fun row' hrow' => ?_⟩
  · obtain hp | ⟨w, x, sub, hx, rfl⟩ := mem_posts_of_step hs hp
    · exact (hinv.posted p hp).step hs
    · exact (hinv.claimed w x hx).step hs
  · obtain hx | ⟨_, _, id, _, _, hsnap, _⟩ := batch_of_step hs hx
    · exact (hinv.claimed w x hx).step hs
    · have hrow : HasRow s.delivery.attempts x.attempt.id x.attempt.pair :=
        ⟨x.attempt, (of_snapshotOf hsnap).1, rfl, rfl⟩
      exact hrow.step hs
  · obtain ⟨row, hrow, hid⟩ | hnew := id_of_step hs hrow'
    · rw [← hid]
      exact hinv.uuids row hrow
    · exact hC _ hnew

/-- Every POST and every claim is that of a row, in every state of the run. -/
theorem postInv_of_reachableIf (h : ReachableIf (step cfg) GeneratesUuids World.init s) :
    PostInv s := by
  refine h.induct (I := PostInv) ?_ fun s a s' _ hinv hC hs => postInv_step hinv hC hs
  exact ⟨fun _ h => absurd h List.not_mem_nil, fun _ _ h => absurd h List.not_mem_nil,
    fun _ h => absurd h List.not_mem_nil⟩

end

/-! ## The result -/

/-- The id determines the row, and so does the pair.
SOURCE: app/db/models.py:67,83 -/
theorem deliveryId_eq_iff {cfg : Settings} {s : World} {p q : Post}
    (h : ReachableIf (step cfg) GeneratesUuids World.init s) (hp : p ∈ s.delivery.posts)
    (hq : q ∈ s.delivery.posts) :
    p.deliveryId.str = q.deliveryId.str ↔
      (p.messageId, p.subscriberId) = (q.messageId, q.subscriberId) := by
  have hinv := postInv_of_reachableIf h
  obtain ⟨row, hrow, hid, hpair⟩ := hinv.posted p hp
  obtain ⟨row', hrow', hid', hpair'⟩ := hinv.posted q hq
  constructor
  · intro heq
    have hids : p.deliveryId = q.deliveryId :=
      Uuid.str_inj (hid ▸ hinv.uuids row hrow) (hid' ▸ hinv.uuids row' hrow') heq
    rw [← hpair, ← hpair', eq_of_key_eq (lockInv_of_reachable h.reachable).ids_nodup hrow hrow'
      (hid.trans (hids.trans hid'.symm))]
  · intro heq
    obtain ⟨hvalid, hrefines⟩ := refinesInbox_of_reachable h.reachable
    rw [← hid, ← hid', eq_of_key_eq (hrefines.entries ▸ hvalid.entries_nodup) hrow hrow'
      (hpair.trans (heq.trans hpair'.symm))]

/-- Two requests carry the same `X-Webhook-ID`, and the same `delivery_id` in the object of
which their body is the text, if and only if they are for the same message and subscriber.
SOURCE: app/delivery/sender.py:41-67, app/db/models.py:64-93, app/delivery/worker.py:101-174 -/
theorem webhookId_eq_iff (hmacSha256 : Bytes → Bytes → Bytes) (cfg : Settings) (s : World)
    (h : ReachableIf (step cfg) GeneratesUuids World.init s) (p q : Post)
    (hp : p ∈ s.delivery.posts) (hq : q ∈ s.delivery.posts) (nowMs nowMs' : ℤ)
    (req req' : WebhookRequest) (hreq : webhookRequest hmacSha256 p nowMs = some req)
    (hreq' : webhookRequest hmacSha256 q nowMs' = some req') :
    (req.header (ascii "X-Webhook-ID") = req'.header (ascii "X-Webhook-ID") ↔
      (p.messageId, p.subscriberId) = (q.messageId, q.subscriberId)) ∧
    req.body = (Json.obj (bodyData p)).dumps .compact ∧
    req'.body = (Json.obj (bodyData q)).dumps .compact ∧
    (Json.get (bodyData p) (py "delivery_id") = Json.get (bodyData q) (py "delivery_id") ↔
      (p.messageId, p.subscriberId) = (q.messageId, q.subscriberId)) := by
  rw [webhookId_webhookRequest hreq, webhookId_webhookRequest hreq', ← deliveryId_eq_iff h hp hq]
  refine ⟨?_, body_webhookRequest hreq, body_webhookRequest hreq', ?_⟩
  · rw [Option.some.injEq]
    refine ⟨map_ofNat_inj (fun _ hc => Uuid.lt_of_mem_str hc) (fun _ hc => Uuid.lt_of_mem_str hc), ?_⟩
    intro heq
    rw [heq]
  · show some (Json.str _) = some (Json.str _) ↔ _
    rw [Option.some.injEq, Json.str.injEq]

/-! ## A concrete history -/

/-- The first delivery fails, a retry opens the row, and the second delivery succeeds. -/
def postedTwice : List Action :=
  oneAttempt ++ claimBatch 0 0 [⟨3⟩] ++ deliverNext 0 (.response 500 none) 0 ++
  [.worker 0 .finish, .retry 0 (.select ⟨3⟩), .retry 0 .commit] ++
  claimBatch 0 0 [⟨3⟩] ++ deliverNext 0 (.response 200 none) 0

theorem postedTwice_enabled : (run (step .default) World.init postedTwice).isSome = true := by
  decide +kernel

def sentTwice : World := (run (step .default) World.init postedTwice).get postedTwice_enabled

def noDigest (_ _ : Bytes) : Bytes := []

/-- Both POSTs are for the same message and subscriber, and both requests can be signed. -/
theorem sentTwice_posts : sentTwice.delivery.posts.length = 2 ∧
    ∀ p ∈ sentTwice.delivery.posts, (p.messageId, p.subscriberId) = (py "m", ⟨1⟩) ∧
      ∀ nowMs ∈ [(0 : ℤ), 1], (webhookRequest noDigest p nowMs).isSome = true := by
  decide +kernel

/-- Two POSTs for one row carry the same id. -/
theorem webhookId_eq_iff_sentTwice : ∃ p q : Post, sentTwice.delivery.posts = [p, q] ∧
    ∃ req req' : WebhookRequest, webhookRequest noDigest p 0 = some req ∧
      webhookRequest noDigest q 1 = some req' ∧
      req.header (ascii "X-Webhook-ID") = req'.header (ascii "X-Webhook-ID") := by
  have h : ReachableIf (step .default) GeneratesUuids World.init sentTwice :=
    ReachableIf.of_run postedTwice_enabled (by decide +kernel)
  obtain ⟨hlen, hposts⟩ := sentTwice_posts
  obtain ⟨p, q, hpq⟩ := List.length_eq_two.1 hlen
  have hp : p ∈ sentTwice.delivery.posts := hpq ▸ List.mem_cons_self
  have hq : q ∈ sentTwice.delivery.posts := hpq ▸ List.mem_cons_of_mem _ (List.mem_singleton.2 rfl)
  obtain ⟨req, hreq⟩ := Option.isSome_iff_exists.1 ((hposts p hp).2 0 (by decide))
  obtain ⟨req', hreq'⟩ := Option.isSome_iff_exists.1 ((hposts q hq).2 1 (by decide))
  refine ⟨p, q, hpq, req, req', hreq, hreq', ?_⟩
  exact (webhookId_eq_iff noDigest .default sentTwice h p q hp hq 0 1 req req' hreq hreq').1.2
    ((hposts p hp).1.trans (hposts q hq).1.symm)

end EventPipeline.Analysis
