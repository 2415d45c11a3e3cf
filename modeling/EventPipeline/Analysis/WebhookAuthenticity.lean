import EventPipeline.Program.Subscribers
import EventPipeline.Analysis.ForeignKeys
import EventPipeline.Analysis.Signatures
import EventPipeline.Analysis.WebhookId

/-!
# What a subscriber receives is for it

The secret of a subscriber is generated when it is created, shown once in that response, and
never written again. Its endpoint changes only by a PATCH of that subscriber. Requests of
different subscribers overlap and work on rows that they have loaded before, and a worker posts
with a row that it has fetched before. Still every POST goes to an endpoint that was given for
its subscriber, and is signed with the secret that the subscriber was given, so that the
subscriber can verify it.
-/

set_option autoImplicit false

namespace EventPipeline.Analysis

open EventPipeline.Model EventPipeline.Program EventPipeline.Interface EventPipeline.Computation

/-! ## What the requests have given -/

/-- The response that created the subscriber has shown the secret. -/
def SecretGiven (as : List Action) (id : Uuid) (secret : PyStr) : Prop :=
  ∃ r endpoint, Action.subscriber r (.create id endpoint secret) ∈ as

/-- A PATCH of the subscriber has asked for the endpoint. -/
def EndpointAsked (as : List Action) (id : Uuid) (endpoint : PyStr) : Prop :=
  ∃ r body, Action.subscriber r (.patch id body) ∈ as ∧ body.endpoint = some endpoint

/-- The subscriber was created with the endpoint, or a PATCH of it has asked for the endpoint. -/
def EndpointGiven (as : List Action) (id : Uuid) (endpoint : PyStr) : Prop :=
  (∃ r secret, Action.subscriber r (.create id endpoint secret) ∈ as) ∨ EndpointAsked as id endpoint

/-- A version of the row of subscriber `id` with contact data that were given for it. -/
structure Contact (as : List Action) (id : Uuid) (endpoint secret : PyStr) : Prop where
  secret : SecretGiven as id secret
  endpoint : EndpointGiven as id endpoint

section
variable {as : List Action} {id : Uuid} {endpoint secret : PyStr} (b : Action)

/-- An endpoint that was asked for stays so. -/
theorem EndpointAsked.snoc (h : EndpointAsked as id endpoint) :
    EndpointAsked (as ++ [b]) id endpoint := by
  obtain ⟨r, body, hmem, hbody⟩ := h
  exact ⟨r, body, List.mem_append_left _ hmem, hbody⟩

/-- An endpoint that was given stays so. -/
theorem EndpointGiven.snoc (h : EndpointGiven as id endpoint) :
    EndpointGiven (as ++ [b]) id endpoint := by
  obtain ⟨r, secret, hmem⟩ | hasked := h
  · exact Or.inl ⟨r, secret, List.mem_append_left _ hmem⟩
  · exact Or.inr (hasked.snoc b)

/-- What was given stays given. -/
theorem Contact.snoc (h : Contact as id endpoint secret) :
    Contact (as ++ [b]) id endpoint secret := by
  obtain ⟨⟨r, e, hmem⟩, hendpoint⟩ := h
  exact ⟨⟨r, e, List.mem_append_left _ hmem⟩, hendpoint.snoc b⟩

/-- A POST or a PATCH just made. -/
theorem mem_snoc (as : List Action) : b ∈ as ++ [b] :=
  List.mem_append_right _ (List.mem_singleton.2 rfl)

end

/-- SOURCE: app/api/subscribers.py:53-104, app/delivery/worker.py:105-123 -/
structure ContactInv (as : List Action) (s : World) : Prop where
  row : ∀ sub ∈ s.registry.subscribers, Contact as sub.id sub.endpoint sub.secret
  patching : ∀ r sub body, s.registry.requests r = .patching sub body →
    ∀ e, body.endpoint = some e → EndpointAsked as sub.id e
  /-- every secret that was shown is still the secret of its subscriber -/
  kept : ∀ id secret, SecretGiven as id secret →
    ∃ sub ∈ s.registry.subscribers, sub.id = id ∧ sub.secret = secret
  fetched : ∀ w x sub todo, (s.delivery.workers w).phase = .fetched x (some sub) todo →
    Contact as sub.id sub.endpoint sub.secret
  posted : ∀ p ∈ s.delivery.posts, Contact as p.subscriberId p.endpoint p.secret

section
variable {cfg : Settings} {s s' : World} {as : List Action} {a : Action} {g : Registry}

/-- A PATCH writes its own endpoint, or it leaves the one that the row has now.
SOURCE: app/api/subscribers.py:91-96 -/
theorem endpoint_patchRow (loaded row : Subscriber) (body : SubscriberUpdate) (now : Time) :
    (patchRow loaded body now row).endpoint = row.endpoint ∨
      body.endpoint = some (patchRow loaded body now row).endpoint := by
  unfold patchRow flushColumn
  dsimp only
  cases body.endpoint with
  | none => exact Or.inl rfl
  | some e =>
    dsimp only
    split
    · exact Or.inl rfl
    · exact Or.inr rfl

/-- Each writer of the table leaves contact data that were given.
SOURCE: app/api/subscribers.py:53-114 -/
theorem contact_row (hinv : ContactInv as s) (h : RegistryStep s a g) {sub' : Subscriber}
    (hsub' : sub' ∈ g.subscribers) :
    Contact (as ++ [a]) sub'.id sub'.endpoint sub'.secret := by
  have hold : sub' ∈ s.registry.subscribers →
      Contact (as ++ [a]) sub'.id sub'.endpoint sub'.secret :=
    fun hmem => (hinv.row sub' hmem).snoc a
  cases h with
  | @create r id endpoint secret _ =>
    obtain hmem | hmem := List.mem_append.1 hsub'
    · exact hold hmem
    · rw [List.mem_singleton.1 hmem]
      exact ⟨⟨r, endpoint, mem_snoc _ as⟩, Or.inl ⟨r, secret, mem_snoc _ as⟩⟩
  | @patch r sub body hr =>
    obtain ⟨hmem, _⟩ | ⟨row, hmem, hid, rfl⟩ := of_mem_updateWhere hsub'
    · exact hold hmem
    · have hcontact := (hinv.row row hmem).snoc (.subscriber r .commit)
      obtain heq | hbody := endpoint_patchRow sub row body s.now
      · refine ⟨hcontact.secret, ?_⟩
        rw [heq]
        exact hcontact.endpoint
      · have hasked := (hinv.patching r sub body hr _ hbody).snoc (.subscriber r .commit)
        refine ⟨hcontact.secret, Or.inr ?_⟩
        rw [show (patchRow sub body s.now row).id = sub.id from hid]
        exact hasked
  | delete _ =>
    obtain ⟨hmem, _⟩ | ⟨row, hmem, _, rfl⟩ := of_mem_updateWhere hsub'
    · exact hold hmem
    · exact (hinv.row row hmem).snoc _
  | _ => exact hold hsub'

/-- A PATCH in progress has asked for what it is going to write.
SOURCE: app/api/subscribers.py:78-93 -/
theorem asked_patching (hinv : ContactInv as s) (h : RegistryStep s a g) {r : RequestId}
    {sub : Subscriber} {body : SubscriberUpdate} (hr : g.requests r = .patching sub body)
    {e : PyStr} (he : body.endpoint = some e) : EndpointAsked (as ++ [a]) sub.id e := by
  have hold : s.registry.requests r = .patching sub body → EndpointAsked (as ++ [a]) sub.id e :=
    fun hr => (hinv.patching r sub body hr e he).snoc a
  -- Request `r'` goes on as `x`; the others stay as they are.
  have hmove : ∀ r' x, g.requests = Function.update s.registry.requests r' x →
      (x = .patching sub body → r = r' → EndpointAsked (as ++ [a]) sub.id e) →
      EndpointAsked (as ++ [a]) sub.id e := by
    intro r' x heq hx
    rw [heq] at hr
    by_cases hrr : r = r'
    · rw [hrr, Function.update_self] at hr
      exact hx hr hrr
    · rw [Function.update_of_ne hrr] at hr
      exact hold hr
  cases h with
  | @loadPatch r' id body' sub' _ hl =>
    refine hmove _ _ rfl fun heq _ => ?_
    cases heq
    obtain ⟨_, hid, _⟩ := of_getOr404_eq_some hl
    exact ⟨r', body, hid ▸ mem_snoc _ as, he⟩
  | loadDelete _ _ => exact hmove _ _ rfl nofun
  | patch _ => exact hmove _ _ rfl nofun
  | delete _ => exact hmove _ _ rfl nofun
  | abort => exact hmove _ _ rfl nofun
  | _ => exact hold hr

/-- No writer changes a secret, and no row goes away. SOURCE: app/api/subscribers.py:78-114 -/
theorem secret_kept (h : RegistryStep s a g) {sub : Subscriber}
    (hsub : sub ∈ s.registry.subscribers) :
    ∃ sub' ∈ g.subscribers, sub'.id = sub.id ∧ sub'.secret = sub.secret := by
  cases h with
  | create _ => exact ⟨sub, List.mem_append_left _ hsub, rfl, rfl⟩
  | patch _ =>
    refine ⟨_, mem_updateWhere_of_mem hsub, ?_, ?_⟩
    · split <;> rfl
    · split <;> rfl
  | delete _ =>
    refine ⟨_, mem_updateWhere_of_mem hsub, ?_, ?_⟩
    · split <;> rfl
    · split <;> rfl
  | _ => exact ⟨sub, hsub, rfl, rfl⟩

/-- A secret that was given is still that of its subscriber. SOURCE: app/api/subscribers.py:53-104
-/
theorem secretKept_of_step (hinv : ContactInv as s) (hs : step cfg s a = some s') {id : Uuid}
    {secret : PyStr} (h : SecretGiven (as ++ [a]) id secret) :
    ∃ sub ∈ s'.registry.subscribers, sub.id = id ∧ sub.secret = secret := by
  obtain ⟨r, endpoint, hmem⟩ := h
  obtain hmem | hmem := List.mem_append.1 hmem
  · obtain ⟨sub, hsub, rfl, rfl⟩ := hinv.kept id secret ⟨r, endpoint, hmem⟩
    exact secret_kept (registryStep_of_step hs) hsub
  · obtain rfl := List.mem_singleton.1 hmem
    simp only [step, subscriber] at hs
    split at hs
    · cases hs
    · cases hs
      exact ⟨_, List.mem_append_right _ (List.mem_singleton.2 rfl), rfl, rfl⟩

/-- A fetched subscriber is a row of the table. SOURCE: app/delivery/worker.py:107-108 -/
theorem contact_fetched (hinv : ContactInv as s) (hs : step cfg s a = some s') {w : WorkerId}
    {x : Snapshot} {sub : Subscriber} {todo : List Snapshot}
    (hph : (s'.delivery.workers w).phase = .fetched x (some sub) todo) :
    Contact (as ++ [a]) sub.id sub.endpoint sub.secret := by
  obtain hkeep | ⟨b, d, rfl, rfl, h⟩ := worker_of_step hs w
  · exact (hinv.fetched w x sub todo (hkeep ▸ hph)).snoc a
  · cases h with
    | fetch _ =>
      simp only [Delivery.setPhase_eq, Delivery.setWorker_workers, Function.update_self,
        WorkerPhase.fetched.injEq] at hph
      exact (hinv.row sub (of_lookup_eq_some hph.2.1).1).snoc _
    | resetStale _ => exact (hinv.fetched w x sub todo hph).snoc _
    | _ =>
      simp only [Delivery.setPhase_eq, Delivery.setWorker_workers, Function.update_self] at hph
      cases hph

/-- A POST is made with what was fetched for its subscriber. SOURCE: app/delivery/worker.py:123 -/
theorem contact_posted (hreach : Reachable (step cfg) World.init s) (hinv : ContactInv as s)
    (hs : step cfg s a = some s') {p : Post} (hp : p ∈ s'.delivery.posts) :
    Contact (as ++ [a]) p.subscriberId p.endpoint p.secret := by
  by_cases hold : p ∈ s.delivery.posts
  · exact (hinv.posted p hold).snoc a
  · cases worldStep_of_eq_some hs with
    | @worker w _ _ h =>
      cases h with
      | @post x sub todo hph _ =>
        obtain hmem | hmem := List.mem_append.1 hp
        · exact absurd hmem hold
        · rw [List.mem_singleton.1 hmem]
          obtain ⟨y, hy, hid⟩ := (referenceInv_of_reachable hreach).fetched w x _ todo hph
          cases hy
          show Contact _ x.attempt.subscriberId sub.endpoint sub.secret
          rw [← hid]
          exact (hinv.fetched w x sub todo hph).snoc _
      | _ => exact absurd hp hold
    | retry h => cases h <;> exact absurd hp hold
    | _ => exact absurd hp hold

/-- What is known of the endpoints and secrets holds after every run. -/
theorem contactInv_of_run (h : run (step cfg) World.init as = some s) : ContactInv as s := by
  refine run_induct (I := fun as s => ContactInv as s) ?_ ?_ h
  · refine ⟨fun _ h => absurd h List.not_mem_nil, fun _ _ _ hr => ?_, ?_, fun _ _ _ _ hph => ?_,
      fun _ h => absurd h List.not_mem_nil⟩
    · cases hr
    · rintro id secret ⟨r, endpoint, hmem⟩
      exact absurd hmem List.not_mem_nil
    · cases hph
  · intro as s a s' hrun hinv hs
    have hreg := registryStep_of_step hs
    exact ⟨fun _ hsub => contact_row hinv hreg hsub, fun _ _ _ hr _ he => asked_patching hinv hreg hr he,
      fun _ _ hgiven => secretKept_of_step hinv hs hgiven, fun _ _ _ _ hph => contact_fetched hinv hs hph,
      fun _ hp => contact_posted ⟨as, hrun⟩ hinv hs hp⟩

/-- A subscriber was shown one secret only. -/
theorem secret_unique (h : run (step cfg) World.init as = some s) {id : Uuid}
    {secret secret' : PyStr} (hs : SecretGiven as id secret) (hs' : SecretGiven as id secret') :
    secret = secret' := by
  have hinv := contactInv_of_run h
  obtain ⟨sub, hsub, rfl, rfl⟩ := hinv.kept id secret hs
  obtain ⟨sub', hsub', hid, rfl⟩ := hinv.kept sub.id secret' hs'
  rw [eq_of_key_eq (subscriber_ids_nodup ⟨as, h⟩) hsub' hsub hid]

end

/-! ## The secret can be signed with -/

section
variable {urlparseError : PyStr → Option PyStr} {random : Bytes} {id : Uuid} {now : Time}
  {body : SubscriberCreate} {rows rows' : List SubscriberRow} {response : SubscriberCreatedResponse}

/-- A secret consists of ASCII characters. SOURCE: app/api/subscribers.py:54 -/
theorem lt_of_mem_tokenHex {c : PyChar} (h : c ∈ tokenHex random) : 0 < c.val ∧ c.val < 128 := by
  have hhex : ∀ d < 16, 0 < (chr (Json.hexByte d).toNat).val ∧
      (chr (Json.hexByte d).toNat).val < 128 := by decide
  obtain ⟨b, hb, rfl⟩ := List.mem_map.1 h
  obtain ⟨x, _, hx⟩ := List.mem_flatMap.1 hb
  have hlt := x.toNat_lt
  obtain rfl | rfl : b = Json.hexByte (x.toNat / 16) ∨ b = Json.hexByte (x.toNat % 16) := by
    simpa using hx
  · exact hhex _ (by omega)
  · exact hhex _ (by omega)

/-- A secret has two characters for each random byte. SOURCE: app/api/subscribers.py:54 -/
theorem length_tokenHex (random : Bytes) : (tokenHex random).length = 2 * random.length := by
  rw [tokenHex, List.length_map, hexdigest]
  induction random with
  | nil => rfl
  | cons b random ih =>
    rw [List.flatMap_cons, List.length_append, ih, List.length_cons]
    simp only [List.length_cons, List.length_nil]
    omega

/-- Text without surrogates can be encoded. -/
theorem exists_encode {s : PyStr} (h : ∀ c ∈ s, isSurrogate c = false) :
    ∃ bytes, encode s = some bytes := by
  induction s with
  | nil => exact ⟨[], rfl⟩
  | cons c s ih =>
    obtain ⟨bytes, hbytes⟩ := ih fun d hd => h d (List.mem_cons_of_mem _ hd)
    obtain ⟨chunks, hchunks, _⟩ := Option.map_eq_some_iff.1 hbytes
    obtain ⟨chunk, hchunk⟩ : ∃ chunk, encodeChar c = some chunk := by
      have hc : ¬ isSurrogate c = true := by simp [h c List.mem_cons_self]
      unfold encodeChar
      dsimp only
      rw [if_neg hc]
      split_ifs <;> exact ⟨_, rfl⟩
    exact ⟨(chunk :: chunks).flatten, by simp [encode, hchunk, hchunks]⟩

/-- A secret has no surrogates. -/
theorem not_surrogate_tokenHex {c : PyChar} (h : c ∈ tokenHex random) : isSurrogate c = false := by
  have hlt := (lt_of_mem_tokenHex h).2
  simp only [isSurrogate, Bool.and_eq_false_iff, decide_eq_false_iff_not]
  omega

/-- The secret fits its column just when at most 32 random bytes were drawn.
SOURCE: app/api/subscribers.py:57, app/db/models.py:34, app/config.py:30 -/
theorem varcharAccepts_tokenHex :
    Json.varcharAccepts 64 (tokenHex random) = true ↔ random.length ≤ 32 := by
  have hst : Json.storable (tokenHex random) = true := by
    refine List.all_eq_true.2 fun c hc => ?_
    simpa [not_surrogate_tokenHex hc] using (lt_of_mem_tokenHex hc).1.ne'
  rw [Json.varcharAccepts, hst, length_tokenHex]
  simp only [Bool.and_true, decide_eq_true_eq]
  omega

/-- What a 201 says. SOURCE: app/api/subscribers.py:53-62 -/
theorem of_created
    (h : createSubscriber urlparseError random id now body rows = (.created response, rows')) :
    response.id = id ∧ response.endpoint = body.endpoint ∧ response.secret = tokenHex random ∧
      random.length ≤ 32 ∧ id ∉ rows.map (fun r => r.id) ∧
      rows' = rows ++ [newSubscriber body id (tokenHex random) now] := by
  unfold createSubscriber at h
  dsimp only at h
  split at h
  · cases hins : insertSubscriber (newSubscriber body id (tokenHex random) now) rows with
    | none =>
      rw [hins] at h
      cases h
    | some rows'' =>
      rw [hins] at h
      cases h
      unfold insertSubscriber at hins
      split at hins
      · rename_i hcheck
        cases hins
        obtain ⟨hnew, hcolumns⟩ := hcheck
        simp only [columnsAccept, Bool.and_eq_true] at hcolumns
        exact ⟨rfl, rfl, rfl, varcharAccepts_tokenHex.1 hcolumns.2, hnew, rfl⟩
      · cases hins
  · cases h

/-- `create_subscriber` is the `create` step of the pipeline.
SOURCE: app/api/subscribers.py:53-62 -/
theorem step_of_created (cfg : Settings) {s : World} (r : RequestId)
    (h : createSubscriber urlparseError random id s.now body rows = (.created response, rows'))
    (hrows : s.registry.subscribers = rows.map SubscriberRow.toSubscriber) :
    ∃ s', step cfg s (.subscriber r (.create id response.endpoint response.secret)) = some s' ∧
      s'.registry.subscribers = rows'.map SubscriberRow.toSubscriber := by
  obtain ⟨_, hendpoint, hsecret, _, hnew, rfl⟩ := of_created h
  have hid : id ∉ s.registry.subscribers.map Subscriber.id := by
    rw [hrows, List.map_map]
    exact hnew
  refine ⟨_, by rw [step, subscriber, if_neg hid]; rfl, ?_⟩
  rw [hendpoint, hsecret, List.map_append, hrows]
  rfl

end

/-! ## The result -/

/-- The action creates no subscriber, or it is the one of a 201 of `create_subscriber`. -/
def CreatedByApi (a : Action) : Prop :=
  ∀ r id endpoint secret, a = .subscriber r (.create id endpoint secret) →
    ∃ urlparseError random now body rows rows' response,
      createSubscriber urlparseError random id now body rows = (.created response, rows') ∧
      response.endpoint = endpoint ∧ response.secret = secret

/-- The POST is for its subscriber. -/
structure Authentic (hmacSha256 : Bytes → Bytes → Bytes) (as : List Action) (p : Post) :
    Prop where
  endpoint : EndpointGiven as p.subscriberId p.endpoint
  /-- it is signed with the one secret that the subscriber was shown -/
  secret : ∀ secret, SecretGiven as p.subscriberId secret ↔ secret = p.secret
  /-- whenever it is sent, signing succeeds, and the holder of the secret verifies the request -/
  verifies : ∀ sentMs, ∃ req, webhookRequest hmacSha256 p sentMs = some req ∧
    ∀ tol now : ℤ, (now - sentMs).natAbs ≤ 1000 * tol →
      receive hmacSha256 p.secret req tol now = some true

/-- A request that is young enough is accepted with its secret.
SOURCE: app/delivery/signing.py:25-43 -/
theorem receive_of_signed {hmacSha256 : Bytes → Bytes → Bytes} {p : Post} {sentMs : ℤ}
    {req : WebhookRequest} (h : webhookRequest hmacSha256 p sentMs = some req) {tol now : ℤ}
    (hage : (now - sentMs).natAbs ≤ 1000 * tol) :
    receive hmacSha256 p.secret req tol now = some true := by
  obtain ⟨sig, hsign, hreceive⟩ := receive_deliverRequest h tol now
  rw [hreceive, verify, if_neg (by omega), hsign]
  simp

/-- In every run whose subscribers come from `create_subscriber`, every POST goes to an endpoint
that was given for its subscriber, is signed with the one secret that the subscriber was shown,
and can be signed and verified with it, whatever requests and workers overlap.
SOURCE: app/api/subscribers.py:53-104, app/delivery/worker.py:101-123,
app/delivery/sender.py:41-67, app/delivery/signing.py:10-43 -/
theorem posts_authentic (hmacSha256 : Bytes → Bytes → Bytes) (cfg : Settings) (as : List Action)
    (s : World) (h : run (step cfg) World.init as = some s) (hapi : ∀ a ∈ as, CreatedByApi a) :
    ∀ p ∈ s.delivery.posts, Authentic hmacSha256 as p := by
  intro p hp
  obtain ⟨hsecret, hendpoint⟩ := (contactInv_of_run h).posted p hp
  refine ⟨hendpoint, fun secret => ⟨fun hs => secret_unique h hs hsecret, fun heq => heq ▸ hsecret⟩,
    fun sentMs => ?_⟩
  obtain ⟨r, endpoint, hmem⟩ := hsecret
  obtain ⟨_, random, _, _, _, _, response, hcreated, _, hshown⟩ := hapi _ hmem r _ _ _ rfl
  have htoken : p.secret = tokenHex random := hshown.symm.trans (of_created hcreated).2.2.1
  obtain ⟨key, hkey⟩ := exists_encode fun c (hc : c ∈ p.secret) =>
    not_surrogate_tokenHex (htoken ▸ hc : c ∈ tokenHex random)
  have hreq : ∃ req, webhookRequest hmacSha256 p sentMs = some req := by
    rw [webhookRequest, deliverRequest, sign, hkey]
    exact ⟨_, rfl⟩
  obtain ⟨req, hreq⟩ := hreq
  exact ⟨req, hreq, fun tol now hage => receive_of_signed hreq hage⟩

/-- The endpoint is patched while the row is claimed. -/
def patchedInFlight : List Action :=
  [.subscriber 0 (.create ⟨1⟩ (py "http://a") (tokenHex [0xaf])),
    .publish 0 (eventBody (py "m") (py "e") (.obj []))] ++ acceptance 0 ⟨2⟩ [⟨3⟩] ++
    claimBatch 0 0 [⟨3⟩] ++
    [.subscriber 1 (.patch ⟨1⟩ ⟨some (py "http://b"), none⟩), .subscriber 1 .commit,
      .worker 0 .fetch, .worker 0 .post]

theorem patchedInFlight_enabled :
    (run (step .default) World.init patchedInFlight).isSome = true := by decide

/-- The subscriber of the history is created by the API. -/
theorem patchedInFlight_createdByApi : ∀ a ∈ patchedInFlight, CreatedByApi a := by
  rintro a ha r id endpoint secret rfl
  obtain ⟨_, rfl, rfl, rfl⟩ : r = 0 ∧ id = ⟨1⟩ ∧ endpoint = py "http://a" ∧
      secret = tokenHex [0xaf] := by
    simpa [patchedInFlight, acceptance, claimBatch] using ha
  exact ⟨fun _ => none, [0xaf], 0, ⟨py "n", py "http://a"⟩, [], _,
    ⟨⟨⟨1⟩, py "n", py "http://a", true, 0⟩, tokenHex [0xaf]⟩, rfl, rfl, rfl⟩

/-- The POST goes to the endpoint of the PATCH and is authentic.
SOURCE: app/delivery/worker.py:107-120 -/
theorem posts_authentic_patchedInFlight : ∃ p, ((run (step .default) World.init
      patchedInFlight).get patchedInFlight_enabled).delivery.posts = [p] ∧
    p.endpoint = py "http://b" ∧ Authentic sampleHmac patchedInFlight p :=
  ⟨_, rfl, rfl, posts_authentic sampleHmac .default patchedInFlight _
    (Option.some_get patchedInFlight_enabled).symm patchedInFlight_createdByApi _
    (List.Mem.head _)⟩

end EventPipeline.Analysis
