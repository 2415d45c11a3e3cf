import EventPipeline.Computation.History
import EventPipeline.Analysis.DeletedSubscribers
import EventPipeline.Analysis.DuplicatePatch
import EventPipeline.Analysis.KeyedPatch
import EventPipeline.Analysis.WebhookAuthenticity
import EventPipeline.Interface.SubscriberApiSteps

/-!
# The registry that the subscriber endpoints keep

The endpoints overlap, the cache answers from the past, and processes end in the middle of a
request. Still every answer is explained by the transactions that have been committed: a
subscriber is what its POST has created, with an endpoint that its POST or one of its PATCHes has
asked for, and it is found and listed until it is deleted.
-/

set_option autoImplicit false

namespace EventPipeline.Analysis

open EventPipeline.Model EventPipeline.Program EventPipeline.Interface EventPipeline.Computation

/-! ## The log of commits -/

def rowOf : SubscriberCommit → Option SubscriberRow
  | .created row => some row
  | .patched _ _ | .deleted _ => none

def deletedIdOf : SubscriberCommit → Option Uuid
  | .deleted id => some id
  | .created _ | .patched _ _ => none

/-- The rows that the POSTs have inserted, in order. -/
def createdRows (log : List SubscriberCommit) : List SubscriberRow :=
  log.filterMap rowOf

def deletedIds (log : List SubscriberCommit) : List Uuid :=
  log.filterMap deletedIdOf

/-- The subscribers that are there, as they were created. -/
def liveRows (log : List SubscriberCommit) : List SubscriberRow :=
  (createdRows log).filter fun row => !(deletedIds log).contains row.id

/-- The columns that only the INSERT writes. -/
def fixedColumns (row : SubscriberRow) : Uuid × PyStr × PyStr × Time :=
  (row.id, row.name, row.secret, row.createdAt)

/-- What identifies a subscriber in a response. -/
def identity (x : SubscriberResponse) : Uuid × PyStr × Time := (x.id, x.name, x.createdAt)

/-- What a response shows was given: by the POST of the subscriber, or by a later request for it.
-/
structure Given (urlparseError : PyStr → Option PyStr) (log : List SubscriberCommit)
    (x : SubscriberResponse) : Prop where
  creation : ∃ row ∈ createdRows log, identity row.response = identity x
  endpoint : (∃ row ∈ createdRows log, row.id = x.id ∧ row.endpoint = x.endpoint) ∨
    ∃ body, .patched x.id body ∈ log ∧ body.endpoint = some x.endpoint
  valid : (validateHttpUrl urlparseError x.endpoint).isOk = true
  active : x.isActive = true ∨ (∃ body, .patched x.id body ∈ log ∧ body.isActive = some false) ∨
    x.id ∈ deletedIds log

section
variable {urlparseError : PyStr → Option PyStr} {log log' : List SubscriberCommit}
  {x : SubscriberResponse}

/-- The created rows of two logs are those of both. -/
theorem createdRows_append : createdRows (log ++ log') = createdRows log ++ createdRows log' :=
  List.filterMap_append

/-- The deleted subscribers of two logs are those of both. -/
theorem deletedIds_append : deletedIds (log ++ log') = deletedIds log ++ deletedIds log' :=
  List.filterMap_append

/-- What was given stays given. -/
theorem Given.append (h : Given urlparseError log x) (log' : List SubscriberCommit) :
    Given urlparseError (log ++ log') x where
  creation := by
    obtain ⟨row, hrow, heq⟩ := h.creation
    exact ⟨row, createdRows_append ▸ List.mem_append_left _ hrow, heq⟩
  endpoint := by
    refine h.endpoint.imp ?_ ?_
    · rintro ⟨row, hrow, heq⟩
      exact ⟨row, createdRows_append ▸ List.mem_append_left _ hrow, heq⟩
    · rintro ⟨body, hbody, heq⟩
      exact ⟨body, List.mem_append_left _ hbody, heq⟩
  valid := h.valid
  active := by
    refine h.active.imp_right (Or.imp ?_ fun hid => ?_)
    · rintro ⟨body, hbody, heq⟩
      exact ⟨body, List.mem_append_left _ hbody, heq⟩
    · exact deletedIds_append ▸ List.mem_append_left _ hid

/-- An endpoint that a PATCH has been given has passed its check.
SOURCE: app/schemas/subscriber.py:35-40 -/
theorem validate_of_valid {body : SubscriberUpdate} {e : PyStr}
    (h : body.valid urlparseError = true) (he : body.endpoint = some e) :
    (validateHttpUrl urlparseError e).isOk = true := by
  rw [SubscriberUpdate.valid, he, endpointOfUpdate] at h
  cases hv : validateHttpUrl urlparseError e with
  | ok _ => rfl
  | error _ =>
    rw [hv] at h
    cases h

end

/-! ## The table -/

/-- The table against the log of the transactions that have written it. -/
structure TableInv (urlparseError : PyStr → Option PyStr) (rows : List SubscriberRow)
    (log : List SubscriberCommit) : Prop where
  fixed : rows.map fixedColumns = (createdRows log).map fixedColumns
  ids_nodup : (rows.map fun row => row.id).Nodup
  deleted : ∀ row ∈ rows, row.deletedAt ≠ none ↔ row.id ∈ deletedIds log
  deleted_known : deletedIds log ⊆ rows.map fun row => row.id
  given : ∀ row ∈ rows, Given urlparseError log row.response

section
variable {urlparseError : PyStr → Option PyStr} {rows : List SubscriberRow}
  {log : List SubscriberCommit}

/-- SOURCE: app/api/subscribers.py:57-60 -/
theorem TableInv.snoc_created (h : TableInv urlparseError rows log) {row : SubscriberRow}
    (hnew : row.id ∉ rows.map fun row => row.id) (hactive : row.isActive = true)
    (hdeleted : row.deletedAt = none)
    (hvalid : (validateHttpUrl urlparseError row.endpoint).isOk = true) :
    TableInv urlparseError (rows ++ [row]) (log ++ [.created row]) := by
  have hcreated : createdRows (log ++ [.created row]) = createdRows log ++ [row] :=
    createdRows_append
  have hids : deletedIds (log ++ [.created row]) = deletedIds log :=
    deletedIds_append.trans (List.append_nil _)
  have hmem : row ∈ createdRows (log ++ [.created row]) := by simp [hcreated]
  refine ⟨?_, ?_, fun row' hrow' => ?_, ?_, fun row' hrow' => ?_⟩
  · rw [hcreated, List.map_append, List.map_append, h.fixed]
  · rw [List.map_append]
    exact h.ids_nodup.append (List.nodup_singleton _) (List.disjoint_singleton.2 hnew)
  · rw [hids]
    obtain hrow' | hrow' := List.mem_append.1 hrow'
    · exact h.deleted row' hrow'
    · rw [List.mem_singleton.1 hrow', hdeleted]
      exact ⟨fun hne => absurd rfl hne, fun hid => absurd (h.deleted_known hid) hnew⟩
  · rw [hids, List.map_append]
    exact fun id hid => List.mem_append_left _ (h.deleted_known hid)
  · obtain hrow' | hrow' := List.mem_append.1 hrow'
    · exact (h.given row' hrow').append _
    · rw [List.mem_singleton.1 hrow']
      exact ⟨⟨row, hmem, rfl⟩, Or.inl ⟨row, hmem, rfl, rfl⟩, hvalid, Or.inl hactive⟩

/-- A PATCH writes its own value, or it leaves the one that the row has now.
SOURCE: app/api/subscribers.py:91-96 -/
theorem isActive_patchRow (loaded row : Subscriber) (body : SubscriberUpdate) (now : Time) :
    (patchRow loaded body now row).isActive = row.isActive ∨
      body.isActive = some (patchRow loaded body now row).isActive := by
  unfold patchRow flushColumn
  dsimp only
  cases body.isActive with
  | none => exact Or.inl rfl
  | some b =>
    dsimp only
    split
    · exact Or.inl rfl
    · exact Or.inr rfl

/-- A response with the values of an earlier one, except those that a PATCH has asked for. -/
theorem Given.patched {x y : SubscriberResponse} (h : Given urlparseError log x)
    {body : SubscriberUpdate} (hvalid : body.valid urlparseError = true)
    (hidentity : identity y = identity x)
    (hendpoint : y.endpoint = x.endpoint ∨ body.endpoint = some y.endpoint)
    (hactive : y.isActive = x.isActive ∨ body.isActive = some y.isActive) :
    Given urlparseError (log ++ [.patched x.id body]) y := by
  have hold := h.append [.patched x.id body]
  have hmem : SubscriberCommit.patched x.id body ∈ log ++ [.patched x.id body] := by simp
  have hid : y.id = x.id := congrArg Prod.fst hidentity
  refine ⟨?_, ?_, ?_, ?_⟩
  · rw [hidentity]
    exact hold.creation
  · rw [hid]
    obtain heq | hasked := hendpoint
    · rw [heq]
      exact hold.endpoint
    · exact Or.inr ⟨body, hmem, hasked⟩
  · obtain heq | hasked := hendpoint
    · rw [heq]
      exact hold.valid
    · exact validate_of_valid hvalid hasked
  · rw [hid]
    obtain heq | hasked := hactive
    · rw [heq]
      exact hold.active
    · cases hy : y.isActive with
      | true => exact Or.inl rfl
      | false => exact Or.inr (Or.inl ⟨body, hmem, hy ▸ hasked⟩)

/-- SOURCE: app/api/subscribers.py:91-97 -/
theorem TableInv.snoc_patched (h : TableInv urlparseError rows log) (sub : SubscriberRow)
    {body : SubscriberUpdate} (hvalid : body.valid urlparseError = true) (now : Time) :
    TableInv urlparseError (commitPatch sub body now rows) (log ++ [.patched sub.id body]) := by
  have hcreated : createdRows (log ++ [.patched sub.id body]) = createdRows log :=
    createdRows_append.trans (List.append_nil _)
  have hids : deletedIds (log ++ [.patched sub.id body]) = deletedIds log :=
    deletedIds_append.trans (List.append_nil _)
  have hkeep : (commitPatch sub body now rows).map (fun row => row.id) =
      rows.map fun row => row.id := map_updateWhere _ fun _ _ => rfl
  refine ⟨?_, hkeep ▸ h.ids_nodup, fun row' hrow' => ?_, ?_, fun row' hrow' => ?_⟩
  · rw [hcreated, ← h.fixed]
    exact map_updateWhere _ fun _ _ => rfl
  · rw [hids]
    obtain ⟨hrow', _⟩ | ⟨row, hrow, _, rfl⟩ := of_mem_updateWhere hrow'
    · exact h.deleted row' hrow'
    · exact h.deleted row hrow
  · rw [hids, hkeep]
    exact h.deleted_known
  · obtain ⟨hrow', _⟩ | ⟨row, hrow, hid, rfl⟩ := of_mem_updateWhere hrow'
    · exact (h.given row' hrow').append _
    · rw [← hid]
      exact (h.given row hrow).patched hvalid rfl (endpoint_patchRow _ row.toSubscriber body now)
        (isActive_patchRow _ row.toSubscriber body now)

/-- SOURCE: app/api/subscribers.py:111-114 -/
theorem TableInv.snoc_deleted (h : TableInv urlparseError rows log) {sub : SubscriberRow}
    (hsub : sub.deletedAt = none) (hknown : sub.id ∈ rows.map fun row => row.id) (now : Time) :
    TableInv urlparseError (commitDelete sub now rows) (log ++ [.deleted sub.id]) := by
  have hcreated : createdRows (log ++ [.deleted sub.id]) = createdRows log :=
    createdRows_append.trans (List.append_nil _)
  have hids : deletedIds (log ++ [.deleted sub.id]) = deletedIds log ++ [sub.id] :=
    deletedIds_append
  have hkeep : (commitDelete sub now rows).map (fun row => row.id) =
      rows.map fun row => row.id := map_updateWhere _ fun _ _ => rfl
  refine ⟨?_, hkeep ▸ h.ids_nodup, fun row' hrow' => ?_, ?_, fun row' hrow' => ?_⟩
  · rw [hcreated, ← h.fixed]
    exact map_updateWhere _ fun _ _ => rfl
  · rw [hids, List.mem_append, List.mem_singleton]
    obtain ⟨hrow', hother⟩ | ⟨row, hrow, hid, rfl⟩ := of_mem_updateWhere hrow'
    · rw [or_iff_left hother]
      exact h.deleted row' hrow'
    · exact ⟨fun _ => Or.inr hid, fun _ => deletedAt_deleteRow (Or.inl hsub)⟩
  · rw [hids, hkeep]
    intro id hid
    obtain hid | hid := List.mem_append.1 hid
    · exact h.deleted_known hid
    · rwa [List.mem_singleton.1 hid]
  · obtain ⟨hrow', _⟩ | ⟨row, hrow, hid, rfl⟩ := of_mem_updateWhere hrow'
    · exact (h.given row' hrow').append _
    · have hold := (h.given row hrow).append [.deleted sub.id]
      have hmem : row.id ∈ deletedIds (log ++ [.deleted sub.id]) := by simp [hids, hid]
      exact ⟨hold.creation, hold.endpoint, hold.valid, Or.inr (Or.inr hmem)⟩

end

/-! ## The requests and the cache -/

/-- What a request in progress holds. -/
def PatchCallOk (urlparseError : PyStr → Option PyStr) (rows : List SubscriberRow)
    (log : List SubscriberCommit) : PatchCall → Prop
  | .idle | .committed _ => True
  | .selecting q | .loaded q _ => q.body.valid urlparseError = true
  | .refreshed _ row => Given urlparseError log row.response
  | .deleting sub => sub.deletedAt = none ∧ sub.id ∈ rows.map fun row => row.id

structure RegistryInv (urlparseError : PyStr → Option PyStr) (s : SubscriberApi)
    (log : List SubscriberCommit) : Prop where
  table : TableInv urlparseError s.rows log
  call : ∀ r, PatchCallOk urlparseError s.rows log (s.process.calls r)
  cache : ∀ e ∈ s.process.api.cache, Given urlparseError log e.value

section
variable {urlparseError : PyStr → Option PyStr} {s s' : SubscriberApi}
  {log new : List SubscriberCommit}

/-- A PATCH in progress stays consistent when rows and transactions are added. -/
theorem PatchCallOk.later {rows rows' : List SubscriberRow} {x : PatchCall}
    (h : PatchCallOk urlparseError rows log x)
    (hids : (rows.map fun row => row.id) ⊆ rows'.map fun row => row.id)
    (new : List SubscriberCommit) : PatchCallOk urlparseError rows' (log ++ new) x := by
  cases x with
  | refreshed q row => exact Given.append h new
  | deleting sub => exact ⟨h.1, hids h.2⟩
  | _ => exact h

/-- A PATCH in progress is consistent with what it has loaded. -/
theorem RegistryInv.callAt (hinv : RegistryInv urlparseError s log) {r : RequestId} {x : PatchCall}
    (hr : s.process.calls r = x) : PatchCallOk urlparseError s.rows log x := hr ▸ hinv.call r

/-- A row that a request finds shows what was given. -/
theorem RegistryInv.found (hinv : RegistryInv urlparseError s log) {id : Uuid} {row : SubscriberRow}
    (h : refresh id s.rows = some row) : Given urlparseError log row.response :=
  hinv.table.given row (of_lookup_eq_some h).1

/-- What the cache answers was given. SOURCE: app/api/subscribers.py:86-89 -/
theorem RegistryInv.cached (hinv : RegistryInv urlparseError s log) {t : Time} {q : PatchRequest}
    {x : SubscriberResponse} (h : cachedResponse t q s.process.api.cache = some x) :
    Given urlparseError log x := by
  obtain ⟨k, _, hget⟩ := Option.bind_eq_some_iff.1 h
  obtain ⟨e, he, rfl⟩ := Option.map_eq_some_iff.1 hget
  exact hinv.cache e (of_lookup_eq_some (Option.filter_eq_some_iff.1 he).1).1

/-- Request `r` moves to `x`, and may commit and store a response. -/
theorem RegistryInv.move (hinv : RegistryInv urlparseError s log) {p : PatchProcess} {r : RequestId}
    {x : PatchCall} (htable : TableInv urlparseError p.api.subscribers (log ++ new))
    (hids : (p.api.subscribers.map fun row => row.id) = s.rows.map fun row => row.id)
    (hcalls : p.calls = Function.update s.process.calls r x)
    (hx : PatchCallOk urlparseError p.api.subscribers (log ++ new) x)
    (hcache : ∀ e ∈ p.api.cache,
      e ∈ s.process.api.cache ∨ Given urlparseError (log ++ new) e.value) :
    RegistryInv urlparseError { s with process := p } (log ++ new) := by
  refine ⟨htable, fun r' => ?_, fun e he => ?_⟩
  · show PatchCallOk urlparseError p.api.subscribers (log ++ new) (p.calls r')
    rw [hcalls]
    by_cases hr : r' = r
    · rw [hr, Function.update_self]
      exact hx
    · rw [Function.update_of_ne hr]
      exact (hinv.call r').later (hids ▸ List.Subset.refl _) new
  · obtain hold | hgiven := hcache e he
    · exact (hinv.cache e hold).append new
    · exact hgiven

/-- SOURCE: app/api/subscribers.py:78-127 -/
theorem registryInv_request (hinv : RegistryInv urlparseError s log) {a : PatchAction}
    {p : PatchProcess} (ha : rejects urlparseError a = false) (h : PatchStep s.process a p) :
    RegistryInv urlparseError { s with process := p }
      (log ++ commits urlparseError s (.request a)) := by
  have hsame : log ++ [] = log := List.append_nil log
  -- The request goes on without a commit.
  have hquiet : ∀ {r x}, PatchCallOk urlparseError s.rows log x →
      RegistryInv urlparseError { s with process := s.process.setCall r x } (log ++ []) := by
    intro r x hx
    exact hinv.move (hsame.symm ▸ hinv.table) rfl rfl (hsame.symm ▸ hx) fun e he => Or.inl he
  cases h with
  | tick => exact hsame.symm ▸ ⟨hinv.table, hinv.call, hinv.cache⟩
  | answered _ _ => exact hsame.symm ▸ hinv
  | nothing _ _ => exact hsame.symm ▸ hinv
  | started _ _ => exact hquiet (by simpa [rejects, PatchCallOk] using ha)
  | selected hr _ =>
    have hvalid := hinv.callAt hr
    exact hquiet hvalid
  | notFound _ _ => exact hquiet trivial
  | @committed r q sub hr =>
    rw [commits_patched hr]
    exact hinv.move (hinv.table.snoc_patched sub (hinv.callAt hr) s.process.now)
      (map_updateWhere _ fun _ _ => rfl) rfl trivial fun e he => Or.inl he
  | @deleted r sub hr =>
    obtain ⟨hsub, hknown⟩ := hinv.callAt hr
    rw [commits_deleted hr]
    exact hinv.move (hinv.table.snoc_deleted hsub hknown s.process.now)
      (map_updateWhere _ fun _ _ => rfl) rfl trivial fun e he => Or.inl he
  | refreshed _ hl => exact hquiet (hinv.found hl)
  | gone _ _ => exact hquiet trivial
  | finished hr =>
    refine hinv.move (hsame.symm ▸ hinv.table) rfl rfl trivial fun e he => ?_
    obtain ⟨_, _, hvalue⟩ | ⟨hold, _⟩ := mem_cacheResponse_iff.1 he
    · rw [hvalue]
      exact Or.inr (Given.append (hinv.callAt hr) [])
    · exact Or.inl hold
  | deleting _ hl =>
    obtain ⟨hfound, hnone⟩ := Option.filter_eq_some_iff.1 hl
    have hmem := (of_lookup_eq_some hfound).1
    exact hquiet ⟨Option.isNone_iff_eq_none.1 hnone, List.mem_map_of_mem hmem⟩
  | aborted _ => exact hquiet trivial

/-- One step keeps the registry consistent with the log. SOURCE: app/api/subscribers.py:53-127 -/
theorem registryInv_step (hinv : RegistryInv urlparseError s log) {a : SubscriberCall}
    (h : ApiStep urlparseError s a s') :
    RegistryInv urlparseError s' (log ++ commits urlparseError s a) := by
  have hsame : log ++ [] = log := List.append_nil log
  cases h with
  | @inserted r random id body row hr hrow =>
    obtain ⟨rfl, hvalid, hnew⟩ := insertedRow_eq_some hrow
    have hendpoint : (validateHttpUrl urlparseError body.endpoint).isOk = true :=
      (Bool.and_eq_true_iff.1 hvalid).2
    rw [commits_inserted hr hrow]
    refine ⟨hinv.table.snoc_created hnew rfl rfl hendpoint, fun r' => ?_, fun e he => ?_⟩
    · refine (hinv.call r').later ?_ _
      exact fun id' hid' => List.map_append ▸ List.mem_append_left _ hid'
    · exact (hinv.cache e he).append _
  | refused hr hrow =>
    rw [commits_refused hr hrow, hsame]
    exact hinv
  | responded _ => exact hsame.symm ▸ ⟨hinv.table, hinv.call, hinv.cache⟩
  | failed _ => exact hsame.symm ▸ ⟨hinv.table, hinv.call, hinv.cache⟩
  | rejected ha =>
    rw [commits_rejected ha, hsame]
    exact hinv
  | request ha h => exact registryInv_request hinv ha h
  | restarted =>
    exact hsame.symm ▸ ⟨hinv.table, fun _ => trivial, fun _ he => absurd he List.not_mem_nil⟩

end

/-! ## The answers -/

/-- What the answers of POST and PATCH show. -/
def responseOf : SubscriberReply → SubscriberResponse
  | .created response => response.toSubscriberResponse
  | .updated response => response

def createdOf : SubscriberReply → Option SubscriberCreatedResponse
  | .created response => some response
  | .updated _ => none

/-- The answers that show a secret. -/
def createdResponses (sent : List SubscriberReply) : List SubscriberCreatedResponse :=
  sent.filterMap createdOf

/-- A POST that waits for its response has a row, and has not been answered. -/
structure SecretsInv (s : SubscriberApi) (log : List SubscriberCommit)
    (sent : List SubscriberReply) : Prop where
  known : ∀ r id, s.inserted r = some id → id ∈ s.rows.map fun row => row.id
  waiting : ∀ r id, s.inserted r = some id → id ∉ (createdResponses sent).map fun x => x.id
  one : ∀ r r' id, s.inserted r = some id → s.inserted r' = some id → r = r'
  once : ((createdResponses sent).map fun x => x.id).Nodup
  sent_known : ∀ x ∈ createdResponses sent, x.id ∈ s.rows.map fun row => row.id
  secret : ∀ x ∈ createdResponses sent, ∃ row ∈ createdRows log,
    identity row.response = identity x.toSubscriberResponse ∧ row.secret = x.secret

section
variable {urlparseError : PyStr → Option PyStr} {s s' : SubscriberApi}
  {log new : List SubscriberCommit} {sent : List SubscriberReply} {a : SubscriberCall}

/-- SOURCE: app/api/subscribers.py:61-62,87-89,98-104 -/
theorem given_of_mem_replies (hinv : RegistryInv urlparseError s log) {reply : SubscriberReply}
    (h : reply ∈ replies urlparseError s a) : Given urlparseError log (responseOf reply) := by
  unfold replies at h
  split at h
  · obtain ⟨row, hrow, rfl⟩ := Option.map_eq_some_iff.1 (Option.mem_toList.1 h)
    obtain ⟨id, _, hfound⟩ := Option.bind_eq_some_iff.1 hrow
    exact hinv.found hfound
  · split at h
    · split at h
      · cases h
      · obtain ⟨x, hx, rfl⟩ := Option.map_eq_some_iff.1 (Option.mem_toList.1 h)
        exact hinv.cached hx
    · cases h
  · split at h
    · rename_i hr
      rw [List.mem_singleton.1 h]
      exact hinv.callAt hr
    · cases h
  · cases h

/-- A row has the secret that it was created with. -/
theorem TableInv.exists_created {rows : List SubscriberRow} (h : TableInv urlparseError rows log)
    {row : SubscriberRow} (hrow : row ∈ rows) : ∃ row₀ ∈ createdRows log,
      identity row₀.response = identity row.response ∧ row₀.secret = row.secret := by
  have hmem : fixedColumns row ∈ (createdRows log).map fixedColumns :=
    h.fixed ▸ List.mem_map_of_mem hrow
  obtain ⟨row₀, hrow₀, heq⟩ := List.mem_map.1 hmem
  obtain ⟨hid, hname, hsecret, hcreated⟩ : row₀.id = row.id ∧ row₀.name = row.name ∧
      row₀.secret = row.secret ∧ row₀.createdAt = row.createdAt := by
    simpa [fixedColumns] using heq
  exact ⟨row₀, hrow₀, by simp [identity, SubscriberRow.response, hid, hname, hcreated], hsecret⟩

/-- No request removes a row. -/
theorem ids_of_patchStep {p : PatchProcess} {b : PatchAction} (h : PatchStep s.process b p) :
    (p.api.subscribers.map fun row => row.id) = s.rows.map fun row => row.id := rowIds_of_step h

/-- A step that neither inserts a row nor ends a POST. -/
theorem SecretsInv.keep (hinv : SecretsInv s log sent) (hinserted : s'.inserted = s.inserted)
    (hids : (s'.rows.map fun row => row.id) = s.rows.map fun row => row.id)
    (new : List SubscriberCommit) {replied : List SubscriberReply}
    (hreplied : createdResponses replied = []) :
    SecretsInv s' (log ++ new) (sent ++ replied) := by
  have hsent : createdResponses (sent ++ replied) = createdResponses sent := by
    rw [createdResponses, List.filterMap_append]
    exact (congrArg _ hreplied).trans (List.append_nil _)
  refine ⟨?_, ?_, ?_, ?_, ?_, ?_⟩
  · rw [hinserted, hids]
    exact hinv.known
  · rw [hinserted, hsent]
    exact hinv.waiting
  · rw [hinserted]
    exact hinv.one
  · rw [hsent]
    exact hinv.once
  · rw [hsent, hids]
    exact hinv.sent_known
  · rw [hsent]
    intro x hx
    obtain ⟨row, hrow, heq⟩ := hinv.secret x hx
    exact ⟨row, createdRows_append ▸ List.mem_append_left _ hrow, heq⟩

/-- A call that has answered is no longer between its INSERT and its answer. -/
theorem of_inserted_endCreate {r r' : RequestId} {id : Uuid}
    (h : (s.endCreate r).inserted r' = some id) : r' ≠ r ∧ s.inserted r' = some id := by
  rw [SubscriberApi.endCreate_inserted] at h
  by_cases hr : r' = r
  · rw [hr, Function.update_self] at h
    cases h
  · rw [Function.update_of_ne hr] at h
    exact ⟨hr, h⟩

/-- A POST ends without an answer. -/
theorem SecretsInv.dropped (hinv : SecretsInv s log sent) (r : RequestId) :
    SecretsInv (s.endCreate r) log sent where
  known r' id h := hinv.known r' id (of_inserted_endCreate h).2
  waiting r' id h := hinv.waiting r' id (of_inserted_endCreate h).2
  one r' r'' id h h' :=
    hinv.one r' r'' id (of_inserted_endCreate h).2 (of_inserted_endCreate h').2
  once := hinv.once
  sent_known := hinv.sent_known
  secret := hinv.secret

/-- A POST ends with its answer, the only one that shows the secret.
SOURCE: app/api/subscribers.py:61-62 -/
theorem SecretsInv.answered (hinv : SecretsInv s log sent) {r : RequestId}
    {x : SubscriberCreatedResponse} (hr : s.inserted r = some x.id)
    (hx : ∃ row ∈ createdRows log,
      identity row.response = identity x.toSubscriberResponse ∧ row.secret = x.secret) :
    SecretsInv (s.endCreate r) log (sent ++ [.created x]) := by
  have hsent : createdResponses (sent ++ [.created x]) = createdResponses sent ++ [x] :=
    List.filterMap_append
  have hdropped := hinv.dropped r
  refine ⟨hdropped.known, fun r' id h => ?_, hdropped.one, ?_, fun y hy => ?_, fun y hy => ?_⟩
  · obtain ⟨hne, h⟩ := of_inserted_endCreate h
    rw [hsent, List.map_append, List.mem_append, List.map_singleton, List.mem_singleton]
    rintro (hid | rfl)
    · exact hinv.waiting r' id h hid
    · exact hne (hinv.one r' r _ h hr)
  · rw [hsent, List.map_append]
    exact hinv.once.append (List.nodup_singleton _)
      (List.disjoint_singleton.2 (hinv.waiting r x.id hr))
  · rw [hsent] at hy
    obtain hy | hy := List.mem_append.1 hy
    · exact hinv.sent_known y hy
    · rw [List.mem_singleton.1 hy]
      exact hinv.known r x.id hr
  · rw [hsent] at hy
    obtain hy | hy := List.mem_append.1 hy
    · exact hinv.secret y hy
    · rw [List.mem_singleton.1 hy]
      exact hx

/-- A POST has inserted its row. SOURCE: app/api/subscribers.py:57-60 -/
theorem SecretsInv.inserted (hinv : SecretsInv s log sent) {row : SubscriberRow}
    (hnew : row.id ∉ s.rows.map fun row => row.id) (r : RequestId) :
    SecretsInv (s.insertRow r row) (log ++ [.created row]) sent := by
  have hids : ((s.insertRow r row).rows.map fun row => row.id) =
      (s.rows.map fun row => row.id) ++ [row.id] := by simp
  -- The id of a POST that waits is an old one, or it is that of the new row.
  have hwaits : ∀ r' id, (s.insertRow r row).inserted r' = some id →
      r' = r ∧ id = row.id ∨ r' ≠ r ∧ s.inserted r' = some id := by
    intro r' id h
    rw [SubscriberApi.insertRow_inserted] at h
    by_cases hr : r' = r
    · rw [hr, Function.update_self] at h
      exact Or.inl ⟨hr, (Option.some.inj h).symm⟩
    · rw [Function.update_of_ne hr] at h
      exact Or.inr ⟨hr, h⟩
  refine ⟨fun r' id h => ?_, fun r' id h => ?_, fun r' r'' id h h' => ?_, hinv.once,
    fun x hx => ?_, fun x hx => ?_⟩
  · rw [hids, List.mem_append, List.mem_singleton]
    exact (hwaits r' id h).symm.imp (fun h => hinv.known r' id h.2) fun h => h.2
  · obtain ⟨_, rfl⟩ | ⟨_, h⟩ := hwaits r' id h
    · intro hid
      obtain ⟨x, hx, heq⟩ := List.mem_map.1 hid
      exact hnew (heq ▸ hinv.sent_known x hx)
    · exact hinv.waiting r' id h
  · obtain ⟨hr, rfl⟩ | ⟨_, h⟩ := hwaits r' id h <;>
      obtain ⟨hr', heq⟩ | ⟨_, h'⟩ := hwaits r'' _ h'
    · rw [hr, hr']
    · exact absurd (hinv.known r'' _ h') hnew
    · exact absurd (heq ▸ hinv.known r' _ h) hnew
    · exact hinv.one r' r'' id h h'
  · rw [hids]
    exact List.mem_append_left _ (hinv.sent_known x hx)
  · obtain ⟨row', hrow', heq⟩ := hinv.secret x hx
    exact ⟨row', createdRows_append ▸ List.mem_append_left _ hrow', heq⟩

/-- The cache has only answers that were given before. -/
def CacheSent (s : SubscriberApi) (sent : List SubscriberReply) : Prop :=
  ∀ e ∈ s.process.api.cache, SubscriberReply.updated e.value ∈ sent

/-- A response is cached when it is returned. SOURCE: app/api/subscribers.py:98-104 -/
theorem cacheSent_step (hinv : CacheSent s sent) (h : ApiStep urlparseError s a s') :
    CacheSent s' (sent ++ replies urlparseError s a) := by
  have hkeep : s'.process.api.cache = s.process.api.cache →
      CacheSent s' (sent ++ replies urlparseError s a) :=
    fun heq e he => List.mem_append_left _ (hinv e (heq ▸ he))
  cases h with
  | restarted => exact fun e he => absurd he List.not_mem_nil
  | request _ h =>
    cases h with
    | @finished r q row hr =>
      intro e he
      obtain ⟨_, _, hvalue⟩ | ⟨hold, _⟩ := mem_cacheResponse_iff.1 he
      · refine List.mem_append_right _ ?_
        rw [replies, hr, hvalue]
        exact List.mem_singleton_self _
      · exact List.mem_append_left _ (hinv e hold)
    | _ => exact hkeep rfl
  | _ => exact hkeep rfl

/-- What a PATCH is answered from the cache was answered before.
SOURCE: app/api/subscribers.py:33-37,86-89 -/
theorem CacheSent.cached (hinv : CacheSent s sent) {t : Time} {q : PatchRequest}
    {x : SubscriberResponse} (h : cachedResponse t q s.process.api.cache = some x) :
    SubscriberReply.updated x ∈ sent := by
  obtain ⟨k, _, hget⟩ := Option.bind_eq_some_iff.1 h
  obtain ⟨e, he, rfl⟩ := Option.map_eq_some_iff.1 hget
  exact hinv e (of_lookup_eq_some (Option.filter_eq_some_iff.1 he).1).1

/-- A PATCH or DELETE shows no secret. SOURCE: app/schemas/subscriber.py:44-55 -/
theorem createdResponses_request (b : PatchAction) :
    createdResponses (replies urlparseError s (.request b)) = [] := by
  refine List.filterMap_eq_nil_iff.2 fun reply h => ?_
  unfold replies at h
  split at h
  · contradiction
  · split at h
    · split at h
      · cases h
      · obtain ⟨x, _, rfl⟩ := Option.map_eq_some_iff.1 (Option.mem_toList.1 h)
        rfl
    · cases h
  · split at h
    · rw [List.mem_singleton.1 h]
      rfl
    · cases h
  · cases h

/-- One step keeps that a secret is shown once. SOURCE: app/api/subscribers.py:50-59 -/
theorem secretsInv_step (htable : TableInv urlparseError s.rows log)
    (hinv : SecretsInv s log sent) (h : ApiStep urlparseError s a s') :
    SecretsInv s' (log ++ commits urlparseError s a) (sent ++ replies urlparseError s a) := by
  cases h with
  | @inserted r random id body row hr hrow =>
    obtain ⟨rfl, _, hnew⟩ := insertedRow_eq_some hrow
    rw [commits_inserted hr hrow, show replies urlparseError s (.insert r random id body) = [] from rfl,
      List.append_nil]
    exact hinv.inserted hnew r
  | refused _ _ => exact hinv.keep rfl rfl _ rfl
  | @responded r id hr =>
    obtain ⟨row, hfound⟩ := Option.isSome_iff_exists.1 (isSome_lookup_iff.2 (hinv.known r id hr))
    obtain ⟨hrow, rfl⟩ := of_lookup_eq_some hfound
    have hreply : replies urlparseError s (.respond r) =
        [.created ⟨row.response, row.secret⟩] := by
      rw [replies, hr, Option.bind_some, refresh, hfound]
      rfl
    rw [hreply, show commits urlparseError s (.respond r) = [] from rfl, List.append_nil]
    exact hinv.answered hr (htable.exists_created hrow)
  | @failed r _ _ =>
    show SecretsInv _ (log ++ []) (sent ++ [])
    rw [List.append_nil, List.append_nil]
    exact hinv.dropped r
  | rejected _ => exact hinv.keep rfl rfl _ (createdResponses_request _)
  | request _ h =>
    refine hinv.keep ?_ ?_ _ (createdResponses_request _)
    · rfl
    · exact ids_of_patchStep h
  | restarted =>
    show SecretsInv _ (log ++ []) (sent ++ [])
    rw [List.append_nil, List.append_nil]
    refine ⟨fun _ _ hr => ?_, fun _ _ hr => ?_, fun _ _ _ hr => ?_, hinv.once, hinv.sent_known,
      hinv.secret⟩
    · cases hr
    · cases hr
    · cases hr

end

/-! ## What is shown -/

/-- The transactions that a run has committed. -/
def commitLog (urlparseError : PyStr → Option PyStr) (now : Time) (as : List SubscriberCall) :
    List SubscriberCommit :=
  history (subscriberApi urlparseError) (commits urlparseError) (.start now) as

/-- The answers that a run has given. -/
def replyLog (urlparseError : PyStr → Option PyStr) (now : Time) (as : List SubscriberCall) :
    List SubscriberReply :=
  history (subscriberApi urlparseError) (replies urlparseError) (.start now) as

/-- What the endpoints show in a state, and what they have shown on the way to it. -/
structure RegistryShown (urlparseError : PyStr → Option PyStr) (s : SubscriberApi)
    (log : List SubscriberCommit) (sent : List SubscriberReply) : Prop where
  /-- a list shows those who were created and not deleted, each of them once, in the order of
  their creation -/
  lists : ∃ response, ListsSubscribers s.rows response
  listed : ∀ response, ListsSubscribers s.rows response →
    response.Pairwise (fun x y => x.createdAt ≤ y.createdAt) ∧
    (response.map identity).Perm ((liveRows log).map fun row => identity row.response) ∧
    ∀ x ∈ response, Given urlparseError log x
  /-- GET and DELETE find the same subscribers, and answer with 404 for all others -/
  found : ∀ id, (getRowOr404 id s.rows).isSome = true ↔ id ∈ (liveRows log).map fun row => row.id
  /-- a PATCH is answered from the cache whatever its subscriber is, also when that was deleted or
  never created, and with an answer that a PATCH was given before -/
  cached : ∀ q lookupAt x, cachedResponse lookupAt q s.process.api.cache = some x →
    SubscriberReply.updated x ∈ sent ∧
      ∀ now storedAt, (updateSubscriber lookupAt now storedAt q s.process.api).1 = .cached x
  /-- a PATCH that the cache does not answer is answered with 404 just when its subscriber is not
  there -/
  missing : ∀ q lookupAt now storedAt,
    (updateSubscriber lookupAt now storedAt q s.process.api).1 = .notFound ↔
      cachedResponse lookupAt q s.process.api.cache = none ∧
        q.id ∉ (liveRows log).map fun row => row.id
  got : ∀ id x, getSubscriber id s.rows = some x → x.id = id ∧ Given urlparseError log x
  /-- every answer of POST and PATCH shows what was given, also one from the cache -/
  replied : ∀ reply ∈ sent, Given urlparseError log (responseOf reply)
  /-- the secret of a subscriber is shown once, and is the one that the row was created with -/
  secret_once : ((createdResponses sent).map fun x => x.id).Nodup
  secret : ∀ x ∈ createdResponses sent, ∃ row ∈ createdRows log,
    identity row.response = identity x.toSubscriberResponse ∧ row.secret = x.secret

section
variable {urlparseError : PyStr → Option PyStr} {s : SubscriberApi} {now : Time}
  {log : List SubscriberCommit} {rows : List SubscriberRow} {as : List SubscriberCall}

/-- The rows that are not deleted are those of the subscribers that are there. -/
theorem TableInv.fixed_live (h : TableInv urlparseError rows log) :
    (rows.filter fun row => row.deletedAt.isNone).map fixedColumns =
      (liveRows log).map fixedColumns := by
  have hrows : (rows.filter fun row => row.deletedAt.isNone) =
      rows.filter fun row => !(deletedIds log).contains (fixedColumns row).1 := by
    refine List.filter_congr fun row hrow => ?_
    have hdeleted := h.deleted row hrow
    cases hd : row.deletedAt with
    | none => simpa [hd, fixedColumns] using hdeleted
    | some _ => simpa [hd, fixedColumns] using hdeleted
  have hfilter : ∀ t : List SubscriberRow,
      (t.filter fun row => !(deletedIds log).contains (fixedColumns row).1).map fixedColumns =
        (t.map fixedColumns).filter fun c => !(deletedIds log).contains c.1 := by
    intro t
    rw [List.filter_map]
    rfl
  rw [hrows, hfilter, h.fixed]
  exact (hfilter _).symm

/-- The SELECT finds those who were created and not deleted. SOURCE: app/api/subscribers.py:117-127
-/
theorem TableInv.isSome_getRowOr404 (h : TableInv urlparseError rows log) (id : Uuid) :
    (getRowOr404 id rows).isSome = true ↔ id ∈ (liveRows log).map fun row => row.id := by
  have hids : (rows.filter fun row => row.deletedAt.isNone).map (fun row => row.id) =
      (liveRows log).map fun row => row.id := by
    have hfst := congrArg (List.map Prod.fst) h.fixed_live
    rwa [List.map_map, List.map_map] at hfst
  rw [← hids, Option.isSome_iff_exists, List.mem_map]
  constructor
  · rintro ⟨row, hrow⟩
    obtain ⟨hl, hlive⟩ := Option.filter_eq_some_iff.1 hrow
    obtain ⟨hmem, hid⟩ := of_lookup_eq_some hl
    exact ⟨row, List.mem_filter.2 ⟨hmem, hlive⟩, hid⟩
  · rintro ⟨row, hrow, rfl⟩
    obtain ⟨hmem, hlive⟩ := List.mem_filter.1 hrow
    exact ⟨row, Option.filter_eq_some_iff.2 ⟨lookup_of_mem h.ids_nodup hmem, hlive⟩⟩

/-- An empty table is that of an empty log. -/
theorem tableInv_nil : TableInv urlparseError [] [] :=
  ⟨rfl, List.nodup_nil, nofun, fun _ h => h, nofun⟩

/-- The invariants of a run. -/
theorem registryInv_of_run (h : run (subscriberApi urlparseError) (.start now) as = some s) :
    RegistryInv urlparseError s (commitLog urlparseError now as) ∧
      SecretsInv s (commitLog urlparseError now as) (replyLog urlparseError now as) ∧
      CacheSent s (replyLog urlparseError now as) ∧
      ∀ reply ∈ replyLog urlparseError now as,
        Given urlparseError (commitLog urlparseError now as) (responseOf reply) := by
  refine run_induct (I := fun as s => RegistryInv urlparseError s (commitLog urlparseError now as) ∧
    SecretsInv s (commitLog urlparseError now as) (replyLog urlparseError now as) ∧
    CacheSent s (replyLog urlparseError now as) ∧
    ∀ reply ∈ replyLog urlparseError now as,
      Given urlparseError (commitLog urlparseError now as) (responseOf reply)) ?_ ?_ h
  · exact ⟨⟨tableInv_nil, fun _ => trivial, nofun⟩,
      ⟨nofun, nofun, nofun, List.nodup_nil, nofun, nofun⟩, nofun, nofun⟩
  · rintro as s a s' hrun ⟨hinv, hsecrets, hcache, hreplied⟩ hs
    have hstep := apiStep_of_eq_some hs
    rw [commitLog, replyLog, history_snoc hrun, history_snoc hrun]
    refine ⟨registryInv_step hinv hstep, secretsInv_step hinv.table hsecrets hstep,
      cacheSent_step hcache hstep, fun reply hreply => ?_⟩
    obtain hreply | hreply := List.mem_append.1 hreply
    · exact (hreplied reply hreply).append _
    · exact (given_of_mem_replies hinv hreply).append _

/-- In every run of the subscriber endpoints, whatever requests overlap, are lost or die with
their process, the answers are those of a registry: a list shows exactly the subscribers that were
created and not deleted, the others are answered with 404, except for a PATCH that is answered from
the cache, everything that is shown, also from the cache, was given by a committed request for the
same subscriber, and a secret is shown once.
SOURCE: app/api/subscribers.py:28-127, app/schemas/subscriber.py:11-55 -/
theorem registry_shown (urlparseError : PyStr → Option PyStr) (now : Time)
    (as : List SubscriberCall) (s : SubscriberApi)
    (h : run (subscriberApi urlparseError) (.start now) as = some s) :
    RegistryShown urlparseError s (commitLog urlparseError now as)
      (replyLog urlparseError now as) := by
  obtain ⟨hinv, hsecrets, hcache, hreplied⟩ := registryInv_of_run h
  have htable := hinv.table
  obtain ⟨ordered, hordered⟩ := exists_isOrdered SubscriberRow.createdAt
    (s.rows.filter fun row => row.deletedAt.isNone)
  refine ⟨⟨_, ordered, hordered, rfl⟩, ?_, htable.isSome_getRowOr404,
    fun q lookupAt x hx => ⟨hcache.cached hx, fun now storedAt => ?_⟩,
    fun q lookupAt now storedAt => ?_, fun id x hx => ?_, hreplied, hsecrets.once,
    hsecrets.secret⟩
  · rintro _ ⟨ordered, hordered, rfl⟩
    refine ⟨List.pairwise_map.2 hordered.sorted, ?_, fun x hx => ?_⟩
    · have hfixed := (hordered.perm.map fixedColumns).trans (List.Perm.of_eq htable.fixed_live)
      have hshown := hfixed.map fun c => (c.1, c.2.1, c.2.2.2)
      rw [List.map_map, List.map_map] at hshown
      rw [List.map_map]
      exact hshown
    · obtain ⟨row, hrow, rfl⟩ := List.mem_map.1 hx
      exact htable.given row (List.mem_filter.1 (hordered.perm.subset hrow)).1
  · rw [updateSubscriber_of_cached now storedAt hx]
  · have hfound := htable.isSome_getRowOr404 q.id
    obtain ⟨x, hx, heq⟩ | ⟨hmiss, ⟨hnone, heq⟩ | ⟨_, hsub, _, heq⟩⟩ :=
      updateSubscriber_cases lookupAt now storedAt q s.process.api
    · rw [heq, hx]
      simp
    · rw [heq, hmiss, ← hfound, SubscriberApi.rows, hnone]
      simp
    · rw [heq, hmiss, ← hfound, SubscriberApi.rows, hsub]
      simp
  · obtain ⟨row, hrow, rfl⟩ := Option.map_eq_some_iff.1 hx
    obtain ⟨hl, _⟩ := Option.filter_eq_some_iff.1 hrow
    obtain ⟨hmem, hid⟩ := of_lookup_eq_some hl
    exact ⟨hid, htable.given row hmem⟩

end

def patchRequest (id : Uuid) (endpoint : PyStr) (key : Option PyStr) : PatchRequest :=
  ⟨id, ⟨some endpoint, none⟩, key⟩

/-- Two subscribers; the first one is deleted while a PATCH has loaded it, the PATCH commits and is
answered, and the same request is answered from the cache. -/
def deletedWhilePatched : List SubscriberCall :=
  [.insert 0 [0xaf] ⟨1⟩ ⟨py "a", py "http://a"⟩, .respond 0,
    .insert 0 [0xb0] ⟨2⟩ ⟨py "b", py "http://b"⟩, .fail 0] ++
  [.start 1 (patchRequest ⟨1⟩ (py "http://c") (some (py "k"))), .select 1, .delete 2 ⟨1⟩,
    .commit 2, .commit 1, .refresh 1, .finish 1,
    .start 1 (patchRequest ⟨1⟩ (py "http://c") (some (py "k")))].map .request

theorem deletedWhilePatched_enabled :
    (run (subscriberApi fun _ => none) (.start 0) deletedWhilePatched).isSome = true := by decide

/-- The registry is shown at this history too, whose last answer is a cached one.
SOURCE: app/api/subscribers.py:86-113 -/
theorem registry_shown_deletedWhilePatched : RegistryShown (fun _ => none)
    ((run (subscriberApi fun _ => none) (.start 0) deletedWhilePatched).get
      deletedWhilePatched_enabled)
    (commitLog (fun _ => none) 0 deletedWhilePatched)
    (replyLog (fun _ => none) 0 deletedWhilePatched) :=
  registry_shown (fun _ => none) 0 deletedWhilePatched _
    (Option.some_get deletedWhilePatched_enabled).symm

end EventPipeline.Analysis
