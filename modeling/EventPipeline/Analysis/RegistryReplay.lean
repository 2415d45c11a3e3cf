import EventPipeline.Analysis.SubscriberRegistry

/-!
# Writes that do not overlap

An overlapping PATCH writes only the columns that differ from what it has loaded, so two of them
can leave a row that no order of the two gives. Where no request writes a row between another
request's SELECT and its commit, the table is what the transactions give one after the other, and
every reader sees the last value that was written.
-/

set_option autoImplicit false

namespace EventPipeline.Analysis

open EventPipeline.Model EventPipeline.Program EventPipeline.Interface EventPipeline.Computation

/-! ## One transaction after the other -/

/-- A subscriber in a registry whose requests do not overlap. The times are left out: it has no
`updated_at`, and of a deletion it keeps only that there was one. -/
structure Profile where
  response : SubscriberResponse
  secret : PyStr
  deleted : Bool

/-- The columns of a row without `updated_at` and without the time in `deleted_at`.
SOURCE: app/db/models.py:28-41 -/
def profileOf (row : SubscriberRow) : Profile := ⟨row.response, row.secret, row.deletedAt.isSome⟩

def Profile.id (p : Profile) : Uuid := p.response.id

def Profile.patch (body : SubscriberUpdate) (p : Profile) : Profile :=
  { p with response := { p.response with
      endpoint := body.endpoint.getD p.response.endpoint
      isActive := body.isActive.getD p.response.isActive } }

def Profile.delete (p : Profile) : Profile :=
  { p with response := { p.response with isActive := false }, deleted := true }

def applyCommit (profiles : List Profile) : SubscriberCommit → List Profile
  | .created row => profiles ++ [profileOf row]
  | .patched id body => updateWhere (fun p => p.id = id) (Profile.patch body) profiles
  | .deleted id => updateWhere (fun p => p.id = id) Profile.delete profiles

/-- The registry after the transactions of the log, one after the other. -/
def replay (log : List SubscriberCommit) : List Profile := log.foldl applyCommit []

/-- Nobody has written the row since it was loaded as `sub`. -/
def AsLoaded (sub : SubscriberRow) (rows : List SubscriberRow) : Prop :=
  ∀ row ∈ rows, row.id = sub.id → row.endpoint = sub.endpoint ∧ row.isActive = sub.isActive ∧
    row.deletedAt = sub.deletedAt

instance decidableAsLoaded (sub : SubscriberRow) (rows : List SubscriberRow) :
    Decidable (AsLoaded sub rows) :=
  inferInstanceAs (Decidable (∀ row ∈ rows, row.id = sub.id → row.endpoint = sub.endpoint ∧
    row.isActive = sub.isActive ∧ row.deletedAt = sub.deletedAt))

/-- The call commits what it has loaded and changed, or it is no commit of a PATCH or DELETE. -/
def UndisturbedCall (rows : List SubscriberRow) : PatchCall → Prop
  | .loaded _ sub | .deleting sub => AsLoaded sub rows
  | _ => True

instance decidableUndisturbedCall (rows : List SubscriberRow) :
    DecidablePred (UndisturbedCall rows)
  | .loaded _ sub | .deleting sub => inferInstanceAs (Decidable (AsLoaded sub rows))
  | .idle | .selecting _ | .committed _ | .refreshed _ _ => inferInstanceAs (Decidable True)

/-- No request is committed over the write of another one. -/
def Undisturbed (s : SubscriberApi) : SubscriberCall → Prop
  | .request (.commit r) => UndisturbedCall s.rows (s.process.calls r)
  | _ => True

instance decidableUndisturbed (s : SubscriberApi) : DecidablePred (Undisturbed s)
  | .request (.commit r) =>
    inferInstanceAs (Decidable (UndisturbedCall s.rows (s.process.calls r)))
  | .request (.tick _) | .request (.start _ _) | .request (.select _) | .request (.refresh _)
  | .request (.finish _) | .request (.delete _ _) | .request (.abort _) | .insert _ _ _ _
  | .respond _ | .fail _ | .restart => inferInstanceAs (Decidable True)

section
variable {urlparseError : PyStr → Option PyStr} {s s' : SubscriberApi} {now : Time}
  {log : List SubscriberCommit} {rows : List SubscriberRow} {as : List SubscriberCall}

/-- SOURCE: app/api/subscribers.py:91-97 -/
theorem profile_commitPatch {sub : SubscriberRow} (hsub : AsLoaded sub rows)
    (body : SubscriberUpdate) (now : Time) :
    (commitPatch sub body now rows).map profileOf =
      applyCommit (rows.map profileOf) (.patched sub.id body) := by
  refine map_updateWhere_comm_of_mem profileOf (fun _ => Iff.rfl) fun row hrow hid => ?_
  obtain ⟨hendpoint, hactive, _⟩ := hsub row hrow hid
  simp only [profileOf, SubscriberRow.response, Profile.patch, endpoint_patchRow_eq hendpoint,
    isActive_patchRow_eq hactive]
  rfl

/-- SOURCE: app/api/subscribers.py:111-114 -/
theorem profile_commitDelete {sub : SubscriberRow} (hsub : AsLoaded sub rows) (now : Time) :
    (commitDelete sub now rows).map profileOf =
      applyCommit (rows.map profileOf) (.deleted sub.id) := by
  refine map_updateWhere_comm_of_mem profileOf (fun _ => Iff.rfl) fun row hrow hid => ?_
  obtain ⟨_, hactive, hdeleted⟩ := hsub row hrow hid
  have ha : (deleteRow sub.toSubscriber now row.toSubscriber).isActive = false := by
    unfold deleteRow
    exact hactive ▸ flushColumn_loaded _ _
  have hd : (deleteRow sub.toSubscriber now row.toSubscriber).deletedAt = some now := by
    unfold deleteRow
    exact hdeleted ▸ flushColumn_loaded _ _
  simp only [profileOf, SubscriberRow.response, Profile.delete, ha, hd]
  rfl

/-- Two PATCHes that have loaded the same row and change one column each: the row has the
`endpoint` of the first one and the `is_active` of the second one, which neither order gives.
SOURCE: app/api/subscribers.py:91-97 -/
theorem overlapping_patches {row : Subscriber} {e : PyStr} (he : e ≠ row.endpoint)
    (hactive : row.isActive = true) (now now' : Time) :
    let first : SubscriberUpdate := ⟨some e, some true⟩
    let second : SubscriberUpdate := ⟨some row.endpoint, some false⟩
    let row₁ := patchRow row first now row
    let row₂ := patchRow row second now row
    ((patchRow row second now' row₁).endpoint, (patchRow row second now' row₁).isActive) =
      (e, false) ∧
    ((patchRow row₁ second now' row₁).endpoint, (patchRow row₁ second now' row₁).isActive) =
      (row.endpoint, false) ∧
    ((patchRow row₂ first now' row₂).endpoint, (patchRow row₂ first now' row₂).isActive) =
      (e, true) := by
  simp [patchRow, flushColumn, hactive, he, he.symm]

/-- One more transaction that finds its row as it was loaded. -/
theorem replay_step (hreplay : s.rows.map profileOf = replay log) {a : SubscriberCall}
    (ha : Undisturbed s a) (h : ApiStep urlparseError s a s') :
    s'.rows.map profileOf = replay (log ++ commits urlparseError s a) := by
  have hsnoc : ∀ c, replay (log ++ [c]) = applyCommit (replay log) c := fun c => by
    rw [replay, List.foldl_append]
    rfl
  have hsame : commits urlparseError s a = [] → s'.rows = s.rows →
      s'.rows.map profileOf = replay (log ++ commits urlparseError s a) := by
    intro hlog hrows
    rw [hlog, List.append_nil, hrows]
    exact hreplay
  cases h with
  | inserted hr hrow =>
    rw [commits_inserted hr hrow, hsnoc, ← hreplay, SubscriberApi.insertRow_rows, List.map_append]
    rfl
  | refused hr hrow => exact hsame (commits_refused hr hrow) rfl
  | responded _ => exact hsame rfl rfl
  | failed _ => exact hsame rfl rfl
  | restarted => exact hsame rfl rfl
  | rejected hb => exact hsame (commits_rejected hb) rfl
  | request _ h =>
    cases h with
    | @committed r q sub hr =>
      have hsub : AsLoaded sub s.rows := by
        rw [Undisturbed, hr] at ha
        exact ha
      rw [commits_patched hr, hsnoc, ← hreplay]
      exact profile_commitPatch hsub q.body s.process.now
    | @deleted r sub hr =>
      have hsub : AsLoaded sub s.rows := by
        rw [Undisturbed, hr] at ha
        exact ha
      rw [commits_deleted hr, hsnoc, ← hreplay]
      exact profile_commitDelete hsub s.process.now
    | _ => exact hsame rfl rfl

/-- In a run in which no request commits over the write of another one, the table is what the
transactions give one after the other, and so are the answers of GET: each shows the last value
that was written. SOURCE: app/api/subscribers.py:53-127 -/
theorem registry_replays (urlparseError : PyStr → Option PyStr) (now : Time)
    (as : List SubscriberCall) (s : SubscriberApi)
    (h : run (subscriberApi urlparseError) (.start now) as = some s)
    (hundisturbed : Meets (subscriberApi urlparseError) Undisturbed (.start now) as) :
    s.rows.map profileOf = replay (commitLog urlparseError now as) ∧
      (∀ response, ListsSubscribers s.rows response → response.Perm
        (((replay (commitLog urlparseError now as)).filter fun p => !p.deleted).map
          Profile.response)) ∧
      ∀ id, getSubscriber id s.rows =
        ((lookup Profile.id id (replay (commitLog urlparseError now as))).filter
          fun p => !p.deleted).map Profile.response := by
  have hreplay : s.rows.map profileOf = replay (commitLog urlparseError now as) := by
    refine history_induct_if (I := fun s log => s.rows.map profileOf = replay log) rfl ?_ h
      hundisturbed
    exact fun s log a s' _ hreplay ha hs => replay_step hreplay ha (apiStep_of_eq_some hs)
  have hlive : ∀ row : SubscriberRow, (!(profileOf row).deleted) = row.deletedAt.isNone :=
    fun row => Option.not_isSome row.deletedAt
  refine ⟨hreplay, ?_, fun id => ?_⟩
  · rintro _ ⟨ordered, hordered, rfl⟩
    rw [← hreplay, List.filter_map, List.map_map]
    refine (hordered.perm.map SubscriberRow.response).trans (List.Perm.of_eq ?_)
    exact congrArg _ (List.filter_congr fun row _ => (hlive row).symm)
  · rw [← hreplay, lookup_map, getSubscriber, getRowOr404]
    show _ = (((lookup (fun row => row.id) id s.rows).map profileOf).filter _).map _
    cases lookup (fun row : SubscriberRow => row.id) id s.rows with
    | none => rfl
    | some row =>
      rw [Option.map_some, Option.filter_some, Option.filter_some, hlive]
      split <;> rfl

end

/-- A PATCH, a DELETE of another subscriber in between, and a second PATCH. -/
def patchedTwice : List SubscriberCall :=
  [.insert 0 [0xaf] ⟨1⟩ ⟨py "a", py "http://a"⟩, .respond 0,
    .insert 0 [0xb0] ⟨2⟩ ⟨py "b", py "http://b"⟩, .respond 0] ++
  [.start 1 (patchRequest ⟨1⟩ (py "http://c") none), .select 1, .delete 2 ⟨2⟩, .commit 2,
    .commit 1, .start 2 (patchRequest ⟨1⟩ (py "http://d") none), .select 2, .commit 2].map .request

theorem patchedTwice_enabled :
    (run (subscriberApi fun _ => none) (.start 0) patchedTwice).isSome = true := by decide

/-- GET then shows the replayed subscriber with the second patch.
SOURCE: app/api/subscribers.py:70-75 -/
theorem registry_replays_patchedTwice :
    getSubscriber ⟨1⟩ ((run (subscriberApi fun _ => none) (.start 0) patchedTwice).get
        patchedTwice_enabled).rows =
      ((lookup Profile.id ⟨1⟩ (replay (commitLog (fun _ => none) 0 patchedTwice))).filter
        fun p => !p.deleted).map Profile.response :=
  (registry_replays (fun _ => none) 0 patchedTwice _ (Option.some_get patchedTwice_enabled).symm
    (by decide)).2.2 ⟨1⟩

end EventPipeline.Analysis
