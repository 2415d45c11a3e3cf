import EventPipeline.Interface.PatchSteps
import EventPipeline.Program.SubscriberApi

/-!
# What a step of the subscriber endpoints can do

`ApiStep` lists the enabled steps of `subscriberApi`, with what they commit and what they answer.
A POST in whose steps no other request takes part computes `createSubscriber`.
-/

set_option autoImplicit false

namespace EventPipeline.Interface

open EventPipeline.Model EventPipeline.Program EventPipeline.Computation

/-- SOURCE: app/api/subscribers.py:53-127 -/
inductive ApiStep (urlparseError : PyStr → Option PyStr) (s : SubscriberApi) :
    SubscriberCall → SubscriberApi → Prop
  | inserted {r : RequestId} {random : Bytes} {id : Uuid} {body : SubscriberCreate}
      {row : SubscriberRow} (hr : s.inserted r = none)
      (hrow : insertedRow urlparseError s random id body = some row) :
      ApiStep urlparseError s (.insert r random id body) (s.insertRow r row)
  | refused {r : RequestId} {random : Bytes} {id : Uuid} {body : SubscriberCreate}
      (hr : s.inserted r = none) (hrow : insertedRow urlparseError s random id body = none) :
      ApiStep urlparseError s (.insert r random id body) s
  | responded {r : RequestId} {id : Uuid} (hr : s.inserted r = some id) :
      ApiStep urlparseError s (.respond r) (s.endCreate r)
  | failed {r : RequestId} {id : Uuid} (hr : s.inserted r = some id) :
      ApiStep urlparseError s (.fail r) (s.endCreate r)
  | rejected {a : PatchAction} (ha : rejects urlparseError a = true) :
      ApiStep urlparseError s (.request a) s
  | request {a : PatchAction} {p : PatchProcess} (ha : rejects urlparseError a = false)
      (h : PatchStep s.process a p) : ApiStep urlparseError s (.request a) { s with process := p }
  | restarted :
      ApiStep urlparseError s .restart ⟨PatchProcess.start s.process.now s.rows, fun _ => none⟩

section
variable {urlparseError : PyStr → Option PyStr} {s s' : SubscriberApi} {a : SubscriberCall}

/-- The list of steps is complete. -/
theorem apiStep_of_eq_some (h : subscriberApi urlparseError s a = some s') :
    ApiStep urlparseError s a s' := by
  cases a with
  | insert r random id body =>
    simp only [subscriberApi] at h
    split at h
    · cases h
    · split at h <;> cases h
      · exact .inserted ‹_› ‹_›
      · exact .refused ‹_› ‹_›
  | respond r =>
    simp only [subscriberApi] at h
    split at h <;> cases h
    exact .responded ‹_›
  | fail r =>
    simp only [subscriberApi] at h
    split at h <;> cases h
    exact .failed ‹_›
  | request a =>
    simp only [subscriberApi] at h
    split at h
    · cases h
      exact .rejected ‹_›
    · obtain ⟨p, hp, rfl⟩ := Option.map_eq_some_iff.1 h
      exact .request (Bool.eq_false_iff.2 ‹_›) (patchStep_of_eq_some hp)
  | restart =>
    cases h
    exact .restarted

/-- What an INSERT that goes through does. SOURCE: app/api/subscribers.py:57-60 -/
theorem insertSubscriber_eq_some {row : SubscriberRow} {rows rows' : List SubscriberRow}
    (h : insertSubscriber row rows = some rows') :
    row.id ∉ rows.map (fun r => r.id) ∧ rows' = rows ++ [row] := by
  unfold insertSubscriber at h
  split at h
  · rename_i hcheck
    cases h
    exact ⟨hcheck.1, rfl⟩
  · cases h

/-- An INSERT is the new row of a valid body under a new id. SOURCE: app/api/subscribers.py:53-57 -/
theorem insertedRow_eq_some {random : Bytes} {id : Uuid} {body : SubscriberCreate}
    {row : SubscriberRow} (h : insertedRow urlparseError s random id body = some row) :
    row = newSubscriber body id (tokenHex random) s.process.now ∧ body.valid urlparseError = true ∧
      id ∉ s.rows.map fun r => r.id := by
  unfold insertedRow at h
  dsimp only at h
  split at h
  · rename_i hcheck
    cases h
    obtain ⟨rows', hins⟩ := Option.isSome_iff_exists.1 hcheck.2
    exact ⟨rfl, hcheck.1, (insertSubscriber_eq_some hins).1⟩
  · cases h

/-! ## What the steps commit -/

/-- A POST that inserts commits its row. SOURCE: app/api/subscribers.py:54-57 -/
theorem commits_inserted {r : RequestId} {random : Bytes} {id : Uuid} {body : SubscriberCreate}
    {row : SubscriberRow} (hr : s.inserted r = none)
    (hrow : insertedRow urlparseError s random id body = some row) :
    commits urlparseError s (.insert r random id body) = [.created row] := by
  simp only [commits, hr, hrow, Option.map_some, Option.toList_some]

/-- A POST that is refused commits nothing. -/
theorem commits_refused {r : RequestId} {random : Bytes} {id : Uuid} {body : SubscriberCreate}
    (hr : s.inserted r = none) (hrow : insertedRow urlparseError s random id body = none) :
    commits urlparseError s (.insert r random id body) = [] := by
  simp only [commits, hr, hrow, Option.map_none, Option.toList_none]

/-- A PATCH commits its body for the row it has loaded. SOURCE: app/api/subscribers.py:91-97 -/
theorem commits_patched {r : RequestId} {q : PatchRequest} {sub : SubscriberRow}
    (hr : s.process.calls r = .loaded q sub) :
    commits urlparseError s (.request (.commit r)) = [.patched sub.id q.body] := by
  rw [commits, hr]

/-- A DELETE commits for the row it has loaded. SOURCE: app/api/subscribers.py:111-114 -/
theorem commits_deleted {r : RequestId} {sub : SubscriberRow}
    (hr : s.process.calls r = .deleting sub) :
    commits urlparseError s (.request (.commit r)) = [.deleted sub.id] := by
  rw [commits, hr]

/-- A body that is rejected commits nothing. -/
theorem commits_rejected {b : PatchAction} (hb : rejects urlparseError b = true) :
    commits urlparseError s (.request b) = [] := by
  cases b with
  | start _ _ => rfl
  | _ => cases hb

/-! ## A POST that runs alone -/

/-- A POST in whose steps no other request takes part computes `createSubscriber`.
SOURCE: app/api/subscribers.py:53-62 -/
theorem createSubscriber_of_alone {r : RequestId} (hr : s.inserted r = none) (random : Bytes)
    (id : Uuid) (body : SubscriberCreate) {response : SubscriberCreatedResponse}
    {rows : List SubscriberRow}
    (h : createSubscriber urlparseError random id s.process.now body s.rows =
      (.created response, rows)) :
    ∃ m s', subscriberApi urlparseError s (.insert r random id body) = some m ∧
      replies urlparseError m (.respond r) = [.created response] ∧
      subscriberApi urlparseError m (.respond r) = some s' ∧ s'.rows = rows ∧
      s'.inserted = s.inserted := by
  unfold createSubscriber at h
  dsimp only at h
  split at h
  · rename_i hvalid
    cases hins : insertSubscriber (newSubscriber body id (tokenHex random) s.process.now) s.rows with
    | none =>
      rw [hins] at h
      cases h
    | some rows' =>
      rw [hins] at h
      cases h
      obtain ⟨hnew, rfl⟩ := insertSubscriber_eq_some hins
      have hrow : insertedRow urlparseError s random id body =
          some (newSubscriber body id (tokenHex random) s.process.now) := by
        rw [insertedRow, if_pos ⟨hvalid, by rw [hins]; rfl⟩]
      have hfound : refresh id (s.rows ++ [newSubscriber body id (tokenHex random) s.process.now]) =
          some (newSubscriber body id (tokenHex random) s.process.now) := lookup_append_new hnew
      have hinserted : (s.insertRow r
          (newSubscriber body id (tokenHex random) s.process.now)).inserted r = some id :=
        Function.update_self _ _ _
      refine ⟨_, _, by rw [subscriberApi, hr, hrow], ?_, by rw [subscriberApi, hinserted], rfl, ?_⟩
      · rw [replies, hinserted, Option.bind_some, SubscriberApi.insertRow_rows, hfound]
        rfl
      · rw [SubscriberApi.endCreate_inserted, SubscriberApi.insertRow_inserted,
          Function.update_idem, ← hr, Function.update_eq_self]
  · cases h

end

end EventPipeline.Interface
