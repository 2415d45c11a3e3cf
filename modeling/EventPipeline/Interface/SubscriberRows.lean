import EventPipeline.Interface.SystemSteps

/-!
# The registry in one step

What a step does to the table of subscribers and to the PATCH and DELETE calls in progress:
a new row, a call that loads its row, the flush of a PATCH or of a DELETE, or nothing.
-/

set_option autoImplicit false

namespace EventPipeline.Interface

open EventPipeline.Model EventPipeline.Program EventPipeline.Computation

/-- SOURCE: app/api/subscribers.py:50-127 -/
inductive RegistryStep (s : World) : Action → Registry → Prop
  | same {a : Action} : RegistryStep s a s.registry
  | create {r : RequestId} {id : Uuid} {endpoint secret : PyStr}
      (hnew : id ∉ s.registry.subscribers.map Subscriber.id) :
      RegistryStep s (.subscriber r (.create id endpoint secret))
        { s.registry with
          subscribers := s.registry.subscribers ++ [⟨id, endpoint, secret, true, s.now, none⟩] }
  | loadPatch {r : RequestId} {id : Uuid} {body : SubscriberUpdate} {sub : Subscriber}
      (hr : s.registry.requests r = .idle)
      (hl : getOr404 id s.registry.subscribers = some sub) :
      RegistryStep s (.subscriber r (.patch id body)) (s.registry.setRequest r (.patching sub body))
  | loadDelete {r : RequestId} {id : Uuid} {sub : Subscriber}
      (hr : s.registry.requests r = .idle)
      (hl : getOr404 id s.registry.subscribers = some sub) :
      RegistryStep s (.subscriber r (.delete id)) (s.registry.setRequest r (.deleting sub))
  | patch {r : RequestId} {sub : Subscriber} {body : SubscriberUpdate}
      (hr : s.registry.requests r = .patching sub body) :
      RegistryStep s (.subscriber r .commit)
        ({ s.registry with
          subscribers :=
            updateWhere (fun x => x.id = sub.id) (patchRow sub body s.now)
              s.registry.subscribers }.setRequest r .idle)
  | delete {r : RequestId} {sub : Subscriber} (hr : s.registry.requests r = .deleting sub) :
      RegistryStep s (.subscriber r .commit)
        ({ s.registry with
          subscribers :=
            updateWhere (fun x => x.id = sub.id) (deleteRow sub s.now)
              s.registry.subscribers }.setRequest r .idle)
  | abort {r : RequestId} :
      RegistryStep s (.subscriber r .abort) (s.registry.setRequest r .idle)

/-- Every step changes the registry in one of the ways that `RegistryStep` lists. -/
theorem registryStep_of_step {cfg : Settings} {s s' : World} {a : Action}
    (h : step cfg s a = some s') : RegistryStep s a s'.registry := by
  cases a with
  | subscriber r a =>
    obtain ⟨g, hg, rfl⟩ := Option.map_eq_some_iff.1 h
    cases a with
    | create id endpoint secret =>
      simp only [subscriber] at hg
      split at hg <;> cases hg
      exact .create ‹_›
    | patch id body =>
      simp only [subscriber] at hg
      split at hg
      · split at hg <;> cases hg
        · exact .loadPatch ‹_› ‹_›
        · exact .same
      · cases hg
    | delete id =>
      simp only [subscriber] at hg
      split at hg
      · split at hg <;> cases hg
        · exact .loadDelete ‹_› ‹_›
        · exact .same
      · cases hg
    | commit =>
      simp only [subscriber] at hg
      split at hg <;> cases hg
      · exact .patch ‹_›
      · exact .delete ‹_›
    | abort =>
      simp only [subscriber] at hg
      split at hg <;> cases hg
      exact .abort
  | _ =>
    cases worldStep_of_eq_some h
    all_goals exact .same

/-- The row that a PATCH or a DELETE works on is one that is not deleted.
SOURCE: app/api/subscribers.py:117-127 -/
theorem of_getOr404_eq_some {id : Uuid} {subscribers : List Subscriber} {sub : Subscriber}
    (h : getOr404 id subscribers = some sub) :
    sub ∈ subscribers ∧ sub.id = id ∧ sub.deletedAt = none := by
  obtain ⟨hl, hd⟩ := Option.filter_eq_some_iff.1 h
  obtain ⟨hmem, hid⟩ := of_lookup_eq_some hl
  exact ⟨hmem, hid, Option.isNone_iff_eq_none.1 hd⟩

/-- No step changes the id of a subscriber, and a new one gets a new id. -/
theorem RegistryStep.ids {s : World} {a : Action} {g : Registry} (h : RegistryStep s a g) :
    g.subscribers.map Subscriber.id = s.registry.subscribers.map Subscriber.id ∨
      ∃ id, id ∉ s.registry.subscribers.map Subscriber.id ∧
        g.subscribers.map Subscriber.id = s.registry.subscribers.map Subscriber.id ++ [id] := by
  cases h with
  | create hnew => exact Or.inr ⟨_, hnew, by simp⟩
  | patch hr => exact Or.inl (map_updateWhere _ fun _ _ => rfl)
  | delete hr => exact Or.inl (map_updateWhere _ fun _ _ => rfl)
  | _ => exact Or.inl rfl

/-- The ids of the subscribers are unique. SOURCE: app/db/models.py:31 -/
theorem subscriber_ids_nodup {cfg : Settings} {s : World}
    (h : Reachable (step cfg) World.init s) :
    (s.registry.subscribers.map Subscriber.id).Nodup := by
  refine h.induct (I := fun s => (s.registry.subscribers.map Subscriber.id).Nodup)
    List.nodup_nil ?_
  intro s a s' _ hn hs
  obtain heq | ⟨id, hnew, heq⟩ := (registryStep_of_step hs).ids
  · rwa [heq]
  · rw [heq]
    exact List.Nodup.append hn (List.nodup_singleton _) (List.disjoint_singleton.2 hnew)

end EventPipeline.Interface
