import EventPipeline.Computation.Transition
import Mathlib.Data.List.Nodup
import Mathlib.Data.List.Count

/-!
# Accepting each key once

An inbox accepts a key at most once, together with the recipients that are known at that
moment, and has one entry for each of the recipients of a key. It is the purpose of every
component that turns a stream with duplicates into work for a changing set of recipients:
no later change of that set, and no further copy of the key, adds or removes an entry.
-/

set_option autoImplicit false

namespace EventPipeline.Computation

variable {κ ι : Type} [DecidableEq κ] [DecidableEq ι]

/-- The accepted keys in order, each with its recipients. -/
abbrev Inbox (κ ι : Type) := List (κ × List ι)

namespace Inbox

/-- The accepted keys. -/
def keys (s : Inbox κ ι) : List κ := s.map Prod.fst

/-- The entries: one for each key and recipient. -/
def entries (s : Inbox κ ι) : List (κ × ι) := s.flatMap fun e => e.2.map fun r => (e.1, r)

/-- Accept a new key with its recipients. -/
def accept (s : Inbox κ ι) (e : κ × List ι) : Option (Inbox κ ι) :=
  if e.1 ∉ keys s ∧ e.2.Nodup then some (s ++ [e]) else none

omit [DecidableEq κ] [DecidableEq ι] in
/-- The entries are the pairs of a key with its recipients. -/
theorem mem_entries {s : Inbox κ ι} {k : κ} {r : ι} :
    (k, r) ∈ entries s ↔ ∃ rs, (k, rs) ∈ s ∧ r ∈ rs := by
  unfold entries
  rw [List.mem_flatMap]
  constructor
  · rintro ⟨⟨k', rs⟩, he, hr⟩
    obtain ⟨r', hr', heq⟩ := List.mem_map.1 hr
    cases heq
    exact ⟨rs, he, hr'⟩
  · rintro ⟨rs, he, hr⟩
    exact ⟨(k, rs), he, List.mem_map_of_mem hr⟩

/-- No key is accepted twice, and no recipient is listed twice for a key. -/
structure Valid (s : Inbox κ ι) : Prop where
  keys_nodup : (keys s).Nodup
  recipients_nodup : ∀ e ∈ s, e.2.Nodup

/-- An accepted message keeps the inbox valid. -/
theorem Valid.accept {s s' : Inbox κ ι} {e : κ × List ι} (hs : Valid s)
    (h : accept s e = some s') : Valid s' := by
  unfold Inbox.accept at h
  split at h
  · rename_i hnew
    cases h
    constructor
    · rw [keys, List.map_append]
      exact List.Nodup.append hs.keys_nodup (List.nodup_singleton _)
        (List.disjoint_singleton.2 hnew.1)
    · intro e' he'
      obtain he' | he' := List.mem_append.1 he'
      · exact hs.recipients_nodup e' he'
      · rw [List.mem_singleton.1 he']
        exact hnew.2
  · cases h

/-- Every inbox that can be reached is valid. -/
theorem valid_of_reachable {s : Inbox κ ι} (h : Reachable accept [] s) : Valid s :=
  h.induct ⟨List.nodup_nil, fun _ h => by cases h⟩ fun _ _ _ _ hs ha => hs.accept ha

omit [DecidableEq κ] [DecidableEq ι] in
/-- The recipients of a key are determined. -/
theorem Valid.recipients_eq {s : Inbox κ ι} (hs : Valid s) {k : κ} {rs rs' : List ι}
    (h : (k, rs) ∈ s) (h' : (k, rs') ∈ s) : rs = rs' := by
  have heq : (k, rs) = (k, rs') := List.inj_on_of_nodup_map hs.keys_nodup h h' rfl
  exact (Prod.mk.inj heq).2

omit [DecidableEq κ] [DecidableEq ι] in
/-- A valid inbox has no entry twice. -/
theorem Valid.entries_nodup {s : Inbox κ ι} (hs : Valid s) : (entries s).Nodup := by
  refine List.nodup_flatMap.2 ⟨fun e he => ?_, ?_⟩
  · exact (hs.recipients_nodup e he).map fun _ _ h => (Prod.mk.inj h).2
  · have hpair : s.Pairwise fun a b => a.1 ≠ b.1 := List.pairwise_map.1 hs.keys_nodup
    refine hpair.imp fun {a b} hab => ?_
    -- Entries of different keys differ in their first component.
    intro x hxa hxb
    obtain ⟨_, _, rfl⟩ := List.mem_map.1 hxa
    obtain ⟨_, _, heq⟩ := List.mem_map.1 hxb
    exact hab (Prod.mk.inj heq).1.symm

omit [DecidableEq κ] in
/-- An accepted key has exactly one entry for each of its recipients and no other entry. -/
theorem Valid.count_entries [BEq (κ × ι)] [LawfulBEq (κ × ι)] {s : Inbox κ ι} (hs : Valid s)
    {k : κ} {rs : List ι} (h : (k, rs) ∈ s) (r : ι) :
    (entries s).count (k, r) = if r ∈ rs then 1 else 0 := by
  by_cases hr : r ∈ rs
  · rw [if_pos hr]
    exact List.count_eq_one_of_mem hs.entries_nodup (mem_entries.2 ⟨rs, h, hr⟩)
  · rw [if_neg hr]
    refine List.count_eq_zero_of_not_mem fun hmem => hr ?_
    obtain ⟨rs', h', hr'⟩ := mem_entries.1 hmem
    rwa [hs.recipients_eq h h']

end Inbox

end EventPipeline.Computation
