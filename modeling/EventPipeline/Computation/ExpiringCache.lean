import EventPipeline.Computation.Table

/-!
# A cache whose entries expire

A dictionary in which each entry has the time at which it was stored. An entry is served while
its age is below `ttl`. A write first drops the entries that have expired, and then replaces
the entry of its key.
-/

set_option autoImplicit false

namespace EventPipeline.Computation

variable {κ ν : Type}

structure CacheEntry (κ ν : Type) where
  key : κ
  storedAt : ℕ
  value : ν

/-- The entry is still served at time `now`. -/
def CacheEntry.live (ttl now : ℕ) (e : CacheEntry κ ν) : Bool := now - e.storedAt < ttl

/-- What is younger than `ttl` at a time was so before. -/
theorem young_of_le {ttl t t' at' : ℕ} (hle : t ≤ t') (h : t' - at' < ttl) : t - at' < ttl :=
  Nat.lt_of_le_of_lt (Nat.sub_le_sub_right hle at') h

/-- What is live later is live now. -/
theorem live_of_le {ttl now t : ℕ} {e : CacheEntry κ ν} (hle : now ≤ t)
    (h : e.live ttl t = true) : e.live ttl now = true :=
  decide_eq_true (young_of_le hle (of_decide_eq_true h))

/-- The entries of the dictionary, one for each key. -/
abbrev ExpiringCache (κ ν : Type) := List (CacheEntry κ ν)

namespace ExpiringCache

variable [DecidableEq κ] {ttl now : ℕ} {k : κ} {v : ν} {c : ExpiringCache κ ν}
  {e : CacheEntry κ ν}

def get (ttl now : ℕ) (k : κ) (c : ExpiringCache κ ν) : Option ν :=
  ((lookup CacheEntry.key k c).filter (CacheEntry.live ttl now)).map CacheEntry.value

def evict (ttl now : ℕ) (c : ExpiringCache κ ν) : ExpiringCache κ ν :=
  c.filter fun e => ¬ ttl ≤ now - e.storedAt

/-- Assignment to a key of the dictionary. -/
def set (k : κ) (now : ℕ) (v : ν) (c : ExpiringCache κ ν) : ExpiringCache κ ν :=
  c.filter (fun e => e.key ≠ k) ++ [⟨k, now, v⟩]

def put (ttl now : ℕ) (k : κ) (v : ν) (c : ExpiringCache κ ν) : ExpiringCache κ ν :=
  set k now v (evict ttl now c)

omit [DecidableEq κ] in
/-- Eviction keeps the live entries. -/
theorem mem_evict : e ∈ evict ttl now c ↔ e ∈ c ∧ e.live ttl now = true := by
  simp [evict, CacheEntry.live, List.mem_filter]

/-- After a write the dictionary has the new entry, and the entries of other keys that have
not expired. -/
theorem mem_put : e ∈ put ttl now k v c ↔
    e = ⟨k, now, v⟩ ∨ (e ∈ c ∧ e.key ≠ k ∧ e.live ttl now = true) := by
  rw [put, set, List.mem_append, List.mem_filter, mem_evict, List.mem_singleton,
    decide_eq_true_eq]
  tauto

/-- Every key has one entry. -/
def Unique (c : ExpiringCache κ ν) : Prop := (c.map CacheEntry.key).Nodup

/-- A put keeps the keys unique. -/
theorem Unique.put (h : Unique c) : Unique (put ttl now k v c) := by
  have hrest : ((evict ttl now c).filter fun e => e.key ≠ k).map CacheEntry.key |>.Nodup :=
    List.Nodup.sublist ((List.filter_sublist.trans List.filter_sublist).map _) h
  rw [Unique, ExpiringCache.put, set, List.map_append]
  refine hrest.append (List.nodup_singleton _) (List.disjoint_singleton.2 fun hmem => ?_)
  obtain ⟨e, he, heq⟩ := List.mem_map.1 hmem
  exact of_decide_eq_true (List.mem_filter.1 he).2 heq

/-- What a read returns is the value of the key's entry, if it has not expired. -/
theorem get_eq_some_iff (h : Unique c) : get ttl now k c = some v ↔
    ∃ e ∈ c, e.key = k ∧ e.live ttl now = true ∧ e.value = v := by
  rw [get, Option.map_eq_some_iff]
  constructor
  · rintro ⟨e, he, rfl⟩
    obtain ⟨hl, hlive⟩ := Option.filter_eq_some_iff.1 he
    obtain ⟨hmem, hkey⟩ := of_lookup_eq_some hl
    exact ⟨e, hmem, hkey, hlive, rfl⟩
  · rintro ⟨e, hmem, rfl, hlive, rfl⟩
    exact ⟨e, Option.filter_eq_some_iff.2 ⟨lookup_of_mem h hmem, hlive⟩, rfl⟩

/-! ## The log of all writes -/

/-- The last write of a key. -/
def lastPut (k : κ) (log : List (CacheEntry κ ν)) : Option (CacheEntry κ ν) :=
  lookup CacheEntry.key k log.reverse

/-- What a log answers that never drops an entry. -/
def answer (ttl now : ℕ) (k : κ) (log : List (CacheEntry κ ν)) : Option ν :=
  ((lastPut k log).filter (CacheEntry.live ttl now)).map CacheEntry.value

variable {log : List (CacheEntry κ ν)}

/-- The last put of a key is the newest one, if it has the key. -/
theorem lastPut_snoc : lastPut k (log ++ [e]) = if e.key = k then some e else lastPut k log := by
  rw [lastPut, lookup, List.reverse_append, List.reverse_singleton, List.singleton_append,
    List.find?_cons]
  by_cases h : e.key = k
  · simp [h]
  · simp [h, lastPut, lookup]

/-- After the last write of a key come writes of other keys only. -/
theorem lastPut_eq_some_iff : lastPut k log = some e ↔
    e.key = k ∧ ∃ before after, log = before ++ e :: after ∧ ∀ e' ∈ after, e'.key ≠ k := by
  rw [lastPut, lookup, List.find?_eq_some_iff_append, decide_eq_true_eq]
  refine and_congr_right fun _ => ?_
  constructor
  · rintro ⟨after, before, heq, hafter⟩
    refine ⟨before.reverse, after.reverse, ?_, fun e' he' => ?_⟩
    · rw [← log.reverse_reverse, heq, List.reverse_append, List.reverse_cons, List.append_assoc,
        List.singleton_append]
    · simpa using hafter e' (List.mem_reverse.1 he')
  · rintro ⟨before, after, rfl, hafter⟩
    refine ⟨after.reverse, before.reverse, by simp, fun e' he' => ?_⟩
    simpa using hafter e' (List.mem_reverse.1 he')

/-- A key that was put has a last put. -/
theorem exists_lastPut (h : e ∈ log) : ∃ e', lastPut e.key log = some e' :=
  Option.isSome_iff_exists.1
    (isSome_lookup_iff.2 (List.mem_map_of_mem (List.mem_reverse.2 h)))

/-- The answer is the value of the last put while that is live. -/
theorem answer_eq_some_iff : answer ttl now k log = some v ↔
    ∃ e, lastPut k log = some e ∧ e.live ttl now = true ∧ e.value = v := by
  simp [answer, Option.map_eq_some_iff, Option.filter_eq_some_iff, and_assoc]

/-- At time `now` the log has the writes up to now in their order, and the cache has, for each
key, the last of them if it is live. -/
structure Reflects (ttl now : ℕ) (c : ExpiringCache κ ν) (log : List (CacheEntry κ ν)) : Prop where
  unique : Unique c
  last : ∀ e ∈ c, lastPut e.key log = some e
  live : ∀ k e, lastPut k log = some e → e.live ttl now = true → e ∈ c
  past : ∀ e ∈ log, e.storedAt ≤ now
  sorted : log.Pairwise fun e e' => e.storedAt ≤ e'.storedAt

/-- The empty cache reflects the empty log. -/
theorem Reflects.nil : Reflects ttl now ([] : ExpiringCache κ ν) [] where
  unique := List.nodup_nil
  last := nofun
  live := nofun
  past := nofun
  sorted := List.Pairwise.nil

variable {t : ℕ}

/-- Time passes without a write. -/
theorem Reflects.later (h : Reflects ttl now c log) (hle : now ≤ t) : Reflects ttl t c log where
  unique := h.unique
  last := h.last
  live k e he hlive := h.live k e he (live_of_le hle hlive)
  past e he := Nat.le_trans (h.past e he) hle
  sorted := h.sorted

/-- A write, logged with the time of the write. -/
theorem Reflects.put (h : Reflects ttl now c log) (hle : now ≤ t) :
    Reflects ttl t (put ttl t k v c) (log ++ [⟨k, t, v⟩]) where
  unique := h.unique.put
  last e he := by
    rw [lastPut_snoc]
    rcases mem_put.1 he with rfl | ⟨hmem, hkey, _⟩
    · exact if_pos rfl
    · rw [if_neg hkey.symm]
      exact h.last e hmem
  live k' e he hlive := by
    rw [lastPut_snoc] at he
    by_cases hk : k = k'
    · rw [if_pos hk] at he
      exact mem_put.2 (Or.inl (Option.some.inj he).symm)
    · rw [if_neg hk] at he
      have hkey : e.key = k' := (lastPut_eq_some_iff.1 he).1
      exact mem_put.2 (Or.inr
        ⟨h.live k' e he (live_of_le hle hlive), hkey ▸ Ne.symm hk, hlive⟩)
  past e he := by
    rcases List.mem_append.1 he with he | he
    · exact Nat.le_trans (h.past e he) hle
    · obtain rfl := List.mem_singleton.1 he
      exact Nat.le_refl t
  sorted := by
    refine List.pairwise_append.2 ⟨h.sorted, List.pairwise_singleton _ _, fun e he e' he' => ?_⟩
    rw [List.mem_singleton.1 he']
    exact Nat.le_trans (h.past e he) hle

/-- The cache answers as the log does. -/
theorem Reflects.get_eq (h : Reflects ttl now c log) (k : κ) :
    get ttl now k c = answer ttl now k log := by
  ext v
  rw [get_eq_some_iff h.unique, answer_eq_some_iff]
  constructor
  · rintro ⟨e, hmem, rfl, hlive, hv⟩
    exact ⟨e, h.last e hmem, hlive, hv⟩
  · rintro ⟨e, he, hlive, hv⟩
    exact ⟨e, h.live k e he hlive, (lastPut_eq_some_iff.1 he).1, hlive, hv⟩

/-- The last write of a key is not older than any other. -/
theorem Reflects.storedAt_le (h : Reflects ttl now c log) {p : CacheEntry κ ν} (hp : p ∈ log)
    (he : lastPut p.key log = some e) : p.storedAt ≤ e.storedAt := by
  obtain ⟨_, before, after, rfl, hafter⟩ := lastPut_eq_some_iff.1 he
  rcases List.mem_append.1 hp with hp | hp
  · exact (List.pairwise_append.1 h.sorted).2.2 p hp e List.mem_cons_self
  · rcases List.mem_cons.1 hp with rfl | hp
    · exact Nat.le_refl _
    · exact absurd rfl (hafter p hp)

/-- Where no entry of the cache has expired, the keys are those written less than `ttl` ago. -/
theorem Reflects.mem_keys_iff (h : Reflects ttl now c log)
    (hlive : ∀ e ∈ c, e.live ttl now = true) :
    k ∈ c.map CacheEntry.key ↔ ∃ p ∈ log, p.key = k ∧ p.live ttl now = true := by
  rw [List.mem_map]
  constructor
  · rintro ⟨e, he, rfl⟩
    obtain ⟨_, before, after, rfl, _⟩ := lastPut_eq_some_iff.1 (h.last e he)
    exact ⟨e, by simp, rfl, hlive e he⟩
  · rintro ⟨p, hp, rfl, hyoung⟩
    obtain ⟨e, he⟩ := exists_lastPut hp
    have hage : e.live ttl now = true := decide_eq_true
      (Nat.lt_of_le_of_lt (Nat.sub_le_sub_left (h.storedAt_le hp he) now)
        (of_decide_eq_true hyoung))
    exact ⟨e, h.live _ e he hage, (lastPut_eq_some_iff.1 he).1⟩

end ExpiringCache

end EventPipeline.Computation
