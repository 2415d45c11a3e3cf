import EventPipeline.Program.Endpoints

/-!
# Accepted endpoints

The validator asks for a prefix and for an authority that is not empty. It looks neither at the
host nor at the port in it, so an authority of a user or a port alone passes, and a port that is
no port passes. These are the only endpoints that are accepted and are no URL of a host.
-/

set_option autoImplicit false

namespace EventPipeline.Analysis

open EventPipeline.Model EventPipeline.Program EventPipeline.Computation

/-! ## Well-formed URLs -/

/-- The host and the port of an authority without its user information: a host in brackets, or
the text before the first colon. -/
def splitHost (hostinfo : PyStr) : PyStr × PyStr :=
  if 0x5b ∈ hostinfo then
    (before 0x5d (after 0x5b hostinfo), after 0x3a (after 0x5d (after 0x5b hostinfo)))
  else (before 0x3a hostinfo, after 0x3a hostinfo)

/-- The authority without `user:password@`. -/
def hostinfo (v : PyStr) : PyStr := afterLast 0x40 (authority v)

/-- A decimal number from 0 to 65535. -/
structure IsPort (text : PyStr) : Prop where
  digits : ∀ c ∈ text, 0x30 ≤ c.val ∧ c.val ≤ 0x39
  range : (text.foldl (fun n c => 10 * n + (c.val - 0x30)) 0) ≤ 65535

/-- The scheme is http or https, the host is not empty, and the port is a port if there is
one. -/
structure WellFormedUrl (v : PyStr) : Prop where
  scheme : ∃ p ∈ httpPrefixes, p <+: v
  host : (splitHost (hostinfo v)).1 ≠ []
  port : (splitHost (hostinfo v)).2 = [] ∨ IsPort (splitHost (hostinfo v)).2

/-! ## The two kinds of failure -/

/-- The text has no host: it is empty, starts with the colon of a port, or has brackets that
are empty. -/
inductive NoHost : PyStr → Prop
  | nothing : NoHost []
  | portOnly {port : PyStr} (hb : 0x5b ∉ port) : NoHost (0x3a :: port)
  | openBracket {front : PyStr} (hf : 0x5b ∉ front) : NoHost (front ++ [0x5b])
  | emptyBrackets {front rest : PyStr} (hf : 0x5b ∉ front) :
      NoHost (front ++ 0x5b :: 0x5d :: rest)

/-- The text has a port that is none, behind the first colon or behind brackets. -/
inductive BadPort : PyStr → Prop
  | plain {name port : PyStr} (hb : 0x5b ∉ name ++ 0x3a :: port) (hn : 0x3a ∉ name)
      (hp : port ≠ []) (hbad : ¬ IsPort port) : BadPort (name ++ 0x3a :: port)
  | bracketed {front name gap port : PyStr} (hf : 0x5b ∉ front) (hn : 0x5d ∉ name)
      (hg : 0x3a ∉ gap) (hp : port ≠ []) (hbad : ¬ IsPort port) :
      BadPort (front ++ 0x5b :: (name ++ 0x5d :: (gap ++ 0x3a :: port)))

section
variable {text front rest : PyStr}

/-- In an authority with a bracket the host stands between the brackets. -/
theorem splitHost_bracketed (hf : 0x5b ∉ front) : splitHost (front ++ 0x5b :: rest) =
    (before 0x5d rest, after 0x3a (after 0x5d rest)) := by
  have hmem : 0x5b ∈ front ++ 0x5b :: rest := List.mem_append_right _ List.mem_cons_self
  rw [splitHost, if_pos hmem, after_append hf, after_cons_self]

/-- The host is empty in these cases only. -/
theorem host_eq_nil_iff : (splitHost text).1 = [] ↔ NoHost text := by
  constructor
  · intro h
    by_cases hb : 0x5b ∈ text
    · obtain ⟨front, rest, hf, rfl⟩ := exists_eq_append hb
      rw [splitHost_bracketed hf] at h
      obtain rfl | ⟨rest, rfl⟩ := before_eq_nil_iff.1 h
      · exact .openBracket hf
      · exact .emptyBrackets hf
    · rw [splitHost, if_neg hb] at h
      obtain rfl | ⟨rest, rfl⟩ := before_eq_nil_iff.1 h
      · exact .nothing
      · exact .portOnly fun hmem => hb (List.mem_cons_of_mem _ hmem)
  · intro h
    cases h with
    | nothing => rfl
    | @portOnly port hb =>
      have hb' : 0x5b ∉ (0x3a :: port : PyStr) := List.not_mem_cons_of_ne_of_not_mem (by decide) hb
      rw [splitHost, if_neg hb', before_cons_self]
    | openBracket hf =>
      rw [splitHost_bracketed hf]
      rfl
    | emptyBrackets hf =>
      rw [splitHost_bracketed hf, before_cons_self]

/-- The port is there and is none in these cases only. -/
theorem badPort_iff :
    ((splitHost text).2 ≠ [] ∧ ¬ IsPort (splitHost text).2) ↔ BadPort text := by
  constructor
  · rintro ⟨hp, hbad⟩
    by_cases hb : 0x5b ∈ text
    · obtain ⟨front, rest, hf, rfl⟩ := exists_eq_append hb
      rw [splitHost_bracketed hf] at hp hbad
      have hclose : 0x5d ∈ rest := by
        by_contra hnone
        rw [after_of_notMem hnone] at hp
        exact hp rfl
      obtain ⟨name, rest, hn, rfl⟩ := exists_eq_append hclose
      rw [after_append hn, after_cons_self] at hp hbad
      have hcolon : 0x3a ∈ rest := by
        by_contra hnone
        exact hp (after_of_notMem hnone)
      obtain ⟨gap, port, hg, rfl⟩ := exists_eq_append hcolon
      rw [after_append hg, after_cons_self] at hp hbad
      exact .bracketed hf hn hg hp hbad
    · rw [splitHost, if_neg hb] at hp hbad
      have hcolon : 0x3a ∈ text := by
        by_contra hnone
        exact hp (after_of_notMem hnone)
      obtain ⟨name, port, hn, rfl⟩ := exists_eq_append hcolon
      rw [after_append hn, after_cons_self] at hp hbad
      exact .plain hb hn hp hbad
  · intro h
    cases h with
    | plain hb hn hp hbad =>
      rw [splitHost, if_neg hb, after_append hn, after_cons_self]
      exact ⟨hp, hbad⟩
    | bracketed hf hn hg hp hbad =>
      rw [splitHost_bracketed hf, after_append hn, after_cons_self, after_append hg, after_cons_self]
      exact ⟨hp, hbad⟩

end

/-! ## What the validator accepts -/

section
variable {v p rest : PyStr}

/-- The authority is what follows the scheme, up to the path, the query or the fragment. -/
theorem authority_append (hp : p ∈ httpPrefixes) :
    authority (p ++ rest) = rest.takeWhile fun c => !endsAuthority c := by
  obtain ⟨scheme, hscheme, rfl⟩ : ∃ scheme, 0x3a ∉ scheme ∧ p = scheme ++ 0x3a :: py "//" := by
    obtain rfl | hp := List.mem_cons.1 hp
    · exact ⟨py "http", by decide, by decide⟩
    · obtain rfl := List.mem_singleton.1 hp
      exact ⟨py "https", by decide, by decide⟩
  have hafter : after 0x3a ((scheme ++ 0x3a :: py "//") ++ rest) = py "//" ++ rest := by
    rw [List.append_assoc, List.cons_append, after_append hscheme, after_cons_self]
  have hslashes : (py "//").isPrefixOf (py "//" ++ rest) = true :=
    List.isPrefixOf_iff_prefix.2 (List.prefix_append _ _)
  rw [authority, hafter, if_pos hslashes]
  rfl

/-- The netloc is the authority without the characters that `urlparse` removes. -/
theorem netloc_eq (hp : p ∈ httpPrefixes) (hv : p <+: v) :
    netloc v = (authority v).filter fun c => !isRemoved c := by
  obtain ⟨rest, rfl⟩ := hv
  have hkept : ∀ p ∈ httpPrefixes, p.filter (fun c => !isRemoved c) = p := by decide
  have hend : ∀ c : PyChar, (!endsAuthority c) = false → (!isRemoved c) = true := by
    intro c hc
    simp only [endsAuthority, Bool.not_eq_false', Bool.or_eq_true, decide_eq_true_eq] at hc
    obtain (rfl | rfl) | rfl := hc <;> decide
  rw [netloc, List.filter_append, hkept p hp, authority_append hp, authority_append hp,
    takeWhile_filter hend]

/-- SOURCE: app/schemas/subscriber.py:11-18 -/
theorem validateHttpUrl_eq_ok_iff {urlparseError : PyStr → Option PyStr} :
    validateHttpUrl urlparseError v = .ok v ↔
      (∃ p ∈ httpPrefixes, p <+: v) ∧ urlparseError (netloc v) = none ∧ netloc v ≠ [] := by
  have hstart : (httpPrefixes.any fun p => p.isPrefixOf v) = true ↔
      ∃ p ∈ httpPrefixes, p <+: v := by
    simp only [List.any_eq_true, List.isPrefixOf_iff_prefix]
  unfold validateHttpUrl
  split
  · rename_i hp
    rw [hstart] at hp
    split
    · rename_i herror
      refine iff_of_false nofun fun h => ?_
      rw [h.2.1] at herror
      cases herror
    · rename_i hnone
      split
      · rename_i hempty
        exact iff_of_false nofun fun h => h.2.2 (List.isEmpty_iff.1 hempty)
      · rename_i hempty
        exact iff_of_true rfl ⟨hp, hnone, fun h => hempty (List.isEmpty_iff.2 h)⟩
  · rename_i hp
    rw [hstart] at hp
    exact iff_of_false nofun fun h => hp h.1

/-- The validator returns its argument. -/
theorem eq_of_validateHttpUrl {urlparseError : PyStr → Option PyStr} {w : PyStr}
    (h : validateHttpUrl urlparseError v = .ok w) : w = v := by
  unfold validateHttpUrl at h
  split at h
  · split at h
    · cases h
    · split at h
      · cases h
      · cases h
        rfl
  · cases h

/-- The endpoint of a new subscriber has passed the validator.
SOURCE: app/schemas/subscriber.py:25-28 -/
theorem validated_of_create {urlparseError : PyStr → Option PyStr} {w : PyStr}
    (h : endpointOfCreate urlparseError v = .ok w) : validateHttpUrl urlparseError w = .ok w := by
  obtain rfl := eq_of_validateHttpUrl h
  exact h

/-- So has an endpoint that an update sets. SOURCE: app/schemas/subscriber.py:35-40 -/
theorem validated_of_update {urlparseError : PyStr → Option PyStr} {endpoint : Option PyStr}
    (h : endpointOfUpdate urlparseError endpoint = .ok (some v)) :
    validateHttpUrl urlparseError v = .ok v := by
  cases endpoint with
  | none => cases h
  | some w =>
    change (validateHttpUrl urlparseError w).map some = .ok (some v) at h
    cases hw : validateHttpUrl urlparseError w with
    | error e =>
      rw [hw] at h
      cases h
    | ok w' =>
      rw [hw] at h
      cases h
      obtain rfl := eq_of_validateHttpUrl hw
      exact hw

/-- A colon, an at sign or a bracket in the authority is not removed. -/
theorem netloc_ne_nil (hp : p ∈ httpPrefixes) (hv : p <+: v) {c : PyChar} (hc : c ∈ authority v)
    (hkept : isRemoved c = false) : netloc v ≠ [] := by
  rw [netloc_eq hp hv]
  exact List.ne_nil_of_mem (List.mem_filter.2 ⟨hc, by rw [hkept]; rfl⟩)

/-- An authority that fails in one of the two ways passes the check of its emptiness. -/
theorem netloc_ne_nil_of_fails (hp : p ∈ httpPrefixes) (hv : p <+: v) (hne : authority v ≠ [])
    (hfails : NoHost (hostinfo v) ∨ BadPort (hostinfo v)) : netloc v ≠ [] := by
  have hcolon : 0x3a ∈ hostinfo v → netloc v ≠ [] := fun hmem =>
    netloc_ne_nil hp hv (mem_of_mem_afterLast hmem) (by decide)
  have hbracket : 0x5b ∈ hostinfo v → netloc v ≠ [] := fun hmem =>
    netloc_ne_nil hp hv (mem_of_mem_afterLast hmem) (by decide)
  obtain hnone | hbad := hfails
  · generalize htext : hostinfo v = text at hnone
    rw [htext] at hcolon hbracket
    cases hnone with
    | nothing => exact netloc_ne_nil hp hv (mem_of_afterLast_eq_nil htext hne) (by decide)
    | portOnly _ => exact hcolon List.mem_cons_self
    | openBracket _ => exact hbracket (List.mem_append_right _ List.mem_cons_self)
    | emptyBrackets _ => exact hbracket (List.mem_append_right _ List.mem_cons_self)
  · generalize htext : hostinfo v = text at hbad
    rw [htext] at hcolon hbracket
    cases hbad with
    | plain _ _ _ _ => exact hcolon (List.mem_append_right _ List.mem_cons_self)
    | bracketed _ _ _ _ _ => exact hbracket (List.mem_append_right _ List.mem_cons_self)

end

/-- An endpoint that the validator accepts is well formed, unless it has a prefix and a
non-empty authority without a host or with a port that is none.
SOURCE: app/schemas/subscriber.py:11-40 -/
theorem accepted_wellFormed_iff (urlparseError : PyStr → Option PyStr) (v : PyStr) :
    (validateHttpUrl urlparseError v = .ok v → WellFormedUrl v) ↔
      ¬ ((∃ p ∈ httpPrefixes, p <+: v) ∧ urlparseError (netloc v) = none ∧ authority v ≠ [] ∧
        (NoHost (hostinfo v) ∨ BadPort (hostinfo v))) := by
  rw [validateHttpUrl_eq_ok_iff]
  constructor
  · rintro hwell ⟨⟨p, hp, hv⟩, herror, hne, hfails⟩
    have hurl := hwell ⟨⟨p, hp, hv⟩, herror, netloc_ne_nil_of_fails hp hv hne hfails⟩
    obtain hnone | hbad := hfails
    · exact hurl.host (host_eq_nil_iff.2 hnone)
    · obtain ⟨hport, hnot⟩ := badPort_iff.2 hbad
      exact hurl.port.elim hport hnot
  · rintro hfine ⟨⟨p, hp, hv⟩, herror, hnetloc⟩
    have hne : authority v ≠ [] := by
      intro hnil
      rw [netloc_eq hp hv, hnil] at hnetloc
      exact hnetloc rfl
    refine ⟨⟨p, hp, hv⟩, fun hhost => ?_, ?_⟩
    · exact hfine ⟨⟨p, hp, hv⟩, herror, hne, Or.inl (host_eq_nil_iff.1 hhost)⟩
    · by_contra hport
      exact hfine ⟨⟨p, hp, hv⟩, herror, hne, Or.inr (badPort_iff.1 (not_or.1 hport))⟩

/-- `http://:80` has no host, and `urlparse` accepts it.
SOURCE: app/schemas/subscriber.py:12-18 -/
theorem accepted_without_host :
    ¬ ∀ v, validateHttpUrl (fun _ => none) v = .ok v → WellFormedUrl v := by
  intro h
  have hurl := h (py "http://:80") (by decide)
  exact hurl.host (by decide)

end EventPipeline.Analysis
