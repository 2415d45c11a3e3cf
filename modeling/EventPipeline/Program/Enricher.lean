import EventPipeline.Program.Consumer

/-!
# The enrichment providers

The two implementations of `EnrichmentProvider.enrich`. What the random generator or the
remote model decides is a parameter.
-/

set_option autoImplicit false

namespace EventPipeline.Program

open EventPipeline.Model

def enrichmentKey : PyStr := py "_enrichment"

/-- `{**payload, "_enrichment": x}`. SOURCE: app/enricher/mock_llm.py:59,
app/enricher/openai_llm.py:58 -/
def withEnrichment (payload : List (PyStr × Json)) (x : Json) : List (PyStr × Json) :=
  Json.setItem payload enrichmentKey x

/-! ## `MockLLMProvider` -/

/-- What one call of the mock provider draws. `eventTypeRepr` is the text of `event_type!r`,
which depends on the Unicode tables of the interpreter. -/
structure MockDraws where
  /-- `random.random()` in units of 2^-53 -/
  roll : ℕ
  sentiment : Fin 3
  /-- the text of the rounded confidence -/
  confidence : Bytes
  eventTypeRepr : PyStr

def sentiments : Fin 3 → PyStr
  | 0 => py "positive"
  | 1 => py "neutral"
  | 2 => py "negative"

/-- `f"{roll:.4f}"`: four decimals, rounded half to even. -/
def fixed4 (roll : ℕ) : PyStr :=
  let q := roll * 10000 / 2 ^ 53
  let r := roll * 10000 % 2 ^ 53
  let n := if 2 ^ 53 < 2 * r ∨ (2 * r = 2 ^ 53 ∧ q % 2 = 1) then q + 1 else q
  decimal (n / 10000) ++ py "." ++ decimal (n / 1000 % 10) ++ decimal (n / 100 % 10) ++
    decimal (n / 10 % 10) ++ decimal (n % 10)

/-- SOURCE: app/enricher/mock_llm.py:47-53 -/
def mockEnrichment (eventType : PyStr) (payload : List (PyStr × Json)) (d : MockDraws) : Json :=
  .obj
    [(py "summary", .str (py "Mock enrichment of \x27" ++ eventType ++ py "\x27 event")),
      (py "sentiment", .str (sentiments d.sentiment)),
      (py "confidence", .float d.confidence),
      (py "tags", .arr [.str eventType, .str (py "mock"), .str (py "llm")]),
      (py "original_field_count", .int payload.length)]

/-- One call of the mock provider. The two bounds are the doubles 0.02 and 0.02 + 0.08 in the
unit of the roll. SOURCE: app/enricher/mock_llm.py:24-62 -/
def mockEnrich (eventType : PyStr) (payload : List (PyStr × Json)) (d : MockDraws) :
    EnrichOutcome :=
  if d.roll * 32 < 5764607523034235 then
    .fatal (py "Mock fatal error for event_type=" ++ d.eventTypeRepr ++ py " (roll=" ++
      fixed4 d.roll ++ py ")")
  else if d.roll * 4 < 3602879701896397 then .transient
  else .result (withEnrichment payload (mockEnrichment eventType payload d))

/-! ## `OpenAILLMProvider` -/

/-- What the API call gives: an exception, or the content of the answer as `json.loads` reads it;
`none` is a missing or empty content. -/
inductive OpenAiReply where
  | apiError
  | content (loads : Option LoadsResult)

/-- SOURCE: app/enricher/openai_llm.py:33-61 -/
def openAiEnrich (payload : List (PyStr × Json)) : OpenAiReply → EnrichOutcome
  | .apiError => .transient
  | .content none => .result (withEnrichment payload (.obj []))
  | .content (some (.value x)) => .result (withEnrichment payload x)
  | .content (some _) => .other

/-- The ways in which `provider.enrich(event_type, payload)` ends with one of the providers. -/
def Provided (eventType : PyStr) (payload : List (PyStr × Json)) (o : EnrichOutcome) : Prop :=
  (∃ d, o = mockEnrich eventType payload d) ∨ ∃ reply, o = openAiEnrich payload reply

/-- Both providers merge one key into the payload. -/
theorem enriched_of_provided {eventType : PyStr} {payload enriched : List (PyStr × Json)}
    (h : Provided eventType payload (.result enriched)) :
    ∃ x, enriched = withEnrichment payload x := by
  obtain ⟨d, hd⟩ | ⟨reply, hreply⟩ := h
  · unfold mockEnrich at hd
    split at hd
    · cases hd
    · split at hd
      · cases hd
      · cases hd
        exact ⟨_, rfl⟩
  · unfold openAiEnrich at hreply
    split at hreply
    · cases hreply
    · cases hreply
      exact ⟨_, rfl⟩
    · cases hreply
      exact ⟨_, rfl⟩
    · cases hreply

/-! ## Payloads that are no dicts -/

/-- `MockLLMProvider.enrich` on any JSON value. For a value that is no dict `len(payload)` or
`{**payload}` raises, unless one of the two documented errors has been raised before.
SOURCE: app/enricher/mock_llm.py:37-59 -/
def mockEnrichAny (eventType : PyStr) (payload : Json) (d : MockDraws) : EnrichOutcome :=
  match payload with
  | .obj fields => mockEnrich eventType fields d
  | _ =>
    match mockEnrich eventType [] d with
    | .result _ => .other
    | o => o

/-- A provider that raises only the two documented errors on a dict. `ends e v o` says that
`_enrich_with_retry` can end with `o` for the event type `e` and the payload `v`.
SOURCE: app/enricher/base.py:20-36 -/
structure Provider where
  ends : PyStr → Json → EnrichOutcome → Prop
  total : ∀ e v, ∃ o, ends e v o
  documented : ∀ {e fields o}, ends e (.obj fields) o → o ≠ .other
  /-- every dict can be enriched, with enough luck -/
  processes : ∀ e fields, ∃ r, ends e (.obj fields) (.result r)
  /-- the result is `{**payload, ...}` -/
  mapping : ∀ {e v r}, ends e v (.result r) → ∃ fields, v = .obj fields

/-- A draw above both error bounds. -/
def luckyDraws : MockDraws := ⟨2 ^ 53 - 1, Fin.last 2, ascii "0.9", []⟩

def mockProvider : Provider where
  ends e v o := ∃ d, o = mockEnrichAny e v d
  total e v := ⟨_, luckyDraws, rfl⟩
  documented := by
    rintro e fields o ⟨d, rfl⟩
    show mockEnrich e fields d ≠ .other
    unfold mockEnrich
    split
    · exact nofun
    · split
      · exact nofun
      · exact nofun
  processes e fields := ⟨_, luckyDraws, by
    rw [mockEnrichAny, mockEnrich, if_neg (by decide), if_neg (by decide)]⟩
  mapping := by
    rintro e v r ⟨d, hd⟩
    unfold mockEnrichAny at hd
    split at hd
    · exact ⟨_, rfl⟩
    · split at hd
      · cases hd
      · rename_i hne
        exact absurd hd.symm (hne _)

end EventPipeline.Program
