import EventPipeline.Program.Consumer
import EventPipeline.Program.Publish

/-!
# The publish limits fit the size guard of the consumer

The API measures the payload with compact separators and sends it with the default ones. A
separator grows by one byte, and there are fewer separators than tokens, so the text that is
sent is at most half as long again as the one that was measured. Each code point of the two
other strings takes at most twelve bytes.
-/

set_option autoImplicit false

namespace EventPipeline.Analysis

open EventPipeline.Model EventPipeline.Program

/-! ## Strings -/

/-- The longest escape is that of a surrogate pair. SOURCE: app/api/events.py:27-33 -/
theorem length_escapeChar_le (c : PyChar) : (Json.escapeChar c).length ≤ 12 := by
  unfold Json.escapeChar
  repeat' split
  all_goals simp [Json.escapeUnit]

/-- A text has at most 12 bytes for each code point when it is escaped. -/
theorem length_flatMap_escapeChar_le (s : PyStr) :
    (s.flatMap Json.escapeChar).length ≤ 12 * s.length := by
  induction s with
  | nil => simp
  | cons c s ih =>
    have hc := length_escapeChar_le c
    rw [List.flatMap_cons, List.length_append, List.length_cons]
    omega

/-- A string has two bytes more than its escaped text. -/
theorem length_dumpsStr (s : PyStr) :
    (Json.dumpsStr s).length = (s.flatMap Json.escapeChar).length + 2 := by
  simp [Json.dumpsStr]

/-! ## Separators against tokens -/

/-- No number is written with nothing. -/
theorem length_dumpsInt_pos (n : ℤ) : 0 < (Json.dumpsInt n).length := by
  have hdigits := Nat.length_toDigits_pos (b := 10) (n := n.natAbs)
  simp only [Json.dumpsInt, List.length_append, List.length_map]
  omega

/-- Nor is a float. -/
theorem length_pos_of_isFloatText {r : Bytes} (h : Json.isFloatText r = true) : 0 < r.length := by
  cases r with
  | nil => exact absurd h (by decide)
  | cons b r => simp

/-- A value whose text is the same with both kinds of separators. -/
theorem half_again_of_eq {d c : ℕ} (heq : d = c) (hpos : 0 < c) : 2 * d + 1 ≤ 3 * c := by
  omega

/-- What the two kinds of separators take. SOURCE: app/schemas/event.py:35 -/
theorem length_separators : Json.Separators.default.item.length = 2 ∧
    Json.Separators.default.key.length = 2 ∧ Json.Separators.compact.item.length = 1 ∧
    Json.Separators.compact.key.length = 1 := by decide

mutual
/-- The text with the default separators is at most half as long again as the compact one.
SOURCE: app/schemas/event.py:35, app/api/events.py:27-33 -/
theorem length_dumps_default_le : ∀ v : Json, v.floatsOk = true →
    2 * (v.dumps .default).length + 1 ≤ 3 * (v.dumps .compact).length
  | .null, _ => by decide
  | .bool true, _ => by decide
  | .bool false, _ => by decide
  | .int n, _ => by
    simp only [Json.dumps]
    exact half_again_of_eq rfl (length_dumpsInt_pos n)
  | .float r, h => by
    simp only [Json.dumps]
    exact half_again_of_eq rfl (length_pos_of_isFloatText h)
  | .str s, _ => by
    simp only [Json.dumps]
    have hlen := length_dumpsStr s
    omega
  | .arr vs, h => by
    have hitems := length_dumpsItems_default_le vs h
    have hbrackets : (ascii "[").length = 1 ∧ (ascii "]").length = 1 := by decide
    simp only [Json.dumps, List.length_append]
    omega
  | .obj fs, h => by
    have hfields := length_dumpsFields_default_le fs h
    have hbraces : (ascii "\x7b").length = 1 ∧ (ascii "\x7d").length = 1 := by decide
    simp only [Json.dumps, List.length_append]
    omega

/-- The separators of the items of an array lengthen it by half at most. -/
theorem length_dumpsItems_default_le : ∀ vs : List Json, Json.floatsOkAll vs = true →
    2 * (Json.dumpsItems .default vs).length ≤ 3 * (Json.dumpsItems .compact vs).length
  | [], _ => by simp [Json.dumpsItems]
  | v :: vs, h => by
    obtain ⟨hv, hvs⟩ := (Bool.and_eq_true _ _).mp h
    have hhead := length_dumps_default_le v hv
    have htail := length_dumpsItems_default_le vs hvs
    obtain ⟨hitem, _, hitem', _⟩ := length_separators
    simp only [Json.dumpsItems, List.length_append]
    split
    · simp only [List.length_nil]
      omega
    · omega

/-- The separators of the fields of an object lengthen it by half at most. -/
theorem length_dumpsFields_default_le : ∀ fs : List (PyStr × Json), Json.floatsOkFields fs = true →
    2 * (Json.dumpsFields .default fs).length ≤ 3 * (Json.dumpsFields .compact fs).length
  | [], _ => by simp [Json.dumpsFields]
  | (k, v) :: fs, h => by
    obtain ⟨hv, hfs⟩ := (Bool.and_eq_true _ _).mp h
    have hhead := length_dumps_default_le v hv
    have htail := length_dumpsFields_default_le fs hfs
    have hkey := length_dumpsStr k
    obtain ⟨hitem, hcolon, hitem', hcolon'⟩ := length_separators
    simp only [Json.dumpsFields, List.length_append]
    split
    · simp only [List.length_nil]
      omega
    · omega
end

/-! ## The envelope -/

/-- A string of 255 code points has at most 3062 bytes. -/
theorem length_dumpsStr_le {s : PyStr} (h : s.length ≤ 255) : (Json.dumpsStr s).length ≤ 3062 := by
  have hescapes := length_flatMap_escapeChar_le s
  have hquotes := length_dumpsStr s
  omega

/-- The text of a UUID has 36 characters. -/
theorem length_uuid (u : Uuid) : u.str.length = 36 := by
  simp [Uuid.str, List.range_succ, py]

/-- Given or generated, the identifier has at most 255 characters.
SOURCE: app/api/events.py:25, app/schemas/event.py:26-30 -/
theorem length_publishedId_le (body : EventPublishRequest) (u : Uuid) :
    (publishedId body u).length ≤ 255 := by
  have huuid := length_uuid u
  unfold publishedId
  split
  · rename_i m hm
    split
    · omega
    · exact body.message_id_length m hm
  · omega

/-- An accepted payload is within its limit. SOURCE: app/schemas/event.py:32-41 -/
theorem length_payload_le (body : EventPublishRequest) :
    ((Json.obj body.payload).dumps .compact).length ≤ maxPayloadBytes := by
  have hsize := body.payload_size
  unfold payloadSizeLimit at hsize
  by_contra hlong
  rw [if_pos (by omega)] at hsize
  cases hsize

/-- The length of the envelope is that of its three values and 45 bytes.
SOURCE: app/api/events.py:27-33 -/
theorem length_publishedEvent (body : EventPublishRequest) (u : Uuid) :
    ((publishedEvent body u).dumps .default).length =
      45 + (Json.dumpsStr (publishedId body u)).length + (Json.dumpsStr body.eventType).length +
        ((Json.obj body.payload).dumps .default).length := by
  have hkeys : (Json.dumpsStr (py "message_id")).length = 12 ∧
      (Json.dumpsStr (py "event_type")).length = 12 ∧
      (Json.dumpsStr (py "payload")).length = 9 := by decide
  have hbraces : (ascii "\x7b").length = 1 ∧ (ascii "\x7d").length = 1 := by decide
  obtain ⟨hitem, hcolon, _, _⟩ := length_separators
  have hobj : ∀ fs, (Json.obj fs).dumps .default =
      ascii "\x7b" ++ Json.dumpsFields .default fs ++ ascii "\x7d" := fun fs => by
    rw [Json.dumps]
  have hstr : ∀ s, (Json.str s).dumps .default = Json.dumpsStr s := fun s => by rw [Json.dumps]
  rw [publishedEvent, hobj]
  simp only [Json.dumpsFields, hstr, List.length_append, List.isEmpty_cons,
    List.isEmpty_nil, if_true, Bool.false_eq_true, if_false, List.length_nil]
  omega

/-- A published body is within the guard of the consumer. SOURCE: app/consumer/rabbitmq.py:109-116
-/
theorem length_publishEvent_le (body : EventPublishRequest) (u : Uuid) :
    (publishEvent body u).size ≤ Settings.default.consumerMaxMessageBytes := by
  have hpayload := length_dumps_default_le (.obj body.payload) body.payload_floats
  have hmeasured := length_payload_le body
  have hid := length_dumpsStr_le (length_publishedId_le body u)
  have htype := length_dumpsStr_le body.event_type_length.2
  have htotal := length_publishedEvent body u
  have hmax : maxPayloadBytes = 512000 := rfl
  have hguard : Settings.default.consumerMaxMessageBytes = 1048576 := rfl
  have hsize : (publishEvent body u).size = ((publishedEvent body u).dumps .default).length := rfl
  omega

/-! ## The result -/

/-- A guard that lets the default size through does not stop a published message.
SOURCE: app/consumer/rabbitmq.py:109-128 -/
theorem parseMessage_publishEvent {cfg : Settings} (body : EventPublishRequest) (u u' : Uuid)
    (hcfg : Settings.default.consumerMaxMessageBytes ≤ cfg.consumerMaxMessageBytes) :
    parseMessage cfg (publishEvent body u) u' ≠ .discard := by
  have hsize := length_publishEvent_le body u
  have hguard : ¬ cfg.consumerMaxMessageBytes < (publishEvent body u).size := by omega
  rw [parseMessage, if_neg hguard]
  simp only [publishEvent, publishedEvent, Json.reread]
  intro h
  cases h

/-- Every body that `publish_event` builds for a valid request passes the size guard of
`handle_message`: the text with the default separators is at most half as long again as the
compact one, and a code point takes at most twelve bytes.
SOURCE: app/schemas/event.py:11-41, app/api/events.py:23-43, app/consumer/rabbitmq.py:106-119 -/
theorem published_within_size_guard (body : EventPublishRequest) (u : Uuid) :
    (publishEvent body u).size ≤ 1048576 ∧
      (∀ u', parseMessage .default (publishEvent body u) u' ≠ .discard) ∧
      (∀ v : Json, v.floatsOk = true →
        2 * (v.dumps .default).length ≤ 3 * (v.dumps .compact).length) ∧
      ∀ c, (Json.escapeChar c).length ≤ 12 := by
  refine ⟨length_publishEvent_le body u, ?_, ?_, length_escapeChar_le⟩
  · exact fun u' => parseMessage_publishEvent body u u' le_rfl
  · intro v hv
    have hhalf := length_dumps_default_le v hv
    omega

/-- A request without an identifier, with every kind of number. -/
def sampleRequest : EventPublishRequest where
  eventType := py "order.placed"
  payload := [(py "total", .arr [.int (-3), .float (ascii "1e-07"), .float (ascii "NaN")])]
  messageId := none
  event_type_length := by decide
  event_type_unicode := by decide
  payload_size := rfl
  message_id_length _ h := by cases h
  message_id_unicode _ h := by cases h
  payload_floats := by decide

/-- A request without an id, and the separators of one array. -/
theorem published_within_size_guard_sampleRequest :
    (publishEvent sampleRequest ⟨7⟩).size ≤ 1048576 ∧
      2 * (Json.arr [.float (ascii "1e-07")] |>.dumps .default).length ≤
        3 * (Json.arr [.float (ascii "1e-07")] |>.dumps .compact).length :=
  have h := published_within_size_guard sampleRequest ⟨7⟩
  ⟨h.1, h.2.2.1 _ (by decide)⟩

end EventPipeline.Analysis
