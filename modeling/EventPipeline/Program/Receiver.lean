import Mathlib.Data.List.DropRight
import EventPipeline.Computation.Utf8
import EventPipeline.Program.Signing

/-!
# The webhook receiver

The receiver keeps the last deliveries in memory, and `_hmac_verify` of the end-to-end test checks
a stored delivery. What `json.loads` makes of a body is a parameter; `none` is an exception. Whether
`logger.info` takes the values that it is given is another one: it raises for a text that the
output cannot encode.
-/

set_option autoImplicit false

namespace EventPipeline.Program

open EventPipeline.Model EventPipeline.Computation

/-! ## What a request holds -/

/-- The text of a header value, which is decoded as Latin-1. -/
def latin1 (value : Bytes) : PyStr := value.map fun b => chr b.toNat

def lowerByte (b : UInt8) : UInt8 := if 0x41 ≤ b && b ≤ 0x5a then b + 0x20 else b

/-- `Header(None)`: the first header of that name, in any case.
SOURCE: receiver/main.py:25-27 -/
def WebhookRequest.headerText (req : WebhookRequest) (name : Bytes) : Option PyStr :=
  (req.headers.find? fun h => h.1.map lowerByte = name).map fun h => latin1 h.2

/-- `body.decode("utf-8", errors="replace")`. -/
def decodeReplace (body : Bytes) : PyStr := (Utf8.decode body).map chr

/-- SOURCE: receiver/main.py:37-44 -/
structure ReceivedEntry where
  webhookId : Option PyStr
  timestampMs : Option PyStr
  signature : Option PyStr
  body : Json
  rawBody : PyStr
  receivedAt : ℤ

/-! ## `receive_webhook` -/

/-- The bound of the deque. SOURCE: receiver/main.py:19 -/
def maxReceived : ℕ := 1000

/-- `_received.append(entry)`: a full deque loses its oldest entry. -/
def appendReceived (received : List ReceivedEntry) (entry : ReceivedEntry) : List ReceivedEntry :=
  (received ++ [entry]).rtake maxReceived

inductive WebhookReply where
  /-- 200 with the id of the webhook -/
  | ok (webhookId : Option PyStr)
  /-- 500 -/
  | failed

section
variable (loads : Bytes → Option Json) (logs : Option PyStr → Json → Json → Bool)

/-- A body that is no JSON counts as an empty dict. SOURCE: receiver/main.py:29-44 -/
def receivedEntry (req : WebhookRequest) (nowMs : ℤ) : ReceivedEntry where
  webhookId := req.headerText (ascii "x-webhook-id")
  timestampMs := req.headerText (ascii "x-webhook-timestamp")
  signature := req.headerText (ascii "x-webhook-signature")
  body := (loads req.body).getD (.obj [])
  rawBody := decodeReplace req.body
  receivedAt := nowMs

/-- `data.get(key)` of a dict. -/
def getOrNone (data : List (PyStr × Json)) (key : PyStr) : Json := (Json.get data key).getD .null

/-- The entry is stored before the log call, which raises for a body that is no dict, and for
values that `logger.info` does not take. SOURCE: receiver/main.py:22-54 -/
def receiveWebhook (req : WebhookRequest) (nowMs : ℤ) (received : List ReceivedEntry) :
    WebhookReply × List ReceivedEntry :=
  let entry := receivedEntry loads req nowMs
  (match entry.body with
    | .obj data =>
      if logs entry.webhookId (getOrNone data (py "event_type"))
          (getOrNone data (py "delivery_id"))
      then .ok entry.webhookId
      else .failed
    | _ => .failed,
    appendReceived received entry)

end

/-! ## `list_received` -/

/-- `items[start:]`. -/
def sliceFrom {α : Type} (start : ℤ) (items : List α) : List α :=
  items.drop (if start < 0 then items.length + start else start).toNat

mutual
/-- `json.dumps(v, ensure_ascii=False, allow_nan=False).encode("utf-8")` raises nothing. -/
def renders : Json → Bool
  | .float r => r ≠ ascii "NaN" && r ≠ ascii "Infinity" && r ≠ ascii "-Infinity"
  | .str s => s.all fun c => !isSurrogate c
  | .arr vs => rendersAll vs
  | .obj fs => rendersFields fs
  | _ => true
def rendersAll : List Json → Bool
  | [] => true
  | v :: vs => renders v && rendersAll vs
def rendersFields : List (PyStr × Json) → Bool
  | [] => true
  | (k, v) :: fs => (k.all fun c => !isSurrogate c) && renders v && rendersFields fs
end

def optionalText (s : Option PyStr) : Json := (s.map Json.str).getD .null

/-- SOURCE: receiver/main.py:37-44 -/
def ReceivedEntry.json (entry : ReceivedEntry) : Json :=
  .obj
    [(py "webhook_id", optionalText entry.webhookId),
      (py "timestamp_ms", optionalText entry.timestampMs),
      (py "signature", optionalText entry.signature), (py "body", entry.body),
      (py "raw_body", .str entry.rawBody), (py "received_at", .int entry.receivedAt)]

/-- The listed entries, or `none` for a 500. SOURCE: receiver/main.py:57-60 -/
def listReceived (limit : ℤ) (received : List ReceivedEntry) : Option (List ReceivedEntry) :=
  let items := sliceFrom (-limit) received
  if items.all fun entry => renders entry.json then some items else none

/-! ## The receiver as a whole -/

inductive ReceiverAction where
  | webhook (req : WebhookRequest) (nowMs : ℤ)
  | list (limit : ℤ)
  /-- `DELETE /received` -/
  | clear
  | health

/-- Each handler runs in one piece after it has read its request. SOURCE: receiver/main.py:22-71 -/
def receiver (loads : Bytes → Option Json) (logs : Option PyStr → Json → Json → Bool)
    (received : List ReceivedEntry) : ReceiverAction → Option (List ReceivedEntry)
  | .webhook req nowMs => some (receiveWebhook loads logs req nowMs received).2
  | .clear => some []
  | .list _ | .health => some received

/-! ## The check of the end-to-end test -/

/-- `_hmac_verify`; `none` is an exception. `hmac.compare_digest` takes ASCII texts only.
SOURCE: scripts/e2e_test.py:109-113 -/
def hmacVerify (hmacSha256 : Bytes → Bytes → Bytes) (secret : PyStr) (rawBody : Bytes)
    (signatureHeader timestampMs : PyStr) : Option Bool :=
  if signatureHeader.all fun c => c.val < 0x80 then
    (encode secret).bind fun key => (encode timestampMs).map fun timestamp =>
      latin1 (ascii "sha256=" ++
        hexdigest (hmacSha256 key (timestamp ++ ascii "." ++ rawBody))) = signatureHeader
  else none

/-- The check of a stored entry, after `tamper` has changed its raw body. A missing signature has no
`startswith`. SOURCE: scripts/e2e_test.py:319-335 -/
def checkEntry (hmacSha256 : Bytes → Bytes → Bytes) (secret : PyStr) (tamper : Bytes → Bytes)
    (entry : ReceivedEntry) : Option Bool :=
  match entry.signature, encode entry.rawBody with
  | some signature, some raw =>
    hmacVerify hmacSha256 secret (tamper raw) signature (entry.timestampMs.getD (py "None"))
  | _, _ => none

end EventPipeline.Program
