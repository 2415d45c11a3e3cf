import EventPipeline.Model.Json

/-!
# Signing and verifying

`sign`, `verify` and the request that `deliver` sends. HMAC-SHA256 is a parameter
`hmacSha256`, from the key and the message to the bytes of the digest. The texts that are
signed and sent are ASCII, so that they are kept as their bytes.
-/

set_option autoImplicit false

namespace EventPipeline.Program

open EventPipeline.Model

/-! ## Text and bytes -/

/-- The UTF-8 encoding of one code point; a surrogate has none. -/
def encodeChar (c : PyChar) : Option Bytes :=
  let n := c.val
  if isSurrogate c then none
  else if n < 0x80 then some [UInt8.ofNat n]
  else if n < 0x800 then some [UInt8.ofNat (0xc0 + n / 0x40), UInt8.ofNat (0x80 + n % 0x40)]
  else if n < 0x10000 then
    some [UInt8.ofNat (0xe0 + n / 0x1000), UInt8.ofNat (0x80 + n / 0x40 % 0x40),
      UInt8.ofNat (0x80 + n % 0x40)]
  else
    some [UInt8.ofNat (0xf0 + n / 0x40000), UInt8.ofNat (0x80 + n / 0x1000 % 0x40),
      UInt8.ofNat (0x80 + n / 0x40 % 0x40), UInt8.ofNat (0x80 + n % 0x40)]

/-- `s.encode()`; `none` is `UnicodeEncodeError`. -/
def encode (s : PyStr) : Option Bytes := (s.mapM encodeChar).map List.flatten

/-- Two hexadecimal digits for each byte. -/
def hexdigest (digest : Bytes) : Bytes :=
  digest.flatMap fun b => [Json.hexByte (b.toNat / 16), Json.hexByte (b.toNat % 16)]

/-- The value of a nonempty sequence of ASCII digits. -/
def parseNat (text : Bytes) : Option ℕ :=
  if text ≠ [] ∧ text.all fun b => 0x30 ≤ b && b ≤ 0x39 then
    some (text.foldl (fun n b => 10 * n + (b.toNat - 0x30)) 0)
  else none

/-- `int(text)` for an optional minus sign and ASCII digits, which is what `str` of an
integer gives. -/
def parseInt : Bytes → Option ℤ
  | 0x2d :: digits => (parseNat digits).map fun n : ℕ => -(n : ℤ)
  | digits => (parseNat digits).map fun n : ℕ => (n : ℤ)

/-! ## `sign` and `verify` -/

/-- What is signed: the decimal timestamp, a full stop, the body.
SOURCE: app/delivery/signing.py:20 -/
def canonical (timestampMs : ℤ) (body : Bytes) : Bytes :=
  Json.dumpsInt timestampMs ++ ascii "." ++ body

section
variable (hmacSha256 : Bytes → Bytes → Bytes)

/-- The header value and the timestamp; `none` when encoding the secret raises.
SOURCE: app/delivery/signing.py:10-22 -/
def sign (secret : PyStr) (body : Bytes) (timestampMs : ℤ) : Option (Bytes × ℤ) :=
  (encode secret).map fun key =>
    (ascii "sha256=" ++ hexdigest (hmacSha256 key (canonical timestampMs body)), timestampMs)

/-- `verify` when `int(time.time() * 1000)` gives `nowMs`.
SOURCE: app/delivery/signing.py:25-43 -/
def verify (secret : PyStr) (body signatureHeader : Bytes) (timestampMs toleranceSeconds nowMs : ℤ) :
    Option Bool :=
  if toleranceSeconds * 1000 < (nowMs - timestampMs).natAbs then some false
  else
    (sign hmacSha256 secret body timestampMs).map fun expected => expected.1 = signatureHeader

/-! ## The request of `deliver` -/

structure WebhookRequest where
  body : Bytes
  headers : List (Bytes × Bytes)

/-- `body_bytes`. SOURCE: app/delivery/sender.py:49-54 -/
def deliverBody (deliveryId : Uuid) (eventType : PyStr) (payload : Json) : Bytes :=
  (Json.obj [(py "delivery_id", .str deliveryId.str), (py "event_type", .str eventType),
    (py "payload", payload)]).dumps .compact

/-- What `deliver` hands to `client.post` at time `nowMs`.
SOURCE: app/delivery/sender.py:49-67 -/
def deliverRequest (deliveryId : Uuid) (secret eventType : PyStr) (payload : Json) (nowMs : ℤ) :
    Option WebhookRequest :=
  let body := deliverBody deliveryId eventType payload
  (sign hmacSha256 secret body nowMs).map fun s =>
    { body := body
      headers :=
        [(ascii "Content-Type", ascii "application/json"), (ascii "X-Webhook-Signature", s.1),
          (ascii "X-Webhook-Timestamp", Json.dumpsInt s.2),
          (ascii "X-Webhook-ID", deliveryId.str.map fun c => UInt8.ofNat c.val)] }

def WebhookRequest.header (req : WebhookRequest) (name : Bytes) : Option Bytes :=
  (req.headers.find? fun h => h.1 = name).map Prod.snd

/-- A receiver that parses the timestamp header as an integer and calls `verify` on the body
and the signature header. SOURCE: app/delivery/signing.py:25-43 -/
def receive (secret : PyStr) (req : WebhookRequest) (toleranceSeconds nowMs : ℤ) : Option Bool :=
  match req.header (ascii "X-Webhook-Signature"),
    (req.header (ascii "X-Webhook-Timestamp")).bind parseInt with
  | some signatureHeader, some timestampMs =>
    verify hmacSha256 secret req.body signatureHeader timestampMs toleranceSeconds nowMs
  | _, _ => none

end

end EventPipeline.Program
