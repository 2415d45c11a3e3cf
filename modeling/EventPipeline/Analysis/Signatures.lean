import EventPipeline.Computation.Framing
import EventPipeline.Program.Signing

/-!
# Signatures bind body and timestamp

The decimal timestamp contains no full stop, so the signed message determines the timestamp
and the body. Unless the two messages that are compared are a collision of HMAC-SHA256,
`verify` accepts exactly the signed pair, and it always accepts what `deliver` sends.
-/

set_option autoImplicit false

namespace EventPipeline.Analysis

open EventPipeline.Model EventPipeline.Program EventPipeline.Computation

/-! ## Decimal text -/

/-- The digits that `str(n)` writes are ASCII digits. -/
theorem digit_of_mem {n : ℕ} {b : UInt8}
    (h : b ∈ (Nat.toDigits 10 n).map fun c => UInt8.ofNat c.toNat) : 0x30 ≤ b ∧ b ≤ 0x39 := by
  obtain ⟨c, hc, rfl⟩ := List.mem_map.1 h
  have hdigit : c.isDigit = true := Nat.isDigit_of_mem_toDigits (by decide) (by decide) hc
  simp only [Char.isDigit, Bool.and_eq_true, decide_eq_true_eq] at hdigit
  obtain ⟨hlow, hhigh⟩ := hdigit
  have hlow' : 48 ≤ c.toNat := hlow
  have hhigh' : c.toNat ≤ 57 := hhigh
  simp only [UInt8.le_iff_toNat_le, UInt8.toNat_ofNat', UInt8.toNat_ofNat]
  omega

/-- Reading the digits of `n` gives `n` back. -/
theorem parseNat_toDigits (n : ℕ) :
    parseNat ((Nat.toDigits 10 n).map fun c => UInt8.ofNat c.toNat) = some n := by
  have hne : (Nat.toDigits 10 n).map (fun c => UInt8.ofNat c.toNat) ≠ [] := by
    simp [Nat.toDigits_ne_nil]
  have hdigits : ((Nat.toDigits 10 n).map fun c => UInt8.ofNat c.toNat).all
      (fun b => 0x30 ≤ b && b ≤ 0x39) = true := by
    simp only [List.all_eq_true, Bool.and_eq_true, decide_eq_true_eq]
    exact fun _ => digit_of_mem
  rw [parseNat, if_pos ⟨hne, hdigits⟩, List.foldl_map, Option.some.injEq]
  have hvalue : ∀ (m : ℕ) (c : Char), c ∈ Nat.toDigits 10 n →
      10 * m + ((UInt8.ofNat c.toNat).toNat - 0x30) = 10 * m + (c.toNat - '0'.toNat) := by
    intro m c hc
    have hdigit : c.isDigit = true := Nat.isDigit_of_mem_toDigits (by decide) (by decide) hc
    simp only [Char.isDigit, Bool.and_eq_true, decide_eq_true_eq] at hdigit
    have hhigh : c.toNat ≤ 57 := hdigit.2
    rw [UInt8.toNat_ofNat', Nat.mod_eq_of_lt (by omega)]
    rfl
  calc List.foldl (fun m c => 10 * m + ((UInt8.ofNat c.toNat).toNat - 0x30)) 0 (Nat.toDigits 10 n)
      = List.foldl (fun m c => 10 * m + (c.toNat - '0'.toNat)) 0 (Nat.toDigits 10 n) :=
        List.foldl_ext _ _ _ hvalue
    _ = Nat.ofDigitChars 10 (Nat.toDigits 10 n) 0 := rfl
    _ = n := Nat.ofDigitChars_ten_toDigits

/-- A receiver that parses the decimal text of an integer gets the integer back. -/
theorem parseInt_dumpsInt (n : ℤ) : parseInt (Json.dumpsInt n) = some n := by
  unfold Json.dumpsInt
  by_cases hn : n < 0
  · have hsign : ascii "-" = [0x2d] := by decide
    rw [if_pos hn, hsign, List.singleton_append]
    show (parseNat _).map (fun k : ℕ => -(k : ℤ)) = some n
    rw [parseNat_toDigits, Option.map_some, Option.some.injEq]
    omega
  · rw [if_neg hn, List.nil_append]
    have hparse := parseNat_toDigits n.natAbs
    have hdigit := fun b => digit_of_mem (n := n.natAbs) (b := b)
    generalize (Nat.toDigits 10 n.natAbs).map (fun c => UInt8.ofNat c.toNat) = digits at *
    unfold parseInt
    split
    · rename_i rest
      exact absurd (hdigit 0x2d List.mem_cons_self).1 (by decide)
    · rw [hparse, Option.map_some, Option.some.injEq]
      omega

/-- Different timestamps are written differently. -/
theorem dumpsInt_injective : Function.Injective Json.dumpsInt := by
  intro m n h
  have hparse := parseInt_dumpsInt m
  rw [h, parseInt_dumpsInt, Option.some.injEq] at hparse
  exact hparse.symm

/-- A timestamp has no full stop. SOURCE: app/delivery/signing.py:20 -/
theorem dot_not_mem_dumpsInt (n : ℤ) : 0x2e ∉ Json.dumpsInt n := by
  intro h
  unfold Json.dumpsInt at h
  obtain hsign | hdigits := List.mem_append.1 h
  · split at hsign
    · exact absurd hsign (by decide)
    · cases hsign
  · exact absurd (digit_of_mem hdigits).1 (by decide)

/-! ## The signed message and the signature -/

/-- The signed message determines the timestamp and the body.
SOURCE: app/delivery/signing.py:20 -/
theorem canonical_injective : Function.Injective fun p : ℤ × Bytes => canonical p.1 p.2 := by
  have hframe : (fun p : ℤ × Bytes => canonical p.1 p.2) =
      fun p => Json.dumpsInt p.1 ++ 0x2e :: p.2 := by
    funext p
    rw [canonical, List.append_assoc]
    rfl
  rw [hframe]
  exact separated_injective dumpsInt_injective dot_not_mem_dumpsInt

/-- Different hexadecimal digits are different bytes. -/
theorem hexByte_injective : ∀ d < 16, ∀ e < 16, Json.hexByte d = Json.hexByte e → d = e := by
  decide

/-- Different digests are written differently. SOURCE: app/delivery/signing.py:21 -/
theorem hexdigest_injective : Function.Injective hexdigest := by
  refine flatMap_injective (n := 2) ?_ (fun _ => rfl) (by decide)
  intro b c h
  obtain ⟨hhigh, hlow⟩ := List.cons.inj h
  have hb := b.toNat_lt
  have hc := c.toNat_lt
  have hdiv := hexByte_injective _ (by omega) _ (by omega) hhigh
  have hmod := hexByte_injective _ (by omega) _ (by omega) (List.cons.inj hlow).1
  apply UInt8.toNat_inj.1
  omega

/-- Two messages with one digest. -/
def Collision (mac : Bytes → Bytes) (m m' : Bytes) : Prop := m ≠ m' ∧ mac m = mac m'

instance (mac : Bytes → Bytes) (m m' : Bytes) : Decidable (Collision mac m m') :=
  inferInstanceAs (Decidable (m ≠ m' ∧ mac m = mac m'))

section
variable {hmacSha256 : Bytes → Bytes → Bytes}

/-- Two signed messages that do not collide have one digest only for the same timestamp and body.
SOURCE: app/delivery/signing.py:20-22 -/
theorem digest_eq_iff {key b b' : Bytes} {ts ts' : ℤ}
    (hcoll : ¬ Collision (hmacSha256 key) (canonical ts' b') (canonical ts b)) :
    hmacSha256 key (canonical ts' b') = hmacSha256 key (canonical ts b) ↔ b' = b ∧ ts' = ts := by
  constructor
  · intro heq
    have hmsg : canonical ts' b' = canonical ts b := by
      by_contra hne
      exact hcoll ⟨hne, heq⟩
    have hpair : (ts', b') = (ts, b) := canonical_injective hmsg
    exact ⟨congrArg Prod.snd hpair, congrArg Prod.fst hpair⟩
  · rintro ⟨rfl, rfl⟩
    rfl

/-- `verify` on a signature that `sign` made with the same secret compares two digests.
SOURCE: app/delivery/signing.py:25-43 -/
theorem verify_sign_iff {secret : PyStr} {b sig : Bytes} {ts ts₁ : ℤ}
    (h : sign hmacSha256 secret b ts = some (sig, ts₁)) (b' : Bytes) (ts' tol now : ℤ) :
    ∃ key, encode secret = some key ∧
      (verify hmacSha256 secret b' sig ts' tol now = some true ↔
        hmacSha256 key (canonical ts' b') = hmacSha256 key (canonical ts b) ∧
          (now - ts').natAbs ≤ 1000 * tol) := by
  obtain ⟨key, hkey, heq⟩ := Option.map_eq_some_iff.1 h
  have hsig : sig = ascii "sha256=" ++ hexdigest (hmacSha256 key (canonical ts b)) :=
    (congrArg Prod.fst heq).symm
  refine ⟨key, hkey, ?_⟩
  unfold verify
  by_cases hage : tol * 1000 < (now - ts').natAbs
  · rw [if_pos hage]
    refine iff_of_false (fun h => by cases h) ?_
    rintro ⟨_, hle⟩
    omega
  · rw [if_neg hage, sign, hkey, Option.map_some, Option.map_some, Option.some.injEq,
      decide_eq_true_iff, hsig]
    constructor
    · intro h
      exact ⟨hexdigest_injective (List.append_cancel_left h), by omega⟩
    · rintro ⟨h, _⟩
      rw [h]

/-- What `deliver` sends carries the timestamp and the signature that it was made with.
SOURCE: app/delivery/sender.py:56-67 -/
theorem receive_deliverRequest {id : Uuid} {secret eventType : PyStr} {payload : Json}
    {sentMs : ℤ} {req : WebhookRequest}
    (h : deliverRequest hmacSha256 id secret eventType payload sentMs = some req) (tol now : ℤ) :
    ∃ sig, sign hmacSha256 secret req.body sentMs = some (sig, sentMs) ∧
      receive hmacSha256 secret req tol now =
        verify hmacSha256 secret req.body sig sentMs tol now := by
  obtain ⟨⟨sig, ts⟩, hsign, rfl⟩ := Option.map_eq_some_iff.1 h
  have hts : ts = sentMs := by
    obtain ⟨_, _, heq⟩ := Option.map_eq_some_iff.1 hsign
    exact (congrArg Prod.snd heq).symm
  subst hts
  refine ⟨sig, hsign, ?_⟩
  show receive hmacSha256 secret ⟨deliverBody id eventType payload,
    [(_, _), (_, sig), (_, Json.dumpsInt ts), (_, _)]⟩ tol now = _
  have htype : ascii "Content-Type" ≠ ascii "X-Webhook-Signature" ∧
      ascii "Content-Type" ≠ ascii "X-Webhook-Timestamp" := by decide
  have hname : ascii "X-Webhook-Signature" ≠ ascii "X-Webhook-Timestamp" := by decide
  simp [receive, WebhookRequest.header, htype, hname, parseInt_dumpsInt]

/-! ## The result -/

/-- What a signature is for: it stands for one timestamp and one body, and the receiver of a
delivery can check it. -/
structure SignaturesBind (hmacSha256 : Bytes → Bytes → Bytes) : Prop where
  encoding : Function.Injective fun p : ℤ × Bytes => canonical p.1 p.2
  /-- unless the two messages that are compared are a collision -/
  verified : ∀ secret b ts sig ts₁, sign hmacSha256 secret b ts = some (sig, ts₁) →
    ∀ b' ts' tol now,
      (∀ key, encode secret = some key →
        ¬ Collision (hmacSha256 key) (canonical ts' b') (canonical ts b)) →
      (verify hmacSha256 secret b' sig ts' tol now = some true ↔
        b' = b ∧ ts' = ts ∧ (now - ts').natAbs ≤ 1000 * tol)
  delivered : ∀ id secret eventType payload sentMs req,
    deliverRequest hmacSha256 id secret eventType payload sentMs = some req →
    ∀ tol now, receive hmacSha256 secret req tol now = some true ↔
      (now - sentMs).natAbs ≤ 1000 * tol

end

/-! ## A concrete delivery -/

def sampleSecret : PyStr := py "testsecret-abc123"

def sampleSentMs : ℤ := 1700000000000

def sampleMessage : Bytes :=
  canonical sampleSentMs (deliverBody ⟨1⟩ (py "test") (.obj [(py "x", .int 1)]))

/-- HMAC-SHA256 of `sampleMessage` under `sampleSecret`. -/
def sampleDigest : Bytes :=
  [158, 18, 120, 214, 78, 177, 100, 67, 104, 26, 238, 91, 193, 163, 54, 159, 223, 97, 126, 185, 36,
    146, 181, 23, 222, 160, 156, 218, 50, 196, 161, 19]

/-- The digest of the sample; any other message stands for its own digest. -/
def sampleHmac (_ msg : Bytes) : Bytes :=
  if msg = sampleMessage then sampleDigest else List.replicate 33 0 ++ msg

/-- Messages that differ are no collision of it. -/
theorem not_collision_sampleHmac (key m m' : Bytes) : ¬ Collision (sampleHmac key) m m' := by
  rintro ⟨hne, h⟩
  have hlen := congrArg List.length h
  have hdigest : sampleDigest.length = 32 := by decide
  unfold sampleHmac at h hlen
  by_cases hm : m = sampleMessage
  · have hm' : m' ≠ sampleMessage := fun heq => hne (hm.trans heq.symm)
    rw [if_pos hm, if_neg hm', List.length_append, List.length_replicate] at hlen
    omega
  · by_cases hm' : m' = sampleMessage
    · rw [if_neg hm, if_pos hm', List.length_append, List.length_replicate] at hlen
      omega
    · rw [if_neg hm, if_neg hm'] at h
      exact hne (List.append_cancel_left h)

/-- The sample can be signed. -/
theorem sampleRequest_isSome : (deliverRequest sampleHmac ⟨1⟩ sampleSecret (py "test")
    (.obj [(py "x", .int 1)]) sampleSentMs).isSome = true := by decide

/-- So can its body alone. -/
theorem sampleSignature_isSome : (sign sampleHmac sampleSecret (deliverBody ⟨1⟩ (py "test")
    (.obj [(py "x", .int 1)])) sampleSentMs).isSome = true := by decide

end EventPipeline.Analysis
