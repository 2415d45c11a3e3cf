import Mathlib.Tactic.FinCases
import EventPipeline.Computation.History
import EventPipeline.Program.Receiver
import EventPipeline.Analysis.Signatures
import EventPipeline.Analysis.ValueFlow
import EventPipeline.Analysis.WebhookAuthenticity

/-!
# What the receiver keeps of a delivery

The receiver is a log with a bound: its answers are those of a log that forgets nothing, as far
as the last 1000 entries. The stored text of a body restores the bytes exactly when they were
UTF-8. A delivery of a worker is ASCII, so that its stored entry passes the check of the
end-to-end test, and a changed body does not.
-/

set_option autoImplicit false

namespace EventPipeline.Analysis

open EventPipeline.Model EventPipeline.Program EventPipeline.Interface EventPipeline.Computation

/-! ## The bounded log -/

section
variable {α : Type}

/-- The last entries of the last entries are the last entries. -/
theorem rtake_rtake (l : List α) (m n : ℕ) : (l.rtake n).rtake m = l.rtake (min m n) := by
  rw [List.rtake_eq_reverse_take_reverse, List.rtake_eq_reverse_take_reverse,
    List.rtake_eq_reverse_take_reverse, List.reverse_reverse, List.take_take]

/-- What was dropped before is never among the last `n`. -/
theorem rtake_rtake_append (l : List α) (n : ℕ) (x : α) :
    (l.rtake n ++ [x]).rtake n = (l ++ [x]).rtake n := by
  cases n with
  | zero => simp
  | succ k =>
    have hkeep : (l.rtake (k + 1)).rtake k = l.rtake k := by
      rw [rtake_rtake, Nat.min_eq_left (Nat.le_succ k)]
    rw [List.rtake_concat_succ, List.rtake_concat_succ, hkeep]

/-- `items[-limit:]` is about the last items only for a positive `limit`. -/
theorem sliceFrom_neg (items : List α) (limit : ℤ) :
    sliceFrom (-limit) items =
      if 0 < limit then items.rtake limit.toNat else items.drop (-limit).toNat := by
  unfold sliceFrom
  by_cases h : 0 < limit
  · rw [if_pos h, if_pos (by omega), List.rtake]
    congr 1
    omega
  · rw [if_neg h, if_neg (by omega)]

end

section
variable (loads : Bytes → Option Json) (logs : Option PyStr → Json → Json → Bool)

/-- The entries since the last `DELETE /received`, without a bound. -/
def receiverLog (log : List ReceivedEntry) : ReceiverAction → Option (List ReceivedEntry)
  | .webhook req nowMs => some (log ++ [receivedEntry loads req nowMs])
  | .clear => some []
  | .list _ | .health => some log

/-- What a caller sees. -/
inductive ReceiverReply where
  | webhook (reply : WebhookReply)
  | listed (items : Option (List ReceivedEntry))
  | cleared
  | healthy (receivedCount : ℕ)

/-- SOURCE: receiver/main.py:22-71 -/
def receiverReply (received : List ReceivedEntry) : ReceiverAction → List ReceiverReply
  | .webhook req nowMs => [.webhook (receiveWebhook loads logs req nowMs received).1]
  | .list limit => [.listed (listReceived limit received)]
  | .clear => [.cleared]
  | .health => [.healthy received.length]

/-- The entries that `list_received` shows of a log. A limit of 0 shows as much as possible, and
a negative one leaves that many of the oldest entries out. -/
def shown (limit : ℤ) (log : List ReceivedEntry) : List ReceivedEntry :=
  if 0 < limit then log.rtake (min limit.toNat maxReceived)
  else (log.rtake maxReceived).drop (-limit).toNat

/-- What a caller of the unbounded log sees. -/
def logReply (log : List ReceivedEntry) : ReceiverAction → List ReceiverReply
  | .webhook req nowMs => [.webhook (receiveWebhook loads logs req nowMs []).1]
  | .list limit =>
    [.listed (if (shown limit log).all fun entry => renders entry.json then some (shown limit log)
      else none)]
  | .clear => [.cleared]
  | .health => [.healthy (min log.length maxReceived)]

end

/-- A list of the bounded store is a list of the log. SOURCE: receiver/main.py:57-60 -/
theorem listReceived_rtake (limit : ℤ) (log : List ReceivedEntry) :
    listReceived limit (log.rtake maxReceived) =
      if (shown limit log).all fun entry => renders entry.json then some (shown limit log)
      else none := by
  have hslice : sliceFrom (-limit) (log.rtake maxReceived) = shown limit log := by
    rw [sliceFrom_neg, shown, rtake_rtake]
  rw [listReceived, hslice]

section
variable (loads : Bytes → Option Json) (logs : Option PyStr → Json → Json → Bool)

/-- A delivery is stored whatever it is answered. SOURCE: receiver/main.py:36-45 -/
theorem receiver_webhook (received : List ReceivedEntry) (req : WebhookRequest) (nowMs : ℤ) :
    receiver loads logs received (.webhook req nowMs) =
      some (appendReceived received (receivedEntry loads req nowMs)) := by
  rw [receiver, receiveWebhook]

/-- No request stops the receiver. -/
theorem exists_received (as : List ReceiverAction) :
    ∃ received, run (receiver loads logs) [] as = some received := by
  suffices h : ∀ received, ∃ received', run (receiver loads logs) received as = some received' from
    h []
  induction as with
  | nil => exact fun received => ⟨received, rfl⟩
  | cons a as ih =>
    intro received
    obtain ⟨next, hnext⟩ : ∃ next, receiver loads logs received a = some next := by
      cases a with
      | webhook req nowMs => exact ⟨_, receiver_webhook loads logs received req nowMs⟩
      | _ => exact ⟨_, rfl⟩
    obtain ⟨received', hrest⟩ := ih next
    exact ⟨received', run_cons_eq_some.2 ⟨next, hnext, hrest⟩⟩

/-- In every sequence of requests the receiver answers as the log that forgets nothing, whatever
`json.loads` makes of the bodies and `logger.info` of the values.
SOURCE: receiver/main.py:18-71 -/
theorem receiver_refines_log (as : List ReceiverAction) :
    ∃ received log, run (receiver loads logs) [] as = some received ∧
      run (receiverLog loads) [] as = some log ∧ received = log.rtake maxReceived ∧
      history (receiver loads logs) (receiverReply loads logs) [] as =
        history (receiverLog loads) (logReply loads logs) [] as := by
  obtain ⟨received, h⟩ := exists_received loads logs as
  have hempty : ([] : List ReceivedEntry) = [].rtake maxReceived := by rw [List.rtake_nil]
  suffices hlog : ∃ log, run (receiverLog loads) [] as = some log ∧
      received = log.rtake maxReceived ∧
      history (receiver loads logs) (receiverReply loads logs) [] as =
        history (receiverLog loads) (logReply loads logs) [] as by
    obtain ⟨log, hrun, hwindow, hreplies⟩ := hlog
    exact ⟨received, log, h, hrun, hwindow, hreplies⟩
  refine lockstep (R := fun (s t : List ReceivedEntry) => s = t.rtake maxReceived) hempty ?_ h
  intro s a s' log hR hs
  cases a with
  | webhook req nowMs =>
    rw [receiver_webhook] at hs
    refine ⟨rfl, _, rfl, (Option.some.inj hs).symm.trans ?_⟩
    rw [appendReceived, hR, rtake_rtake_append]
  | list limit =>
    refine ⟨?_, log, rfl, (Option.some.inj hs).symm.trans hR⟩
    rw [receiverReply, logReply, hR, listReceived_rtake]
  | clear => exact ⟨rfl, [], rfl, (Option.some.inj hs).symm.trans hempty⟩
  | health =>
    refine ⟨?_, log, rfl, (Option.some.inj hs).symm.trans hR⟩
    have hlen : (log.rtake maxReceived).length = min log.length maxReceived := by
      rw [List.rtake, List.length_drop]
      omega
    rw [receiverReply, logReply, hR, hlen]

end

/-! ## The stored text of a body -/

/-- SOURCE: app/delivery/signing.py:17 -/
theorem encodeChar_eq_some_iff {c : PyChar} {bs : Bytes} :
    encodeChar c = some bs ↔ Utf8.IsScalar c.val ∧ bs = Utf8.encodeScalar c.val := by
  have hlt := c.isLt
  unfold encodeChar
  by_cases hsur : isSurrogate c = true
  · simp only [if_pos hsur]
    simp only [isSurrogate, Bool.and_eq_true, decide_eq_true_eq] at hsur
    refine iff_of_false (fun h => by cases h) fun h => ?_
    have hscalar : c.val < 0xd800 ∨ 0xe000 ≤ c.val ∧ c.val < 0x110000 := h.1
    omega
  · have hscalar : Utf8.IsScalar c.val := by
      simp only [isSurrogate, Bool.and_eq_true, decide_eq_true_eq] at hsur
      unfold Utf8.IsScalar
      omega
    simp only [if_neg hsur, Utf8.encodeScalar]
    split_ifs <;> simp [hscalar, eq_comm]

/-- `str.encode` succeeds on scalar values. -/
theorem encode_eq_some_iff {s : PyStr} {bs : Bytes} :
    encode s = some bs ↔
      (∀ c ∈ s, Utf8.IsScalar c.val) ∧ bs = Utf8.encode (s.map Fin.val) := by
  induction s generalizing bs with
  | nil => simp [encode, Utf8.encode, eq_comm]
  | cons c s ih =>
    have hcons : encode (c :: s) = some bs ↔
        ∃ head tail, encodeChar c = some head ∧ encode s = some tail ∧ bs = head ++ tail := by
      simp only [encode, List.mapM_cons]
      cases encodeChar c <;> cases List.mapM encodeChar s <;> simp [eq_comm]
    rw [hcons]
    constructor
    · rintro ⟨head, tail, hhead, htail, rfl⟩
      obtain ⟨hc, rfl⟩ := encodeChar_eq_some_iff.1 hhead
      obtain ⟨hs, rfl⟩ := ih.1 htail
      exact ⟨List.forall_mem_cons.2 ⟨hc, hs⟩, rfl⟩
    · rintro ⟨hall, rfl⟩
      obtain ⟨hc, hs⟩ := List.forall_mem_cons.1 hall
      exact ⟨_, _, encodeChar_eq_some_iff.2 ⟨hc, rfl⟩, ih.2 ⟨hs, rfl⟩, rfl⟩

/-- A code point is read back from its character. -/
theorem val_chr {n : ℕ} (h : n < 0x110000) : (chr n).val = n := Nat.mod_eq_of_lt h

/-- The stored text can always be encoded again. SOURCE: receiver/main.py:42 -/
theorem encode_decodeReplace (body : Bytes) :
    encode (decodeReplace body) = some (Utf8.encode (Utf8.decode body)) := by
  have hval : ∀ n ∈ Utf8.decode body, (chr n).val = n := by
    intro n hn
    have hscalar : n < 0xd800 ∨ 0xe000 ≤ n ∧ n < 0x110000 := Utf8.isScalar_of_mem_decode hn
    exact val_chr (by omega)
  refine encode_eq_some_iff.2 ⟨fun c hc => ?_, ?_⟩
  · obtain ⟨n, hn, rfl⟩ := List.mem_map.1 hc
    rw [hval n hn]
    exact Utf8.isScalar_of_mem_decode hn
  · have hmap : (Utf8.decode body).map (Fin.val ∘ chr) = Utf8.decode body :=
      (List.map_congr_left hval).trans (List.map_id _)
    rw [decodeReplace, List.map_map, hmap]

/-- The entry that a webhook leaves, whatever the receiver has stored before. -/
theorem getLast_receiveWebhook (loads : Bytes → Option Json)
    (logs : Option PyStr → Json → Json → Bool) (req : WebhookRequest) (nowMs : ℤ)
    (received : List ReceivedEntry) :
    (receiveWebhook loads logs req nowMs received).2.getLast? =
      some (receivedEntry loads req nowMs) := by
  rw [receiveWebhook, appendReceived, maxReceived, List.rtake_concat_succ, List.getLast?_concat]

/-- The `raw_body` of a stored delivery is the body exactly when the body is UTF-8, whoever has
sent it. SOURCE: receiver/main.py:22-45, receiver/README.md:42 -/
theorem raw_body_restores (loads : Bytes → Option Json) (logs : Option PyStr → Json → Json → Bool)
    (req : WebhookRequest) (nowMs : ℤ) (received : List ReceivedEntry) :
    ∃ entry raw, (receiveWebhook loads logs req nowMs received).2.getLast? = some entry ∧
      encode entry.rawBody = some raw ∧ (raw = req.body ↔ ∃ s, encode s = some req.body) := by
  refine ⟨_, _, getLast_receiveWebhook loads logs req nowMs received,
    encode_decodeReplace req.body, ?_⟩
  rw [Utf8.encode_decode_iff]
  constructor
  · rintro ⟨s, hs, hbody⟩
    refine ⟨s.map chr, encode_eq_some_iff.2 ⟨fun c hc => ?_, ?_⟩⟩
    · obtain ⟨n, hn, rfl⟩ := List.mem_map.1 hc
      have hscalar : n < 0xd800 ∨ 0xe000 ≤ n ∧ n < 0x110000 := hs n hn
      rw [val_chr (by omega)]
      exact hs n hn
    · have hmap : s.map (Fin.val ∘ chr) = s := by
        refine (List.map_congr_left fun n hn => ?_).trans (List.map_id s)
        have hscalar : n < 0xd800 ∨ 0xe000 ≤ n ∧ n < 0x110000 := hs n hn
        exact val_chr (by omega)
      rw [List.map_map, hmap, hbody]
  · rintro ⟨s, hs⟩
    obtain ⟨hscalar, hbody⟩ := encode_eq_some_iff.1 hs
    refine ⟨s.map Fin.val, fun n hn => ?_, hbody.symm⟩
    obtain ⟨c, hc, rfl⟩ := List.mem_map.1 hn
    exact hscalar c hc

/-! ## What is sent is ASCII -/

def IsAscii (bs : Bytes) : Prop := ∀ b ∈ bs, b.toNat < 0x80

/-- A test of every byte shows that a text is ASCII. -/
theorem isAscii_of_all {bs : Bytes} (h : (bs.all fun b => b.toNat < 0x80) = true) : IsAscii bs :=
  fun b hb => of_decide_eq_true (List.all_eq_true.1 h b hb)

/-- Two ASCII texts one after the other are ASCII. -/
theorem IsAscii.append {bs bs' : Bytes} (h : IsAscii bs) (h' : IsAscii bs') :
    IsAscii (bs ++ bs') := by
  intro b hb
  obtain hb | hb := List.mem_append.1 hb
  · exact h b hb
  · exact h' b hb

/-- So is a text that is put together from ASCII parts. -/
theorem IsAscii.flatMap {α : Type} {l : List α} {f : α → Bytes} (h : ∀ x ∈ l, IsAscii (f x)) :
    IsAscii (l.flatMap f) := by
  intro b hb
  obtain ⟨x, hx, hb⟩ := List.mem_flatMap.1 hb
  exact h x hx b hb

/-- The hexadecimal digits are ASCII. -/
theorem isAscii_hexByte : ∀ d < 16, (Json.hexByte d).toNat < 0x80 := by decide

/-- So is an escape sequence. -/
theorem isAscii_escapeUnit (n : ℕ) : IsAscii (Json.escapeUnit n) := by
  have hdigit : ∀ m, (Json.hexByte (m % 16)).toNat < 0x80 :=
    fun m => isAscii_hexByte _ (Nat.mod_lt _ (by decide))
  intro b hb
  simp only [Json.escapeUnit, List.mem_cons, List.not_mem_nil, or_false] at hb
  obtain rfl | rfl | rfl | rfl | rfl | rfl := hb
  · decide
  · decide
  all_goals exact hdigit _

/-- `ensure_ascii` does what it says. -/
theorem isAscii_escapeChar (c : PyChar) : IsAscii (Json.escapeChar c) := by
  have htwo : ∀ b : UInt8, b.toNat < 0x80 → IsAscii [0x5c, b] := by
    intro b hb b' hb'
    simp only [List.mem_cons, List.not_mem_nil, or_false] at hb'
    obtain rfl | rfl := hb'
    · decide
    · exact hb
  unfold Json.escapeChar
  split_ifs with h₁ h₂ h₃ h₄ h₅ h₆ h₇ hprintable hplane
  · exact htwo _ (by decide)
  · exact htwo _ (by decide)
  · exact htwo _ (by decide)
  · exact htwo _ (by decide)
  · exact htwo _ (by decide)
  · exact htwo _ (by decide)
  · exact htwo _ (by decide)
  · intro b hb
    rw [List.mem_singleton.1 hb, UInt8.toNat_ofNat']
    omega
  · exact isAscii_escapeUnit _
  · exact (isAscii_escapeUnit _).append (isAscii_escapeUnit _)

/-- A string is written in ASCII, since everything else is escaped. -/
theorem isAscii_dumpsStr (s : PyStr) : IsAscii (Json.dumpsStr s) := by
  have hquote : IsAscii [0x22] := isAscii_of_all (by decide)
  exact (hquote.append (IsAscii.flatMap fun c _ => isAscii_escapeChar c)).append hquote

/-- A number is written in ASCII. -/
theorem isAscii_dumpsInt (n : ℤ) : IsAscii (Json.dumpsInt n) := by
  have hminus : IsAscii (ascii "-") := isAscii_of_all (by decide)
  have hnil : IsAscii [] := fun _ hb => absurd hb List.not_mem_nil
  unfold Json.dumpsInt
  refine IsAscii.append ?_ fun b hb => ?_
  · split
    · exact hminus
    · exact hnil
  · have hdigit := (digit_of_mem hb).2
    rw [UInt8.le_iff_toNat_le] at hdigit
    exact Nat.lt_of_le_of_lt hdigit (by decide)

/-- The texts of floats. -/
theorem isAscii_of_isFloatText {r : Bytes} (h : Json.isFloatText r = true) : IsAscii r := by
  have htokens : ∀ t ∈ [ascii "NaN", ascii "Infinity", ascii "-Infinity"], IsAscii t := by
    intro t ht
    simp only [List.mem_cons, List.not_mem_nil, or_false] at ht
    obtain rfl | rfl | rfl := ht
    all_goals exact isAscii_of_all (by decide)
  have hsigns : IsAscii (ascii "-+.e") := isAscii_of_all (by decide)
  simp only [Json.isFloatText, Bool.or_eq_true, Bool.and_eq_true, List.all_eq_true,
    decide_eq_true_eq] at h
  obtain h | ⟨_, h⟩ := h
  · exact htokens r h
  · intro b hb
    obtain ⟨_, hdigit⟩ | hsign := h b hb
    · rw [UInt8.le_iff_toNat_le] at hdigit
      exact Nat.lt_of_le_of_lt hdigit (by decide)
    · exact hsigns b hsign

/-- The other tokens of JSON are ASCII. -/
theorem isAscii_tokens : IsAscii (ascii "null") ∧ IsAscii (ascii "true") ∧ IsAscii (ascii "false") ∧
    IsAscii (ascii "[") ∧ IsAscii (ascii "]") ∧ IsAscii (ascii "\x7b") ∧ IsAscii (ascii "\x7d") ∧
    IsAscii Json.Separators.compact.item ∧ IsAscii Json.Separators.compact.key ∧ IsAscii [] := by
  refine ⟨?_, ?_, ?_, ?_, ?_, ?_, ?_, ?_, ?_, ?_⟩
  all_goals exact isAscii_of_all (by decide)

mutual
/-- The bytes of a value whose floats have the texts that Python writes.
SOURCE: app/delivery/sender.py:49-54 -/
theorem isAscii_dumps : ∀ v : Json, v.floatsOk = true → IsAscii (v.dumps .compact)
  | .null, _ => isAscii_tokens.1
  | .bool true, _ => isAscii_tokens.2.1
  | .bool false, _ => isAscii_tokens.2.2.1
  | .int n, _ => isAscii_dumpsInt n
  | .float _, h => isAscii_of_isFloatText h
  | .str s, _ => isAscii_dumpsStr s
  | .arr vs, h => by
    obtain ⟨_, _, _, hopen, hclose, _⟩ := isAscii_tokens
    exact (hopen.append (isAscii_dumpsItems vs h)).append hclose
  | .obj fs, h => by
    obtain ⟨_, _, _, _, _, hopen, hclose, _⟩ := isAscii_tokens
    exact (hopen.append (isAscii_dumpsFields fs h)).append hclose

/-- The items of an array are written in ASCII. -/
theorem isAscii_dumpsItems : ∀ vs : List Json, Json.floatsOkAll vs = true →
    IsAscii (Json.dumpsItems .compact vs)
  | [], _ => isAscii_tokens.2.2.2.2.2.2.2.2.2
  | v :: vs, h => by
    obtain ⟨hv, hvs⟩ := (Bool.and_eq_true _ _).mp h
    obtain ⟨_, _, _, _, _, _, _, hitem, _, hnil⟩ := isAscii_tokens
    refine ((isAscii_dumps v hv).append ?_).append (isAscii_dumpsItems vs hvs)
    split
    · exact hnil
    · exact hitem

/-- The fields of an object are written in ASCII. -/
theorem isAscii_dumpsFields : ∀ fs : List (PyStr × Json), Json.floatsOkFields fs = true →
    IsAscii (Json.dumpsFields .compact fs)
  | [], _ => isAscii_tokens.2.2.2.2.2.2.2.2.2
  | (k, v) :: fs, h => by
    obtain ⟨hv, hfs⟩ := (Bool.and_eq_true _ _).mp h
    obtain ⟨_, _, _, _, _, _, _, hitem, hkey, hnil⟩ := isAscii_tokens
    refine ((((isAscii_dumpsStr k).append hkey).append (isAscii_dumps v hv)).append ?_).append
      (isAscii_dumpsFields fs hfs)
    split
    · exact hnil
    · exact hitem
end

/-! ## The entry of a delivery -/

/-- Latin-1 reads ASCII text as it was written. -/
theorem latin1_of_ascii {s : PyStr} (h : ∀ c ∈ s, c.val < 0x80) :
    latin1 (s.map fun c => UInt8.ofNat c.val) = s := by
  rw [latin1, List.map_map]
  refine (List.map_congr_left fun c hc => ?_).trans (List.map_id s)
  have hlt := h c hc
  apply Fin.ext
  show (chr (UInt8.ofNat c.val).toNat).val = c.val
  rw [UInt8.toNat_ofNat', val_chr (by omega)]
  omega

/-- Different header values are decoded to different texts. -/
theorem latin1_injective : Function.Injective latin1 := by
  refine List.map_injective_iff.2 fun b b' h => ?_
  have hlt := b.toNat_lt
  have hlt' := b'.toNat_lt
  have hval := congrArg Fin.val h
  rw [val_chr (by omega), val_chr (by omega)] at hval
  exact UInt8.toNat_inj.1 hval

/-- ASCII bytes are restored from their Latin-1 text. -/
theorem encode_latin1 {bs : Bytes} (h : IsAscii bs) : encode (latin1 bs) = some bs := by
  have hval : ∀ b ∈ bs, (chr b.toNat).val = b.toNat := by
    intro b _
    have hlt := b.toNat_lt
    exact val_chr (by omega)
  refine encode_eq_some_iff.2 ⟨fun c hc => ?_, ?_⟩
  · obtain ⟨b, hb, rfl⟩ := List.mem_map.1 hc
    rw [hval b hb]
    exact Utf8.isScalar_of_ascii (h b hb)
  · have hmap : bs.map (Fin.val ∘ fun b => chr b.toNat) = bs.map UInt8.toNat :=
      List.map_congr_left hval
    rw [latin1, List.map_map, hmap, Utf8.encode_map_toNat h]

/-- An ASCII header value is decoded to an ASCII text. -/
theorem all_latin1_of_ascii {bs : Bytes} (h : IsAscii bs) :
    ((latin1 bs).all fun c => c.val < 0x80) = true := by
  refine List.all_eq_true.2 fun c hc => ?_
  obtain ⟨b, hb, rfl⟩ := List.mem_map.1 hc
  have hlt := h b hb
  rw [val_chr (by omega)]
  exact decide_eq_true hlt

/-- A digest is written in ASCII. SOURCE: app/delivery/signing.py:21 -/
theorem isAscii_hexdigest (digest : Bytes) : IsAscii (hexdigest digest) := by
  refine IsAscii.flatMap fun b _ => ?_
  have hlt := b.toNat_lt
  intro c hc
  simp only [List.mem_cons, List.not_mem_nil, or_false] at hc
  obtain rfl | rfl := hc
  · exact isAscii_hexByte _ (by omega)
  · exact isAscii_hexByte _ (Nat.mod_lt _ (by decide))

section
variable {hmacSha256 : Bytes → Bytes → Bytes} {p : Post} {sentMs : ℤ} {req : WebhookRequest}

/-- The headers as the receiver reads them. SOURCE: app/delivery/sender.py:56-67,
receiver/main.py:25-27 -/
theorem headerText_webhookRequest (h : webhookRequest hmacSha256 p sentMs = some req) :
    ∃ key, encode p.secret = some key ∧
      req.headerText (ascii "x-webhook-signature") = some (latin1 (ascii "sha256=" ++
        hexdigest (hmacSha256 key (canonical sentMs req.body)))) ∧
      req.headerText (ascii "x-webhook-timestamp") = some (latin1 (Json.dumpsInt sentMs)) ∧
      req.headerText (ascii "x-webhook-id") = some p.deliveryId.str := by
  obtain ⟨signed, hsign, rfl⟩ := Option.map_eq_some_iff.1 h
  obtain ⟨key, hkey, rfl⟩ := Option.map_eq_some_iff.1 hsign
  have htype : (ascii "Content-Type").map lowerByte = ascii "content-type" := by decide
  have hsig : (ascii "X-Webhook-Signature").map lowerByte = ascii "x-webhook-signature" := by decide
  have hts : (ascii "X-Webhook-Timestamp").map lowerByte = ascii "x-webhook-timestamp" := by decide
  have hid : (ascii "X-Webhook-ID").map lowerByte = ascii "x-webhook-id" := by decide
  have hne : ascii "content-type" ≠ ascii "x-webhook-signature" ∧
      ascii "content-type" ≠ ascii "x-webhook-timestamp" ∧
      ascii "content-type" ≠ ascii "x-webhook-id" ∧
      ascii "x-webhook-signature" ≠ ascii "x-webhook-timestamp" ∧
      ascii "x-webhook-signature" ≠ ascii "x-webhook-id" ∧
      ascii "x-webhook-timestamp" ≠ ascii "x-webhook-id" := by decide
  refine ⟨key, hkey, ?_, ?_, ?_⟩
  · simp [WebhookRequest.headerText, htype, hsig, hne]
  · simp [WebhookRequest.headerText, htype, hsig, hts, hne]
  · simp [WebhookRequest.headerText, htype, hsig, hts, hid, hne,
      latin1_of_ascii fun c hc => Uuid.lt_of_mem_str hc]

/-- What the check of a stored delivery comes down to, with its own body or with another one.
SOURCE: scripts/e2e_test.py:109-113,319-335 -/
theorem checkEntry_delivery (h : webhookRequest hmacSha256 p sentMs = some req)
    (hascii : IsAscii req.body) (loads : Bytes → Option Json) (nowMs : ℤ)
    (tamper : Bytes → Bytes) :
    ∃ key, encode p.secret = some key ∧
      checkEntry hmacSha256 p.secret tamper (receivedEntry loads req nowMs) =
        some (decide (hmacSha256 key (canonical sentMs (tamper req.body)) =
          hmacSha256 key (canonical sentMs req.body))) := by
  obtain ⟨key, hkey, hsig, hts, _⟩ := headerText_webhookRequest h
  have hscheme : IsAscii (ascii "sha256=") := isAscii_of_all (by decide)
  have hraw : encode (receivedEntry loads req nowMs).rawBody = some req.body := by
    rw [receivedEntry, encode_decodeReplace, Utf8.encode_decode_of_ascii hascii]
  refine ⟨key, hkey, ?_⟩
  rw [checkEntry, hraw]
  simp only [receivedEntry, hsig, hts, Option.getD_some]
  rw [hmacVerify, if_pos (all_latin1_of_ascii (hscheme.append (isAscii_hexdigest _))), hkey,
    Option.bind_some, encode_latin1 (isAscii_dumpsInt sentMs), Option.map_some]
  congr 1
  refine decide_eq_decide.2 ⟨fun heq => ?_, fun heq => ?_⟩
  · exact hexdigest_injective (List.append_cancel_left (latin1_injective heq))
  · rw [← canonical, heq]

end

/-! ## The log call -/

/-- The log takes texts that UTF-8 can encode. -/
def LogsText (logs : Option PyStr → Json → Json → Bool) : Prop :=
  ∀ webhookId eventType deliveryId, (encode webhookId).isSome = true →
    (encode eventType).isSome = true → (encode deliveryId).isSome = true →
    logs (some webhookId) (.str eventType) (.str deliveryId) = true

/-- Text without surrogates is read back as it is. -/
theorem joinSurrogates_eq_self {s : PyStr} (h : ∀ c ∈ s, isSurrogate c = false) :
    Json.joinSurrogates s = s := by
  fun_induction Json.joinSurrogates s with
  | case1 => rfl
  | case2 => rfl
  | case3 c d s hpair ih =>
    have hc := h c List.mem_cons_self
    simp only [Bool.and_eq_true, Json.isHighSurrogate, decide_eq_true_eq] at hpair
    simp only [isSurrogate, Bool.and_eq_false_iff, decide_eq_false_iff_not] at hc
    omega
  | case4 c d s _ ih => rw [ih fun e he => h e (List.mem_cons_of_mem _ he)]

/-- A text without surrogates can be encoded. -/
theorem isSome_encode {s : PyStr} (h : ∀ c ∈ s, isSurrogate c = false) :
    (encode s).isSome = true :=
  Option.isSome_iff_exists.2 (exists_encode h)

/-- A text that the database takes has no surrogates. -/
theorem not_surrogate_of_storable {s : PyStr} (h : Json.storable s = true) :
    ∀ c ∈ s, isSurrogate c = false := by
  intro c hc
  simp only [Json.storable, List.all_eq_true, Bool.and_eq_true, Bool.not_eq_true'] at h
  exact (h c hc).2

/-- The text of a UUID has no surrogates. -/
theorem not_surrogate_uuid (id : Uuid) : ∀ c ∈ id.str, isSurrogate c = false := by
  intro c hc
  have hlt := Uuid.lt_of_mem_str hc
  simp only [isSurrogate, Bool.and_eq_false_iff, decide_eq_false_iff_not]
  omega

/-- The event types of the rows that workers hold and have posted are ones that the database has
taken. -/
structure EventTypeInv (s : World) : Prop where
  claimed : ∀ w, ∀ x ∈ (s.delivery.workers w).phase.batch, Json.storable x.event.eventType = true
  posted : ∀ p ∈ s.delivery.posts, Json.storable p.eventType = true

/-- SOURCE: app/consumer/rabbitmq.py:47-66, app/delivery/worker.py:101-123 -/
theorem eventTypeInv_of_reachable {cfg : Settings} {s : World}
    (h : Reachable (step cfg) World.init s) : EventTypeInv s := by
  refine h.induct (I := EventTypeInv) ?_ ?_
  · exact ⟨fun _ _ h => absurd h List.not_mem_nil, fun _ h => absurd h List.not_mem_nil⟩
  intro s a s' hreach hinv hs
  refine ⟨fun w x hx => ?_, fun p hp => ?_⟩
  · obtain hx | ⟨_, _, _, _, _, hsnap, _⟩ := batch_of_step hs hx
    · exact hinv.claimed w x hx
    · exact ((readInv_of_reachable hreach).row _ (of_snapshotOf hsnap).2.2.1).eventType
  · obtain hp | ⟨w, x, sub, hx, rfl⟩ := mem_posts_of_step hs hp
    · exact hinv.posted p hp
    · exact hinv.claimed w x hx

/-- The log call takes the values of a delivery. SOURCE: receiver/main.py:47-52 -/
theorem logs_delivery {logs : Option PyStr → Json → Json → Bool} (hlogs : LogsText logs)
    {p : Post} (htype : Json.storable p.eventType = true) :
    ∃ data, (Json.obj (bodyData p)).reread = .obj data ∧
      logs (some p.deliveryId.str) (getOrNone data (py "event_type"))
        (getOrNone data (py "delivery_id")) = true := by
  have hid := not_surrogate_uuid p.deliveryId
  have hevent := not_surrogate_of_storable htype
  have hkeys : Json.joinSurrogates (py "delivery_id") = py "delivery_id" ∧
      Json.joinSurrogates (py "event_type") = py "event_type" ∧
      Json.joinSurrogates (py "payload") = py "payload" := by decide
  have hne : py "delivery_id" ≠ py "event_type" ∧ py "delivery_id" ≠ py "payload" ∧
      py "event_type" ≠ py "payload" := by decide
  refine ⟨[(py "delivery_id", .str (Json.joinSurrogates p.deliveryId.str)),
    (py "event_type", .str (Json.joinSurrogates p.eventType)), (py "payload", p.payload.reread)],
    ?_, ?_⟩
  · simp [bodyData, Json.reread, Json.rereadFields, Json.setItem, hkeys, hne]
  · have hget := hlogs p.deliveryId.str (Json.joinSurrogates p.eventType)
      (Json.joinSurrogates p.deliveryId.str) (isSome_encode hid)
      (by rw [joinSurrogates_eq_self hevent]; exact isSome_encode hevent)
      (by rw [joinSurrogates_eq_self hid]; exact isSome_encode hid)
    simpa [getOrNone, Json.get, hne] using hget

/-! ## The result -/

/-- The floats of a value have texts that Python writes. -/
def FloatsOk (v : Json) : Prop := v.floatsOk = true

/-- The receiver has stored what was sent. -/
structure ReceivedIntact (hmacSha256 : Bytes → Bytes → Bytes) (p : Post) (sentMs : ℤ) (body : Bytes)
    (entry : ReceivedEntry) : Prop where
  webhookId : entry.webhookId = some p.deliveryId.str
  timestampMs : entry.timestampMs = some (latin1 (Json.dumpsInt sentMs))
  data : entry.body = (Json.obj (bodyData p)).reread
  rawBody : encode entry.rawBody = some body
  /-- the check with the secret of the subscriber succeeds -/
  accepted : checkEntry hmacSha256 p.secret id entry = some true
  /-- and it fails for every other body, unless the two signed messages are a collision -/
  tampered : ∀ tamper key, encode p.secret = some key → tamper body ≠ body →
    ¬ Collision (hmacSha256 key) (canonical sentMs (tamper body)) (canonical sentMs body) →
    checkEntry hmacSha256 p.secret tamper entry = some false

/-- A delivery that arrives is answered with 200 and stored intact, whatever the receiver has
stored before. What is assumed of `json.loads` is that it reads this body back, and of the log
that it takes texts that UTF-8 can encode.
SOURCE: app/delivery/worker.py:101-123, app/delivery/sender.py:41-67, app/delivery/signing.py:10-22,
receiver/main.py:22-54, scripts/e2e_test.py:109-113,319-335 -/
theorem deliveries_received_intact (hmacSha256 : Bytes → Bytes → Bytes)
    (loads : Bytes → Option Json) (logs : Option PyStr → Json → Json → Bool)
    (hlogs : LogsText logs) (cfg : Settings) (s : World)
    (h : ReachableIf (step cfg) (Admits FloatsOk FloatsOk) World.init s) (p : Post)
    (hp : p ∈ s.delivery.posts) (sentMs nowMs : ℤ) (req : WebhookRequest)
    (hreq : webhookRequest hmacSha256 p sentMs = some req)
    (hloads : loads req.body = some (Json.obj (bodyData p)).reread)
    (received : List ReceivedEntry) :
    (receiveWebhook loads logs req nowMs received).1 = .ok (some p.deliveryId.str) ∧
      ∃ entry, (receiveWebhook loads logs req nowMs received).2.getLast? = some entry ∧
        ReceivedIntact hmacSha256 p sentMs req.body entry := by
  have hfloats : p.payload.floatsOk = true :=
    ((flowInv_of_reachableIf h).posted p hp).elim (fun h => h) fun h => h
  have hascii : IsAscii req.body := by
    rw [body_webhookRequest hreq]
    refine isAscii_dumps _ ?_
    simp [bodyData, Json.floatsOk, Json.floatsOkFields, hfloats]
  obtain ⟨_, _, _, hts, hid⟩ := headerText_webhookRequest hreq
  have hcheck := checkEntry_delivery hreq hascii loads nowMs
  obtain ⟨data, hdata, hlog⟩ :=
    logs_delivery hlogs ((eventTypeInv_of_reachable h.reachable).posted p hp)
  refine ⟨?_, _, getLast_receiveWebhook loads logs req nowMs received, hid, hts, ?_, ?_, ?_,
    fun tamper key hkey hne hcoll => ?_⟩
  · simp only [receiveWebhook, receivedEntry, hloads, Option.getD_some, hid, hdata, if_pos hlog]
  · simp only [receivedEntry, hloads, Option.getD_some]
  · rw [receivedEntry, encode_decodeReplace, Utf8.encode_decode_of_ascii hascii]
  · obtain ⟨_, _, hchecked⟩ := hcheck id
    rw [hchecked, id_eq, decide_eq_true rfl]
  · obtain ⟨key', hkey', hchecked⟩ := hcheck tamper
    obtain rfl : key' = key := Option.some.inj (hkey'.symm.trans hkey)
    have hdiffers : hmacSha256 key' (canonical sentMs (tamper req.body)) ≠
        hmacSha256 key' (canonical sentMs req.body) :=
      fun heq => hne ((digest_eq_iff hcoll).1 heq).1
    rw [hchecked, decide_eq_false hdiffers]

/-! ## A concrete delivery -/

/-- An event with a float in its payload, up to the call of `deliver`. -/
def floatPosted : List Action :=
  [.subscriber 0 (.create ⟨1⟩ (py "http://a") (py "s")),
    .publish 0 (eventBody (py "m") (py "e") (.obj [(py "x", .float (ascii "0.5"))]))] ++
  acceptance 0 ⟨2⟩ [⟨3⟩] ++ claimBatch 0 0 [⟨3⟩] ++ [.worker 0 .fetch, .worker 0 .post]

theorem floatPosted_enabled : (run (step .default) World.init floatPosted).isSome = true := by
  decide

/-- The floats of the history are texts that Python writes. -/
theorem floatPosted_admits : ∀ a ∈ floatPosted, ∀ s, Admits FloatsOk FloatsOk s a := by
  intro a ha s
  fin_cases ha
  -- Only the message brings a value in.
  on_goal 2 =>
    intro data hdata
    cases hdata
    rfl
  all_goals trivial

def floatPost : Post :=
  ⟨⟨3⟩, py "http://a", py "s", py "e", .obj [(py "x", .float (ascii "0.5"))], py "m", ⟨1⟩⟩

/-- The delivery can be signed. -/
theorem floatRequest_isSome : (webhookRequest sampleHmac floatPost 7).isSome = true := by decide

/-- A log that writes its texts to an output in UTF-8. -/
def utf8Log (webhookId : Option PyStr) (eventType deliveryId : Json) : Bool :=
  let prints : Json → Bool
    | .str s => (encode s).isSome
    | _ => true
  (webhookId.all fun s => (encode s).isSome) && prints eventType && prints deliveryId

/-- The receiver has stored nothing before. -/
theorem deliveries_received_intact_floatPosted : ∃ entry, ReceivedIntact sampleHmac floatPost 7
    ((webhookRequest sampleHmac floatPost 7).get floatRequest_isSome).body entry := by
  have hlogs : LogsText utf8Log := by
    intro webhookId eventType deliveryId hw he hd
    simp [utf8Log, hw, he, hd]
  obtain ⟨_, entry, _, hintact⟩ := deliveries_received_intact sampleHmac
    (fun _ => some (Json.obj (bodyData floatPost)).reread) utf8Log hlogs .default
    ((run (step .default) World.init floatPosted).get floatPosted_enabled)
    (ReachableIf.of_forall (Option.some_get floatPosted_enabled).symm floatPosted_admits) floatPost
    (List.Mem.head _) 7 9 _ (Option.some_get floatRequest_isSome).symm rfl []
  exact ⟨entry, hintact⟩

end EventPipeline.Analysis
