import Mathlib.Data.List.Basic
import Mathlib.Tactic.Common

/-!
# UTF-8 with replacement

The decoder reads one byte at a time and never fails: where the bytes leave the syntax of UTF-8
it gives U+FFFD for the longest piece that a character can begin with, and goes on with the byte
that does not fit. Encoding what it gives restores the bytes exactly when they were UTF-8.
-/

set_option autoImplicit false

namespace EventPipeline.Computation.Utf8

/-- A code point that can be encoded. -/
def IsScalar (n : ℕ) : Prop := n < 0xd800 ∨ 0xe000 ≤ n ∧ n < 0x110000

/-- The bytes of one code point. -/
def encodeScalar (n : ℕ) : List UInt8 :=
  if n < 0x80 then [UInt8.ofNat n]
  else if n < 0x800 then [UInt8.ofNat (0xc0 + n / 0x40), UInt8.ofNat (0x80 + n % 0x40)]
  else if n < 0x10000 then
    [UInt8.ofNat (0xe0 + n / 0x1000), UInt8.ofNat (0x80 + n / 0x40 % 0x40),
      UInt8.ofNat (0x80 + n % 0x40)]
  else
    [UInt8.ofNat (0xf0 + n / 0x40000), UInt8.ofNat (0x80 + n / 0x1000 % 0x40),
      UInt8.ofNat (0x80 + n / 0x40 % 0x40), UInt8.ofNat (0x80 + n % 0x40)]

/-- The bytes that are still owed to a character, each by its least and its greatest value. -/
abbrev Owed := List (ℕ × ℕ)

/-- Any continuation byte. -/
def tail : ℕ × ℕ := (0x80, 0xbf)

/-- The bits of a first byte and what it asks for. The second byte is restricted where it decides
between a short form, a surrogate or a value that is too large and a code point. -/
def first (b : ℕ) : Option (ℕ × Owed) :=
  if b < 0x80 then some (b, [])
  else if b < 0xc2 then none
  else if b < 0xe0 then some (b - 0xc0, [tail])
  else if b = 0xe0 then some (0, [(0xa0, 0xbf), tail])
  else if b = 0xed then some (0xd, [(0x80, 0x9f), tail])
  else if b < 0xf0 then some (b - 0xe0, [tail, tail])
  else if b = 0xf0 then some (0, [(0x90, 0xbf), tail, tail])
  else if b < 0xf4 then some (b - 0xf0, [tail, tail, tail])
  else if b = 0xf4 then some (4, [(0x80, 0x8f), tail, tail])
  else none

/-- Between two characters, or within one. -/
inductive Decoder where
  | start
  | within (bits : ℕ) (owed : Owed)

def replacement : ℕ := 0xfffd

/-- A character is complete when nothing is owed. -/
def settle (bits : ℕ) : Owed → List ℕ × Decoder
  | [] => ([bits], .start)
  | owed => ([], .within bits owed)

/-- A byte between two characters. -/
def feedStart (b : ℕ) : List ℕ × Decoder :=
  match first b with
  | some (bits, owed) => settle bits owed
  | none => ([replacement], .start)

/-- The code points that a byte completes, and the decoder after it. -/
def feed : Decoder → ℕ → List ℕ × Decoder
  | .start, b => feedStart b
  | .within _ [], b => feedStart b
  | .within bits ((least, greatest) :: owed), b =>
    if least ≤ b ∧ b ≤ greatest then settle (bits * 0x40 + (b - 0x80)) owed
    else (replacement :: (feedStart b).1, (feedStart b).2)

def decodeFrom : Decoder → List UInt8 → List ℕ
  | .start, [] => []
  | .within _ _, [] => [replacement]
  | d, b :: bs => (feed d b.toNat).1 ++ decodeFrom (feed d b.toNat).2 bs

def decode (bs : List UInt8) : List ℕ := decodeFrom .start bs

def encode (s : List ℕ) : List UInt8 := s.flatMap encodeScalar

example : decode [0x61, 0xc3, 0xa9, 0xe2, 0x82, 0xed, 0xa0, 0x80, 0xf0, 0x9f, 0x98, 0x80, 0xc3] =
    [0x61, 0xe9, 0xfffd, 0xfffd, 0xfffd, 0xfffd, 0x1f600, 0xfffd] := by decide

/-! ## Decoding what was encoded -/

/-- The rest of the decoding when `owed` is left of a character. -/
def resume (bits : ℕ) (owed : Owed) (bs : List UInt8) : List ℕ :=
  (settle bits owed).1 ++ decodeFrom (settle bits owed).2 bs

section
variable {b bits least greatest : ℕ} {owed : Owed} {bs : List UInt8}

/-- A number below 256 is read back from its byte. -/
theorem toNat_ofNat (h : b < 0x100) : (UInt8.ofNat b).toNat = b := by
  rw [UInt8.toNat_ofNat']
  omega

/-- A lead byte starts a character that owes its continuation. -/
theorem decodeFrom_start (h : first b = some (bits, owed)) (hb : b < 0x100) :
    decodeFrom .start (UInt8.ofNat b :: bs) = resume bits owed bs := by
  simp only [decodeFrom, feed, feedStart, toNat_ofNat hb, h]
  rfl

/-- A byte in the range that is owed is taken. -/
theorem resume_cons (hleast : least ≤ b) (hgreatest : b ≤ greatest) (hb : b < 0x100) :
    resume bits ((least, greatest) :: owed) (UInt8.ofNat b :: bs) =
      resume (bits * 0x40 + (b - 0x80)) owed bs := by
  simp only [resume, settle, decodeFrom, feed, toNat_ofNat hb, if_pos (And.intro hleast hgreatest),
    List.nil_append]

/-- A continuation byte adds its six bits. -/
theorem resume_tail (h : b < 0x40) :
    resume bits (tail :: owed) (UInt8.ofNat (0x80 + b) :: bs) = resume (bits * 0x40 + b) owed bs := by
  rw [tail, resume_cons (by omega) (by omega) (by omega), Nat.add_sub_cancel_left]

/-- A character that owes nothing is given out. -/
theorem resume_nil : resume bits [] bs = bits :: decodeFrom .start bs := rfl

end

/-- The first byte of a character of three bytes. -/
theorem first_three {n : ℕ} (h : 0x800 ≤ n) (h' : n < 0x10000) (hs : IsScalar n) :
    ∃ least greatest, first (0xe0 + n / 0x1000) = some (n / 0x1000, [(least, greatest), tail]) ∧
      least ≤ 0x80 + n / 0x40 % 0x40 ∧ 0x80 + n / 0x40 % 0x40 ≤ greatest := by
  unfold IsScalar at hs
  unfold first
  rw [if_neg (by omega), if_neg (by omega), if_neg (by omega)]
  by_cases h0 : n / 0x1000 = 0
  · rw [if_pos (by omega), h0]
    exact ⟨_, _, rfl, by omega, by omega⟩
  · rw [if_neg (by omega)]
    by_cases hd : n / 0x1000 = 0xd
    · rw [if_pos (by omega), hd]
      exact ⟨_, _, rfl, by omega, by omega⟩
    · rw [if_neg (by omega), if_pos (by omega), Nat.add_sub_cancel_left]
      exact ⟨_, _, rfl, by omega, by omega⟩

/-- The lead byte of a character of four bytes, with the range of the second one. -/
theorem first_four {n : ℕ} (h : 0x10000 ≤ n) (h' : n < 0x110000) :
    ∃ least greatest,
      first (0xf0 + n / 0x40000) = some (n / 0x40000, [(least, greatest), tail, tail]) ∧
      least ≤ 0x80 + n / 0x1000 % 0x40 ∧ 0x80 + n / 0x1000 % 0x40 ≤ greatest := by
  unfold first
  rw [if_neg (by omega), if_neg (by omega), if_neg (by omega), if_neg (by omega),
    if_neg (by omega), if_neg (by omega)]
  by_cases h0 : n / 0x40000 = 0
  · rw [if_pos (by omega), h0]
    exact ⟨_, _, rfl, by omega, by omega⟩
  · rw [if_neg (by omega)]
    by_cases h4 : n / 0x40000 = 4
    · rw [if_neg (by omega), if_pos (by omega), h4]
      exact ⟨_, _, rfl, by omega, by omega⟩
    · rw [if_pos (by omega), Nat.add_sub_cancel_left]
      exact ⟨_, _, rfl, by omega, by omega⟩

/-- A character is decoded, and the decoder goes on after it. -/
theorem decodeFrom_encodeScalar {n : ℕ} (hs : IsScalar n) (bs : List UInt8) :
    decodeFrom .start (encodeScalar n ++ bs) = n :: decodeFrom .start bs := by
  have hn : n < 0x110000 := by
    unfold IsScalar at hs
    omega
  unfold encodeScalar
  by_cases h1 : n < 0x80
  · rw [if_pos h1]
    exact decodeFrom_start (by rw [first, if_pos h1]) (by omega)
  by_cases h2 : n < 0x800
  · rw [if_neg h1, if_pos h2]
    have hfirst : first (0xc0 + n / 0x40) = some (n / 0x40, [tail]) := by
      rw [first, if_neg (by omega), if_neg (by omega), if_pos (by omega), Nat.add_sub_cancel_left]
    calc _ = resume (n / 0x40) [tail] (UInt8.ofNat (0x80 + n % 0x40) :: bs) :=
        decodeFrom_start hfirst (by omega)
      _ = resume (n / 0x40 * 0x40 + n % 0x40) [] bs := resume_tail (by omega)
      _ = n :: decodeFrom .start bs := by rw [Nat.div_add_mod', resume_nil]
  by_cases h3 : n < 0x10000
  · rw [if_neg h1, if_neg h2, if_pos h3]
    obtain ⟨least, greatest, hfirst, hleast, hgreatest⟩ := first_three (by omega) h3 hs
    refine (decodeFrom_start hfirst (by omega)).trans ?_
    refine (resume_cons hleast hgreatest (by omega)).trans ?_
    refine (resume_tail (by omega)).trans ?_
    rw [resume_nil]
    congr 1
    omega
  · rw [if_neg h1, if_neg h2, if_neg h3]
    obtain ⟨least, greatest, hfirst, hleast, hgreatest⟩ := first_four (by omega) hn
    refine (decodeFrom_start hfirst (by omega)).trans ?_
    refine (resume_cons hleast hgreatest (by omega)).trans ?_
    refine (resume_tail (by omega)).trans ?_
    refine (resume_tail (by omega)).trans ?_
    rw [resume_nil]
    congr 1
    omega

/-- What was encoded is decoded to what it was. -/
theorem decode_encode {s : List ℕ} (h : ∀ n ∈ s, IsScalar n) : decode (encode s) = s := by
  unfold decode encode
  induction s with
  | nil => rfl
  | cons n s ih =>
    rw [List.flatMap_cons, decodeFrom_encodeScalar (h n List.mem_cons_self),
      ih fun m hm => h m (List.mem_cons_of_mem _ hm)]

/-! ## Encoding what was decoded -/

/-- Whatever the bytes are that are owed, they complete a scalar value. -/
def Completes : ℕ → Owed → Prop
  | bits, [] => IsScalar bits
  | bits, (least, greatest) :: owed =>
    ∀ b, least ≤ b → b ≤ greatest → Completes (bits * 0x40 + (b - 0x80)) owed

def Decoder.Ok : Decoder → Prop
  | .start => True
  | .within bits owed => Completes bits owed

/-- What a lead byte owes completes a scalar value. -/
theorem completes_first {b bits : ℕ} {owed : Owed} (h : first b = some (bits, owed)) :
    Completes bits owed := by
  unfold first at h
  split_ifs at h
  -- One goal for each kind of first byte.
  all_goals
    obtain ⟨rfl, rfl⟩ := Prod.mk.inj (Option.some.inj h)
    simp only [Completes, tail, IsScalar]
    intros
    omega

/-- Settling gives scalar values and a decoder in a good state. -/
theorem settle_ok {bits : ℕ} {owed : Owed} (h : Completes bits owed) :
    (∀ n ∈ (settle bits owed).1, IsScalar n) ∧ (settle bits owed).2.Ok := by
  cases owed with
  | nil => exact ⟨fun n hn => List.mem_singleton.1 hn ▸ h, trivial⟩
  | cons o owed => exact ⟨fun n hn => absurd hn List.not_mem_nil, h⟩

/-- The replacement character is a scalar value. -/
theorem isScalar_replacement : IsScalar replacement := by
  unfold IsScalar replacement
  omega

/-- A byte at the start gives scalar values and a decoder in a good state. -/
theorem feedStart_ok (b : ℕ) :
    (∀ n ∈ (feedStart b).1, IsScalar n) ∧ (feedStart b).2.Ok := by
  unfold feedStart
  split
  · rename_i bits owed h
    exact settle_ok (completes_first h)
  · exact ⟨fun n hn => List.mem_singleton.1 hn ▸ isScalar_replacement, trivial⟩

/-- A byte gives scalar values and keeps the decoder in a good state. -/
theorem feed_ok {d : Decoder} (h : d.Ok) (b : ℕ) :
    (∀ n ∈ (feed d b).1, IsScalar n) ∧ (feed d b).2.Ok := by
  unfold feed
  split
  · exact feedStart_ok b
  · exact feedStart_ok b
  · split
    · rename_i hb
      exact settle_ok (h b hb.1 hb.2)
    · obtain ⟨hscalar, hok⟩ := feedStart_ok b
      refine ⟨fun n hn => ?_, hok⟩
      obtain rfl | hn := List.mem_cons.1 hn
      · exact isScalar_replacement
      · exact hscalar n hn

/-- Only scalar values are given. -/
theorem isScalar_of_mem_decodeFrom {d : Decoder} (h : d.Ok) {bs : List UInt8} {n : ℕ}
    (hn : n ∈ decodeFrom d bs) : IsScalar n := by
  induction bs generalizing d with
  | nil =>
    cases d with
    | start => exact absurd hn List.not_mem_nil
    | within bits owed => exact List.mem_singleton.1 hn ▸ isScalar_replacement
  | cons b bs ih =>
    have hn : n ∈ (feed d b.toNat).1 ++ decodeFrom (feed d b.toNat).2 bs := by
      cases d <;> exact hn
    obtain ⟨hscalar, hok⟩ := feed_ok h b.toNat
    obtain hn | hn := List.mem_append.1 hn
    · exact hscalar n hn
    · exact ih hok hn

/-- Decoding gives scalar values only. -/
theorem isScalar_of_mem_decode {bs : List UInt8} {n : ℕ} (hn : n ∈ decode bs) : IsScalar n :=
  isScalar_of_mem_decodeFrom (d := .start) trivial hn

/-- The bytes are restored just when they were the encoding of some scalar values. -/
theorem encode_decode_iff (bs : List UInt8) :
    encode (decode bs) = bs ↔ ∃ s, (∀ n ∈ s, IsScalar n) ∧ encode s = bs := by
  constructor
  · exact fun h => ⟨decode bs, fun n hn => isScalar_of_mem_decode hn, h⟩
  · rintro ⟨s, hs, rfl⟩
    rw [decode_encode hs]

/-- ASCII bytes stand for themselves. -/
theorem encode_map_toNat {bs : List UInt8} (h : ∀ b ∈ bs, b.toNat < 0x80) :
    encode (bs.map UInt8.toNat) = bs := by
  have hchar : ∀ b ∈ bs, encodeScalar b.toNat = [b] := fun b hb => by
    rw [encodeScalar, if_pos (h b hb), UInt8.ofNat_toNat]
  rw [encode, List.flatMap_map, List.flatMap_congr hchar]
  exact List.flatMap_singleton' bs

/-- The ASCII characters are scalar values. -/
theorem isScalar_of_ascii {n : ℕ} (h : n < 0x80) : IsScalar n :=
  Or.inl (Nat.lt_trans h (by decide))

/-- ASCII bytes are restored. -/
theorem encode_decode_of_ascii {bs : List UInt8} (h : ∀ b ∈ bs, b.toNat < 0x80) :
    encode (decode bs) = bs := by
  refine (encode_decode_iff bs).2 ⟨bs.map UInt8.toNat, fun n hn => ?_, encode_map_toNat h⟩
  obtain ⟨b, hb, rfl⟩ := List.mem_map.1 hn
  exact isScalar_of_ascii (h b hb)

end EventPipeline.Computation.Utf8
