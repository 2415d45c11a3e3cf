import Mathlib.Algebra.GroupWithZero.Nat
import Mathlib.Data.Fin.Basic
import Mathlib.Data.List.Basic
import Mathlib.Tactic.Common
import EventPipeline.Computation.Framing

/-!
# Text, bytes and identifiers

A Python `str` is a sequence of code points; unlike a Lean `String` it may hold lone
surrogates. Bytes are what goes over the wire. A UUID is 128 bits, and `Uuid.str` is the
text that `str(uuid)` gives.
-/

set_option autoImplicit false

namespace EventPipeline.Model

open EventPipeline.Computation

/-- A code point of a Python string. -/
abbrev PyChar := Fin 0x110000

instance neZeroPyChar : NeZero 0x110000 := ⟨nofun⟩

abbrev PyStr := List PyChar

abbrev Bytes := List UInt8

/-- The Python string with the characters of a Lean literal. -/
def py (s : String) : PyStr := s.toList.map fun c => Fin.ofNat 0x110000 c.toNat

/-- The bytes of an ASCII literal. -/
def ascii (s : String) : Bytes := s.toList.map fun c => UInt8.ofNat c.toNat

/-- A code point that is no Unicode scalar value, so that UTF-8 cannot encode it. -/
def isSurrogate (c : PyChar) : Bool := 0xd800 ≤ c.val && c.val < 0xe000

/-- The decimal digits of `n`, as `str(n)` gives them. -/
def decimal (n : ℕ) : PyStr := (Nat.toDigits 10 n).map fun c => Fin.ofNat 0x110000 c.toNat

/-- `chr(n)`. -/
def chr (n : ℕ) : PyChar := Fin.ofNat 0x110000 n

/-- A UUID, by its 128-bit value. -/
structure Uuid where
  val : ℕ
  deriving DecidableEq, Repr

/-- The character of one hexadecimal digit. -/
def hexChar (d : ℕ) : PyChar := Fin.ofNat 0x110000 (if d < 10 then 0x30 + d else 0x57 + d)

/-- The text of a UUID: 32 hexadecimal digits in groups of 8, 4, 4, 4 and 12.
SOURCE: app/consumer/rabbitmq.py:125, app/api/events.py:25 -/
def Uuid.str (u : Uuid) : PyStr :=
  (List.range 32).flatMap fun i =>
    (if i ∈ [8, 12, 16, 20] then py "-" else []) ++ [hexChar (u.val / 16 ^ (31 - i) % 16)]

/-- A generated identifier is never the empty string. -/
theorem Uuid.str_ne_nil (u : Uuid) : u.str ≠ [] := by
  simp [Uuid.str, List.range_succ]

/-- Different hexadecimal digits have different characters. -/
theorem hexChar_injective : ∀ d < 16, ∀ e < 16, hexChar d = hexChar e → d = e := by decide

/-- The text of a UUID determines it. -/
theorem Uuid.str_inj {u v : Uuid} (hu : u.val < 2 ^ 128) (hv : v.val < 2 ^ 128)
    (h : u.str = v.str) : u = v := by
  have hblocks := eq_of_flatMap_eq (fun _ _ => by simp only [List.length_append, List.length_cons,
    List.length_nil]) h
  have hdigits : ∀ i < 32, u.val / 16 ^ i % 16 = v.val / 16 ^ i % 16 := by
    intro i hi
    have hblock := List.append_cancel_left (hblocks (31 - i) (List.mem_range.2 (by omega)))
    have hchar := hexChar_injective _ (Nat.mod_lt _ (by decide)) _ (Nat.mod_lt _ (by decide))
      (List.singleton_inj.1 hblock)
    rwa [show 31 - (31 - i) = i by omega] at hchar
  have hpow : 2 ^ 128 = 16 ^ 32 := by decide
  have hval := mod_pow_eq_of_digits hdigits
  rw [Nat.mod_eq_of_lt (hpow ▸ hu), Nat.mod_eq_of_lt (hpow ▸ hv)] at hval
  cases u
  cases v
  exact congrArg Uuid.mk hval

/-- It is ASCII. -/
theorem Uuid.lt_of_mem_str {u : Uuid} {c : PyChar} (h : c ∈ u.str) : c.val < 128 := by
  have hdash : py "-" = [0x2d] := by decide
  have hhex : ∀ d < 16, (hexChar d).val < 128 := by decide
  obtain ⟨i, _, hc⟩ := List.mem_flatMap.1 h
  obtain hc | hc := List.mem_append.1 hc
  · split at hc
    · rw [hdash] at hc
      rw [List.mem_singleton.1 hc]
      decide
    · exact absurd hc List.not_mem_nil
  · rw [List.mem_singleton.1 hc]
    exact hhex _ (Nat.mod_lt _ (by decide))

end EventPipeline.Model
