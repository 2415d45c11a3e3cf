import EventPipeline.Model.Text

/-!
# JSON values

The values that `json.loads` returns and `json.dumps` takes. A float is kept by the text
that `json.dumps` writes for it, which includes the three tokens `NaN`, `Infinity` and
`-Infinity` of Python's encoder. A dict is the list of its items in order.

`Json.dumps` is `json.dumps(v, separators=...)` followed by `.encode()`: with the default
`ensure_ascii` the text is ASCII, so its characters are its bytes.
-/

set_option autoImplicit false

namespace EventPipeline.Model

/-- A JSON value as Python holds it. -/
inductive Json where
  | null
  | bool (b : Bool)
  | int (n : ℤ)
  | float (repr : Bytes)
  | str (s : PyStr)
  | arr (vs : List Json)
  | obj (fields : List (PyStr × Json))
  deriving Inhabited

namespace Json

mutual
def decEq (a b : Json) : Decidable (a = b) :=
  match a, b with
  | .null, .null => isTrue rfl
  | .bool x, .bool y => decidable_of_iff (x = y) (by simp)
  | .int x, .int y => decidable_of_iff (x = y) (by simp)
  | .float x, .float y => decidable_of_iff (x = y) (by simp)
  | .str x, .str y => decidable_of_iff (x = y) (by simp)
  | .arr x, .arr y => @decidable_of_iff _ (x = y) (by simp) (decEqItems x y)
  | .obj x, .obj y => @decidable_of_iff _ (x = y) (by simp) (decEqFields x y)
  | .null, .bool _ | .null, .int _ | .null, .float _ | .null, .str _ | .null, .arr _
  | .null, .obj _ | .bool _, .null | .bool _, .int _ | .bool _, .float _ | .bool _, .str _
  | .bool _, .arr _ | .bool _, .obj _ | .int _, .null | .int _, .bool _ | .int _, .float _
  | .int _, .str _ | .int _, .arr _ | .int _, .obj _ | .float _, .null | .float _, .bool _
  | .float _, .int _ | .float _, .str _ | .float _, .arr _ | .float _, .obj _ | .str _, .null
  | .str _, .bool _ | .str _, .int _ | .str _, .float _ | .str _, .arr _ | .str _, .obj _
  | .arr _, .null | .arr _, .bool _ | .arr _, .int _ | .arr _, .float _ | .arr _, .str _
  | .arr _, .obj _ | .obj _, .null | .obj _, .bool _ | .obj _, .int _ | .obj _, .float _
  | .obj _, .str _ | .obj _, .arr _ => isFalse nofun
def decEqItems (xs ys : List Json) : Decidable (xs = ys) :=
  match xs, ys with
  | [], [] => isTrue rfl
  | x :: xs, y :: ys =>
    @decidable_of_iff _ (x = y ∧ xs = ys) (by simp)
      (@instDecidableAnd _ _ (decEq x y) (decEqItems xs ys))
  | [], _ :: _ | _ :: _, [] => isFalse nofun
def decEqFields (xs ys : List (PyStr × Json)) : Decidable (xs = ys) :=
  match xs, ys with
  | [], [] => isTrue rfl
  | (k, x) :: xs, (l, y) :: ys =>
    @decidable_of_iff _ (k = l ∧ x = y ∧ xs = ys) (by simp [and_assoc])
      (@instDecidableAnd _ _ _ (@instDecidableAnd _ _ (decEq x y) (decEqFields xs ys)))
  | [], _ :: _ | _ :: _, [] => isFalse nofun
end

instance : DecidableEq Json := decEq

/-- `d.get(k)` on the items of a dict. -/
def get (fields : List (PyStr × Json)) (k : PyStr) : Option Json :=
  (fields.find? fun f => f.1 = k).map Prod.snd

/-- Python's truth value: `None`, `False`, zero and the empty containers are false. -/
def truthy : Json → Bool
  | .null => false
  | .bool b => b
  | .int n => n ≠ 0
  | .float r => r ≠ ascii "0.0" && r ≠ ascii "-0.0"
  | .str s => !s.isEmpty
  | .arr vs => !vs.isEmpty
  | .obj fs => !fs.isEmpty

/-! ## Serialisation -/

structure Separators where
  item : Bytes
  key : Bytes

def Separators.default : Separators := ⟨ascii ", ", ascii ": "⟩

def Separators.compact : Separators := ⟨ascii ",", ascii ":"⟩

/-- The byte of one hexadecimal digit. -/
def hexByte (d : ℕ) : UInt8 := UInt8.ofNat (if d < 10 then 0x30 + d else 0x57 + d)

/-- The escape of one UTF-16 code unit: a backslash, `u` and four digits. -/
def escapeUnit (n : ℕ) : Bytes :=
  [0x5c, 0x75, hexByte (n / 0x1000 % 16), hexByte (n / 0x100 % 16), hexByte (n / 0x10 % 16),
    hexByte (n % 16)]

/-- One code point of a string as `ensure_ascii` writes it. -/
def escapeChar (c : PyChar) : Bytes :=
  if c.val = 0x22 then [0x5c, 0x22]
  else if c.val = 0x5c then [0x5c, 0x5c]
  else if c.val = 0x0a then [0x5c, 0x6e]
  else if c.val = 0x0d then [0x5c, 0x72]
  else if c.val = 0x09 then [0x5c, 0x74]
  else if c.val = 0x0c then [0x5c, 0x66]
  else if c.val = 0x08 then [0x5c, 0x62]
  else if 0x20 ≤ c.val ∧ c.val ≤ 0x7e then [UInt8.ofNat c.val]
  else if c.val < 0x10000 then escapeUnit c.val
  else
    escapeUnit (0xd800 + (c.val - 0x10000) / 0x400) ++
      escapeUnit (0xdc00 + (c.val - 0x10000) % 0x400)

def dumpsStr (s : PyStr) : Bytes := [0x22] ++ s.flatMap escapeChar ++ [0x22]

def dumpsInt (n : ℤ) : Bytes :=
  (if n < 0 then ascii "-" else []) ++ (Nat.toDigits 10 n.natAbs).map fun c => UInt8.ofNat c.toNat

mutual
/-- `json.dumps(v, separators=sep).encode()`. -/
def dumps (sep : Separators) : Json → Bytes
  | .null => ascii "null"
  | .bool true => ascii "true"
  | .bool false => ascii "false"
  | .int n => dumpsInt n
  | .float r => r
  | .str s => dumpsStr s
  | .arr vs => ascii "[" ++ dumpsItems sep vs ++ ascii "]"
  | .obj fs => ascii "\x7b" ++ dumpsFields sep fs ++ ascii "\x7d"
def dumpsItems (sep : Separators) : List Json → Bytes
  | [] => []
  | v :: vs => dumps sep v ++ (if vs.isEmpty then [] else sep.item) ++ dumpsItems sep vs
def dumpsFields (sep : Separators) : List (PyStr × Json) → Bytes
  | [] => []
  | (k, v) :: fs =>
    dumpsStr k ++ sep.key ++ dumps sep v ++ (if fs.isEmpty then [] else sep.item) ++
      dumpsFields sep fs
end

/-! ## Reading back -/

/-- `d[k] = v` on the items of a dict: a key that is there keeps its place. -/
def setItem (fields : List (PyStr × Json)) (k : PyStr) (v : Json) : List (PyStr × Json) :=
  if fields.any fun f => f.1 = k then fields.map fun f => if f.1 = k then (k, v) else f
  else fields ++ [(k, v)]

/-- A new key comes last. -/
theorem setItem_of_new {fields : List (PyStr × Json)} {k : PyStr} {v : Json}
    (h : ∀ f ∈ fields, f.1 ≠ k) : setItem fields k v = fields ++ [(k, v)] := by
  have hnone : (fields.any fun f => f.1 = k) = false := by simpa using h
  rw [setItem, hnone]
  rfl

/-- The other keys keep their values. -/
theorem get_setItem_of_ne {fields : List (PyStr × Json)} {k k' : PyStr} {v : Json} (h : k' ≠ k) :
    get (setItem fields k v) k' = get fields k' := by
  unfold get setItem
  split
  · clear * - h
    induction fields with
    | nil => rfl
    | cons f fs ih =>
      rw [List.map_cons]
      by_cases hk : f.1 = k
      · have hf : f.1 ≠ k' := fun heq => h (heq.symm.trans hk)
        simpa [hk, hf, Ne.symm h] using ih
      · by_cases hk' : f.1 = k'
        · simp [hk', h]
        · simpa [hk, hk'] using ih
  · simp [List.find?_append, Ne.symm h]

def isHighSurrogate (c : PyChar) : Bool := 0xd800 ≤ c.val && c.val < 0xdc00

def isLowSurrogate (c : PyChar) : Bool := 0xdc00 ≤ c.val && c.val < 0xe000

/-- A string as it is read back from its escapes: a high surrogate followed by a low one
comes back as one code point. -/
def joinSurrogates : PyStr → PyStr
  | [] => []
  | [c] => [c]
  | c :: d :: s =>
    if isHighSurrogate c && isLowSurrogate d then
      chr (0x10000 + (c.val - 0xd800) * 0x400 + (d.val - 0xdc00)) :: joinSurrogates s
    else c :: joinSurrogates (d :: s)

mutual
/-- `json.loads(json.dumps(v))`. -/
def reread : Json → Json
  | .str s => .str (joinSurrogates s)
  | .arr vs => .arr (rereadItems vs)
  | .obj fs => .obj (rereadFields fs [])
  | v => v
def rereadItems : List Json → List Json
  | [] => []
  | v :: vs => reread v :: rereadItems vs
/-- The dict that `json.loads` fills with the items, after those in `acc`. -/
def rereadFields : List (PyStr × Json) → List (PyStr × Json) → List (PyStr × Json)
  | [], acc => acc
  | (k, v) :: fs, acc => rereadFields fs (setItem acc (joinSurrogates k) (reread v))
end

/-- A text that `float.__repr__` or one of the tokens of Python's encoder gives. -/
def isFloatText (r : Bytes) : Bool :=
  r ∈ [ascii "NaN", ascii "Infinity", ascii "-Infinity"] ||
    r.any (fun b => 0x30 ≤ b && b ≤ 0x39) &&
      r.all fun b => (0x30 ≤ b && b ≤ 0x39) || b ∈ ascii "-+.e"

mutual
/-- Every float in the value has such a text. -/
def floatsOk : Json → Bool
  | .float r => isFloatText r
  | .arr vs => floatsOkAll vs
  | .obj fs => floatsOkFields fs
  | _ => true
def floatsOkAll : List Json → Bool
  | [] => true
  | v :: vs => floatsOk v && floatsOkAll vs
def floatsOkFields : List (PyStr × Json) → Bool
  | [] => true
  | (_, v) :: fs => floatsOk v && floatsOkFields fs
end

/-! ## Values that PostgreSQL accepts -/

/-- Text that PostgreSQL can store: it has no U+0000 and can be encoded in UTF-8. -/
def storable (s : PyStr) : Bool := s.all fun c => c.val ≠ 0 && !isSurrogate c

/-- A `VARCHAR(n)` column accepts text of at most `n` characters. -/
def varcharAccepts (n : ℕ) (s : PyStr) : Bool := s.length ≤ n && storable s

mutual
/-- `CAST(... AS jsonb)` of the serialised value succeeds: every string in it is storable
and no float is one of the tokens that are not JSON. -/
def jsonbAccepts : Json → Bool
  | .float r => r ≠ ascii "NaN" && r ≠ ascii "Infinity" && r ≠ ascii "-Infinity"
  | .str s => storable s
  | .arr vs => jsonbAcceptsAll vs
  | .obj fs => jsonbAcceptsFields fs
  | _ => true
def jsonbAcceptsAll : List Json → Bool
  | [] => true
  | v :: vs => jsonbAccepts v && jsonbAcceptsAll vs
def jsonbAcceptsFields : List (PyStr × Json) → Bool
  | [] => true
  | (k, v) :: fs => storable k && jsonbAccepts v && jsonbAcceptsFields fs
end

example : dumps .default (.arr [.int (-12), .null, .str (py "é")]) =
    ascii "[-12, null, \"\\u00e9\"]" := by decide

example : reread (.obj [(py "k", .str [0xd83d, 0xde00, 0xd83d])]) =
    .obj [(py "k", .str [0x1f600, 0xd83d])] := by decide

end Json

end EventPipeline.Model
