import DecentWallet.Lib.Utf8
import Mathlib

/-! CBOR data items, their canonical encoding, and which items are written canonically:
shortest heads, map keys strictly increasing in the length-first order of their encodings. -/

namespace DecentWallet.Cbor

/-- What a decoder hands back. `num` is a number that is no integer object (`none` for a NaN or an
infinity), `other` any remaining kind of object; neither has a canonical encoding here. -/
inductive Value where
  | int (n : ℤ)
  | bytes (b : Bytes)
  | text (s : Str)
  | array (xs : List Value)
  | map (m : List (Value × Value))
  | null
  | bool (b : Bool)
  | num (q : Option ℚ)
  | other (n : ℕ)
  deriving Inhabited

/-! ### Encoding -/

/-- The initial byte of major type `major` with its shortest argument. -/
def head (major n : ℕ) : Bytes :=
  if n < 24 then [UInt8.ofNat (major * 32 + n)]
  else if n < 256 then UInt8.ofNat (major * 32 + 24) :: toBE 1 n
  else if n < 65536 then UInt8.ofNat (major * 32 + 25) :: toBE 2 n
  else if n < 4294967296 then UInt8.ofNat (major * 32 + 26) :: toBE 4 n
  else UInt8.ofNat (major * 32 + 27) :: toBE 8 n

/-- The argument of an integer: `n` itself, or `-1 - n` for a negative one. -/
def magnitude : ℤ → ℕ
  | .ofNat n => n
  | .negSucc n => n

/-- The sign bit, which is also the major type and the low bit of the bignum tag. -/
def sign (n : ℤ) : ℕ := if n < 0 then 1 else 0

/-- An integer beyond 64 bits is a tagged byte string of its shortest magnitude. -/
def encodeInt (n : ℤ) : Bytes :=
  if magnitude n < 2 ^ 64 then head (sign n) (magnitude n)
  else UInt8.ofNat (0xc2 + sign n) :: (head 2 (beWidth (magnitude n)) ++ minBE (magnitude n))

mutual

/-- The encoding with map entries in the order they stand in. -/
def encode : Value → Bytes
  | .int n => encodeInt n
  | .bytes b => head 2 b.length ++ b
  | .text s => head 3 (utf8Raw s).length ++ utf8Raw s
  | .array xs => head 4 xs.length ++ encodeList xs
  | .map m => head 5 m.length ++ encodePairs m
  | .null => [0xf6]
  | .bool b => [if b then 0xf5 else 0xf4]
  | .num _ => [0xf7]
  | .other _ => [0xf7]

def encodeList : List Value → Bytes
  | [] => []
  | v :: vs => encode v ++ encodeList vs

def encodePairs : List (Value × Value) → Bytes
  | [] => []
  | (k, v) :: m => encode k ++ (encode v ++ encodePairs m)

end

/-- The order of two entries in a canonical map. -/
def keyLe (a b : Value × Value) : Bool := !shortLex (encode b.1) (encode a.1)

def keyLt (a b : Value × Value) : Bool := shortLex (encode a.1) (encode b.1)

mutual

/-- The same item with every map in canonical key order. -/
def sortKeys : Value → Value
  | .array xs => .array (sortKeysList xs)
  | .map m => .map ((sortKeysPairs m).insertionSort (fun a b => keyLe a b = true))
  | .int n => .int n
  | .bytes b => .bytes b
  | .text s => .text s
  | .null => .null
  | .bool b => .bool b
  | .num q => .num q
  | .other n => .other n

def sortKeysList : List Value → List Value
  | [] => []
  | v :: vs => sortKeys v :: sortKeysList vs

def sortKeysPairs : List (Value × Value) → List (Value × Value)
  | [] => []
  | (k, v) :: m => (sortKeys k, sortKeys v) :: sortKeysPairs m

end

mutual

/-- Items whose `encode` is their canonical encoding. -/
def canonical : Value → Bool
  | .int n => magnitude n < 2 ^ 64 || beWidth (magnitude n) < 2 ^ 64
  | .bytes b => b.length < 2 ^ 64
  | .text s => s.all isScalar && (utf8Raw s).length < 2 ^ 64
  | .array xs => xs.length < 2 ^ 64 && canonicalList xs
  | .map m => m.length < 2 ^ 64 && canonicalPairs m && decide (m.Pairwise fun a b => keyLt a b = true)
  | .null => true
  | .bool _ => true
  | .num _ => false
  | .other _ => false

def canonicalList : List Value → Bool
  | [] => true
  | v :: vs => canonical v && canonicalList vs

def canonicalPairs : List (Value × Value) → Bool
  | [] => true
  | (k, v) :: m => canonical k && canonical v && canonicalPairs m

end

mutual

/-- Integers, byte strings, text, arrays, maps and null only. -/
def plain : Value → Bool
  | .int _ => true
  | .bytes _ => true
  | .text _ => true
  | .array xs => plainList xs
  | .map m => plainPairs m
  | .null => true
  | .bool _ => false
  | .num _ => false
  | .other _ => false

def plainList : List Value → Bool
  | [] => true
  | v :: vs => plain v && plainList vs

def plainPairs : List (Value × Value) → Bool
  | [] => true
  | (k, v) :: m => plain k && plain v && plainPairs m

end

mutual

/-- How many nested items a reader opens; a big integer holds its magnitude. -/
def items : Value → ℕ
  | .int n => if magnitude n < 2 ^ 64 then 1 else 2
  | .array xs => 1 + itemsList xs
  | .map m => 1 + itemsPairs m
  | _ => 1

def itemsList : List Value → ℕ
  | [] => 0
  | v :: vs => items v + itemsList vs

def itemsPairs : List (Value × Value) → ℕ
  | [] => 0
  | (k, v) :: m => items k + (items v + itemsPairs m)

end

mutual

/-- How deep the items nest. -/
def depth : Value → ℕ
  | .int n => if magnitude n < 2 ^ 64 then 1 else 2
  | .array xs => 1 + depthList xs
  | .map m => 1 + depthPairs m
  | _ => 1

def depthList : List Value → ℕ
  | [] => 0
  | v :: vs => max (depth v) (depthList vs)

def depthPairs : List (Value × Value) → ℕ
  | [] => 0
  | (k, v) :: m => max (depth k) (max (depth v) (depthPairs m))

end

/-! ### Heads -/

theorem head_length_pos (major n : ℕ) : 0 < (head major n).length := by
  unfold head; split_ifs <;> simp

theorem encodeInt_length_pos (n : ℤ) : 0 < (encodeInt n).length := by
  unfold encodeInt; split_ifs <;> simp [head_length_pos]

theorem encode_length_pos (v : Value) : 0 < (encode v).length := by
  cases v with
  | int n => simpa only [encode] using encodeInt_length_pos n
  | bytes b => have := head_length_pos 2 b.length; simp only [encode, List.length_append]; omega
  | text s => have := head_length_pos 3 (utf8Raw s).length; simp only [encode, List.length_append]; omega
  | array xs => have := head_length_pos 4 xs.length; simp only [encode, List.length_append]; omega
  | map m => have := head_length_pos 5 m.length; simp only [encode, List.length_append]; omega
  | null | bool | num | other => simp [encode]

theorem encode_ne_nil (v : Value) : encode v ≠ [] := List.ne_nil_of_length_pos (encode_length_pos v)

end DecentWallet.Cbor
