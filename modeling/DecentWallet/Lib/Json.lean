import DecentWallet.Lib.Utf8

/-! JSON as Python's `json` module writes and reads it: compact, keys sorted, text not escaped to
ASCII. Nesting and the number of digits are unbounded. -/

namespace DecentWallet

/-- What `float` makes of a number with a fraction or an exponent: its text, whether it is finite, and
the integer it equals, if any. -/
structure JsonFloat where
  repr : Str
  finite : Bool
  value : Option ℤ
  deriving DecidableEq, Repr

inductive Json where
  | null
  | bool (b : Bool)
  | int (n : ℤ)
  | float (f : JsonFloat)
  | str (s : Str)
  | arr (l : List Json)
  | obj (m : List (Str × Json))

/-! ### Writing -/

def hexDigit (n : ℕ) : ℕ := if n < 10 then 48 + n else 87 + n

def escapePoint (c : ℕ) : Str :=
  if c = 34 then [92, 34]
  else if c = 92 then [92, 92]
  else if c = 8 then [92, 98]
  else if c = 9 then [92, 116]
  else if c = 10 then [92, 110]
  else if c = 12 then [92, 102]
  else if c = 13 then [92, 114]
  else if c < 32 then [92, 117, 48, 48, hexDigit (c / 16), hexDigit (c % 16)]
  else [c]

def quote (s : Str) : Str := 34 :: (s.flatMap escapePoint ++ [34])

def decimal (n : ℕ) : Str := if n = 0 then [48] else (Nat.digits 10 n).reverse.map (48 + ·)

def intText (n : ℤ) : Str := if n < 0 then 45 :: decimal n.natAbs else decimal n.natAbs

namespace Json

mutual

def text : Json → Str
  | .null => DecentWallet.str "null"
  | .bool true => DecentWallet.str "true"
  | .bool false => DecentWallet.str "false"
  | .int n => intText n
  | .float f => f.repr
  | .str s => quote s
  | .arr [] => [91, 93]
  | .arr (v :: l) => 91 :: (text v ++ textItems l)
  | .obj [] => [123, 125]
  | .obj ((k, v) :: m) => 123 :: (quote k ++ 58 :: (text v ++ textMembers m))

/-- The items after the first, and the closing bracket. -/
def textItems : List Json → Str
  | [] => [93]
  | v :: l => 44 :: (text v ++ textItems l)

def textMembers : List (Str × Json) → Str
  | [] => [125]
  | (k, v) :: m => 44 :: (quote k ++ 58 :: (text v ++ textMembers m))

end

mutual

/-- `sort_keys=True`. -/
def sortKeys : Json → Json
  | .arr l => .arr (sortItems l)
  | .obj m => .obj ((sortMembers m).insertionSort fun a b => a.1 ≤ b.1)
  | v => v

def sortItems : List Json → List Json
  | [] => []
  | v :: l => sortKeys v :: sortItems l

def sortMembers : List (Str × Json) → List (Str × Json)
  | [] => []
  | (k, v) :: m => (k, sortKeys v) :: sortMembers m

end

mutual

/-- `allow_nan=False`. -/
def finite : Json → Bool
  | .float f => f.finite
  | .arr l => finiteItems l
  | .obj m => finiteMembers m
  | _ => true

def finiteItems : List Json → Bool
  | [] => true
  | v :: l => finite v && finiteItems l

def finiteMembers : List (Str × Json) → Bool
  | [] => true
  | (_, v) :: m => finite v && finiteMembers m

end

/-- `json.dumps(..).encode("utf-8")`. -/
def dumps (v : Json) : Option Bytes := if v.finite then utf8 (sortKeys v).text else none

end Json

/-! ### Reading -/

def isSpace (c : ℕ) : Bool := c = 32 || c = 9 || c = 10 || c = 13

def skipSpace (s : Str) : Str := s.dropWhile isSpace

def isDigit (c : ℕ) : Bool := 48 ≤ c && c ≤ 57

def hexValue (c : ℕ) : Option ℕ :=
  if 48 ≤ c ∧ c ≤ 57 then some (c - 48)
  else if 65 ≤ c ∧ c ≤ 70 then some (c - 55)
  else if 97 ≤ c ∧ c ≤ 102 then some (c - 87)
  else none

def simpleEscape (c : ℕ) : Option ℕ :=
  if c = 34 ∨ c = 92 ∨ c = 47 then some c
  else if c = 98 then some 8
  else if c = 102 then some 12
  else if c = 110 then some 10
  else if c = 114 then some 13
  else if c = 116 then some 9
  else none

/-- The points of a string up to its closing quote; the flag marks a `\u` escape. -/
def readUnits : Str → Option (List (ℕ × Bool) × Str)
  | [] => none
  | 34 :: r => some ([], r)
  | 92 :: 117 :: a :: b :: c :: d :: r => do
    let w ← hexValue a
    let x ← hexValue b
    let y ← hexValue c
    let z ← hexValue d
    let (l, r) ← readUnits r
    some ((w * 4096 + x * 256 + y * 16 + z, true) :: l, r)
  | 92 :: c :: r => do
    let p ← simpleEscape c
    let (l, r) ← readUnits r
    some ((p, false) :: l, r)
  | c :: r =>
    if c < 32 then none
    else do
      let (l, r) ← readUnits r
      some ((c, false) :: l, r)

/-- Two escaped surrogates that form a pair are one point. -/
def joinSurrogates : List (ℕ × Bool) → Str
  | [] => []
  | [(a, _)] => [a]
  | (a, f) :: (b, g) :: r =>
    if f && g && (0xD800 ≤ a && a < 0xDC00) && (0xDC00 ≤ b && b < 0xE000) then
      (0x10000 + (a - 0xD800) * 1024 + (b - 0xDC00)) :: joinSurrogates r
    else a :: joinSurrogates ((b, g) :: r)

/-- A string after its opening quote. -/
def readString (s : Str) : Option (Str × Str) := (readUnits s).map fun p => (joinSurrogates p.1, p.2)

def readNatural : Str → Option (Str × Str)
  | 48 :: r => some ([48], r)
  | c :: r => if 49 ≤ c ∧ c ≤ 57 then some (c :: r.takeWhile isDigit, r.dropWhile isDigit) else none
  | [] => none

def readFraction : Str → Str × Str
  | 46 :: r => if r.head?.any isDigit then (46 :: r.takeWhile isDigit, r.dropWhile isDigit) else ([], 46 :: r)
  | r => ([], r)

def isSign (c : ℕ) : Bool := c = 43 || c = 45

def readExponent (s : Str) : Str × Str :=
  match s with
  | c :: r =>
    let sign := (r.take 1).filter isSign
    let digits := r.drop sign.length
    if (c = 101 ∨ c = 69) ∧ digits.head?.any isDigit then
      (c :: (sign ++ digits.takeWhile isDigit), digits.dropWhile isDigit)
    else ([], s)
  | [] => ([], [])

def ofDecimal (s : Str) : ℕ := s.foldl (fun n c => n * 10 + (c - 48)) 0

section

variable (float : Str → JsonFloat)

def readNumber (s : Str) : Option (Json × Str) := do
  let sign := (s.take 1).filter (· = 45)
  let (digits, r) ← readNatural (s.drop sign.length)
  let f := readFraction r
  let e := readExponent f.2
  if f.1 = [] ∧ e.1 = [] then
    some (.int (if sign = [] then (ofDecimal digits : ℤ) else -(ofDecimal digits : ℤ)), e.2)
  else some (.float (float (sign ++ digits ++ f.1 ++ e.1)), e.2)

/-- The constants, then the numbers. -/
def readScalar (s : Str) : Option (Json × Str) :=
  if s.take 4 = str "null" then some (.null, s.drop 4)
  else if s.take 4 = str "true" then some (.bool true, s.drop 4)
  else if s.take 5 = str "false" then some (.bool false, s.drop 5)
  else if s.take 3 = str "NaN" then some (.float ⟨str "nan", false, none⟩, s.drop 3)
  else if s.take 8 = str "Infinity" then some (.float ⟨str "inf", false, none⟩, s.drop 8)
  else if s.take 9 = str "-Infinity" then some (.float ⟨str "-inf", false, none⟩, s.drop 9)
  else readNumber float s

/-- `d[k] = v`. -/
def setItem {α : Type} : List (Str × α) → Str → α → List (Str × α)
  | [], k, v => [(k, v)]
  | (k', v') :: m, k, v => if k' = k then (k, v) :: m else (k', v') :: setItem m k v

/-- `dict(pairs)`: a repeated key keeps its place and its last value. -/
def dictOf {α : Type} (l : List (Str × α)) : List (Str × α) := l.foldl (fun d p => setItem d p.1 p.2) []

mutual

def readJson : ℕ → Str → Option (Json × Str)
  | 0, _ => none
  | _ + 1, 34 :: r => (readString r).map fun p => (.str p.1, p.2)
  | n + 1, 91 :: r =>
    match skipSpace r with
    | 93 :: r => some (.arr [], r)
    | r => (readItems n r).map fun p => (.arr p.1, p.2)
  | n + 1, 123 :: r =>
    match skipSpace r with
    | 125 :: r => some (.obj [], r)
    | r => (readMembers n r).map fun p => (.obj (dictOf p.1), p.2)
  | _ + 1, s => readScalar float s

def readItems : ℕ → Str → Option (List Json × Str)
  | 0, _ => none
  | n + 1, s => do
    let (v, r) ← readJson n s
    match skipSpace r with
    | 44 :: r => do
      let (l, r) ← readItems n (skipSpace r)
      some (v :: l, r)
    | 93 :: r => some ([v], r)
    | _ => none

def readMembers : ℕ → Str → Option (List (Str × Json) × Str)
  | n + 1, 34 :: s => do
    let (k, r) ← readString s
    match skipSpace r with
    | 58 :: r => do
      let (v, r) ← readJson n (skipSpace r)
      match skipSpace r with
      | 44 :: r => do
        let (m, r) ← readMembers n (skipSpace r)
        some ((k, v) :: m, r)
      | 125 :: r => some ([(k, v)], r)
      | _ => none
    | _ => none
  | _, _ => none

end

/-- `json.loads` of a text. Every level of the reader takes a character, or leaves the text to a level
that does. -/
def Json.loads (s : Str) : Option Json := do
  let (v, r) ← readJson float (2 * s.length + 1) (skipSpace s)
  if skipSpace r = [] then some v else none

end

end DecentWallet
