import DecentWallet.Spec.Payload

/-! The encrypted container: its JSON form, its keys and its two sealed boxes. The cipher, the key
derivation and the signatures are parameters. -/

namespace DecentWallet

open Raised

/-- A limit of the interpreter that `json` runs into: nesting, or the digits of an integer. -/
inductive JsonLimit where
  | nesting
  | digits
  deriving DecidableEq

def JsonLimit.raised : JsonLimit → Raised
  | nesting => recursionError
  | digits => valueError

/-- The libraries the wallet calls, and the limits of the interpreter. A call that raises is `none`. -/
structure Crypto where
  /-- `hash_secret_raw` with the wallet's parameters: secret and salt. -/
  argon2id : Bytes → Bytes → Option Bytes
  /-- `encrypt_and_digest` under a key, a nonce and associated data: ciphertext and tag. -/
  encrypt : Bytes → Bytes → Bytes → Bytes → Option (Bytes × Bytes)
  /-- `decrypt_and_verify` of a ciphertext and its tag. -/
  decrypt : Bytes → Bytes → Bytes → Bytes → Bytes → Option Bytes
  /-- The Ed25519 public key of a seed. -/
  publicKey : Bytes → Option Bytes
  /-- The Ed25519 signature of a message under a seed. -/
  sign : Bytes → Bytes → Option Bytes
  float : Str → JsonFloat
  /-- The limit of `json.loads` that a text is beyond. -/
  limit : Str → Option JsonLimit
  /-- The limit of `json.dumps` that a value is beyond. -/
  dumpsLimit : Json → Option JsonLimit
  /-- How many calls of `_encode_value` or `_decode_value` the stack has room for, one inside the other. -/
  room : ℕ

/-- Under one key and nonce, a box opens under one associated data only. -/
def Crypto.BindsAad (C : Crypto) : Prop := ∀ {key nonce aad aad' ciphertext tag plaintext plaintext'},
  C.decrypt key nonce aad ciphertext tag = some plaintext → C.decrypt key nonce aad' ciphertext tag = some plaintext' →
    aad = aad'

def currentFormatVersion : ℤ := 2

def kdfMemoryKib : ℤ := 64 * 1024

def kdfTimeCost : ℤ := 3

def kdfParallelism : ℤ := 4

def saltLength : ℕ := 16

def nonceLength : ℕ := 24

def tagLength : ℕ := 16

def maxContainerBytes : ℕ := 16 * 1024 * 1024

def minPasswordLength : ℕ := 16

def aeadAlgorithm : Str := str "xchacha20-poly1305"

/-! ### The container -/

/-- `wrap` and `payload`; the algorithm is always `aeadAlgorithm`. -/
structure SealedBox where
  nonce : Str
  ciphertext : Str
  tag : Str
  deriving DecidableEq, Repr

/-- The numbers are kept as they were read: `65536.0` passes the check as well. -/
structure KdfHeader where
  memoryKib : Json
  timeCost : Json
  parallelism : Json
  salt : Str

structure Container where
  version : ℤ
  kdf : KdfHeader
  wrap : SealedBox
  payload : SealedBox

def SealedBox.info (b : SealedBox) : Json := .obj [(str "algorithm", .str aeadAlgorithm), (str "nonce", .str b.nonce)]

def SealedBox.toJson (b : SealedBox) : Json :=
  .obj [(str "algorithm", .str aeadAlgorithm), (str "ciphertext", .str b.ciphertext), (str "nonce", .str b.nonce),
    (str "tag", .str b.tag)]

def KdfHeader.toJson (k : KdfHeader) : Json :=
  .obj [(str "algorithm", .str (str "argon2id")), (str "memory_kib", k.memoryKib), (str "parallelism", k.parallelism),
    (str "salt", .str k.salt), (str "time_cost", k.timeCost)]

def Container.toJson (c : Container) : Json :=
  .obj [(str "format", .str (str "decent-wallet")), (str "kdf", c.kdf.toJson), (str "payload", c.payload.toJson),
    (str "version", .int c.version), (str "wrap", c.wrap.toJson)]

/-- `_canonical_json`, for values that are within the limits of `json.dumps`. -/
def canonicalJson (v : Json) : Except Raised Bytes := orRaise invalidContainer v.dumps

def serialize (c : Container) : Except Raised Bytes := canonicalJson c.toJson

def kdfHeader (salt : Bytes) : KdfHeader where
  memoryKib := .int kdfMemoryKib
  timeCost := .int kdfTimeCost
  parallelism := .int kdfParallelism
  salt := base64Encode salt

def wrapAad (kdf : KdfHeader) (version : ℤ) : Except Raised Bytes :=
  canonicalJson (.obj [(str "format", .str (str "decent-wallet")), (str "kdf", kdf.toJson),
    (str "version", .int version)])

/-- The payload's associated data; only the nonce of the box is read. -/
def payloadAad (box : SealedBox) (version : ℤ) : Except Raised Bytes :=
  canonicalJson (.obj [(str "format", .str (str "decent-wallet")), (str "payload", box.info),
    (str "version", .int version)])

/-! ### Parsing -/

namespace Json

/-- `set(v) == names` for a `dict`. -/
def hasKeys (names : List String) : Json → Bool
  | .obj m => m.length = names.length && names.all fun k => (Assoc.get m (DecentWallet.str k)).isSome
  | _ => false

def get (k : String) : Json → Json
  | .obj m => (Assoc.get m (DecentWallet.str k)).getD .null
  | _ => .null

def isStr (s : Str) : Json → Bool
  | .str t => t = s
  | _ => false

def isInt (n : ℤ) : Json → Bool
  | .int m => m = n
  | .float f => f.value = some n
  | .bool b => (if b then 1 else 0) = n
  | _ => false

end Json

/-- `_b64_decode`, for its check. -/
def b64Text (expectedLength : Option ℕ) : Json → Except Raised Str
  | .str s => do
    let _ ← b64Decode s expectedLength
    return s
  | _ => .error invalidContainer

def parseKdf (j : Json) : Except Raised KdfHeader := do
  reject (j.hasKeys ["algorithm", "memory_kib", "time_cost", "parallelism", "salt"] = false) invalidContainer
  reject ((j.get "algorithm").isStr (str "argon2id") = false ∨ (j.get "memory_kib").isInt kdfMemoryKib = false ∨
    (j.get "time_cost").isInt kdfTimeCost = false ∨ (j.get "parallelism").isInt kdfParallelism = false)
    unsupportedFormat
  let salt ← b64Text (some saltLength) (j.get "salt")
  return ⟨j.get "memory_kib", j.get "time_cost", j.get "parallelism", salt⟩

def parseBox (j : Json) : Except Raised SealedBox := do
  reject (j.hasKeys ["algorithm", "nonce", "ciphertext", "tag"] = false) invalidContainer
  reject ((j.get "algorithm").isStr aeadAlgorithm = false) unsupportedFormat
  let nonce ← b64Text (some nonceLength) (j.get "nonce")
  let ciphertext ← b64Text none (j.get "ciphertext")
  let tag ← b64Text (some tagLength) (j.get "tag")
  return ⟨nonce, ciphertext, tag⟩

def versionOf : Json → Except Raised ℤ
  | .int n => .ok n
  | _ => .error invalidContainer

def loadText (C : Crypto) (e : Raised) (text : Str) : Except Raised Json :=
  match C.limit text with
  | some l => .error l.raised
  | none => orRaise e (Json.loads C.float text)

/-- `json.loads(raw.decode("utf-8"))`, with `UnicodeDecodeError` and `JSONDecodeError` raised as `e`. -/
def jsonLoads (C : Crypto) (e : Raised) (raw : Bytes) : Except Raised Json := do
  loadText C e (← orRaise e (utf8Decode raw))

def parseContainerBody (C : Crypto) (raw : Bytes) (expectedVersion : ℤ) : Except Raised Container := do
  let decoded ← jsonLoads C invalidContainer raw
  reject (decoded.hasKeys ["format", "version", "kdf", "wrap", "payload"] = false) invalidContainer
  reject ((decoded.get "format").isStr (str "decent-wallet") = false) invalidContainer
  let version ← versionOf (decoded.get "version")
  reject (version ≠ expectedVersion) unsupportedFormat
  let kdf ← parseKdf (decoded.get "kdf")
  let wrap ← parseBox (decoded.get "wrap")
  let payload ← parseBox (decoded.get "payload")
  return ⟨version, kdf, wrap, payload⟩

def parseContainer (C : Crypto) (raw : Bytes) (expectedVersion : ℤ) : Except Raised Container := do
  reject (maxContainerBytes < raw.length) invalidContainer
  parseContainerBody C raw expectedVersion

/-! ### Sealing and unlocking -/

section

variable (C : Crypto)

def deriveKek (password : Str) (salt : Bytes) : Except Raised Bytes :=
  orRaise unlockFailed ((utf8 password).bind fun p => C.argon2id p salt)

def sealBox (key nonce aad plaintext : Bytes) : Except Raised SealedBox := do
  let c ← orRaise storageFailure (C.encrypt key nonce aad plaintext)
  return ⟨base64Encode nonce, base64Encode c.1, base64Encode c.2⟩

def openBox (key : Bytes) (box : SealedBox) (aad : Bytes) : Except Raised Bytes := do
  let nonce ← b64Decode box.nonce (some nonceLength)
  let ciphertext ← b64Decode box.ciphertext none
  let tag ← b64Decode box.tag (some tagLength)
  orRaise unlockFailed (C.decrypt key nonce aad ciphertext tag)

def wrapDek (kek dek : Bytes) (kdf : KdfHeader) (nonce : Bytes) : Except Raised SealedBox := do
  sealBox C kek nonce (← wrapAad kdf currentFormatVersion) dek

/-- The first line of `_make_payload`. `_canonical_json` takes a `ValueError` for an invalid container, and lets a
`RecursionError` pass. -/
def encodePayload (p : Payload) : Except Raised Bytes := do
  let typed ← encodeValue (.map p.entries) C.room
  match C.dumpsLimit typed with
  | some .nesting => .error recursionError
  | some .digits => .error invalidContainer
  | none => canonicalJson typed

/-- The rest of `_make_payload`, under its nonce. -/
def sealPayload (dek encoded nonce : Bytes) : Except Raised SealedBox := do
  sealBox C dek nonce (← payloadAad ⟨base64Encode nonce, [], []⟩ currentFormatVersion) encoded

/-- A decoded value that is a `dict`; what is decoded is in key order. -/
def asPayload : PayloadValue → Option Payload
  | .map m => if h : (PayloadValue.map m).ordered = true then some ⟨m, h⟩ else none
  | _ => none

def decodePayload (c : Container) (dek : Bytes) (version : ℤ) : Except Raised Payload := do
  let aad ← payloadAad c.payload version
  let plaintext ← openBox C dek c.payload aad
  let decoded ← jsonLoads C unlockFailed plaintext
  let value ← decodeValue decoded C.room
  orRaise unlockFailed (asPayload value)

def unlockEnvelope (c : Container) (password : Str) (version : ℤ) : Except Raised (Bytes × Payload) := do
  let salt ← b64Decode c.kdf.salt (some saltLength)
  let kek ← deriveKek C password salt
  let aad ← wrapAad c.kdf version
  let dek ← openBox C kek c.wrap aad
  reject (dek.length ≠ keyLength) unlockFailed
  let payload ← decodePayload C c dek version
  return (dek, payload)

end

/-- What an authenticated cipher does with its own output, the length of an Ed25519 key, and an interpreter that
reads what it has printed. A container is three levels deep and holds small numbers only. -/
structure Crypto.Correct (C : Crypto) : Prop where
  decrypt_encrypt : ∀ {key nonce aad plaintext ciphertext tag},
    C.encrypt key nonce aad plaintext = some (ciphertext, tag) → C.decrypt key nonce aad ciphertext tag = some plaintext
  tag_length : ∀ {key nonce aad plaintext ciphertext tag}, C.encrypt key nonce aad plaintext = some (ciphertext, tag) →
    tag.length = 16
  publicKey_length : ∀ {seed key}, C.publicKey seed = some key → key.length = 32
  loads_dumps : ∀ {v data text}, C.dumpsLimit v = none → v.dumps = some data → utf8Decode data = some text →
    C.limit text = none
  dumps_container : ∀ {c : Container}, c.version = currentFormatVersion → parseKdf c.kdf.toJson = .ok c.kdf →
    C.dumpsLimit c.toJson = none

def validatePassword (password : Str) (confirmation : Option Str) : Except Raised Unit := do
  reject (password.length < minPasswordLength) passwordPolicy
  reject (∃ c ∈ confirmation, password ≠ c) passwordPolicy

def validateInactivity (minutes : ℤ) : Except Raised Unit := reject (¬(1 ≤ minutes ∧ minutes ≤ 15)) invalidContainer

end DecentWallet
