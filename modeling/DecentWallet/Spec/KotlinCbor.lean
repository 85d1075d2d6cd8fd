import DecentWallet.Lib.CborRead
import DecentWallet.Lib.Prog

/-! `IdentityCbor.kt`: the Android client's own CBOR codec, with the exceptions it throws. -/

namespace DecentWallet.Kotlin

open Cbor

/-- The exceptions of `WalletErrors.kt` and that of login proofs; `other` is any that is no
`WalletContainerException`. -/
inductive WalletError where
  | locked
  | passwordPolicy
  | unlock
  | invalidContainer
  | unsupportedFormat
  | storage
  | storageOutcomeUnknown
  | keyGeneration
  | signing
  | rotationInProgress
  | invalidIdentityState
  | unsupportedIdentityState
  | identityTransport
  | rotationTransportUnavailable
  | identityEnvironmentMismatch
  | rotationConsentRejected
  | rotationConsentExpired
  | identityReplayRejected
  | identityStateChanged
  | loginProofRejected
  | other
  deriving DecidableEq, Repr

abbrev Parse := Except WalletError

open WalletError

def maxEncodedBytes : ℕ := 1024 * 1024

def maxDepth : ℕ := 32

def maxItems : ℕ := 10000

/-- `try { x } catch (_: Exception) { invalidIdentityState() }`. -/
def orInvalid {α : Type} (x : Parse α) : Parse α := x.mapError fun _ => invalidIdentityState

/-- `try { x }`, where `invalidIdentityState` passes and every other exception is turned into it. -/
def rethrowInvalid {α : Type} (x : Parse α) : Parse α :=
  x.mapError fun failure => if failure = invalidIdentityState then failure else invalidIdentityState

def encodeUtf8 (value : Str) : Parse Bytes := orInvalid (orRaise other (utf8 value))

def requireValidUtf8 (value : Bytes) : Parse Unit := orInvalid do
  let _ ← orRaise other (utf8Decode value)
  return ()

/-! ### Writing -/

def canonicalLe (left right : Bytes) : Bool := !shortLex right left

def hasDuplicate : List (Bytes × Bytes) → Bool
  | a :: b :: es => a.1 == b.1 || hasDuplicate (b :: es)
  | _ => false

def encodeKey : Value → Parse Bytes
  | .int n => do
    reject (maxEncodedBytes < (encodeInt n).length) invalidIdentityState
    return encodeInt n
  | _ => .error invalidIdentityState

mutual

/-- `writeValue(output, value, depth)`, as the bytes it appends. The stream's size is only ever
checked against one bound that it never exceeds later, so that check is made once, at the end. -/
def writeValue : Value → ℕ → Parse Bytes
  | .null, d => do
    reject (maxDepth < d) invalidIdentityState
    return [0xf6]
  | .bool b, d => do
    reject (maxDepth < d) invalidIdentityState
    return [if b then 0xf5 else 0xf4]
  | .bytes b, d => do
    reject (maxDepth < d) invalidIdentityState
    return head 2 b.length ++ b
  | .text s, d => do
    reject (maxDepth < d) invalidIdentityState
    let encoded ← encodeUtf8 s
    return head 3 encoded.length ++ encoded
  | .int n, d => do
    reject (maxDepth < d) invalidIdentityState
    return encodeInt n
  | .array xs, d => do
    reject (maxDepth < d) invalidIdentityState
    reject (maxItems < xs.length) invalidIdentityState
    let es ← writeList xs (d + 1)
    return head 4 xs.length ++ es
  | .map m, d => do
    reject (maxDepth < d) invalidIdentityState
    reject (maxItems < m.length) invalidIdentityState
    let es ← writeEntries m (d + 1)
    let es := es.insertionSort fun a b => canonicalLe a.1 b.1 = true
    reject (hasDuplicate es = true) invalidIdentityState
    return head 5 es.length ++ es.flatMap fun e => e.1 ++ e.2
  | .num _, _ => .error invalidIdentityState
  | .other _, _ => .error invalidIdentityState

def writeList : List Value → ℕ → Parse Bytes
  | [], _ => return []
  | v :: vs, d => do
    let e ← writeValue v d
    let es ← writeList vs d
    return e ++ es

def writeEntries : List (Value × Value) → ℕ → Parse (List (Bytes × Bytes))
  | [], _ => return []
  | (k, v) :: m, d => do
    let k ← encodeKey k
    let e ← writeValue v d
    let es ← writeEntries m d
    return (k, e) :: es

end

def encodeCanonical (v : Value) : Parse Bytes := rethrowInvalid do
  let b ← writeValue v 0
  reject (maxEncodedBytes < b.length) invalidIdentityState
  return b

/-! ### Reading -/

def isKey (n : ℤ) : Value → Bool
  | .int m => m == n
  | _ => false

/-- `value as? BigInteger ?: invalidIdentityState()`. -/
def asBigInteger : Value → Parse ℤ
  | .int n => .ok n
  | _ => .error invalidIdentityState

def asByteArray : Value → Parse Bytes
  | .bytes b => .ok b
  | _ => .error invalidIdentityState

/-- `copyOfRange(fromIndex, toIndex)`, which throws unless the range is one of the array. -/
def copyOfRange (bytes : Bytes) (fromIndex toIndex : ℕ) : Parse Bytes := do
  reject (toIndex < fromIndex ∨ bytes.length < toIndex) other
  return (bytes.drop fromIndex).take (toIndex - fromIndex)

def decodeText (encoded : Bytes) : Parse Str := orInvalid (orRaise other (utf8Decode encoded))

structure Decoder where
  offset : ℕ
  itemCount : ℕ

namespace Decoder

abbrev Reader := Prog Decoder WalletError

variable (bytes : Bytes)

def readByte : Reader ℕ := do
  let decoder ← Prog.get
  Prog.reject (bytes.length ≤ decoder.offset) invalidIdentityState
  let byte ← Prog.lift (orRaise other bytes[decoder.offset]?)
  Prog.modify fun decoder => { decoder with offset := decoder.offset + 1 }
  return byte.toNat

def readBytes (length : ℕ) : Reader Bytes := do
  let decoder ← Prog.get
  Prog.reject ((bytes.length : ℤ) - decoder.offset < length) invalidIdentityState
  let read ← Prog.lift (copyOfRange bytes decoder.offset (decoder.offset + length))
  Prog.modify fun decoder => { decoder with offset := decoder.offset + length }
  return read

def readUnsigned (width : ℕ) : Reader ℕ := do
  let read ← readBytes bytes width
  return ofBE read

def readArgument (additional : ℕ) : Reader ℕ :=
  if additional < 24 then return additional
  else if additional = 24 then readUnsigned bytes 1
  else if additional = 25 then readUnsigned bytes 2
  else if additional = 26 then readUnsigned bytes 4
  else if additional = 27 then readUnsigned bytes 8
  else Prog.raise invalidIdentityState

def readLength (additional : ℕ) : Reader ℕ := do
  let length ← readArgument bytes additional
  Prog.reject (maxEncodedBytes < length) invalidIdentityState
  return length

def readList (item : Reader Value) : ℕ → Reader (List Value)
  | 0 => return []
  | size + 1 => do
    let value ← item
    let values ← readList item size
    return value :: values

def readEntries (item : Reader Value) : ℕ → List (Value × Value) → Reader (List (Value × Value))
  | 0, values => return values
  | size + 1, values => do
    let key ← item
    let key ← Prog.lift (asBigInteger key)
    Prog.reject (values.any (fun p => isKey key p.1) = true) invalidIdentityState
    let value ← item
    readEntries item size (values ++ [(.int key, value)])

def readBigNumber (item : Reader Value) (additional : ℕ) : Reader ℤ := do
  let tag ← readArgument bytes additional
  Prog.reject (tag ≠ 2 ∧ tag ≠ 3) invalidIdentityState
  let value ← item
  let magnitudeBytes ← Prog.lift (asByteArray value)
  Prog.reject (magnitudeBytes = [] ∨ magnitudeBytes.head? = some 0) invalidIdentityState
  let magnitude := ofBE magnitudeBytes
  Prog.reject (magnitude ≤ 2 ^ 64 - 1) invalidIdentityState
  return if tag = 2 then (magnitude : ℤ) else -1 - (magnitude : ℤ)

/-- The `when (major)` of `readValue`, where `item` reads one level deeper. -/
def readMajor (item : Reader Value) (additional : ℕ) : ℕ → Reader Value
  | 0 => do
    let argument ← readArgument bytes additional
    return .int argument
  | 1 => do
    let argument ← readArgument bytes additional
    return .int (-1 - (argument : ℤ))
  | 2 => do
    let length ← readLength bytes additional
    let read ← readBytes bytes length
    return .bytes read
  | 3 => do
    let length ← readLength bytes additional
    let encoded ← readBytes bytes length
    let text ← Prog.lift (decodeText encoded)
    return .text text
  | 4 => do
    let size ← readLength bytes additional
    let values ← readList item size
    return .array values
  | 5 => do
    let size ← readLength bytes additional
    let values ← readEntries item size []
    return .map values
  | 6 => do
    let number ← readBigNumber bytes item additional
    return .int number
  | 7 =>
    if additional = 20 then return .bool false
    else if additional = 21 then return .bool true
    else if additional = 22 then return .null
    else Prog.raise invalidIdentityState
  | _ => Prog.raise invalidIdentityState

/-- `readValue(depth)`, where `maxDepth + 1 - depth` levels are left. -/
def readValue : ℕ → Reader Value
  | 0 => Prog.raise invalidIdentityState
  | left + 1 => do
    Prog.modify fun decoder => { decoder with itemCount := decoder.itemCount + 1 }
    let decoder ← Prog.get
    Prog.reject (maxItems < decoder.itemCount) invalidIdentityState
    let initial ← readByte bytes
    readMajor bytes (readValue left) (initial % 32) (initial / 32)

def decode : Reader Value := do
  let value ← readValue bytes (maxDepth + 1)
  let decoder ← Prog.get
  Prog.reject (decoder.offset ≠ bytes.length) invalidIdentityState
  let canonical ← Prog.lift (encodeCanonical value)
  Prog.reject (canonical ≠ bytes) invalidIdentityState
  return value

end Decoder

def decodeCanonical (bytes : Bytes) : Parse Value := do
  reject (bytes = [] ∨ maxEncodedBytes < bytes.length) invalidIdentityState
  rethrowInvalid (Decoder.decode bytes ⟨0, 0⟩).1

end DecentWallet.Kotlin
