import DecentWallet.Lib.Assoc
import DecentWallet.Lib.Base64
import DecentWallet.Lib.JsonText
import DecentWallet.Spec.Adapter

/-! The wallet's payload: the values it may hold, their typed JSON form, and the rotation dispatch
intent kept in it. -/

namespace DecentWallet

inductive Raised where
  | walletLocked
  | passwordPolicy
  | unlockFailed
  | invalidContainer
  | unsupportedFormat
  | storageFailure
  | storageOutcomeUnknown
  | rotationInProgress
  | keyGeneration
  | signerUnavailable
  | invalidSigningInput
  | signerError
  | identity (e : IdentityError)
  | osError
  | keyError
  | recursionError
  | valueError
  deriving DecidableEq, Repr

/-- `except WalletError`. -/
def Raised.isWalletError : Raised → Bool
  | walletLocked => true
  | passwordPolicy => true
  | unlockFailed => true
  | invalidContainer => true
  | unsupportedFormat => true
  | storageFailure => true
  | storageOutcomeUnknown => true
  | rotationInProgress => true
  | _ => false

/-! ### Values -/

/-- A `dict` is kept in key order. `other` stands for every object that `_encode_value` refuses. -/
inductive PayloadValue where
  | none
  | bool (b : Bool)
  | str (s : Str)
  | int (n : ℤ)
  | bytes (b : Bytes)
  | list (l : List PayloadValue)
  | map (m : List (Str × PayloadValue))
  | other

namespace PayloadValue

mutual

def ordered : PayloadValue → Bool
  | .list l => orderedItems l
  | .map m => decide (Assoc.Sorted m) && orderedMembers m
  | _ => true

def orderedItems : List PayloadValue → Bool
  | [] => true
  | v :: l => ordered v && orderedItems l

def orderedMembers : List (Str × PayloadValue) → Bool
  | [] => true
  | (_, v) :: m => ordered v && orderedMembers m

end

end PayloadValue

open Raised

def tagged (kind : String) (v : Json) : Json := .obj [(str "t", .str (str kind)), (str "v", v)]

mutual

/-- `_encode_value`, with room for so many calls of it on the interpreter's stack. The items of a `dict` are in
key order already. -/
def encodeValue : PayloadValue → ℕ → Except Raised Json
  | _, 0 => .error recursionError
  | .none, _ + 1 => .ok (.obj [(str "t", .str (str "null"))])
  | .bool b, _ + 1 => .ok (tagged "bool" (.bool b))
  | .str s, _ + 1 => .ok (tagged "str" (.str s))
  | .int n, _ + 1 => .ok (tagged "int" (.int n))
  | .bytes b, _ + 1 => .ok (tagged "bytes" (.str (base64Encode b)))
  | .list l, room + 1 => do return tagged "list" (.arr (← encodeItems l room))
  | .map m, room + 1 => do return tagged "map" (.arr (← encodeMembers m room))
  | .other, _ + 1 => .error invalidContainer

def encodeItems : List PayloadValue → ℕ → Except Raised (List Json)
  | [], _ => .ok []
  | v :: l, room => do
    let j ← encodeValue v room
    return j :: (← encodeItems l room)

def encodeMembers : List (Str × PayloadValue) → ℕ → Except Raised (List Json)
  | [], _ => .ok []
  | (k, v) :: m, room => do
    let j ← encodeValue v room
    return .arr [.str k, j] :: (← encodeMembers m room)

end

def b64Decode (s : Str) (expectedLength : Option ℕ) : Except Raised Bytes := do
  let decoded ← orRaise invalidContainer (base64Decode s)
  reject (∃ n ∈ expectedLength, decoded.length ≠ n) invalidContainer
  return decoded

mutual

/-- `_decode_value`, with room for so many calls of it. A `dict` with the key `t`, and no key besides `t` and `v`,
has one of three forms. -/
def decodeValue : Json → ℕ → Except Raised PayloadValue
  | _, 0 => .error recursionError
  | .obj m, room + 1 => decodeEntry m room
  | _, _ + 1 => .error invalidContainer

def decodeEntry : List (Str × Json) → ℕ → Except Raised PayloadValue
  | [(k, kind)], _ =>
    match kind with
    | .str s => if k = str "t" ∧ s = str "null" then .ok .none else .error invalidContainer
    | _ => .error invalidContainer
  | [(k, v), (k', v')], room =>
    if k = str "t" ∧ k' = str "v" then
      match v with
      | .str kind => decodeTagged kind v' room
      | _ => .error invalidContainer
    else if k = str "v" ∧ k' = str "t" then
      match v' with
      | .str kind => decodeTagged kind v room
      | _ => .error invalidContainer
    else .error invalidContainer
  | _, _ => .error invalidContainer

def decodeTagged (kind : Str) : Json → ℕ → Except Raised PayloadValue
  | .bool b, _ => if kind = str "bool" then .ok (.bool b) else .error invalidContainer
  | .str s, _ =>
    if kind = str "str" then .ok (.str s)
    else if kind = str "bytes" then do return .bytes (← b64Decode s Option.none)
    else .error invalidContainer
  | .int n, _ => if kind = str "int" then .ok (.int n) else .error invalidContainer
  | .arr l, room =>
    if kind = str "list" then do return .list (← decodeItems l room)
    else if kind = str "map" then do return .map (← decodeMembers Option.none l room)
    else .error invalidContainer
  | _, _ => .error invalidContainer

def decodeItems : List Json → ℕ → Except Raised (List PayloadValue)
  | [], _ => .ok []
  | j :: l, room => do
    let v ← decodeValue j room
    return v :: (← decodeItems l room)

def decodeMembers (previous : Option Str) : List Json → ℕ → Except Raised (List (Str × PayloadValue))
  | [], _ => .ok []
  | .arr [.str k, j] :: l, room => do
    reject (∃ p ∈ previous, k ≤ p) invalidContainer
    let v ← decodeValue j room
    return (k, v) :: (← decodeMembers (some k) l room)
  | _ :: _, _ => .error invalidContainer

end

/-- A `dict[str, Any]` that holds only `dict`s in key order. -/
structure Payload where
  entries : List (Str × PayloadValue)
  ordered : (PayloadValue.map entries).ordered = true

namespace PayloadValue

theorem orderedMembers_iff {m : List (Str × PayloadValue)} :
    orderedMembers m = true ↔ ∀ p ∈ m, p.2.ordered = true := by
  induction m with
  | nil => simp [orderedMembers]
  | cons p m ih => simp [orderedMembers, ih]

theorem ordered_map_iff {m : List (Str × PayloadValue)} :
    (map m).ordered = true ↔ Assoc.Sorted m ∧ ∀ p ∈ m, p.2.ordered = true := by
  simp [ordered, orderedMembers_iff]

def asBytes : PayloadValue → Option Bytes
  | .bytes b => some b
  | _ => Option.none

def asStr : PayloadValue → Option Str
  | .str s => some s
  | _ => Option.none

def asInt : PayloadValue → Option ℤ
  | .int n => some n
  | _ => Option.none

def isNone : PayloadValue → Bool
  | .none => true
  | _ => false

end PayloadValue

namespace Payload

def empty : Payload := ⟨[], by decide⟩

def has (p : Payload) (k : String) : Bool := (Assoc.get p.entries (str k)).isSome

def get (p : Payload) (k : String) : PayloadValue := (Assoc.get p.entries (str k)).getD .none

def set (p : Payload) (k : String) (v : PayloadValue) (hv : v.ordered = true) : Payload where
  entries := Assoc.insert p.entries (str k) v
  ordered := by
    obtain ⟨hs, hm⟩ := PayloadValue.ordered_map_iff.1 p.ordered
    refine PayloadValue.ordered_map_iff.2 ⟨hs.insert _ _, fun q hq => ?_⟩
    rcases Assoc.mem_insert hq with rfl | hq
    · exact hv
    · exact hm q hq

def setBytes (p : Payload) (k : String) (b : Bytes) : Payload := p.set k (.bytes b) rfl

def pop (p : Payload) (k : String) : Payload where
  entries := Assoc.erase p.entries (str k)
  ordered := by
    obtain ⟨hs, hm⟩ := PayloadValue.ordered_map_iff.1 p.ordered
    exact PayloadValue.ordered_map_iff.2 ⟨hs.erase _, fun q hq => hm q (List.mem_of_mem_filter hq)⟩

/-- `p[k] = q[k]`, where `q` has `k`. -/
def copy (p q : Payload) (k : String) : Except Raised Payload :=
  match h : Assoc.get q.entries (str k) with
  | none => .error keyError
  | some v => .ok (p.set k v ((PayloadValue.ordered_map_iff.1 q.ordered).2 _ (Assoc.mem_of_get h)))

end Payload

/-! ### The rotation dispatch intent -/

def signingFields : List String :=
  ["private_seed", "public_key", "pending_private_seed", "pending_public_key", "rotation_dispatch_intent"]

namespace RotationDispatchIntent

def environmentEntry : Option Str → List (Str × PayloadValue)
  | none => []
  | some e => [(str "environment", .str e)]

def toPayload (i : RotationDispatchIntent) : PayloadValue :=
  .map ((str "envelope_hash", .bytes i.envelopeHash) :: (environmentEntry i.environment ++
    [(str "owner_name", .bytes i.ownerName),
      (str "predecessor_owner_public_key", .bytes i.predecessorOwnerPublicKey),
      (str "predecessor_state_hash", .bytes i.predecessorStateHash),
      (str "sequence", .int i.sequence),
      (str "successor_owner_public_key", .bytes i.successorOwnerPublicKey)]))

theorem toPayload_ordered (i : RotationDispatchIntent) : i.toPayload.ordered = true := by
  refine PayloadValue.ordered_map_iff.2 ⟨?_, ?_⟩
  · unfold Assoc.Sorted
    rw [← List.pairwise_map (f := Prod.fst) (R := (· < ·))]
    cases i.environment <;> simp [environmentEntry] <;> decide
  · cases i.environment <;> simp [environmentEntry, PayloadValue.ordered]

/-- `environment in value`, and then the value. -/
def environmentOf (m : List (Str × PayloadValue)) : Option (Option Str) :=
  match Assoc.get m (str "environment") with
  | none => some none
  | some v => v.asStr.map some

/-- The keyword arguments of the constructor; `none` where a key or a type is wrong. -/
def fieldsOf : PayloadValue → Option RotationBinding
  | .map m => do
    let environment ← environmentOf m
    let keys := (environmentEntry environment).map Prod.fst
    if m.map Prod.fst ≠ str "envelope_hash" :: (keys ++ [str "owner_name", str "predecessor_owner_public_key",
        str "predecessor_state_hash", str "sequence", str "successor_owner_public_key"]) then none
    let envelopeHash ← (Assoc.get m (str "envelope_hash")).bind PayloadValue.asBytes
    let ownerName ← (Assoc.get m (str "owner_name")).bind PayloadValue.asBytes
    let predecessorOwnerPublicKey ← (Assoc.get m (str "predecessor_owner_public_key")).bind PayloadValue.asBytes
    let predecessorStateHash ← (Assoc.get m (str "predecessor_state_hash")).bind PayloadValue.asBytes
    let sequence ← (Assoc.get m (str "sequence")).bind PayloadValue.asInt
    let successorOwnerPublicKey ← (Assoc.get m (str "successor_owner_public_key")).bind PayloadValue.asBytes
    -- a negative sequence becomes 0, which the constructor refuses as well
    return { environment, ownerName, predecessorOwnerPublicKey, successorOwnerPublicKey, predecessorStateHash,
             sequence := sequence.toNat, envelopeHash }
  | _ => none

/-- The constructor, with `__post_init__`. -/
def make (b : RotationBinding) : Except Raised RotationDispatchIntent :=
  if h : b.IntentOk then .ok ⟨b, h⟩ else .error invalidContainer

def fromPayload (v : PayloadValue) : Except Raised RotationDispatchIntent := do
  make (← orRaise invalidContainer (fieldsOf v))

end RotationDispatchIntent

end DecentWallet
