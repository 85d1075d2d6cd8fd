import DecentWallet.Lib.CborDict
import DecentWallet.Spec.Envelope

/-! What an Identity history is, whichever client walks it: an envelope says who owns a name and who
may change that, and the rules say which envelope may follow which public state. -/

namespace DecentWallet

open Cbor

/-- What one envelope says. A legacy envelope has no authorization and one proof, by its own key. -/
structure Opened where
  update : Bytes
  ownerName : Bytes
  ownerKey : Bytes
  sequence : ℕ
  auth : Option Authorization
  proofs : List ProofEntry
  deriving DecidableEq, Repr

/-- The public state an envelope leaves behind, as far as its successor looks at it. -/
structure Head where
  ownerKey : Bytes
  sequence : ℕ
  stateHash : Bytes
  generation : Option ℕ
  threshold : Option ℕ
  signers : SignerSet
  deriving DecidableEq, Repr

structure Primitives where
  sha256 : Bytes → Bytes
  verify : Bytes → Bytes → Bytes → Bool

def Platform.primitives (P : Platform) : Primitives := ⟨P.sha256, P.verify⟩

namespace Opened

variable (C : Primitives)

def head (o : Opened) : Head where
  ownerKey := o.ownerKey
  sequence := o.sequence
  stateHash := C.sha256 o.update
  generation := o.auth.map Authorization.generation
  threshold := o.auth.map Authorization.threshold
  signers := (o.auth.map Authorization.signers).getD []

def SignedBy (o : Opened) (key signature : Bytes) : Prop := C.verify key (C.sha256 o.update) signature = true

def Quorum (o : Opened) (signers : SignerSet) (n : ℕ) : Prop :=
  n ≤ o.proofs.length ∧
    ∀ p ∈ o.proofs, ∃ i k, p.1 = some i ∧ (i, k) ∈ signers ∧ o.SignedBy C k p.2

def Follows (o : Opened) (a : Authorization) (h : Head) : Prop :=
  h.stateHash = a.predecessor ∧ o.sequence = h.sequence + 1

def KeepsGovernance (a : Authorization) (h : Head) : Prop :=
  some a.generation = h.generation ∧ some a.threshold = h.threshold ∧ a.signers = h.signers

def FreshGovernance (a : Authorization) : Prop := a.generation = 1 ∧ a.threshold = 2 ∧ a.signers.length = 3

end Opened

open Opened

variable (C : Primitives)

/-- Which envelopes may stand on which state; `none` is the state before the first one. -/
inductive Admits : Option Head → Opened → Prop
  | legacy {prev o signature} (hauth : o.auth = none) (hproofs : o.proofs = [(none, signature)])
      (hsig : o.SignedBy C o.ownerKey signature) : Admits prev o
  | genesis {o a} (hauth : o.auth = some a) (hop : a.operation = 1) (hseq : o.sequence = 1)
      (hpred : a.predecessor = zeroHash) (hgov : FreshGovernance a) (hq : o.Quorum C a.signers 2) :
      Admits none o
  | ordinary {h o a} (hauth : o.auth = some a) (hop : a.operation = 2) (hf : o.Follows a h)
      (hv1 : h.signers ≠ []) (hkey : o.ownerKey = h.ownerKey) (hgov : KeepsGovernance a h)
      (hq : o.Quorum C h.signers a.threshold) : Admits (some h) o
  | replaceSigners {h o a} (hauth : o.auth = some a) (hop : a.operation = 3) (hf : o.Follows a h)
      (hv1 : h.signers ≠ []) (hkey : o.ownerKey = h.ownerKey) (hgen : h.generation.getD 0 < a.generation)
      (hthr : a.threshold = 2) (hlen : a.signers.length = 3) (hne : a.signers ≠ h.signers)
      (hq : o.Quorum C h.signers 2) : Admits (some h) o
  | upgrade {h o a i signature} (hauth : o.auth = some a) (hop : a.operation = 4) (hf : o.Follows a h)
      (hlegacy : h.signers = []) (hkey : o.ownerKey = h.ownerKey) (hgov : FreshGovernance a)
      (hproofs : o.proofs = [(some i, signature)]) (hsigner : (i, o.ownerKey) ∈ a.signers)
      (hsig : o.SignedBy C o.ownerKey signature) : Admits (some h) o
  | rotate {h o a} (hauth : o.auth = some a) (hop : a.operation = 5) (hf : o.Follows a h)
      (hv1 : h.signers ≠ []) (hkey : o.ownerKey ≠ h.ownerKey) (hgov : KeepsGovernance a h)
      (hq : o.Quorum C h.signers a.threshold) : Admits (some h) o
  | rotateLegacy {h o a signature} (hauth : o.auth = some a) (hop : a.operation = 5) (hf : o.Follows a h)
      (hlegacy : h.signers = []) (hkey : o.ownerKey ≠ h.ownerKey) (hgov : FreshGovernance a)
      (hin : o.ownerKey ∈ a.signers.map Prod.snd) (hproofs : o.proofs = [(none, signature)])
      (hsig : o.SignedBy C h.ownerKey signature) : Admits (some h) o

/-- The envelopes of a history, newest first, each admitted on the state its predecessor leaves. -/
inductive Verified : List Opened → Prop
  | anchor {o} (h : Admits C none o) : Verified [o]
  | link {o p os} (h : Admits C (some (p.head C)) o) (hlink : o.auth ≠ none) (ht : Verified (p :: os)) :
      Verified (o :: p :: os)

/-! ### Well-formed contents -/

def ValidId (s : Str) : Prop := s ≠ [] ∧ s.all isScalar = true

instance (s : Str) : Decidable (ValidId s) := inferInstanceAs (Decidable (_ ∧ _))

structure Authorization.WellFormed (a : Authorization) : Prop where
  operation : a.operation ∈ [1, 2, 3, 4, 5]
  ids : ∀ e ∈ a.signers, ValidId e.1 ∧ (utf8Raw e.1).length ≤ 256 ∧ e.2.length = keyLength
  idsNodup : (a.signers.map Prod.fst).Nodup
  keysNodup : (a.signers.map Prod.snd).Nodup
  ordered : a.signers.Pairwise fun x y => bytesLt (utf8Raw x.1) (utf8Raw y.1) = true
  predecessor : a.predecessor.length = keyLength

structure Opened.WellFormed (o : Opened) : Prop where
  ownerKey : o.ownerKey.length = keyLength
  auth : ∀ a ∈ o.auth, a.WellFormed
  proofs : ∀ p ∈ o.proofs, p.2.length = signatureLength ∧ ∀ i ∈ p.1, ValidId i
  ordered : o.proofs.Pairwise fun x y => bytesLt (proofKey x) (proofKey y) = true

def Opened.ThresholdInRange (o : Opened) : Prop :=
  ∀ a ∈ o.auth, 1 ≤ a.threshold ∧ a.threshold ≤ a.signers.length

/-! ### The canonical form of an envelope -/

def signerValue (e : Str × Bytes) : Value := dict [.text e.1, .bytes e.2]

def signerIdValue : Option Str → Value
  | none => .null
  | some i => .text i

def proofValue (p : ProofEntry) : Value := dict [signerIdValue p.1, .bytes p.2]

def authorizationValue (a : Authorization) : Value :=
  dict [.int 1, .int 1, .int a.operation, .int a.generation, .int a.threshold,
    .array (a.signers.map signerValue), .bytes a.predecessor]

def updateValue (name key : Bytes) (sequence : ℕ) (auth : Option Authorization) : Value :=
  dict ([dict [.bytes name, .bytes key], dict [], .int sequence] ++ auth.toList.map authorizationValue)

namespace Opened

def updateItem (o : Opened) : Value := updateValue o.ownerName o.ownerKey o.sequence o.auth

def envelopeItem (o : Opened) : Value :=
  match o.auth, o.proofs with
  | none, ps => dict [.bytes o.update, .bytes (ps.map Prod.snd).flatten]
  | some _, ps => dict [.int 1, .bytes o.update, .array (ps.map proofValue)]

/-- `envelope` is the canonical form of what `o` says. -/
structure Sealed (o : Opened) (envelope : Bytes) : Prop where
  wellFormed : o.WellFormed
  legacy : o.auth = none → ∃ signature, o.proofs = [(none, signature)]
  updateCanonical : canonical o.updateItem = true
  envelopeCanonical : canonical o.envelopeItem = true
  update : o.update = encode o.updateItem
  envelope : envelope = encode o.envelopeItem

end Opened

/-! ### The codec -/

/-- Nested no deeper than any value that is written here. -/
def Shallow (v : Value) : Prop := depth v ≤ 8

/-- What `cbor2` is documented to do with integers, byte strings, text, arrays, maps and null: the canonical encoder
writes their canonical form, and decoding followed by encoding accepts exactly those. A decoded map is a dictionary,
which holds no key twice. -/
structure CanonicalCbor (P : Platform) : Prop where
  dumps : ∀ v, plain v = true → canonical v = true → Shallow v → P.dumps v = some (encode v)
  accepts : ∀ b v, plain v = true → Shallow v → (requireCanonical P b = .ok v ↔ canonical v = true ∧ b = encode v)
  dicts : ∀ b v, requireCanonical P b = .ok v → Distinct v

/-- What `cbor2` writes canonically it reads back, with the keys of maps in order. -/
def CborRoundTrip (P : Platform) : Prop :=
  ∀ v b, plain v = true → P.dumps v = some b → requireCanonical P b = .ok (sortKeys v)

/-- Canonical encoding round-trips, it writes every value that has a canonical form, and what is decoded are
dictionaries. -/
structure CborCodec (P : Platform) : Prop where
  reads : CborRoundTrip P
  writes : ∀ v, plain v = true → canonical v = true → Shallow v → ∃ b, P.dumps v = some b
  dicts : ∀ b v, requireCanonical P b = .ok v → Distinct v

/-! ### Opening an envelope -/

/-- The bytes `envelope` decode, level by level, to what `o` says. -/
inductive Opens (P : Platform) (envelope : Bytes) : Opened → Prop
  | legacy {m update signature u name key} (houter : requireCanonical P envelope = .ok (.map m))
      (hints : m.any (fun p => !isInt p.1) = false) (hkeys : keySet m [1, 2])
      (hupdate : pyGet m 1 = some (.bytes update)) (hsig : pyGet m 2 = some (.bytes signature))
      (hslen : signature.length = signatureLength) (hu : decodeSignedUpdate P update = .ok u)
      (hauth : u.authorization = none) (hname : pyGet u.record 1 = some (.bytes name))
      (hkey : pyGet u.record 2 = some (.bytes key)) (hklen : key.length = keyLength) :
      Opens P envelope ⟨update, name, key, u.sequence, none, [(none, signature)]⟩
  | versionOne {m update u a name key v proofs} (houter : requireCanonical P envelope = .ok (.map m))
      (hints : m.any (fun p => !isInt p.1) = false) (hkeys : keySet m [1, 2, 3])
      (hversion : pyGet m 1 = some (.int 1)) (hupdate : pyGet m 2 = some (.bytes update))
      (hu : decodeSignedUpdate P update = .ok u) (hauth : u.authorization = some a)
      (hname : pyGet u.record 1 = some (.bytes name)) (hkey : pyGet u.record 2 = some (.bytes key))
      (hklen : key.length = keyLength) (hv : pyGet m 3 = some v) (hproofs : validateProofList v = .ok proofs) :
      Opens P envelope ⟨update, name, key, u.sequence, some a, proofs⟩

def IdentityState.head (s : IdentityState) : Head where
  ownerKey := s.ownerPublicKey
  sequence := s.sequence
  stateHash := s.stateHash
  generation := s.generation
  threshold := s.threshold
  signers := s.signerSet

def Opened.state (P : Platform) (envelope : Bytes) (o : Opened) (previous : Option IdentityState) :
    IdentityState where
  ownerName := o.ownerName
  ownerPublicKey := o.ownerKey
  sequence := o.sequence
  signedUpdateBytes := o.update
  envelopeBytes := envelope
  stateHash := P.sha256 o.update
  generation := o.auth.map Authorization.generation
  threshold := o.auth.map Authorization.threshold
  signerSet := (o.auth.map Authorization.signers).getD []
  predecessorEnvelopes := match o.auth, previous with
    | some _, some p => p.envelopeBytes :: p.predecessorEnvelopes
    | _, _ => []

def chainState (P : Platform) : List (Bytes × Opened) → Option IdentityState
  | [] => none
  | x :: c => some (x.2.state P x.1 (chainState P c))

/-- `c` is the verified history, newest first, behind the state `s` of `ownerName`. -/
structure HistoryOf (P : Platform) (ownerName : Bytes) (c : List (Bytes × Opened)) (s : IdentityState) :
    Prop where
  opens : ∀ x ∈ c, Opens P x.1 x.2 ∧ x.2.ownerName = ownerName
  verified : Verified P.primitives (c.map Prod.snd)
  state : chainState P c = some s

end DecentWallet
