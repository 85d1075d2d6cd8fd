import DecentWallet.Sanity.Canonical
import DecentWallet.Spec.Transport

/-! A codec that does what `CanonicalCbor` says, and the history of the repository's test vector
`identity-owner-key-rotation-legacy.json`, with an ordinary update on top of it that two of its signers sign, and the
values SHA-256 and Ed25519 have on it. -/

namespace DecentWallet

open Cbor IdentityError Opened

/-- `Cbor.loads`, and an encoder for the items that have a canonical form. -/
def referencePlatform (sha256 : Bytes → Bytes) (verify : Bytes → Bytes → Bytes → Bool) : Platform where
  sha256 := sha256
  verify := verify
  loads := Cbor.loads
  dumps := fun v => if plain v && canonical v then some (encode v) else none

section

variable (sha256 : Bytes → Bytes) (verify : Bytes → Bytes → Bytes → Bool)

theorem requireCanonical_reference {b : Bytes} {v : Value} :
    requireCanonical (referencePlatform sha256 verify) b = .ok v ↔ plain v = true ∧ canonical v = true ∧
    b = encode v := by
  simp only [requireCanonical, referencePlatform, bind_eq_ok, reject_eq_ok, orRaise_eq_ok, pure_eq_ok, not_not]
  constructor
  · rintro ⟨-, -, d, -, b', hb, -, rfl, rfl⟩
    split_ifs at hb with h
    simp only [Bool.and_eq_true] at h
    exact ⟨h.1, h.2, (Option.some.inj hb).symm⟩
  · rintro ⟨hp, hc, rfl⟩
    exact ⟨(), encode_ne_nil v, v, loads_encode hc hp, encode v, by simp [hp, hc], (), rfl, rfl⟩

theorem referencePlatform_canonicalCbor : CanonicalCbor (referencePlatform sha256 verify) where
  dumps v hp hc _ := by simp [referencePlatform, hp, hc]
  accepts b v hp _ := by rw [requireCanonical_reference, hp, eq_self, true_and]
  dicts b v h := (sorted_of_canonical ((requireCanonical_reference sha256 verify).1 h).2.1).2

theorem referencePlatform_codec : CborCodec (referencePlatform sha256 verify) where
  reads v b hp hdumps := by
    simp only [referencePlatform] at hdumps
    split_ifs at hdumps with h
    simp only [Bool.and_eq_true] at h
    rw [(sorted_of_canonical h.2).1]
    exact (requireCanonical_reference sha256 verify).2 ⟨hp, h.2, (Option.some.inj hdumps).symm⟩
  writes v hp hc _ := ⟨encode v, by simp [referencePlatform, hp, hc]⟩
  dicts := (referencePlatform_canonicalCbor sha256 verify).dicts

end

namespace Vector

def ownerName : Bytes :=
  [0x77, 0x61, 0x6c, 0x6c, 0x65, 0x74, 0x2d, 0x6f, 0x77, 0x6e, 0x65, 0x72, 0x2d, 0x63, 0x61, 0x66,
   0x65, 0xcc, 0x81]

def legacyKey : Bytes :=
  [0x03, 0xa1, 0x07, 0xbf, 0xf3, 0xce, 0x10, 0xbe, 0x1d, 0x70, 0xdd, 0x18, 0xe7, 0x4b, 0xc0, 0x99,
   0x67, 0xe4, 0xd6, 0x30, 0x9b, 0xa5, 0x0d, 0x5f, 0x1d, 0xdc, 0x86, 0x64, 0x12, 0x55, 0x31, 0xb8]

def successorKey : Bytes :=
  [0x29, 0xac, 0xba, 0xe1, 0x41, 0xbc, 0xca, 0xf0, 0xb2, 0x2e, 0x1a, 0x94, 0xd3, 0x4d, 0x0b, 0xc7,
   0x36, 0x1e, 0x52, 0x6d, 0x0b, 0xfe, 0x12, 0xc8, 0x97, 0x94, 0xbc, 0x93, 0x22, 0x96, 0x6d, 0xd7]

def bobKey : Bytes :=
  [0x25, 0x43, 0xb9, 0x2f, 0xf1, 0x09, 0x55, 0x11, 0x47, 0x6a, 0xdc, 0x83, 0x69, 0xdb, 0x6d, 0xdc,
   0x93, 0x36, 0x65, 0xa1, 0x19, 0x78, 0xdd, 0xa1, 0x40, 0x4e, 0xe1, 0x06, 0x6c, 0xa9, 0x55, 0x9d]

def carolKey : Bytes :=
  [0x17, 0x45, 0x53, 0xb4, 0x56, 0xdd, 0xdf, 0xc6, 0x90, 0x8e, 0xca, 0xb1, 0xc1, 0x01, 0xfe, 0x6a,
   0xb2, 0x1e, 0x2b, 0xaa, 0x06, 0x17, 0x79, 0x5b, 0x7d, 0x43, 0xa6, 0x34, 0x82, 0x99, 0x3f, 0xd5]

def legacySignature : Bytes :=
  [0x11, 0x52, 0x39, 0xfa, 0xfd, 0x99, 0x4d, 0x30, 0x24, 0x81, 0x18, 0x22, 0x33, 0x7a, 0xc2, 0x32,
   0x24, 0xe6, 0xad, 0x94, 0x46, 0xee, 0x55, 0xd5, 0xfe, 0xd1, 0xf3, 0xd9, 0xf1, 0x67, 0xce, 0xac,
   0xbe, 0x94, 0xf7, 0xf1, 0xde, 0x62, 0x96, 0x0d, 0x11, 0xb0, 0x95, 0xb1, 0x9a, 0x4e, 0x2a, 0xb1,
   0xed, 0x27, 0x21, 0x6b, 0xbc, 0x95, 0xd4, 0x65, 0x20, 0x51, 0x29, 0x1b, 0xbf, 0x8d, 0xd9, 0x0f]

def legacyHash : Bytes :=
  [0x84, 0xb0, 0x83, 0x23, 0x96, 0x1b, 0xfe, 0xa0, 0x6d, 0x1a, 0x86, 0x00, 0x92, 0x79, 0xda, 0x99,
   0xad, 0x33, 0x8a, 0x0c, 0x2d, 0xa2, 0xd3, 0x68, 0x8d, 0x3e, 0x35, 0xfc, 0x3e, 0x45, 0x67, 0x8b]

def rotationSignature : Bytes :=
  [0x6f, 0xf7, 0xe0, 0xc9, 0x67, 0x2a, 0xb7, 0x62, 0x90, 0x03, 0xc7, 0x0e, 0xfc, 0x11, 0x03, 0x69,
   0x40, 0xa9, 0xc9, 0x5a, 0x8e, 0x37, 0xb6, 0x22, 0x55, 0xef, 0xb6, 0xf8, 0xdf, 0xd9, 0x0b, 0xf1,
   0x92, 0xe9, 0xca, 0x37, 0xf7, 0xfd, 0x6d, 0x53, 0x6c, 0x5d, 0x9f, 0xa7, 0x30, 0xa7, 0xfc, 0x0c,
   0xf6, 0x45, 0xaa, 0xda, 0x88, 0x9d, 0xa0, 0x1c, 0x23, 0xd5, 0x38, 0xab, 0x7b, 0xd7, 0x5e, 0x06]

/-- The successor's signature of the rotation, by which it shows that it holds its key. -/
def possessionSignature : Bytes :=
  [0x59, 0xba, 0x83, 0x48, 0xc3, 0x48, 0x83, 0x4f, 0xaf, 0x50, 0x36, 0x8f, 0x0f, 0x8d, 0xf0, 0x6b,
   0xf3, 0x01, 0x16, 0x61, 0x56, 0x96, 0x44, 0x51, 0x73, 0xbf, 0x42, 0x1a, 0x85, 0x01, 0xc5, 0xae,
   0x4a, 0x3d, 0xc2, 0x7a, 0x42, 0x58, 0x33, 0xc9, 0xac, 0xa8, 0x96, 0x69, 0x7f, 0x6c, 0x3b, 0xe5,
   0x6f, 0xae, 0x20, 0x06, 0xb1, 0x29, 0xd4, 0xbe, 0xd1, 0x60, 0xeb, 0xf3, 0xdd, 0xd1, 0x8e, 0x02]

def rotationHash : Bytes :=
  [0x76, 0x37, 0x13, 0xf7, 0xf8, 0xbe, 0x5a, 0x71, 0xd5, 0x6a, 0xbd, 0x6f, 0xd7, 0x38, 0xc8, 0x39,
   0xcb, 0xc1, 0xf1, 0x4f, 0xda, 0x71, 0xf7, 0x84, 0xff, 0x08, 0xdc, 0x5c, 0xcd, 0x47, 0x4e, 0x5d]

/-- SHA-256 of the whole rotation envelope. -/
def envelopeHash : Bytes :=
  [0x51, 0x00, 0xce, 0xa7, 0x70, 0xf4, 0x4e, 0xf9, 0x4f, 0xba, 0xd3, 0x11, 0xba, 0x3c, 0x45, 0xd4,
   0xb7, 0x45, 0x41, 0xda, 0x66, 0xfb, 0xe4, 0xd2, 0x5b, 0x8b, 0xb2, 0x6d, 0x69, 0xa1, 0x3f, 0x4a]

def ordinaryHash : Bytes :=
  [0xfc, 0x0c, 0x1e, 0x1e, 0xfd, 0x1b, 0xa1, 0x84, 0x05, 0x17, 0xe0, 0x9b, 0xb3, 0x6b, 0xa5, 0xbb,
   0x58, 0x98, 0x50, 0x47, 0xd3, 0x6f, 0x4b, 0xff, 0x2a, 0x8a, 0xa7, 0x30, 0x0a, 0x21, 0x58, 0x94]

def bobSignature : Bytes :=
  [0xc6, 0x33, 0x26, 0x85, 0x1c, 0x0a, 0x8a, 0x5e, 0xa7, 0xba, 0xe9, 0x0f, 0x19, 0x46, 0x57, 0x91,
   0x3a, 0x94, 0xfc, 0x2c, 0xab, 0xc4, 0x73, 0xb8, 0xd9, 0x23, 0xd1, 0xbd, 0x31, 0x50, 0x8b, 0x29,
   0xd1, 0xb1, 0xde, 0x70, 0xc9, 0xc7, 0xa0, 0xc8, 0xbd, 0x16, 0x85, 0xc8, 0x51, 0x5f, 0xdf, 0x3b,
   0x24, 0x60, 0x89, 0x06, 0xb8, 0x01, 0x15, 0x5e, 0x1d, 0x5b, 0xba, 0x17, 0xce, 0x14, 0xa0, 0x0b]

def carolSignature : Bytes :=
  [0x19, 0xb4, 0x69, 0xe9, 0x35, 0x95, 0xea, 0xd7, 0xf6, 0xea, 0xca, 0xa4, 0x82, 0xef, 0xf1, 0x5f,
   0x47, 0x03, 0x1a, 0xaf, 0xb4, 0xb4, 0xde, 0xf6, 0xaa, 0xae, 0x70, 0x37, 0x16, 0xd3, 0xc0, 0x5d,
   0x04, 0x90, 0x13, 0xd1, 0x5e, 0x06, 0xab, 0xb2, 0xcd, 0x9b, 0x65, 0x70, 0xd3, 0xdd, 0x52, 0x8d,
   0x1c, 0xaa, 0xfc, 0x17, 0x86, 0x57, 0x2d, 0x4d, 0xc1, 0xb7, 0x87, 0x44, 0x16, 0x63, 0x36, 0x0d]

/-- SHA-256 of the envelope with both signatures. -/
def ordinaryEnvelopeHash : Bytes :=
  [0xab, 0x92, 0xa0, 0x4b, 0x31, 0xeb, 0x46, 0x10, 0x1d, 0xec, 0xdd, 0xdb, 0xfd, 0x70, 0xdd, 0x91,
   0x20, 0x84, 0xce, 0x70, 0x6a, 0xd8, 0x39, 0xd2, 0xc7, 0x98, 0x51, 0x85, 0xd2, 0x52, 0xfd, 0xac]

/-- SHA-256 of the replay tuple below. -/
def replayKey : Bytes :=
  [0x15, 0x69, 0x5b, 0x67, 0x39, 0x06, 0x67, 0xce, 0xf6, 0x02, 0x3a, 0xe8, 0x59, 0xb8, 0x85, 0x4e,
   0x47, 0x49, 0x63, 0xa6, 0x83, 0x6f, 0xae, 0x68, 0x76, 0x6a, 0x17, 0xf4, 0x41, 0x2c, 0xf3, 0x8a]

/-- The signers "alice-next", "bob" and "carol". -/
def signers : SignerSet :=
  [([97, 108, 105, 99, 101, 45, 110, 101, 120, 116], successorKey),
   ([98, 111, 98], bobKey),
   ([99, 97, 114, 111, 108], carolKey)]

def authorization : Authorization where
  operation := 5
  generation := 1
  threshold := 2
  signers := signers
  predecessor := legacyHash

/-- An ordinary update after the rotation. -/
def ordinaryAuthorization : Authorization := { authorization with operation := 2, predecessor := rotationHash }

def legacyUpdate : Bytes := encode (updateValue ownerName legacyKey 7 none)

def rotationUpdate : Bytes := encode (updateValue ownerName successorKey 8 (some authorization))

def ordinaryUpdate : Bytes := encode (updateValue ownerName successorKey 9 (some ordinaryAuthorization))

def legacy : Opened := ⟨legacyUpdate, ownerName, legacyKey, 7, none, [(none, legacySignature)]⟩

def rotation : Opened :=
  ⟨rotationUpdate, ownerName, successorKey, 8, some authorization, [(none, rotationSignature)]⟩

def ordinary : Opened :=
  ⟨ordinaryUpdate, ownerName, successorKey, 9, some ordinaryAuthorization,
    [(some [98, 111, 98], bobSignature), (some [99, 97, 114, 111, 108], carolSignature)]⟩

def legacyEnvelope : Bytes := encode legacy.envelopeItem

def rotationEnvelope : Bytes := encode rotation.envelopeItem

def ordinaryEnvelope : Bytes := encode ordinary.envelopeItem

/-- "https://wallet.example". -/
def origin : Str := [104, 116, 116, 112, 115, 58, 47, 47, 119, 97, 108, 108, 101, 116, 46, 101, 120, 97, 109, 112, 108,
  101]

/-- "testnet". -/
def environment : Str := [116, 101, 115, 116, 110, 101, 116]

def replayNonce : Bytes := (List.range 32).map UInt8.ofNat

def replayTuple : Bytes := encode (dict [.bytes ownerName, .text origin, .text environment, .bytes replayNonce])

/-- SHA-256 on the strings this history hashes. -/
def sha256 (b : Bytes) : Bytes :=
  if b = legacyUpdate then legacyHash
  else if b = rotationUpdate then rotationHash
  else if b = rotationEnvelope then envelopeHash
  else if b = ordinaryUpdate then ordinaryHash
  else if b = ordinaryEnvelope then ordinaryEnvelopeHash
  else if b = replayTuple then replayKey
  else []

/-- Ed25519 on the signatures of this history. -/
def verify (key digest signature : Bytes) : Bool :=
  (key == legacyKey && digest == legacyHash && signature == legacySignature) ||
    (key == legacyKey && digest == rotationHash && signature == rotationSignature) ||
    (key == successorKey && digest == rotationHash && signature == possessionSignature) ||
    (key == bobKey && digest == ordinaryHash && signature == bobSignature) ||
    (key == carolKey && digest == ordinaryHash && signature == carolSignature)

def platform : Platform := referencePlatform sha256 verify

/-- A registry that has accepted the rotation and keeps the legacy envelope. -/
def transport : Transport Unit where
  getIdentityEnvelope := fun n st => (some (if n = ownerName then .bytes rotationEnvelope else .nothing), st)
  getIdentityEnvelopeByHash := fun n h st =>
    (some (if n = ownerName ∧ h = legacyHash then .bytes legacyEnvelope else .nothing), st)
  getRemoteIdentityEnvelope := fun n st =>
    (some (if n = ownerName then .bytes rotationEnvelope else .nothing), st)
  putIdentityEnvelope := fun _ _ _ _ st => (.stale, st)
  registryEnvironment := fun st => (.absent, st)
  rotationAvailable := fun st => (true, st)
  time := fun st => (0, st)

def adapter : Adapter Unit := ⟨0, transport, some environment, fun _ st => (some true, st)⟩

def world : World Unit := ⟨(), [], [], fun _ _ => none, [], 0⟩

/-- The state the history arrives at. -/
def state : IdentityState :=
  rotation.state platform rotationEnvelope (some (legacy.state platform legacyEnvelope none))

end Vector

end DecentWallet
