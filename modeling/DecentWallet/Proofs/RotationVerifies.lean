import DecentWallet.Sanity.KotlinRotation

/-! A rotation that the Android client drafts from a state it resolved, and finalizes, resolves. -/

namespace DecentWallet.Kotlin

open Cbor WalletError Opened

section

variable {C : Primitives} {n : Bytes} {W : Type}

/-- The update has the hash of no other update among the envelopes. -/
def UniqueHash (C : Primitives) (n update : Bytes) (es : List Bytes) : Prop :=
  ∀ e ∈ es, ∀ p, parseEnvelope C n e = .ok p → p.stateHash = C.sha256 update → p.updateBytes = update

/-- The lookup answers with each of the envelopes, by its hash. -/
def ServesAll (C : Primitives) (n : Bytes) (lookup : Bytes → Prog W WalletError (Option Bytes)) (es : List Bytes) :
    Prop :=
  ∀ e ∈ es, ∀ p, parseEnvelope C n e = .ok p → Serves lookup p.stateHash e

theorem ownerName_ne_nil {lookup : Bytes → Prog W WalletError (Option Bytes)} {e : Bytes} {w w' : W}
    {r : VerifiedIdentityState} (h : resolve C lookup n e w = (.ok r, w')) : n ≠ [] := by
  obtain ⟨_, _, hreject, -⟩ := Prog.bind_ok_iff.1 h
  exact (Prog.reject_ok_iff.1 hreject).1

/-- In a verified history each envelope names the hash of the one before it. -/
theorem linked_of_verified {R : Bytes → Bytes → Prop} {c : List (Bytes × Opened)} (hver : Verified C (c.map Prod.snd))
    (hR : ∀ y ∈ c.tail, R (C.sha256 y.2.update) y.1) : c.IsChain (Linked R) := by
  induction c with
  | nil => simp
  | cons x c ih =>
    cases c with
    | nil => simp
    | cons y c =>
      cases hver with
      | link hadm hauth ht =>
        obtain ⟨a, ha, hop, hfollows⟩ := hadm.of_some hauth
        have hlink : a.operation ≠ 1 := fun hone => by simp [hone] at hop
        refine List.isChain_cons_cons.2 ⟨⟨a, ha, hlink, ?_⟩, ih ht fun z hz => hR z (List.mem_cons_of_mem _ hz)⟩
        rw [← hfollows.1]
        exact hR y (by simp)

/-- The update of an envelope on top of a history is none of the history. -/
theorem fresh_update {x : Bytes × Opened} {c : List (Bytes × Opened)} (hx : Fits C n x.1 x.2)
    (hfit : ∀ y ∈ c, Fits C n y.1 y.2) (hver : Verified C ((x :: c).map Prod.snd))
    (hcoll : UniqueHash C n x.2.update (c.map Prod.fst)) :
    C.sha256 x.2.update ∉ c.map fun y => C.sha256 y.2.update := by
  intro hmem
  obtain ⟨y, hy, hhash⟩ := List.mem_map.1 hmem
  have hupdate := hcoll y.1 (List.mem_map_of_mem hy) _ (parseEnvelope_ok.2 ⟨y.2, hfit y hy, rfl⟩) hhash
  have hseq := ((hfit y hy).sealed.update_unique hx.sealed hupdate).2.2.1
  have hlt := (List.pairwise_cons.1 (verified_sequence hver)).1 y.2 (List.mem_map_of_mem hy)
  omega

namespace VersionedOwnerKeyRotationDraft

variable {d : VersionedOwnerKeyRotationDraft} {state : VerifiedIdentityState} {a : Authorization}
  {proofs : List OwnerKeyRotationProof}

theorem canonical_entry (p : OwnerKeyRotationProof) : canonical (proofValue p.entry) = true := by
  obtain ⟨⟨-, hscalar⟩, hlen⟩ := p.validId
  have hsig : p.signature.length = 64 := p.signatureOk
  rw [proofValue, canonical_dict (by simp)]
  simp only [OwnerKeyRotationProof.entry, signerIdValue, canonicalList, canonical, hscalar, hsig, Bool.true_and,
    Bool.and_true, Bool.and_eq_true, decide_eq_true_eq]
  omega

/-- Up to the size, an envelope with few enough proofs can be written. -/
theorem Rotates.encodes (hd : d.Rotates state a) (hlen : proofs.length ≤ 3)
    (hsize : (encode (d.envelopeItem proofs)).length ≤ maxEncodedBytes) :
    encodeCanonical (d.envelopeItem proofs) = .ok (encode (d.envelopeItem proofs)) := by
  obtain ⟨-, -, hupdate⟩ := encodeCanonical_sorted (tidy_updateValue _ _ _ _).sorted hd.update
  have hupdate : d.signedUpdateBytes.length < 2 ^ 64 := hupdate.trans_lt (by decide)
  rw [envelopeItem_eq d a] at hsize ⊢
  refine encodeCanonical_encode ?_ (small_envelopeItem (by rw [opened_length]; exact hlen)) hsize
  have hproofs : canonicalList ((d.opened a proofs).proofs.map proofValue) = true := by
    refine canonicalList_iff.2 fun v hv => ?_
    obtain ⟨p, hp, rfl⟩ := List.mem_map.1 hv
    obtain ⟨q, -, rfl⟩ := of_mem_opened hp
    exact canonical_entry q
  have hcount : (d.opened a proofs).proofs.length < 2 ^ 64 := by rw [opened_length]; omega
  rw [Opened.envelopeItem, opened, canonical_dict (by simp)]
  refine canonicalList_iff.2 fun v hv => ?_
  simp only [List.mem_cons, List.not_mem_nil, or_false] at hv
  rcases hv with rfl | rfl | rfl
  · exact canonical_small (k := 1) (by decide)
  · exact decide_eq_true hupdate
  · simp only [canonical, Bool.and_eq_true, decide_eq_true_eq]
    exact ⟨by rw [List.length_map]; exact hcount, hproofs⟩

/-- Finalizing accepts what is proven, up to the size of the envelope. -/
theorem Rotates.finalizes (hd : d.Rotates state a) (hg : d.Governed)
    (hsize : (encode (d.envelopeItem proofs)).length ≤ maxEncodedBytes) :
    (∃ r, d.finalizeWithProofs C proofs = .ok r) ↔ d.Proven C proofs := by
  refine ⟨fun h => ?_, fun h => ?_⟩
  · obtain ⟨r, hr⟩ := h
    exact ((finalizeWithProofs_ok hg).1 hr).1
  · exact ⟨_, (finalizeWithProofs_ok hg).2 ⟨h, _, hd.encodes (h.length_le.trans hg.few) hsize, rfl⟩⟩

end VersionedOwnerKeyRotationDraft

end

/-- A rotation that is finalized resolves to the successor's state wherever its history is served, it is finalized
exactly where enough of the state's signers have signed it, and the order of their proofs does not matter. -/
theorem finalized_rotations_verify (C : Primitives) (hsha : ∀ b, (C.sha256 b).length = 32)
    (sign : Bytes → Bytes → Option Bytes) {W V : Type} (lookup : Bytes → Prog W WalletError (Option Bytes))
    (lookup' : Bytes → Prog V WalletError (Option Bytes)) (ownerName envelope : Bytes) (w w' : W) (v : V)
    (state : VerifiedIdentityState) (hresolve : resolve C lookup ownerName envelope w = (.ok state, w'))
    (hdepth : state.predecessorEnvelopes.length ≤ 1023) (ownerName' active seed key : Bytes)
    (d : VersionedOwnerKeyRotationDraft)
    (hdraft : VersionedOwnerKeyRotation.createDraft C sign ownerName' state active seed key = .ok d) :
    (∀ proofs r, d.finalizeWithProofs C proofs = .ok r →
      (r.envelopeBytes.length + state.envelopeBytes.length + (state.predecessorEnvelopes.map List.length).sum ≤
        4 * 1024 * 1024) →
      ServesAll C ownerName lookup' (state.envelopeBytes :: state.predecessorEnvelopes) →
      UniqueHash C ownerName d.signedUpdateBytes (state.envelopeBytes :: state.predecessorEnvelopes) →
      ∃ s v', resolve C lookup' ownerName r.envelopeBytes v = (.ok s, v') ∧
        s.ownerPublicKey = d.successorOwnerPublicKey ∧ s.sequence = d.sequence ∧
        s.predecessorStateHash = some d.predecessorStateHash) ∧
    (∀ proofs, (encode (d.envelopeItem proofs)).length ≤ 1024 * 1024 →
      ((∃ r, d.finalizeWithProofs C proofs = .ok r) ↔
        (proofs.map OwnerKeyRotationProof.signerId).Nodup ∧ (∃ t, state.threshold = some t ∧ t ≤ proofs.length) ∧
          ∀ p ∈ proofs, ∃ signer ∈ state.signerSet, signer.1 = p.signerId ∧
            verifySignature C signer.2 (C.sha256 d.signedUpdateBytes) p.signature = true)) ∧
    ∀ proofs proofs', proofs.Perm proofs' → d.finalizeWithProofs C proofs = d.finalizeWithProofs C proofs' := by
  obtain ⟨c, t, hhead, hfit, hver, -, -, ht, hnodup, rfl⟩ := resolve_history hresolve
  cases c with
  | nil => cases hver
  | cons x c =>
    obtain rfl := Option.some.inj ht
    have hx := hfit x (by simp)
    have hs : Shows C (publicState _ _) x.2 := shows_publicState (e := x.1) (verifiedState C c) (c.map Prod.fst)
    obtain ⟨a, hd, -⟩ := createDraft_rotates hdraft
    have hg := hd.governed hx hs
    refine ⟨fun proofs r hr htotal hserves huniq => ?_, fun proofs hsize => ?_, fun proofs proofs' hperm => ?_⟩
    · obtain ⟨hproven, e, henv, rfl⟩ := (VersionedOwnerKeyRotationDraft.finalizeWithProofs_ok hg).1 hr
      have hnew := hd.fits hsha hx hs hproven henv
      have hadm := hd.admits hs hproven
      have hver' : Verified C (((e, d.opened a proofs) :: x :: c).map Prod.snd) := .link hadm nofun hver
      have hfit' : ∀ y ∈ (e, d.opened a proofs) :: x :: c, Fits C ownerName y.1 y.2 := by
        intro y hy
        rcases List.mem_cons.1 hy with rfl | hy
        · exact hnew
        · exact hfit y hy
      have hlink : ((e, d.opened a proofs) :: x :: c).IsChain (Linked (Serves lookup')) :=
        linked_of_verified hver' fun y hy => hserves y.1 (List.mem_map_of_mem (f := Prod.fst) hy) _
          (parseEnvelope_ok.2 ⟨y.2, hfit y hy, rfl⟩)
      have hlen : ((e, d.opened a proofs) :: x :: c).length ≤ maxPredecessorDepth + 1 := by
        have hdepth : (c.map Prod.fst).length ≤ 1023 := hdepth
        rw [List.length_map] at hdepth
        simp only [List.length_cons, maxPredecessorDepth]
        omega
      have hsum : (((e, d.opened a proofs) :: x :: c).map fun y => y.1.length).sum ≤ maxHistoryTotalBytes := by
        have htotal : e.length + x.1.length + ((c.map Prod.fst).map List.length).sum ≤ 4 * 1024 * 1024 := htotal
        rw [List.map_map] at htotal
        simpa [maxHistoryTotalBytes, add_assoc, Function.comp_def] using htotal
      obtain ⟨v', hv'⟩ := resolve_complete (ownerName_ne_nil hresolve) hfit' hver' hlink hlen
        (List.nodup_cons.2 ⟨fresh_update hnew hfit hver' huniq, hnodup⟩) hsum rfl rfl v
      refine ⟨_, v', hv', rfl, rfl, ?_⟩
      rw [hd.predecessor]
      show some a.predecessor = _
      rw [hd.authorization]
    · rw [hd.finalizes hg hsize]
      refine ⟨fun h => ⟨h.distinct, ⟨d.threshold, hd.threshold, h.enough⟩, fun p hp => ?_⟩, fun h => ?_⟩
      · obtain ⟨key, hkey, hv⟩ := h.valid p hp
        exact ⟨_, hd.signers ▸ hkey, rfl, hv⟩
      · obtain ⟨hdistinct, ⟨t, ht, henough⟩, hvalid⟩ := h
        obtain rfl := Option.some.inj (ht.symm.trans hd.threshold)
        refine ⟨hdistinct, henough, fun p hp => ?_⟩
        obtain ⟨signer, hmem, hid, hv⟩ := hvalid p hp
        exact ⟨signer.2, by rw [hd.signers, ← hid]; exact hmem, hv⟩
    · exact VersionedOwnerKeyRotationDraft.finalizeWithProofs_perm hg hperm

/-! ### The history of the test vector `identity-owner-key-rotation-versioned-history.json` -/

namespace Versioned

def ownerName : Bytes :=
  [0x77, 0x61, 0x6c, 0x6c, 0x65, 0x74, 0x2d, 0x6f, 0x77, 0x6e, 0x65, 0x72, 0x2d, 0x63, 0x61, 0x66,
   0xc3, 0xa9]

def aliceKey : Bytes :=
  [0x79, 0xb5, 0x56, 0x2e, 0x8f, 0xe6, 0x54, 0xf9, 0x40, 0x78, 0xb1, 0x12, 0xe8, 0xa9, 0x8b, 0xa7,
   0x90, 0x1f, 0x85, 0x3a, 0xe6, 0x95, 0xbe, 0xd7, 0xe0, 0xe3, 0x91, 0x0b, 0xad, 0x04, 0x96, 0x64]

def bobKey : Bytes :=
  [0xe7, 0xf1, 0x62, 0xa1, 0x0b, 0xec, 0x55, 0x9a, 0xfe, 0xa1, 0x95, 0xe4, 0xdc, 0xe8, 0x4b, 0x69,
   0x56, 0x8d, 0x5d, 0x2c, 0xb0, 0x96, 0x3e, 0xb4, 0x46, 0xc0, 0x68, 0x5e, 0x2b, 0x17, 0xf2, 0xf0]

def carolKey : Bytes :=
  [0xad, 0xc1, 0x40, 0x11, 0xf8, 0x2d, 0x1c, 0x56, 0xd9, 0x56, 0xaa, 0x4f, 0x9d, 0x73, 0xd8, 0x85,
   0x83, 0x61, 0xa6, 0x06, 0x04, 0x85, 0x25, 0xe0, 0xd0, 0x8c, 0x63, 0x8d, 0xc7, 0x5d, 0xd8, 0xc7]

def successorKey : Bytes :=
  [0x02, 0x0b, 0xd4, 0x27, 0x44, 0x6b, 0x72, 0x34, 0x24, 0xd8, 0x0d, 0x2c, 0xad, 0x35, 0x2b, 0xa3,
   0xdf, 0x36, 0x49, 0xd0, 0xef, 0x8f, 0xaa, 0xe0, 0xca, 0x7e, 0xb2, 0x54, 0x43, 0x94, 0x1b, 0x29]

def genesisHash : Bytes :=
  [0x0e, 0x91, 0x9f, 0x70, 0xfd, 0x99, 0xae, 0x72, 0x5d, 0xd7, 0x9b, 0x18, 0xd3, 0x2d, 0xae, 0x95,
   0xab, 0x8d, 0x0e, 0xea, 0x04, 0xc4, 0xc0, 0xa3, 0x46, 0xf8, 0x79, 0xcd, 0xe1, 0x45, 0xc7, 0x41]

def predecessorHash : Bytes :=
  [0xe3, 0xd6, 0x2f, 0xfb, 0xdc, 0x31, 0x5d, 0x0a, 0xff, 0x95, 0xf0, 0x59, 0x68, 0x5e, 0xab, 0x4e,
   0x14, 0x7e, 0x4f, 0x25, 0x52, 0x2d, 0x43, 0x34, 0xcb, 0x7c, 0x80, 0x47, 0x3a, 0x38, 0xa4, 0x5b]

def candidateHash : Bytes :=
  [0xa3, 0x6c, 0xe7, 0x0b, 0x32, 0x5e, 0xaf, 0x2b, 0xcb, 0x4d, 0x5d, 0x0b, 0x71, 0x25, 0xe8, 0x04,
   0x0c, 0x68, 0x66, 0x20, 0x01, 0x59, 0xd4, 0x13, 0x4b, 0x57, 0x0b, 0x12, 0x54, 0x7e, 0x6e, 0x75]

def genesisAlice : Bytes :=
  [0x0b, 0x56, 0x5e, 0x2b, 0x77, 0x36, 0x55, 0xb4, 0x1f, 0xd6, 0x24, 0x28, 0x29, 0xb5, 0xfc, 0x09,
   0x65, 0x26, 0x81, 0x07, 0x47, 0xc3, 0x83, 0x96, 0x9c, 0xa9, 0x3a, 0x62, 0x44, 0x0e, 0x89, 0xa6,
   0x98, 0x06, 0x01, 0x36, 0xc7, 0x70, 0x98, 0xb3, 0xa8, 0x94, 0xd7, 0x2b, 0xae, 0xa6, 0xd5, 0x8e,
   0xb5, 0x45, 0x33, 0x58, 0x3e, 0x43, 0xad, 0x20, 0x56, 0xec, 0x02, 0xf4, 0xbc, 0xdd, 0x90, 0x0b]

def genesisBob : Bytes :=
  [0xb6, 0x0e, 0x80, 0xdc, 0xf8, 0x1a, 0x17, 0x3f, 0x8b, 0xd3, 0x5d, 0x22, 0x4d, 0xf7, 0xe0, 0x10,
   0x84, 0xa3, 0xee, 0x05, 0xe3, 0xd3, 0xd1, 0xf7, 0x16, 0xe8, 0xc5, 0xaa, 0x94, 0x12, 0x7f, 0x0b,
   0x48, 0x33, 0x32, 0x67, 0xaf, 0x8b, 0xa2, 0x3b, 0xcf, 0x67, 0xf8, 0x56, 0xd9, 0xf6, 0xf3, 0x8f,
   0xc0, 0x1e, 0xd2, 0x53, 0x03, 0xae, 0xef, 0x11, 0x93, 0x5c, 0x31, 0xe6, 0x31, 0xe0, 0xd8, 0x07]

def predecessorAlice : Bytes :=
  [0x43, 0xd7, 0xb8, 0xc0, 0xfe, 0x7c, 0xf3, 0x65, 0x03, 0xb8, 0xc8, 0xe3, 0x60, 0xc2, 0xa0, 0x8c,
   0x60, 0x6e, 0x5c, 0x41, 0xb8, 0xa9, 0xd6, 0xaa, 0x01, 0x6e, 0x2c, 0x45, 0x0d, 0x09, 0x12, 0xd9,
   0x54, 0x5f, 0xf2, 0xa1, 0x4e, 0x2d, 0xf2, 0x35, 0xf4, 0x8a, 0xbd, 0x65, 0x4e, 0x36, 0x60, 0x70,
   0x75, 0x8e, 0x33, 0x98, 0x40, 0x68, 0x96, 0xbc, 0xef, 0x8c, 0x28, 0x39, 0x0c, 0xb2, 0xb0, 0x08]

def predecessorBob : Bytes :=
  [0xac, 0xb6, 0x42, 0x54, 0x61, 0xc9, 0x5b, 0x5b, 0x82, 0x3c, 0xb4, 0xdb, 0xe0, 0x95, 0xf8, 0x6f,
   0x1e, 0xa2, 0x36, 0x1d, 0xdc, 0x3e, 0xd0, 0xe7, 0x52, 0xae, 0x1f, 0x8e, 0x4d, 0xa8, 0x2d, 0x21,
   0xcb, 0x09, 0xc1, 0x21, 0x14, 0xed, 0xd4, 0x2a, 0x9c, 0x90, 0x6f, 0x0f, 0x61, 0x12, 0x4a, 0x0c,
   0xa1, 0xd8, 0x2d, 0x02, 0xa0, 0x64, 0x6e, 0x2f, 0xd8, 0x61, 0x36, 0x6e, 0xe9, 0x3f, 0x49, 0x0a]

def candidateAlice : Bytes :=
  [0x72, 0x90, 0xef, 0xcb, 0xa5, 0xb2, 0xc4, 0x87, 0x3c, 0x8b, 0x76, 0x4d, 0x5f, 0xbf, 0xc1, 0xfa,
   0x52, 0x72, 0x9b, 0x3a, 0x67, 0xf9, 0xd0, 0x0b, 0x02, 0xb4, 0x7e, 0x0e, 0xb6, 0xb8, 0x41, 0xd8,
   0x24, 0xad, 0x37, 0x05, 0x2b, 0x44, 0x00, 0x74, 0x18, 0x5f, 0x0a, 0x93, 0xba, 0xaf, 0xe4, 0xda,
   0x81, 0xb8, 0xac, 0xca, 0x18, 0x6f, 0xdb, 0x2c, 0x5f, 0x0f, 0xf2, 0xe2, 0x81, 0x27, 0xbf, 0x08]

def candidateBob : Bytes :=
  [0x6a, 0x35, 0x53, 0xb6, 0x11, 0x18, 0x5d, 0xb5, 0x5a, 0x85, 0xe3, 0x52, 0x8f, 0xb4, 0x57, 0x31,
   0x8c, 0x30, 0x6e, 0x49, 0x02, 0xaa, 0x4f, 0x6f, 0xaf, 0xfb, 0x80, 0x1c, 0xb3, 0x30, 0x43, 0x8a,
   0x2b, 0x9d, 0x69, 0x57, 0x1b, 0x4b, 0x1e, 0x21, 0x49, 0x82, 0x71, 0xd8, 0x12, 0xd3, 0x86, 0xda,
   0x83, 0xee, 0xb5, 0x98, 0x7b, 0xd6, 0x4b, 0x07, 0xc5, 0x12, 0xf2, 0xbb, 0x01, 0x97, 0x00, 0x06]

/-- The signature by which the successor shows that it holds its key. -/
def possession : Bytes :=
  [0xe5, 0xf4, 0xf0, 0xd1, 0x0b, 0x41, 0x6d, 0x1a, 0x65, 0x25, 0xc4, 0xd4, 0x2f, 0x8a, 0x0d, 0x35,
   0x22, 0x40, 0xa5, 0xf3, 0xd4, 0xbf, 0xd1, 0x76, 0x40, 0x85, 0xad, 0xa6, 0xeb, 0xe9, 0xe0, 0xaf,
   0x6d, 0x82, 0xfe, 0x57, 0x06, 0x6b, 0x75, 0x6d, 0x93, 0x67, 0xc2, 0x6f, 0xa2, 0x6e, 0x14, 0xc0,
   0xf0, 0xcc, 0x12, 0xfe, 0xc4, 0x94, 0x99, 0x9e, 0x5a, 0xe5, 0x08, 0x01, 0x23, 0x21, 0xc5, 0x06]

/-- The seed of the successor. -/
def successorSeed : Bytes := (List.range 32).map fun i => UInt8.ofNat (129 + i)

def alice : Str := [97, 108, 105, 99, 101]

def bob : Str := [98, 111, 98]

def signers : SignerSet := [(alice, aliceKey), (bob, bobKey), ([99, 97, 114, 111, 108], carolKey)]

def genesis : Opened where
  update := encode (updateValue ownerName aliceKey 1 (some ⟨1, 1, 2, signers, zeroHash⟩))
  ownerName := ownerName
  ownerKey := aliceKey
  sequence := 1
  auth := some ⟨1, 1, 2, signers, zeroHash⟩
  proofs := [(some alice, genesisAlice), (some bob, genesisBob)]

def predecessor : Opened where
  update := encode (updateValue ownerName aliceKey 2 (some ⟨2, 1, 2, signers, genesisHash⟩))
  ownerName := ownerName
  ownerKey := aliceKey
  sequence := 2
  auth := some ⟨2, 1, 2, signers, genesisHash⟩
  proofs := [(some alice, predecessorAlice), (some bob, predecessorBob)]

def candidateUpdate : Bytes := encode (updateValue ownerName successorKey 3 (some ⟨5, 1, 2, signers, predecessorHash⟩))

def genesisEnvelope : Bytes := encode genesis.envelopeItem

def predecessorEnvelope : Bytes := encode predecessor.envelopeItem

/-- SHA-256 on the updates of the history. -/
def sha256 (b : Bytes) : Bytes :=
  if b = genesis.update then genesisHash
  else if b = predecessor.update then predecessorHash
  else if b = candidateUpdate then candidateHash
  else zeroHash

/-- Ed25519 on its signatures. -/
def verify (key digest signature : Bytes) : Bool :=
  (key, digest, signature) ∈ [(aliceKey, genesisHash, genesisAlice), (bobKey, genesisHash, genesisBob),
    (aliceKey, predecessorHash, predecessorAlice), (bobKey, predecessorHash, predecessorBob),
    (aliceKey, candidateHash, candidateAlice), (bobKey, candidateHash, candidateBob),
    (successorKey, candidateHash, possession)]

def primitives : Primitives := ⟨sha256, verify⟩

theorem length_sha256 (b : Bytes) : (sha256 b).length = 32 := by
  unfold sha256
  split_ifs <;> rfl

def look (hash : Bytes) : Option Bytes :=
  if hash = genesisHash then some genesisEnvelope
  else if hash = predecessorHash then some predecessorEnvelope
  else none

def sign (seed digest : Bytes) : Option Bytes :=
  if seed = successorSeed ∧ digest = candidateHash then some possession else none

def state : VerifiedIdentityState where
  ownerNameBytes := ownerName
  ownerPublicKey := aliceKey
  sequence := 2
  stateHash := predecessorHash
  predecessorOwnerPublicKey := some aliceKey
  predecessorStateHash := some genesisHash
  generation := some 1
  threshold := some 2
  signerSet := signers
  envelopeBytes := predecessorEnvelope
  predecessorEnvelopes := [genesisEnvelope]

def draft : VersionedOwnerKeyRotationDraft where
  ownerNameBytes := ownerName
  predecessorOwnerPublicKey := aliceKey
  successorOwnerPublicKey := successorKey
  predecessorStateHash := predecessorHash
  sequence := 3
  signedUpdateBytes := candidateUpdate
  authorizedSigners := signers
  threshold := 2

/-- The proofs of "bob" and "alice", in the wrong order. -/
def proofs : List OwnerKeyRotationProof :=
  [⟨bob, candidateBob, ⟨bob.map fun c => UInt8.ofNat c, by decide, by decide, by decide⟩, by decide⟩,
    ⟨alice, candidateAlice, ⟨alice.map fun c => UInt8.ofNat c, by decide, by decide, by decide⟩, by decide⟩]

/-- What holds of both envelopes as they are parsed. -/
theorem forall_history {Q : Bytes → ParsedEnvelope → Prop} {x y : ParsedEnvelope}
    (hx : parseEnvelope primitives ownerName predecessorEnvelope = .ok x)
    (hy : parseEnvelope primitives ownerName genesisEnvelope = .ok y) (hQx : Q predecessorEnvelope x)
    (hQy : Q genesisEnvelope y) :
    ∀ e ∈ [predecessorEnvelope, genesisEnvelope], ∀ p, parseEnvelope primitives ownerName e = .ok p → Q e p := by
  intro e he p hp
  simp only [List.mem_cons, List.not_mem_nil, or_false] at he
  rcases he with rfl | rfl
  · obtain rfl := Except.ok.inj (hx.symm.trans hp)
    exact hQx
  · obtain rfl := Except.ok.inj (hy.symm.trans hp)
    exact hQy

end Versioned

open Versioned in
theorem finalized_rotations_verify_vector :
    ∃ r s v', draft.finalizeWithProofs primitives proofs = .ok r ∧
      resolve primitives (pureLookup look) ownerName r.envelopeBytes () = (.ok s, v') ∧
      s.ownerPublicKey = successorKey ∧ s.sequence = 3 := by
  have hresolve : (resolve primitives (pureLookup look) ownerName predecessorEnvelope ()).1 = .ok state := by
    decide +kernel
  have hdraft : VersionedOwnerKeyRotation.createDraft primitives sign ownerName state aliceKey successorSeed
      successorKey = .ok draft := by decide +kernel
  obtain ⟨hverify, hfinal, -⟩ := finalized_rotations_verify primitives length_sha256 sign (pureLookup look)
    (pureLookup look) ownerName predecessorEnvelope () _ () state (Prog.run_eq hresolve) (by decide) ownerName aliceKey
    successorSeed successorKey draft hdraft
  obtain ⟨r, hr⟩ := (hfinal proofs (by decide +kernel)).2 ⟨by decide, ⟨2, rfl, le_rfl⟩, by decide +kernel⟩
  have hsmall : (draft.finalizeWithProofs primitives proofs).map (fun r => decide (r.envelopeBytes.length +
      state.envelopeBytes.length + (state.predecessorEnvelopes.map List.length).sum ≤ 4 * 1024 * 1024)) = .ok true := by
    decide +kernel
  simp only [hr, Except.map, Except.ok.injEq, decide_eq_true_eq] at hsmall
  have hpredecessor : parseEnvelope primitives ownerName predecessorEnvelope =
      .ok (parsed primitives predecessorEnvelope predecessor) := by decide +kernel
  have hgenesis : parseEnvelope primitives ownerName genesisEnvelope =
      .ok (parsed primitives genesisEnvelope genesis) := by decide +kernel
  have hserves : ServesAll primitives ownerName (pureLookup (W := Unit) look) [predecessorEnvelope, genesisEnvelope] :=
    forall_history hpredecessor hgenesis (serves_pureLookup (by decide +kernel)) (serves_pureLookup (by decide +kernel))
  have hunique : UniqueHash primitives ownerName candidateUpdate [predecessorEnvelope, genesisEnvelope] :=
    forall_history hpredecessor hgenesis (fun h => absurd h (by decide +kernel)) fun h => absurd h (by decide +kernel)
  obtain ⟨s, v', hs, hkey, hseq, -⟩ := hverify proofs r hr hsmall hserves hunique
  exact ⟨r, s, v', hr, hs, hkey, hseq⟩

end DecentWallet.Kotlin
