import DecentWallet.Sanity.Bundle
import DecentWallet.Sanity.KotlinResolve
import DecentWallet.Spec.KotlinRotation

/-! Rotation drafts of the Android client: what is in one, which proofs finalize it, and that the result is an envelope
that the rules admit on the predecessor. -/

namespace DecentWallet.Kotlin

open Cbor WalletError Opened

/-! ### Writing -/

/-- What `encodeCanonical` writes of an item whose maps are in order. -/
theorem encodeCanonical_sorted {v : Value} {b : Bytes} (hsort : sortKeys v = v) (h : encodeCanonical v = .ok b) :
    canonical v = true ∧ b = encode v ∧ b.length ≤ maxEncodedBytes := by
  obtain ⟨hw, hlen⟩ := encodeCanonical_ok.1 h
  obtain ⟨hc, hb⟩ := writeValue_canonical v 0 b hw (hlen.trans_lt (by decide))
  rw [hsort] at hc hb
  exact ⟨hc, hb, hlen⟩

theorem encodeCanonical_encode {v : Value} (hc : canonical v = true) (hs : Small maxItems maxDepth v)
    (hl : (encode v).length ≤ maxEncodedBytes) : encodeCanonical v = .ok (encode v) :=
  encodeCanonical_ok.2 ⟨writeValue_encode v 0 hc hs.keys hl (by have := hs.depth; omega) hs.items, hl⟩

/-! ### Proofs -/

theorem OwnerKeyRotationProof.validId (p : OwnerKeyRotationProof) :
    ValidId p.signerId ∧ (utf8Raw p.signerId).length ≤ 256 := by
  obtain ⟨b, hb, hne, hlen⟩ := p.idOk
  obtain ⟨hs, rfl⟩ := utf8_eq_some.1 hb
  exact ⟨⟨fun h => hne (utf8Raw_eq_nil.2 h), hs⟩, hlen⟩

section

variable {C : Primitives}

theorem verifySignature_iff {k m s : Bytes} :
    verifySignature C k m s = true ↔ k.length = keyBytes ∧ s.length = signatureBytes ∧ C.verify k m s = true := by
  simp [verifySignature, and_assoc]

namespace VersionedOwnerKeyRotationDraft

/-- Valid signatures by distinct signers, at least as many as the threshold. -/
structure Proven (C : Primitives) (d : VersionedOwnerKeyRotationDraft) (proofs : List OwnerKeyRotationProof) :
    Prop where
  distinct : (proofs.map OwnerKeyRotationProof.signerId).Nodup
  enough : d.threshold ≤ proofs.length
  valid : ∀ p ∈ proofs, ∃ key, (p.signerId, key) ∈ d.authorizedSigners ∧
    verifySignature C key (C.sha256 d.signedUpdateBytes) p.signature = true

theorem Proven.perm {d : VersionedOwnerKeyRotationDraft} {ps qs : List OwnerKeyRotationProof} (h : d.Proven C ps)
    (hp : ps.Perm qs) : d.Proven C qs where
  distinct := (hp.map _).nodup_iff.1 h.distinct
  enough := hp.length_eq ▸ h.enough
  valid := fun p hmem => h.valid p (hp.mem_iff.2 hmem)

theorem sortProofs_perm (proofs : List OwnerKeyRotationProof) : (sortProofs proofs).Perm proofs :=
  List.perm_insertionSort _ proofs

theorem nodup_keys {proofs : List OwnerKeyRotationProof} (h : (proofs.map OwnerKeyRotationProof.signerId).Nodup) :
    (proofs.map fun p => utf8Raw p.signerId).Nodup := by
  have hids : ∀ i ∈ proofs.map OwnerKeyRotationProof.signerId, i.all isScalar = true := by
    intro i hi
    obtain ⟨p, -, rfl⟩ := List.mem_map.1 hi
    exact p.validId.1.2
  have hkeys := nodup_utf8Raw hids h
  rwa [List.map_map] at hkeys

/-- The sorted proofs do not depend on the order they came in. -/
theorem sortProofs_congr {ps qs : List OwnerKeyRotationProof} (hp : ps.Perm qs)
    (h : (ps.map OwnerKeyRotationProof.signerId).Nodup) : sortProofs ps = sortProofs qs :=
  sort_eq_of_perm (fun p : OwnerKeyRotationProof => utf8Raw p.signerId) hp (nodup_keys h)

theorem signerKey_eq_some {s : SignerSet} (hn : (s.map Prod.fst).Nodup) {i : Str} {k : Bytes} :
    signerKey s i = some k ↔ (i, k) ∈ s := by
  simp only [signerKey, Option.map_eq_some_iff]
  constructor
  · intro h
    obtain ⟨⟨j, k⟩, hfind, rfl⟩ := h
    have hj : j = i := by simpa using List.find?_some hfind
    have hmem := List.mem_of_find?_eq_some hfind
    rw [hj] at hmem
    simpa using hmem
  · intro h
    have hfind : (s.reverse.find? fun e => e.1 == i).isSome := by
      rw [List.find?_isSome]
      exact ⟨(i, k), by simpa using h, by simp⟩
    obtain ⟨e, he⟩ := Option.isSome_iff_exists.1 hfind
    have hei : e.1 = i := by simpa using List.find?_some he
    have hmem : e ∈ s := by simpa using List.mem_of_find?_eq_some he
    refine ⟨e, he, ?_⟩
    rw [List.inj_on_of_nodup_map hn hmem h hei]

theorem checkProofs_ok {signers : SignerSet} (hn : (signers.map Prod.fst).Nodup) {update : Bytes}
    {ps : List OwnerKeyRotationProof} {seen out : List Str} (hseen : seen.Nodup) :
    checkProofs C signers update ps seen = .ok out ↔ out = seen ++ ps.map OwnerKeyRotationProof.signerId ∧
      out.Nodup ∧ ∀ p ∈ ps, ∃ key, (p.signerId, key) ∈ signers ∧
        verifySignature C key (C.sha256 update) p.signature = true := by
  induction ps generalizing seen with
  | nil =>
    simp only [checkProofs, pure_eq_ok, List.map_nil, List.append_nil, List.not_mem_nil, false_implies, implies_true,
      and_true]
    exact ⟨fun h => ⟨h.symm, h ▸ hseen⟩, fun h => h.1.symm⟩
  | cons p ps ih =>
    simp only [checkProofs, bind_eq_ok, reject_eq_ok, orRaise_eq_ok, signerKey_eq_some hn, Bool.not_eq_false]
    constructor
    · intro h
      obtain ⟨_, hnew, key, hkey, _, hv, hrest⟩ := h
      obtain ⟨rfl, hnodup, hall⟩ := (ih (by simpa using hseen.concat hnew)).1 hrest
      refine ⟨by simp, hnodup, fun q hq => ?_⟩
      rcases List.mem_cons.1 hq with rfl | hq
      · exact ⟨key, hkey, hv⟩
      · exact hall q hq
    · intro h
      obtain ⟨rfl, hnodup, hall⟩ := h
      obtain ⟨key, hkey, hv⟩ := hall p (by simp)
      have hnew : p.signerId ∉ seen := by
        intro hmem
        exact (List.disjoint_of_nodup_append hnodup) hmem (by simp)
      refine ⟨(), hnew, key, hkey, (), hv, (ih (by simpa using hseen.concat hnew)).2 ⟨by simp, ?_, ?_⟩⟩
      · simpa using hnodup
      · exact fun q hq => hall q (by simp [hq])

/-- The draft is one of a state with at most three signers, whose threshold they can reach. -/
structure Governed (d : VersionedOwnerKeyRotationDraft) : Prop where
  idsNodup : (d.authorizedSigners.map Prod.fst).Nodup
  few : d.authorizedSigners.length ≤ 3
  positive : 1 ≤ d.threshold
  reachable : d.threshold ≤ d.authorizedSigners.length

theorem Proven.length_le {d : VersionedOwnerKeyRotationDraft} {proofs : List OwnerKeyRotationProof}
    (h : d.Proven C proofs) : proofs.length ≤ d.authorizedSigners.length := by
  have hsub : proofs.map OwnerKeyRotationProof.signerId ⊆ d.authorizedSigners.map Prod.fst := by
    intro i hi
    obtain ⟨p, hp, rfl⟩ := List.mem_map.1 hi
    obtain ⟨key, hkey, -⟩ := h.valid p hp
    exact List.mem_map.2 ⟨_, hkey, rfl⟩
  simpa using (h.distinct.subperm hsub).length_le

/-- The result of finalizing with an envelope. -/
def finalized (d : VersionedOwnerKeyRotationDraft) (envelope : Bytes) : OwnerKeyRotationDraft where
  ownerNameBytes := d.ownerNameBytes
  predecessorOwnerPublicKey := d.predecessorOwnerPublicKey
  successorOwnerPublicKey := d.successorOwnerPublicKey
  predecessorStateHash := d.predecessorStateHash
  sequence := d.sequence
  signedUpdateBytes := d.signedUpdateBytes
  envelopeBytes := envelope

theorem finalizeWithProofs_ok {d : VersionedOwnerKeyRotationDraft} (hd : d.Governed)
    {proofs : List OwnerKeyRotationProof} {r : OwnerKeyRotationDraft} :
    d.finalizeWithProofs C proofs = .ok r ↔ d.Proven C proofs ∧
      ∃ envelope, encodeCanonical (d.envelopeItem proofs) = .ok envelope ∧ r = d.finalized envelope := by
  have hperm := sortProofs_perm proofs
  simp only [finalizeWithProofs, bind_eq_ok, reject_eq_ok, checkProofs_ok hd.idsNodup List.nodup_nil, pure_eq_ok,
    List.nil_append, not_or, not_not, not_lt]
  constructor
  · intro h
    obtain ⟨_, -, seen, ⟨rfl, hnodup, hall⟩, _, hthr, envelope, henv, rfl⟩ := h
    have hproven : d.Proven C (sortProofs proofs) := ⟨hnodup, by simpa using hthr, hall⟩
    exact ⟨hproven.perm hperm, envelope, henv, rfl⟩
  · intro h
    obtain ⟨hproven, envelope, henv, rfl⟩ := h
    have hne : proofs ≠ [] := by
      intro hnil
      have := hd.positive.trans hproven.enough
      simp [hnil] at this
    have hsorted := hproven.perm hperm.symm
    exact ⟨(), ⟨hne, hproven.length_le, hd.positive, hd.reachable⟩, _, ⟨rfl, hsorted.distinct, hsorted.valid⟩, (),
      by simpa using hsorted.enough, envelope, henv, rfl⟩

theorem checkProofs_fails (signers : SignerSet) (update : Bytes) (ps : List OwnerKeyRotationProof) (seen : List Str) :
    Fails OnlyInvalid (checkProofs C signers update ps seen) := by
  induction ps generalizing seen with
  | nil => exact Fails.ok _
  | cons p ps ih =>
    exact (Fails.reject onlyInvalid _).bind fun _ => (Fails.orRaise onlyInvalid _).bind fun _ =>
      (Fails.reject onlyInvalid _).bind fun _ => ih _

/-- Finalizing refuses in one way only. -/
theorem finalizeWithProofs_fails (d : VersionedOwnerKeyRotationDraft) (proofs : List OwnerKeyRotationProof) :
    Fails OnlyInvalid (d.finalizeWithProofs C proofs) :=
  (Fails.reject onlyInvalid _).bind fun _ => (checkProofs_fails _ _ _ _).bind fun _ =>
    (Fails.reject onlyInvalid _).bind fun _ => (encodeCanonical_fails _).bind fun _ => Fails.ok _

theorem finalizeWithProofs_perm {d : VersionedOwnerKeyRotationDraft} (hd : d.Governed)
    {ps qs : List OwnerKeyRotationProof} (hp : ps.Perm qs) :
    d.finalizeWithProofs C ps = d.finalizeWithProofs C qs := by
  have hok : ∀ {ps qs : List OwnerKeyRotationProof} {r}, ps.Perm qs → d.finalizeWithProofs C ps = .ok r →
      d.finalizeWithProofs C qs = .ok r := by
    intro ps qs r hp h
    obtain ⟨hproven, envelope, henv, rfl⟩ := (finalizeWithProofs_ok hd).1 h
    refine (finalizeWithProofs_ok hd).2 ⟨hproven.perm hp, envelope, ?_, rfl⟩
    rw [envelopeItem, ← sortProofs_congr hp hproven.distinct]
    exact henv
  cases h : d.finalizeWithProofs C ps with
  | ok r => rw [hok hp h]
  | error e =>
    cases h' : d.finalizeWithProofs C qs with
    | ok r => rw [hok hp.symm h'] at h; cases h
    | error e' => rw [finalizeWithProofs_fails d ps e h, finalizeWithProofs_fails d qs e' h']

end VersionedOwnerKeyRotationDraft

/-! ### Drafts on a version-1 state -/

variable {sign : Bytes → Bytes → Option Bytes}

theorem provePossession_ok {seed key update : Bytes} {u : Unit} (h : provePossession C sign seed key update = .ok u) :
    key.length = keyBytes := by
  simp only [provePossession, bind_eq_ok, reject_eq_ok, Bool.not_eq_false] at h
  obtain ⟨signature, -, hv⟩ := h
  exact (verifySignature_iff.1 hv).1

namespace VersionedOwnerKeyRotationDraft

/-- The draft rotates the owner key of the state, with the authorization `a`. -/
structure Rotates (d : VersionedOwnerKeyRotationDraft) (state : VerifiedIdentityState) (a : Authorization) : Prop where
  ownerName : d.ownerNameBytes = state.ownerNameBytes
  successor : d.successorOwnerPublicKey ≠ state.ownerPublicKey
  keyLength : d.successorOwnerPublicKey.length = keyBytes
  predecessor : d.predecessorStateHash = state.stateHash
  sequence : d.sequence = state.sequence + 1
  signers : d.authorizedSigners = state.signerSet
  nonempty : state.signerSet ≠ []
  positive : 1 ≤ d.threshold
  reachable : d.threshold ≤ state.signerSet.length
  threshold : state.threshold = some d.threshold
  generation : state.generation = some a.generation
  authorization : a = ⟨5, a.generation, d.threshold, state.signerSet, state.stateHash⟩
  update : encodeCanonical (updateValue d.ownerNameBytes d.successorOwnerPublicKey d.sequence (some a)) =
    .ok d.signedUpdateBytes

/-- What the envelope of a finalized draft says. -/
def opened (d : VersionedOwnerKeyRotationDraft) (a : Authorization) (proofs : List OwnerKeyRotationProof) : Opened where
  update := d.signedUpdateBytes
  ownerName := d.ownerNameBytes
  ownerKey := d.successorOwnerPublicKey
  sequence := d.sequence
  auth := some a
  proofs := (sortProofs proofs).map OwnerKeyRotationProof.entry

theorem envelopeItem_eq (d : VersionedOwnerKeyRotationDraft) (a : Authorization) (proofs : List OwnerKeyRotationProof) :
    d.envelopeItem proofs = (d.opened a proofs).envelopeItem := by
  simp only [envelopeItem, opened, Opened.envelopeItem, List.map_map]
  rfl

variable {d : VersionedOwnerKeyRotationDraft} {a : Authorization} {proofs : List OwnerKeyRotationProof}

theorem opened_ordered (h : (proofs.map OwnerKeyRotationProof.signerId).Nodup) :
    (d.opened a proofs).proofs.Pairwise fun x y => bytesLt (proofKey x) (proofKey y) = true := by
  refine List.pairwise_map.2 ((eq_sort_nodup_iff (fun p : OwnerKeyRotationProof => utf8Raw p.signerId) _).1 ⟨?_, ?_⟩)
  · exact (sort_idem (fun p : OwnerKeyRotationProof => utf8Raw p.signerId) proofs).symm
  · exact nodup_keys (((sortProofs_perm proofs).map _).nodup_iff.2 h)

theorem opened_length : (d.opened a proofs).proofs.length = proofs.length := by
  rw [opened, List.length_map, (sortProofs_perm proofs).length_eq]

theorem of_mem_opened {p : ProofEntry} (hp : p ∈ (d.opened a proofs).proofs) : ∃ q ∈ proofs, p = q.entry := by
  obtain ⟨q, hq, rfl⟩ := List.mem_map.1 hp
  exact ⟨q, (sortProofs_perm proofs).mem_iff.1 hq, rfl⟩

end VersionedOwnerKeyRotationDraft

variable {state : VerifiedIdentityState} {d : VersionedOwnerKeyRotationDraft}

theorem createDraft_rotates {ownerName active seed key : Bytes}
    (h : VersionedOwnerKeyRotation.createDraft C sign ownerName state active seed key = .ok d) :
    ∃ a, d.Rotates state a ∧ d.ownerNameBytes = ownerName ∧ d.successorOwnerPublicKey = key := by
  simp only [VersionedOwnerKeyRotation.createDraft, bind_eq_ok, reject_eq_ok, orRaise_eq_ok, pure_eq_ok, not_or,
    not_not, not_lt] at h
  obtain ⟨_, hne, generation, hgen, threshold, hthr, _, ⟨hpos, hle, rfl, rfl, hkey⟩, update, hupd, _, hproof, rfl⟩ := h
  exact ⟨⟨5, generation, threshold, state.signerSet, state.stateHash⟩,
    { ownerName := rfl, successor := Ne.symm hkey, keyLength := provePossession_ok hproof, predecessor := rfl,
      sequence := rfl, signers := rfl, nonempty := hne, positive := Nat.one_le_iff_ne_zero.2 hpos, reachable := hle,
      threshold := hthr, generation := hgen, authorization := rfl, update := hupd }, rfl, rfl⟩

/-! ### Finalized envelopes -/

/-- The state is the one that the envelope `o` leaves. -/
structure Shows (C : Primitives) (state : VerifiedIdentityState) (o : Opened) : Prop where
  ownerName : state.ownerNameBytes = o.ownerName
  ownerKey : state.ownerPublicKey = o.ownerKey
  sequence : state.sequence = o.sequence
  stateHash : state.stateHash = C.sha256 o.update
  generation : state.generation = o.auth.map Authorization.generation
  threshold : state.threshold = o.auth.map Authorization.threshold
  signers : state.signerSet = (o.auth.map Authorization.signers).getD []

variable {n e : Bytes} {o : Opened} {a : Authorization}

theorem shows_publicState (prev : Option VerifiedState) (es : List Bytes) :
    Shows C (publicState (.from (parsed C e o) prev) es) o where
  ownerName := rfl
  ownerKey := rfl
  sequence := rfl
  stateHash := rfl
  generation := by simp only [publicState, VerifiedState.from, parsed, Option.map_map]; rfl
  threshold := by simp only [publicState, VerifiedState.from, parsed, Option.map_map]; rfl
  signers := rfl

/-- A state with signers comes from a version-1 envelope. -/
theorem Shows.versionOne (hs : Shows C state o) (hne : state.signerSet ≠ []) :
    ∃ b, o.auth = some b ∧ state.signerSet = b.signers := by
  cases ha : o.auth with
  | none =>
    rw [hs.signers, ha] at hne
    exact absurd rfl hne
  | some b => exact ⟨b, rfl, by rw [hs.signers, ha]; rfl⟩

namespace VersionedOwnerKeyRotationDraft

variable {proofs : List OwnerKeyRotationProof} {envelope : Bytes}

theorem Rotates.governed (hd : d.Rotates state a) (hfit : Fits C n e o) (hs : Shows C state o) : d.Governed := by
  obtain ⟨b, hb, hsigners⟩ := hs.versionOne hd.nonempty
  refine ⟨?_, ?_, hd.positive, hd.signers ▸ hd.reachable⟩
  · rw [hd.signers, hsigners]
    exact (hfit.sealed.wellFormed.auth b hb).idsNodup
  · rw [hd.signers, hsigners, hfit.signers b hb]

theorem Rotates.wellFormed (hsha : ∀ b, (C.sha256 b).length = keyBytes) (hd : d.Rotates state a) (hfit : Fits C n e o)
    (hs : Shows C state o) : a.WellFormed ∧ a.signers.length = 3 := by
  obtain ⟨b, hb, hsigners⟩ := hs.versionOne hd.nonempty
  have hwf := hfit.sealed.wellFormed.auth b hb
  rw [hd.authorization, hsigners]
  refine ⟨⟨by simp, hwf.ids, hwf.idsNodup, hwf.keysNodup, hwf.ordered, ?_⟩, hfit.signers b hb⟩
  rw [hs.stateHash]
  exact hsha _

theorem Rotates.fits (hsha : ∀ b, (C.sha256 b).length = keyBytes) (hd : d.Rotates state a) (hfit : Fits C n e o)
    (hs : Shows C state o) (hproven : d.Proven C proofs)
    (henv : encodeCanonical (d.envelopeItem proofs) = .ok envelope) : Fits C n envelope (d.opened a proofs) := by
  obtain ⟨hwf, hthree⟩ := hd.wellFormed hsha hfit hs
  obtain ⟨hcanonical, hbytes, -⟩ := encodeCanonical_sorted (tidy_updateValue _ _ _ _).sorted hd.update
  rw [envelopeItem_eq d a] at henv
  obtain ⟨hcanonical', hbytes', hsize⟩ := encodeCanonical_sorted (tidy_versionOne _ _).sorted henv
  have hids : ∀ p ∈ (d.opened a proofs).proofs,
      p.2.length = signatureLength ∧ ∀ i ∈ p.1, ValidId i ∧ (utf8Raw i).length ≤ 256 := by
    intro p hp
    obtain ⟨q, -, rfl⟩ := of_mem_opened hp
    refine ⟨q.signatureOk, fun i hi => ?_⟩
    obtain rfl := Option.some.inj hi
    exact q.validId
  have hopened : (d.opened a proofs).WellFormed := by
    refine ⟨hd.keyLength, fun b hb => ?_, fun p hp => ⟨(hids p hp).1, fun i hi => ((hids p hp).2 i hi).1⟩,
      opened_ordered hproven.distinct⟩
    obtain rfl := Option.some.inj hb
    exact hwf
  exact { sealed := ⟨hopened, nofun, hcanonical, hcanonical', hbytes, hbytes'⟩
          ownerName := by rw [← hfit.ownerName, ← hs.ownerName]; exact hd.ownerName
          utf8 := hfit.utf8
          size := hsize
          signers := fun b hb => Option.some.inj hb ▸ hthree
          proofs := by rw [opened_length]; exact hproven.length_le.trans (hd.governed hfit hs).few
          proofIds := fun p hp i hi => ((hids p hp).2 i hi).2
          signed := nofun }

/-- A finalized draft may stand on the state it was made from. -/
theorem Rotates.admits (hd : d.Rotates state a) (hs : Shows C state o) (hproven : d.Proven C proofs) :
    Admits C (some (o.head C)) (d.opened a proofs) := by
  obtain ⟨b, hb, hsigners⟩ := hs.versionOne hd.nonempty
  have hop : a.operation = 5 := by rw [hd.authorization]
  have hsame : a.signers = (o.head C).signers := by rw [hd.authorization]; exact hs.signers
  have hthreshold : a.threshold = d.threshold := by rw [hd.authorization]
  have hstands : (d.opened a proofs).Follows a (o.head C) := by
    refine ⟨?_, ?_⟩
    · rw [hd.authorization]
      exact hs.stateHash.symm
    · exact hd.sequence.trans (by rw [hs.sequence]; rfl)
  have hgoverned : KeepsGovernance a (o.head C) := by
    refine ⟨?_, ?_, hsame⟩
    · rw [← hd.generation]
      exact hs.generation
    · rw [hthreshold, ← hd.threshold]
      exact hs.threshold
  have hquorum : (d.opened a proofs).Quorum C (o.head C).signers a.threshold := by
    refine ⟨?_, fun p hp => ?_⟩
    · rw [opened_length, hthreshold]
      exact hproven.enough
    · obtain ⟨q, hq, rfl⟩ := of_mem_opened hp
      obtain ⟨key, hkey, hv⟩ := hproven.valid q hq
      rw [hd.signers, hs.signers] at hkey
      exact ⟨q.signerId, key, rfl, hkey, (verifySignature_iff.1 hv).2.2⟩
  refine .rotate (a := a) rfl hop hstands ?_ ?_ hgoverned hquorum
  · exact fun hnil => hd.nonempty (hs.signers.trans hnil)
  · exact fun heq => hd.successor (heq.trans hs.ownerKey.symm)

end VersionedOwnerKeyRotationDraft

/-! ### Drafts on a legacy state -/

namespace LegacyOwnerKeyRotation

/-- On a canonical item the two checks of a map's keys agree. -/
theorem exactMap_canonical {n : ℕ} (hn : n < 24) {v : Value} {m : Dict} {ks : List ℤ}
    (hks : ks = (List.range' 1 n).map fun j : ℕ => (j : ℤ)) (hc : canonical v = true) (h : exactMap ks v = .ok m) :
    Kotlin.exactMap ks v = .ok m := by
  simp only [exactMap, bind_eq_ok, reject_eq_ok, pure_eq_ok, not_not] at h
  obtain ⟨m', hmap, _, hkeys, rfl⟩ := h
  obtain ⟨rfl, hint⟩ := map_ok.1 hmap
  have hexact : requireExactKeys ks (.map m') = .ok m' := requireExactKeys_ok.2 ⟨rfl, hint, hkeys⟩
  obtain ⟨vs, rfl, hv, rfl⟩ := requireExactKeys_canonical hn hks hc hexact
  exact exactMap_ok.2 ⟨hexact, by simp [hks]⟩

theorem map_of_anyMap {v : Value} (h : parseLegacyPredecessor.anyMap v = .ok []) : map v = .ok [] := by
  cases v with
  | map m =>
    obtain rfl : m = [] := Except.ok.inj h
    rfl
  | _ => cases h

/-- A legacy predecessor is a legacy envelope of its owner. -/
theorem parseLegacyPredecessor_ok {e : Bytes} {p : LegacyPredecessor} (h : parseLegacyPredecessor C e = .ok p) :
    ∃ o, Fits C p.ownerName e o ∧ o.auth = none ∧ p.ownerName = o.ownerName ∧ p.ownerPublicKey = o.ownerKey ∧
      p.sequence = o.sequence ∧ p.stateHash = C.sha256 o.update := by
  simp only [parseLegacyPredecessor, bind_eq_ok, bytes_ok, reject_eq_ok, not_not, pure_eq_ok, uint_ok,
    Option.mem_def, Option.some.injEq, forall_eq', Bool.not_eq_false, reduceCtorEq, false_implies, implies_true,
    and_true] at h
  obtain ⟨v, hv, outer, houter, _, -, m, hm, updateBytes, hupdate, signature, ⟨hsig, hslen⟩, u, hu, dm, hdm, record,
    hrec, name, hname, key, ⟨hkey, hklen⟩, _, hutf, payload, hpayload, _, hnil, sequence, hseq, _, hverify, rfl⟩ := h
  obtain ⟨hvc, -, -⟩ := decodeCanonical_sound hv
  obtain ⟨huc, -, -⟩ := decodeCanonical_sound hu
  obtain ⟨rfl, hint⟩ := map_ok.1 houter
  have hm : Kotlin.exactMap [1, 2] (.map outer) = .ok m := exactMap_canonical (n := 2) (by decide) rfl hvc hm
  have hdm : Kotlin.exactMap [1, 2, 3] u = .ok dm := exactMap_canonical (n := 3) (by decide) rfl huc hdm
  obtain ⟨vs, hlen, hdict, hdm'⟩ := Kotlin.exactMap_canonical (n := 3) (by decide) rfl huc hdm
  obtain ⟨x, y, z, rfl⟩ := List.length_eq_three.1 hlen
  have hxc : canonical (get dm 1) = true := by
    rw [hdict] at huc
    have := canonical_of_mem_dict (by simp) huc x (by simp)
    rw [hdm']
    simpa [get, dictFrom, isKey] using this
  have hrec : Kotlin.exactMap [1, 2] (get dm 1) = .ok record := exactMap_canonical (n := 2) (by decide) rfl hxc hrec
  obtain ⟨hmap, hlen2⟩ := exactMap_ok.1 hm
  obtain ⟨heq, -, hkeys⟩ := requireExactKeys_ok.1 hmap
  obtain rfl := Value.map.inj heq
  subst hnil
  have hparse : parseEnvelope C name e =
      .ok ⟨e, updateBytes, name, key, sequence, C.sha256 updateBytes, none, [], []⟩ := by
    simp only [parseEnvelope, bind_eq_ok]
    refine ⟨_, hv, outer, houter, ?_⟩
    rw [if_pos hkeys]
    simp only [parseLegacy, bind_eq_ok, bytes_ok, reject_eq_ok, not_not, pure_eq_ok, uint_ok, Bool.not_eq_false]
    exact ⟨updateBytes, ⟨hupdate, by simp⟩, signature, ⟨hsig, by simpa using hslen⟩, u, hu, dm, hdm, record, hrec, name,
      ⟨hname, by simp⟩, key, ⟨hkey, by simpa using hklen⟩, (), rfl, (), hutf, [], map_of_anyMap hpayload, (), rfl,
      sequence, hseq, (), (verifySignature_iff.1 hverify).2.2, rfl⟩
  obtain ⟨o, hfit, ho⟩ := parseEnvelope_ok.1 hparse
  have ho := (ParsedEnvelope.mk.injEq ..).mp ho
  obtain ⟨-, h1, h2, h3, h4, -, h6, -, -⟩ := ho
  refine ⟨o, hfit, ?_, h2, h3, h4, by rw [h1]⟩
  simpa using h6.symm

theorem createDraft_ok {n pe activeSeed active seed key : Bytes} {signers : SignerSet} {k : OwnerKeyRotationDraft}
    (h : createDraft C sign n pe activeSeed active seed key signers = .ok k) :
    ∃ p proof, parseLegacyPredecessor C pe = .ok p ∧ p.ownerName = n ∧ p.ownerPublicKey = active ∧
      encodeCanonical (updateValue n key (p.sequence + 1) (some ⟨5, 1, 2, sortSigners signers, p.stateHash⟩)) =
        .ok k.signedUpdateBytes ∧ sign activeSeed (C.sha256 k.signedUpdateBytes) = some proof ∧
      encodeCanonical (dict [.int 1, .bytes k.signedUpdateBytes, .array ([(none, proof)].map proofValue)]) =
        .ok k.envelopeBytes := by
  simp only [createDraft, bind_eq_ok, reject_eq_ok, pure_eq_ok, not_not] at h
  obtain ⟨_, -, _, -, p, hp, _, rfl, _, rfl, _, -, sorted, hsorted, update, hupdate, _, -, proof, hproof,
    envelope, henvelope, rfl⟩ := h
  obtain rfl : sorted = sortSigners signers := by
    simp only [validateSuccessorSigners, bind_eq_ok, pure_eq_ok] at hsorted
    obtain ⟨_, -, _, -, _, -, _, -, rfl⟩ := hsorted
    rfl
  simp only [signDigest, bind_eq_ok, orRaise_eq_ok] at hproof
  obtain ⟨_, -, hproof⟩ := hproof
  exact ⟨p, proof, hp, rfl, rfl, hupdate, hproof, henvelope⟩

end LegacyOwnerKeyRotation

end

end DecentWallet.Kotlin
