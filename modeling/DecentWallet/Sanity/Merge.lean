import DecentWallet.Sanity.Bundle
import DecentWallet.Sanity.Reference

/-! Merging two bundles: the sorted list of the proofs of both, for one draft and distinct ids. -/

namespace DecentWallet

open Cbor IdentityError

variable {P : Platform}

theorem sortIdentityProofs_perm (ps : List IdentityProof) : (sortIdentityProofs ps).Perm ps :=
  List.perm_insertionSort _ ps

/-- Distinct ids are distinct in the bytes a proof list is sorted by. -/
theorem nodup_order {ps : List IdentityProof} (hn : (ps.map IdentityProof.signerId).Nodup) :
    (ps.map IdentityProof.order).Nodup := by
  have h : ((ps.map IdentityProof.entry).map Prod.fst).Nodup := by
    rw [List.map_map]
    exact hn
  have hid : ∀ e ∈ ps.map IdentityProof.entry, ∀ i ∈ e.1, ValidId i := by
    intro e he i hi
    obtain ⟨p, -, rfl⟩ := List.mem_map.1 he
    exact (p.idOk i hi).1
  have h := (nodup_proofKey hid).1 h
  rwa [List.map_map] at h

theorem sortIdentityProofs_congr {ps qs : List IdentityProof} (hp : ps.Perm qs)
    (hn : (ps.map IdentityProof.signerId).Nodup) : sortIdentityProofs ps = sortIdentityProofs qs :=
  sort_eq_of_perm IdentityProof.order hp (nodup_order hn)

namespace IdentityBundle

/-- The bundle of all of `ps`, which have distinct ids. -/
def collect (d : IdentityDraft P) (ps : List IdentityProof) (hn : (ps.map IdentityProof.signerId).Nodup) :
    IdentityBundle P where
  draft := d
  proofs := sortIdentityProofs ps
  sorted := (sort_idem IdentityProof.order ps).symm
  distinct := ((sortIdentityProofs_perm ps).map _).nodup_iff.2 hn

theorem collect_congr {d : IdentityDraft P} {ps qs : List IdentityProof} (hp : ps.Perm qs)
    (hn : (ps.map IdentityProof.signerId).Nodup) (hq : (qs.map IdentityProof.signerId).Nodup) :
    collect d ps hn = collect d qs hq := by
  simp only [collect, sortIdentityProofs_congr hp hn]

/-- A bundle holds its own proofs. -/
theorem collect_proofs (b : IdentityBundle P) : collect b.draft b.proofs b.distinct = b := by
  obtain ⟨d, ps, hs, hn⟩ := b
  simp only [collect, ← hs]

theorem merge_ok {b c : IdentityBundle P} (hd : b.draft = c.draft)
    (hn : ((b.proofs ++ c.proofs).map IdentityProof.signerId).Nodup) :
    b.merge c = .ok (collect b.draft (b.proofs ++ c.proofs) hn) := by
  have hmake : make b.draft (sortIdentityProofs (b.proofs ++ c.proofs)) =
      .ok (collect b.draft (b.proofs ++ c.proofs) hn) :=
    dif_pos ⟨(sort_idem IdentityProof.order _).symm, ((sortIdentityProofs_perm _).map _).nodup_iff.2 hn⟩
  simp only [merge, bind_eq_ok, reject_eq_ok, not_not]
  exact ⟨(), hd, (), hn, hmake⟩

theorem merge_ok_iff {b c : IdentityBundle P} : (∃ m, b.merge c = .ok m) ↔
    b.draft = c.draft ∧ ∀ p ∈ b.proofs, ∀ q ∈ c.proofs, p.signerId ≠ q.signerId := by
  have hdisjoint : ((b.proofs ++ c.proofs).map IdentityProof.signerId).Nodup ↔
      ∀ p ∈ b.proofs, ∀ q ∈ c.proofs, p.signerId ≠ q.signerId := by
    rw [List.map_append, List.nodup_append]
    simp [b.distinct, c.distinct]
  constructor
  · rintro ⟨m, hm⟩
    simp only [merge, bind_eq_ok, reject_eq_ok, not_not] at hm
    obtain ⟨-, hd, -, hn, -⟩ := hm
    exact ⟨hd, hdisjoint.1 hn⟩
  · rintro ⟨hd, hn⟩
    exact ⟨_, merge_ok hd (hdisjoint.2 hn)⟩

theorem merge_error_iff {b c : IdentityBundle P} : (∃ e, b.merge c = .error e) ↔
    b.draft ≠ c.draft ∨ ∃ p ∈ b.proofs, ∃ q ∈ c.proofs, p.signerId = q.signerId := by
  have hnot : (∃ e, b.merge c = .error e) ↔ ¬∃ m, b.merge c = .ok m := by
    cases b.merge c <;> simp
  rw [hnot, merge_ok_iff]
  push Not
  exact imp_iff_not_or

end IdentityBundle

namespace Vector

/-- The rotation of the vector as a draft; what stands below the legacy envelope is not looked at. -/
def draftContents : DraftContents :=
  ⟨ownerName, successorKey, 8, some authorization, some (legacy.state platform legacyEnvelope none)⟩

def draft : IdentityDraft platform := ⟨rotationUpdate, some legacyEnvelope, [], draftContents, by decide +kernel⟩

/-- The ordinary update on the rotation, with the legacy envelope below it. -/
def ordinaryDraft : IdentityDraft platform :=
  ⟨ordinaryUpdate, some rotationEnvelope, [legacyEnvelope],
    ⟨ownerName, successorKey, 9, some ordinaryAuthorization, some state⟩, by decide +kernel⟩

def bobProof : IdentityProof := ⟨some [98, 111, 98], bobKey, bobSignature, by decide, by decide, by decide⟩

def carolProof : IdentityProof := ⟨some [99, 97, 114, 111, 108], carolKey,
  carolSignature, by decide, by decide, by decide⟩

def ordinaryBundle : IdentityBundle platform := ⟨ordinaryDraft, [bobProof, carolProof], by decide +kernel, by decide⟩

/-- A proof by one of the three signers, with a signature of the right length. -/
def proof (signer : Str × Bytes) (h : signer ∈ signers) : IdentityProof where
  signerId := some signer.1
  signerPublicKey := signer.2
  signature := rotationSignature
  idOk := by revert signer; decide
  keyOk := by revert signer; decide
  signatureOk := by decide

end Vector

end DecentWallet
