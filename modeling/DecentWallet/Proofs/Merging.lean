import DecentWallet.Sanity.Merge

/-! Merging bundles: whatever the order and the bracketing, the result is the sorted list of all proofs. -/

namespace DecentWallet

open Cbor IdentityError

variable {P : Platform}

/-- An order and a bracketing of merges. -/
inductive MergeTree (P : Platform) where
  | bundle (b : IdentityBundle P)
  | merge (l r : MergeTree P)

namespace MergeTree

/-- The family that is merged. -/
def bundles : MergeTree P → List (IdentityBundle P)
  | bundle b => [b]
  | merge l r => l.bundles ++ r.bundles

def run : MergeTree P → Except IdentityError (IdentityBundle P)
  | bundle b => .ok b
  | merge l r => do (← l.run).merge (← r.run)

def proofs (t : MergeTree P) : List IdentityProof := t.bundles.flatMap IdentityBundle.proofs

theorem run_eq {d : IdentityDraft P} : ∀ {t : MergeTree P}, (∀ b ∈ t.bundles, b.draft = d) →
    ∀ hn : (t.proofs.map IdentityProof.signerId).Nodup, t.run = .ok (IdentityBundle.collect d t.proofs hn)
  | bundle b, hd, hn => by
    obtain rfl : b.draft = d := hd b (by simp [bundles])
    have hps : (bundle b).proofs = b.proofs := by simp [proofs, bundles]
    simp only [run, hps, IdentityBundle.collect_proofs]
  | merge l r, hd, hn => by
    have hps : (merge l r).proofs = l.proofs ++ r.proofs := by simp [proofs, bundles]
    have hnapp : ((l.proofs ++ r.proofs).map IdentityProof.signerId).Nodup := hps ▸ hn
    have hl : (l.proofs.map IdentityProof.signerId).Nodup := by
      rw [List.map_append] at hnapp
      exact hnapp.of_append_left
    have hr : (r.proofs.map IdentityProof.signerId).Nodup := by
      rw [List.map_append] at hnapp
      exact hnapp.of_append_right
    have ihl := run_eq (t := l) (fun b hb => hd b (by simp [bundles, hb])) hl
    have ihr := run_eq (t := r) (fun b hb => hd b (by simp [bundles, hb])) hr
    -- the sorted halves hold the proofs of the two sides
    have hperm : (sortIdentityProofs l.proofs ++ sortIdentityProofs r.proofs).Perm (l.proofs ++ r.proofs) :=
      (sortIdentityProofs_perm _).append (sortIdentityProofs_perm _)
    have hnsort := (hperm.map IdentityProof.signerId).nodup_iff.2 hnapp
    have hmerge := IdentityBundle.merge_ok (b := IdentityBundle.collect d l.proofs hl)
      (c := IdentityBundle.collect d r.proofs hr) rfl hnsort
    simp only [run, ihl, ihr]
    refine hmerge.trans (congrArg Except.ok ?_)
    simp only [IdentityBundle.collect, hps, sortIdentityProofs_congr hperm hnsort]

end MergeTree

/-- Bundles on one draft whose signer ids are distinct across the family merge in every order and
bracketing, to one bundle; and two bundles fail to merge only for another draft or a common id. -/
theorem merge_order_irrelevant {P : Platform} (d : IdentityDraft P) (family : List (IdentityBundle P))
    (hd : ∀ b ∈ family, b.draft = d)
    (hn : ((family.flatMap IdentityBundle.proofs).map IdentityProof.signerId).Nodup) :
    (∃ m : IdentityBundle P, ∀ t : MergeTree P, t.bundles.Perm family →
      t.run = .ok m ∧ (t.run >>= IdentityBundle.toCbor) = m.toCbor ∧ (t.run >>= IdentityBundle.finalize) = m.finalize) ∧
    ∀ b c : IdentityBundle P, (∃ e, b.merge c = .error e) ↔
      b.draft ≠ c.draft ∨ ∃ p ∈ b.proofs, ∃ q ∈ c.proofs, p.signerId = q.signerId := by
  refine ⟨⟨IdentityBundle.collect d _ hn, fun t ht => ?_⟩, fun b c => IdentityBundle.merge_error_iff⟩
  have hperm : t.proofs.Perm (family.flatMap IdentityBundle.proofs) := ht.flatMap_right _
  have hnt : (t.proofs.map IdentityProof.signerId).Nodup := (hperm.map _).nodup_iff.2 hn
  have hrun : t.run = .ok (IdentityBundle.collect d _ hn) := by
    rw [MergeTree.run_eq (fun b hb => hd b (ht.mem_iff.1 hb)) hnt]
    exact congrArg Except.ok (IdentityBundle.collect_congr hperm hnt hn)
  exact ⟨hrun, by rw [hrun]; rfl, by rw [hrun]; rfl⟩

namespace Vector

/-- The bundle of one signer's proof. -/
def bundle (signer : Str × Bytes) (h : signer ∈ signers) : IdentityBundle platform :=
  ⟨draft, [proof signer h], rfl, List.nodup_singleton _⟩

def first : IdentityBundle platform := bundle (signers.get ⟨0, by decide⟩) (List.get_mem _ _)

def second : IdentityBundle platform := bundle (signers.get ⟨1, by decide⟩) (List.get_mem _ _)

def third : IdentityBundle platform := bundle (signers.get ⟨2, by decide⟩) (List.get_mem _ _)

end Vector

theorem merge_order_irrelevant_vector :
    ∃ m, (MergeTree.merge (.merge (.bundle Vector.first) (.bundle Vector.second)) (.bundle Vector.third)).run = .ok m ∧
      (MergeTree.merge (.bundle Vector.third) (.merge (.bundle Vector.second) (.bundle Vector.first))).run = .ok m := by
  obtain ⟨⟨m, hm⟩, -⟩ := merge_order_irrelevant Vector.draft [Vector.first, Vector.second, Vector.third]
    (by simp [Vector.first, Vector.second, Vector.third, Vector.bundle]) (by decide)
  refine ⟨m, (hm _ (List.Perm.refl _)).1, (hm _ ?_).1⟩
  exact (List.reverse_perm [Vector.first, Vector.second, Vector.third])

end DecentWallet
