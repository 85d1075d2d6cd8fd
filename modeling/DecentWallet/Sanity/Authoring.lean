import DecentWallet.Sanity.Bundle
import DecentWallet.Sanity.Canonical
import DecentWallet.Spec.Submit

/-! The rules of a version-1 update in two halves: what may be proposed on a state, and which proofs carry it. The
draft validator and the submission validator check the first half, the envelope parser and the bundle check both. -/

namespace DecentWallet

open Cbor IdentityError Opened

/-- An update by `key`, with its sequence number and authorization, may be proposed on a state. -/
inductive Proposes : Option Head → Bytes → ℕ → Authorization → Prop
  | genesis {key seq a} (hop : a.operation = 1) (hseq : seq = 1) (hpred : a.predecessor = zeroHash)
      (hgov : FreshGovernance a) : Proposes none key seq a
  | ordinary {h key seq a} (hop : a.operation = 2) (hpred : h.stateHash = a.predecessor) (hseq : seq = h.sequence + 1)
      (hv1 : h.signers ≠ []) (hkey : key = h.ownerKey) (hgov : KeepsGovernance a h) : Proposes (some h) key seq a
  | replaceSigners {h key seq a} (hop : a.operation = 3) (hpred : h.stateHash = a.predecessor)
      (hseq : seq = h.sequence + 1) (hv1 : h.signers ≠ []) (hkey : key = h.ownerKey)
      (hgen : h.generation.getD 0 < a.generation) (hthr : a.threshold = 2) (hlen : a.signers.length = 3)
      (hne : a.signers ≠ h.signers) : Proposes (some h) key seq a
  | upgrade {h key seq a} (hop : a.operation = 4) (hpred : h.stateHash = a.predecessor) (hseq : seq = h.sequence + 1)
      (hlegacy : h.signers = []) (hkey : key = h.ownerKey) (hgov : FreshGovernance a)
      (hin : key ∈ a.signers.map Prod.snd) : Proposes (some h) key seq a
  | rotate {h key seq a} (hop : a.operation = 5) (hpred : h.stateHash = a.predecessor) (hseq : seq = h.sequence + 1)
      (hv1 : h.signers ≠ []) (hkey : key ≠ h.ownerKey) (hgov : KeepsGovernance a h) : Proposes (some h) key seq a
  | rotateLegacy {h key seq a} (hop : a.operation = 5) (hpred : h.stateHash = a.predecessor)
      (hseq : seq = h.sequence + 1) (hlegacy : h.signers = []) (hkey : key ≠ h.ownerKey) (hgov : FreshGovernance a)
      (hin : key ∈ a.signers.map Prod.snd) : Proposes (some h) key seq a

/-- Whatever may be proposed on a verified state needs two signers. -/
theorem Proposes.threshold {prev : Option Head} {key : Bytes} {seq : ℕ} {a : Authorization}
    (h : Proposes prev key seq a) (hprev : ∀ g ∈ prev, g.signers ≠ [] → g.threshold = some 2) : a.threshold = 2 := by
  cases h with
  | genesis _ _ _ hgov => exact hgov.2.1
  | ordinary _ _ _ hv1 _ hgov => exact Option.some.inj (hgov.2.1.trans (hprev _ rfl hv1))
  | replaceSigners _ _ _ _ _ _ hthr => exact hthr
  | upgrade _ _ _ _ _ hgov => exact hgov.2.1
  | rotate _ _ _ hv1 _ hgov => exact Option.some.inj (hgov.2.1.trans (hprev _ rfl hv1))
  | rotateLegacy _ _ _ _ _ hgov => exact hgov.2.1

/-- Whose proofs count: the signers of the state before, or those the update names. -/
def authorising (prev : Option Head) (a : Authorization) : SignerSet :=
  if a.operation ∈ [2, 3, 5] then (prev.map Head.signers).getD [] else a.signers

/-- A rotation of a legacy state is carried by the owner key of that state. -/
def LegacyRotation (prev : Option Head) (a : Authorization) : Prop :=
  a.operation = 5 ∧ ∃ h ∈ prev, h.signers = []

/-- The proofs that carry an update with authorization `a`. -/
inductive Sufficient (C : Primitives) (prev : Option Head) (o : Opened) (a : Authorization) : Prop
  | upgrade {i signature} (hop : a.operation = 4) (hproofs : o.proofs = [(some i, signature)])
      (hsigner : (i, o.ownerKey) ∈ a.signers) (hsig : o.SignedBy C o.ownerKey signature)
  | rotateLegacy {h signature} (hop : a.operation = 5) (hprev : prev = some h) (hlegacy : h.signers = [])
      (hproofs : o.proofs = [(none, signature)]) (hsig : o.SignedBy C h.ownerKey signature)
  | quorum (hop : a.operation ≠ 4) (hrot : ¬LegacyRotation prev a) (hq : o.Quorum C (authorising prev a) a.threshold)

/-- Admission is a proposal with proofs that carry it. -/
theorem admits_iff {C : Primitives} {prev : Option Head} {o : Opened} {a : Authorization} (ha : o.auth = some a) :
    Admits C prev o ↔ Proposes prev o.ownerKey o.sequence a ∧ Sufficient C prev o a := by
  refine ⟨fun h => ?_, fun h => ?_⟩
  · cases h with
    | legacy hauth => rw [ha] at hauth; cases hauth
    | genesis hauth hop hseq hpred hgov hq =>
      cases ha.symm.trans hauth
      refine ⟨.genesis hop hseq hpred hgov, .quorum (by omega) (by simp [LegacyRotation, hop]) ?_⟩
      rw [hgov.2.1]
      simpa [authorising, hop] using hq
    | ordinary hauth hop hf hv1 hkey hgov hq =>
      cases ha.symm.trans hauth
      refine ⟨.ordinary hop hf.1 hf.2 hv1 hkey hgov, .quorum (by omega) (by simp [LegacyRotation, hop]) ?_⟩
      simpa [authorising, hop] using hq
    | replaceSigners hauth hop hf hv1 hkey hgen hthr hlen hne hq =>
      cases ha.symm.trans hauth
      refine ⟨.replaceSigners hop hf.1 hf.2 hv1 hkey hgen hthr hlen hne,
        .quorum (by omega) (by simp [LegacyRotation, hop]) ?_⟩
      rw [hthr]
      simpa [authorising, hop] using hq
    | upgrade hauth hop hf hlegacy hkey hgov hproofs hsigner hsig =>
      cases ha.symm.trans hauth
      exact ⟨.upgrade hop hf.1 hf.2 hlegacy hkey hgov (List.mem_map_of_mem hsigner), .upgrade hop hproofs hsigner hsig⟩
    | rotate hauth hop hf hv1 hkey hgov hq =>
      cases ha.symm.trans hauth
      refine ⟨.rotate hop hf.1 hf.2 hv1 hkey hgov, .quorum (by omega) (by simp [LegacyRotation, hv1]) ?_⟩
      simpa [authorising, hop] using hq
    | rotateLegacy hauth hop hf hlegacy hkey hgov hin hproofs hsig =>
      cases ha.symm.trans hauth
      exact ⟨.rotateLegacy hop hf.1 hf.2 hlegacy hkey hgov hin, .rotateLegacy hop rfl hlegacy hproofs hsig⟩
  · obtain ⟨hprop, hsuff⟩ := h
    cases hprop with
    | genesis hop hseq hpred hgov =>
      cases hsuff with
      | upgrade hop' => omega
      | rotateLegacy hop' => omega
      | quorum _ _ hq =>
        rw [hgov.2.1] at hq
        exact .genesis ha hop hseq hpred hgov (by simpa [authorising, hop] using hq)
    | ordinary hop hpred hseq hv1 hkey hgov =>
      cases hsuff with
      | upgrade hop' => omega
      | rotateLegacy hop' => omega
      | quorum _ _ hq => exact .ordinary ha hop ⟨hpred, hseq⟩ hv1 hkey hgov (by simpa [authorising, hop] using hq)
    | replaceSigners hop hpred hseq hv1 hkey hgen hthr hlen hne =>
      cases hsuff with
      | upgrade hop' => omega
      | rotateLegacy hop' => omega
      | quorum _ _ hq =>
        rw [hthr] at hq
        exact .replaceSigners ha hop ⟨hpred, hseq⟩ hv1 hkey hgen hthr hlen hne (by simpa [authorising, hop] using hq)
    | upgrade hop hpred hseq hlegacy hkey hgov =>
      cases hsuff with
      | upgrade _ hproofs hsigner hsig =>
        exact .upgrade ha hop ⟨hpred, hseq⟩ hlegacy hkey hgov hproofs hsigner hsig
      | rotateLegacy hop' => omega
      | quorum hop' => exact absurd hop hop'
    | rotate hop hpred hseq hv1 hkey hgov =>
      cases hsuff with
      | upgrade hop' => omega
      | rotateLegacy _ hprev hlegacy => cases hprev; exact absurd hlegacy hv1
      | quorum _ _ hq => exact .rotate ha hop ⟨hpred, hseq⟩ hv1 hkey hgov (by simpa [authorising, hop] using hq)
    | rotateLegacy hop hpred hseq hlegacy hkey hgov hin =>
      cases hsuff with
      | upgrade hop' => omega
      | rotateLegacy _ hprev _ hproofs hsig =>
        cases hprev
        exact .rotateLegacy ha hop ⟨hpred, hseq⟩ hlegacy hkey hgov hin hproofs hsig
      | quorum _ hrot => exact absurd ⟨hop, _, rfl, hlegacy⟩ hrot

/-! ### The draft validator -/

section

variable {n key : Bytes} {seq : ℕ} {a : Authorization}

theorem requireComplete2Of3_ok {u : Unit} : requireComplete2Of3 a = .ok u ↔ a.threshold = 2 ∧ a.signers.length = 3 := by
  simp [requireComplete2Of3]

theorem validateDraftTransition_none : validateDraftTransition n key seq (some a) none = .ok () ↔
    Proposes none key seq a := by
  simp only [validateDraftTransition, bind_eq_ok, reject_eq_ok, not_or, not_not, requireComplete2Of3_ok]
  refine ⟨fun h => ?_, fun h => ?_⟩
  · obtain ⟨_, hseq, _, ⟨hop, hgen, hpred⟩, hthr, hlen⟩ := h
    exact .genesis hop hseq hpred ⟨hgen, hthr, hlen⟩
  · cases h with
    | genesis hop hseq hpred hgov => exact ⟨(), hseq, (), ⟨hop, hgov.1, hpred⟩, hgov.2⟩

theorem validateDraftTransition_some {p : IdentityState} :
    validateDraftTransition n key seq (some a) (some p) = .ok () ↔
    n = p.ownerName ∧ Proposes (some p.head) key seq a := by
  simp only [validateDraftTransition, bind_eq_ok, reject_eq_ok, not_or, not_not]
  refine ⟨fun h => ?_, fun h => ?_⟩
  · obtain ⟨_, ⟨hn, hseq⟩, _, hpred, h⟩ := h
    refine ⟨hn, ?_⟩
    split_ifs at h with hop hlegacy hlegacy hop2 hop3
    · obtain ⟨_, hkey, hgen, hthr, hlen, hin⟩ := by simpa only [bind_eq_ok, reject_eq_ok, not_or, not_not] using h
      exact .rotateLegacy hop hpred.symm hseq hlegacy hkey ⟨hgen, hthr, hlen⟩ hin
    · obtain ⟨_, hkey, hgen, hthr, hsigners⟩ := by simpa only [bind_eq_ok, reject_eq_ok, not_or, not_not] using h
      exact .rotate hop hpred.symm hseq hlegacy hkey ⟨hgen, hthr, hsigners⟩
    · obtain ⟨_, hkey, _, ⟨hop4, hgen⟩, _, ⟨hthr, hlen⟩, hin⟩ := by
        simpa only [bind_eq_ok, reject_eq_ok, not_or, not_not, requireComplete2Of3_ok] using h
      exact .upgrade hop4 hpred.symm hseq hlegacy hkey ⟨hgen, hthr, hlen⟩ (hkey ▸ hin)
    · obtain ⟨_, hkey, hgen, hthr, hsigners⟩ := by simpa only [bind_eq_ok, reject_eq_ok, not_or, not_not] using h
      exact .ordinary hop2 hpred.symm hseq hlegacy hkey ⟨hgen, hthr, hsigners⟩
    · obtain ⟨_, hkey, _, hgen, _, ⟨hthr, hlen⟩, hne⟩ := by
        simpa only [bind_eq_ok, reject_eq_ok, not_or, not_not, requireComplete2Of3_ok, not_le] using h
      exact .replaceSigners hop3 hpred.symm hseq hlegacy hkey hgen hthr hlen hne
    · obtain ⟨_, -, h⟩ := bind_eq_ok.1 h
      cases h
  · obtain ⟨hn, h⟩ := h
    cases h with
    | ordinary hop hpred hseq hv1 hkey hgov =>
      refine ⟨(), ⟨hn, hseq⟩, (), hpred.symm, ?_⟩
      have hv1 : p.signerSet ≠ [] := hv1
      simp only [hop, Nat.reduceEqDiff, if_false, if_true, hv1, bind_eq_ok, reject_eq_ok, not_or, not_not]
      exact ⟨(), hkey, hgov⟩
    | replaceSigners hop hpred hseq hv1 hkey hgen hthr hlen hne =>
      refine ⟨(), ⟨hn, hseq⟩, (), hpred.symm, ?_⟩
      have hv1 : p.signerSet ≠ [] := hv1
      simp only [hop, Nat.reduceEqDiff, if_false, if_true, hv1, bind_eq_ok, reject_eq_ok, not_not, not_le,
        requireComplete2Of3_ok]
      exact ⟨(), hkey, (), hgen, (), ⟨hthr, hlen⟩, hne⟩
    | upgrade hop hpred hseq hlegacy hkey hgov hin =>
      refine ⟨(), ⟨hn, hseq⟩, (), hpred.symm, ?_⟩
      have hlegacy : p.signerSet = [] := hlegacy
      have hkey : key = p.ownerPublicKey := hkey
      simp only [hop, Nat.reduceEqDiff, if_false, if_true, hlegacy, bind_eq_ok, reject_eq_ok, not_or, not_not,
        requireComplete2Of3_ok]
      exact ⟨(), hkey, (), ⟨trivial, hgov.1⟩, (), hgov.2, hkey ▸ hin⟩
    | rotate hop hpred hseq hv1 hkey hgov =>
      refine ⟨(), ⟨hn, hseq⟩, (), hpred.symm, ?_⟩
      have hv1 : p.signerSet ≠ [] := hv1
      simp only [hop, if_true, if_false, hv1, bind_eq_ok, reject_eq_ok, not_or, not_not]
      exact ⟨(), hkey, hgov⟩
    | rotateLegacy hop hpred hseq hlegacy hkey hgov hin =>
      refine ⟨(), ⟨hn, hseq⟩, (), hpred.symm, ?_⟩
      have hlegacy : p.signerSet = [] := hlegacy
      simp only [hop, if_true, hlegacy, bind_eq_ok, reject_eq_ok, not_or, not_not]
      exact ⟨(), hkey, hgov.1, hgov.2.1, hgov.2.2, hin⟩

/-- `_validate_draft_transition` checks exactly what may be proposed. -/
theorem validateDraftTransition_ok {previous : Option IdentityState} :
    validateDraftTransition n key seq (some a) previous = .ok () ↔
      (∀ p ∈ previous, n = p.ownerName) ∧ Proposes (previous.map IdentityState.head) key seq a := by
  cases previous with
  | none => simpa using validateDraftTransition_none
  | some p => simpa using validateDraftTransition_some

end

/-! ### The submission validator -/

section

variable {P : Platform} {q : SubmitRequest P} {current : Option IdentityState} {a : Authorization}

/-- The signer a request names holds the key it names. -/
theorem signer_mem {signers : SignerSet} {signerId : Option Str} {key : Bytes}
    (h : signerId.bind (lookupSigner signers) = some key) : ∃ i, signerId = some i ∧ (i, key) ∈ signers := by
  obtain ⟨i, hi, hl⟩ := Option.bind_eq_some_iff.1 h
  exact ⟨i, hi, lookupSigner_mem hl⟩

theorem checkAuthorized_ok : checkAuthorized q current a = .ok () ↔ q.operation = operationName (some a) ∧
    (∀ s ∈ current, a.operation ≠ 5 → s.ownerPublicKey = q.ownerPublicKey) ∧ (a.operation = 5 → q.draft ≠ none) ∧
    (∀ s ∈ current, a.predecessor = s.stateHash) ∧ (current = none → a.predecessor = zeroHash) ∧
    ((a.operation = 5 ∧ ∃ s ∈ current, s.signerSet = []) ∨ (q.signerId ≠ none ∧ q.signerId ≠ some [])) ∧
    validateTransition current a q.signerId q.signerPublicKey = .ok () := by
  simp only [checkAuthorized, bind_eq_ok, reject_eq_ok, not_not, not_exists, not_and, not_or, exists_const]
  grind

/-- A submission other than a rotation passes its checks only where it may be proposed. -/
theorem proposes_of_checkAuthorized (h : checkAuthorized q current a = .ok ()) (hop : a.operation ≠ 5) :
    Proposes (current.map IdentityState.head) q.ownerPublicKey (nextSequence current) a := by
  obtain ⟨-, hkey, -, hpred, -, -, htransition⟩ := checkAuthorized_ok.1 h
  cases current with
  | none =>
    simp only [validateTransition, bind_eq_ok, reject_eq_ok, not_or, not_not, requireComplete2Of3_ok] at htransition
    obtain ⟨_, ⟨hop1, hgen, hzero⟩, _, hgov, -⟩ := htransition
    exact .genesis hop1 rfl hzero ⟨hgen, hgov⟩
  | some s =>
    have hkey := (hkey s rfl hop).symm
    have hpred := (hpred s rfl).symm
    simp only [validateTransition, if_neg hop] at htransition
    split_ifs at htransition with hlegacy hop2 hop3
    · simp only [bind_eq_ok, reject_eq_ok, not_or, not_not, requireComplete2Of3_ok] at htransition
      obtain ⟨_, ⟨hop4, hgen, -⟩, _, hgov, _, hsigner, hmem⟩ := htransition
      obtain ⟨i, -, hmem⟩ := signer_mem hmem
      rw [hsigner, ← hkey] at hmem
      exact .upgrade hop4 hpred rfl hlegacy hkey ⟨hgen, hgov⟩ (List.mem_map_of_mem hmem)
    · simp only [bind_eq_ok, reject_eq_ok, not_or, not_not] at htransition
      obtain ⟨_, -, _, ⟨hgen, hthr⟩, _, hsigners, -⟩ := htransition
      exact .ordinary hop2 hpred rfl hlegacy hkey ⟨hgen, hthr, hsigners⟩
    · simp only [bind_eq_ok, reject_eq_ok, not_not, not_le, requireComplete2Of3_ok] at htransition
      obtain ⟨_, -, _, hgen, _, ⟨hthr, hlen⟩, _, hne, -⟩ := htransition
      exact .replaceSigners hop3 hpred rfl hlegacy hkey hgen hthr hlen hne
    · obtain ⟨_, -, h⟩ := bind_eq_ok.1 htransition
      cases h

/-- The signer a checked submission names is one of those the rules look at. -/
theorem signer_of_checkAuthorized (h : checkAuthorized q current a = .ok ()) :
    (a.operation = 5 ∧ q.signerId = none) ∨ ∃ i, q.signerId = some i ∧
      ((i, q.signerPublicKey) ∈ a.signers ∨ ∃ s ∈ current, (i, q.signerPublicKey) ∈ s.signerSet) := by
  obtain ⟨-, -, -, -, -, -, htransition⟩ := checkAuthorized_ok.1 h
  cases current with
  | none =>
    simp only [validateTransition, bind_eq_ok, reject_eq_ok, not_not] at htransition
    obtain ⟨_, -, _, -, hmem⟩ := htransition
    obtain ⟨i, hi, hmem⟩ := signer_mem hmem
    exact .inr ⟨i, hi, .inl hmem⟩
  | some s =>
    simp only [validateTransition] at htransition
    have hstate : q.signerId.bind (lookupSigner s.signerSet) = some q.signerPublicKey →
        ∃ i, q.signerId = some i ∧ ((i, q.signerPublicKey) ∈ a.signers ∨
          ∃ t ∈ some s, (i, q.signerPublicKey) ∈ t.signerSet) := by
      intro hmem
      obtain ⟨i, hi, hmem⟩ := signer_mem hmem
      exact ⟨i, hi, .inr ⟨s, rfl, hmem⟩⟩
    split_ifs at htransition with hop hlegacy hlegacy hop2 hop3
    · simp only [reject_eq_ok, not_or, not_not] at htransition
      exact .inl ⟨hop, htransition.2.2.2.1⟩
    · simp only [reject_eq_ok, not_or, not_not] at htransition
      exact .inr (hstate htransition.2.2.2)
    · simp only [bind_eq_ok, reject_eq_ok, not_not] at htransition
      obtain ⟨_, -, _, -, _, -, hmem⟩ := htransition
      obtain ⟨i, hi, hmem⟩ := signer_mem hmem
      exact .inr ⟨i, hi, .inl hmem⟩
    · simp only [bind_eq_ok, reject_eq_ok, not_not] at htransition
      obtain ⟨_, -, _, -, _, -, hmem⟩ := htransition
      exact .inr (hstate hmem)
    · simp only [bind_eq_ok, reject_eq_ok, not_not] at htransition
      obtain ⟨_, -, _, -, _, -, _, -, hmem⟩ := htransition
      exact .inr (hstate hmem)
    · obtain ⟨_, -, h⟩ := bind_eq_ok.1 htransition
      cases h

/-- Every authorization that passes needs two signers. -/
theorem threshold_of_checkAuthorized (h : checkAuthorized q current a = .ok ())
    (hcurrent : ∀ s ∈ current, s.signerSet ≠ [] → s.threshold = some 2) : a.threshold = 2 := by
  by_cases hop : a.operation = 5
  · obtain ⟨-, -, -, -, -, -, htransition⟩ := checkAuthorized_ok.1 h
    cases current with
    | none =>
      simp only [validateTransition, bind_eq_ok, requireComplete2Of3_ok] at htransition
      obtain ⟨_, -, _, hgov, -⟩ := htransition
      exact hgov.1
    | some s =>
      simp only [validateTransition, if_pos hop] at htransition
      split_ifs at htransition with hlegacy
      · simp only [reject_eq_ok, not_or, not_not] at htransition
        exact htransition.2.1
      · simp only [reject_eq_ok, not_or, not_not] at htransition
        exact Option.some.inj (htransition.2.1.trans (hcurrent s rfl hlegacy))
  · refine (proposes_of_checkAuthorized h hop).threshold fun g hg => ?_
    obtain ⟨s, hs, rfl⟩ := Option.map_eq_some_iff.1 hg
    exact hcurrent s hs

end

/-! ### The state before -/

/-- What a verified state says about its signers. -/
structure Head.Ok (h : Head) : Prop where
  ownerKey : h.ownerKey.length = keyLength
  ids : ∀ e ∈ h.signers, ValidId e.1 ∧ (utf8Raw e.1).length ≤ 256 ∧ e.2.length = keyLength
  idsNodup : (h.signers.map Prod.fst).Nodup
  keysNodup : (h.signers.map Prod.snd).Nodup
  ordered : h.signers.Pairwise fun x y => bytesLt (utf8Raw x.1) (utf8Raw y.1) = true
  twoOfThree : h.signers ≠ [] → h.threshold = some 2 ∧ h.signers.length = 3

theorem HistoryOf.headOk {P : Platform} {n : Bytes} {c : List (Bytes × Opened)} {s : IdentityState}
    (h : HistoryOf P n c s) : s.head.Ok := by
  cases c with
  | nil => cases h.state
  | cons x c =>
    have hwf := (h.opens x (by simp)).1.wellFormed
    have hgov := verified_twoOfThree h.verified x.2 (by simp)
    rw [h.head_eq]
    cases ha : x.2.auth with
    | none =>
      refine ⟨hwf.ownerKey, ?_, ?_, ?_, ?_, ?_⟩ <;> simp [Opened.head, ha]
    | some a =>
      have hauth := hwf.auth a ha
      refine ⟨hwf.ownerKey, ?_, ?_, ?_, ?_, fun _ => ?_⟩
      · simpa [Opened.head, ha] using hauth.ids
      · simpa [Opened.head, ha] using hauth.idsNodup
      · simpa [Opened.head, ha] using hauth.keysNodup
      · simpa [Opened.head, ha] using hauth.ordered
      · simpa [Opened.head, ha] using hgov a ha

end DecentWallet
