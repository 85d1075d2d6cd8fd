import DecentWallet.Sanity.History
import DecentWallet.Sanity.Reference

/-! Whatever `read_state` returns rests on a chain of signed envelopes down to an anchor, for any
transport. The 2-of-3 shape of a version-1 state is not checked at operations 2 and 5; it is
inherited along the chain. -/

namespace DecentWallet

open Cbor IdentityError Opened

variable (C : Primitives)

/-- At least two proofs, by two different signers of `signers`, are valid. -/
def TwoSigners (o : Opened) (signers : SignerSet) : Prop :=
  ∃ i j k l s t, (some i, s) ∈ o.proofs ∧ (some j, t) ∈ o.proofs ∧ i ≠ j ∧ k ≠ l ∧
    (i, k) ∈ signers ∧ (j, l) ∈ signers ∧ o.SignedBy C k s ∧ o.SignedBy C l t

/-- Exactly one proof, and it is valid under `key`. -/
def OneSignature (o : Opened) (key : Bytes) : Prop := ∃ i s, o.proofs = [(i, s)] ∧ o.SignedBy C key s

/-- A legacy envelope signed by its own owner key, or a genesis with two valid proofs. -/
def IsAnchor (o : Opened) : Prop :=
  (o.auth = none ∧ OneSignature C o o.ownerKey) ∨
    ∃ a, o.auth = some a ∧ a.operation = 1 ∧ o.sequence = 1 ∧ TwoSigners C o a.signers

/-- Two of three signers, with distinct ids and keys, in the order of their UTF-8 ids. -/
def TwoOfThree (a : Authorization) : Prop :=
  a.threshold = 2 ∧ a.signers.length = 3 ∧ (a.signers.map Prod.fst).Nodup ∧ (a.signers.map Prod.snd).Nodup ∧
    a.signers.Pairwise fun x y => bytesLt (utf8Raw x.1) (utf8Raw y.1) = true

/-- What holds between an update `o` and the state `p` it stands on. -/
structure IsLink (o p : Opened) (a : Authorization) : Prop where
  authorization : o.auth = some a
  operation : a.operation ∈ [2, 3, 4, 5]
  predecessor : a.predecessor = C.sha256 p.update
  sequence : o.sequence = p.sequence + 1
  ownerKey : o.ownerKey ≠ p.ownerKey ↔ a.operation = 5
  quorum : ∀ b ∈ p.auth, a.operation ∈ [2, 3, 5] → TwoSigners C o b.signers
  single : a.operation = 4 ∨ (a.operation = 5 ∧ p.auth = none) → OneSignature C o p.ownerKey
  generation : ∀ b ∈ p.auth, b.generation ≤ a.generation

/-- The update of each envelope stands on the state of the next. -/
def IsHistory : List Opened → Prop
  | [] => False
  | [o] => IsAnchor C o
  | o :: p :: os => (∃ a, IsLink C o p a) ∧ IsHistory (p :: os)

variable {C}

/-! ### From the rules -/

theorem twoSigners_of_quorum {o : Opened} (hwf : o.WellFormed) {signers : SignerSet}
    (hkeys : (signers.map Prod.snd).Nodup) {n : ℕ} (hn : 2 ≤ n) (h : o.Quorum C signers n) :
    TwoSigners C o signers := by
  obtain ⟨hlen, hall⟩ := h
  rcases hp : o.proofs with _ | ⟨x, _ | ⟨y, ps⟩⟩
  · simp [hp] at hlen; omega
  · simp [hp] at hlen; omega
  · have hord := hwf.ordered
    rw [hp, List.pairwise_cons] at hord
    have hlt := hord.1 y (by simp)
    obtain ⟨i, k, hi, hik, hs⟩ := hall x (by simp [hp])
    obtain ⟨j, l, hj, hjl, ht⟩ := hall y (by simp [hp])
    have hij : i ≠ j := by
      rintro rfl
      exact ne_of_bytesLt hlt (by simp [proofKey, hi, hj])
    have hkl : k ≠ l := fun he => by
      have := List.inj_on_of_nodup_map hkeys hik hjl he
      exact hij (congrArg Prod.fst this)
    exact ⟨i, j, k, l, x.2, y.2, by simp [hp, ← hi], by simp [hp, ← hj], hij, hkl, hik, hjl, hs, ht⟩

theorem signers_eq_nil_iff {o : Opened} (h3 : ∀ a ∈ o.auth, a.threshold = 2 ∧ a.signers.length = 3) :
    (o.head C).signers = [] ↔ o.auth = none := by
  cases ha : o.auth with
  | none => simp [Opened.head, ha]
  | some a =>
    have := (h3 a ha).2
    simp only [Opened.head, ha, Option.map_some, Option.getD_some, reduceCtorEq, iff_false]
    intro h
    rw [h] at this
    simp at this

theorem isAnchor_of_admits {o : Opened} (hwf : o.WellFormed) (h : Admits C none o) : IsAnchor C o := by
  cases h with
  | legacy hauth hproofs hsig => exact Or.inl ⟨hauth, _, _, hproofs, hsig⟩
  | genesis hauth hop hseq _ _ hq =>
    exact Or.inr ⟨_, hauth, hop, hseq, twoSigners_of_quorum hwf (hwf.auth _ hauth).keysNodup le_rfl hq⟩

theorem isLink_of_admits {o p : Opened} (hwo : o.WellFormed) (hwp : p.WellFormed)
    (h23 : ∀ b ∈ p.auth, b.threshold = 2 ∧ b.signers.length = 3) (hauth : o.auth ≠ none)
    (h : Admits C (some (p.head C)) o) : ∃ a, IsLink C o p a := by
  obtain ⟨a, ha, hmem, hpred, hseq⟩ := h.of_some hauth
  have hnil : (p.head C).signers = [] ↔ p.auth = none := signers_eq_nil_iff h23
  have hquorum : ∀ b, p.auth = some b → ∀ n, 2 ≤ n → o.Quorum C (p.head C).signers n →
      TwoSigners C o b.signers := by
    intro b hb n hn hq
    refine twoSigners_of_quorum hwo (hwp.auth b hb).keysNodup hn ?_
    simpa [Opened.head, hb] using hq
  -- the threshold of a version-1 predecessor is 2
  have hthr : ∀ b, p.auth = some b → some a.threshold = (p.head C).threshold → 2 ≤ a.threshold := by
    intro b hb ht
    have := (h23 b hb).1
    simp [Opened.head, hb] at ht
    omega
  have hgen : some a.generation = (p.head C).generation → ∀ b ∈ p.auth, b.generation ≤ a.generation := by
    intro hg b hb
    have hb : p.auth = some b := hb
    simp [Opened.head, hb] at hg
    omega
  have hnone : p.auth = none → ∀ b ∈ p.auth, b.generation ≤ a.generation := fun h b hb => by
    rw [h] at hb; cases hb
  refine ⟨a, ?_⟩
  cases h with
  | legacy h => exact absurd h hauth
  | ordinary h hop _ hv1 hkey hgov hq =>
    cases ha.symm.trans h
    have hv : p.auth ≠ none := fun h => hv1 (hnil.2 h)
    exact ⟨ha, hmem, hpred.symm, hseq, by simp [hop]; exact hkey,
      fun b hb _ => hquorum b hb _ (hthr b hb hgov.2.1) hq, by simp [hop], hgen hgov.1⟩
  | replaceSigners h hop _ hv1 hkey hg hthr' _ _ hq =>
    cases ha.symm.trans h
    refine ⟨ha, hmem, hpred.symm, hseq, by simp [hop]; exact hkey, fun b hb _ => hquorum b hb 2 le_rfl hq,
      by simp [hop], fun b hb => ?_⟩
    have hb : p.auth = some b := hb
    simp [Opened.head, hb] at hg
    omega
  | upgrade h hop _ hl hkey hgov hproofs _ hsig =>
    cases ha.symm.trans h
    exact ⟨ha, hmem, hpred.symm, hseq, by simp [hop]; exact hkey, by simp [hop],
      fun _ => ⟨_, _, hproofs, (show o.ownerKey = p.ownerKey from hkey) ▸ hsig⟩, hnone (hnil.1 hl)⟩
  | rotate h hop _ hv1 hkey hgov hq =>
    cases ha.symm.trans h
    have hv : p.auth ≠ none := fun h => hv1 (hnil.2 h)
    exact ⟨ha, hmem, hpred.symm, hseq, by simp [hop]; exact hkey,
      fun b hb _ => hquorum b hb _ (hthr b hb hgov.2.1) hq, by simp [hop, hv], hgen hgov.1⟩
  | rotateLegacy h hop _ hl hkey _ _ hproofs hsig =>
    cases ha.symm.trans h
    have hp := hnil.1 hl
    exact ⟨ha, hmem, hpred.symm, hseq, by simp [hop]; exact hkey, by simp [hp],
      fun _ => ⟨_, _, hproofs, hsig⟩, hnone hp⟩

theorem isHistory_of_verified {os : List Opened} (h : Verified C os) (hwf : ∀ o ∈ os, o.WellFormed) :
    IsHistory C os := by
  have h23 := verified_twoOfThree h
  induction h with
  | anchor hadm => exact isAnchor_of_admits (hwf _ (by simp)) hadm
  | link hadm hauth ht ih =>
    refine ⟨isLink_of_admits (hwf _ (by simp)) (hwf _ (by simp)) (h23 _ (by simp)) hauth hadm, ?_⟩
    exact ih (fun o ho => hwf o (by simp [List.mem_cons.1 ho]))
      (fun o ho => h23 o (by simp [List.mem_cons.1 ho]))

/-! ### `read_state` -/

/-- The fields of a returned state that its newest envelope decides. -/
def StateOf (P : Platform) (s : IdentityState) (e : Bytes) (o : Opened) : Prop :=
  s.ownerName = o.ownerName ∧ s.ownerPublicKey = o.ownerKey ∧ s.sequence = o.sequence ∧
    s.signedUpdateBytes = o.update ∧ s.envelopeBytes = e ∧ s.stateHash = P.sha256 o.update ∧
    s.generation = o.auth.map Authorization.generation ∧ s.threshold = o.auth.map Authorization.threshold ∧
    s.signerSet = (o.auth.map Authorization.signers).getD []

/-- A state that is read is that of an envelope the transport returned, at the head of a history of that owner in which
every step is authorised by the one before and every version-1 state has two-of-three signers. -/
theorem read_state_history_sound (P : Platform) {σ : Type} (A : Adapter σ) (ownerName : Bytes)
    (w w' : World σ) (s : IdentityState) (h : readState P A ownerName w = (.ok (some s), w')) :
    ∃ (e : Bytes) (o : Opened) (c : List (Bytes × Opened)),
      (A.transport.getIdentityEnvelope ownerName w.state).1 = some (.bytes e) ∧
      StateOf P s e o ∧ ((e, o) :: c).length ≤ 1025 ∧
      (∀ x ∈ (e, o) :: c, Opens P x.1 x.2 ∧ x.2.ownerName = ownerName) ∧
      IsHistory P.primitives (((e, o) :: c).map Prod.snd) ∧
      ∀ x ∈ (e, o) :: c, ∀ a ∈ x.2.auth, TwoOfThree a := by
  obtain ⟨e, w1, he, hp⟩ := readState_some A h
  obtain ⟨c, hc, hlen, hhead, -⟩ := parseStateWithHistory_sound A hp
  rcases c with _ | ⟨⟨e', o⟩, c⟩
  · cases hc.state
  obtain rfl : e' = e := by simpa using hhead
  have hwf : ∀ x ∈ (e', o) :: c, x.2.WellFormed := fun x hx => (hc.opens x hx).1.wellFormed
  refine ⟨e', o, c, he, ?_, hlen, hc.opens, isHistory_of_verified hc.verified ?_, fun x hx a ha => ?_⟩
  · have hs := Option.some.inj hc.state
    subst hs
    exact ⟨rfl, rfl, rfl, rfl, rfl, rfl, rfl, rfl, rfl⟩
  · intro q hq
    obtain ⟨x, hx, rfl⟩ := List.mem_map.1 hq
    exact hwf x hx
  · have hw := (hwf x hx).auth a ha
    obtain ⟨ht, hl⟩ := verified_twoOfThree hc.verified x.2 (List.mem_map_of_mem hx) a ha
    exact ⟨ht, hl, hw.idsNodup, hw.keysNodup, hw.ordered⟩

theorem read_state_history_sound_vector :
    (readState Vector.platform Vector.adapter Vector.ownerName Vector.world).1 = .ok (some Vector.state) ∧
      ∃ c : List (Bytes × Opened),
        c.length ≤ 1025 ∧ IsHistory Vector.platform.primitives (c.map Prod.snd) := by
  have h : (readState Vector.platform Vector.adapter Vector.ownerName Vector.world).1 =
      .ok (some Vector.state) := by decide +kernel
  obtain ⟨e, o, c, -, -, hlen, -, hist, -⟩ := read_state_history_sound Vector.platform Vector.adapter
    Vector.ownerName Vector.world _ Vector.state (Prod.ext h rfl)
  exact ⟨h, _, hlen, hist⟩

end DecentWallet
