import DecentWallet.Sanity.KotlinResolve
import DecentWallet.Sanity.Reference

/-! The Android verifier and the Python core accept the same histories and read the same state off
them. Both sides are compared with the verified history in the middle: the limits that only one of
them checks while parsing follow, for a verified history, from the rules. -/

namespace DecentWallet

open Cbor IdentityError Opened Kotlin

/-! ### What the rules bound -/

section

variable {C : Primitives}

/-- A quorum of three signers has at most three proofs, with ids of theirs. -/
theorem quorum_bounds {o : Opened} (hwf : o.WellFormed) {keys : SignerSet} (hlen : keys.length = 3)
    (hids : ∀ x ∈ keys, (utf8Raw x.1).length ≤ 256) {k : ℕ} (hq : o.Quorum C keys k) :
    o.proofs.length ≤ 3 ∧ ∀ p ∈ o.proofs, ∀ i ∈ p.1, (utf8Raw i).length ≤ 256 := by
  have hsub : o.proofs.map Prod.fst ⊆ keys.map fun x => some x.1 := by
    intro i hi
    obtain ⟨p, hp, rfl⟩ := List.mem_map.1 hi
    obtain ⟨j, key, hj, hmem, -⟩ := hq.2 p hp
    exact List.mem_map.2 ⟨_, hmem, hj.symm⟩
  constructor
  · simpa [hlen] using (hwf.proofs_nodup.subperm hsub).length_le
  · intro p hp i hi
    obtain ⟨j, key, hj, hmem, -⟩ := hq.2 p hp
    rw [hj] at hi
    cases hi
    exact hids _ hmem

theorem admits_proofs {h : Option Head} {o : Opened} (hadm : Admits C h o) (hwf : o.WellFormed)
    (hh : ∀ p ∈ h, p.signers ≠ [] → p.signers.length = 3 ∧ ∀ x ∈ p.signers, (utf8Raw x.1).length ≤ 256) :
    o.proofs.length ≤ 3 ∧ ∀ p ∈ o.proofs, ∀ i ∈ p.1, (utf8Raw i).length ≤ 256 := by
  cases hadm with
  | legacy _ hps => simp [hps]
  | genesis hauth _ _ _ hgov hq =>
    exact quorum_bounds hwf hgov.2.2 (fun x hx => ((hwf.auth _ hauth).ids x hx).2.1) hq
  | ordinary _ _ _ hv1 _ _ hq | rotate _ _ _ hv1 _ _ hq | replaceSigners _ _ _ hv1 _ _ _ _ _ hq =>
    obtain ⟨hlen, hids⟩ := hh _ rfl hv1
    exact quorum_bounds hwf hlen hids hq
  | upgrade hauth _ _ _ _ _ hps hs =>
    rw [hps]
    simpa using ((hwf.auth _ hauth).ids _ hs).2.1
  | rotateLegacy _ _ _ _ _ _ _ hps => simp [hps]

theorem verified_proofs {os : List Opened} (h : Verified C os) (hwf : ∀ o ∈ os, o.WellFormed) :
    ∀ o ∈ os, o.proofs.length ≤ 3 ∧ ∀ p ∈ o.proofs, ∀ i ∈ p.1, (utf8Raw i).length ≤ 256 := by
  have h23 := verified_twoOfThree h
  induction h with
  | anchor hadm =>
    intro o ho
    rw [List.mem_singleton.1 ho]
    exact admits_proofs hadm (hwf _ (by simp)) (by simp)
  | @link o p os hadm _ _ ih =>
    intro q hq
    rcases List.mem_cons.1 hq with rfl | hq
    · refine admits_proofs hadm (hwf _ (by simp)) fun h hh hne => ?_
      cases hh
      cases hp : p.auth with
      | none => simp [Opened.head, hp] at hne
      | some b =>
        have hlen := (h23 p (by simp) b hp).2
        have hids := ((hwf p (by simp)).auth b hp).ids
        simpa [Opened.head, hp, hlen] using fun i k hx => (hids (i, k) hx).2.1
    · exact ih (fun o ho => hwf o (by simp [List.mem_cons.1 ho])) (fun o ho => h23 o (by simp [List.mem_cons.1 ho]))
        q hq

end

/-! ### The visited envelopes -/

section

variable (P : Platform) (look : Bytes → Option Bytes)

/-- The envelopes a walk from `e` with `rem` lookups looks at, newest first. -/
def visited : ℕ → Bytes → List Bytes
  | 0, e => [e]
  | rem + 1, e => e :: match peekAuthorization P e with
    | .ok a => match (linkAuthorization a).bind fun a => look a.predecessor with
      | some b => visited rem b
      | none => []
    | .error _ => []

/-- No two different updates of these envelopes have the same SHA-256. -/
def NoCollision (es : List Bytes) : Prop :=
  ∀ x ∈ es, ∀ y ∈ es, ∀ o p, Opens P x o → Opens P y p → P.sha256 o.update = P.sha256 p.update →
    o.update = p.update

/-- The transport answers every lookup of `n` by hash as `look` does. -/
def ServesByHash {σ : Type} (A : Adapter σ) (n : Bytes) : Prop :=
  ∀ hash s, (A.transport.getIdentityEnvelopeByHash n hash s).1 = some (match look hash with
    | some b => .bytes b
    | none => .nothing)

variable {P look} {n : Bytes}

theorem visited_eq {c : List (Bytes × Opened)} {s : IdentityState} (h : HistoryOf P n c s)
    (hlink : c.IsChain (Linked fun hash b => look hash = some b)) {rem : ℕ} (hlen : c.length ≤ rem + 1) {e : Bytes}
    (he : (c.map Prod.fst).head? = some e) : visited P look rem e = c.map Prod.fst := by
  induction c generalizing rem e s with
  | nil => cases h.state
  | cons x c ih =>
    obtain rfl : x.1 = e := by simpa using he
    have hpeek := peekAuthorization_of_opens (h.opens x (by simp)).1
    have hv := h.verified
    cases c with
    | nil =>
      cases hv with
      | anchor hadm => cases rem <;> simp [visited, hpeek, hadm.of_none]
    | cons y c =>
      obtain ⟨t, ht⟩ := h.tail
      cases hv with
      | link hadm hauth _ =>
        obtain ⟨a, ha, hop, -⟩ := hadm.of_some hauth
        rw [List.isChain_cons_cons] at hlink
        obtain ⟨⟨b, hb, -, hlook⟩, hlink⟩ := hlink
        cases ha.symm.trans hb
        obtain ⟨rem, rfl⟩ : ∃ r, rem = r + 1 := ⟨rem - 1, by simp at hlen; omega⟩
        have hla : linkAuthorization (some a) = some a := by simp [linkAuthorization, Option.filter, hop]
        have hrest := ih ht hlink (by simpa using hlen) rfl
        simp [visited, hpeek, ha, hla, hlook, hrest]

/-- Without a collision the state hashes of a history are distinct. -/
theorem stateHash_nodup {c : List (Bytes × Opened)} {s : IdentityState} (h : HistoryOf P n c s)
    (hc : NoCollision P (c.map Prod.fst)) : (c.map fun x => P.sha256 x.2.update).Nodup := by
  have hseq := List.pairwise_map.1 (verified_sequence h.verified)
  rw [List.nodup_iff_pairwise_ne, List.pairwise_map]
  refine hseq.imp_of_mem fun {x y} hx hy hlt heq => ?_
  have hupd := hc x.1 (List.mem_map_of_mem hx) y.1 (List.mem_map_of_mem hy) x.2 y.2 (h.opens x hx).1
    (h.opens y hy).1 heq
  obtain ⟨u, hu, h1, -⟩ := (h.opens x hx).1.decode
  obtain ⟨v, hv, h2, -⟩ := (h.opens y hy).1.decode
  rw [hupd, hv] at hu
  cases hu
  omega

end

/-! ### Both verifiers -/

section

variable {P : Platform} (hP : CanonicalCbor P) {n : Bytes}

include hP

theorem fits_of_historyOf {c : List (Bytes × Opened)} {s : IdentityState} (h : HistoryOf P n c s)
    (hutf : utf8Decode n ≠ none) (hsize : ∀ x ∈ c, x.1.length ≤ maxEncodedBytes) :
    ∀ x ∈ c, Fits P.primitives n x.1 x.2 := by
  intro x hx
  have hmem : x.2 ∈ c.map Prod.snd := List.mem_map_of_mem hx
  have hproofs := verified_proofs h.verified (fun o ho => by
    obtain ⟨y, hy, rfl⟩ := List.mem_map.1 ho
    exact (h.opens y hy).1.wellFormed) x.2 hmem
  obtain ⟨hopens, hname⟩ := h.opens x hx
  refine ⟨((opens_iff_sealed hP).1 hopens).1, hname, hutf, hsize x hx,
    fun a ha => (verified_twoOfThree h.verified x.2 hmem a ha).2, hproofs.1, hproofs.2, fun hauth p hp => ?_⟩
  -- a legacy envelope stands in the history only where its own key signed it
  have hsigned : ∀ os, Verified P.primitives os → x.2 ∈ os →
      ∃ signature, x.2.proofs = [(none, signature)] ∧ x.2.SignedBy P.primitives x.2.ownerKey signature := by
    intro os hv
    induction hv with
    | anchor hadm => intro hm; rw [List.mem_singleton.1 hm] at hauth ⊢; exact hadm.legacy_signed hauth
    | link hadm _ _ ih =>
      intro hm
      rcases List.mem_cons.1 hm with hm | hm
      · rw [hm] at hauth ⊢; exact hadm.legacy_signed hauth
      · exact ih hm
  obtain ⟨signature, hps, hsig⟩ := hsigned _ h.verified hmem
  rw [hps, List.mem_singleton] at hp
  exact hp ▸ hsig

theorem historyOf_of_fits {c : List (Bytes × Opened)} (hfit : ∀ x ∈ c, Fits P.primitives n x.1 x.2)
    (hver : Verified P.primitives (c.map Prod.snd)) : ∃ s, HistoryOf P n c s := by
  have hopens : ∀ x ∈ c, Opens P x.1 x.2 ∧ x.2.ownerName = n := by
    intro x hx
    refine ⟨(opens_iff_sealed hP).2 ⟨(hfit x hx).sealed, fun a ha => ?_⟩, (hfit x hx).ownerName⟩
    obtain ⟨ht, hl⟩ := verified_twoOfThree hver x.2 (List.mem_map_of_mem hx) a ha
    omega
  cases c with
  | nil => cases hver
  | cons x c => exact ⟨_, hopens, hver, rfl⟩

end

/-- The fields both clients return. -/
def SameState (r : VerifiedIdentityState) (s : IdentityState) : Prop :=
  r.ownerPublicKey = s.ownerPublicKey ∧ r.sequence = s.sequence ∧ r.stateHash = s.stateHash ∧
    r.generation = s.generation ∧ r.threshold = s.threshold ∧ r.signerSet = s.signerSet ∧
    r.predecessorEnvelopes = s.predecessorEnvelopes

section

variable {P : Platform} {n : Bytes}

theorem sameState_of_historyOf {c : List (Bytes × Opened)} {s : IdentityState} {t : VerifiedState}
    (h : HistoryOf P n c s) (ht : verifiedState P.primitives c = some t) :
    SameState (publicState t (c.tail.map Prod.fst)) s := by
  have hpre := predecessorEnvelopes_eq h
  cases c with
  | nil => cases h.state
  | cons x c =>
    have hs := Option.some.inj h.state
    have ht := Option.some.inj ht
    subst hs ht
    refine ⟨rfl, rfl, rfl, ?_, ?_, rfl, hpre.symm⟩ <;>
    simp [publicState, VerifiedState.from, parsed, Opened.state, fields, Function.comp_def]

variable {σ : Type} {A : Adapter σ} {look : Bytes → Option Bytes}

theorem fetchPredecessor_ok (hlook : ServesByHash look A n) {a : Authorization} {b : Bytes} {w w' : World σ}
    (h : fetchPredecessor A n none a w = (.ok b, w')) : look a.predecessor = some b := by
  have hans := hlook a.predecessor w.state
  unfold fetchPredecessor at h
  simp only [Option.isSome_none, Bool.false_eq_true, if_false, Prog.bind_run, getIdentityEnvelopeByHash,
    hans] at h
  cases hl : look a.predecessor <;> simp [hl] at h
  rw [h.1]

theorem fetchPredecessor_served (hlook : ServesByHash look A n) {a : Authorization} {b : Bytes}
    (h : look a.predecessor = some b) (w : World σ) : ∃ w', fetchPredecessor A n none a w = (.ok b, w') := by
  have hans := hlook a.predecessor w.state
  unfold fetchPredecessor
  simp only [Option.isSome_none, Bool.false_eq_true, if_false, Prog.bind_run, Prog.pure_run,
    getIdentityEnvelopeByHash, hans, h]
  exact ⟨_, rfl⟩

end

/-- What the Python walk accepts: a verified history that `look` serves. -/
theorem parseStateWithHistory_iff {P : Platform} {σ : Type} {A : Adapter σ} {n e : Bytes}
    {look : Bytes → Option Bytes} (hlook : ServesByHash look A n) {w : World σ} {s : IdentityState} :
    (∃ w', parseStateWithHistory P A n e none w = (.ok s, w')) ↔
      ∃ c, HistoryOf P n c s ∧ c.length ≤ maxPredecessorDepth + 1 ∧ (c.map Prod.fst).head? = some e ∧
        c.IsChain (Linked fun hash b => look hash = some b) := by
  constructor
  · rintro ⟨w', h⟩
    obtain ⟨c, hc, hlen, hhead, hchain⟩ := parseStateWithHistory_sound A h
    refine ⟨c, hc, hlen, hhead, ?_⟩
    rw [List.isChain_map] at hchain
    refine hchain.imp_of_mem_imp fun x y hx _ hxy => ?_
    obtain ⟨a, hpeek, hop, w1, w2, hf⟩ := hxy
    rw [peekAuthorization_of_opens (hc.opens x hx).1] at hpeek
    exact ⟨a, Except.ok.inj hpeek, by rintro h1; simp [h1] at hop, fetchPredecessor_ok hlook hf⟩
  · rintro ⟨c, hc, hlen, hhead, hlink⟩
    have hfetch : (c.map Prod.fst).IsChain fun x y => ∀ a w, peekAuthorization P x = .ok (some a) → True →
        ∃ w', fetchPredecessor A n none a w = (.ok y, w') ∧ True := by
      rw [List.isChain_map]
      refine hlink.imp_of_mem_imp fun x y hx _ hxy a w hpeek _ => ?_
      obtain ⟨b, hb, -, hlk⟩ := hxy
      rw [peekAuthorization_of_opens (hc.opens x hx).1] at hpeek
      cases hb.symm.trans (Except.ok.inj hpeek)
      obtain ⟨w', hw'⟩ := fetchPredecessor_served hlook hlk w
      exact ⟨w', hw', trivial⟩
    obtain ⟨w', hw', -⟩ := parseStateWithHistory_complete A (I := fun _ => True) hc hlen hfetch (w := w) trivial hhead
    exact ⟨w', hw'⟩

/-- Over one store of envelopes the Android client resolves an envelope exactly where the core parses it with its
history, and to the same state. -/
theorem history_verifiers_agree (P : Platform) (hP : CanonicalCbor P) {σ W : Type} (A : Adapter σ)
    (ownerName envelope : Bytes) (look : Bytes → Option Bytes) (hlook : ServesByHash look A ownerName)
    (hname : ownerName ≠ []) (hutf : utf8Decode ownerName ≠ none)
    (hsize : ∀ b ∈ visited P look 1024 envelope, b.length ≤ 1024 * 1024)
    (htotal : ((visited P look 1024 envelope).map List.length).sum ≤ 4 * 1024 * 1024)
    (hcoll : NoCollision P (visited P look 1024 envelope)) (w : World σ) (v : W) :
    ((∃ r v', resolve P.primitives (pureLookup look) ownerName envelope v = (.ok r, v')) ↔
      ∃ s w', parseStateWithHistory P A ownerName envelope none w = (.ok s, w')) ∧
    ∀ r v' s w', resolve P.primitives (pureLookup look) ownerName envelope v = (.ok r, v') →
      parseStateWithHistory P A ownerName envelope none w = (.ok s, w') → SameState r s := by
  -- a history the core accepts, as the Android client returns it
  have hpy : ∀ s w', parseStateWithHistory P A ownerName envelope none w = (.ok s, w') →
      ∃ r v', resolve P.primitives (pureLookup look) ownerName envelope v = (.ok r, v') ∧ SameState r s := by
    intro s w' h
    obtain ⟨c, hc, hlen, hhead, hlink⟩ := (parseStateWithHistory_iff hlook).1 ⟨w', h⟩
    have hvis : visited P look 1024 envelope = c.map Prod.fst := visited_eq hc hlink hlen hhead
    rw [hvis] at hsize htotal hcoll
    have hfit := fits_of_historyOf hP hc hutf fun x hx => hsize x.1 (List.mem_map_of_mem hx)
    obtain ⟨t, ht⟩ : ∃ t, verifiedState P.primitives c = some t := by
      cases c with
      | nil => cases hc.state
      | cons x c => exact ⟨_, rfl⟩
    have hsum : (c.map fun x => x.1.length).sum ≤ maxHistoryTotalBytes := by
      rw [List.map_map] at htotal; exact htotal
    have hserves : c.IsChain (Linked (Serves (W := W) (pureLookup look))) :=
      hlink.imp fun x y hxy => hxy.imp fun a ha => ⟨ha.1, ha.2.1, serves_pureLookup ha.2.2⟩
    obtain ⟨v', hv'⟩ := resolve_complete hname hfit hc.verified hserves hlen (stateHash_nodup hc hcoll) hsum hhead ht v
    exact ⟨_, v', hv', sameState_of_historyOf hc ht⟩
  refine ⟨⟨?_, ?_⟩, ?_⟩
  · rintro ⟨r, v', h⟩
    obtain ⟨c, t, hhead, hfit, hver, hlen, hlink, -, -, -⟩ := resolve_history h
    obtain ⟨s, hs⟩ := historyOf_of_fits hP hfit hver
    have hlink : c.IsChain (Linked fun hash b => look hash = some b) := by
      refine hlink.imp fun x y hxy => ?_
      obtain ⟨a, ha, hop, _, _, hl⟩ := hxy
      simp only [pureLookup, Prod.mk.injEq, Except.ok.injEq] at hl
      exact ⟨a, ha, hop, hl.1⟩
    obtain ⟨w', hw'⟩ := (parseStateWithHistory_iff hlook (w := w)).2 ⟨c, hs, hlen, hhead, hlink⟩
    exact ⟨s, w', hw'⟩
  · rintro ⟨s, w', h⟩
    obtain ⟨r, v', hr, -⟩ := hpy s w' h
    exact ⟨r, v', hr⟩
  · intro r v' s w' hr hs
    obtain ⟨r', _, hr', hsame⟩ := hpy s w' hs
    rw [hr'] at hr
    simp only [Prod.mk.injEq, Except.ok.injEq] at hr
    exact hr.1 ▸ hsame

namespace Vector

/-- The registry of the test vector, asked by hash. -/
def look (hash : Bytes) : Option Bytes := if hash = legacyHash then some legacyEnvelope else none

theorem legacy_sealed : legacy.Sealed legacyEnvelope := ⟨⟨rfl, by simp [legacy], by decide, by decide⟩,
  fun _ => ⟨_, rfl⟩, by decide +kernel, by decide +kernel, rfl, rfl⟩

theorem rotation_sealed : rotation.Sealed rotationEnvelope := by
  refine ⟨⟨rfl, ?_, by decide, by decide⟩, by simp [rotation], by decide +kernel, by decide +kernel, rfl, rfl⟩
  rintro a ⟨⟩
  exact ⟨by decide, by decide, by decide, by decide, by decide, rfl⟩

/-- The two updates of the vector have different hashes. -/
theorem noCollision : NoCollision platform [rotationEnvelope, legacyEnvelope] := by
  have hP := referencePlatform_canonicalCbor sha256 verify
  have hupdate : ∀ x ∈ [rotationEnvelope, legacyEnvelope], ∀ o, Opens platform x o →
      o.update = rotationUpdate ∨ o.update = legacyUpdate := by
    intro x hx o ho
    have ho := ((opens_iff_sealed hP).1 ho).1
    simp only [List.mem_cons, List.not_mem_nil, or_false] at hx
    rcases hx with rfl | rfl
    · exact Or.inl (by rw [ho.unique rotation_sealed]; rfl)
    · exact Or.inr (by rw [ho.unique legacy_sealed]; rfl)
  have hne : sha256 rotationUpdate ≠ sha256 legacyUpdate := by decide +kernel
  intro x hx y hy o p ho hp h
  have h : sha256 o.update = sha256 p.update := h
  rcases hupdate x hx o ho with h1 | h1 <;> rcases hupdate y hy p hp with h2 | h2 <;> rw [h1, h2] at h ⊢
  · exact absurd h hne
  · exact absurd h.symm hne

end Vector

theorem history_verifiers_agree_vector :
    (∃ r v', resolve Vector.platform.primitives (pureLookup Vector.look) Vector.ownerName Vector.rotationEnvelope () =
      (.ok r, v')) ∧
    ∃ s w', parseStateWithHistory Vector.platform Vector.adapter Vector.ownerName Vector.rotationEnvelope none
      Vector.world = (.ok s, w') := by
  have hvis : visited Vector.platform Vector.look 1024 Vector.rotationEnvelope =
      [Vector.rotationEnvelope, Vector.legacyEnvelope] := by decide +kernel
  have hpy : (parseStateWithHistory Vector.platform Vector.adapter Vector.ownerName Vector.rotationEnvelope none
      Vector.world).1 = .ok Vector.state := by decide +kernel
  have hlook : ServesByHash Vector.look Vector.adapter Vector.ownerName := fun hash s => by
    simp only [Vector.adapter, Vector.transport, Vector.look, true_and]
    split_ifs <;> rfl
  have h := history_verifiers_agree Vector.platform (referencePlatform_canonicalCbor _ _) (W := Unit) Vector.adapter
    Vector.ownerName Vector.rotationEnvelope Vector.look hlook (by decide) (by decide) (by rw [hvis]; decide +kernel)
    (by rw [hvis]; decide +kernel) (by rw [hvis]; exact Vector.noCollision) Vector.world ()
  have hs : ∃ s w', parseStateWithHistory Vector.platform Vector.adapter Vector.ownerName Vector.rotationEnvelope none
      Vector.world = (.ok s, w') := ⟨_, _, Prod.ext hpy rfl⟩
  exact ⟨h.1.2 hs, hs⟩

end DecentWallet
