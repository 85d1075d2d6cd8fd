import DecentWallet.Sanity.Finalizing

/-! The rules for authors and the rules for verifiers are the same: a draft can be made exactly where some proofs carry
its update, a bundle with such proofs is finalized, and a submission that passed its checks can be made into a draft. -/

namespace DecentWallet

open Cbor IdentityError Opened

variable {P : Platform}

/-- Every key has a signature on every message. -/
def Signable (P : Platform) : Prop :=
  ∀ key message : Bytes, key.length = keyLength → ∃ signature, signature.length = signatureLength ∧
    P.verify key message signature = true

/-! ### Envelopes of an update -/

section

variable {update name key : Bytes} {seq : ℕ} {a : Authorization} {proofs : List ProofEntry}

/-- Some proofs make the parser accept the update on that state, under the name `n`. -/
def Acceptable (P : Platform) (n update : Bytes) (previous : Option IdentityState) : Prop :=
  ∃ (proofs : List ProofEntry) (e : Bytes) (s : IdentityState),
    P.dumps (dict [.int 1, .bytes update, .array (proofs.map proofValue)]) = some e ∧
      parseIdentityEnvelope P n e previous = .ok s ∧ s.signedUpdateBytes = update

/-! ### Proofs that carry a proposal -/

/-- All signers of a list sign. -/
theorem exists_quorum (hsign : Signable P) {signers : SignerSet}
    (hids : ∀ e ∈ signers, ValidId e.1 ∧ (utf8Raw e.1).length ≤ 256 ∧ e.2.length = keyLength)
    (hordered : signers.Pairwise fun x y => bytesLt (utf8Raw x.1) (utf8Raw y.1) = true) (o : Opened) :
    ∃ proofs, ProofsOk proofs ∧ proofs.length = signers.length ∧
      ∀ p ∈ proofs, ∃ i k, p.1 = some i ∧ (i, k) ∈ signers ∧ o.SignedBy P.primitives k p.2 := by
  choose signature hlength hverify using fun key => hsign key (P.sha256 o.update)
  let sign (e : Str × Bytes) : ProofEntry := (some e.1, if h : e.2.length = keyLength then signature e.2 h else [])
  have hsig : ∀ e ∈ signers, (sign e).2.length = signatureLength ∧ o.SignedBy P.primitives e.2 (sign e).2 := by
    intro e he
    simp only [sign, dif_pos (hids e he).2.2]
    exact ⟨hlength _ _, hverify _ _⟩
  refine ⟨signers.map sign, ⟨fun p hp => ?_, fun p hp i hi => ?_, ?_⟩, List.length_map _, fun p hp => ?_⟩
  · obtain ⟨e, he, rfl⟩ := List.mem_map.1 hp
    refine ⟨(hsig e he).1, fun i hi => ?_⟩
    cases hi
    exact (hids e he).1
  · obtain ⟨e, he, rfl⟩ := List.mem_map.1 hp
    cases hi
    exact (hids e he).2.1
  · exact List.pairwise_map.2 hordered
  · obtain ⟨e, he, rfl⟩ := List.mem_map.1 hp
    exact ⟨e.1, e.2, rfl, he, (hsig e he).2⟩

/-- The proofs a proposal needs can be made. -/
theorem exists_sufficient (hsign : Signable P) (update name : Bytes) {prev : Option Head} (hprev : ∀ h ∈ prev, h.Ok)
    (ha : a.WellFormed) (hkey : key.length = keyLength) (hprop : Proposes prev key seq a) :
    ∃ proofs, ProofsOk proofs ∧ proofs.length ≤ 3 ∧
      Sufficient P.primitives prev ⟨update, name, key, seq, some a, proofs⟩ a := by
  -- the signers of the state before, all of them
  have hthr : a.threshold = 2 := hprop.threshold fun g hg hv1 => ((hprev g hg).twoOfThree hv1).1
  have hstate : ∀ h, prev = some h → a.operation ∈ [2, 3, 5] → h.signers ≠ [] →
      ∃ proofs, ProofsOk proofs ∧ proofs.length ≤ 3 ∧
        Sufficient P.primitives prev ⟨update, name, key, seq, some a, proofs⟩ a := by
    intro h hh hop hv1
    subst hh
    have hok := hprev h rfl
    have hauthorising : authorising (some h) a = h.signers := by simp only [authorising, if_pos hop]; rfl
    obtain ⟨proofs, hproofs, hlen, hall⟩ := exists_quorum hsign hok.ids hok.ordered ⟨update, name, key, seq, some a, []⟩
    have hthree := (hok.twoOfThree hv1).2
    refine ⟨proofs, hproofs, by omega, .quorum (by rintro h4; simp [h4] at hop) (by simp [LegacyRotation, hv1]) ?_⟩
    rw [hauthorising, hthr]
    exact ⟨by simp only; omega, hall⟩
  have hsingle : ∀ i : Option Str, (∀ j ∈ i, ValidId j ∧ (utf8Raw j).length ≤ 256) → ∀ k : Bytes,
      k.length = keyLength → ∃ signature, ProofsOk [(i, signature)] ∧
      P.verify k (P.sha256 update) signature = true := by
    intro i hi k hk
    obtain ⟨signature, hlen, hver⟩ := hsign k (P.sha256 update) hk
    refine ⟨signature, ⟨?_, ?_, by simp⟩, hver⟩
    · simpa using ⟨hlen, fun j hj => (hi j hj).1⟩
    · simpa using fun j hj => (hi j hj).2
  cases hprop with
  | genesis hop hseq hpred hgov =>
    have hauthorising : authorising none a = a.signers := by simp [authorising, hop]
    obtain ⟨proofs, hproofs, hlen, hall⟩ := exists_quorum hsign ha.ids ha.ordered ⟨update, name, key, seq, some a, []⟩
    have hthree := hgov.2.2
    refine ⟨proofs, hproofs, by omega, .quorum (by omega) (by simp [LegacyRotation]) ?_⟩
    rw [hauthorising, hgov.2.1]
    exact ⟨by simp only; omega, hall⟩
  | ordinary hop _ _ hv1 => exact hstate _ rfl (by simp [hop]) hv1
  | replaceSigners hop _ _ hv1 => exact hstate _ rfl (by simp [hop]) hv1
  | rotate hop _ _ hv1 => exact hstate _ rfl (by simp [hop]) hv1
  | upgrade hop _ _ _ _ _ hin =>
    obtain ⟨⟨i, k⟩, hmem, rfl⟩ := List.mem_map.1 hin
    have hid := ha.ids _ hmem
    obtain ⟨signature, hok, hver⟩ := hsingle (some i) (by simpa using ⟨hid.1, hid.2.1⟩) k hkey
    exact ⟨_, hok, by simp, .upgrade hop rfl hmem hver⟩
  | rotateLegacy hop _ _ hlegacy =>
    obtain ⟨signature, hok, hver⟩ := hsingle none (by simp) _ (hprev _ rfl).ownerKey
    exact ⟨_, hok, by simp, .rotateLegacy hop rfl hlegacy rfl hver⟩

/-- The parser accepts an update on a verified state for some proofs exactly where it may be proposed there. -/
theorem acceptable_iff (hP : CborCodec P) (hsign : Signable P) {previous : Option IdentityState}
    (hprev : ∀ s ∈ previous, ∃ c, HistoryOf P name c s) (h : UpdateOf P update name key seq a)
    (hsize : update.length < 2 ^ 64) :
    Acceptable P name update previous ↔ Proposes (previous.map IdentityState.head) key seq a := by
  have hok : ∀ s ∈ previous, PreviousOk name s := by
    intro s hs
    obtain ⟨c, hc⟩ := hprev s hs
    exact hc.previousOk
  refine ⟨fun hacc => ?_, fun hprop => ?_⟩
  · obtain ⟨proofs, e, s, -, hparse, hs⟩ := hacc
    obtain ⟨o, hopens, hname, hadm, rfl⟩ := (parseIdentityEnvelope_ok P hok).1 hparse
    obtain rfl : o.update = update := hs
    obtain ⟨u, hu, -, hkey, rfl, ha⟩ := h.decode
    obtain ⟨u', hu', hseq, hauth, -, hkey'⟩ := hopens.decode
    cases hu.symm.trans hu'
    have hkey : o.ownerKey = key := by
      rw [hkey] at hkey'
      exact (Value.bytes.inj (Option.some.inj hkey')).symm
    obtain ⟨hprop, -⟩ := (admits_iff (hauth.symm.trans ha)).1 hadm
    rw [hkey, ← hseq] at hprop
    exact hprop
  · have hheads : ∀ g ∈ previous.map IdentityState.head, g.Ok := by
      intro g hg
      obtain ⟨s, hs, rfl⟩ := Option.map_eq_some_iff.1 hg
      obtain ⟨c, hc⟩ := hprev s hs
      exact hc.headOk
    obtain ⟨proofs, hproofs, hfew, hsuff⟩ := exists_sufficient hsign update name hheads h.wellFormed h.key hprop
    obtain ⟨e, he, -, hopens⟩ := h.opens hP hsize hproofs (by omega)
    have hadm := (admits_iff rfl).2 ⟨hprop, hsuff⟩
    exact ⟨proofs, e, _, he, (parseIdentityEnvelope_ok P hok).2 ⟨_, hopens, rfl, hadm, rfl⟩, rfl⟩

/-! ### Drafts -/

/-- The previous state of a draft is the state whose envelope and history it was given. -/
theorem parsePreviousStateChain_iff {previous : Option IdentityState} (hprev : ∀ s ∈ previous, ReadBack P s)
    (r : Option IdentityState) :
    parsePreviousStateChain P name (previous.map IdentityState.envelopeBytes) (predecessorsOf previous) = .ok r ↔
      (∀ s ∈ previous, s.ownerName = name) ∧ r = previous := by
  cases previous with
  | none =>
    simp only [parsePreviousStateChain, predecessorsOf, Option.map_none, bind_eq_ok, pure_eq_ok]
    simp [eq_comm]
  | some s =>
    obtain ⟨x, c, hc, henvelope, hhistory, -⟩ := (hprev s rfl).history
    have hcomplete := parsePreviousStateChain_complete hc
    rw [henvelope, hhistory] at hcomplete
    simp only [predecessorsOf, Option.map_some, Option.getD_some, Option.mem_def, Option.some.injEq, forall_eq']
    refine ⟨fun h => ?_, fun h => ?_⟩
    · -- under another name the newest envelope is refused
      have hname : s.ownerName = name := by
        simp only [parsePreviousStateChain, bind_eq_ok, pure_eq_ok] at h
        obtain ⟨q, hq, t, ht, rfl⟩ := h
        have hq' : ∀ p ∈ q, ∃ c, HistoryOf P name c p := by
          cases hist : s.predecessorEnvelopes with
          | nil =>
            rw [hist] at hq
            cases hq
            simp
          | cons y l =>
            rw [hist, List.reverse_cons, List.foldlM_append] at hq
            have hchain : parsePreviousStateChain P name (some y) l = .ok q := by
              simpa [parsePreviousStateChain] using hq
            exact parsePreviousStateChain_historyOf hchain
        have hok : ∀ p ∈ q, PreviousOk name p := by
          intro p hp
          obtain ⟨c, hc⟩ := hq' p hp
          exact hc.previousOk
        obtain ⟨o, hopens, hname, -⟩ := (parseIdentityEnvelope_ok P hok).1 ht
        obtain ⟨hopens', hname'⟩ := hc.opens x (by simp)
        rw [← hname, ← hname']
        exact Opens.name_unique (henvelope ▸ hopens') hopens
      subst hname
      exact ⟨rfl, Except.ok.inj (h.symm.trans hcomplete)⟩
    · obtain ⟨rfl, rfl⟩ := h
      exact hcomplete

/-- A draft of the update on a state that was read can be made exactly where the update may be proposed there. -/
theorem draft_iff_proposes {previous : Option IdentityState} (hprev : ∀ s ∈ previous, ReadBack P s)
    (h : UpdateOf P update name key seq a) :
    (∃ d : IdentityDraft P, IdentityDraft.make update (previous.map IdentityState.envelopeBytes)
    (predecessorsOf previous) =
      .ok d) ↔ (∀ s ∈ previous, s.ownerName = name) ∧ Proposes (previous.map IdentityState.head) key seq a := by
  obtain ⟨u, hu, hname, hkey, rfl, ha⟩ := h.decode
  have hdepth : (predecessorsOf previous).length ≤ maxPredecessorDepth := by
    cases previous with
    | none => simp [predecessorsOf]
    | some s =>
      obtain ⟨x, c, -, -, hhistory, hlen⟩ := (hprev s rfl).history
      simpa [predecessorsOf, ← hhistory] using hlen
  have hcontents : (∃ d : IdentityDraft P, IdentityDraft.make update (previous.map IdentityState.envelopeBytes)
      (predecessorsOf previous) = .ok d) ↔ ∃ c, draftContents P update (previous.map IdentityState.envelopeBytes)
        (predecessorsOf previous) = .ok c := by
    refine ⟨fun hd => ?_, fun hc => ?_⟩
    · obtain ⟨d, hd⟩ := hd
      unfold IdentityDraft.make at hd
      split at hd
      · exact ⟨_, by assumption⟩
      · cases hd
    · obtain ⟨c, hc⟩ := hc
      refine ⟨⟨update, _, _, c, hc⟩, ?_⟩
      unfold IdentityDraft.make
      split
      · rename_i c' hc'
        cases hc.symm.trans hc'
        rfl
      · rename_i e he
        cases hc.symm.trans he
  rw [hcontents]
  simp only [draftContents, bind_eq_ok, reject_eq_ok, item_ok, requireBytes_ok, pure_eq_ok, not_or, not_not, not_lt,
    Option.mem_def, Option.some.injEq, forall_eq']
  refine ⟨fun hc => ?_, fun hc => ?_⟩
  · obtain ⟨c, u', hu', -, -, v, hv, m, ⟨rfl, -⟩, m', hm', v2, hv2, k, ⟨rfl, -⟩, r, hr, _, ht, -⟩ := hc
    cases hu.symm.trans hu'
    obtain rfl := validateOwnerName_eq hm'
    cases hname.symm.trans hv
    cases hkey.symm.trans hv2
    obtain ⟨hnames, rfl⟩ := (parsePreviousStateChain_iff hprev r).1 hr
    rw [ha] at ht
    exact ⟨hnames, (validateDraftTransition_ok.1 ht).2⟩
  · obtain ⟨hnames, hprop⟩ := hc
    have htransition : validateDraftTransition name key u.sequence u.authorization previous = .ok () := by
      rw [ha]
      exact validateDraftTransition_ok.2 ⟨fun s hs => (hnames s hs).symm, hprop⟩
    exact ⟨_, u, hu, (), ⟨decodeSignedUpdate_payload P hu, hdepth⟩, _, hname, name, ⟨rfl, by simp⟩, name, h.name, _,
      hkey, key, ⟨rfl, h.key⟩, previous, (parsePreviousStateChain_iff hprev previous).2 ⟨hnames, rfl⟩, (), htransition,
      rfl⟩

/-- What a draft of the update holds. -/
theorem draft_parts {previous : Option IdentityState} (hprev : ∀ s ∈ previous, ReadBack P s)
    (h : UpdateOf P update name key seq a) {d : IdentityDraft P}
    (hd : IdentityDraft.make update (previous.map IdentityState.envelopeBytes) (predecessorsOf previous) = .ok d) :
    d.signedUpdateBytes = update ∧ d.ownerPublicKey = key ∧ d.authorization = some a ∧ d.previousState = previous := by
  obtain ⟨rfl, henvelope, hhistory⟩ := IdentityDraft.make_fields hd
  obtain ⟨u, hu, -, hkey, -, -, hauth, hdepth, hvalid, hchain, -⟩ := d.contents_spec
  obtain ⟨u', hu', -, hkey', -, ha⟩ := h.decode
  cases hu.symm.trans hu'
  rw [henvelope, hhistory] at hchain
  exact ⟨rfl, Value.bytes.inj (Option.some.inj (hkey.symm.trans hkey')), hauth.symm.trans ha,
    ((parsePreviousStateChain_iff hprev _).1 hchain).2⟩

/-! ### Names -/

/-- An update is accepted only under its own name. -/
theorem Acceptable.name_eq {n : Bytes} {previous : Option IdentityState} (h : UpdateOf P update name key seq a)
    (hprev : ∀ s ∈ previous, PreviousOk n s) (hacc : Acceptable P n update previous) : name = n := by
  obtain ⟨proofs, e, s, -, hparse, hs⟩ := hacc
  obtain ⟨o, hopens, rfl, -, rfl⟩ := (parseIdentityEnvelope_ok P hprev).1 hparse
  obtain rfl : o.update = update := hs
  obtain ⟨u, hu, hname, -⟩ := h.decode
  obtain ⟨u', hu', -, -, hname', -⟩ := hopens.decode
  cases hu.symm.trans hu'
  exact Value.bytes.inj (Option.some.inj (hname.symm.trans hname'))

/-- A draft can be made of an update on a state that was read exactly where some proofs carry it there. -/
theorem draft_iff_acceptable (hP : CborCodec P) (hsign : Signable P) {previous : Option IdentityState}
    (hprev : ∀ s ∈ previous, ReadBack P s) (h : UpdateOf P update name key seq a) (hsize : update.length < 2 ^ 64) :
    (∃ d : IdentityDraft P, IdentityDraft.make update (previous.map IdentityState.envelopeBytes)
    (predecessorsOf previous) =
      .ok d) ↔ Acceptable P ((previous.map IdentityState.ownerName).getD name) update previous := by
  rw [draft_iff_proposes hprev h]
  have hhistory : ∀ s ∈ previous, ∃ c, HistoryOf P s.ownerName c s := by
    intro s hs
    obtain ⟨x, c, hc, -⟩ := (hprev s hs).history
    exact ⟨_, hc⟩
  by_cases hnames : ∀ s ∈ previous, s.ownerName = name
  · have hname : (previous.map IdentityState.ownerName).getD name = name := by
      cases previous with
      | none => rfl
      | some s => exact hnames s rfl
    rw [hname, acceptable_iff hP hsign (fun s hs => hnames s hs ▸ hhistory s hs) h hsize]
    exact and_iff_right hnames
  · refine ⟨fun hd => absurd hd.1 hnames, fun hacc => absurd (fun s hs => ?_) hnames⟩
    obtain rfl : previous = some s := hs
    obtain ⟨c, hc⟩ := hhistory s rfl
    refine (Acceptable.name_eq h (fun t ht => ?_) hacc).symm
    cases ht
    exact hc.previousOk

end

/-! ### Submissions -/

namespace PendingSubmission.Submitted

variable {p : PendingSubmission P} {a : Authorization}

/-- The signer of a checked request has an id that can be written. -/
theorem signerOk (h : p.Submitted) (ha : p.auth = some a) :
    ∀ i ∈ p.request.signerId, ValidId i ∧ (utf8Raw i).length ≤ 256 := by
  intro i hi
  obtain ⟨hwf, -, hcheck, -⟩ := h.authorized ha
  obtain ⟨-, hnone⟩ | ⟨j, hj, hmem⟩ := signer_of_checkAuthorized hcheck
  · rw [hnone] at hi
    cases hi
  · cases hi.symm.trans hj
    obtain hmem | ⟨s, hs, hmem⟩ := hmem
    · exact ⟨(hwf.ids _ hmem).1, (hwf.ids _ hmem).2.1⟩
    · have hids := (h.headOk s hs).ids _ hmem
      exact ⟨hids.1, hids.2.1⟩

theorem identityProof_ok (h : p.Submitted) (ha : p.auth = some a) {signature : Bytes}
    (hlen : signature.length = signatureLength) :
    ∃ r, IdentityProof.make p.request.signerId p.request.signerPublicKey signature = .ok r :=
  ⟨_, dif_pos ⟨h.signerOk ha, h.signerKey, hlen⟩⟩

theorem proofBytes_ok (h : p.Submitted) (hP : CborCodec P) (ha : p.auth = some a) {signature : Bytes}
    (hlen : signature.length = signatureLength) : ∃ b, proofBytes P p.request.signerId signature = .ok b := by
  cases hi : p.request.signerId with
  | none => exact ⟨signature, rfl⟩
  | some i =>
    have hcanonical : canonical (proofValue (some i, signature)) = true := canonical_proofValue hlen fun j hj => by
      cases hj
      exact h.signerOk ha i hi
    have htidy := tidy_proofValue (some i, signature)
    obtain ⟨b, hb⟩ := hP.writes _ htidy.plain hcanonical (htidy.shallow (by decide))
    exact ⟨b, by simp [proofBytes, canonicalBytes, hb, orRaise]⟩

/-- The draft that is made after signing can be made. -/
theorem draft_ok (h : p.Submitted) (hP : CborCodec P) (ha : p.auth = some a) (hdraft : p.request.draft = none) :
    ∃ d : IdentityDraft P, IdentityDraft.make p.update (p.current.map IdentityState.envelopeBytes)
      (predecessorsOf p.current) = .ok d := by
  obtain ⟨hwf, hthr, hcheck, hbuild⟩ := h.authorized ha
  have hop : a.operation ≠ 5 := fun hop => (checkAuthorized_ok.1 hcheck).2.2.1 hop hdraft
  exact (draft_iff_proposes (fun s hs => (h.current s hs).1) (updateOf_build hP.reads hwf hthr hbuild)).2
    ⟨fun s hs => (h.current s hs).2, proposes_of_checkAuthorized hcheck hop⟩

/-- With an authorization, a signature always ends as a proof. -/
theorem useSignature_ok (h : p.Submitted) (hP : CborCodec P) (ha : p.auth = some a) {signature : Bytes}
    (hlen : signature.length = signatureLength) {σ : Type} (A : Adapter σ) (w : World σ) :
    ∃ r, useSignature A p signature w = (.ok r, w) ∧ r.status = .proofReady := by
  obtain ⟨r, hr⟩ := h.identityProof_ok ha hlen
  obtain ⟨b, hb⟩ := h.proofBytes_ok hP ha hlen
  cases hdraft : p.request.draft with
  | some d =>
    simp only [useSignature, hdraft, draftProof, hr, hb, bind, Except.bind, pure, Except.pure, Prog.lift]
    exact ⟨_, rfl, rfl⟩
  | none =>
    obtain ⟨d, hd⟩ := h.draft_ok hP ha hdraft
    have hthr : 1 < a.threshold := by rw [h.threshold ha]; decide
    -- without a draft the signer has an id, since only a rotation may come without one
    have hid : p.request.signerId ≠ none := by
      obtain ⟨-, -, hcheck, -⟩ := h.authorized ha
      obtain ⟨hop, -⟩ | ⟨i, hi, -⟩ := signer_of_checkAuthorized hcheck
      · exact absurd hdraft ((checkAuthorized_ok.1 hcheck).2.2.1 hop)
      · simp [hi]
    simp only [useSignature, hdraft, ha, Option.any_some, hthr, decide_true, if_true, thresholdProof, reject, hid,
      if_false, hr, hb, hd, bind, Except.bind, pure, Except.pure, Prog.lift]
    exact ⟨_, rfl, rfl⟩

end PendingSubmission.Submitted

/-- The rules coincide: a draft of an update can be made on a state that was read exactly where the parser accepts
the update with some proofs, every such draft is finalized by enough valid proofs, and a submission with an
authorization that reached the consent handler makes its draft and its proof of whatever the signer signs. A byte
string has fewer than `2 ^ 64` bytes. -/
theorem authoring_matches_verifying (hP : CborCodec P) (hsign : Signable P) {previous : Option IdentityState}
    (hprev : ∀ s ∈ previous, ReadBack P s) {update name key : Bytes} {seq : ℕ} {a : Authorization}
    (h : UpdateOf P update name key seq a) (hsize : update.length < 2 ^ 64) :
    ((∃ d : IdentityDraft P, IdentityDraft.make update (previous.map IdentityState.envelopeBytes)
        (predecessorsOf previous) = .ok d) ↔
      Acceptable P ((previous.map IdentityState.ownerName).getD name) update previous) ∧
    (∀ b : IdentityBundle P, IdentityDraft.make update (previous.map IdentityState.envelopeBytes)
        (predecessorsOf previous) = .ok b.draft →
      Quorate P (previous.map IdentityState.head) update key a b.proofs → ∃ e, b.finalize = .ok e) ∧
    ∀ {σ : Type} (A : Adapter σ) (q : SubmitRequest P) (p : PendingSubmission P) (w w' : World σ),
      submitIdentityBegin A q w = (.ok (.inr p), w') → p.auth ≠ none →
      ∀ (signature : Bytes) (w : World σ), signature.length = signatureLength →
        ∃ r, useSignature A p signature w = (.ok r, w) ∧ r.status = .proofReady := by
  refine ⟨draft_iff_acceptable hP hsign hprev h hsize, fun b hb hq =>
    ?_, fun A q p w w' hp hauth signature w2 hlen => ?_⟩
  · obtain ⟨hupdate, hkey, hauth, hprevious⟩ := draft_parts hprev h hb
    refine finalize_of_quorate hP hauth (hupdate ▸ hsize) ?_
    rw [hupdate, hkey, hprevious]
    exact hq
  · obtain ⟨b, hb⟩ := Option.ne_none_iff_exists'.1 hauth
    exact (submitted_of_begin hp).2.useSignature_ok hP hb hlen A w2

namespace Vector

/-- Ed25519 on the signatures of the history, and on every other message one made-up signature of each key. -/
def verifyAll (key digest signature : Bytes) : Bool :=
  if (key, digest) ∈ [(legacyKey, legacyHash), (legacyKey, rotationHash), (bobKey, ordinaryHash),
    (carolKey, ordinaryHash)]
  then verify key digest signature
  else signature == key ++ key

def signing : Platform := referencePlatform sha256 verifyAll

theorem signing_signable : Signable signing := by
  intro key message hkey
  by_cases h : (key, message) ∈
      [(legacyKey, legacyHash), (legacyKey, rotationHash), (bobKey, ordinaryHash), (carolKey, ordinaryHash)]
  · simp only [List.mem_cons, Prod.mk.injEq, List.not_mem_nil, or_false] at h
    rcases h with ⟨rfl, rfl⟩ | ⟨rfl, rfl⟩ | ⟨rfl, rfl⟩ | ⟨rfl, rfl⟩
    · exact ⟨legacySignature, by decide, by decide +kernel⟩
    · exact ⟨rotationSignature, by decide, by decide +kernel⟩
    · exact ⟨bobSignature, by decide, by decide +kernel⟩
    · exact ⟨carolSignature, by decide, by decide +kernel⟩
  · refine ⟨key ++ key, by simp [hkey, keyLength, signatureLength], ?_⟩
    simp only [signing, referencePlatform, verifyAll, if_neg h, beq_self_eq_true]

/-- The accepted rotation. -/
def signingState : IdentityState :=
  rotation.state signing rotationEnvelope (some (legacy.state signing legacyEnvelope none))

theorem readBack_signingState : ReadBack signing signingState := ⟨_, adapter, ownerName, world, by decide +kernel⟩

theorem ordinary_updateOf : UpdateOf signing ordinaryUpdate ownerName successorKey 9 ordinaryAuthorization := by
  have hbuild : buildIdentityUpdate signing ownerName successorKey 9 (some (authorizationValue ordinaryAuthorization)) =
      .ok ordinaryUpdate := by decide +kernel
  have hvalid : validateAuthorization (authorizationValue ordinaryAuthorization) = .ok ordinaryAuthorization := by
    decide +kernel
  exact updateOf_build (referencePlatform_codec _ _).reads (validateAuthorization_ok.1 hvalid).2.1 (by decide) hbuild

end Vector

/-- The ordinary update on the rotation: its draft can be made and is accepted, "bob" and "carol" finalize it, and the
submission of "bob" makes its proof. -/
theorem authoring_matches_verifying_vector :
    Acceptable Vector.signing Vector.ownerName Vector.ordinaryUpdate (some Vector.signingState) ∧
    (∃ (b : IdentityBundle Vector.signing) (e : Bytes), b.draft.signedUpdateBytes = Vector.ordinaryUpdate ∧
      b.proofs = [Vector.bobProof, Vector.carolProof] ∧ b.finalize = .ok e) ∧
    ∃ p w' r, submitIdentityBegin Vector.adapter (Vector.ordinaryRequest Vector.signing) Vector.world =
        (.ok (.inr p), w') ∧
      useSignature Vector.adapter p Vector.bobSignature w' = (.ok r, w') ∧ r.status = .proofReady := by
  have hprev : ∀ s ∈ some Vector.signingState, ReadBack Vector.signing s := by
    rintro s ⟨⟩
    exact Vector.readBack_signingState
  obtain ⟨hiff, hfinal, hsubmit⟩ := authoring_matches_verifying (referencePlatform_codec _ _)
    Vector.signing_signable hprev Vector.ordinary_updateOf (by decide +kernel)
  have hmake : ((IdentityDraft.make Vector.ordinaryUpdate (some Vector.rotationEnvelope) [Vector.legacyEnvelope] :
      Except IdentityError (IdentityDraft Vector.signing)).map IdentityDraft.signedUpdateBytes) =
        .ok Vector.ordinaryUpdate := by decide +kernel
  obtain ⟨d, hd, hdu⟩ := map_eq_ok.1 hmake
  refine ⟨hiff.1 ⟨d, hd⟩, ?_, ?_⟩
  · have hquorate : Quorate Vector.signing (some Vector.signingState.head) Vector.ordinaryUpdate Vector.successorKey
        Vector.ordinaryAuthorization [Vector.bobProof, Vector.carolProof] := by
      refine .quorum (by decide) (fun h => absurd h.1 (by decide)) (by decide) ?_
      simp only [List.mem_cons, List.not_mem_nil, or_false, forall_eq_or_imp, forall_eq]
      exact ⟨⟨_, rfl, by decide +kernel⟩, ⟨_, rfl, by decide +kernel⟩⟩
    obtain ⟨e, he⟩ := hfinal ⟨d, [Vector.bobProof, Vector.carolProof], by decide +kernel, by decide⟩ hd hquorate
    exact ⟨_, e, hdu, rfl, he⟩
  · have hauth : (submitIdentityBegin Vector.adapter (Vector.ordinaryRequest Vector.signing) Vector.world).1.map
        (fun x => x.getRight?.map PendingSubmission.auth) = .ok (some (some Vector.ordinaryAuthorization)) := by
      decide +kernel
    rcases hbegin : submitIdentityBegin Vector.adapter (Vector.ordinaryRequest Vector.signing) Vector.world with ⟨x, w'⟩
    rw [hbegin] at hauth
    obtain ⟨x, rfl, hx⟩ := map_eq_ok.1 hauth
    obtain ⟨p, hp, hpa⟩ := Option.map_eq_some_iff.1 hx
    obtain rfl := Sum.getRight?_eq_some_iff.1 hp
    obtain ⟨r, hr, hstatus⟩ := hsubmit Vector.adapter _ p _ _ hbegin (by simp [hpa]) Vector.bobSignature w' (by decide)
    exact ⟨p, w', r, rfl, hr, hstatus⟩

end DecentWallet
