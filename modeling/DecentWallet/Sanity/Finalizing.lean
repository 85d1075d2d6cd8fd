import DecentWallet.Sanity.Merge
import DecentWallet.Sanity.Submit

/-! A bundle with enough valid proofs of the right signers is finalized. -/

namespace DecentWallet

open Cbor IdentityError Opened

variable {P : Platform}

/-! ### Envelopes of an update -/

/-- A proof list as the parser wants it, with ids that a signer can have. -/
structure ProofsOk (proofs : List ProofEntry) : Prop where
  entries : ∀ p ∈ proofs, p.2.length = signatureLength ∧ ∀ i ∈ p.1, ValidId i
  ids : ∀ p ∈ proofs, ∀ i ∈ p.1, (utf8Raw i).length ≤ 256
  ordered : proofs.Pairwise fun x y => bytesLt (proofKey x) (proofKey y) = true

/-- An envelope holds one update. -/
theorem Opens.update_unique {e : Bytes} {o o' : Opened} (h : Opens P e o) (h' : Opens P e o') :
    o.update = o'.update := by
  cases h with
  | legacy houter _ hkeys hupdate =>
    cases h' with
    | legacy houter' _ _ hupdate' =>
      cases houter.symm.trans houter'
      cases hupdate.symm.trans hupdate'
      rfl
    | versionOne houter' _ hkeys' =>
      cases houter.symm.trans houter'
      exact absurd hkeys (keySet_two_of_three hkeys')
  | versionOne houter _ hkeys _ hupdate =>
    cases h' with
    | legacy houter' _ hkeys' =>
      cases houter.symm.trans houter'
      exact absurd hkeys' (keySet_two_of_three hkeys)
    | versionOne houter' _ _ _ hupdate' =>
      cases houter.symm.trans houter'
      cases hupdate.symm.trans hupdate'
      rfl

theorem Opens.name_unique {e : Bytes} {o o' : Opened} (h : Opens P e o) (h' : Opens P e o') :
    o.ownerName = o'.ownerName := by
  obtain ⟨u, hu, -, -, hname, -⟩ := h.decode
  obtain ⟨u', hu', -, -, hname', -⟩ := h'.decode
  rw [h.update_unique h'] at hu
  cases hu.symm.trans hu'
  rw [hname] at hname'
  exact Value.bytes.inj (Option.some.inj hname')

section

variable {update name key : Bytes} {seq : ℕ} {a : Authorization} {proofs : List ProofEntry}

/-- An envelope that is read back as the update with its proofs opens as that. -/
theorem UpdateOf.opens_of_read (h : UpdateOf P update name key seq a) (hproofs : ProofsOk proofs) {e : Bytes}
    (hread : requireCanonical P e = .ok (dict [.int 1, .bytes update, .array (proofs.map proofValue)])) :
    Opens P e ⟨update, name, key, seq, some a, proofs⟩ := by
  obtain ⟨u, hu, hname, hkey, rfl, ha⟩ := h.decode
  have hlist : validateProofList (.array (proofs.map proofValue)) = .ok proofs :=
    validateProofList_ok.2 ⟨⟨_, rfl, forall₂_map fun p hp => proofIs_proofValue (hproofs.entries p hp)⟩,
    hproofs.ordered⟩
  refine .versionOne hread (isInt_dictFrom _ _) (keySet_dictFrom rfl) ?_ ?_ hu ha hname hkey h.key ?_ hlist
  · simp [pyGet, dictFrom, pyEqInt]
  · simp [pyGet, dictFrom, pyEqInt]
  · simp [pyGet, dictFrom, pyEqInt]

theorem canonical_proofValue {p : ProofEntry} (hsig : p.2.length = signatureLength)
    (hid : ∀ i ∈ p.1, ValidId i ∧ (utf8Raw i).length ≤ 256) : canonical (proofValue p) = true := by
  have hsignature : canonical (.bytes p.2) = true := by simp [canonical, hsig, signatureLength]
  have hsigner : canonical (signerIdValue p.1) = true := by
    cases hp : p.1 with
    | none => rfl
    | some i =>
      obtain ⟨hvalid, hlen⟩ := hid i hp
      simp only [signerIdValue, canonical, Bool.and_eq_true, decide_eq_true_eq]
      exact ⟨hvalid.2, by omega⟩
  rw [proofValue, canonical_dict (by simp), canonicalList_iff]
  simpa using ⟨hsigner, hsignature⟩

/-- The codec writes an envelope of an update with few proofs, and reads it back. -/
theorem UpdateOf.opens (h : UpdateOf P update name key seq a) (hP : CborCodec P) (hupdate : update.length < 2 ^ 64)
    (hproofs : ProofsOk proofs) (hfew : proofs.length < 2 ^ 64) :
    ∃ e, P.dumps (dict [.int 1, .bytes update, .array (proofs.map proofValue)]) = some e ∧
      requireCanonical P e = .ok (dict [.int 1, .bytes update, .array (proofs.map proofValue)]) ∧
      Opens P e ⟨update, name, key, seq, some a, proofs⟩ := by
  have htidy := tidy_versionOne update proofs
  have hentries : ∀ v ∈ proofs.map proofValue, canonical v = true := by
    intro v hv
    obtain ⟨p, hp, rfl⟩ := List.mem_map.1 hv
    obtain ⟨hsig, hid⟩ := hproofs.entries p hp
    exact canonical_proofValue hsig fun i hi => ⟨hid i hi, hproofs.ids p hp i hi⟩
  have hcanonical : canonical (dict [.int 1, .bytes update, .array (proofs.map proofValue)]) = true := by
    rw [canonical_dict (by simp)]
    simp only [canonicalList, canonical, Bool.and_true, Bool.and_eq_true,
      decide_eq_true_eq, List.length_map, canonicalList_iff]
    exact ⟨by decide, hupdate, hfew, hentries⟩
  obtain ⟨e, he⟩ := hP.writes _ htidy.plain hcanonical (htidy.shallow (by decide))
  have hread := hP.reads.reads_tidy htidy he
  exact ⟨e, he, hread, h.opens_of_read hproofs hread⟩

/-! ### Bundles -/

/-- Valid proofs of distinct authorising signers, as many as the draft needs: one of the owner for an upgrade and for
the rotation of a legacy state, and the threshold otherwise. -/
inductive Quorate (P : Platform) (prev : Option Head) (update key : Bytes) (a : Authorization) :
    List IdentityProof → Prop
  | upgrade {p i} (hop : a.operation = 4) (hid : p.signerId = some i) (hkey : p.signerPublicKey = key)
      (hin : (i, key) ∈ a.signers) (hsig : P.verify p.signerPublicKey (P.sha256 update) p.signature = true) :
      Quorate P prev update key a [p]
  | rotateLegacy {p h} (hop : a.operation = 5) (hprev : prev = some h) (hlegacy : h.signers = [])
      (hid : p.signerId = none) (hkey : p.signerPublicKey = h.ownerKey)
      (hsig : P.verify p.signerPublicKey (P.sha256 update) p.signature = true) : Quorate P prev update key a [p]
  | quorum {ps} (hop : a.operation ≠ 4) (hrot : ¬LegacyRotation prev a) (hlen : a.threshold ≤ ps.length)
      (hall : ∀ p ∈ ps, ∃ i, p.signerId = some i ∧ (i, p.signerPublicKey) ∈ authorising prev a ∧
        P.verify p.signerPublicKey (P.sha256 update) p.signature = true) : Quorate P prev update key a ps

theorem proofsOk_entries (b : IdentityBundle P) : ProofsOk (b.proofs.map IdentityProof.entry) := by
  refine ⟨fun e he => ?_, fun e he i hi => ?_, ?_⟩
  · obtain ⟨p, -, rfl⟩ := List.mem_map.1 he
    exact ⟨p.signatureOk, fun i hi => (p.idOk i hi).1⟩
  · obtain ⟨p, -, rfl⟩ := List.mem_map.1 he
    exact (p.idOk i hi).2
  · exact List.pairwise_map.2 ((eq_sort_nodup_iff IdentityProof.order _).1 ⟨b.sorted, nodup_order b.distinct⟩)

/-- No more than three signers count. -/
theorem length_authorising {prev : Option Head} (hprop : Proposes prev key seq a)
    (hprev : ∀ h ∈ prev, h.signers ≠ [] → h.signers.length = 3) : (authorising prev a).length ≤ 3 := by
  cases hprop with
  | genesis hop _ _ hgov => simp [authorising, hop, hgov.2.2]
  | ordinary hop _ _ hv1 => simp [authorising, hop, hprev _ rfl hv1]
  | replaceSigners hop _ _ hv1 => simp [authorising, hop, hprev _ rfl hv1]
  | upgrade hop _ _ _ _ hgov => simp [authorising, hop, hgov.2.2]
  | rotate hop _ _ hv1 => simp [authorising, hop, hprev _ rfl hv1]
  | rotateLegacy hop _ _ hlegacy => simp [authorising, hop, hlegacy]

theorem Quorate.length_le {prev : Option Head} {ps : List IdentityProof} (h : Quorate P prev update key a ps)
    (hnodup : (ps.map IdentityProof.signerId).Nodup) (hauth : (authorising prev a).length ≤ 3) : ps.length ≤ 3 := by
  cases h with
  | upgrade => simp
  | rotateLegacy => simp
  | quorum _ _ _ hall =>
    have hsub : ps.map IdentityProof.signerId ⊆ (authorising prev a).map fun e => some e.1 := by
      intro i hi
      obtain ⟨p, hp, rfl⟩ := List.mem_map.1 hi
      obtain ⟨i, hid, hin, -⟩ := hall p hp
      exact hid ▸ List.mem_map.2 ⟨_, hin, rfl⟩
    have := (hnodup.subperm hsub).length_le
    simp only [List.length_map] at this
    omega

theorem Quorate.sufficient {prev : Option Head} {ps : List IdentityProof} (h : Quorate P prev update key a ps) :
    Sufficient P.primitives prev ⟨update, name, key, seq, some a, ps.map IdentityProof.entry⟩ a := by
  cases h with
  | upgrade hop hid hkey hin hsig =>
    exact .upgrade hop (by simp [IdentityProof.entry, hid]) hin (hkey ▸ hsig)
  | rotateLegacy hop hprev hlegacy hid hkey hsig =>
    exact .rotateLegacy hop hprev hlegacy (by simp [IdentityProof.entry, hid]) (hkey ▸ hsig)
  | quorum hop hrot hlen hall =>
    refine .quorum hop hrot ⟨by simpa using hlen, fun e he => ?_⟩
    obtain ⟨p, hp, rfl⟩ := List.mem_map.1 he
    obtain ⟨i, hi, hin, hsig⟩ := hall p hp
    exact ⟨i, p.signerPublicKey, hi, hin, hsig⟩

/-- Who may finalize what may be proposed. -/
theorem authority_legacy {p : IdentityState} (hop : a.operation = 5) (hlegacy : p.signerSet = []) :
    authority a (some p) = .ok (.ownerKey p.ownerPublicKey) := if_pos ⟨hop, hlegacy⟩

theorem authority_signers {previous : Option IdentityState}
    (hprop : Proposes (previous.map IdentityState.head) key seq a)
    (hrot : ¬LegacyRotation (previous.map IdentityState.head) a) :
    authority a previous = .ok (.signers (authorising (previous.map IdentityState.head) a)) := by
  generalize hprev : previous.map IdentityState.head = prev at hprop hrot
  cases hprop with
  | genesis hop =>
    obtain rfl := Option.map_eq_none_iff.1 hprev
    simp [authority, authorising, hop]
  | ordinary hop _ _ _ _ hgov =>
    obtain ⟨p, rfl, rfl⟩ := Option.map_eq_some_iff.1 hprev
    simp [authority, authorising, hop, hgov.2.2]
  | replaceSigners hop _ _ hv1 =>
    obtain ⟨p, rfl, rfl⟩ := Option.map_eq_some_iff.1 hprev
    have hv1 : p.signerSet ≠ [] := hv1
    simp [authority, authorising, hop, reject, hv1, IdentityState.head, bind, Except.bind]
  | upgrade hop =>
    obtain ⟨p, rfl, rfl⟩ := Option.map_eq_some_iff.1 hprev
    simp [authority, authorising, hop]
  | rotate hop _ _ hv1 =>
    obtain ⟨p, rfl, rfl⟩ := Option.map_eq_some_iff.1 hprev
    have hv1 : p.signerSet ≠ [] := hv1
    simp [authority, authorising, hop, reject, hv1, IdentityState.head, bind, Except.bind]
  | rotateLegacy hop _ _ hlegacy => exact absurd ⟨hop, _, rfl, hlegacy⟩ hrot

theorem mapM_checkBundleProof {keys : SignerSet} (hkeys : (keys.map Prod.fst).Nodup) {ps : List IdentityProof}
    (h : ∀ p ∈ ps, ∃ i, p.signerId = some i ∧ (i, p.signerPublicKey) ∈ keys ∧
      P.verify p.signerPublicKey (P.sha256 update) p.signature = true) :
    ps.mapM (checkBundleProof P (.signers keys) update) = .ok (ps.map IdentityProof.signerId) := by
  induction ps with
  | nil => rfl
  | cons p ps ih =>
    obtain ⟨i, hi, hin, hsig⟩ := h p (by simp)
    have hhead : checkBundleProof P (.signers keys) update p = .ok (some i) := by
      simp only [checkBundleProof, bind_eq_ok, orRaise_eq_ok, reject_eq_ok, verifyBundleSignature, pure_eq_ok]
      exact ⟨i, hi, p.signerPublicKey, (lookupSigner_eq_some hkeys).2 hin, (), by simp, (), by simp [hsig], rfl⟩
    rw [List.mapM_cons, hhead, List.map_cons, hi]
    simp [bind, Except.bind, ih fun q hq => h q (by simp [hq]), pure, Except.pure]

/-- The ids of proofs that all name a signer. -/
theorem reduceOption_signerIds {ps : List IdentityProof} (hnodup : (ps.map IdentityProof.signerId).Nodup)
    (h : ∀ p ∈ ps, ∃ i, p.signerId = some i) :
    (ps.map IdentityProof.signerId).reduceOption.dedup.length = ps.length := by
  obtain ⟨ids, hids⟩ : ∃ ids : List Str, ps.map IdentityProof.signerId = ids.map some := by
    clear hnodup
    induction ps with
    | nil => exact ⟨[], rfl⟩
    | cons p ps ih =>
      obtain ⟨i, hi⟩ := h p (by simp)
      obtain ⟨ids, hids⟩ := ih fun q hq => h q (by simp [hq])
      exact ⟨i :: ids, by simp [hi, hids]⟩
  have hlen : ids.length = ps.length := by simpa using (congrArg List.length hids).symm
  rw [hids] at hnodup ⊢
  have hids' : ids.Nodup := (List.nodup_map_iff (Option.some_injective _)).1 hnodup
  have hreduce : (ids.map some).reduceOption = ids := by simp [List.reduceOption, List.filterMap_map]
  rw [hreduce, hids'.dedup, hlen]

/-- The signers that count are told apart by their ids. -/
theorem nodup_authorising {previous : Option IdentityState} (hprev : ∀ p ∈ previous, p.head.Ok) (ha : a.WellFormed) :
    ((authorising (previous.map IdentityState.head) a).map Prod.fst).Nodup := by
  unfold authorising
  split_ifs
  · cases previous with
    | none => simp
    | some p => simpa using (hprev p rfl).idsNodup
  · exact ha.idsNodup

/-- Enough proofs pass the loop and the count of `finalize`. -/
theorem finalizeVersionOne_of_quorate {previous : Option IdentityState} {ps : List IdentityProof} {e : Bytes}
    (hprev : ∀ p ∈ previous, p.head.Ok) (ha : a.WellFormed) (hthr : 1 ≤ a.threshold)
    (hprop : Proposes (previous.map IdentityState.head) key seq a)
    (hq : Quorate P (previous.map IdentityState.head) update key a ps) (hnodup : (ps.map IdentityProof.signerId).Nodup)
    (hcanonical : canonicalBytes P (dict [.int 1, .bytes update, .array (ps.map fun p => proofValue p.entry)]) =
    .ok e) : ps ≠ [] ∧ finalizeVersionOne P update key a previous ps = .ok e := by
  simp only [finalizeVersionOne, bind_eq_ok]
  have hkeys := nodup_authorising hprev ha
  cases hq with
  | @upgrade p i hop hid hkey hin hsig =>
    have hrot : ¬LegacyRotation (previous.map IdentityState.head) a := by simp [LegacyRotation, hop]
    have hmem : (i, p.signerPublicKey) ∈ authorising (previous.map IdentityState.head) a := by
      rw [hkey]
      simpa [authorising, hop] using hin
    refine ⟨by simp, _, authority_signers hprop hrot, _,
      mapM_checkBundleProof hkeys (by simpa using ⟨i, hid, hmem, hsig⟩), (), ?_, hcanonical⟩
    simp [checkBundleQuorum, hop, hid, hkey, List.reduceOption]
  | @rotateLegacy p h hop hprevious hlegacy hid hkey hsig =>
    obtain ⟨s, rfl, rfl⟩ := Option.map_eq_some_iff.1 hprevious
    have hproof : checkBundleProof P (.ownerKey s.ownerPublicKey) update p = .ok none := by
      simp only [checkBundleProof, bind_eq_ok, reject_eq_ok, verifyBundleSignature, pure_eq_ok]
      exact ⟨(), by simpa using ⟨hid, hkey⟩, (), by simp [hsig], trivial⟩
    refine ⟨by simp, _, authority_legacy hop hlegacy, [none], ?_, (), ?_, hcanonical⟩
    · simp [List.mapM_cons, hproof, bind, Except.bind, pure, Except.pure]
    · simp [checkBundleQuorum, hop]
  | quorum hop hrot hlen hall =>
    have hcount := reduceOption_signerIds hnodup fun p hp => by
      obtain ⟨i, hi, -⟩ := hall p hp
      exact ⟨i, hi⟩
    refine ⟨?_, _, authority_signers hprop hrot, _, mapM_checkBundleProof hkeys hall, (), ?_, hcanonical⟩
    · intro hnil
      rw [hnil] at hlen
      simp at hlen
      omega
    · simp only [checkBundleQuorum, if_neg hop, reject_eq_ok, hcount, not_lt]
      exact hlen

/-- A draft with enough proofs is finalized, to the envelope that is written and read back. -/
theorem finalize_of_written {b : IdentityBundle P} (ha : b.draft.authorization = some a)
    (hq : Quorate P (b.draft.previousState.map IdentityState.head) b.draft.signedUpdateBytes b.draft.ownerPublicKey a
      b.proofs) {e : Bytes}
    (he : P.dumps (dict [.int 1, .bytes b.draft.signedUpdateBytes,
      .array ((b.proofs.map IdentityProof.entry).map proofValue)]) = some e)
    (hread : requireCanonical P e = .ok (dict [.int 1, .bytes b.draft.signedUpdateBytes,
      .array ((b.proofs.map IdentityProof.entry).map proofValue)])) : b.finalize = .ok e := by
  obtain ⟨u, hu, hname, hkey, hklen, hseq, hauth, -, hvalid, -, htransition⟩ := b.draft.contents_spec
  rw [ha] at hauth htransition
  have hprop := (validateDraftTransition_ok.1 htransition).2
  have hupdate : UpdateOf P b.draft.signedUpdateBytes b.draft.ownerName b.draft.ownerPublicKey b.draft.sequence a :=
    ⟨⟨u, hu, hname, hkey, hseq, hauth⟩, hvalid, hklen⟩
  have hok : ∀ p ∈ b.draft.previousState, PreviousOk b.draft.ownerName p ∧ p.head.Ok := by
    intro p hp
    obtain ⟨c, hc⟩ := b.draft.previousState_historyOf p hp
    exact ⟨hc.previousOk, hc.headOk⟩
  have hopens := hupdate.opens_of_read (proofsOk_entries b) hread
  have hparse := (parseIdentityEnvelope_ok P fun p hp => (hok p hp).1).2
    ⟨_, hopens, rfl, (admits_iff rfl).2 ⟨hprop, hq.sufficient⟩, rfl⟩
  have hcanonical : canonicalBytes P (dict [.int 1, .bytes b.draft.signedUpdateBytes,
      .array (b.proofs.map fun p => proofValue p.entry)]) = .ok e := by
    rw [canonicalBytes, orRaise_eq_ok, ← he, List.map_map]
    rfl
  obtain ⟨hne, hseal⟩ := finalizeVersionOne_of_quorate (fun p hp => (hok p hp).2) hupdate.wellFormed
    (decodeSignedUpdate_wellFormed P hu a hauth).2.1 hprop hq b.distinct hcanonical
  simp only [IdentityBundle.finalize, IdentityBundle.sealProofs, ha, bind_eq_ok, reject_eq_ok, pure_eq_ok, asRequest_ok]
  exact ⟨(), hne, e, hseal, _, hparse, rfl⟩

theorem finalize_of_quorate (hP : CborCodec P) {b : IdentityBundle P} (ha : b.draft.authorization = some a)
    (hsize : b.draft.signedUpdateBytes.length < 2 ^ 64)
    (hq : Quorate P (b.draft.previousState.map IdentityState.head) b.draft.signedUpdateBytes b.draft.ownerPublicKey a
      b.proofs) : ∃ e, b.finalize = .ok e := by
  obtain ⟨u, hu, hname, hkey, hklen, hseq, hauth, -, hvalid, -, htransition⟩ := b.draft.contents_spec
  have hupdate : UpdateOf P b.draft.signedUpdateBytes b.draft.ownerName b.draft.ownerPublicKey b.draft.sequence a :=
    ⟨⟨u, hu, hname, hkey, hseq, hauth.trans ha⟩, hvalid, hklen⟩
  rw [ha] at htransition
  have hsigners : ∀ h ∈ b.draft.previousState.map IdentityState.head, h.signers ≠ [] → h.signers.length = 3 := by
    intro h hh hv1
    obtain ⟨p, hp, rfl⟩ := Option.mem_map.1 hh
    obtain ⟨c, hc⟩ := b.draft.previousState_historyOf p hp
    exact (hc.headOk.twoOfThree hv1).2
  have hfew := hq.length_le b.distinct (length_authorising (validateDraftTransition_ok.1 htransition).2 hsigners)
  obtain ⟨e, he, hread, -⟩ := hupdate.opens hP hsize (proofsOk_entries b) (by rw [List.length_map]; omega)
  exact ⟨e, finalize_of_written ha hq he hread⟩

end

namespace Vector

def consentRequest : ConsentRequest :=
  ⟨origin, environment, str "publish", str "identity.write", 300, replayNonce⟩

/-- The ordinary update, submitted by "bob". -/
def ordinaryRequest (P : Platform) : SubmitRequest P where
  ownerName := ownerName
  ownerPublicKey := successorKey
  signerPublicKey := bobKey
  operation := str "ordinary-update"
  consent := consentRequest
  authorization := some (authorizationValue ordinaryAuthorization)
  signerId := some [98, 111, 98]

/-- What a publication of the ordinary update meets: whether the registry has taken the ordinary update, the keys
the replay store was given, and the time. -/
structure Outside where
  accepted : Bool
  used : List Bytes
  now : ℤ

def registry : Transport Outside where
  getIdentityEnvelope := fun n s =>
    (some (if n = ownerName then .bytes (if s.accepted then ordinaryEnvelope else rotationEnvelope) else .nothing), s)
  getIdentityEnvelopeByHash := fun n h s => (some (if n = ownerName ∧ h = legacyHash then .bytes legacyEnvelope
    else if n = ownerName ∧ h = rotationHash then .bytes rotationEnvelope else .nothing), s)
  getRemoteIdentityEnvelope := fun _ s => (none, s)
  putIdentityEnvelope := fun n e h _ s =>
    if n = ownerName ∧ e = ordinaryEnvelope ∧ h = some rotationHash ∧ s.accepted = false then
      (.returned, { s with accepted := true })
    else (.stale, s)
  registryEnvironment := fun s => (.absent, s)
  rotationAvailable := fun s => (false, s)
  time := fun s => (s.now, { s with now := s.now + 1 })

/-- The replay store refuses a key it has. -/
def registryAdapter : Adapter Outside where
  id := 0
  transport := registry
  registryEnvironment := some environment
  replayStore := fun key s => (some (decide (key ∉ s.used)), { s with used := key :: s.used })

def publishOrdinary (d : ConsentDecision) : Net Outside (PublicationResult platform) :=
  publishBundle registryAdapter ordinaryBundle consentRequest fun _ => pure d

def outside : World Outside := ⟨⟨false, [], 100⟩, [], [], fun _ _ => none, [], 0⟩

end Vector

end DecentWallet
