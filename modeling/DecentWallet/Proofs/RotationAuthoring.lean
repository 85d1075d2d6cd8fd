import DecentWallet.Sanity.Finalizing
import DecentWallet.Sanity.KotlinRotation
import DecentWallet.Sanity.Reference
import DecentWallet.Spec.RotationDraft

/-! Both clients write the same bytes for an owner-key rotation: the update of the draft, and the envelope that the
same proofs finalize it to. -/

namespace DecentWallet

open Cbor IdentityError Opened

variable {P : Platform}

/-! ### What the core drafts -/

section

variable {σ : Type} {A : Adapter σ} {n key : Bytes} {entries : Option (List Value)} {d : IdentityDraft P}

/-- The authorization that the core builds on the state it read. -/
structure RotationOf (s : IdentityState) (entries : Option (List Value)) (a : Authorization) : Prop where
  wellFormed : a.WellFormed
  threshold : 1 ≤ a.threshold ∧ a.threshold ≤ a.signers.length
  operation : a.operation = 5
  predecessor : a.predecessor = s.stateHash
  versionOne : s.signerSet ≠ [] →
    s.generation = some a.generation ∧ s.threshold = some a.threshold ∧ a.signers = s.signerSet
  legacy : s.signerSet = [] → a.generation = 1 ∧ a.threshold = 2 ∧
    ∃ given sorted, entries = some given ∧ sortEntries given = some sorted ∧ List.Forall₂ EntryIs sorted a.signers

theorem entryIs_signerValue_iff {e f : Str × Bytes} (h : EntryIs (signerValue e) f) : f = e := by
  obtain ⟨⟨m, hm, h1, h2⟩, -⟩ := h
  obtain rfl := Except.ok.inj ((requireExactKeys_dict rfl).symm.trans hm)
  simp [pyGet, dictFrom, pyEqInt] at h1 h2
  exact Prod.ext h1.symm h2.symm

theorem signers_of_forall₂ {signers out : SignerSet} (h : List.Forall₂ EntryIs (signers.map signerValue) out) :
    out = signers := by
  rw [List.forall₂_map_left_iff] at h
  exact (List.forall₂_eq_eq_eq ▸ h.imp fun e f hef => (entryIs_signerValue_iff hef).symm : signers = out).symm

theorem rotationOf_of_validate {s : IdentityState} {epoch threshold : Value} {items : List Value} {a : Authorization}
    (hg : rotationGovernance s entries = .ok (epoch, threshold, items))
    (h : validateAuthorization (dict [.int 1, .int 1, .int 5, epoch, threshold, .array items, .bytes s.stateHash]) =
      .ok a) : RotationOf s entries a := by
  obtain ⟨⟨m, vs, hm, -, -, hop, hgen, hthr, hsigners, hf, hpred⟩, hwf, hrange⟩ := validateAuthorization_ok.1 h
  obtain rfl := Except.ok.inj ((requireExactKeys_dict rfl).symm.trans hm)
  simp [pyGet, dictFrom, pyEqInt] at hop hgen hthr hsigners hpred
  have hop : a.operation = 5 := by omega
  unfold rotationGovernance at hg
  refine ⟨hwf, hrange, hop, hpred.symm, fun hne => ?_, fun hnil => ?_⟩
  · simp only [hne, ne_eq, not_false_eq_true, if_true, bind_eq_ok, pure_eq_ok, Prod.mk.injEq] at hg
    obtain ⟨_, -, rfl, rfl, rfl⟩ := hg
    subst hsigners
    refine ⟨?_, ?_, signers_of_forall₂ hf⟩
    · cases hs : s.generation with
      | none => simp [hs] at hgen
      | some g => simpa [hs] using hgen
    · cases hs : s.threshold with
      | none => simp [hs] at hthr
      | some t => simpa [hs] using hthr
  · simp only [hnil, ne_eq, not_true_eq_false, if_false, bind_eq_ok, orRaise_eq_ok, pure_eq_ok, Prod.mk.injEq] at hg
    obtain ⟨given, rfl, sorted, hsorted, rfl, rfl, rfl⟩ := hg
    simp only [Value.int.injEq] at hgen hthr
    exact ⟨by omega, by omega, given, sorted, rfl, hsorted, hsigners ▸ hf⟩

/-- A draft that the core makes stands on the state it read, and its update is what was written for it. -/
theorem createOwnerKeyRotationDraft_ok {w w' : World σ}
    (h : createOwnerKeyRotationDraft A n key entries w = (.ok d, w')) :
    ∃ s a, readState P A n w = (.ok (some s), w') ∧ RotationOf s entries a ∧ key ≠ s.ownerPublicKey ∧
      P.dumps (updateValue n key (s.sequence + 1) (some a)) = some d.signedUpdateBytes ∧
      d.previousStateEnvelope = some s.envelopeBytes ∧ d.previousStateHistory = s.predecessorEnvelopes := by
  unfold createOwnerKeyRotationDraft at h
  obtain ⟨m, w₁, hm, h₁⟩ := Prog.bind_ok_iff.1 h
  obtain ⟨hvalid, rfl⟩ := Prog.lift_ok_iff.1 hm
  obtain rfl := validateOwnerName_eq hvalid
  obtain ⟨latched, w₂, hlatched, h₂⟩ := Prog.bind_ok_iff.1 h₁
  obtain ⟨-, rfl⟩ := Prod.mk.inj hlatched
  obtain ⟨_, w₃, hreject, h₃⟩ := Prog.bind_ok_iff.1 h₂
  obtain ⟨-, rfl⟩ := Prog.reject_ok_iff.1 hreject
  obtain ⟨_, w₄, hlen, h₄⟩ := Prog.bind_ok_iff.1 h₃
  obtain ⟨-, rfl⟩ := Prog.reject_ok_iff.1 hlen
  obtain ⟨previous, w₅, hread, h₅⟩ := Prog.bind_ok_iff.1 h₄
  obtain ⟨s, w₆, hsome, h₆⟩ := Prog.bind_ok_iff.1 h₅
  obtain ⟨hstate, rfl⟩ := Prog.lift_ok_iff.1 hsome
  obtain rfl := orRaise_eq_ok.1 hstate
  obtain ⟨_, w₇, hsame, h₇⟩ := Prog.bind_ok_iff.1 h₆
  obtain ⟨hkey, rfl⟩ := Prog.reject_ok_iff.1 hsame
  obtain ⟨⟨epoch, threshold, items⟩, w₈, hlift, h₈⟩ := Prog.bind_ok_iff.1 h₇
  obtain ⟨hgov, rfl⟩ := Prog.lift_ok_iff.1 hlift
  obtain ⟨hcreate, rfl⟩ := Prog.lift_ok_iff.1 h₈
  simp only [IdentityDraft.create, buildIdentityUpdate, bind_eq_ok, canonicalBytes, orRaise_eq_ok] at hcreate
  obtain ⟨update, ⟨m, hm, _, -, auth, hauth, hdumps⟩, hmake⟩ := hcreate
  obtain rfl := validateOwnerName_eq hm
  obtain ⟨a, ha, rfl⟩ : ∃ a, validateAuthorization _ = .ok a ∧ auth = some a := by
    cases hv :
      validateAuthorization (dict [.int 1, .int 1, .int 5, epoch, threshold, .array items, .bytes s.stateHash]) with
    | error e => simp [Option.mapM, hv, Functor.map, Except.map] at hauth
    | ok a => exact ⟨a, hv, by simpa [Option.mapM, hv, Functor.map, Except.map] using hauth.symm⟩
  obtain ⟨rfl, henvelope, hhistory⟩ := IdentityDraft.make_fields hmake
  exact ⟨s, a, hread, rotationOf_of_validate hgov ha, hkey, hdumps, henvelope, hhistory⟩

/-- What is written canonically for a draft is what the draft says. -/
theorem draft_says (hP : CanonicalCbor P) {seq : ℕ} {a : Authorization} (hwf : a.WellFormed)
    (hthr : 1 ≤ a.threshold ∧ a.threshold ≤ a.signers.length) (hc : canonical (updateValue n key seq (some a)) = true)
    (hupdate : d.signedUpdateBytes = encode (updateValue n key seq (some a))) :
    d.authorization = some a ∧ d.ownerName = n ∧ d.ownerPublicKey = key := by
  obtain ⟨u, hu, hname, hkey, -, -, hauth, -⟩ := d.contents_spec
  rw [hupdate, decode_updateValue hP (by simpa using hwf) (by simpa using hthr) hc] at hu
  obtain rfl := Except.ok.inj hu
  simp [pyGet, dictFrom, pyEqInt] at hname hkey
  exact ⟨hauth.symm, hname.symm, hkey.symm⟩

/-- A draft on a state that was read has that state below it. -/
theorem draft_previousState {w w' : World σ} {s : IdentityState} (hread : readState P A n w = (.ok (some s), w'))
    (hname : d.ownerName = n) (henvelope : d.previousStateEnvelope = some s.envelopeBytes)
    (hhistory : d.previousStateHistory = s.predecessorEnvelopes) : d.previousState = some s := by
  obtain ⟨e, w₁, -, hparse⟩ := readState_some A hread
  obtain ⟨c, hc, -, -, -⟩ := parseStateWithHistory_sound A hparse
  cases c with
  | nil => cases hc.state
  | cons x c =>
    have hx : s.envelopeBytes = x.1 := by
      rw [← Option.some.inj hc.state]
      rfl
    obtain ⟨-, -, -, -, -, -, -, -, -, hchain, -⟩ := d.contents_spec
    rw [hname, henvelope, hhistory, hx, predecessorEnvelopes_eq hc, List.tail_cons,
      parsePreviousStateChain_complete hc] at hchain
    exact (Except.ok.inj hchain).symm

end

/-! ### One order for the proofs -/

theorem bytesLt_asymm {a b : Bytes} (h : bytesLt a b = true) (h' : bytesLt b a = true) : False := by
  have hself := bytesLt_trans h h'
  rw [bytesLt_irrefl] at hself
  cases hself

/-- Two lists of the same proofs, both in order, are one. -/
theorem proofs_eq_of_perm {ps qs : List ProofEntry}
    (hps : ps.Pairwise fun x y => bytesLt (proofKey x) (proofKey y) = true)
    (hqs : qs.Pairwise fun x y => bytesLt (proofKey x) (proofKey y) = true) (h : ps.Perm qs) : ps = qs :=
  h.eq_of_pairwise (fun _ _ _ _ hab hba => (bytesLt_asymm hab hba).elim) hps hqs

/-- The envelope that both clients write for an update with its proofs in order. -/
theorem written_envelope (hP : CanonicalCbor P) {update e : Bytes} {ps : List ProofEntry}
    (h : Kotlin.encodeCanonical (dict [.int 1, .bytes update, .array (ps.map proofValue)]) = .ok e) :
    P.dumps (dict [.int 1, .bytes update, .array (ps.map proofValue)]) = some e ∧
      requireCanonical P e = .ok (dict [.int 1, .bytes update, .array (ps.map proofValue)]) := by
  obtain ⟨hc, rfl, -⟩ := Kotlin.encodeCanonical_sorted (tidy_versionOne _ _).sorted h
  have htidy := tidy_versionOne update ps
  exact ⟨hP.dumps_tidy htidy (by decide) hc, (hP.accepts_tidy htidy (by decide)).2 ⟨hc, rfl⟩⟩

/-- The update that both clients write. -/
theorem written_update (hP : CanonicalCbor P) {n key update update' : Bytes} {seq : ℕ} {a : Authorization}
    (h : P.dumps (updateValue n key seq (some a)) = some update)
    (h' : Kotlin.encodeCanonical (updateValue n key seq (some a)) = .ok update') :
    update = update' ∧ update = encode (updateValue n key seq (some a)) ∧
      canonical (updateValue n key seq (some a)) = true := by
  obtain ⟨hc, rfl, -⟩ := Kotlin.encodeCanonical_sorted (tidy_updateValue _ _ _ _).sorted h'
  rw [hP.dumps_tidy (tidy_updateValue _ _ _ _) (by decide) hc] at h
  obtain rfl := Option.some.inj h
  exact ⟨rfl, rfl, hc⟩

/-! ### Version-1 states -/

/-- The public part of a state that the Android client resolved. -/
def Kotlin.VerifiedIdentityState.head (t : Kotlin.VerifiedIdentityState) : Head where
  ownerKey := t.ownerPublicKey
  sequence := t.sequence
  stateHash := t.stateHash
  generation := t.generation
  threshold := t.threshold
  signers := t.signerSet

section

variable {σ : Type} {A : Adapter σ} {n key : Bytes} {entries : Option (List Value)} {d : IdentityDraft P}
  {w w' : World σ} {s : IdentityState}

/-- Both clients put the same authorization on the same state. -/
theorem same_authorization {t : Kotlin.VerifiedIdentityState} {k : Kotlin.VersionedOwnerKeyRotationDraft}
    {a a' : Authorization} (hsame : t.head = s.head) (ha : RotationOf s entries a) (hk : k.Rotates t a') : a = a' := by
  obtain ⟨-, hseq, hhash, hgen, hthr, hsig⟩ := (Head.mk.injEq ..).mp hsame
  have hne : s.signerSet ≠ [] := hsig ▸ hk.nonempty
  obtain ⟨hg, ht, hsigners⟩ := ha.versionOne hne
  rw [hk.authorization]
  obtain ⟨op, g, thr, sg, pred⟩ := a
  have h1 : g = a'.generation := Option.some.inj (hg.symm.trans (hgen.symm.trans hk.generation))
  have h2 : thr = k.threshold := Option.some.inj (ht.symm.trans (hthr.symm.trans hk.threshold))
  have h3 : op = 5 := ha.operation
  have h4 : sg = t.signerSet := hsigners.trans hsig.symm
  have h5 : pred = t.stateHash := ha.predecessor.trans hhash.symm
  rw [h1, h2, h3, h4, h5]

theorem read_headOk (hread : readState P A n w = (.ok (some s), w')) : s.head.Ok := by
  obtain ⟨e, w₁, -, hparse⟩ := readState_some A hread
  obtain ⟨c, hc, -⟩ := parseStateWithHistory_sound A hparse
  exact hc.headOk

/-- Proofs that carry the rotation on one client carry it on the other. -/
theorem quorate_of_proven {k : Kotlin.VersionedOwnerKeyRotationDraft} {proofs : List Kotlin.OwnerKeyRotationProof}
    {ps : List IdentityProof} {a : Authorization} (hok : s.head.Ok) (hne : s.signerSet ≠ []) (hop : a.operation = 5)
    (hthr : a.threshold = k.threshold) (hsigners : k.authorizedSigners = s.signerSet)
    (hproven : k.Proven P.primitives proofs)
    (hperm : (ps.map IdentityProof.entry).Perm (proofs.map Kotlin.OwnerKeyRotationProof.entry))
    (hkeys : ∀ p ∈ ps, ∀ i ∈ p.signerId, (i, p.signerPublicKey) ∈ s.signerSet) :
    Quorate P (some s.head) k.signedUpdateBytes key a ps := by
  have hlegacy : ¬LegacyRotation (some s.head) a := by
    intro h
    obtain ⟨-, g, hg, hnil⟩ := h
    obtain rfl := Option.some.inj hg
    exact hne hnil
  refine .quorum (by omega) hlegacy ?_ fun p hp => ?_
  · have hlen := hperm.length_eq
    simp only [List.length_map] at hlen
    rw [hthr, hlen]
    exact hproven.enough
  · obtain ⟨q, hq, hentry⟩ := List.mem_map.1 (hperm.mem_iff.1 (List.mem_map_of_mem hp))
    obtain ⟨hid, hsig⟩ := Prod.mk.inj hentry
    have hmem := hkeys p hp q.signerId hid.symm
    obtain ⟨key', hkey', hv⟩ := hproven.valid q hq
    rw [hsigners] at hkey'
    -- an id stands for one key
    obtain rfl : key' = p.signerPublicKey := congrArg Prod.snd (List.inj_on_of_nodup_map hok.idsNodup hkey' hmem rfl)
    refine ⟨q.signerId, hid.symm, ?_, ?_⟩
    · simpa [authorising, hop, IdentityState.head] using hmem
    · rw [← hsig]
      exact (Kotlin.verifySignature_iff.1 hv).2.2

theorem versionOne_agrees (hP : CanonicalCbor P) (hread : readState P A n w = (.ok (some s), w'))
    {w₁ : World σ} (hpy : createOwnerKeyRotationDraft A n key entries w = (.ok d, w₁))
    {t : Kotlin.VerifiedIdentityState} (hsame : t.head = s.head) {sign : Bytes → Bytes → Option Bytes}
    {active seed : Bytes} {k : Kotlin.VersionedOwnerKeyRotationDraft}
    (hk : Kotlin.VersionedOwnerKeyRotation.createDraft P.primitives sign n t active seed key = .ok k) :
    d.signedUpdateBytes = k.signedUpdateBytes ∧
      ∀ (b : IdentityBundle P) (proofs : List Kotlin.OwnerKeyRotationProof) (r : Kotlin.OwnerKeyRotationDraft),
        b.draft = d → k.finalizeWithProofs P.primitives proofs = .ok r →
        (b.proofs.map IdentityProof.entry).Perm (proofs.map Kotlin.OwnerKeyRotationProof.entry) →
        (∀ p ∈ b.proofs, ∀ i ∈ p.signerId, (i, p.signerPublicKey) ∈ s.signerSet) →
        b.finalize = .ok r.envelopeBytes := by
  obtain ⟨s', a, hread', ha, -, hdumps, henvelope, hhistory⟩ := createOwnerKeyRotationDraft_ok hpy
  obtain rfl : s = s' := Option.some.inj (Except.ok.inj (congrArg Prod.fst (hread.symm.trans hread')))
  obtain ⟨a', hrot, hname, hkey⟩ := Kotlin.createDraft_rotates hk
  obtain rfl := same_authorization hsame ha hrot
  have hwritten := hrot.update
  rw [hname, hkey, hrot.sequence, show t.sequence = s.sequence from congrArg Head.sequence hsame] at hwritten
  obtain ⟨hupdate, hbytes, hc⟩ := written_update hP hdumps hwritten
  refine ⟨hupdate, fun b proofs r hb hr hperm hkeys => ?_⟩
  subst hb
  have hok := read_headOk hread
  have hsigners : k.authorizedSigners = s.signerSet := hrot.signers.trans (congrArg Head.signers hsame)
  have hne : s.signerSet ≠ [] := fun hnil => hrot.nonempty ((congrArg Head.signers hsame).trans hnil)
  have hgoverned : k.Governed := by
    refine ⟨hsigners ▸ hok.idsNodup, ?_, hrot.positive, hrot.signers ▸ hrot.reachable⟩
    rw [hsigners]
    exact (hok.twoOfThree hne).2.le
  obtain ⟨hproven, e, henv, rfl⟩ := (Kotlin.VersionedOwnerKeyRotationDraft.finalizeWithProofs_ok hgoverned).1 hr
  obtain ⟨hauth, hdname, -⟩ := draft_says hP ha.wellFormed ha.threshold hc hbytes
  have hprevious := draft_previousState hread hdname henvelope hhistory
  -- the proofs of the bundle are those of the Android draft, in the same order
  have hproofs : b.proofs.map IdentityProof.entry = (k.opened a proofs).proofs :=
    proofs_eq_of_perm (proofsOk_entries b).ordered
    (Kotlin.VersionedOwnerKeyRotationDraft.opened_ordered hproven.distinct)
      (hperm.trans ((Kotlin.VersionedOwnerKeyRotationDraft.sortProofs_perm proofs).map _).symm)
  rw [Kotlin.VersionedOwnerKeyRotationDraft.envelopeItem_eq k a] at henv
  obtain ⟨he, hback⟩ := written_envelope hP henv
  rw [← hproofs, show (k.opened a proofs).update = b.draft.signedUpdateBytes from hupdate.symm] at he hback
  refine finalize_of_written hauth ?_ he hback
  rw [hprevious, Option.map_some, hupdate]
  exact quorate_of_proven hok hne ha.operation (by rw [hrot.authorization]) hsigners hproven hperm hkeys

/-! ### Legacy states -/

theorem mapM_keyed {given : List Value} {keyed : List (Bytes × Value)}
    (h : given.mapM (fun entry => (entryKey entry).map fun key => (key, entry)) = some keyed) :
    keyed.map Prod.snd = given := by
  induction given generalizing keyed with
  | nil =>
    simp only [List.mapM_nil, Option.pure_def, Option.some.injEq] at h
    rw [← h]
    rfl
  | cons v vs ih =>
    simp only [List.mapM_cons, Option.bind_eq_bind, Option.bind_eq_some_iff, Option.map_eq_some_iff, Option.pure_def,
      Option.some.injEq] at h
    obtain ⟨_, ⟨key, -, rfl⟩, rest, hrest, rfl⟩ := h
    rw [List.map_cons, ih hrest]

theorem sortEntries_perm {given sorted : List Value} (h : sortEntries given = some sorted) : sorted.Perm given := by
  simp only [sortEntries, Option.bind_eq_bind, Option.bind_eq_some_iff, Option.pure_def, Option.some.injEq] at h
  obtain ⟨keyed, hkeyed, rfl⟩ := h
  rw [← mapM_keyed hkeyed]
  exact (List.perm_insertionSort _ keyed).map _

/-- The signers of the authorization are those that were given, in order. -/
theorem signers_eq_sort {given : List Value} {signers : SignerSet} {a : Authorization}
    (ha : RotationOf s (some given) a)
    (hnil : s.signerSet = []) (hperm : given.Perm (signers.map signerValue)) : a.signers = sortSigners signers := by
  obtain ⟨-, -, given', sorted, hgiven, hsorted, hf⟩ := ha.legacy hnil
  obtain rfl := Option.some.inj hgiven
  have hsorted := (sortEntries_perm hsorted).trans hperm
  have hrange : sorted ∈ Set.range (List.map signerValue) := by
    rw [Set.range_list_map]
    intro v hv
    obtain ⟨e, -, he⟩ := List.mem_map.1 (hsorted.mem_iff.1 hv)
    exact ⟨e, he⟩
  obtain ⟨es, rfl⟩ := hrange
  obtain rfl := signers_of_forall₂ hf
  have hperm := (List.map_perm_map_iff signerValue_injective).1 hsorted
  obtain ⟨hself, hnodup⟩ := (eq_sort_nodup_iff (fun e : Str × Bytes => utf8Raw e.1) a.signers).2 ha.wellFormed.ordered
  rw [hself]
  exact sort_eq_of_perm (fun e : Str × Bytes => utf8Raw e.1) hperm hnodup

/-- The state that was read shows what its envelope says. -/
theorem read_head (hP : CanonicalCbor P) (hread : readState P A n w = (.ok (some s), w')) {o : Opened}
    (ho : o.Sealed s.envelopeBytes) : s.head = o.head P.primitives := by
  obtain ⟨e, w₁, -, hparse⟩ := readState_some A hread
  obtain ⟨c, hc, -⟩ := parseStateWithHistory_sound A hparse
  cases c with
  | nil => cases hc.state
  | cons x c =>
    have hx : s.envelopeBytes = x.1 := by
      rw [← Option.some.inj hc.state]
      rfl
    rw [hx] at ho
    rw [ho.unique ((opens_iff_sealed hP).1 (hc.opens x (by simp)).1).1]
    exact hc.head_eq

theorem legacy_agrees (hP : CanonicalCbor P) (hread : readState P A n w = (.ok (some s), w')) {given : List Value}
    {w₁ : World σ} (hpy : createOwnerKeyRotationDraft A n key (some given) w = (.ok d, w₁)) {signers : SignerSet}
    (hgiven : given.Perm (signers.map signerValue)) {sign : Bytes → Bytes → Option Bytes}
    {activeSeed active seed : Bytes} {k : Kotlin.OwnerKeyRotationDraft}
    (hk : Kotlin.LegacyOwnerKeyRotation.createDraft P.primitives sign n s.envelopeBytes activeSeed active seed key
      signers = .ok k) :
    d.signedUpdateBytes = k.signedUpdateBytes ∧
      ∀ (b : IdentityBundle P) (p : IdentityProof), b.draft = d → b.proofs = [p] → p.signerId = none →
        p.signerPublicKey = s.ownerPublicKey →
        P.verify p.signerPublicKey (P.sha256 d.signedUpdateBytes) p.signature = true →
        sign activeSeed (P.sha256 d.signedUpdateBytes) = some p.signature → b.finalize = .ok k.envelopeBytes := by
  obtain ⟨s', a, hread', ha, -, hdumps, henvelope, hhistory⟩ := createOwnerKeyRotationDraft_ok hpy
  obtain rfl : s = s' := Option.some.inj (Except.ok.inj (congrArg Prod.fst (hread.symm.trans hread')))
  obtain ⟨pred, proof, hpred, hname, -, hwritten, hproof, henv⟩ := Kotlin.LegacyOwnerKeyRotation.createDraft_ok hk
  obtain ⟨o, hfit, hauth, -, -, hseq, hhash⟩ := Kotlin.LegacyOwnerKeyRotation.parseLegacyPredecessor_ok hpred
  have hhead := read_head hP hread hfit.sealed
  have hnil : s.signerSet = [] := by
    have := congrArg Head.signers hhead
    simpa [IdentityState.head, Opened.head, hauth] using this
  have hstate : pred.stateHash = s.stateHash := hhash.trans (congrArg Head.stateHash hhead).symm
  have hsequence : pred.sequence = s.sequence := hseq.trans (congrArg Head.sequence hhead).symm
  obtain ⟨hgen, hthr, -⟩ := ha.legacy hnil
  have hsame : a = ⟨5, 1, 2, sortSigners signers, pred.stateHash⟩ := by
    rw [← ha.operation, ← hgen, ← hthr, ← signers_eq_sort ha hnil hgiven, hstate, ← ha.predecessor]
  rw [← hsame, hsequence] at hwritten
  obtain ⟨hupdate, hbytes, hc⟩ := written_update hP hdumps hwritten
  refine ⟨hupdate, fun b p hb hproofs hid hkey hverify hsign => ?_⟩
  subst hb
  obtain ⟨hdauth, hdname, -⟩ := draft_says hP ha.wellFormed ha.threshold hc hbytes
  have hprevious := draft_previousState hread hdname henvelope hhistory
  -- the wallet's own signature is the proof of the bundle
  rw [← hupdate] at hproof henv
  obtain rfl : proof = p.signature := Option.some.inj (hproof.symm.trans hsign)
  obtain ⟨he, hback⟩ := written_envelope hP henv
  have hentries : b.proofs.map IdentityProof.entry = [(none, p.signature)] := by
    rw [hproofs, ← hid]
    rfl
  rw [← hentries] at he hback
  refine finalize_of_written hdauth ?_ he hback
  rw [hprevious, hproofs]
  exact .rotateLegacy ha.operation rfl hnil hid hkey hverify

end

/-- On one accepted state both clients author the same rotation to one successor, and what the Android client finalizes
the core finalizes to the same envelope. -/
theorem rotation_authoring_agrees (P : Platform) (hP : CanonicalCbor P) {σ : Type} (A : Adapter σ)
    (sign : Bytes → Bytes → Option Bytes) (ownerName successorKey : Bytes) (entries : Option (List Value)) (w : World σ)
    (s : IdentityState) (d : IdentityDraft P) (hread : (readState P A ownerName w).1 = .ok (some s))
    (hpython : (createOwnerKeyRotationDraft A ownerName successorKey entries w).1 = .ok d) :
    -- a version-1 predecessor
    (∀ (t : Kotlin.VerifiedIdentityState) (active seed : Bytes) (k : Kotlin.VersionedOwnerKeyRotationDraft),
      t.head = s.head →
      Kotlin.VersionedOwnerKeyRotation.createDraft P.primitives sign ownerName t active seed successorKey = .ok k →
      d.signedUpdateBytes = k.signedUpdateBytes ∧
      ∀ (b : IdentityBundle P) (proofs : List Kotlin.OwnerKeyRotationProof) (r : Kotlin.OwnerKeyRotationDraft),
        b.draft = d → k.finalizeWithProofs P.primitives proofs = .ok r →
        (b.proofs.map IdentityProof.entry).Perm (proofs.map Kotlin.OwnerKeyRotationProof.entry) →
        (∀ p ∈ b.proofs, ∀ i ∈ p.signerId, (i, p.signerPublicKey) ∈ s.signerSet) →
        b.finalize = .ok r.envelopeBytes) ∧
    -- a legacy predecessor
    ∀ (given : List Value) (signers : SignerSet) (activeSeed active seed : Bytes) (k : Kotlin.OwnerKeyRotationDraft),
      entries = some given → given.Perm (signers.map signerValue) →
      Kotlin.LegacyOwnerKeyRotation.createDraft P.primitives sign ownerName s.envelopeBytes activeSeed active seed
        successorKey signers = .ok k →
      d.signedUpdateBytes = k.signedUpdateBytes ∧
      ∀ (b : IdentityBundle P) (p : IdentityProof), b.draft = d → b.proofs = [p] → p.signerId = none →
        p.signerPublicKey = s.ownerPublicKey →
        P.verify p.signerPublicKey (P.sha256 d.signedUpdateBytes) p.signature = true →
        sign activeSeed (P.sha256 d.signedUpdateBytes) = some p.signature → b.finalize = .ok k.envelopeBytes := by
  have hread := Prog.run_eq hread
  have hpython := Prog.run_eq hpython
  refine ⟨fun t active seed k hsame hk => versionOne_agrees hP hread hpython hsame hk,
    fun given signers activeSeed active seed k hgiven hperm hk => ?_⟩
  subst hgiven
  exact legacy_agrees hP hread hpython hperm hk

namespace Vector

def legacySeed : Bytes := (List.range 32).map UInt8.ofNat

def successorSeed : Bytes := (List.range 32).map fun i => UInt8.ofNat (32 + i)

/-- Ed25519 on the rotation, under the seeds of the owner and of the successor. -/
def sign (seed digest : Bytes) : Option Bytes :=
  if seed = legacySeed ∧ digest = rotationHash then some rotationSignature
  else if seed = successorSeed ∧ digest = rotationHash then some possessionSignature
  else none

/-- The registry before the rotation. -/
def legacyAdapter : Adapter Unit := { adapter with
  transport := { transport with
    getIdentityEnvelope := fun n st => (some (if n = ownerName then .bytes legacyEnvelope else .nothing), st) } }

def legacyState : IdentityState := legacy.state platform legacyEnvelope none

def ownerProof : IdentityProof := ⟨none, legacyKey, rotationSignature, by simp, rfl, rfl⟩

def ownerBundle : IdentityBundle platform := ⟨draft, [ownerProof], rfl, by simp⟩

end Vector

/-- Given the signers of the vector in other orders, both clients arrive at its envelope. -/
theorem rotation_authoring_agrees_vector : Vector.ownerBundle.finalize = .ok Vector.rotationEnvelope := by
  have hread : (readState Vector.platform Vector.legacyAdapter Vector.ownerName Vector.world).1 =
      .ok (some Vector.legacyState) := by decide +kernel
  have hpython : (createOwnerKeyRotationDraft Vector.legacyAdapter Vector.ownerName Vector.successorKey
      (some (Vector.signers.reverse.map signerValue)) Vector.world).1 = .ok Vector.draft := by decide +kernel
  have hkotlin : Kotlin.LegacyOwnerKeyRotation.createDraft Vector.platform.primitives Vector.sign Vector.ownerName
      Vector.legacyEnvelope Vector.legacySeed Vector.legacyKey Vector.successorSeed Vector.successorKey
      (Vector.signers.rotate 1) = .ok ⟨Vector.ownerName, Vector.legacyKey, Vector.successorKey, Vector.legacyHash, 8,
        Vector.rotationUpdate, Vector.rotationEnvelope⟩ := by decide +kernel
  have hverify : Vector.platform.verify Vector.legacyKey (Vector.platform.sha256 Vector.rotationUpdate)
      Vector.rotationSignature = true := by decide +kernel
  have hsign : Vector.sign Vector.legacySeed (Vector.platform.sha256 Vector.rotationUpdate) =
      some Vector.rotationSignature := by decide +kernel
  obtain ⟨-, hlegacy⟩ := rotation_authoring_agrees Vector.platform (referencePlatform_canonicalCbor _ _)
    Vector.legacyAdapter Vector.sign Vector.ownerName Vector.successorKey _ Vector.world Vector.legacyState Vector.draft
    hread hpython
  have hperm : (Vector.signers.reverse.map signerValue).Perm ((Vector.signers.rotate 1).map signerValue) :=
    ((List.reverse_perm _).trans (List.rotate_perm _ _).symm).map _
  obtain ⟨-, hfinalize⟩ := hlegacy _ _ _ _ _ _ rfl hperm hkotlin
  exact hfinalize Vector.ownerBundle Vector.ownerProof rfl rfl rfl rfl hverify hsign

end DecentWallet
