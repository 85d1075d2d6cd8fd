import DecentWallet.Sanity.Merge

/-! The transfer form of drafts and bundles: what is written is read back, and what is read is written
again as it was exactly in format version 2. -/

namespace DecentWallet

open Cbor IdentityError

section

variable {P : Platform}

theorem orRequest_ok {α : Type} {x : Except IdentityError α} {a : α} : orRequest x = .ok a ↔ x = .ok a := by
  cases x <;> simp [orRequest, Except.mapError]

theorem canonicalBytes_of_requireCanonical {data : Bytes} {v : Value} (h : requireCanonical P data = .ok v) :
    canonicalBytes P v = .ok data := orRaise_eq_ok.2 (requireCanonical_ok.1 h).2.2

/-- The first item of a transfer form. -/
def transferVersion (P : Platform) (data : Bytes) : Option ℤ :=
  match requireCanonical P data with
  | .ok (.map m) => (pyGet m 1).bind fun v => match v with
    | .int n => some n
    | _ => none
  | _ => none

/-- The draft inside a bundle's transfer form. -/
def bundleDraft (P : Platform) (data : Bytes) : Option Bytes :=
  match requireCanonical P data with
  | .ok (.map m) => (pyGet m 2).bind fun v => match v with
    | .bytes b => some b
    | _ => none
  | _ => none

theorem transferVersion_dict {data : Bytes} {n : ℤ} {vs : List Value}
    (h : requireCanonical P data = .ok (dict (.int n :: vs))) : transferVersion P data = some n := by
  simp [transferVersion, h, dict, dictFrom, pyGet, pyEqInt]

theorem bundleDraft_dict {data b : Bytes} {v : Value} {vs : List Value}
    (h : requireCanonical P data = .ok (dict (v :: .bytes b :: vs))) : bundleDraft P data = some b := by
  simp [bundleDraft, h, dict, dictFrom, pyGet, pyEqInt]

theorem bytesItems_eq {vs : List Value} {bs : List Bytes} : bytesItems vs = some bs ↔ vs = bs.map Value.bytes := by
  induction vs generalizing bs with
  | nil => cases bs <;> simp [bytesItems]
  | cons v vs ih =>
    cases v with
    | bytes b =>
      have hcons : bytesItems (.bytes b :: vs) = (bytesItems vs).map (b :: ·) := by
        unfold bytesItems
        rw [List.mapM_cons, Option.map_eq_bind]
        rfl
      rw [hcons, Option.map_eq_some_iff]
      simp only [ih]
      cases bs with
      | nil => simp
      | cons c bs => simp [and_comm]
    | _ => cases bs <;> simp [bytesItems, List.mapM_cons]

theorem requireOptionalBytes_ok {v : Value} {o : Option Bytes} : requireOptionalBytes v = .ok o ↔
    v = optionalBytes o := by
  cases v <;> cases o <;> simp [requireOptionalBytes, optionalBytes, eq_comm]

theorem requireOptionalStr_ok {v : Value} {o : Option Str} : requireOptionalStr v = .ok o ↔ v = signerIdValue o := by
  cases v <;> cases o <;> simp [requireOptionalStr, signerIdValue, eq_comm]

theorem requireTransferVersion_ok {v : Value} {first : Bool} :
    requireTransferVersion v = .ok first ↔ v = .int (if first then 1 else 2) := by
  unfold requireTransferVersion
  split
  · cases first <;> simp
  · cases first <;> simp
  · rename_i h1 h2
    cases first with
    | true => simpa using h1
    | false => simpa using h2

/-! ### Drafts -/

namespace IdentityDraft

theorem make_ok {u : Bytes} {e : Option Bytes} {hist : List Bytes} {d : IdentityDraft P} :
    make u e hist = .ok d ↔
      d.signedUpdateBytes = u ∧ d.previousStateEnvelope = e ∧ d.previousStateHistory = hist := by
  constructor
  · intro h
    unfold make at h
    split at h
    · cases h
      exact ⟨rfl, rfl, rfl⟩
    · cases h
  · rintro ⟨rfl, rfl, rfl⟩
    unfold make
    split
    · rename_i c hc
      exact congrArg Except.ok (ext rfl rfl rfl)
    · rename_i err herr
      cases d.valid.symm.trans herr

/-- What `to_cbor` encodes. -/
def transferValue (d : IdentityDraft P) : Value :=
  dict [.int 2, .bytes d.signedUpdateBytes, optionalBytes d.previousStateEnvelope,
    .array (d.previousStateHistory.map Value.bytes)]

theorem tidy_optionalBytes (o : Option Bytes) : Tidy 1 (optionalBytes o) := by
  cases o with
  | none => exact .null
  | some b => exact .bytes b

theorem tidy_bytesItems (bs : List Bytes) : Tidy 2 (.array (bs.map Value.bytes)) := .array fun v hv => by
  obtain ⟨b, -, rfl⟩ := List.mem_map.1 hv
  exact .bytes b

theorem tidy_transferValue (d : IdentityDraft P) : Tidy 3 d.transferValue := by
  refine .dict (by simp) (by decide) ?_
  simp only [List.mem_cons, List.not_mem_nil, or_false, forall_eq_or_imp, forall_eq, Tidy.int, tidy_bytesItems,
    (Tidy.bytes _).mono (show 1 ≤ 2 by decide), (tidy_optionalBytes _).mono (show 1 ≤ 2 by decide), and_self]

/-- Its byte strings have fewer than `2 ^ 64` bytes, as every byte string has. -/
structure Sized (d : IdentityDraft P) : Prop where
  update : d.signedUpdateBytes.length < 2 ^ 64
  envelope : ∀ e ∈ d.previousStateEnvelope, e.length < 2 ^ 64
  history : ∀ e ∈ d.previousStateHistory, e.length < 2 ^ 64

theorem Sized.canonical {d : IdentityDraft P} (h : d.Sized) : Cbor.canonical d.transferValue = true := by
  have henvelope : Cbor.canonical (optionalBytes d.previousStateEnvelope) = true := by
    cases he : d.previousStateEnvelope with
    | none => rfl
    | some e => simpa [optionalBytes, Cbor.canonical] using h.envelope e he
  have hdepth : d.previousStateHistory.length < 2 ^ 64 := by
    obtain ⟨-, -, -, -, -, -, -, hdepth, -⟩ := d.contents_spec
    exact hdepth.trans_lt (by decide)
  have hhistory : ∀ v ∈ d.previousStateHistory.map Value.bytes, Cbor.canonical v = true := by
    intro v hv
    obtain ⟨b, hb, rfl⟩ := List.mem_map.1 hv
    simpa [Cbor.canonical] using h.history b hb
  rw [transferValue, canonical_dict (by simp), canonicalList_iff]
  simp only [List.mem_cons, List.not_mem_nil, or_false, forall_eq_or_imp, forall_eq, henvelope, true_and]
  refine ⟨by decide, by simpa [Cbor.canonical] using h.update, ?_⟩
  simp only [Cbor.canonical, List.length_map, Bool.and_eq_true, decide_eq_true_eq, canonicalList_iff]
  exact ⟨hdepth, hhistory⟩

/-- The item that holds the history, by format version. -/
def HistoryItem (first : Bool) (v : Value) (hist : List Bytes) : Prop :=
  if first then ∃ o, v = optionalBytes o ∧ hist = o.toList else v = .array (hist.map Value.bytes)

theorem requireDraftHistory_ok {first : Bool} {v : Value} {hist : List Bytes} :
    requireDraftHistory first v = .ok hist ↔ HistoryItem first v hist := by
  cases first with
  | true =>
    simp only [requireDraftHistory, bind_eq_ok, requireOptionalBytes_ok, pure_eq_ok, HistoryItem, if_true]
    exact exists_congr fun o => and_congr_right fun _ => eq_comm
  | false =>
    cases v <;> simp [requireDraftHistory, HistoryItem, bytesItems_eq]

theorem HistoryItem.tidy {first : Bool} {v : Value} {hist : List Bytes} (h : HistoryItem first v hist) : Tidy 2 v := by
  cases first with
  | true =>
    obtain ⟨o, rfl, -⟩ := h
    exact (tidy_optionalBytes o).mono (by decide)
  | false =>
    obtain rfl : v = .array (hist.map Value.bytes) := h
    exact tidy_bytesItems hist

theorem fromCbor_ok (hP : CborCodec P) {data : Bytes} {d : IdentityDraft P} : fromCbor data = .ok d ↔
    ∃ first v, requireCanonical P data = .ok (dict [.int (if first then 1 else 2), .bytes d.signedUpdateBytes,
      optionalBytes d.previousStateEnvelope, v]) ∧ HistoryItem first v d.previousStateHistory := by
  unfold fromCbor
  rw [orRequest_ok]
  simp only [bind_eq_ok, item_ok, requireTransferVersion_ok, requireOptionalBytes_ok, requireDraftHistory_ok,
    requireBytes_ok, make_ok]
  constructor
  · rintro ⟨w, hw, m, hm, _, h1, first, rfl, _, h3, e, rfl, v, h4, hist, hhist, _, h2, ub, ⟨rfl, -⟩, rfl, rfl, rfl⟩
    have hwritten := writtenAs_of_exactKeys (hP.dicts _ _ hw) hm rfl (by simp)
      (.cons h1 (.cons h2 (.cons h3 (.cons h4 .nil))))
      fun _ => .cons (Tidy.int _).writtenAs (.cons (Tidy.bytes _).writtenAs (.cons (tidy_optionalBytes _).writtenAs
        (.cons hhist.tidy.writtenAs .nil)))
    rw [hP.reads.accepted hwritten hw] at hw
    exact ⟨first, v, hw, hhist⟩
  · rintro ⟨first, v, hw, hhist⟩
    exact ⟨_, hw, _, requireExactKeys_dict rfl, _, rfl, first, rfl, _, rfl, _, rfl, v, rfl, _, hhist, _, rfl, _,
      ⟨rfl, by simp⟩, rfl, rfl, rfl⟩

theorem toCbor_sized (hP : CborCodec P) {d : IdentityDraft P} (h : d.Sized) : ∃ data, d.toCbor = .ok data := by
  obtain ⟨data, hdata⟩ := hP.writes _ d.tidy_transferValue.plain h.canonical (d.tidy_transferValue.shallow (by decide))
  exact ⟨data, orRaise_eq_ok.2 hdata⟩

/-- What is written is read back. -/
theorem fromCbor_toCbor (hP : CborCodec P) {d : IdentityDraft P} {data : Bytes} (h : d.toCbor = .ok data) :
    requireCanonical P data = .ok d.transferValue ∧ fromCbor data = .ok d := by
  have hread := hP.reads.reads_tidy d.tidy_transferValue (orRaise_eq_ok.1 h)
  exact ⟨hread, (fromCbor_ok hP).2 ⟨false, _, hread, rfl⟩⟩

/-- Only format version 2 is written again as it was. -/
theorem toCbor_eq_iff (hP : CborCodec P) {data : Bytes} {d : IdentityDraft P} (h : fromCbor data = .ok d) :
    d.toCbor = .ok data ↔ transferVersion P data = some 2 := by
  constructor
  · intro hdata
    exact transferVersion_dict (fromCbor_toCbor hP hdata).1
  · intro hv
    obtain ⟨first, v, hdata, hhist⟩ := (fromCbor_ok hP).1 h
    rw [transferVersion_dict hdata] at hv
    cases first with
    | true => simp at hv
    | false =>
      have hv : v = .array (d.previousStateHistory.map Value.bytes) := hhist
      rw [hv] at hdata
      exact canonicalBytes_of_requireCanonical hdata

end IdentityDraft

/-! ### Bundles -/

/-- A proof as a bundle writes it. -/
def IdentityProof.transferValue (p : IdentityProof) : Value :=
  dict [signerIdValue p.signerId, .bytes p.signerPublicKey, .bytes p.signature]

theorem IdentityProof.tidy_transferValue (p : IdentityProof) : Tidy 2 p.transferValue :=
  .dict (by simp) le_rfl (by simp [tidy_signerIdValue, Tidy.bytes])

theorem IdentityProof.canonical_transferValue (p : IdentityProof) : canonical p.transferValue = true := by
  have hid : canonical (signerIdValue p.signerId) = true := by
    cases hp : p.signerId with
    | none => rfl
    | some i =>
      obtain ⟨hvalid, hlen⟩ := p.idOk i hp
      simp only [signerIdValue, canonical, Bool.and_eq_true, decide_eq_true_eq]
      exact ⟨hvalid.2, by omega⟩
  have hkey : canonical (.bytes p.signerPublicKey) = true := by simp [canonical, p.keyOk, keyLength]
  have hsignature : canonical (.bytes p.signature) = true := by simp [canonical, p.signatureOk, signatureLength]
  rw [transferValue, canonical_dict (by simp), canonicalList_iff]
  simpa using ⟨hid, hkey, hsignature⟩

theorem IdentityProof.make_ok {i : Option Str} {k s : Bytes} {p : IdentityProof} :
    make i k s = .ok p ↔ p.signerId = i ∧ p.signerPublicKey = k ∧ p.signature = s := by
  unfold make
  split_ifs with h
  · rw [Except.ok.injEq]
    constructor
    · rintro rfl
      exact ⟨rfl, rfl, rfl⟩
    · rintro ⟨rfl, rfl, rfl⟩
      rfl
  · simp only [false_iff]
    rintro ⟨rfl, rfl, rfl⟩
    exact h ⟨p.idOk, p.keyOk, p.signatureOk⟩

theorem proofFromValue_writtenAs {v : Value} {p : IdentityProof} (hd : Distinct v) (h : proofFromValue v = .ok p) :
    WrittenAs v p.transferValue := by
  simp only [proofFromValue, bind_eq_ok, item_ok, requireOptionalStr_ok, requireBytes_ok, IdentityProof.make_ok] at h
  obtain ⟨m, hm, _, h1, i, rfl, _, h2, k, ⟨rfl, -⟩, _, h3, s, ⟨rfl, -⟩, rfl, rfl, rfl⟩ := h
  exact writtenAs_of_exactKeys hd hm rfl (by simp) (.cons h1 (.cons h2 (.cons h3 .nil)))
    fun _ => .cons (tidy_signerIdValue _).writtenAs
    (.cons (Tidy.bytes _).writtenAs (.cons (Tidy.bytes _).writtenAs .nil))

theorem proofFromValue_transferValue (p : IdentityProof) : proofFromValue p.transferValue = .ok p := by
  simp only [proofFromValue, bind_eq_ok, item_ok, requireOptionalStr_ok, requireBytes_ok, IdentityProof.make_ok]
  exact ⟨_, requireExactKeys_dict rfl, _, rfl, _, rfl, _, rfl, _, ⟨rfl, by simp⟩, _, rfl, _, ⟨rfl, by simp⟩,
    rfl, rfl, rfl⟩

theorem mapM_proofFromValue_ok {vs : List Value} {ps : List IdentityProof} :
    vs.mapM proofFromValue = .ok ps ↔ List.Forall₂ (fun v p => proofFromValue v = .ok p) vs ps := by
  induction vs generalizing ps with
  | nil => cases ps <;> simp [pure, Except.pure]
  | cons v vs ih =>
    simp only [List.mapM_cons, bind_eq_ok, pure_eq_ok, ih]
    cases ps with
    | nil => simp
    | cons p ps => simp

namespace IdentityBundle

theorem make_ok {d : IdentityDraft P} {ps : List IdentityProof} {b : IdentityBundle P} :
    make d ps = .ok b ↔ b.draft = d ∧ b.proofs = ps := by
  unfold make
  split_ifs with h
  · rw [Except.ok.injEq]
    constructor
    · rintro rfl
      exact ⟨rfl, rfl⟩
    · rintro ⟨rfl, rfl⟩
      rfl
  · simp only [false_iff]
    rintro ⟨rfl, rfl⟩
    exact h ⟨b.sorted, b.distinct⟩

/-- A bundle's transfer form with the bytes of its draft. -/
def transferValue (version : ℤ) (draft : Bytes) (ps : List IdentityProof) : Value :=
  dict [.int version, .bytes draft, .array (ps.map IdentityProof.transferValue)]

theorem tidy_transferValue (version : ℤ) (draft : Bytes) (ps : List IdentityProof) :
    Tidy 4 (transferValue version draft ps) := by
  have hproofs : Tidy 3 (.array (ps.map IdentityProof.transferValue)) := .array fun v hv => by
    obtain ⟨p, -, rfl⟩ := List.mem_map.1 hv
    exact p.tidy_transferValue
  refine .dict (by simp) (by decide) ?_
  simp only [List.mem_cons, List.not_mem_nil, or_false, forall_eq_or_imp, forall_eq, hproofs, and_true,
    (Tidy.int _).mono (show 2 ≤ 3 by decide), (Tidy.bytes _).mono (show 1 ≤ 3 by decide)]

/-- The same of a bundle, its draft in transfer form, and the number of its proofs. -/
structure Sized (b : IdentityBundle P) : Prop where
  draft : b.draft.Sized
  inner : ∀ data, b.draft.toCbor = .ok data → data.length < 2 ^ 64
  proofs : b.proofs.length < 2 ^ 64

theorem canonical_transferValue {draft : Bytes} {ps : List IdentityProof} (hdraft : draft.length < 2 ^ 64)
    (hps : ps.length < 2 ^ 64) : canonical (transferValue 2 draft ps) = true := by
  have hproofs : ∀ v ∈ ps.map IdentityProof.transferValue, canonical v = true := by
    intro v hv
    obtain ⟨p, -, rfl⟩ := List.mem_map.1 hv
    exact p.canonical_transferValue
  rw [transferValue, canonical_dict (by simp)]
  simp only [canonicalList, canonical, Bool.and_true, Bool.and_eq_true, decide_eq_true_eq, List.length_map,
    canonicalList_iff]
  exact ⟨by decide, hdraft, hps, hproofs⟩

theorem fromCbor_ok (hP : CborCodec P) {data : Bytes} {b : IdentityBundle P} : fromCbor data = .ok b ↔
    ∃ (first : Bool) (inner : Bytes), requireCanonical P data =
      .ok (transferValue (if first then 1 else 2) inner b.proofs) ∧ IdentityDraft.fromCbor inner = .ok b.draft := by
  unfold fromCbor
  rw [orRequest_ok]
  simp only [bind_eq_ok, item_ok, requireTransferVersion_ok, requireBytes_ok, requireList_ok, make_ok,
    mapM_proofFromValue_ok]
  constructor
  · rintro ⟨w, hw, m, hm, _, h1, first, rfl, _, h2, inner, ⟨rfl, -⟩, _, h3, vs, rfl, ps, hps, d, hd, rfl, rfl⟩
    have hwritten := writtenAs_of_exactKeys (hP.dicts _ _ hw) hm rfl (by simp) (.cons h1 (.cons h2 (.cons h3 .nil)))
      fun hd => .cons (Tidy.int _).writtenAs (.cons (Tidy.bytes _).writtenAs (.cons (.array (forall₂_writtenAs
        (hd (.array vs) (by simp)) (fun _ _ hv hp => proofFromValue_writtenAs hv hp) hps)) .nil))
    rw [hP.reads.accepted hwritten hw] at hw
    exact ⟨first, inner, hw, hd⟩
  · rintro ⟨first, inner, hw, hd⟩
    exact ⟨_, hw, _, requireExactKeys_dict rfl, _, rfl, first, rfl, _, rfl, inner, ⟨rfl, by simp⟩, _, rfl, _, rfl, _,
      forall₂_map fun p _ => proofFromValue_transferValue p, _, hd, rfl, rfl⟩

theorem toCbor_ok {b : IdentityBundle P} {data : Bytes} : b.toCbor = .ok data ↔
    ∃ inner, b.draft.toCbor = .ok inner ∧ P.dumps (transferValue 2 inner b.proofs) = some data := by
  unfold toCbor
  rw [bind_eq_ok]
  exact exists_congr fun inner => and_congr_right fun _ => orRaise_eq_ok

theorem toCbor_sized (hP : CborCodec P) {b : IdentityBundle P} (h : b.Sized) : ∃ data, b.toCbor = .ok data := by
  obtain ⟨inner, hinner⟩ := IdentityDraft.toCbor_sized hP h.draft
  have htidy := tidy_transferValue 2 inner b.proofs
  obtain ⟨data, hdata⟩ := hP.writes _ htidy.plain (canonical_transferValue (h.inner inner hinner) h.proofs)
    (htidy.shallow (by decide))
  exact ⟨data, toCbor_ok.2 ⟨inner, hinner, hdata⟩⟩

theorem fromCbor_toCbor (hP : CborCodec P) {b : IdentityBundle P} {data : Bytes} (h : b.toCbor = .ok data) :
    fromCbor data = .ok b := by
  obtain ⟨inner, hinner, hdata⟩ := toCbor_ok.1 h
  exact (fromCbor_ok hP).2 ⟨false, inner, hP.reads.reads_tidy (tidy_transferValue _ _ _) hdata,
    (IdentityDraft.fromCbor_toCbor hP hinner).2⟩

theorem toCbor_eq_iff (hP : CborCodec P) {data : Bytes} {b : IdentityBundle P} (h : fromCbor data = .ok b) :
    b.toCbor = .ok data ↔ transferVersion P data = some 2 ∧
      (bundleDraft P data).bind (transferVersion P) = some 2 := by
  obtain ⟨first, inner, hdata, hdraft⟩ := (fromCbor_ok hP).1 h
  rw [transferVersion_dict hdata, bundleDraft_dict hdata, Option.bind_some, ← IdentityDraft.toCbor_eq_iff hP hdraft,
    toCbor_ok]
  constructor
  · rintro ⟨inner', hinner, hdumps⟩
    have hback := hP.reads.reads_tidy (tidy_transferValue _ _ _) hdumps
    have heq := dict_inj (Except.ok.inj (hdata.symm.trans hback))
    simp only [List.cons.injEq, Value.int.injEq, Value.bytes.injEq] at heq
    exact ⟨congrArg some heq.1, heq.2.1 ▸ hinner⟩
  · rintro ⟨hv, hinner⟩
    rw [Option.some.inj hv] at hdata
    exact ⟨inner, hinner, (requireCanonical_ok.1 hdata).2.2⟩

end IdentityBundle

theorem orRequest_error {α : Type} {x : Except IdentityError α} {e : IdentityError} (h : orRequest x = .error e) :
    e = invalidIdentityRequest := by
  cases x with
  | ok a => cases h
  | error f => exact (Except.error.inj h).symm

end

/-- Drafts and bundles survive the exchange, version 1 is accepted but written as version 2, and everything else is an
`InvalidIdentityRequest`. -/
theorem exchange_format (P : Platform) (hP : CborCodec P) :
    (∀ d : IdentityDraft P, (d.Sized → ∃ data, d.toCbor = .ok data) ∧
      ∀ data, d.toCbor = .ok data → IdentityDraft.fromCbor data = .ok d) ∧
    (∀ b : IdentityBundle P, (b.Sized → ∃ data, b.toCbor = .ok data) ∧
      ∀ data, b.toCbor = .ok data → IdentityBundle.fromCbor data = .ok b) ∧
    (∀ (data : Bytes) (d : IdentityDraft P), IdentityDraft.fromCbor data = .ok d →
      (d.Sized → ∃ again, d.toCbor = .ok again ∧ IdentityDraft.fromCbor again = .ok d) ∧
        (d.toCbor = .ok data ↔ transferVersion P data = some 2)) ∧
    (∀ (data : Bytes) (b : IdentityBundle P), IdentityBundle.fromCbor data = .ok b →
      (b.Sized → ∃ again, b.toCbor = .ok again ∧ IdentityBundle.fromCbor again = .ok b) ∧
        (b.toCbor = .ok data ↔ transferVersion P data = some 2 ∧
          (bundleDraft P data).bind (transferVersion P) = some 2)) ∧
    ∀ (data : Bytes) (e : IdentityError),
      ((IdentityDraft.fromCbor data : Except IdentityError (IdentityDraft P)) = .error e → e = invalidIdentityRequest) ∧
      ((IdentityBundle.fromCbor data : Except IdentityError (IdentityBundle P)) = .error e →
        e = invalidIdentityRequest) := by
  refine ⟨fun _ => ⟨IdentityDraft.toCbor_sized hP, fun _ h => (IdentityDraft.fromCbor_toCbor hP h).2⟩,
    fun _ => ⟨IdentityBundle.toCbor_sized hP, fun _ h => IdentityBundle.fromCbor_toCbor hP h⟩,
    fun data d h => ⟨fun hsized => ?_, IdentityDraft.toCbor_eq_iff hP h⟩,
    fun data b h => ⟨fun hsized => ?_, IdentityBundle.toCbor_eq_iff hP h⟩,
    fun _ _ => ⟨orRequest_error, orRequest_error⟩⟩
  · obtain ⟨again, hagain⟩ := IdentityDraft.toCbor_sized hP hsized
    exact ⟨again, hagain, (IdentityDraft.fromCbor_toCbor hP hagain).2⟩
  · obtain ⟨again, hagain⟩ := IdentityBundle.toCbor_sized hP hsized
    exact ⟨again, hagain, IdentityBundle.fromCbor_toCbor hP hagain⟩

namespace Vector

/-- The draft of the ordinary update in format version 1, which holds one predecessor. -/
def draftVersionOne : Bytes :=
  encode (dict [.int 1, .bytes ordinaryUpdate, .bytes rotationEnvelope, .bytes legacyEnvelope])

/-- A bundle of version 2 around it. -/
def mixedBundle : Bytes :=
  encode (dict [.int 2, .bytes draftVersionOne, .array [bobProof.transferValue, carolProof.transferValue]])

end Vector

/-- The ordinary update's bundle is written and read back, and read as well around a draft of version 1, from which
it is not written again. -/
theorem exchange_format_vector :
    (∃ data, Vector.ordinaryBundle.toCbor = .ok data ∧ IdentityBundle.fromCbor data = .ok Vector.ordinaryBundle) ∧
    IdentityBundle.fromCbor Vector.mixedBundle = .ok Vector.ordinaryBundle ∧
    Vector.ordinaryBundle.toCbor ≠ .ok Vector.mixedBundle := by
  obtain ⟨-, hbundle, -, hagain, -⟩ := exchange_format Vector.platform (referencePlatform_codec _ _)
  have hinner : Vector.ordinaryDraft.toCbor = .ok (encode Vector.ordinaryDraft.transferValue) := by decide +kernel
  have hsized : Vector.ordinaryBundle.Sized := by
    refine ⟨⟨by decide +kernel, by decide +kernel, by decide +kernel⟩, fun data hdata => ?_, by decide⟩
    cases hinner.symm.trans hdata
    decide +kernel
  have hmixed : IdentityBundle.fromCbor Vector.mixedBundle = .ok Vector.ordinaryBundle := by decide +kernel
  obtain ⟨htotal, hback⟩ := hbundle Vector.ordinaryBundle
  obtain ⟨data, hdata⟩ := htotal hsized
  refine ⟨⟨data, hdata, hback data hdata⟩, hmixed, fun h => ?_⟩
  obtain ⟨-, hiff⟩ := hagain _ _ hmixed
  exact absurd (hiff.1 h).2 (by decide +kernel)

end DecentWallet
