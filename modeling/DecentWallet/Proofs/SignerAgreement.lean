import DecentWallet.Sanity.Finalizing
import DecentWallet.Spec.Signer

/-! The signer's decoder and the adapter's accept the same updates, and the signer accepts every update that a
submission asks it to sign. -/

namespace DecentWallet

open Cbor Raised

/-! ### Signer entries -/

@[simp] theorem signingInput_ok {α : Type} {x : Except IdentityError α} {a : α} :
    signingInput x = .ok a ↔ x = .ok a := by
  cases x <;> simp [signingInput, Except.mapError]

theorem requireKey_ok {v : Value} {k : Bytes} : requireKey v = .ok k ↔ v = .bytes k ∧ k.length = keyLength := by
  simp [requireKey, requireBytes_ok]

theorem requireEntryId_ok {v : Value} {i : Str} : requireEntryId v = .ok i ↔ v = .text i ∧ i ≠ [] := by
  cases v with
  | text s =>
    simp only [requireEntryId, bind_eq_ok, reject_eq_ok, pure_eq_ok, Value.text.injEq]
    refine ⟨fun h => ?_, fun h => ?_⟩
    · obtain ⟨_, hne, rfl⟩ := h
      exact ⟨rfl, hne⟩
    · obtain ⟨rfl, hne⟩ := h
      exact ⟨(), hne, rfl⟩
  | _ => simp [requireEntryId]

theorem readSignerEntries_cons {v : Value} {vs : List Value} {seen r : SignerSet} (h : OrderedSigners seen) :
    readSignerEntries (v :: vs) seen = .ok r ↔
      ∃ e, EntryIs v e ∧ OrderedSigners (seen ++ [e]) ∧ readSignerEntries vs (seen ++ [e]) = .ok r := by
  have hfresh : ∀ {i : Str} {k : Bytes}, (i ∉ seen.map Prod.fst ∧ k ∉ seen.map Prod.snd) ↔
      ∀ x ∈ seen, x.1 ≠ i ∧ x.2 ≠ k := by
    intro i k
    simp only [List.mem_map, not_exists, not_and, forall_and]
  simp only [readSignerEntries, bind_eq_ok, signingInput_ok, item_ok, requireEntryId_ok, requireKey_ok, orRaise_eq_ok,
    utf8_eq_some, reject_eq_ok, not_or, not_lt, not_exists, not_and, Bool.not_eq_false, hfresh]
  refine ⟨fun hread => ?_, fun hread => ?_⟩
  · obtain ⟨m, hm, _, hi, i, ⟨rfl, hne⟩, _, ⟨hs, rfl⟩, _, hb, _, hlast, _, hk, key, ⟨rfl, hlen⟩, _, hnew, hr⟩ := hread
    exact ⟨(i, key), ⟨⟨m, hm, hi, hk⟩, ⟨hne, hs⟩, hb, hlen⟩, (orderedSigners_concat h).2 ⟨hnew, hlast⟩, hr⟩
  · obtain ⟨⟨i, key⟩, ⟨⟨m, hm, hi, hk⟩, ⟨hne, hs⟩, hb, hlen⟩, ho, hr⟩ := hread
    obtain ⟨hnew, hlast⟩ := (orderedSigners_concat h).1 ho
    exact ⟨m, hm, _, hi, i, ⟨rfl, hne⟩, _, ⟨hs, rfl⟩, (), hb, (), hlast, _, hk, key, ⟨rfl, hlen⟩, (), hnew, hr⟩

theorem readSignerEntries_ok {vs : List Value} {r : SignerSet} : readSignerEntries vs [] = .ok r ↔
    List.Forall₂ EntryIs vs r ∧ OrderedSigners r := by
  simpa using accumulate_ok (f := readSignerEntries) (R := EntryIs) (G := OrderedSigners) (fun _ => rfl)
    (fun v vs seen r hs => readSignerEntries_cons hs) (fun _ _ h => h.of_append) (l := vs) (s := []) (r := r)
    ⟨⟨by simp, by simp⟩, by simp⟩

/-! ### Updates -/

theorem requireEntries_ok {v : Value} {vs : List Value} : requireEntries v = .ok vs ↔ v = .array vs ∧ vs ≠ [] := by
  cases v with
  | array xs =>
    simp only [requireEntries, bind_eq_ok, reject_eq_ok, pure_eq_ok, Value.array.injEq]
    refine ⟨fun h => ?_, fun h => ?_⟩
    · obtain ⟨_, hne, rfl⟩ := h
      exact ⟨rfl, hne⟩
    · obtain ⟨rfl, hne⟩ := h
      exact ⟨(), hne, rfl⟩
  | _ => simp [requireEntries]

/-- The signer reads the authorizations that the adapter reads, and asks for its key unless the signers change or the
owner key does. -/
theorem validateSignerAuthorization_ok {v : Value} {K : Bytes} {u : Unit} :
    validateSignerAuthorization v K = .ok u ↔
      ∃ a, AuthorizationIs v a ∧ (K ∈ a.signers.map Prod.snd ∨ a.operation ∈ [3, 5]) := by
  simp only [validateSignerAuthorization, bind_eq_ok, signingInput_ok, item_ok, requireUint_ok, requireEntries_ok,
    requireKey_ok, reject_eq_ok, not_not, not_or, not_lt, readSignerEntries_ok]
  refine ⟨fun h => ?_, fun h => ?_⟩
  · obtain ⟨m, hm, _, h1, _, rfl, _, rfl, _, h2, _, rfl, _, rfl, _, h3, op, rfl, _, hop, _, h4, gen, rfl, _, h5, thr,
      rfl, _, h6, vs, ⟨rfl, -⟩, es, ⟨hf, hord⟩, _, hthr, _, h7, pred, ⟨rfl, hpred⟩, hsigner⟩ := h
    rw [hf.length_eq] at hthr
    refine ⟨⟨op, gen, thr, es, pred⟩, ⟨⟨m, vs, hm, h1, h2, h3, h4, h5, h6, hf, h7⟩,
      ⟨hop, ids_of_forall₂ hf, hord.1.1, hord.1.2, hord.2, hpred⟩, hthr⟩, ?_⟩
    by_contra hnone
    rw [not_or] at hnone
    exact hsigner hnone
  · obtain ⟨a, ⟨⟨m, vs, hm, h1, h2, h3, h4, h5, h6, hf, h7⟩, hwf, hthr⟩, hsigner⟩ := h
    have hne : vs ≠ [] := by
      rintro rfl
      rw [List.forall₂_nil_left_iff.1 hf] at hthr
      simp only [List.length_nil] at hthr
      omega
    refine ⟨m, hm, _, h1, 1, rfl, (), rfl, _, h2, 1, rfl, (), rfl, _, h3, _, rfl, (), hwf.operation, _, h4, _, rfl, _,
      h5, _, rfl, _, h6, vs, ⟨rfl, hne⟩, a.signers, ⟨hf, ⟨hwf.idsNodup, hwf.keysNodup⟩, hwf.ordered⟩, (), ?_, _, h7, _,
      ⟨rfl, hwf.predecessor⟩, ?_⟩
    · rw [hf.length_eq]
      exact hthr
    · intro hnone
      rcases hsigner with hsigner | hsigner
      · exact hnone.1 hsigner
      · exact hnone.2 hsigner

theorem requireUpdateKeys_ok {v : Value} {m : Dict} : requireUpdateKeys v = .ok m ↔ v = .map m ∧
    m.any (fun p => !isInt p.1) = false ∧ (keySet m [1, 2, 3] ∨ keySet m [1, 2, 3, 4]) := by
  cases v with
  | map x =>
    simp only [requireUpdateKeys, bind_eq_ok, reject_eq_ok, pure_eq_ok, Value.map.injEq, not_or,
      Bool.not_eq_true]
    refine ⟨fun h => ?_, fun h => ?_⟩
    · obtain ⟨_, ⟨hints, hkeys⟩, rfl⟩ := h
      exact ⟨rfl, hints, by tauto⟩
    · obtain ⟨rfl, hints, hkeys⟩ := h
      exact ⟨(), ⟨hints, by tauto⟩, rfl⟩
  | _ => simp [requireUpdateKeys]

theorem requireEmptyDict_ok {v : Value} {u : Unit} : requireEmptyDict v = .ok u ↔ requireExactKeys [] v = .ok [] := by
  cases v with
  | map m => cases m <;> simp [requireEmptyDict, requireExactKeys_ok, keySet, intKeys]
  | _ => simp [requireEmptyDict, requireExactKeys]

/-- The rules for the key of the signer: the owner signs a legacy update, a listed signer the rest, except where the
predecessor's signers are asked. -/
def MaySign (u : SignedUpdate) (ownerKey K : Bytes) : Prop :=
  u.authorization = none ∧ ownerKey = K ∨ ∃ a, u.authorization = some a ∧
    (a.operation ∈ [1, 2, 4] ∧ K ∈ a.signers.map Prod.snd ∨ a.operation ∈ [3, 5])

theorem mem_or_iff {a : Authorization} (hop : a.operation ∈ [1, 2, 3, 4, 5]) {K : Bytes} :
    (K ∈ a.signers.map Prod.snd ∨ a.operation ∈ [3, 5]) ↔
      (a.operation ∈ [1, 2, 4] ∧ K ∈ a.signers.map Prod.snd ∨ a.operation ∈ [3, 5]) := by
  by_cases hfree : a.operation ∈ [3, 5]
  · simp only [hfree, or_true]
  · have hlisted : a.operation ∈ [1, 2, 4] := by
      simp only [List.mem_cons, List.not_mem_nil, or_false] at hop hfree ⊢
      omega
    simp only [hfree, hlisted, or_false, true_and]

theorem validateIdentityUpdate_ok {P : Platform} {data K : Bytes} {x : Unit} :
    validateIdentityUpdate P data K = .ok x ↔ ∃ u name key, decodeSignedUpdate P data = .ok u ∧
      pyGet u.record 1 = some (.bytes name) ∧ name ≠ [] ∧ pyGet u.record 2 = some (.bytes key) ∧
      key.length = keyLength ∧ MaySign u key K := by
  simp only [validateIdentityUpdate, bind_eq_ok, signingInput_ok, requireUpdateKeys_ok, item_ok, requireBytes_ok,
    reject_eq_ok, requireKey_ok, requireEmptyDict_ok, requireUint_ok, decodeSignedUpdate_ok]
  refine ⟨fun h => ?_, fun h => ?_⟩
  · obtain ⟨_, hcanonical, m, ⟨rfl, hints, hkeys⟩, v1, h1, record, hrecord, _, hname, name, ⟨rfl, -⟩, _, hne, _, hkey,
      key, ⟨rfl, hlen⟩, v2, h2, _, hempty, _, h3, seq, rfl, hsigner⟩ := h
    cases h4 : pyGet m 4 with
    | none =>
      simp only [h4, checkSigner, reject_eq_ok, not_not] at hsigner
      exact ⟨⟨record, [], seq, none⟩, name, key, ⟨m, v1, v2, hcanonical, hints, hkeys, h1, hrecord, h2, hempty, h3,
        .inl ⟨h4, rfl⟩⟩, hname, hne, hkey, hlen, .inl ⟨rfl, hsigner⟩⟩
    | some v =>
      simp only [h4, checkSigner, validateSignerAuthorization_ok] at hsigner
      obtain ⟨a, ha, hsigner⟩ := hsigner
      exact ⟨⟨record, [], seq, some a⟩, name, key, ⟨m, v1, v2, hcanonical, hints, hkeys, h1, hrecord, h2, hempty, h3,
        .inr ⟨v, a, h4, ha, rfl⟩⟩, hname, hne, hkey, hlen, .inr ⟨a, rfl, (mem_or_iff ha.2.1.operation).1 hsigner⟩⟩
  · obtain ⟨u, name, key, ⟨m, v1, v2, hcanonical, hints, hkeys, h1, hrecord, h2, hpayload, h3, hauth⟩, hname, hne, hkey,
      hlen, hmay⟩ := h
    have hempty : requireExactKeys [] v2 = .ok [] := by
      obtain ⟨-, hi, hk⟩ := requireExactKeys_ok.1 hpayload
      rwa [eq_nil_of_keySet_nil hi hk] at hpayload
    refine ⟨_, hcanonical, m, ⟨rfl, hints, hkeys⟩, v1, h1, _, hrecord, _, hname, name, ⟨rfl, by simp⟩, (), hne, _, hkey,
      key, ⟨rfl, hlen⟩, v2, h2, (), hempty, _, h3, _, rfl, ?_⟩
    rcases hauth with ⟨h4, hnone⟩ | ⟨v, a, h4, ha, hsome⟩
    · simp only [h4, checkSigner, reject_eq_ok, not_not]
      rcases hmay with ⟨-, hown⟩ | ⟨b, hb, -⟩
      · exact hown
      · rw [hnone] at hb
        cases hb
    · simp only [h4, checkSigner, validateSignerAuthorization_ok]
      rcases hmay with ⟨hnone, -⟩ | ⟨b, hb, hsigner⟩
      · rw [hnone] at hsome
        cases hsome
      · rw [hb] at hsome
        cases hsome
        exact ⟨a, ha, (mem_or_iff ha.2.1.operation).2 hsigner⟩

/-! ### Submissions -/

/-- Except where the predecessor's signers are asked, the signer of a checked request is one of the update's. -/
theorem signer_listed {P : Platform} {q : SubmitRequest P} {current : Option IdentityState} {a : Authorization}
    (h : checkAuthorized q current a = .ok ()) (hop : a.operation ∉ [3, 5]) :
    q.signerPublicKey ∈ a.signers.map Prod.snd := by
  have hop5 : a.operation ≠ 5 := fun h5 => hop (by simp [h5])
  obtain ⟨h5, -⟩ | ⟨i, -, hmem | ⟨s, hs, hmem⟩⟩ := signer_of_checkAuthorized h
  · exact absurd h5 hop5
  · exact List.mem_map_of_mem hmem
  · -- a signer of the state before is one of the update, which keeps them
    obtain rfl : current = some s := hs
    cases proposes_of_checkAuthorized h hop5 with
    | ordinary _ _ _ _ _ hgov => exact hgov.2.2 ▸ List.mem_map_of_mem hmem
    | upgrade _ _ _ hlegacy => rw [show s.signerSet = [] from hlegacy] at hmem; cases hmem
    | replaceSigners hop3 => exact absurd (by simp [hop3]) hop
    | rotate h5 => exact absurd h5 hop5
    | rotateLegacy h5 => exact absurd h5 hop5

/-- The signer accepts what a checked request asks it to sign. -/
theorem PendingSubmission.Submitted.accepted {P : Platform} {p : PendingSubmission P} (h : p.Submitted)
    (hP : CborRoundTrip P) : validateIdentityUpdate P p.update p.request.signerPublicKey = .ok () := by
  obtain ⟨hauth, hcheck, hbuild⟩ := h.built
  obtain ⟨hname, hkey, hdecode⟩ := decode_of_build hP (fun a ha => (hauth a ha).1) (fun a ha => (hauth a ha).2) hbuild
  have hne : p.request.ownerName ≠ [] := by
    simp only [validateOwnerName, bind_eq_ok, reject_eq_ok] at hname
    exact hname.choose_spec.1
  refine validateIdentityUpdate_ok.2 ⟨_, p.request.ownerName, p.request.ownerPublicKey, hdecode, ?_, hne, ?_, hkey, ?_⟩
  · simp [pyGet, dictFrom, pyEqInt]
  · simp [pyGet, dictFrom, pyEqInt]
  · cases ha : p.auth with
    | none =>
      rw [ha] at hcheck
      simp only [Checked, checkLegacy, bind_eq_ok, reject_eq_ok, not_not] at hcheck
      obtain ⟨_, -, _, -, _, hsigner, -⟩ := hcheck
      exact .inl ⟨rfl, hsigner.symm⟩
    | some a =>
      rw [ha] at hcheck
      refine .inr ⟨a, rfl, (mem_or_iff (hauth a ha).1.operation).1 ?_⟩
      by_cases hop : a.operation ∈ [3, 5]
      · exact .inr hop
      · exact .inl (signer_listed hcheck hop)

/-- What is left of signing once the update is accepted. -/
def rawSignature (P : Platform) (C : Crypto) (s : Signer) (update : Bytes) : Except Raised Bytes := do
  let signature ← orRaise signerError (C.sign s.seed (P.sha256 update))
  reject (signature.length ≠ signatureLength) signerError
  return signature

theorem signIdentityUpdate_live {P : Platform} {C : Crypto} {σ : Type} {M : Machine σ} {h : Host σ} {id : ℕ}
    {s : Signer} {update : Bytes} (hs : h.signers id = some s) (hactive : s.active = true)
    (htime : (M.monotonic h.world.state).1 < s.expiresAt)
    (hvalid : validateIdentityUpdate P update s.publicKey = .ok ()) :
    (signIdentityUpdate P C M id update h).1 = rawSignature P C s update := by
  have hassert : assertActive M id h = (.ok s, h.setState (M.monotonic h.world.state).2) := by
    simp only [assertActive, Prog.bind_run, signerOf, hs, orRaise, Prog.reject, Prog.lift_run, reject, hactive,
      Bool.true_eq_false, if_false, ask, not_le.2 htime]
    rfl
  simp only [signIdentityUpdate, Prog.bind_run, hassert, invalidateSigner, Prog.modify_run, Prog.lift_run, signUpdate,
    hvalid]
  rfl

/-- The signer accepts an update for a key exactly where the adapter decodes it, its record has a name and a key,
and the key may sign; and a live capability accepts every update for which a submission asks consent. -/
theorem signer_accepts_submissions (P : Platform) :
    (∀ data K : Bytes, validateIdentityUpdate P data K = .ok () ↔ ∃ u name key, decodeSignedUpdate P data = .ok u ∧
      pyGet u.record 1 = some (.bytes name) ∧ name ≠ [] ∧ pyGet u.record 2 = some (.bytes key) ∧
      key.length = keyLength ∧ MaySign u key K) ∧
    (CborRoundTrip P → ∀ {σ : Type} (A : Adapter σ) (q : SubmitRequest P) (p : PendingSubmission P) (w w' : World σ),
      submitIdentityBegin A q w = (.ok (.inr p), w') →
      validateIdentityUpdate P p.update q.signerPublicKey = .ok () ∧
      ∀ {τ : Type} (C : Crypto) (M : Machine τ) (h : Host τ) (id : ℕ) (s : Signer), h.signers id = some s →
        s.active = true → s.publicKey = q.signerPublicKey → (M.monotonic h.world.state).1 < s.expiresAt →
        (signIdentityUpdate P C M id p.update h).1 = rawSignature P C s p.update) := by
  refine ⟨fun data K => validateIdentityUpdate_ok, fun hP σ A q p w w' hbegin => ?_⟩
  obtain ⟨rfl, hsubmitted⟩ := submitted_of_begin hbegin
  have hvalid := hsubmitted.accepted hP
  exact ⟨hvalid, fun C M h id s hs hactive hkey htime => signIdentityUpdate_live hs hactive htime (hkey ▸ hvalid)⟩

namespace Vector

def bobSeed : Bytes := (List.range 32).map fun i => UInt8.ofNat (64 + i)

/-- Ed25519 on the seed of "bob" and the ordinary update. -/
def bobCrypto : Crypto where
  argon2id _ _ := none
  encrypt _ _ _ _ := none
  decrypt _ _ _ _ _ := none
  publicKey seed := if seed = bobSeed then some bobKey else none
  sign seed message := if seed = bobSeed ∧ message = ordinaryHash then some bobSignature else none
  float s := ⟨s, true, none⟩
  limit _ := none
  dumpsLimit _ := none
  room := 1000

def bobMachine : Machine Unit where
  tokenBytes n s := (⟨List.replicate n 0, List.length_replicate⟩, s)
  generateSeed s := (none, s)
  fs _ s := (.done, s)
  monotonic s := (100, s)
  time s := (100, s)

def bobSigner : Signer := ⟨bobSeed, bobKey, 130, true, 0⟩

/-- A process in which "bob" holds one live capability. -/
def bobHost : Host Unit where
  world := world
  disk := ⟨fun _ => none, 0⟩
  sessions _ := ⟨[], none, .empty, none, none, none, [], 0, 0⟩
  nextSession := 0
  signers _ := some bobSigner

end Vector

/-- The signer of "bob" signs the ordinary update that was submitted under that key. -/
theorem signer_accepts_submissions_vector : ∃ p w',
    submitIdentityBegin Vector.adapter (Vector.ordinaryRequest Vector.platform) Vector.world = (.ok (.inr p), w') ∧
    validateIdentityUpdate Vector.platform p.update Vector.bobKey = .ok () ∧
    (signIdentityUpdate Vector.platform Vector.bobCrypto Vector.bobMachine 0 p.update Vector.bobHost).1 =
      .ok Vector.bobSignature := by
  have hupdate : (submitIdentityBegin Vector.adapter (Vector.ordinaryRequest Vector.platform) Vector.world).1.map
      (fun x => x.getRight?.map PendingSubmission.update) = .ok (some Vector.ordinaryUpdate) := by decide +kernel
  rcases hbegin : submitIdentityBegin Vector.adapter (Vector.ordinaryRequest Vector.platform) Vector.world with ⟨r, w'⟩
  rw [hbegin] at hupdate
  obtain ⟨x, rfl, hx⟩ := map_eq_ok.1 hupdate
  obtain ⟨p, hp, hpu⟩ := Option.map_eq_some_iff.1 hx
  obtain rfl := Sum.getRight?_eq_some_iff.1 hp
  obtain ⟨hvalid, hlive⟩ := (signer_accepts_submissions Vector.platform).2 (referencePlatform_codec _ _).reads _ _ _ _ _
    hbegin
  have hsign := hlive Vector.bobCrypto Vector.bobMachine Vector.bobHost 0 Vector.bobSigner rfl rfl rfl (by decide)
  refine ⟨p, w', rfl, hvalid, hsign.trans ?_⟩
  rw [hpu]
  decide +kernel

end DecentWallet
