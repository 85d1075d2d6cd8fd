import DecentWallet.Sanity.Canonical
import DecentWallet.Sanity.History
import DecentWallet.Sanity.KotlinCbor
import DecentWallet.Spec.KotlinHistory

/-! The Android verifier: which envelopes it parses, and which of them it lets follow which state. -/

namespace DecentWallet.Kotlin

open Cbor WalletError Opened

/-! ### Field checks -/

theorem exactMap_ok {ks : List ℤ} {v : Value} {m : Dict} :
    exactMap ks v = .ok m ↔ requireExactKeys ks v = .ok m ∧ m.length = ks.length := by
  rw [requireExactKeys_ok]
  cases v with
  | map x =>
    simp only [exactMap, map, bind_eq_ok, reject_eq_ok, pure_eq_ok, Value.map.injEq, not_or, not_not,
      Bool.not_eq_true]
    constructor
    · rintro ⟨_, ⟨_, hi, rfl⟩, _, ⟨hl, hk⟩, rfl⟩; exact ⟨⟨rfl, hi, hk⟩, hl⟩
    · rintro ⟨⟨rfl, hi, hk⟩, hl⟩; exact ⟨x, ⟨(), hi, rfl⟩, (), ⟨hl, hk⟩, rfl⟩
  | _ => simp [exactMap, map, bind_eq_ok]

theorem map_ok {v : Value} {m : Dict} : map v = .ok m ↔ v = .map m ∧ m.any (fun p => !isInt p.1) = false := by
  cases v with
  | map x =>
    simp only [map, bind_eq_ok, reject_eq_ok, pure_eq_ok, Value.map.injEq, Bool.not_eq_true]
    constructor
    · rintro ⟨_, hi, rfl⟩; exact ⟨rfl, hi⟩
    · rintro ⟨rfl, hi⟩; exact ⟨(), hi, rfl⟩
  | _ => simp [map]

/-- The exact keys `1, …, n` of a canonical item. -/
theorem exactMap_canonical {n : ℕ} (hn : n < 24) {v : Value} {m : Dict} {ks : List ℤ}
    (hks : ks = (List.range' 1 n).map fun j : ℕ => (j : ℤ)) (hc : canonical v = true)
    (h : exactMap ks v = .ok m) : ∃ vs, vs.length = n ∧ v = dict vs ∧ m = dictFrom 1 vs :=
  requireExactKeys_canonical hn hks hc (exactMap_ok.1 h).1

theorem exactMap_dict {vs : List Value} {ks : List ℤ}
    (hks : ks = (List.range' 1 vs.length).map fun j : ℕ => (j : ℤ)) :
    exactMap ks (dict vs) = .ok (dictFrom 1 vs) :=
  exactMap_ok.2 ⟨requireExactKeys_dict hks, by simp [hks]⟩

theorem bytes_ok {l : Option ℕ} {v : Value} {b : Bytes} :
    bytes l v = .ok b ↔ v = .bytes b ∧ ∀ n ∈ l, b.length = n := by
  cases v with
  | bytes x =>
    simp only [bytes, bind_eq_ok, reject_eq_ok, pure_eq_ok, Value.bytes.injEq]
    constructor
    · rintro ⟨-, h, rfl⟩; exact ⟨rfl, fun n hn => by_contra fun hne => h ⟨n, hn, hne⟩⟩
    · rintro ⟨rfl, h⟩
      refine ⟨(), ?_, rfl⟩
      rintro ⟨n, hn, hne⟩
      exact hne (h n hn)
  | _ => simp [bytes]

theorem uint_ok {v : Value} {n : ℕ} : uint v = .ok n ↔ v = .int n := by
  cases v with
  | int m =>
    simp only [uint, bind_eq_ok, reject_eq_ok, pure_eq_ok, Value.int.injEq]
    constructor
    · rintro ⟨-, h, rfl⟩; omega
    · rintro rfl; exact ⟨(), by omega, by simp⟩
  | _ => simp [uint]

@[simp] theorem string_ok {v : Value} {s : Str} : string v = .ok s ↔ v = .text s := by
  cases v <;> simp [string]

@[simp] theorem list_ok {v : Value} {xs : List Value} : list v = .ok xs ↔ v = .array xs := by
  cases v <;> simp [list]

@[simp] theorem requireOne_eq_ok {v : Value} {u : Unit} : requireOne v = .ok u ↔ v = .int 1 := by
  cases v <;> simp [requireOne]

@[simp] theorem requireVersionOne_ok {v : Value} {u : Unit} : requireVersionOne v = .ok u ↔ v = .int 1 := by
  cases v with
  | int n => simp only [requireVersionOne]; split_ifs <;> simp [*]
  | _ => simp [requireVersionOne]

theorem optionalString_ok {v : Value} {i : Option Str} : optionalString v = .ok i ↔ v = signerIdValue i := by
  cases v <;> cases i <;> simp [optionalString, signerIdValue]

theorem requireValidUtf8_ok {b : Bytes} {u : Unit} : requireValidUtf8 b = .ok u ↔ utf8Decode b ≠ none := by
  cases h : utf8Decode b <;> simp [requireValidUtf8, h, orRaise, bind, Except.bind, pure, Except.pure]

/-! ### Signers and proofs -/

/-- The entry `v` of a signer list reads as `e`. -/
def SignerIs (v : Value) (e : Str × Bytes) : Prop :=
  (∃ m, exactMap [1, 2] v = .ok m ∧ get m 1 = .text e.1 ∧ get m 2 = .bytes e.2) ∧
    ValidId e.1 ∧ (utf8Raw e.1).length ≤ 256 ∧ e.2.length = keyLength

theorem parseSigners_cons {v : Value} {vs : List Value} {seen r : SignerSet} (h : OrderedSigners seen) :
    parseSigners (v :: vs) seen = .ok r ↔
      ∃ e, SignerIs v e ∧ OrderedSigners (seen ++ [e]) ∧ parseSigners vs (seen ++ [e]) = .ok r := by
  simp only [parseSigners, bind_eq_ok, bytes_ok, string_ok, orRaise_eq_ok, utf8_eq_some, reject_eq_ok, not_or,
    not_lt, not_exists, not_and, Bool.not_eq_false, Option.mem_def, Option.some.injEq, forall_eq']
  constructor
  · rintro ⟨m, hm, i, hi, _, ⟨hs, rfl⟩, key, ⟨hk, hlen⟩, -, ⟨hne, hb, hnew, hlast⟩, hr⟩
    exact ⟨(i, key), ⟨⟨m, hm, hi, hk⟩, ⟨fun h => hne (utf8Raw_eq_nil.2 h), hs⟩, hb, hlen⟩,
      (orderedSigners_concat h).2 ⟨hnew, hlast⟩, hr⟩
  · rintro ⟨⟨i, key⟩, ⟨⟨m, hm, hi, hk⟩, ⟨hne, hs⟩, hb, hlen⟩, ho, hr⟩
    obtain ⟨hnew, hlast⟩ := (orderedSigners_concat h).1 ho
    exact ⟨m, hm, i, hi, _, ⟨hs, rfl⟩, key, ⟨hk, hlen⟩, (), ⟨fun h => hne (utf8Raw_eq_nil.1 h), hb, hnew, hlast⟩, hr⟩

theorem parseSignerSet_ok {v : Value} {r : SignerSet} : parseSignerSet v = .ok r ↔
    ∃ vs, v = .array vs ∧ vs.length = 3 ∧ List.Forall₂ SignerIs vs r ∧ OrderedSigners r := by
  have h : ∀ vs, parseSigners vs [] = .ok r ↔ List.Forall₂ SignerIs vs r ∧ OrderedSigners r := fun vs => by
    simpa using accumulate_ok (f := parseSigners) (R := SignerIs) (G := OrderedSigners) (fun _ => rfl)
      (fun v vs seen r hs => parseSigners_cons hs)
      (fun _ _ h => h.of_append) (l := vs) (s := []) (r := r) ⟨⟨by simp, by simp⟩, by simp⟩
  simp [parseSignerSet, bind_eq_ok, h]

/-- The entry `v` of a proof list reads as `p`. -/
def KProofIs (v : Value) (p : ProofEntry) : Prop :=
  (∃ m, exactMap [1, 2] v = .ok m ∧ get m 1 = signerIdValue p.1 ∧ get m 2 = .bytes p.2) ∧
    p.2.length = signatureLength ∧ ∀ i ∈ p.1, ValidId i ∧ (utf8Raw i).length ≤ 256

/-- Distinct ids, in their order. -/
def OrderedProofs (s : List ProofEntry) : Prop :=
  (s.map Prod.fst).Nodup ∧ s.Pairwise fun x y => bytesLt (proofKey x) (proofKey y) = true

theorem proofKey_eq (p : ProofEntry) : proofKey p = utf8Raw (p.1.getD []) := by
  obtain ⟨_ | i, s⟩ := p <;> rfl

theorem parseProofItems_cons {v : Value} {vs : List Value} {seen r : List ProofEntry} (h : OrderedProofs seen) :
    parseProofItems (v :: vs) seen = .ok r ↔
      ∃ p, KProofIs v p ∧ OrderedProofs (seen ++ [p]) ∧ parseProofItems vs (seen ++ [p]) = .ok r := by
  have hord : ∀ p : ProofEntry, OrderedProofs (seen ++ [p]) ↔
      p.1 ∉ seen.map Prod.fst ∧ ∀ x ∈ seen.getLast?, bytesLt (proofKey x) (utf8Raw (p.1.getD [])) = true := by
    intro p
    simp only [OrderedProofs, nodup_map_concat, h.1, true_and, pairwise_concat proofKey h.2, proofKey_eq p]
  simp only [parseProofItems, bind_eq_ok, bytes_ok, optionalString_ok, orRaise_eq_ok, utf8_eq_some, reject_eq_ok,
    not_exists, not_and, not_or, not_lt, Bool.not_eq_false, Option.mem_def, Option.some.injEq, forall_eq']
  constructor
  · rintro ⟨m, hm, i, hi, -, hnew, _, ⟨hs, rfl⟩, -, hvalid, -, hlast, sig, ⟨hsig, hlen⟩, hr⟩
    refine ⟨(i, sig), ⟨⟨m, hm, hi, hsig⟩, hlen, fun j hj => ?_⟩, (hord _).2 ⟨hnew, hlast⟩, hr⟩
    obtain rfl : i = some j := hj
    obtain ⟨hne, hb⟩ := hvalid rfl
    exact ⟨⟨fun h => hne (utf8Raw_eq_nil.2 h), hs⟩, hb⟩
  · rintro ⟨⟨i, sig⟩, ⟨⟨m, hm, hi, hsig⟩, hlen, hid⟩, ho, hr⟩
    obtain ⟨hnew, hlast⟩ := (hord _).1 ho
    refine ⟨m, hm, i, hi, (), hnew, _, ⟨?_, rfl⟩, (), fun hsome => ?_, (), hlast, sig, ⟨hsig, hlen⟩, hr⟩
    · rcases i with _ | i
      · rfl
      · exact (hid i rfl).1.2
    · obtain ⟨j, rfl⟩ := Option.isSome_iff_exists.1 hsome
      exact ⟨fun h => (hid j rfl).1.1 (utf8Raw_eq_nil.1 h), (hid j rfl).2⟩

theorem parseProofs_ok {v : Value} {r : List ProofEntry} : parseProofs v = .ok r ↔
    ∃ vs, v = .array vs ∧ vs.length ≤ 3 ∧ List.Forall₂ KProofIs vs r ∧ OrderedProofs r := by
  have h : ∀ vs, parseProofItems vs [] = .ok r ↔ List.Forall₂ KProofIs vs r ∧ OrderedProofs r := fun vs => by
    simpa using accumulate_ok (f := parseProofItems) (R := KProofIs) (G := OrderedProofs) (fun _ => rfl)
      (fun v vs seen r hs => parseProofItems_cons hs)
      (fun _ _ h => ⟨nodup_map_append_left h.1, (List.pairwise_append.1 h.2).1⟩)
      (l := vs) (s := []) (r := r) ⟨by simp, by simp⟩
  simp only [parseProofs, bind_eq_ok, list_ok, reject_eq_ok, not_lt, h]
  constructor
  · rintro ⟨vs, rfl, -, hl, hf⟩; exact ⟨vs, rfl, hl, hf⟩
  · rintro ⟨vs, rfl, hl, hf⟩; exact ⟨vs, rfl, (), hl, hf⟩

/-! ### Sizes -/

/-- At most `n` items, nested at most `d` deep, and maps keyed by integers only. -/
structure Small (n d : ℕ) (v : Value) : Prop where
  items : items v ≤ n
  depth : depth v ≤ d
  keys : intKeyed v = true

theorem Small.mono {n d n' d' : ℕ} {v : Value} (h : Small n d v) (hn : n ≤ n') (hd : d ≤ d') : Small n' d' v :=
  ⟨h.items.trans hn, h.depth.trans hd, h.keys⟩

theorem small_int (n : ℤ) : Small 2 2 (.int n) := by
  refine ⟨?_, ?_, rfl⟩ <;> simp only [Cbor.items, Cbor.depth] <;> split_ifs <;> omega

theorem small_bytes (b : Bytes) : Small 2 2 (.bytes b) := ⟨by simp [items], by simp [depth], rfl⟩

theorem small_text (s : Str) : Small 2 2 (.text s) := ⟨by simp [items], by simp [depth], rfl⟩

theorem small_signerIdValue (i : Option Str) : Small 2 2 (signerIdValue i) := by
  cases i
  · exact ⟨by simp [signerIdValue, items], by simp [signerIdValue, depth], rfl⟩
  · exact small_text _

theorem small_array {n d N : ℕ} {vs : List Value} (hN : 1 + n * vs.length ≤ N) (h : ∀ v ∈ vs, Small n d v) :
    Small N (d + 1) (.array vs) := by
  suffices h' : itemsList vs ≤ n * vs.length ∧ depthList vs ≤ d ∧ intKeyedList vs = true from
    ⟨by rw [items]; omega, by rw [depth]; omega, by rw [intKeyed]; exact h'.2.2⟩
  clear hN
  induction vs with
  | nil => simp [itemsList, depthList, intKeyedList]
  | cons v vs ih =>
    obtain ⟨h1, h2, h3⟩ := h v (by simp)
    obtain ⟨i1, i2, i3⟩ := ih fun w hw => h w (by simp [hw])
    simp only [itemsList, depthList, intKeyedList, List.length_cons, h3, i3, Bool.and_self, Nat.mul_succ]
    exact ⟨by omega, by omega, trivial⟩

theorem small_dict {n d N : ℕ} {vs : List Value} (hlen : vs.length < 24) (hN : 1 + (n + 1) * vs.length ≤ N)
    (h : ∀ v ∈ vs, Small n (d + 1) v) : Small N (d + 2) (dict vs) := by
  suffices h' : ∀ k, k + vs.length ≤ 24 → itemsPairs (dictFrom k vs) ≤ (n + 1) * vs.length ∧
      depthPairs (dictFrom k vs) ≤ d + 1 ∧ intKeyedPairs (dictFrom k vs) = true by
    obtain ⟨h1, h2, h3⟩ := h' 1 (by omega)
    exact ⟨by rw [dict, items]; omega, by rw [dict, depth]; omega, by rw [dict, intKeyed]; exact h3⟩
  clear hlen hN
  induction vs with
  | nil => simp [dictFrom, itemsPairs, depthPairs, intKeyedPairs]
  | cons v vs ih =>
    intro k hk
    simp only [List.length_cons] at hk
    obtain ⟨h1, h2, h3⟩ := h v (by simp)
    obtain ⟨i1, i2, i3⟩ := ih (fun w hw => h w (by simp [hw])) (k + 1) (by omega)
    have hm : magnitude (k : ℤ) < 2 ^ 64 := show k < 2 ^ 64 by omega
    simp only [dictFrom, itemsPairs, depthPairs, intKeyedPairs, items, depth, if_pos hm, List.length_cons, h3, i3,
      Bool.and_self, Nat.mul_succ]
    exact ⟨by omega, by omega, trivial⟩

theorem small_signers {a : Authorization} (h3 : a.signers.length = 3) :
    Small 22 4 (.array (a.signers.map signerValue)) := by
  refine small_array (n := 7) (by simp [h3]) fun v hv => ?_
  obtain ⟨e, -, rfl⟩ := List.mem_map.1 hv
  exact small_dict (n := 2) (by simp) (by simp) (by simpa using ⟨small_text _, small_bytes _⟩)

theorem small_authorizationValue {a : Authorization} (h3 : a.signers.length = 3) :
    Small 162 5 (authorizationValue a) := by
  have hs := small_signers h3
  have hi := fun n : ℤ => (small_int n).mono (show 2 ≤ 22 by decide) (show 2 ≤ 4 by decide)
  have hb := (small_bytes a.predecessor).mono (show 2 ≤ 22 by decide) (show 2 ≤ 4 by decide)
  refine small_dict (n := 22) (by simp) (by simp) ?_
  simpa only [List.forall_mem_cons, List.not_mem_nil, false_implies, implies_true, and_true] using
    ⟨hi _, hi _, hi _, hi _, hi _, hs, hb⟩

theorem small_updateItem {o : Opened} (h3 : ∀ a ∈ o.auth, a.signers.length = 3) :
    Small maxItems maxDepth o.updateItem := by
  have hrecord : Small 7 3 (dict [.bytes o.ownerName, .bytes o.ownerKey]) :=
    small_dict (n := 2) (by simp) (by simp) (by simpa using ⟨small_bytes _, small_bytes _⟩)
  have hpayload : Small 1 3 (dict []) := small_dict (n := 2) (by simp) (by simp) (by simp)
  refine Small.mono (n := 653) (d := 6) (small_dict (n := 162) ?_ ?_ fun v hv => ?_) (by decide) (by decide)
  · cases o.auth <;> simp
  · cases o.auth <;> simp
  rcases List.mem_append.1 hv with hv | hv
  · simp only [List.mem_cons, List.not_mem_nil, or_false] at hv
    rcases hv with rfl | rfl | rfl
    · exact hrecord.mono (by decide) (by decide)
    · exact hpayload.mono (by decide) (by decide)
    · exact (small_int _).mono (by decide) (by decide)
  · obtain ⟨a, ha, rfl⟩ := List.mem_map.1 hv
    exact small_authorizationValue (h3 a (by simpa using ha))

theorem small_envelopeItem {o : Opened} (h3 : o.proofs.length ≤ 3) : Small maxItems maxDepth o.envelopeItem := by
  have hproofs : Small 22 4 (.array (o.proofs.map proofValue)) := by
    refine small_array (n := 7) (by rw [List.length_map]; omega) fun v hv => ?_
    obtain ⟨p, -, rfl⟩ := List.mem_map.1 hv
    exact small_dict (n := 2) (by simp) (by simp) (by simpa using ⟨small_signerIdValue _, small_bytes _⟩)
  have hb := fun b => (small_bytes b).mono (show 2 ≤ 22 by decide) (show 2 ≤ 4 by decide)
  have hi := (small_int 1).mono (show 2 ≤ 22 by decide) (show 2 ≤ 4 by decide)
  refine Small.mono (n := 70) (d := 5) ?_ (by decide) (by decide)
  obtain ⟨update, name, key, sequence, auth, proofs⟩ := o
  cases auth with
  | none => exact small_dict (n := 22) (by simp) (by simp) (by simpa using ⟨hb _, hb _⟩)
  | some a => exact small_dict (n := 22) (by simp) (by simp) (by simpa using ⟨hi, hb _, hproofs⟩)

theorem decodeCanonical_small {v : Value} (hc : canonical v = true) (hl : (encode v).length ≤ maxEncodedBytes)
    (hs : Small maxItems maxDepth v) : decodeCanonical (encode v) = .ok v :=
  decodeCanonical_complete hc hs.keys hl (Nat.le_succ_of_le hs.depth) hs.items

/-! ### Envelopes -/

section

variable {C : Primitives} {n e : Bytes} {o : Opened}

theorem length_le_encodePairs_dictFrom {k : ℕ} {vs : List Value} {v : Value} (h : v ∈ vs) :
    (encode v).length ≤ (encodePairs (dictFrom k vs)).length := by
  induction vs generalizing k with
  | nil => simp at h
  | cons w vs ih =>
    simp only [dictFrom, encodePairs, List.length_append]
    rcases List.mem_cons.1 h with rfl | h
    · omega
    · have := ih h (k := k + 1); omega

theorem update_length_le (h : o.Sealed e) : o.update.length ≤ e.length := by
  have hb : o.update.length ≤ (encode (.bytes o.update)).length := by simp [encode]
  have hd : ∀ vs, .bytes o.update ∈ vs → (encode (.bytes o.update)).length ≤ (encode (dict vs)).length := by
    intro vs hv
    have := length_le_encodePairs_dictFrom (k := 1) hv
    rw [dict, encode.eq_def (.map _)]
    simp only [List.length_append]
    omega
  rw [h.envelope]
  refine hb.trans ?_
  unfold Opened.envelopeItem
  split <;> exact hd _ (by simp)

/-- The envelope `e` of `n` reads as `o`, and keeps the limits of the Android client. -/
structure Fits (C : Primitives) (n e : Bytes) (o : Opened) : Prop where
  sealed : o.Sealed e
  ownerName : o.ownerName = n
  utf8 : utf8Decode n ≠ none
  size : e.length ≤ maxEncodedBytes
  signers : ∀ a ∈ o.auth, a.signers.length = 3
  proofs : o.proofs.length ≤ 3
  proofIds : ∀ p ∈ o.proofs, ∀ i ∈ p.1, (utf8Raw i).length ≤ 256
  signed : o.auth = none → ∀ p ∈ o.proofs, o.SignedBy C o.ownerKey p.2

/-- The fields of an authorization other than its signers. -/
def fields (a : Authorization) : ParsedAuthorization := ⟨a.operation, a.generation, a.threshold, a.predecessor⟩

/-- What the Android parser keeps of an envelope. -/
def parsed (C : Primitives) (e : Bytes) (o : Opened) : ParsedEnvelope where
  envelopeBytes := e
  updateBytes := o.update
  ownerName := o.ownerName
  ownerPublicKey := o.ownerKey
  sequence := o.sequence
  stateHash := C.sha256 o.update
  authorization := o.auth.map fields
  signers := (o.auth.map Authorization.signers).getD []
  proofs := if o.auth.isSome then o.proofs else []

theorem Fits.decode_update (h : Fits C n e o) : decodeCanonical o.update = .ok o.updateItem := by
  have hlen := (update_length_le h.sealed).trans h.size
  rw [h.sealed.update]
  rw [h.sealed.update] at hlen
  exact decodeCanonical_small h.sealed.updateCanonical hlen (small_updateItem h.signers)

theorem Fits.decode_envelope (h : Fits C n e o) : decodeCanonical e = .ok o.envelopeItem := by
  have hlen := h.size
  rw [h.sealed.envelope]
  rw [h.sealed.envelope] at hlen
  exact decodeCanonical_small h.sealed.envelopeCanonical hlen (small_envelopeItem h.proofs)

theorem signerIs_canonical {v : Value} {x : Str × Bytes} (hc : canonical v = true) (h : SignerIs v x) :
    v = signerValue x := by
  obtain ⟨⟨m, hm, h1, h2⟩, -⟩ := h
  obtain ⟨vs, hlen, rfl, rfl⟩ := exactMap_canonical (n := 2) (by decide) rfl hc hm
  obtain ⟨a, b, rfl⟩ := List.length_eq_two.1 hlen
  simp [get, dictFrom, isKey] at h1 h2
  simp [signerValue, h1, h2]

theorem signerIs_signerValue {x : Str × Bytes} (h : ValidId x.1 ∧ (utf8Raw x.1).length ≤ 256 ∧
    x.2.length = keyLength) : SignerIs (signerValue x) x :=
  ⟨⟨_, exactMap_dict rfl, by simp [get, dictFrom, isKey], by simp [get, dictFrom, isKey]⟩, h⟩

theorem kproofIs_canonical {v : Value} {p : ProofEntry} (hc : canonical v = true) (h : KProofIs v p) :
    v = proofValue p := by
  obtain ⟨⟨m, hm, h1, h2⟩, -⟩ := h
  obtain ⟨vs, hlen, rfl, rfl⟩ := exactMap_canonical (n := 2) (by decide) rfl hc hm
  obtain ⟨a, b, rfl⟩ := List.length_eq_two.1 hlen
  simp [get, dictFrom, isKey] at h1 h2
  simp [proofValue, h1, h2]

theorem kproofIs_proofValue {p : ProofEntry} (h : p.2.length = signatureLength ∧
    ∀ i ∈ p.1, ValidId i ∧ (utf8Raw i).length ≤ 256) : KProofIs (proofValue p) p :=
  ⟨⟨_, exactMap_dict rfl, by simp [get, dictFrom, isKey], by simp [get, dictFrom, isKey]⟩, h⟩

theorem canonicalList_of_array {vs : List Value} (h : canonical (.array vs) = true) : canonicalList vs = true := by
  simp only [canonical, Bool.and_eq_true] at h
  exact h.2

/-- The owner record, payload and sequence that both kinds of update share. -/
theorem parse_record {x y z : Value} {r pl : Dict} {name key : Bytes} {sequence : ℕ} (hx : canonical x = true)
    (hr : exactMap [1, 2] x = .ok r) (hname : get r 1 = .bytes name) (hkey : get r 2 = .bytes key)
    (hpl : map y = .ok pl) (hnil : pl = []) (hz : z = .int sequence) :
    x = dict [.bytes name, .bytes key] ∧ y = dict [] ∧ z = .int sequence := by
  obtain ⟨vs, hlen, rfl, rfl⟩ := exactMap_canonical (n := 2) (by decide) rfl hx hr
  obtain ⟨a, b, rfl⟩ := List.length_eq_two.1 hlen
  simp [get, dictFrom, isKey] at hname hkey
  obtain ⟨rfl, -⟩ := map_ok.1 hpl
  subst hnil hname hkey
  exact ⟨rfl, rfl, hz⟩

theorem parseLegacy_ok {x y : Value} {p : ParsedEnvelope} (hc : canonical (dict [x, y]) = true)
    (he : e = encode (dict [x, y])) (hl : e.length ≤ maxEncodedBytes)
    (h : parseLegacy C n (dictFrom 1 [x, y]) e = .ok p) : ∃ o, Fits C n e o ∧ p = parsed C e o := by
  simp only [parseLegacy, bind_eq_ok, bytes_ok, reject_eq_ok, not_not, pure_eq_ok, uint_ok,
    Option.mem_def, Option.some.injEq, forall_eq', Bool.not_eq_false, reduceCtorEq, false_implies, implies_true,
    and_true] at h
  obtain ⟨update, hupd, sig, ⟨hsig, hslen⟩, w, hw, m, hm, r, hr, name, hname, key, ⟨hkey, hklen⟩, -, rfl, u, hutf,
    pl, hpl, -, hnil, sequence, hseq, -, hver, rfl⟩ := h
  obtain ⟨hwc, hue, -⟩ := decodeCanonical_sound hw
  obtain ⟨vs, hlen, rfl, rfl⟩ := exactMap_canonical (n := 3) (by decide) rfl hwc hm
  obtain ⟨a, b, c, rfl⟩ := List.length_eq_three.1 hlen
  simp [get, dictFrom, isKey] at hupd hsig
  subst hupd hsig
  have ha := canonical_of_mem_dict (by simp) hwc a (by simp)
  obtain ⟨rfl, rfl, rfl⟩ := parse_record (x := a) (y := b) (z := c) ha (by simpa [get, dictFrom, isKey] using hr)
    hname hkey (by simpa [get, dictFrom, isKey] using hpl) hnil (by simpa [get, dictFrom, isKey] using hseq)
  have hsigLen : ∀ p ∈ [((none : Option Str), sig)], p.2.length = signatureLength ∧ ∀ i ∈ p.1, ValidId i := by
    simpa using show sig.length = signatureLength from hslen
  refine ⟨⟨update, name, key, sequence, none, [(none, sig)]⟩, ?_, rfl⟩
  exact { sealed := ⟨⟨hklen, by simp, hsigLen, by simp⟩, fun _ => ⟨_, rfl⟩, hwc,
            by simpa [Opened.envelopeItem] using hc, hue, by simpa [Opened.envelopeItem] using he⟩
          ownerName := rfl
          utf8 := requireValidUtf8_ok.1 hutf
          size := hl
          signers := by simp
          proofs := by simp
          proofIds := by simp
          signed := by simpa [verify, SignedBy] using hver }

theorem parseVersionOne_ok {y z : Value} {p : ParsedEnvelope} (hc : canonical (dict [.int 1, y, z]) = true)
    (he : e = encode (dict [.int 1, y, z])) (hl : e.length ≤ maxEncodedBytes)
    (h : parseVersionOne C n (dictFrom 1 [.int 1, y, z]) e = .ok p) : ∃ o, Fits C n e o ∧ p = parsed C e o := by
  simp only [parseVersionOne, bind_eq_ok, bytes_ok, reject_eq_ok, not_not, pure_eq_ok, uint_ok,
    requireOne_eq_ok, Option.mem_def, Option.some.injEq, forall_eq', reduceCtorEq, false_implies,
    implies_true, and_true] at h
  obtain ⟨update, hupd, w, hw, m, hm, r, hr, name, hname, key, ⟨hkey, hklen⟩, -, rfl, u, hutf, pl, hpl, -, hnil,
    sequence, hseq, au, hau, -, h1, -, h2, op, h3, -, hop, gen, h4, thr, h5, pred, ⟨h7, hplen⟩, signers, h6, proofs,
    hproofs, rfl⟩ := h
  obtain ⟨hwc, hue, -⟩ := decodeCanonical_sound hw
  obtain ⟨vs, hlen, rfl, rfl⟩ := exactMap_canonical (n := 4) (by decide) rfl hwc hm
  obtain ⟨a, b, c, t, rfl⟩ := length_eq_four hlen
  simp [get, dictFrom, isKey] at hupd hproofs hau
  subst hupd
  have ha := canonical_of_mem_dict (by simp) hwc a (by simp)
  have ht := canonical_of_mem_dict (by simp) hwc t (by simp)
  obtain ⟨rfl, rfl, rfl⟩ := parse_record (x := a) (y := b) (z := c) ha (by simpa [get, dictFrom, isKey] using hr)
    hname hkey (by simpa [get, dictFrom, isKey] using hpl) hnil (by simpa [get, dictFrom, isKey] using hseq)
  obtain ⟨ws, hwl, rfl, rfl⟩ := exactMap_canonical (n := 7) (by decide) rfl ht hau
  obtain ⟨w1, w2, w3, w4, w5, w6, w7, rfl⟩ := length_eq_seven hwl
  simp [get, dictFrom, isKey] at h1 h2 h3 h4 h5 h6 h7
  subst h1 h2 h3 h4 h5 h7
  obtain ⟨ss, rfl, hsl, hsf, hso⟩ := parseSignerSet_ok.1 h6
  obtain ⟨ps, rfl, hplen', hpf, hpo⟩ := parseProofs_ok.1 hproofs
  have hsc := canonicalList_of_array (canonical_of_mem_dict (by simp) ht (.array ss) (by simp))
  have hpc := canonicalList_of_array (canonical_of_mem_dict (by simp) hc (.array ps) (by simp))
  have hss := eq_map_of_forall₂ (fun v hv _ hx => signerIs_canonical (canonicalList_iff.1 hsc v hv) hx) hsf
  have hps := eq_map_of_forall₂ (fun v hv _ hx => kproofIs_canonical (canonicalList_iff.1 hpc v hv) hx) hpf
  have hsw : ∀ x ∈ signers, ValidId x.1 ∧ (utf8Raw x.1).length ≤ 256 ∧ x.2.length = keyLength := by
    intro x hx
    obtain ⟨_, -, hx⟩ := exists_of_forall₂ hsf x hx
    exact hx.2
  have hpw : ∀ x ∈ proofs, x.2.length = signatureLength ∧ ∀ i ∈ x.1, ValidId i ∧ (utf8Raw i).length ≤ 256 := by
    intro x hx
    obtain ⟨_, -, hx⟩ := exists_of_forall₂ hpf x hx
    exact hx.2
  subst hss hps
  refine ⟨⟨update, name, key, sequence, some ⟨op, gen, thr, signers, pred⟩, proofs⟩, ?_, rfl⟩
  exact { sealed := ⟨⟨hklen, by simpa using ⟨hop, hsw, hso.1.1, hso.1.2, hso.2, hplen⟩,
            fun x hx => ⟨(hpw x hx).1, fun i hi => ((hpw x hx).2 i hi).1⟩, hpo.2⟩, by simp, hwc, hc, hue, he⟩
          ownerName := rfl
          utf8 := requireValidUtf8_ok.1 hutf
          size := hl
          signers := by simpa using hsl
          proofs := by simpa using hplen'
          proofIds := fun x hx i hi => ((hpw x hx).2 i hi).2
          signed := by simp }

theorem parseEnvelope_ok {p : ParsedEnvelope} :
    parseEnvelope C n e = .ok p ↔ ∃ o, Fits C n e o ∧ p = parsed C e o := by
  constructor
  · intro h
    simp only [parseEnvelope, bind_eq_ok, map_ok] at h
    obtain ⟨_, hv, m, ⟨rfl, hi⟩, h⟩ := h
    obtain ⟨hc, he, hl⟩ := decodeCanonical_sound hv
    split_ifs at h with h2 h3
    · obtain ⟨vs, hlen, rfl⟩ := keySet_dict (n := 2) (by decide) hc hi h2
      obtain ⟨x, y, rfl⟩ := List.length_eq_two.1 hlen
      exact parseLegacy_ok hc he hl h
    · obtain ⟨vs, hlen, rfl⟩ := keySet_dict (n := 3) (by decide) hc hi h3
      obtain ⟨x, y, z, rfl⟩ := List.length_eq_three.1 hlen
      obtain ⟨_, hone, h⟩ := bind_eq_ok.1 h
      simp [get, dictFrom, isKey] at hone
      subst hone
      exact parseVersionOne_ok hc he hl h
  · rintro ⟨o, h, rfl⟩
    have henv := h.decode_envelope
    have hupd := h.decode_update
    have hutf := requireValidUtf8_ok (u := ()).2 h.utf8
    have hwf := h.sealed.wellFormed
    obtain ⟨update, name, key, sequence, auth, proofs⟩ := o
    obtain rfl : name = n := h.ownerName
    have hrecord : exactMap [1, 2] (dict [.bytes name, .bytes key]) = .ok (dictFrom 1 [.bytes name, .bytes key]) :=
      exactMap_dict rfl
    have hklen : key.length = keyBytes := hwf.ownerKey
    cases auth with
    | none =>
      obtain ⟨sig, hp⟩ := h.sealed.legacy rfl
      simp only at hp
      subst hp
      have hslen : sig.length = signatureBytes := (hwf.proofs _ (List.mem_singleton.2 rfl)).1
      have hkeys : keySet (dictFrom 1 [.bytes update, .bytes sig]) [1, 2] := keySet_dictFrom rfl
      have hver := h.signed rfl _ (List.mem_singleton.2 rfl)
      refine bind_eq_ok.2 ⟨_, henv, bind_eq_ok.2 ⟨dictFrom 1 [.bytes update, .bytes sig],
        map_ok.2 ⟨by simp [Opened.envelopeItem, dict], isInt_dictFrom _ _⟩, ?_⟩⟩
      rw [if_pos hkeys]
      simp only [parseLegacy, bind_eq_ok, bytes_ok, reject_eq_ok, not_not, pure_eq_ok, uint_ok,
        Bool.not_eq_false]
      exact ⟨update, ⟨rfl, by simp⟩, sig,
        ⟨rfl, by simpa using hslen⟩, _, hupd, _, exactMap_dict rfl, _,
        by simpa [get, dictFrom, isKey] using hrecord, name, ⟨rfl, by simp⟩,
        key, ⟨rfl, by simpa using hklen⟩, (), rfl, (), hutf, [],
        map_ok.2 ⟨rfl, rfl⟩, (), rfl, sequence, rfl, (), hver, rfl⟩
    | some a =>
      have hw := hwf.auth a rfl
      have hplen : a.predecessor.length = keyBytes := hw.predecessor
      have hauth : exactMap [1, 2, 3, 4, 5, 6, 7] (authorizationValue a) = .ok (dictFrom 1 [.int 1, .int 1,
          .int a.operation, .int a.generation, .int a.threshold, .array (a.signers.map signerValue),
          .bytes a.predecessor]) := exactMap_dict rfl
      have hsigners : parseSignerSet (.array (a.signers.map signerValue)) = .ok a.signers :=
        parseSignerSet_ok.2 ⟨_, rfl, by simpa using h.signers a rfl,
          forall₂_map fun x hx => signerIs_signerValue (hw.ids x hx), ⟨hw.idsNodup, hw.keysNodup⟩, hw.ordered⟩
      have hproofs : parseProofs (.array (proofs.map proofValue)) = .ok proofs :=
        parseProofs_ok.2 ⟨_, rfl, by simpa using h.proofs, forall₂_map fun x hx => kproofIs_proofValue
          ⟨(hwf.proofs x hx).1, fun i hi => ⟨(hwf.proofs x hx).2 i hi, h.proofIds x hx i hi⟩⟩,
          hwf.proofs_nodup, hwf.ordered⟩
      have hkeys : keySet (dictFrom 1 [.int 1, .bytes update, .array (proofs.map proofValue)]) [1, 2, 3] :=
        keySet_dictFrom rfl
      refine bind_eq_ok.2 ⟨_, henv, bind_eq_ok.2 ⟨dictFrom 1 [.int 1, .bytes update, .array (proofs.map proofValue)],
        map_ok.2 ⟨by simp [Opened.envelopeItem, dict], isInt_dictFrom _ _⟩, ?_⟩⟩
      rw [if_neg (keySet_two_of_three hkeys), if_pos hkeys]
      refine bind_eq_ok.2 ⟨(), rfl, ?_⟩
      simp only [parseVersionOne, bind_eq_ok, bytes_ok, reject_eq_ok, not_not, pure_eq_ok, uint_ok,
        requireOne_eq_ok]
      exact ⟨update, ⟨rfl, by simp⟩, _, hupd, _, exactMap_dict rfl, _,
        by simpa [get, dictFrom, isKey] using hrecord, name, ⟨rfl, by simp⟩,
        key, ⟨rfl, by simpa using hklen⟩, (), rfl, (), hutf, [],
        map_ok.2 ⟨rfl, rfl⟩, (), rfl, sequence, rfl, _,
        by simpa [get, dictFrom, isKey] using hauth, (), rfl, (),
        rfl, a.operation, rfl, (), hw.operation, a.generation,
        rfl, a.threshold, rfl, a.predecessor,
        ⟨rfl, by simpa using hplen⟩, a.signers,
        by simpa [get, dictFrom, isKey] using hsigners, proofs, by simpa [get, dictFrom, isKey] using hproofs, rfl⟩

/-! ### Transitions -/

theorem singleSigner_eq_some {s : SignerSet} (hn : (s.map Prod.fst).Nodup) {i : Str} {k : Bytes} :
    singleSigner s i = some k ↔ (i, k) ∈ s := by
  have hle : (s.filter fun x => x.1 == i).length ≤ 1 := by
    rw [← List.countP_eq_length_filter]
    simpa [List.countP_map, List.count, Function.comp_def] using List.nodup_iff_count_le_one.1 hn i
  have hmem : ∀ y : Str × Bytes, y ∈ s.filter (fun x => x.1 == i) ↔ y ∈ s ∧ y.1 = i := by simp
  rcases hf : s.filter fun x => x.1 == i with _ | ⟨x, _ | ⟨y, l⟩⟩
  · rw [hf] at hmem
    simp only [singleSigner, hf, reduceCtorEq, false_iff]
    exact fun h => by simpa using (hmem (i, k)).2 ⟨h, rfl⟩
  · rw [hf] at hmem
    obtain ⟨hx, rfl⟩ := (hmem x).1 (by simp)
    simp only [singleSigner, hf, Option.some.injEq]
    constructor
    · rintro rfl; exact hx
    · intro h; have := (hmem (x.1, k)).2 ⟨h, rfl⟩; simp only [List.mem_singleton] at this; rw [← this]
  · rw [hf] at hle; simp at hle

theorem verifiedIds_ok {keys : SignerSet} {update : Bytes} {ps : List ProofEntry} {ids : List Str} :
    verifiedIds C update keys ps = .ok ids ↔ ps.map Prod.fst = ids.map some ∧
      ∀ p ∈ ps, ∃ i k, p.1 = some i ∧ singleSigner keys i = some k ∧
        C.verify k (C.sha256 update) p.2 = true := by
  induction ps generalizing ids with
  | nil => cases ids <;> simp [verifiedIds]
  | cons p ps ih =>
    simp only [verifiedIds, bind_eq_ok, orRaise_eq_ok, reject_eq_ok, pure_eq_ok, Bool.not_eq_false, ih]
    constructor
    · rintro ⟨i, hi, k, hk, -, hv, rest, ⟨hrest, hall⟩, rfl⟩
      refine ⟨by simp [hi, hrest], fun q hq => ?_⟩
      rcases List.mem_cons.1 hq with rfl | hq
      · exact ⟨i, k, hi, hk, hv⟩
      · exact hall q hq
    · rintro ⟨hmap, hall⟩
      obtain ⟨i, k, hi, hk, hv⟩ := hall p (by simp)
      cases ids with
      | nil => simp at hmap
      | cons j ids =>
        simp only [List.map_cons, List.cons.injEq, hi, Option.some.injEq] at hmap
        exact ⟨i, hi, k, hk, (), hv, ids, ⟨hmap.2, fun q hq => hall q (by simp [hq])⟩, by rw [hmap.1]⟩

theorem verifyThresholdProofs_ok (h : Fits C n e o) {a : Authorization} (ha : o.auth = some a) {keys : SignerSet}
    (hn : (keys.map Prod.fst).Nodup) {t : ℕ} {u : Unit} :
    verifyThresholdProofs C (parsed C e o) keys t = .ok u ↔ o.Quorum C keys t := by
  simp only [verifyThresholdProofs, parsed, ha, Option.isSome_some, if_true, bind_eq_ok, reject_eq_ok, not_lt,
    verifiedIds_ok, singleSigner_eq_some hn]
  refine exists_ids_iff h.sealed.wellFormed.proofs_nodup (fun p hp => ?_) t
  obtain ⟨i, _, hi, -⟩ := hp
  exact ⟨i, hi⟩

def VerifiedState.head (s : VerifiedState) : Head where
  ownerKey := s.ownerPublicKey
  sequence := s.sequence
  stateHash := s.stateHash
  generation := s.generation
  threshold := s.threshold
  signers := s.signers

/-- What a transition relies on in the state before it. -/
structure PreviousFits (n : Bytes) (s : VerifiedState) : Prop where
  ownerName : s.ownerName = n
  idsNodup : (s.signers.map Prod.fst).Nodup
  generation : s.signers ≠ [] → s.generation.isSome ∧ s.threshold.isSome

theorem single_ok {ps : List ProofEntry} {p : ProofEntry} : single ps = .ok p ↔ ps = [p] := by
  rcases ps with _ | ⟨q, _ | ⟨r, ps⟩⟩ <;> simp [single]

section

variable {a : Authorization} {s : VerifiedState}

theorem verifyOrdinary (h : Fits C n e o) (ha : o.auth = some a) (hp : PreviousFits n s) (hop : a.operation = 2)
    {u : Unit} : verifyOperation C (parsed C e o) (fields a) s = .ok u ↔ s.signers ≠ [] ∧
      o.ownerKey = s.ownerPublicKey ∧ KeepsGovernance a s.head ∧ o.Quorum C s.signers a.threshold := by
  have hq := fun t => verifyThresholdProofs_ok h ha hp.idsNodup (t := t) (u := u)
  simp only [verifyOperation, fields, hop, if_true, bind_eq_ok, reject_eq_ok, not_or, not_not, checkNotNull,
    orRaise_eq_ok, hq]
  simp only [parsed, ha, KeepsGovernance, VerifiedState.head, Option.map_some, Option.getD_some]
  constructor
  · rintro ⟨_, ⟨hne, hkey, hg, ht, hs⟩, t, ht', hq⟩
    rw [ht'] at ht
    exact ⟨hne, hkey, ⟨hg, ht.trans ht'.symm, hs⟩, Option.some.inj ht ▸ hq⟩
  · rintro ⟨hne, hkey, ⟨hg, ht, hs⟩, hq⟩
    exact ⟨(), ⟨hne, hkey, hg, ht, hs⟩, _, ht.symm, hq⟩

theorem verifyReplaceSigners (h : Fits C n e o) (ha : o.auth = some a) (hp : PreviousFits n s)
    (hop : a.operation = 3) {u : Unit} : verifyOperation C (parsed C e o) (fields a) s = .ok u ↔
      s.signers ≠ [] ∧ o.ownerKey = s.ownerPublicKey ∧ s.generation.getD 0 < a.generation ∧ a.threshold = 2 ∧
      a.signers ≠ s.signers ∧ o.Quorum C s.signers 2 := by
  have hq := verifyThresholdProofs_ok h ha hp.idsNodup (t := 2) (u := u)
  simp only [verifyOperation, fields, hop, bind_eq_ok, reject_eq_ok, not_or, not_not, checkNotNull,
    orRaise_eq_ok, hq, Nat.reduceEqDiff, if_false, if_true, not_le]
  simp only [parsed, ha, Option.map_some, Option.getD_some]
  constructor
  · rintro ⟨_, ⟨hne, hkey⟩, g, hg, _, ⟨hlt, ht, hs⟩, hq⟩
    exact ⟨hne, hkey, by simpa [hg] using hlt, ht, hs, hq⟩
  · rintro ⟨hne, hkey, hlt, ht, hs, hq⟩
    obtain ⟨g, hg⟩ := Option.isSome_iff_exists.1 (hp.generation hne).1
    exact ⟨(), ⟨hne, hkey⟩, g, hg, (), ⟨by simpa [hg] using hlt, ht, hs⟩, hq⟩

theorem verifyUpgrade (h : Fits C n e o) (ha : o.auth = some a) (hop : a.operation = 4) {u : Unit} :
    verifyOperation C (parsed C e o) (fields a) s = .ok u ↔ s.signers = [] ∧ o.ownerKey = s.ownerPublicKey ∧
      FreshGovernance a ∧ ∃ i signature, o.proofs = [(some i, signature)] ∧ (i, o.ownerKey) ∈ a.signers ∧
        o.SignedBy C o.ownerKey signature := by
  have hn := (h.sealed.wellFormed.auth a ha).idsNodup
  have h3 := h.signers a ha
  simp only [verifyOperation, fields, hop, bind_eq_ok, reject_eq_ok, not_or, not_not, single_ok,
    orRaise_eq_ok, Nat.reduceEqDiff, if_false, if_true, Bool.not_eq_false]
  simp only [parsed, ha, Option.map_some, Option.getD_some, Option.isSome_some, if_true,
    singleSigner_eq_some hn, FreshGovernance, h3]
  constructor
  · rintro ⟨_, ⟨hs, hkey, hg, ht, -⟩, ⟨i', sig⟩, hps, i, hi, k, hk, rfl, hv⟩
    obtain rfl : i' = some i := hi
    exact ⟨hs, hkey, ⟨hg, ht, trivial⟩, i, sig, hps, hk, hv⟩
  · rintro ⟨hs, hkey, ⟨hg, ht, -⟩, i, sig, hps, hk, hv⟩
    exact ⟨(), ⟨hs, hkey, hg, ht, List.mem_map_of_mem (f := Prod.snd) hk⟩, _, hps, i, rfl, _, hk, rfl, hv⟩

theorem verifyRotate (h : Fits C n e o) (ha : o.auth = some a) (hp : PreviousFits n s) (hop : a.operation = 5)
    (hv1 : s.signers ≠ []) {u : Unit} : verifyOperation C (parsed C e o) (fields a) s = .ok u ↔
      o.ownerKey ≠ s.ownerPublicKey ∧ KeepsGovernance a s.head ∧ o.Quorum C s.signers a.threshold := by
  have hq := fun t => verifyThresholdProofs_ok h ha hp.idsNodup (t := t) (u := u)
  simp only [verifyOperation, fields, hop, bind_eq_ok, reject_eq_ok, not_or, not_not, checkNotNull, orRaise_eq_ok,
    hq, Nat.reduceEqDiff, if_false, if_true, hv1]
  simp only [parsed, ha, KeepsGovernance, VerifiedState.head, Option.map_some, Option.getD_some]
  constructor
  · rintro ⟨_, hkey, _, ⟨hg, ht, hs⟩, t, ht', hq⟩
    rw [ht'] at ht
    exact ⟨hkey, ⟨hg, ht.trans ht'.symm, hs⟩, Option.some.inj ht ▸ hq⟩
  · rintro ⟨hkey, ⟨hg, ht, hs⟩, hq⟩
    exact ⟨(), hkey, (), ⟨hg, ht, hs⟩, _, ht.symm, hq⟩

theorem verifyRotateLegacy (h : Fits C n e o) (ha : o.auth = some a) (hop : a.operation = 5)
    (hlegacy : s.signers = []) {u : Unit} : verifyOperation C (parsed C e o) (fields a) s = .ok u ↔
      o.ownerKey ≠ s.ownerPublicKey ∧ FreshGovernance a ∧ o.ownerKey ∈ a.signers.map Prod.snd ∧
      ∃ signature, o.proofs = [(none, signature)] ∧ o.SignedBy C s.ownerPublicKey signature := by
  have h3 := h.signers a ha
  simp only [verifyOperation, fields, hop, bind_eq_ok, reject_eq_ok, not_or, not_not, single_ok,
    Nat.reduceEqDiff, if_false, if_true, hlegacy, Bool.not_eq_false]
  simp only [parsed, ha, Option.map_some, Option.getD_some, Option.isSome_some, if_true, FreshGovernance, h3]
  constructor
  · rintro ⟨_, hkey, _, ⟨hg, ht, hin⟩, ⟨i, sig⟩, hps, hi, hv⟩
    obtain rfl : i = none := by simpa using hi
    exact ⟨hkey, ⟨hg, ht, trivial⟩, hin, sig, hps, hv⟩
  · rintro ⟨hkey, ⟨hg, ht, -⟩, hin, sig, hps, hv⟩
    exact ⟨(), hkey, (), ⟨hg, ht, hin⟩, _, hps, by simp, hv⟩

/-- Operations 2 to 5 on the state they name. -/
theorem verifyOperation_ok (h : Fits C n e o) (ha : o.auth = some a) (hp : PreviousFits n s)
    (hop : a.operation ∈ [2, 3, 4, 5]) (hf : o.Follows a s.head) {u : Unit} :
    verifyOperation C (parsed C e o) (fields a) s = .ok u ↔ Admits C (some s.head) o := by
  have h3 := h.signers a ha
  simp only [List.mem_cons, List.not_mem_nil, or_false] at hop
  constructor
  · intro hv
    rcases hop with hop | hop | hop | hop
    · obtain ⟨hv1, hkey, hgov, hq⟩ := (verifyOrdinary h ha hp hop).1 hv
      exact .ordinary ha hop hf hv1 hkey hgov hq
    · obtain ⟨hv1, hkey, hgen, hthr, hne, hq⟩ := (verifyReplaceSigners h ha hp hop).1 hv
      exact .replaceSigners ha hop hf hv1 hkey hgen hthr h3 hne hq
    · obtain ⟨hl, hkey, hgov, i, sig, hproofs, hs, hsig⟩ := (verifyUpgrade h ha hop).1 hv
      exact .upgrade ha hop hf hl hkey hgov hproofs hs hsig
    · by_cases hl : s.signers = []
      · obtain ⟨hkey, hgov, hin, sig, hproofs, hsig⟩ := (verifyRotateLegacy h ha hop hl).1 hv
        exact .rotateLegacy ha hop hf hl hkey hgov hin hproofs hsig
      · obtain ⟨hkey, hgov, hq⟩ := (verifyRotate h ha hp hop hl).1 hv
        exact .rotate ha hop hf hl hkey hgov hq
  · intro hadm
    cases hadm with
    | legacy hauth => rw [ha] at hauth; cases hauth
    | ordinary hauth hop _ hv1 hkey hgov hq =>
      cases ha.symm.trans hauth
      exact (verifyOrdinary h ha hp hop).2 ⟨hv1, hkey, hgov, hq⟩
    | replaceSigners hauth hop _ hv1 hkey hgen hthr _ hne hq =>
      cases ha.symm.trans hauth
      exact (verifyReplaceSigners h ha hp hop).2 ⟨hv1, hkey, hgen, hthr, hne, hq⟩
    | upgrade hauth hop _ hl hkey hgov hproofs hs hsig =>
      cases ha.symm.trans hauth
      exact (verifyUpgrade h ha hop).2 ⟨hl, hkey, hgov, _, _, hproofs, hs, hsig⟩
    | rotate hauth hop _ hv1 hkey hgov hq =>
      cases ha.symm.trans hauth
      exact (verifyRotate h ha hp hop hv1).2 ⟨hkey, hgov, hq⟩
    | rotateLegacy hauth hop _ hl hkey hgov hin hproofs hsig =>
      cases ha.symm.trans hauth
      exact (verifyRotateLegacy h ha hop hl).2 ⟨hkey, hgov, hin, _, hproofs, hsig⟩

end

theorem verifyTransition_legacy (h : Fits C n e o) (ha : o.auth = none) {prev : Option VerifiedState}
    {t : VerifiedState} : verifyTransition C n (parsed C e o) prev = .ok t ↔
      prev = none ∧ t = .from (parsed C e o) none := by
  have hn : (parsed C e o).ownerName = n := h.ownerName
  have hauth : (parsed C e o).authorization = none := by simp [parsed, ha]
  simp only [verifyTransition, hn, hauth, bind_eq_ok, reject_eq_ok, not_not, pure_eq_ok]
  cases prev <;> simp [eq_comm]

theorem verifyTransition_genesis (h : Fits C n e o) {a : Authorization} (ha : o.auth = some a)
    (hop : a.operation = 1) {prev : Option VerifiedState} {t : VerifiedState} :
    verifyTransition C n (parsed C e o) prev = .ok t ↔
      prev = none ∧ Admits C none o ∧ t = .from (parsed C e o) none := by
  have hn : (parsed C e o).ownerName = n := h.ownerName
  have hauth : (parsed C e o).authorization = some (fields a) := by simp [parsed, ha]
  have hs : (parsed C e o).signers = a.signers := by simp [parsed, ha]
  have hq := verifyThresholdProofs_ok h ha (h.sealed.wellFormed.auth a ha).idsNodup (t := 2) (u := ())
  simp only [verifyTransition, hn, hauth, hs, bind_eq_ok, reject_eq_ok, not_not, not_or, pure_eq_ok,
    show (fields a).operation = 1 from hop, if_true, hq]
  constructor
  · rintro ⟨_, -, _, ⟨hprev, hseq, hg, ht, hz⟩, _, hq, rfl⟩
    exact ⟨by simpa using hprev, .genesis ha hop hseq hz ⟨hg, ht, h.signers a ha⟩ hq, rfl⟩
  · rintro ⟨rfl, hadm, rfl⟩
    cases hadm with
    | legacy h => rw [ha] at h; cases h
    | genesis hauth _ hseq hz hgov hq =>
      cases ha.symm.trans hauth
      exact ⟨(), trivial, (), ⟨by simp, hseq, hgov.1, hgov.2.1, hz⟩, (), hq, rfl⟩

theorem verifyTransition_link (h : Fits C n e o) {a : Authorization} (ha : o.auth = some a)
    (hop : a.operation ≠ 1) {prev : Option VerifiedState} (hp : ∀ s ∈ prev, PreviousFits n s) {t : VerifiedState} :
    verifyTransition C n (parsed C e o) prev = .ok t ↔
      ∃ s, prev = some s ∧ Admits C (some s.head) o ∧ t = .from (parsed C e o) (some s) := by
  have hn : (parsed C e o).ownerName = n := h.ownerName
  have hauth : (parsed C e o).authorization = some (fields a) := by simp [parsed, ha]
  have hops : a.operation ∈ [2, 3, 4, 5] := by
    have := (h.sealed.wellFormed.auth a ha).operation
    simp only [List.mem_cons, List.not_mem_nil, or_false] at this ⊢
    omega
  simp only [verifyTransition, hn, hauth, bind_eq_ok, reject_eq_ok, not_not, not_or, pure_eq_ok, orRaise_eq_ok,
    show ¬(fields a).operation = 1 from hop, if_false]
  constructor
  · rintro ⟨_, -, s, rfl, _, ⟨-, hseq, hpred⟩, _, hv, rfl⟩
    exact ⟨s, rfl, (verifyOperation_ok h ha (hp s rfl) hops ⟨hpred.symm, hseq⟩).1 hv, rfl⟩
  · rintro ⟨s, rfl, hadm, rfl⟩
    have hf : o.Follows a s.head := by
      obtain ⟨b, hb, -, hf⟩ := hadm.of_some (by simp [ha])
      cases ha.symm.trans hb
      exact hf
    exact ⟨(), trivial, s, rfl, (), ⟨(hp s rfl).ownerName, hf.2, hf.1.symm⟩, (),
      (verifyOperation_ok h ha (hp s rfl) hops hf).2 hadm, rfl⟩

end

end DecentWallet.Kotlin
