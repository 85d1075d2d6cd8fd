import DecentWallet.Sanity.Envelope

/-! With a canonical codec an envelope opens in exactly one way, and its bytes are the canonical
form of what it says. -/

namespace DecentWallet

open Cbor IdentityError Opened

/-! ### Dictionaries -/

theorem isInt_of_mem {m : Dict} (hi : m.any (fun p => !isInt p.1) = false) {p : Value × Value} (hp : p ∈ m) :
    ∃ z, p.1 = .int z := by
  have := List.any_eq_false.1 hi p hp
  cases h : p.1 <;> simp [h, isInt] at this ⊢

/-- Exact keys `1, …, n` of a canonical map. -/
theorem keySet_dict {n : ℕ} (hn : n < 24) {m : Dict} (hc : canonical (.map m) = true)
    (hi : m.any (fun p => !isInt p.1) = false)
    (hk : keySet m ((List.range' 1 n).map fun j : ℕ => (j : ℤ))) : ∃ vs, vs.length = n ∧ m = dictFrom 1 vs := by
  simp only [canonical, Bool.and_eq_true, decide_eq_true_eq] at hc
  refine eq_dict_of_canonical hn (fun p hp => ?_) (fun j h1 h2 => ?_) hc.2
  · obtain ⟨z, hz⟩ := isInt_of_mem hi hp
    obtain ⟨j, hj, rfl⟩ := List.mem_map.1 (hk.1 z (mem_intKeys.2 ⟨p, hp, hz⟩))
    have := List.mem_range'_1.1 hj
    exact ⟨j, hz, by omega, by omega⟩
  · exact mem_intKeys.1 (hk.2 j (List.mem_map.2 ⟨j, List.mem_range'_1.2 (by omega), rfl⟩))

theorem isInt_dictFrom (k : ℕ) (vs : List Value) : (dictFrom k vs).any (fun p => !isInt p.1) = false := by
  induction vs generalizing k with
  | nil => rfl
  | cons v vs ih => rw [dictFrom, List.any_cons, ih]; rfl

theorem intKeys_dictFrom (k : ℕ) (vs : List Value) :
    intKeys (dictFrom k vs) = (List.range' k vs.length).map fun j : ℕ => (j : ℤ) := by
  induction vs generalizing k with
  | nil => rfl
  | cons v vs ih =>
    have := ih (k + 1)
    simp only [intKeys] at this
    simp [dictFrom, intKeys, List.range'_succ, this]

theorem keySet_dictFrom {vs : List Value} {ks : List ℤ}
    (h : ks = (List.range' 1 vs.length).map fun j : ℕ => (j : ℤ)) : keySet (dictFrom 1 vs) ks := by
  rw [h, ← intKeys_dictFrom]; exact ⟨fun _ h => h, fun _ h => h⟩

/-- Exact keys `1, …, n` of a canonical item. -/
theorem requireExactKeys_canonical {n : ℕ} (hn : n < 24) {v : Value} {m : Dict} {ks : List ℤ}
    (hks : ks = (List.range' 1 n).map fun j : ℕ => (j : ℤ)) (hc : canonical v = true)
    (h : requireExactKeys ks v = .ok m) : ∃ vs, vs.length = n ∧ v = dict vs ∧ m = dictFrom 1 vs := by
  obtain ⟨rfl, hi, hk⟩ := requireExactKeys_ok.1 h
  obtain ⟨vs, hlen, rfl⟩ := keySet_dict hn hc hi (hks ▸ hk)
  exact ⟨vs, hlen, rfl, rfl⟩

theorem requireExactKeys_dict {vs : List Value} {ks : List ℤ}
    (hks : ks = (List.range' 1 vs.length).map fun j : ℕ => (j : ℤ)) :
    requireExactKeys ks (dict vs) = .ok (dictFrom 1 vs) :=
  requireExactKeys_ok.2 ⟨rfl, isInt_dictFrom 1 vs, keySet_dictFrom hks⟩

/-! ### Entries -/

theorem entryIs_signerValue {e : Str × Bytes} (h : ValidId e.1 ∧ (utf8Raw e.1).length ≤ 256 ∧
    e.2.length = keyLength) : EntryIs (signerValue e) e :=
  ⟨⟨_, requireExactKeys_dict rfl, by simp [pyGet, dictFrom, pyEqInt], by simp [pyGet, dictFrom, pyEqInt]⟩, h⟩

theorem proofIs_proofValue {p : ProofEntry} (h : p.2.length = signatureLength ∧ ∀ i ∈ p.1, ValidId i) :
    ProofIs (proofValue p) p := by
  refine ⟨⟨_, signerIdValue p.1, requireExactKeys_dict rfl, by simp [pyGet, dictFrom, pyEqInt], ?_,
    by simp [pyGet, dictFrom, pyEqInt]⟩, h⟩
  rw [requireSignerId_ok]
  rcases hp : p.1 with _ | i
  · exact Or.inl ⟨rfl, rfl⟩
  · exact Or.inr ⟨i, rfl, (h.2 i hp).1, rfl⟩

theorem canonical_of_mem_dict {vs : List Value} (hlen : vs.length < 24)
    (h : canonical (.map (dictFrom 1 vs)) = true) : ∀ v ∈ vs, canonical v = true :=
  canonicalList_iff.1 ((canonical_dict hlen).symm.trans h)

/-- Reading each item of an array determines the array. -/
theorem eq_map_of_forall₂ {α : Type} {R : Value → α → Prop} {f : α → Value} {vs : List Value} {xs : List α}
    (hf : ∀ v ∈ vs, ∀ x, R v x → v = f x) (h : List.Forall₂ R vs xs) : vs = xs.map f := by
  induction h with
  | nil => rfl
  | @cons v x _ _ hx _ ih =>
    rw [List.map_cons, ← hf v (by simp) x hx, ih fun w hw => hf w (by simp [hw])]

theorem forall₂_map {α : Type} {R : Value → α → Prop} {f : α → Value} {xs : List α}
    (h : ∀ x ∈ xs, R (f x) x) : List.Forall₂ R (xs.map f) xs := by
  rw [List.forall₂_map_left_iff]
  exact List.forall₂_same.2 h

/-! ### Authorizations -/

theorem authorizationIs_authorizationValue {a : Authorization} (h : a.WellFormed)
    (ht : 1 ≤ a.threshold ∧ a.threshold ≤ a.signers.length) : AuthorizationIs (authorizationValue a) a := by
  refine ⟨⟨_, a.signers.map signerValue, requireExactKeys_dict rfl, ?_, ?_, ?_, ?_, ?_, ?_,
    forall₂_map fun e he => entryIs_signerValue (h.ids e he), ?_⟩, h, ht⟩ <;>
  simp [pyGet, dictFrom, pyEqInt]

/-! ### One reading -/

theorem dictFrom_inj {k : ℕ} {vs ws : List Value} (h : dictFrom k vs = dictFrom k ws) : vs = ws := by
  induction vs generalizing k ws with
  | nil => cases ws <;> simp [dictFrom] at h ⊢
  | cons v vs ih =>
    cases ws with
    | nil => simp [dictFrom] at h
    | cons w ws =>
      simp only [dictFrom, List.cons.injEq, Prod.mk.injEq, true_and] at h
      rw [h.1, ih h.2]

theorem dict_inj {vs ws : List Value} (h : dict vs = dict ws) : vs = ws := by
  simp only [dict, Value.map.injEq] at h
  exact dictFrom_inj h

theorem signerValue_injective : Function.Injective signerValue := by
  rintro ⟨i, k⟩ ⟨j, l⟩ h
  simpa using dict_inj h

theorem proofValue_injective : Function.Injective proofValue := by
  rintro ⟨i, s⟩ ⟨j, t⟩ h
  have h := dict_inj h
  cases i <;> cases j <;> simp_all [signerIdValue]

theorem authorizationValue_injective : Function.Injective authorizationValue := by
  rintro ⟨op, gen, thr, ss, pred⟩ ⟨op', gen', thr', ss', pred'⟩ h
  have h := dict_inj h
  simp only [List.cons.injEq, Value.int.injEq, Nat.cast_inj, Value.array.injEq, Value.bytes.injEq, true_and,
    and_true] at h
  obtain ⟨h1, h2, h3, h4, h5⟩ := h
  rw [h1, h2, h3, List.map_injective_iff.2 signerValue_injective h4, h5]

theorem updateValue_inj {n n' k k' : Bytes} {s s' : ℕ} {a a' : Option Authorization}
    (h : updateValue n k s a = updateValue n' k' s' a') : n = n' ∧ k = k' ∧ s = s' ∧ a = a' := by
  have h := dict_inj h
  simp only [List.cons_append, List.nil_append, List.cons.injEq, Value.int.injEq, Nat.cast_inj, true_and] at h
  obtain ⟨hr, hs, ha⟩ := h
  have hr := dict_inj hr
  simp only [List.cons.injEq, Value.bytes.injEq, and_true] at hr
  have ha := List.map_injective_iff.2 authorizationValue_injective ha
  refine ⟨hr.1, hr.2, hs, ?_⟩
  cases a <;> cases a' <;> simp_all

/-- An update determines what it says. -/
theorem Opened.Sealed.update_unique {o p : Opened} {e e' : Bytes} (ho : o.Sealed e) (hp : p.Sealed e')
    (h : o.update = p.update) :
    o.ownerName = p.ownerName ∧ o.ownerKey = p.ownerKey ∧ o.sequence = p.sequence ∧ o.auth = p.auth :=
  updateValue_inj (encode_inj ho.updateCanonical hp.updateCanonical (ho.update.symm.trans (h.trans hp.update)))

/-- An envelope says one thing. -/
theorem Opened.Sealed.unique {o p : Opened} {e : Bytes} (ho : o.Sealed e) (hp : p.Sealed e) : o = p := by
  have henv := encode_inj ho.envelopeCanonical hp.envelopeCanonical (by rw [← ho.envelope, ← hp.envelope])
  have hupdate := ho.update_unique hp
  have holeg := ho.legacy
  have hpleg := hp.legacy
  obtain ⟨u, n, k, s, a, ps⟩ := o
  obtain ⟨u', n', k', s', a', ps'⟩ := p
  cases a <;> cases a'
  · have h := dict_inj henv
    obtain ⟨sig, rfl⟩ := holeg rfl
    obtain ⟨sig', rfl⟩ := hpleg rfl
    simp at h
    obtain ⟨rfl, rfl⟩ := h
    simpa using hupdate rfl
  · simpa using dict_inj henv
  · simpa using dict_inj henv
  · have h := dict_inj henv
    simp only [List.cons.injEq, Value.bytes.injEq, Value.array.injEq, true_and, and_true] at h
    obtain ⟨rfl, h⟩ := h
    obtain rfl := List.map_injective_iff.2 proofValue_injective h
    simpa using hupdate rfl

/-! ### Signed updates -/

theorem tidy_signerValue (e : Str × Bytes) : Tidy 2 (signerValue e) :=
  .dict (by simp) le_rfl (by simp [Tidy.text, Tidy.bytes])

theorem tidy_signerIdValue (i : Option Str) : Tidy 1 (signerIdValue i) := by
  cases i with
  | none => exact .null
  | some s => exact .text s

theorem tidy_proofValue (p : ProofEntry) : Tidy 2 (proofValue p) :=
  .dict (by simp) le_rfl (by simp [tidy_signerIdValue, Tidy.bytes])

theorem tidy_authorizationValue (a : Authorization) : Tidy 4 (authorizationValue a) := by
  have hsigners : Tidy 3 (.array (a.signers.map signerValue)) := .array fun v hv => by
    obtain ⟨e, -, rfl⟩ := List.mem_map.1 hv
    exact tidy_signerValue e
  refine .dict (by simp) (by decide) ?_
  simp only [List.mem_cons, List.not_mem_nil, or_false, forall_eq_or_imp, forall_eq, hsigners,
    (Tidy.int _).mono (show 2 ≤ 3 by decide), (Tidy.bytes _).mono (show 1 ≤ 3 by decide), and_self]

theorem tidy_updateValue (name key : Bytes) (sequence : ℕ) (auth : Option Authorization) :
    Tidy 5 (updateValue name key sequence auth) := by
  refine .dict (by cases auth <;> simp) (by decide) fun v hv => ?_
  rcases List.mem_append.1 hv with hv | hv
  · simp only [List.mem_cons, List.not_mem_nil, or_false] at hv
    rcases hv with rfl | rfl | rfl
    · exact (Tidy.dict (d := 1) (by simp) le_rfl (by simp [Tidy.bytes])).mono (by decide)
    · exact (Tidy.dict (d := 1) (by simp) le_rfl (by simp)).mono (by decide)
    · exact (Tidy.int _).mono (by decide)
  · obtain ⟨a, -, rfl⟩ := List.mem_map.1 hv
    exact tidy_authorizationValue a

/-- The item of a version-1 envelope. -/
theorem tidy_versionOne (update : Bytes) (ps : List ProofEntry) :
    Tidy 4 (dict [.int 1, .bytes update, .array (ps.map proofValue)]) := by
  have hproofs : Tidy 3 (.array (ps.map proofValue)) := .array fun v hv => by
    obtain ⟨p, -, rfl⟩ := List.mem_map.1 hv
    exact tidy_proofValue p
  refine .dict (by simp) (by decide) ?_
  simp only [List.mem_cons, List.not_mem_nil, or_false, forall_eq_or_imp, forall_eq, hproofs, and_true,
    (Tidy.int _).mono (show 2 ≤ 3 by decide), (Tidy.bytes _).mono (show 1 ≤ 3 by decide)]

theorem tidy_legacy (update signature : Bytes) : Tidy 2 (dict [.bytes update, .bytes signature]) :=
  .dict (by simp) le_rfl (by simp [Tidy.bytes])

theorem Opened.tidy_envelopeItem (o : Opened) : Tidy 4 o.envelopeItem := by
  unfold envelopeItem
  split
  · exact (tidy_legacy _ _).mono (by decide)
  · exact tidy_versionOne _ _

theorem Cbor.Tidy.shallow {d : ℕ} {v : Value} (h : Tidy d v) (hd : d ≤ 8) : Shallow v := h.depth.trans hd

/-! ### What the type checks leave -/

theorem pyGet_of_mem {m : Dict} (hi : m.any (fun p => !isInt p.1) = false) (hn : (intKeys m).Nodup) {z : ℤ} {v : Value}
    (h : (.int z, v) ∈ m) : pyGet m z = some v := by
  induction m with
  | nil => simp at h
  | cons p m ih =>
    obtain ⟨q, hq⟩ := isInt_of_mem hi (p := p) (by simp)
    obtain ⟨k, w⟩ := p
    obtain rfl : k = .int q := hq
    simp only [List.any_cons, Bool.or_eq_false_iff] at hi
    simp only [intKeys, List.filterMap_cons, List.nodup_cons] at hn
    rcases List.mem_cons.1 h with h | h
    · cases h
      simp [pyGet, pyEqInt]
    · have hne : q ≠ z := fun hqz => hn.1 (hqz ▸ mem_intKeys.2 ⟨_, h, rfl⟩)
      have := ih hi.2 hn.2 h
      simpa [pyGet, pyEqInt, hne] using this

theorem mem_of_pyGet {m : Dict} (hi : m.any (fun p => !isInt p.1) = false) {z : ℤ} {v : Value}
    (h : pyGet m z = some v) : (.int z, v) ∈ m := by
  obtain ⟨⟨k, w⟩, hfind, rfl⟩ := Option.map_eq_some_iff.1 h
  have hmem := List.mem_of_find?_eq_some hfind
  obtain ⟨q, rfl⟩ := isInt_of_mem hi hmem
  have hq : q = z := by simpa [pyEqInt] using List.find?_some hfind
  exact hq ▸ hmem

/-- A dictionary with the keys `1, …, n` holds its items under them, in some order. -/
theorem perm_dictFrom {m : Dict} (hi : m.any (fun p => !isInt p.1) = false) (hn : (intKeys m).Nodup) {ks : List ℤ}
    {vs : List Value} (hk : keySet m ks) (hks : ks = (List.range' 1 vs.length).map fun j : ℕ => (j : ℤ))
    (hlen : vs.length < 24) (hget : List.Forall₂ (fun k v => pyGet m k = some v) ks vs) : m.Perm (dictFrom 1 vs) := by
  subst hks
  have hitem : ∀ j, j < vs.length → pyGet m (1 + j : ℕ) = vs[j]? := by
    intro j hj
    have := (List.forall₂_iff_get.1 hget).2 j (by simpa using hj) hj
    simpa [List.getElem?_eq_getElem hj, Nat.add_comm] using this
  have hm : m.Nodup := by
    refine List.Pairwise.imp_of_mem (fun {a b} ha hb hab => ?_) (List.pairwise_filterMap.1 hn)
    rintro rfl
    obtain ⟨z, hz⟩ := isInt_of_mem hi ha
    exact hab z (by rw [hz]) z (by rw [hz]) rfl
  have hd : (dictFrom 1 vs).Nodup := (pairwise_dictFrom (by omega)).imp fun {a b} hab => by
    rintro rfl
    simp [keyLt, shortLex_irrefl] at hab
  refine (List.perm_ext_iff_of_nodup hm hd).2 fun p => ?_
  rw [mem_dictFrom_iff]
  constructor
  · intro hp
    obtain ⟨z, hz⟩ := isInt_of_mem hi hp
    obtain ⟨j, hj, rfl⟩ := List.mem_map.1 (hk.1 z (mem_intKeys.2 ⟨p, hp, hz⟩))
    have hj := List.mem_range'_1.1 hj
    refine ⟨j - 1, by rw [hz, Nat.add_sub_cancel' hj.1], ?_⟩
    rw [← hitem (j - 1) (by omega), Nat.add_sub_cancel' hj.1]
    exact pyGet_of_mem hi hn (hz ▸ hp)
  · rintro ⟨j, hj, hv⟩
    obtain ⟨hlt, -⟩ := List.getElem?_eq_some_iff.1 hv
    have := mem_of_pyGet hi ((hitem j hlt).trans hv)
    rwa [← hj] at this

/-- A dictionary with exact keys is written as its items are. -/
theorem writtenAs_of_keys {m : Dict} {ks : List ℤ} {vs ws : List Value} (hd : Distinct (.map m))
    (hi : m.any (fun p => !isInt p.1) = false) (hk : keySet m ks)
    (hks : ks = (List.range' 1 vs.length).map fun j : ℕ => (j : ℤ)) (hlen : vs.length < 24)
    (hget : List.Forall₂ (fun k v => pyGet m k = some v) ks vs)
    (hws : (∀ v ∈ vs, Distinct v) → List.Forall₂ WrittenAs vs ws) : WrittenAs (.map m) (dict ws) := by
  cases hd with
  | map hn hitems =>
    have hperm := perm_dictFrom hi hn hk hks hlen hget
    refine .dict hlen hperm (hws fun v hv => ?_)
    obtain ⟨j, hj⟩ := List.getElem?_of_mem hv
    exact hitems (.int (1 + j : ℕ), v) (hperm.mem_iff.2 (mem_dictFrom_iff.2 ⟨j, rfl, hj⟩))

theorem writtenAs_of_exactKeys {v : Value} {m : Dict} {ks : List ℤ} {vs ws : List Value} (hd : Distinct v)
    (h : requireExactKeys ks v = .ok m) (hks : ks = (List.range' 1 vs.length).map fun j : ℕ => (j : ℤ))
    (hlen : vs.length < 24) (hget : List.Forall₂ (fun k v => pyGet m k = some v) ks vs)
    (hws : (∀ v ∈ vs, Distinct v) → List.Forall₂ WrittenAs vs ws) : WrittenAs v (dict ws) := by
  obtain ⟨rfl, hi, hk⟩ := requireExactKeys_ok.1 h
  exact writtenAs_of_keys hd hi hk hks hlen hget hws

theorem forall₂_writtenAs {α : Type} {R : Value → α → Prop} {f : α → Value} {vs : List Value} {xs : List α}
    (hd : Distinct (.array vs)) (hf : ∀ v x, Distinct v → R v x → WrittenAs v (f x)) (h : List.Forall₂ R vs xs) :
    List.Forall₂ WrittenAs vs (xs.map f) := by
  cases hd with
  | array hd =>
    induction h with
    | nil => exact .nil
    | cons hx _ ih =>
      exact .cons (hf _ _ (hd _ (by simp)) hx) (ih fun w hw => hd w (by simp [hw]))

theorem entryIs_writtenAs {v : Value} {e : Str × Bytes} (hd : Distinct v) (h : EntryIs v e) :
    WrittenAs v (signerValue e) := by
  obtain ⟨⟨m, hm, h1, h2⟩, -⟩ := h
  exact writtenAs_of_exactKeys hd hm rfl (by simp) (.cons h1 (.cons h2 .nil))
    fun _ => .cons (Tidy.text _).writtenAs (.cons (Tidy.bytes _).writtenAs .nil)

theorem proofIs_writtenAs {v : Value} {p : ProofEntry} (hd : Distinct v) (h : ProofIs v p) :
    WrittenAs v (proofValue p) := by
  obtain ⟨⟨m, t, hm, h1, hid, h2⟩, -⟩ := h
  have ht : t = signerIdValue p.1 := by
    rcases requireSignerId_ok.1 hid with ⟨rfl, hi⟩ | ⟨s, rfl, -, hi⟩ <;> simp [signerIdValue, hi]
  exact writtenAs_of_exactKeys hd hm rfl (by simp)
    (.cons (ht ▸ h1) (.cons h2 .nil))
    fun _ => .cons (tidy_signerIdValue _).writtenAs (.cons (Tidy.bytes _).writtenAs .nil)

theorem authorizationIs_writtenAs {v : Value} {a : Authorization} (hd : Distinct v) (h : AuthorizationIs v a) :
    WrittenAs v (authorizationValue a) := by
  obtain ⟨⟨m, vs, hm, h1, h2, h3, h4, h5, h6, hf, h7⟩, -⟩ := h
  refine writtenAs_of_exactKeys hd hm rfl (by simp)
    (.cons h1 (.cons h2 (.cons h3 (.cons h4 (.cons h5 (.cons h6 (.cons h7 .nil))))))) fun hd => ?_
  have hsigners := forall₂_writtenAs (hd (.array vs) (by simp)) (fun _ _ hd he => entryIs_writtenAs hd he) hf
  have hint := fun n : ℤ => (Tidy.int n).writtenAs
  exact .cons (hint 1) (.cons (hint 1) (.cons (hint _) (.cons (hint _) (.cons (hint _) (.cons (.array hsigners)
    (.cons (Tidy.bytes _).writtenAs .nil))))))

theorem proofList_writtenAs {v : Value} {ps : List ProofEntry} (hd : Distinct v) (h : validateProofList v = .ok ps) :
    WrittenAs v (.array (ps.map proofValue)) := by
  obtain ⟨⟨vs, rfl, hf⟩, -⟩ := validateProofList_ok.1 h
  exact .array (forall₂_writtenAs hd (fun _ _ hd hp => proofIs_writtenAs hd hp) hf)

/-- An update that decodes is written as what it says. -/
theorem update_writtenAs {P : Platform} {b name key : Bytes} {u : SignedUpdate} (hu : decodeSignedUpdate P b = .ok u)
    (hdicts : ∀ v, requireCanonical P b = .ok v → Distinct v) (hname : pyGet u.record 1 = some (.bytes name))
    (hkey : pyGet u.record 2 = some (.bytes key)) :
    ∃ v, requireCanonical P b = .ok v ∧ WrittenAs v (updateValue name key u.sequence u.authorization) := by
  obtain ⟨m, v1, v2, hc, hi, hk, h1, hr, h2, hp, h3, h4⟩ := (decodeSignedUpdate_ok P).1 hu
  refine ⟨_, hc, ?_⟩
  have hrecord : Distinct v1 → WrittenAs v1 (dict [.bytes name, .bytes key]) := fun hd =>
    writtenAs_of_exactKeys hd hr rfl (by simp) (.cons hname (.cons hkey .nil))
      fun _ => .cons (Tidy.bytes _).writtenAs (.cons (Tidy.bytes _).writtenAs .nil)
  have hpayload : WrittenAs v2 (dict []) := by
    obtain ⟨rfl, -, -⟩ := requireExactKeys_ok.1 hp
    rw [decodeSignedUpdate_payload P hu]
    have htidy : Tidy 2 (dict []) := .dict (by simp) le_rfl (by simp)
    exact htidy.writtenAs
  rcases hk with hk | hk
  · have hnone : u.authorization = none := by
      rcases h4 with ⟨-, h4⟩ | ⟨v, a, h4, -⟩
      · exact h4
      · have := hk.1 4 (mem_intKeys.2 ⟨_, mem_of_pyGet hi h4, rfl⟩)
        simp at this
    rw [hnone]
    exact writtenAs_of_keys (hdicts _ hc) hi hk rfl (by simp)
      (.cons h1 (.cons h2 (.cons h3 .nil)))
      fun hd => .cons (hrecord (hd v1 (by simp))) (.cons hpayload (.cons (Tidy.int _).writtenAs .nil))
  · rcases h4 with ⟨h4, -⟩ | ⟨v, a, h4, ha, hauth⟩
    · obtain ⟨p, hp, hp4⟩ := mem_intKeys.1 (hk.2 4 (by simp))
      have hfind := List.find?_eq_none.1 (Option.map_eq_none_iff.1 h4) p hp
      simp [hp4, pyEqInt] at hfind
    · rw [hauth]
      exact writtenAs_of_keys (hdicts _ hc) hi hk rfl (by simp)
        (.cons h1 (.cons h2 (.cons h3 (.cons h4 .nil))))
        fun hd => .cons (hrecord (hd v1 (by simp))) (.cons hpayload (.cons (Tidy.int _).writtenAs
          (.cons (authorizationIs_writtenAs (hd v (by simp)) ha) .nil)))

/-! ### Reading and writing -/

theorem requireCanonical_ok {P : Platform} {data : Bytes} {v : Value} :
    requireCanonical P data = .ok v ↔ data ≠ [] ∧ P.loads data = some v ∧ P.dumps v = some data := by
  simp only [requireCanonical, bind_eq_ok, reject_eq_ok, orRaise_eq_ok, pure_eq_ok, not_not]
  constructor
  · rintro ⟨-, hne, w, hw, b, hb, -, rfl, rfl⟩
    exact ⟨hne, hw, hb⟩
  · rintro ⟨hne, hl, hd⟩
    exact ⟨(), hne, v, hl, data, hd, (), rfl, rfl⟩

theorem CborRoundTrip.reads_tidy {P : Platform} (hP : CborRoundTrip P) {d : ℕ} {v : Value} (hv : Tidy d v) {b : Bytes}
    (h : P.dumps v = some b) : requireCanonical P b = .ok v := by
  rw [hP v b hv.plain h, hv.sorted]

/-- What is accepted is in order. -/
theorem CborRoundTrip.accepted {P : Platform} (hP : CborRoundTrip P) {v w : Value} {b : Bytes} (hv : WrittenAs v w)
    (h : requireCanonical P b = .ok v) : v = w := by
  have hback := hP v b hv.plain (requireCanonical_ok.1 h).2.2
  rw [h, hv.sorted] at hback
  exact Except.ok.inj hback

/-- The bytes that are read as a well-formed update decode to its fields. -/
theorem decode_of_updateValue {P : Platform} {b name key : Bytes} {sequence : ℕ} {auth : Option Authorization}
    (ha : ∀ a ∈ auth, a.WellFormed) (ht : ∀ a ∈ auth, 1 ≤ a.threshold ∧ a.threshold ≤ a.signers.length)
    (hdec : requireCanonical P b = .ok (updateValue name key sequence auth)) :
    decodeSignedUpdate P b = .ok ⟨dictFrom 1 [.bytes name, .bytes key], [], sequence, auth⟩ := by
  rw [decodeSignedUpdate_ok]
  cases auth with
  | none =>
    refine ⟨_, dict [.bytes name, .bytes key], dict [], hdec, isInt_dictFrom _ _, Or.inl (keySet_dictFrom rfl),
      ?_, requireExactKeys_dict rfl, ?_, requireExactKeys_dict rfl, ?_, Or.inl ⟨?_, rfl⟩⟩ <;>
    simp [pyGet, dictFrom, pyEqInt]
  | some a =>
    refine ⟨_, dict [.bytes name, .bytes key], dict [], hdec, isInt_dictFrom _ _, Or.inr (keySet_dictFrom rfl),
      ?_, requireExactKeys_dict rfl, ?_, requireExactKeys_dict rfl, ?_,
      Or.inr ⟨authorizationValue a, a, ?_, authorizationIs_authorizationValue (ha a rfl) (ht a rfl), rfl⟩⟩ <;>
    simp [pyGet, dictFrom, pyEqInt]

section

variable {P : Platform} (hP : CanonicalCbor P)

include hP

theorem CanonicalCbor.dumps_tidy {d : ℕ} {v : Value} (hv : Tidy d v) (hd : d ≤ 8) (hc : canonical v = true) :
    P.dumps v = some (encode v) := hP.dumps v hv.plain hc (hv.shallow hd)

theorem CanonicalCbor.accepts_tidy {d : ℕ} {v : Value} (hv : Tidy d v) (hd : d ≤ 8) {b : Bytes} :
    requireCanonical P b = .ok v ↔ canonical v = true ∧ b = encode v := hP.accepts b v hv.plain (hv.shallow hd)

/-- What passes the type checks is the canonical form of what they read. -/
theorem CanonicalCbor.accepted {d : ℕ} {v w : Value} {b : Bytes} (hv : WrittenAs v w) (hw : Tidy d w) (hd : d ≤ 8)
    (h : requireCanonical P b = .ok v) : v = w ∧ canonical w = true ∧ b = encode w := by
  have hshallow : Shallow v := by
    rw [Shallow, hv.depth_eq]
    exact hw.shallow hd
  obtain ⟨hc, rfl⟩ := (hP.accepts b v hv.plain hshallow).1 h
  obtain rfl : v = w := (sorted_of_canonical hc).1.symm.trans hv.sorted
  exact ⟨rfl, hc, rfl⟩

/-- A decoded update with a proper record is the canonical form of its fields. -/
theorem update_of_decode {b name key : Bytes} {u : SignedUpdate} (hu : decodeSignedUpdate P b = .ok u)
    (hname : pyGet u.record 1 = some (.bytes name)) (hkey : pyGet u.record 2 = some (.bytes key)) :
    b = encode (updateValue name key u.sequence u.authorization) ∧
      canonical (updateValue name key u.sequence u.authorization) = true := by
  obtain ⟨v, hv, hwritten⟩ := update_writtenAs hu (hP.dicts b) hname hkey
  exact (hP.accepted hwritten (tidy_updateValue _ _ _ _) (by decide) hv).2.symm

theorem decode_updateValue {name key : Bytes} {sequence : ℕ} {auth : Option Authorization}
    (ha : ∀ a ∈ auth, a.WellFormed) (ht : ∀ a ∈ auth, 1 ≤ a.threshold ∧ a.threshold ≤ a.signers.length)
    (hc : canonical (updateValue name key sequence auth) = true) :
    decodeSignedUpdate P (encode (updateValue name key sequence auth)) =
      .ok ⟨dictFrom 1 [.bytes name, .bytes key], [], sequence, auth⟩ :=
  decode_of_updateValue ha ht ((hP.accepts_tidy (tidy_updateValue _ _ _ _) (by decide)).2 ⟨hc, rfl⟩)

/-! ### Envelopes -/

theorem opens_iff_sealed {e : Bytes} {o : Opened} : Opens P e o ↔ o.Sealed e ∧ o.ThresholdInRange := by
  constructor
  · intro h
    have hwf := h.wellFormed
    refine ⟨?_, h.thresholdInRange⟩
    cases h with
    | legacy houter hints hkeys hupdate hsig hslen hu hauth hname hkey hklen =>
      have hwritten := writtenAs_of_keys (hP.dicts _ _ houter) hints hkeys rfl (by simp)
        (.cons hupdate (.cons hsig .nil)) fun _ => .cons (Tidy.bytes _).writtenAs (.cons (Tidy.bytes _).writtenAs .nil)
      obtain ⟨-, hcan, rfl⟩ := hP.accepted hwritten (tidy_legacy _ _) (by decide) houter
      obtain ⟨hupd, hucan⟩ := update_of_decode hP hu hname hkey
      rw [hauth] at hupd hucan
      exact ⟨hwf, fun _ => ⟨_, rfl⟩, hucan, by simpa [envelopeItem, dict] using hcan, hupd,
        by simp [envelopeItem, dict]⟩
    | versionOne houter hints hkeys hversion hupdate hu hauth hname hkey hklen hv hproofs =>
      have hwritten := writtenAs_of_keys (hP.dicts _ _ houter) hints hkeys rfl (by simp)
        (.cons hversion (.cons hupdate (.cons hv .nil)))
        fun hd => .cons (Tidy.int _).writtenAs (.cons (Tidy.bytes _).writtenAs
          (.cons (proofList_writtenAs (hd _ (by simp)) hproofs) .nil))
      obtain ⟨-, hcan, rfl⟩ := hP.accepted hwritten (tidy_versionOne _ _) (by decide) houter
      obtain ⟨hupd, hucan⟩ := update_of_decode hP hu hname hkey
      rw [hauth] at hupd hucan
      exact ⟨hwf, by simp, hucan, hcan, hupd, rfl⟩
  · rintro ⟨⟨hwf, hlegacy, hucan, hecan, hupd, rfl⟩, hthr⟩
    have hdec := decode_updateValue hP hwf.auth hthr hucan
    rw [show updateValue o.ownerName o.ownerKey o.sequence o.auth = o.updateItem from rfl, ← hupd] at hdec
    obtain ⟨update, name, key, sequence, auth, proofs⟩ := o
    cases auth with
    | none =>
      obtain ⟨sig, hp⟩ := hlegacy rfl
      simp only at hp
      subst hp
      have hout := (hP.accepts_tidy (tidy_envelopeItem _) (by decide)).2 ⟨hecan, rfl⟩
      have hslen := (hwf.proofs _ (List.mem_singleton.2 rfl)).1
      simp only [envelopeItem, List.map_cons, List.map_nil, List.flatten_cons, List.flatten_nil,
        List.append_nil, dict] at hout ⊢
      exact .legacy hout (isInt_dictFrom _ _) (keySet_dictFrom rfl) (by simp [pyGet, dictFrom, pyEqInt])
        (by simp [pyGet, dictFrom, pyEqInt]) hslen hdec rfl (by simp [pyGet, dictFrom, pyEqInt])
        (by simp [pyGet, dictFrom, pyEqInt]) hwf.ownerKey
    | some a =>
      have hout := (hP.accepts_tidy (tidy_envelopeItem _) (by decide)).2 ⟨hecan, rfl⟩
      simp only [envelopeItem, dict] at hout ⊢
      exact .versionOne hout (isInt_dictFrom _ _) (keySet_dictFrom rfl) (by simp [pyGet, dictFrom, pyEqInt])
        (by simp [pyGet, dictFrom, pyEqInt]) hdec rfl (by simp [pyGet, dictFrom, pyEqInt])
        (by simp [pyGet, dictFrom, pyEqInt]) hwf.ownerKey (by simp [pyGet, dictFrom, pyEqInt])
        (validateProofList_ok.2 ⟨⟨_, rfl, forall₂_map fun p hp => proofIs_proofValue (hwf.proofs p hp)⟩,
          hwf.ordered⟩)

end

end DecentWallet
