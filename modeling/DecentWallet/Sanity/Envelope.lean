import DecentWallet.Spec.History

/-! The envelope parser accepts exactly the envelopes that open to something the rules admit. -/

namespace DecentWallet

open Cbor IdentityError Opened

/-! ### Field checks -/

theorem isBytes_iff {v : Value} {b : Bytes} : v.isBytes b = true ↔ v = .bytes b := by
  cases v <;> simp [Value.isBytes]

theorem requireUint_ok {v : Value} {n : ℕ} : requireUint v = .ok n ↔ v = .int n := by
  cases v with
  | int m =>
    simp only [requireUint, bind_eq_ok, reject_eq_ok, pure_eq_ok, Value.int.injEq]
    constructor
    · rintro ⟨-, h, rfl⟩; omega
    · rintro rfl; exact ⟨(), by omega, by simp⟩
  | _ => simp [requireUint]

theorem requireBytes_ok {l : Option ℕ} {v : Value} {b : Bytes} :
    requireBytes l v = .ok b ↔ v = .bytes b ∧ ∀ n ∈ l, b.length = n := by
  cases v with
  | bytes x =>
    simp only [requireBytes, bind_eq_ok, reject_eq_ok, pure_eq_ok, Value.bytes.injEq]
    constructor
    · rintro ⟨-, h, rfl⟩; exact ⟨rfl, fun n hn => by_contra fun hne => h ⟨n, hn, hne⟩⟩
    · rintro ⟨rfl, h⟩
      refine ⟨(), ?_, rfl⟩
      rintro ⟨n, hn, hne⟩
      exact hne (h n hn)
  | _ => simp [requireBytes]

theorem requireExactKeys_ok {ks : List ℤ} {v : Value} {m : Dict} :
    requireExactKeys ks v = .ok m ↔ v = .map m ∧ m.any (fun p => !isInt p.1) = false ∧ keySet m ks := by
  cases v with
  | map x =>
    simp only [requireExactKeys, bind_eq_ok, reject_eq_ok, pure_eq_ok, Value.map.injEq, not_or, not_not,
      Bool.not_eq_true]
    constructor
    · rintro ⟨-, ⟨h1, h2⟩, rfl⟩; exact ⟨rfl, h1, h2⟩
    · rintro ⟨rfl, h1, h2⟩; exact ⟨(), ⟨h1, h2⟩, rfl⟩
  | _ => simp [requireExactKeys]

@[simp] theorem requireStr_ok {v : Value} {s : Str} : requireStr v = .ok s ↔ v = .text s := by
  cases v <;> simp [requireStr]

@[simp] theorem requireList_ok {v : Value} {xs : List Value} : requireList v = .ok xs ↔ v = .array xs := by
  cases v <;> simp [requireList]

@[simp] theorem requireDict_ok {v : Value} {m : Dict} : requireDict v = .ok m ↔ v = .map m := by
  cases v <;> simp [requireDict]

@[simp] theorem requireOne_ok {v : Value} {u : Unit} : requireOne v = .ok u ↔ v = .int 1 := by
  cases v <;> simp [requireOne]

theorem item_ok {m : Dict} {n : ℤ} {v : Value} : item m n = .ok v ↔ pyGet m n = some v := by simp [item]

theorem utf8_ne_none {s : Str} : utf8 s ≠ none ↔ s.all isScalar = true := by
  unfold utf8; split_ifs with h <;> simp [h]

/-! ### Signer entries -/

/-- The entry `v` of a signer list reads as `e`. -/
def EntryIs (v : Value) (e : Str × Bytes) : Prop :=
  (∃ m, requireExactKeys [1, 2] v = .ok m ∧ pyGet m 1 = some (.text e.1) ∧ pyGet m 2 = some (.bytes e.2)) ∧
    ValidId e.1 ∧ (utf8Raw e.1).length ≤ 256 ∧ e.2.length = keyLength

theorem normalizeSigners_cons {v : Value} {vs : List Value} {seen r : SignerSet} :
    normalizeSigners (v :: vs) seen = .ok r ↔ ∃ e, EntryIs v e ∧
      e.1 ∉ seen.map Prod.fst ∧ e.2 ∉ seen.map Prod.snd ∧ normalizeSigners vs (seen ++ [e]) = .ok r := by
  simp only [normalizeSigners, bind_eq_ok, item_ok, orRaise_eq_ok, requireBytes_ok, reject_eq_ok,
    requireStr_ok, utf8_eq_some, not_or, not_lt, Option.mem_def, Option.some.injEq, forall_eq']
  constructor
  · rintro ⟨m, hm, t, ht, k, hk, key, ⟨rfl, hlen⟩, i, rfl, -, hne, b, ⟨hs, rfl⟩, -, hb, -, ⟨h1, h2⟩, hr⟩
    exact ⟨(i, key), ⟨⟨m, hm, ht, hk⟩, ⟨hne, hs⟩, hb, hlen⟩, h1, h2, hr⟩
  · rintro ⟨⟨i, key⟩, ⟨⟨m, hm, ht, hk⟩, ⟨hne, hs⟩, hb, hlen⟩, h1, h2, hr⟩
    exact ⟨m, hm, _, ht, _, hk, key, ⟨rfl, hlen⟩, i, rfl, (), hne, _, ⟨hs, rfl⟩, (), hb, (), ⟨h1, h2⟩, hr⟩

/-- Ids and keys of a signer list are distinct. -/
def DistinctSigners (s : SignerSet) : Prop := (s.map Prod.fst).Nodup ∧ (s.map Prod.snd).Nodup

theorem nodup_map_concat {α β : Type} {f : α → β} {l : List α} {x : α} :
    ((l ++ [x]).map f).Nodup ↔ (l.map f).Nodup ∧ f x ∉ l.map f := by
  rw [List.map_append, List.map_singleton, ← List.concat_eq_append, List.nodup_concat, and_comm]

theorem nodup_map_append_left {α β : Type} {f : α → β} {l l' : List α} (h : ((l ++ l').map f).Nodup) :
    (l.map f).Nodup := by
  rw [List.map_append] at h; exact h.of_append_left

theorem normalizeSigners_ok {vs : List Value} {r : SignerSet} : normalizeSigners vs [] = .ok r ↔
    List.Forall₂ EntryIs vs r ∧ DistinctSigners r := by
  have h := accumulate_ok (f := normalizeSigners) (R := EntryIs) (G := DistinctSigners) (fun _ => rfl)
    (fun v vs seen r hs => ?_) (fun _ _ h => ⟨nodup_map_append_left h.1, nodup_map_append_left h.2⟩)
    (l := vs) (s := []) (r := r) ⟨by simp, by simp⟩
  · simpa using h
  · simp only [normalizeSigners_cons, DistinctSigners, nodup_map_concat, hs.1, hs.2, true_and, and_assoc]

/-! ### Ordered signer lists -/

/-- With an ordered list before it, an element fits at the end if it fits after the last one. -/
theorem pairwise_concat {α : Type} (key : α → Bytes) {l : List α} {x : α}
    (h : l.Pairwise fun a b => bytesLt (key a) (key b) = true) :
    (l ++ [x]).Pairwise (fun a b => bytesLt (key a) (key b) = true) ↔
      ∀ y ∈ l.getLast?, bytesLt (key y) (key x) = true := by
  rw [List.pairwise_append]
  simp only [h, List.pairwise_singleton, List.mem_singleton, forall_eq, true_and]
  constructor
  · exact fun hall y hy => hall y (List.mem_of_getLast? hy)
  · intro hlast y hy
    rcases List.eq_nil_or_concat l with rfl | ⟨l', z, rfl⟩
    · simp at hy
    · have hz := hlast z (by simp)
      rw [List.concat_eq_append, List.pairwise_append] at h
      rcases List.mem_append.1 (List.concat_eq_append ▸ hy) with hy | hy
      · exact bytesLt_trans (h.2.2 y hy z (by simp)) hz
      · rw [List.mem_singleton.1 hy]; exact hz

/-- Distinct ids and keys, in the order of the ids. -/
def OrderedSigners (s : SignerSet) : Prop :=
  DistinctSigners s ∧ s.Pairwise fun x y => bytesLt (utf8Raw x.1) (utf8Raw y.1) = true

theorem OrderedSigners.of_append {s t : SignerSet} (h : OrderedSigners (s ++ t)) : OrderedSigners s :=
  ⟨⟨nodup_map_append_left h.1.1, nodup_map_append_left h.1.2⟩, (List.pairwise_append.1 h.2).1⟩

theorem orderedSigners_concat {s : SignerSet} (h : OrderedSigners s) {e : Str × Bytes} :
    OrderedSigners (s ++ [e]) ↔
      (∀ x ∈ s, x.1 ≠ e.1 ∧ x.2 ≠ e.2) ∧ ∀ x ∈ s.getLast?, bytesLt (utf8Raw x.1) (utf8Raw e.1) = true := by
  simp only [OrderedSigners, DistinctSigners, nodup_map_concat, h.1.1, h.1.2, true_and,
    pairwise_concat (fun e : Str × Bytes => utf8Raw e.1) h.2]
  refine and_congr_left fun _ => ?_
  simp only [List.mem_map, not_exists, not_and, forall_and]

/-! ### Authorizations -/

/-- The item `v` of a signed update reads as `a`. -/
def AuthorizationIs (v : Value) (a : Authorization) : Prop :=
  (∃ m vs, requireExactKeys [1, 2, 3, 4, 5, 6, 7] v = .ok m ∧ pyGet m 1 = some (.int 1) ∧
    pyGet m 2 = some (.int 1) ∧ pyGet m 3 = some (.int a.operation) ∧
    pyGet m 4 = some (.int a.generation) ∧ pyGet m 5 = some (.int a.threshold) ∧
    pyGet m 6 = some (.array vs) ∧ List.Forall₂ EntryIs vs a.signers ∧
    pyGet m 7 = some (.bytes a.predecessor)) ∧ a.WellFormed ∧ 1 ≤ a.threshold ∧ a.threshold ≤ a.signers.length

theorem nodup_utf8Raw {ids : List Str} (h : ∀ i ∈ ids, i.all isScalar = true) (hn : ids.Nodup) :
    (ids.map utf8Raw).Nodup :=
  List.Nodup.map_on (fun i hi j hj => utf8Raw_injOn (h i hi) (h j hj)) hn

theorem exists_of_forall₂ {α β : Type} {R : α → β → Prop} {l : List α} {l' : List β} (h : List.Forall₂ R l l') :
    ∀ b ∈ l', ∃ a ∈ l, R a b := by
  induction h with
  | nil => simp
  | cons hab _ ih =>
    intro b hb
    rcases List.mem_cons.1 hb with rfl | hb
    · exact ⟨_, by simp, hab⟩
    · obtain ⟨a, ha, hr⟩ := ih b hb
      exact ⟨a, by simp [ha], hr⟩

theorem ids_of_forall₂ {vs : List Value} {es : SignerSet} (h : List.Forall₂ EntryIs vs es) :
    ∀ e ∈ es, ValidId e.1 ∧ (utf8Raw e.1).length ≤ 256 ∧ e.2.length = keyLength := by
  intro e he
  obtain ⟨v, -, hv⟩ := exists_of_forall₂ h e he
  exact hv.2

theorem validateAuthorization_ok {v : Value} {a : Authorization} :
    validateAuthorization v = .ok a ↔ AuthorizationIs v a := by
  simp only [validateAuthorization, bind_eq_ok, item_ok, requireUint_ok, requireBytes_ok, requireList_ok,
    reject_eq_ok, pure_eq_ok, not_or, not_not, Option.mem_def, Option.some.injEq, forall_eq']
  constructor
  · rintro ⟨m, hm, v1, h1, _, rfl, -, rfl, v2, h2, _, rfl, -, rfl, v3, h3, op, rfl, -, hop, v4, h4, gen, rfl,
      v5, h5, thr, rfl, v6, h6, vs, rfl, -, -, es, hes, -, ⟨hsort, hthr⟩, v7, h7, pred, ⟨rfl, hpred⟩, rfl⟩
    obtain ⟨hf, hn1, hn2⟩ := normalizeSigners_ok.1 hes
    have hids := ids_of_forall₂ hf
    refine ⟨⟨m, vs, hm, h1, h2, h3, h4, h5, h6, hf, h7⟩, ⟨hop, hids, hn1, hn2, ?_, hpred⟩, hthr⟩
    refine (eq_sort_nodup_iff (fun e : Str × Bytes => utf8Raw e.1) _).1 ⟨hsort, ?_⟩
    refine (List.map_map (f := Prod.fst) (g := utf8Raw)) ▸ nodup_utf8Raw (fun i hi => ?_) hn1
    obtain ⟨e, he, rfl⟩ := List.mem_map.1 hi
    exact (hids e he).1.2
  · rintro ⟨⟨m, vs, hm, h1, h2, h3, h4, h5, h6, hf, h7⟩, ⟨hop, hids, hn1, hn2, hord, hpred⟩, hthr⟩
    have hsort := ((eq_sort_nodup_iff (fun e : Str × Bytes => utf8Raw e.1) _).2 hord).1
    have hne : vs ≠ [] := by
      rintro rfl
      have := List.forall₂_nil_left_iff.1 hf
      simp [this] at hthr; omega
    refine ⟨m, hm, _, h1, 1, rfl, (), rfl, _, h2, 1, rfl, (), rfl, _, h3, _, rfl, (), hop, _, h4, _, rfl, _, h5,
      _, rfl, _, h6, vs, rfl, (), hne, a.signers, ?_, (), ⟨hsort, hthr⟩, _, h7, _, ⟨rfl, hpred⟩, rfl⟩
    exact normalizeSigners_ok.2 ⟨hf, hn1, hn2⟩

/-! ### Proof lists -/

/-- The entry `v` of a proof list reads as `p`. -/
def ProofIs (v : Value) (p : ProofEntry) : Prop :=
  (∃ m t, requireExactKeys [1, 2] v = .ok m ∧ pyGet m 1 = some t ∧ requireSignerId t = .ok p.1 ∧
    pyGet m 2 = some (.bytes p.2)) ∧ p.2.length = signatureLength ∧ ∀ i ∈ p.1, ValidId i

theorem requireSignerId_ok {v : Value} {i : Option Str} : requireSignerId v = .ok i ↔
    (v = .null ∧ i = none) ∨ ∃ s, v = .text s ∧ s ≠ [] ∧ i = some s := by
  cases v with
  | text s =>
    simp only [requireSignerId, bind_eq_ok, reject_eq_ok, pure_eq_ok]
    constructor
    · rintro ⟨-, h, rfl⟩; exact Or.inr ⟨s, rfl, h, rfl⟩
    · rintro (⟨h, -⟩ | ⟨t, ht, hne, rfl⟩)
      · cases h
      · cases ht; exact ⟨(), hne, rfl⟩
  | _ => simp [requireSignerId, eq_comm]

theorem normalizeProofs_cons {v : Value} {vs : List Value} {seen r : List ProofEntry} :
    normalizeProofs (v :: vs) seen = .ok r ↔ ∃ p, ProofIs v p ∧ p.1 ∉ seen.map Prod.fst ∧
      normalizeProofs vs (seen ++ [p]) = .ok r := by
  simp only [normalizeProofs, bind_eq_ok, item_ok, requireBytes_ok, reject_eq_ok, Option.mem_def,
    Option.some.injEq, forall_eq']
  constructor
  · rintro ⟨m, hm, t, ht, i, hi, s, hs, sig, ⟨rfl, hlen⟩, -, hutf, -, hnew, hr⟩
    refine ⟨(i, sig), ⟨⟨m, t, hm, ht, hi, hs⟩, hlen, fun j hj => ?_⟩, hnew, hr⟩
    have hj' : i = some j := hj
    rcases requireSignerId_ok.1 hi with ⟨-, rfl⟩ | ⟨s, -, hne, rfl⟩
    · cases hj'
    · cases hj'
      exact ⟨hne, utf8_ne_none.1 fun h => hutf ⟨_, rfl, h⟩⟩
  · rintro ⟨⟨i, sig⟩, ⟨⟨m, t, hm, ht, hi, hs⟩, hlen, hid⟩, hnew, hr⟩
    refine ⟨m, hm, t, ht, i, hi, _, hs, sig, ⟨rfl, hlen⟩, (), ?_, (), hnew, hr⟩
    rintro ⟨s, rfl, hnone⟩
    exact utf8_ne_none.2 (hid s rfl).2 hnone

theorem normalizeProofs_ok {vs : List Value} {r : List ProofEntry} : normalizeProofs vs [] = .ok r ↔
    List.Forall₂ ProofIs vs r ∧ (r.map Prod.fst).Nodup := by
  have h := accumulate_ok (f := normalizeProofs) (R := ProofIs) (G := fun s => (s.map Prod.fst).Nodup)
    (fun _ => rfl) (fun v vs seen r hs => ?_) (fun _ _ h => nodup_map_append_left h)
    (l := vs) (s := []) (r := r) (by simp)
  · simpa using h
  · simp only [normalizeProofs_cons, nodup_map_concat, hs, true_and]

/-- Under distinct valid ids, the bytes a proof list is sorted by are distinct too. -/
theorem nodup_proofKey {ps : List ProofEntry} (hid : ∀ p ∈ ps, ∀ i ∈ p.1, ValidId i) :
    (ps.map Prod.fst).Nodup ↔ (ps.map proofKey).Nodup := by
  have hinj : ∀ p ∈ ps, ∀ q ∈ ps, proofKey p = proofKey q → p.1 = q.1 := by
    rintro ⟨i, s⟩ hp ⟨j, t⟩ hq h
    have hi := hid _ hp
    have hj := hid _ hq
    cases i <;> cases j <;> simp only [proofKey] at h ⊢
    · exact absurd (utf8Raw_eq_nil.1 h.symm) (hj _ rfl).1
    · exact absurd (utf8Raw_eq_nil.1 h) (hi _ rfl).1
    · rw [utf8Raw_injOn (hi _ rfl).2 (hj _ rfl).2 h]
  rw [List.nodup_iff_pairwise_ne, List.nodup_iff_pairwise_ne, List.pairwise_map, List.pairwise_map]
  constructor
  · exact fun h => h.imp_of_mem fun hp hq hne he => hne (hinj _ hp _ hq he)
  · exact fun h => h.imp fun hne he => hne (by simp [proofKey, he])

/-- The item `v` of an outer map reads as the proof list `ps`. -/
def ProofListIs (v : Value) (ps : List ProofEntry) : Prop :=
  (∃ vs, v = .array vs ∧ List.Forall₂ ProofIs vs ps) ∧
    ps.Pairwise fun x y => bytesLt (proofKey x) (proofKey y) = true

theorem validateProofList_ok {v : Value} {ps : List ProofEntry} :
    validateProofList v = .ok ps ↔ ProofListIs v ps := by
  have hids : ∀ {vs}, List.Forall₂ ProofIs vs ps → ∀ p ∈ ps, ∀ i ∈ p.1, ValidId i := by
    intro vs hf p hp
    obtain ⟨_, -, hv⟩ := exists_of_forall₂ hf p hp
    exact hv.2.2
  simp only [validateProofList, bind_eq_ok, requireList_ok, reject_eq_ok, pure_eq_ok, not_not]
  constructor
  · rintro ⟨vs, rfl, ps, hps, -, hsort, rfl⟩
    obtain ⟨hf, hn⟩ := normalizeProofs_ok.1 hps
    exact ⟨⟨vs, rfl, hf⟩, (eq_sort_nodup_iff proofKey _).1 ⟨hsort, (nodup_proofKey (hids hf)).1 hn⟩⟩
  · rintro ⟨⟨vs, rfl, hf⟩, hord⟩
    obtain ⟨hsort, hn⟩ := (eq_sort_nodup_iff proofKey _).2 hord
    refine ⟨vs, rfl, ps, ?_, (), hsort, rfl⟩
    exact normalizeProofs_ok.2 ⟨hf, (nodup_proofKey (hids hf)).2 hn⟩

/-! ### Signed updates -/

theorem eq_nil_of_keySet_nil {m : Dict} (hi : m.any (fun p => !isInt p.1) = false) (hk : keySet m []) :
    m = [] := by
  cases m with
  | nil => rfl
  | cons p m =>
    have hp : isInt p.1 = true := by simpa using (List.any_eq_false.1 hi) p (by simp)
    obtain ⟨k, v⟩ := p
    cases k <;> simp [isInt] at hp
    simp [keySet, intKeys] at hk
    exact ((hk _).1 rfl).elim

section

variable (P : Platform)

theorem decodeSignedUpdate_ok {b : Bytes} {u : SignedUpdate} : decodeSignedUpdate P b = .ok u ↔
    ∃ m v1 v2, requireCanonical P b = .ok (.map m) ∧ m.any (fun p => !isInt p.1) = false ∧
      (keySet m [1, 2, 3] ∨ keySet m [1, 2, 3, 4]) ∧ pyGet m 1 = some v1 ∧
      requireExactKeys [1, 2] v1 = .ok u.record ∧ pyGet m 2 = some v2 ∧
      requireExactKeys [] v2 = .ok u.payload ∧ pyGet m 3 = some (.int u.sequence) ∧
      ((pyGet m 4 = none ∧ u.authorization = none) ∨
        ∃ v a, pyGet m 4 = some v ∧ AuthorizationIs v a ∧ u.authorization = some a) := by
  simp only [decodeSignedUpdate, bind_eq_ok, requireDict_ok, reject_eq_ok, item_ok, requireUint_ok,
    pure_eq_ok, not_and_or, not_not, Bool.not_eq_true]
  constructor
  · rintro ⟨_, hc, m, rfl, -, hi, -, hk, v1, h1, r, hr, v2, h2, pl, hpl, _, h3, n, rfl, au, hau, rfl⟩
    refine ⟨m, v1, v2, hc, hi, hk, h1, hr, h2, hpl, h3, ?_⟩
    cases h4 : pyGet m 4 with
    | none => simp [h4, Option.mapM] at hau; exact Or.inl ⟨rfl, hau.symm⟩
    | some v =>
      simp only [h4, Option.mapM, Functor.map, Except.map] at hau
      cases hv : validateAuthorization v with
      | error e => simp [hv] at hau
      | ok a =>
        simp only [hv, Except.ok.injEq] at hau
        exact Or.inr ⟨v, a, rfl, validateAuthorization_ok.1 hv, hau.symm⟩
  · rintro ⟨m, v1, v2, hc, hi, hk, h1, hr, h2, hpl, h3, h4⟩
    refine ⟨_, hc, m, rfl, (), hi, (), hk, v1, h1, _, hr, v2, h2, _, hpl, _, h3, _, rfl, u.authorization, ?_, rfl⟩
    rcases h4 with ⟨h4, ha⟩ | ⟨v, a, h4, hv, ha⟩
    · rw [h4, ha]; rfl
    · rw [h4, ha]
      simp [Option.mapM, Functor.map, Except.map, validateAuthorization_ok.2 hv]

theorem decodeSignedUpdate_payload {b : Bytes} {u : SignedUpdate} (h : decodeSignedUpdate P b = .ok u) :
    u.payload = [] := by
  obtain ⟨m, v1, v2, -, -, -, -, -, -, hp, -⟩ := (decodeSignedUpdate_ok P).1 h
  obtain ⟨-, hi, hk⟩ := requireExactKeys_ok.1 hp
  exact eq_nil_of_keySet_nil hi hk

theorem decodeSignedUpdate_wellFormed {b : Bytes} {u : SignedUpdate} (h : decodeSignedUpdate P b = .ok u) :
    ∀ a ∈ u.authorization, a.WellFormed ∧ 1 ≤ a.threshold ∧ a.threshold ≤ a.signers.length := by
  obtain ⟨m, v1, v2, -, -, -, -, -, -, -, -, ha⟩ := (decodeSignedUpdate_ok P).1 h
  intro a hu
  rcases ha with ⟨-, h0⟩ | ⟨v, a', -, hv, h0⟩
  · rw [h0] at hu; cases hu
  · rw [h0] at hu; cases hu; exact hv.2

theorem Opens.wellFormed {P : Platform} {e : Bytes} {o : Opened} (h : Opens P e o) : o.WellFormed := by
  cases h with
  | legacy houter hints hkeys hupdate hsig hslen hu hauth hname hkey hklen =>
    exact ⟨hklen, by simp, by simpa using hslen, by simp⟩
  | versionOne houter hints hkeys hversion hupdate hu hauth hname hkey hklen hv hproofs =>
    obtain ⟨⟨vs, -, hf⟩, hord⟩ := validateProofList_ok.1 hproofs
    refine ⟨hklen, ?_, fun p hp => ?_, hord⟩
    · simpa [hauth] using fun a ha => (decodeSignedUpdate_wellFormed P hu a ha).1
    · obtain ⟨_, -, hpi⟩ := exists_of_forall₂ hf p hp
      exact hpi.2

theorem Opens.thresholdInRange {P : Platform} {e : Bytes} {o : Opened} (h : Opens P e o) :
    o.ThresholdInRange := by
  cases h with
  | legacy => exact fun _ ha => by cases ha
  | versionOne _ _ _ _ _ hu hauth =>
    intro a ha
    cases ha
    exact (decodeSignedUpdate_wellFormed P hu _ hauth).2

/-! ### Verifying proofs -/

theorem lookupSigner_mem {s : SignerSet} {i : Str} {k : Bytes} (h : lookupSigner s i = some k) : (i, k) ∈ s := by
  obtain ⟨e, he, rfl⟩ := Option.map_eq_some_iff.1 h
  have h1 := List.mem_of_find?_eq_some he
  have h2 := List.find?_some he
  simp only [beq_iff_eq] at h2
  subst h2
  simpa using h1

theorem lookupSigner_eq_some {s : SignerSet} (hn : (s.map Prod.fst).Nodup) {i : Str} {k : Bytes} :
    lookupSigner s i = some k ↔ (i, k) ∈ s := by
  refine ⟨lookupSigner_mem, fun h => ?_⟩
  cases hl : lookupSigner s i with
  | none =>
    simp only [lookupSigner, Option.map_eq_none_iff, List.find?_eq_none, List.mem_reverse] at hl
    exact absurd (hl _ h) (by simp)
  | some k' =>
    have := List.inj_on_of_nodup_map hn (lookupSigner_mem hl) h rfl
    simp_all

theorem verifyProofs_ok {keys : SignerSet} {update : Bytes} {ps : List ProofEntry} {ids : List Str} :
    verifyProofs P keys update ps = .ok ids ↔ ps.map Prod.fst = ids.map some ∧
      ∀ p ∈ ps, ∃ i k, p.1 = some i ∧ lookupSigner keys i = some k ∧
        P.verify k (P.sha256 update) p.2 = true := by
  induction ps generalizing ids with
  | nil => cases ids <;> simp [verifyProofs]
  | cons p ps ih =>
    simp only [verifyProofs, verifySignature, bind_eq_ok, orRaise_eq_ok, reject_eq_ok, pure_eq_ok,
      Bool.not_eq_false, ih]
    constructor
    · rintro ⟨i, hi, k, hk, -, hv, rest, ⟨hrest, hall⟩, rfl⟩
      refine ⟨by simp [hi, hrest], fun q hq => ?_⟩
      rcases List.mem_cons.1 hq with rfl | hq
      · exact ⟨i, k, hi, hk, hv⟩
      · exact hall q hq
    · rintro ⟨hmap, hall⟩
      obtain ⟨i, k, hi, hk, hv⟩ := hall p (by simp)
      cases ids with
      | nil => simp at hmap
      | cons j ids =>
        simp only [List.map_cons, List.cons.injEq, hi, Option.some.injEq] at hmap
        exact ⟨i, hi, k, hk, (), hv, ids, ⟨hmap.2, fun q hq => hall q (by simp [hq])⟩, by rw [hmap.1]⟩

/-! ### The rules -/

/-- What the parser relies on in the state it is given. -/
structure PreviousOk (ownerName : Bytes) (p : IdentityState) : Prop where
  ownerName : p.ownerName = ownerName
  idsNodup : (p.signerSet.map Prod.fst).Nodup

theorem map_fst_eq_map_some {ps : List ProofEntry} (h : ∀ p ∈ ps, ∃ i, p.1 = some i) :
    ps.map Prod.fst = (ps.filterMap Prod.fst).map some := by
  induction ps with
  | nil => rfl
  | cons p ps ih =>
    obtain ⟨i, hi⟩ := h p (by simp)
    rw [List.map_cons, List.filterMap_cons_some hi, List.map_cons, hi, ih fun q hq => h q (by simp [hq])]

theorem Opened.WellFormed.proofs_nodup {o : Opened} (h : o.WellFormed) : (o.proofs.map Prod.fst).Nodup :=
  (nodup_proofKey fun p hp => (h.proofs p hp).2).2 ((eq_sort_nodup_iff proofKey _).2 h.ordered).2

/-- Counting the set of ids that signed counts the proofs, since their ids are distinct. -/
theorem exists_ids_iff {ps : List ProofEntry} (hnod : (ps.map Prod.fst).Nodup) {R : ProofEntry → Prop}
    (hR : ∀ p, R p → ∃ i, p.1 = some i) (n : ℕ) :
    (∃ ids : List Str, (ps.map Prod.fst = ids.map some ∧ ∀ p ∈ ps, R p) ∧ n ≤ ids.dedup.length) ↔
      n ≤ ps.length ∧ ∀ p ∈ ps, R p := by
  have hlen : ∀ ids : List Str, ps.map Prod.fst = ids.map some → ids.dedup.length = ps.length := by
    intro ids h
    have hids : ids.Nodup := (List.nodup_map_iff (Option.some_injective _)).1 (h ▸ hnod)
    rw [hids.dedup, ← List.length_map (f := some), ← h, List.length_map]
  constructor
  · rintro ⟨ids, ⟨hmap, hp⟩, hle⟩
    exact ⟨hlen ids hmap ▸ hle, hp⟩
  · rintro ⟨hle, hp⟩
    have hmap := map_fst_eq_map_some fun p hp' => hR p (hp p hp')
    exact ⟨_, ⟨hmap, hp⟩, (hlen _ hmap).symm ▸ hle⟩

theorem quorum_iff {o : Opened} (hwf : o.WellFormed) {keys : SignerSet} (hn : (keys.map Prod.fst).Nodup)
    (n : ℕ) : (∃ ids, verifyProofs P keys o.update o.proofs = .ok ids ∧ n ≤ ids.dedup.length) ↔
      o.Quorum P.primitives keys n := by
  simp only [verifyProofs_ok, lookupSigner_eq_some hn]
  refine exists_ids_iff hwf.proofs_nodup (fun p hp => ?_) n
  obtain ⟨i, _, hi, -⟩ := hp
  exact ⟨i, hi⟩

theorem quorumCheck_ok {o : Opened} (hwf : o.WellFormed) {keys : SignerSet} (hn : (keys.map Prod.fst).Nodup)
    {a : Authorization} (hop : a.operation ≠ 4) {u : Unit} :
    (verifyProofs P keys o.update o.proofs >>= countSigners a) = .ok u ↔
      o.Quorum P.primitives keys a.threshold := by
  simp only [bind_eq_ok, countSigners, if_neg hop, reject_eq_ok, not_lt, quorum_iff P hwf hn]

/-- The only proof of an upgrade is a valid one of the signer that holds the owner key. -/
theorem upgradeCheck_ok (update key signature : Bytes) (i : Option Str) {a : Authorization}
    (hn : (a.signers.map Prod.fst).Nodup) (hop : a.operation = 4) {u : Unit} :
    (signerKeyIs a.signers i (.bytes key) = true ∧
      (verifyProofs P a.signers update [(i, signature)] >>= countSigners a) = .ok u) ↔
    ∃ j, i = some j ∧ (j, key) ∈ a.signers ∧ P.verify key (P.sha256 update) signature = true := by
  constructor
  · rintro ⟨hk, hc⟩
    obtain ⟨ids, hv, -⟩ := bind_eq_ok.1 hc
    obtain ⟨-, hp⟩ := (verifyProofs_ok P).1 hv
    obtain ⟨j, k, rfl, hl, hver⟩ := hp _ (List.mem_singleton.2 rfl)
    simp only [signerKeyIs, Option.bind_some, hl, beq_iff_eq] at hk
    subst hk
    exact ⟨j, rfl, lookupSigner_mem hl, hver⟩
  · rintro ⟨j, rfl, hmem, hver⟩
    have hl := (lookupSigner_eq_some hn).2 hmem
    refine ⟨by simp [signerKeyIs, hl], bind_eq_ok.2 ⟨[j], (verifyProofs_ok P).2 ⟨rfl, ?_⟩, ?_⟩⟩
    · simpa using ⟨key, hl, hver⟩
    · simp [countSigners, hop]

/-- All checks on a version-1 update after it is decoded. -/
def Checked (ownerName : Bytes) (o : Opened) (a : Authorization) (previous : Option IdentityState) : Prop :=
  checkOperation ownerName o.sequence (.bytes o.ownerKey) a previous = .ok () ∧
    checkUpgrade o.sequence (.bytes o.ownerKey) a o.proofs previous = .ok () ∧
    checkProofs P o.update a o.proofs previous = .ok ()

section

variable {P} {n : Bytes} {o : Opened} {a : Authorization} {p : IdentityState}

theorem checked_genesis (hwf : o.WellFormed) (ha : o.auth = some a) (hop : a.operation = 1)
    {previous : Option IdentityState} : Checked P n o a previous ↔ previous = none ∧ o.sequence = 1 ∧
      a.predecessor = zeroHash ∧ FreshGovernance a ∧ o.Quorum P.primitives a.signers 2 := by
  have hq := quorumCheck_ok P hwf (hwf.auth a ha).idsNodup (a := a) (by omega) (u := ())
  simp only [Checked, checkOperation, checkUpgrade, hop, if_true, bind_eq_ok, reject_eq_ok, not_or, not_not,
    Bool.not_eq_true, Option.isSome_eq_false_iff, Option.isNone_iff_eq_none, FreshGovernance]
  constructor
  · rintro ⟨⟨-, ⟨rfl, hseq, hgen, hpred⟩, hthr, hlen⟩, -, h3⟩
    have h3 : o.Quorum P.primitives a.signers a.threshold := hq.1 (by simpa [checkProofs, hop] using h3)
    exact ⟨rfl, hseq, hpred, ⟨hgen, hthr, hlen⟩, hthr ▸ h3⟩
  · rintro ⟨rfl, hseq, hpred, ⟨hgen, hthr, hlen⟩, h3⟩
    refine ⟨⟨(), ⟨rfl, hseq, hgen, hpred⟩, hthr, hlen⟩, by simp, ?_⟩
    simpa [checkProofs, hop] using hq.2 (hthr.symm ▸ h3)

theorem checked_ordinary (hwf : o.WellFormed) (hp : PreviousOk n p) (hop : a.operation = 2) :
    Checked P n o a (some p) ↔ o.Follows a p.head ∧ p.signerSet ≠ [] ∧ o.ownerKey = p.ownerPublicKey ∧
      KeepsGovernance a p.head ∧ o.Quorum P.primitives p.signerSet a.threshold := by
  have hq := quorumCheck_ok P hwf hp.idsNodup (a := a) (by omega) (u := ())
  simp only [Checked, checkOperation, checkUpgrade, checkProofs, hop, isBytes_iff, Value.bytes.injEq, hp.ownerName,
    Follows, KeepsGovernance, IdentityState.head] at hq ⊢
  simp [hq]
  tauto

theorem checked_replaceSigners (hwf : o.WellFormed) (hp : PreviousOk n p) (hop : a.operation = 3) :
    Checked P n o a (some p) ↔ o.Follows a p.head ∧ p.signerSet ≠ [] ∧ o.ownerKey = p.ownerPublicKey ∧
      p.generation.getD 0 < a.generation ∧ a.threshold = 2 ∧ a.signers.length = 3 ∧
      a.signers ≠ p.signerSet ∧ o.Quorum P.primitives p.signerSet a.threshold := by
  have hq := quorumCheck_ok P hwf hp.idsNodup (a := a) (by omega) (u := ())
  simp only [Checked, checkOperation, checkUpgrade, checkProofs, hop, isBytes_iff, Value.bytes.injEq, hp.ownerName,
    Follows, IdentityState.head] at hq ⊢
  simp [hq]
  simp [bind_eq_ok]
  tauto

theorem checked_upgrade (hwf : o.WellFormed) (ha : o.auth = some a) (hop : a.operation = 4) :
    Checked P n o a (some p) ↔ o.Follows a p.head ∧ p.signerSet = [] ∧ o.ownerKey = p.ownerPublicKey ∧
      FreshGovernance a ∧ ∃ i signature, o.proofs = [(some i, signature)] ∧ (i, o.ownerKey) ∈ a.signers ∧
        o.SignedBy P.primitives o.ownerKey signature := by
  have hn := (hwf.auth a ha).idsNodup
  rcases hproofs : o.proofs with _ | ⟨⟨i, signature⟩, _ | ⟨q, ps⟩⟩
  · simp [Checked, hop, checkUpgrade, hproofs]
  · have hu := upgradeCheck_ok P o.update o.ownerKey signature i hn hop (u := ())
    simp only [Checked, hop, checkOperation, checkUpgrade, checkProofs, hproofs, isBytes_iff,
      Value.bytes.injEq, Follows, FreshGovernance, IdentityState.head, SignedBy, Platform.primitives] at hu ⊢
    simp
    constructor
    · rintro ⟨⟨hg, ht, hl⟩, ⟨hk, hs, hkey, hpred, hseq⟩, hc⟩
      obtain ⟨j, rfl, hmem, hver⟩ := hu.1 ⟨hk, by simpa using hc⟩
      exact ⟨⟨hpred, hseq⟩, hs, hkey, ⟨hg, ht, hl⟩, j, rfl, hmem, hver⟩
    · rintro ⟨⟨hpred, hseq⟩, hs, hkey, ⟨hg, ht, hl⟩, j, rfl, hmem, hver⟩
      obtain ⟨hk, hc⟩ := hu.2 ⟨j, rfl, hmem, hver⟩
      exact ⟨⟨hg, ht, hl⟩, ⟨hk, hs, hkey, hpred, hseq⟩, by simpa using hc⟩
  · simp [Checked, hop, checkUpgrade, hproofs]

theorem checked_rotate (hwf : o.WellFormed) (hp : PreviousOk n p) (hop : a.operation = 5)
    (hv1 : p.signerSet ≠ []) : Checked P n o a (some p) ↔ o.Follows a p.head ∧
      o.ownerKey ≠ p.ownerPublicKey ∧ KeepsGovernance a p.head ∧
      o.Quorum P.primitives p.signerSet a.threshold := by
  have hq := quorumCheck_ok P hwf hp.idsNodup (a := a) (by omega) (u := ())
  simp only [Checked, checkOperation, checkUpgrade, checkProofs, hop, isBytes_iff, Value.bytes.injEq, hp.ownerName,
    Follows, KeepsGovernance, IdentityState.head] at hq ⊢
  simp [hq, hv1]
  simp [bind_eq_ok]
  tauto

theorem checked_rotateLegacy (hp : PreviousOk n p) (hop : a.operation = 5) (hlegacy : p.signerSet = []) :
    Checked P n o a (some p) ↔ o.Follows a p.head ∧ o.ownerKey ≠ p.ownerPublicKey ∧ FreshGovernance a ∧
      o.ownerKey ∈ a.signers.map Prod.snd ∧ ∃ signature, o.proofs = [(none, signature)] ∧
        o.SignedBy P.primitives p.ownerPublicKey signature := by
  have hmem : (∃ e ∈ a.signers, o.ownerKey = e.2) ↔ o.ownerKey ∈ a.signers.map Prod.snd := by
    simp only [List.mem_map, eq_comm]
  simp only [Checked, checkOperation, checkUpgrade, checkProofs, hop, isBytes_iff, Value.bytes.injEq, hp.ownerName,
    Follows, FreshGovernance, IdentityState.head, hashable, hmem, SignedBy, Platform.primitives]
  rcases hproofs : o.proofs with _ | ⟨⟨_ | i, signature⟩, _ | ⟨q, ps⟩⟩ <;>
    simp [hlegacy, verifySignature, bind_eq_ok]
  tauto

theorem not_checked_none (hop : a.operation ∈ [2, 3, 4, 5]) : ¬Checked P n o a none := by
  rintro ⟨h1, h2, -⟩
  simp only [List.mem_cons, List.not_mem_nil, or_false] at hop
  rcases hop with h | h | h | h
  · simp [checkOperation, h] at h1
  · simp [checkOperation, h, bind_eq_ok] at h1
  · simp [checkUpgrade, h] at h2
  · simp [checkOperation, h] at h1

theorem checked_iff_admits (hwf : o.WellFormed) (ha : o.auth = some a) {previous : Option IdentityState}
    (hp : ∀ p ∈ previous, PreviousOk n p) :
    Checked P n o a previous ↔ Admits P.primitives (previous.map IdentityState.head) o := by
  have hops := (hwf.auth a ha).operation
  constructor
  · intro hc
    simp only [List.mem_cons, List.not_mem_nil, or_false] at hops
    rcases hops with hop | hops
    · obtain ⟨rfl, hseq, hpred, hgov, hq⟩ := (checked_genesis hwf ha hop).1 hc
      exact .genesis ha hop hseq hpred hgov hq
    cases previous with
    | none => exact absurd hc (not_checked_none (by simpa using hops))
    | some p =>
      have hp := hp p rfl
      rcases hops with hop | hop | hop | hop
      · obtain ⟨hf, hv1, hkey, hgov, hq⟩ := (checked_ordinary hwf hp hop).1 hc
        exact .ordinary ha hop hf hv1 hkey hgov hq
      · obtain ⟨hf, hv1, hkey, hgen, hthr, hlen, hne, hq⟩ := (checked_replaceSigners hwf hp hop).1 hc
        exact .replaceSigners ha hop hf hv1 hkey hgen hthr hlen hne (hthr ▸ hq)
      · obtain ⟨hf, hl, hkey, hgov, i, sig, hproofs, hs, hsig⟩ := (checked_upgrade hwf ha hop).1 hc
        exact .upgrade ha hop hf hl hkey hgov hproofs hs hsig
      · by_cases hl : p.signerSet = []
        · obtain ⟨hf, hkey, hgov, hin, sig, hproofs, hsig⟩ := (checked_rotateLegacy hp hop hl).1 hc
          exact .rotateLegacy ha hop hf hl hkey hgov hin hproofs hsig
        · obtain ⟨hf, hkey, hgov, hq⟩ := (checked_rotate hwf hp hop hl).1 hc
          exact .rotate ha hop hf hl hkey hgov hq
  · intro hadm
    generalize hph : previous.map IdentityState.head = ph at hadm
    cases hadm with
    | legacy hauth => rw [ha] at hauth; cases hauth
    | genesis hauth hop hseq hpred hgov hq =>
      cases ha.symm.trans hauth
      exact (checked_genesis hwf ha hop).2 ⟨Option.map_eq_none_iff.1 hph, hseq, hpred, hgov, hq⟩
    | ordinary hauth hop hf hv1 hkey hgov hq =>
      cases ha.symm.trans hauth
      obtain ⟨p, rfl, rfl⟩ := Option.map_eq_some_iff.1 hph
      exact (checked_ordinary hwf (hp p rfl) hop).2 ⟨hf, hv1, hkey, hgov, hq⟩
    | replaceSigners hauth hop hf hv1 hkey hgen hthr hlen hne hq =>
      cases ha.symm.trans hauth
      obtain ⟨p, rfl, rfl⟩ := Option.map_eq_some_iff.1 hph
      exact (checked_replaceSigners hwf (hp p rfl) hop).2 ⟨hf, hv1, hkey, hgen, hthr, hlen, hne, hthr.symm ▸ hq⟩
    | upgrade hauth hop hf hl hkey hgov hproofs hs hsig =>
      cases ha.symm.trans hauth
      obtain ⟨p, rfl, rfl⟩ := Option.map_eq_some_iff.1 hph
      exact (checked_upgrade hwf ha hop).2 ⟨hf, hl, hkey, hgov, _, _, hproofs, hs, hsig⟩
    | rotate hauth hop hf hv1 hkey hgov hq =>
      cases ha.symm.trans hauth
      obtain ⟨p, rfl, rfl⟩ := Option.map_eq_some_iff.1 hph
      exact (checked_rotate hwf (hp p rfl) hop hv1).2 ⟨hf, hkey, hgov, hq⟩
    | rotateLegacy hauth hop hf hl hkey hgov hin hproofs hsig =>
      cases ha.symm.trans hauth
      obtain ⟨p, rfl, rfl⟩ := Option.map_eq_some_iff.1 hph
      exact (checked_rotateLegacy (hp p rfl) hop hl).2 ⟨hf, hkey, hgov, hin, _, hproofs, hsig⟩

end

/-! ### The parser -/

theorem keySet_two_of_three {m : Dict} (h : keySet m [1, 2, 3]) : ¬keySet m [1, 2] := fun h' =>
  absurd (h'.1 3 (h.2 3 (by simp))) (by decide)

/-- Admitted on top of something only where the update has an authorization that names it. -/
theorem Admits.operation_mem {C : Primitives} {o : Opened} {a : Authorization} (ha : o.auth = some a)
    {h : Head} (hadm : Admits C (some h) o) : a.operation ∈ [2, 3, 4, 5] := by
  cases hadm with
  | legacy hauth => rw [ha] at hauth; cases hauth
  | ordinary hauth hop => cases ha.symm.trans hauth; simp [hop]
  | replaceSigners hauth hop => cases ha.symm.trans hauth; simp [hop]
  | upgrade hauth hop => cases ha.symm.trans hauth; simp [hop]
  | rotate hauth hop => cases ha.symm.trans hauth; simp [hop]
  | rotateLegacy hauth hop => cases ha.symm.trans hauth; simp [hop]

theorem Admits.legacy_signed {C : Primitives} {o : Opened} (ha : o.auth = none) {h : Option Head}
    (hadm : Admits C h o) : ∃ signature, o.proofs = [(none, signature)] ∧ o.SignedBy C o.ownerKey signature := by
  cases hadm with
  | legacy _ hproofs hsig => exact ⟨_, hproofs, hsig⟩
  | genesis hauth | ordinary hauth | replaceSigners hauth | upgrade hauth | rotate hauth
  | rotateLegacy hauth => rw [ha] at hauth; cases hauth

theorem parseIdentityEnvelope_ok {n e : Bytes} {previous : Option IdentityState} {s : IdentityState}
    (hp : ∀ p ∈ previous, PreviousOk n p) : parseIdentityEnvelope P n e previous = .ok s ↔
      ∃ o, Opens P e o ∧ o.ownerName = n ∧ Admits P.primitives (previous.map IdentityState.head) o ∧
        s = o.state P e previous := by
  simp only [parseIdentityEnvelope, bind_eq_ok, requireDict_ok, reject_eq_ok, Bool.not_eq_true]
  constructor
  · rintro ⟨_, houter, m, rfl, -, hints, h⟩
    split_ifs at h with hkeys
    · simp only [bind_eq_ok, item_ok, requireBytes_ok, reject_eq_ok, not_or, not_not, verifySignature,
        pure_eq_ok, Option.mem_def, Option.some.injEq, forall_eq', isBytes_iff, Bool.not_eq_false] at h
      obtain ⟨_, hupd, update, ⟨rfl, -⟩, _, hsig, signature, ⟨rfl, hslen⟩, u, hu, _, hname, -,
        ⟨hauth, -, rfl⟩, _, hkey, key, ⟨rfl, hklen⟩, -, hver, rfl⟩ := h
      have hauth : u.authorization = none := by simpa using hauth
      refine ⟨_, .legacy houter hints hkeys hupd hsig hslen hu hauth hname hkey hklen, rfl, ?_, ?_⟩
      · exact .legacy rfl rfl hver
      · simp [Opened.state]
    · simp only [bind_eq_ok, item_ok, requireOne_ok, requireBytes_ok, reject_eq_ok, not_or, not_not,
        orRaise_eq_ok, pure_eq_ok, Option.mem_def, Option.some.injEq, forall_eq', isBytes_iff,
        Bool.not_eq_false] at h
      obtain ⟨-, hkeys, _, hone, -, rfl, _, hupd, update, ⟨rfl, -⟩, u, hu, a, hauth, _, hname, -, ⟨-, rfl⟩,
        _, hkey, _, hop, v, hv, proofs, hproofs, _, hup, _, hpr, key, ⟨rfl, hklen⟩, rfl⟩ := h
      have hopens := Opens.versionOne houter hints hkeys hone hupd hu hauth hname hkey hklen hv hproofs
      have hadm := (checked_iff_admits hopens.wellFormed rfl hp).1 ⟨hop, hup, hpr⟩
      refine ⟨_, hopens, rfl, hadm, ?_⟩
      cases previous with
      | none => simp [Opened.state]
      | some p => simp [Opened.state, hadm.operation_mem rfl]
  · rintro ⟨o, hopens, hn, hadm, rfl⟩
    have hwf := hopens.wellFormed
    cases hopens with
    | legacy houter hints hkeys hupd hsig hslen hu hauth hname hkey hklen =>
      subst hn
      refine ⟨_, houter, _, rfl, (), hints, ?_⟩
      obtain ⟨_, hproofs, hver⟩ := hadm.legacy_signed rfl
      cases hproofs
      simp only [if_pos hkeys, bind_eq_ok, item_ok, requireBytes_ok, reject_eq_ok, not_or, not_not,
        verifySignature, pure_eq_ok, isBytes_iff, Bool.not_eq_false]
      exact ⟨_, hupd, _, ⟨rfl, by simp⟩, _, hsig, _, ⟨rfl, by simpa using hslen⟩, _, hu, _, hname, (),
        ⟨by simp [hauth], decodeSignedUpdate_payload P hu, rfl⟩, _, hkey, _, ⟨rfl, by simpa using hklen⟩, (),
        hver, by simp [Opened.state]⟩
    | versionOne houter hints hkeys hone hupd hu hauth hname hkey hklen hv hproofs =>
      subst hn
      obtain ⟨hop, hup, hpr⟩ := (checked_iff_admits hwf rfl hp).2 hadm
      refine ⟨_, houter, _, rfl, (), hints, ?_⟩
      simp only [if_neg (keySet_two_of_three hkeys), bind_eq_ok, item_ok, requireOne_ok, requireBytes_ok,
        reject_eq_ok, not_or, not_not, orRaise_eq_ok, pure_eq_ok, isBytes_iff, Bool.not_eq_false]
      refine ⟨(), hkeys, _, hone, (), rfl, _, hupd, _, ⟨rfl, by simp⟩, _, hu, _, hauth, _, hname, (),
        ⟨decodeSignedUpdate_payload P hu, rfl⟩, _, hkey, (), hop, _, hv, _, hproofs, (), hup, (), hpr, _,
        ⟨rfl, by simpa using hklen⟩, ?_⟩
      cases previous with
      | none => simp [Opened.state]
      | some p => simp [Opened.state, hadm.operation_mem rfl]

end

end DecentWallet
