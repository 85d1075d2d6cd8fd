import DecentWallet.Lib.CborRead

/-! Maps with the keys 1, 2, 3, …: the only shape a canonical map with such a key set has. -/

namespace DecentWallet.Cbor

/-- Entries keyed by consecutive integers from `k`. -/
def dictFrom : ℕ → List Value → List (Value × Value)
  | _, [] => []
  | k, v :: vs => (.int k, v) :: dictFrom (k + 1) vs

def dict (vs : List Value) : Value := .map (dictFrom 1 vs)

theorem length_eq_four {α : Type} {l : List α} (h : l.length = 4) : ∃ a b c d, l = [a, b, c, d] := by
  obtain ⟨a, l, rfl⟩ := List.exists_cons_of_length_eq_add_one h
  obtain ⟨b, c, d, rfl⟩ := List.length_eq_three.1 (Nat.succ.inj h)
  exact ⟨a, b, c, d, rfl⟩

theorem length_eq_seven {α : Type} {l : List α} (h : l.length = 7) :
    ∃ a b c d e f g, l = [a, b, c, d, e, f, g] := by
  obtain ⟨a, b, c, d, hl⟩ := length_eq_four (l := l.take 4) (by simp [h])
  obtain ⟨e, f, g, hr⟩ := List.length_eq_three.1 (show (l.drop 4).length = 3 by simp [h])
  exact ⟨a, b, c, d, e, f, g, by rw [← List.take_append_drop 4 l, hl, hr]; rfl⟩

@[simp] theorem dictFrom_length (k : ℕ) (vs : List Value) : (dictFrom k vs).length = vs.length := by
  induction vs generalizing k with
  | nil => rfl
  | cons v vs ih => simp [dictFrom, ih]

theorem encode_small {k : ℕ} (h : k < 24) : encode (.int k) = [UInt8.ofNat k] := by
  have hm : magnitude (k : ℤ) = k := rfl
  have hs : sign (k : ℤ) = 0 := by simp [sign]
  have : k < 2 ^ 64 := by omega
  simp only [encode, encodeInt, hm, hs, if_pos this, head, if_pos h]
  simp

theorem keyLt_small {j k : ℕ} (hj : j < 24) (hk : k < 24) (v w : Value) :
    keyLt (.int j, v) (.int k, w) = true ↔ j < k := by
  simp [keyLt, encode_small hj, encode_small hk, shortLex, bytesLt, toNat_ofNat_lt (show j < 256 by omega),
    toNat_ofNat_lt (show k < 256 by omega)]

theorem mem_dictFrom {k : ℕ} {vs : List Value} {p : Value × Value} (h : p ∈ dictFrom k vs) :
    ∃ j : ℕ, k ≤ j ∧ j < k + vs.length ∧ p.1 = .int j ∧ p.2 ∈ vs := by
  induction vs generalizing k with
  | nil => simp [dictFrom] at h
  | cons v vs ih =>
    rcases List.mem_cons.1 h with rfl | h
    · exact ⟨k, le_rfl, by simp, rfl, by simp⟩
    · obtain ⟨j, h1, h2, h3, h4⟩ := ih h
      exact ⟨j, by omega, by simp only [List.length_cons]; omega, h3, by simp [h4]⟩

theorem mem_dictFrom_iff {k : ℕ} {vs : List Value} {p : Value × Value} :
    p ∈ dictFrom k vs ↔ ∃ j : ℕ, p.1 = .int (k + j : ℕ) ∧ vs[j]? = some p.2 := by
  induction vs generalizing k with
  | nil => simp [dictFrom]
  | cons v vs ih =>
    rw [dictFrom, List.mem_cons, ih]
    constructor
    · rintro (rfl | ⟨j, hj, hv⟩)
      · exact ⟨0, rfl, rfl⟩
      · exact ⟨j + 1, by rw [hj, Nat.add_right_comm, Nat.add_assoc], hv⟩
    · rintro ⟨_ | j, hj, hv⟩
      · exact .inl (Prod.ext hj (Option.some.inj hv).symm)
      · exact .inr ⟨j, by rw [hj, Nat.add_right_comm, Nat.add_assoc], hv⟩

theorem pairwise_dictFrom {k : ℕ} {vs : List Value} (h : k + vs.length ≤ 24) :
    (dictFrom k vs).Pairwise fun a b => keyLt a b = true := by
  induction vs generalizing k with
  | nil => simp [dictFrom]
  | cons v vs ih =>
    simp only [List.length_cons] at h
    refine List.pairwise_cons.2 ⟨fun p hp => ?_, ih (by omega)⟩
    obtain ⟨j, h1, h2, h3, -⟩ := mem_dictFrom hp
    obtain ⟨q, w⟩ := p
    simp only at h3
    subst h3
    exact (keyLt_small (by omega) (by omega) v w).2 (by omega)

theorem canonical_small {k : ℕ} (h : k < 24) : canonical (.int k) = true := by
  have hm : magnitude (k : ℤ) = k := rfl
  simp only [canonical, hm, Bool.or_eq_true, decide_eq_true_eq]
  omega

theorem canonicalPairs_dictFrom {k : ℕ} {vs : List Value} (h : k + vs.length ≤ 24) :
    canonicalPairs (dictFrom k vs) = canonicalList vs := by
  induction vs generalizing k with
  | nil => rfl
  | cons v vs ih =>
    simp only [List.length_cons] at h
    simp [dictFrom, canonicalPairs, canonicalList, canonical_small (show k < 24 by omega),
      ih (show k + 1 + vs.length ≤ 24 by omega)]

theorem canonical_dict {vs : List Value} (h : vs.length < 24) : canonical (dict vs) = canonicalList vs := by
  have hp : (dictFrom 1 vs).Pairwise _ := pairwise_dictFrom (by omega)
  have hl : vs.length < 2 ^ 64 := by omega
  simp only [dict, canonical, dictFrom_length, hl, canonicalPairs_dictFrom (show 1 + vs.length ≤ 24 by omega),
    hp, decide_true, Bool.true_and, Bool.and_true]

theorem plainPairs_dictFrom (k : ℕ) (vs : List Value) : plainPairs (dictFrom k vs) = plainList vs := by
  induction vs generalizing k with
  | nil => rfl
  | cons v vs ih => simp [dictFrom, plainPairs, plainList, plain, ih]

theorem plain_dict (vs : List Value) : plain (dict vs) = plainList vs := by
  simp [dict, plain, plainPairs_dictFrom]

theorem sortKeysPairs_dictFrom (k : ℕ) (vs : List Value) :
    sortKeysPairs (dictFrom k vs) = dictFrom k (sortKeysList vs) := by
  induction vs generalizing k with
  | nil => rfl
  | cons v vs ih => simp [dictFrom, sortKeysPairs, sortKeysList, sortKeys, ih]

theorem insertionSort_of_keyLt {m : List (Value × Value)} (h : m.Pairwise fun a b => keyLt a b = true) :
    m.insertionSort (fun a b => keyLe a b = true) = m := by
  refine List.Pairwise.insertionSort_eq (h.imp fun {a b} hab => ?_)
  simp only [keyLe, Bool.not_eq_true']
  by_contra hba
  have := shortLex_trans hab (by simpa using hba)
  rw [shortLex_irrefl] at this
  cases this

theorem sortKeys_dict {vs : List Value} (h : vs.length < 24) (hvs : sortKeysList vs = vs) :
    sortKeys (dict vs) = dict vs := by
  simp only [dict, sortKeys, sortKeysPairs_dictFrom, hvs]
  rw [insertionSort_of_keyLt (pairwise_dictFrom (by omega))]

/-- Consecutive keys make a dictionary. -/
theorem eq_dictFrom_of_keys {m : List (Value × Value)} {k : ℕ}
    (h : m.map Prod.fst = (List.range' k m.length).map fun i => Value.int (i : ℕ)) :
    m = dictFrom k (m.map Prod.snd) := by
  induction m generalizing k with
  | nil => rfl
  | cons p m ih =>
    simp only [List.map_cons, List.length_cons, List.range'_succ, List.cons.injEq] at h
    obtain ⟨a, b⟩ := p
    simp only at h
    simp only [List.map_cons, dictFrom, h.1, List.cons.injEq, true_and]
    exact ih h.2

/-- A canonical map whose keys are the integers `1, …, n` lists them in that order. -/
theorem eq_dict_of_canonical {m : List (Value × Value)} {n : ℕ} (hn : n < 24)
    (hkeys : ∀ p ∈ m, ∃ j : ℕ, p.1 = .int j ∧ 1 ≤ j ∧ j ≤ n)
    (hall : ∀ j : ℕ, 1 ≤ j → j ≤ n → ∃ p ∈ m, p.1 = .int j)
    (hsorted : m.Pairwise fun a b => keyLt a b = true) : ∃ vs, vs.length = n ∧ m = dictFrom 1 vs := by
  -- read the keys off as numbers: a strictly increasing list with the members of `1, …, n`
  obtain ⟨js, hjs⟩ : ∃ js : List ℕ, m.map Prod.fst = js.map fun j => Value.int (j : ℕ) := by
    clear hall hsorted
    induction m with
    | nil => exact ⟨[], rfl⟩
    | cons p m ih =>
      obtain ⟨j, hj, -⟩ := hkeys p (by simp)
      obtain ⟨js, hjs⟩ := ih fun q hq => hkeys q (by simp [hq])
      exact ⟨j :: js, by simp [hj, hjs]⟩
  have hinj : Function.Injective fun j : ℕ => Value.int (j : ℕ) := fun a b h => by simpa using h
  have hmem : ∀ j, j ∈ js ↔ ∃ p ∈ m, p.1 = .int (j : ℕ) := fun j => by
    rw [← List.mem_map_of_injective hinj, ← hjs, List.mem_map]
  have hsmall : ∀ j ∈ js, 1 ≤ j ∧ j ≤ n := fun j hj => by
    obtain ⟨p, hp, hpj⟩ := (hmem j).1 hj
    obtain ⟨i, hi, h1, h2⟩ := hkeys p hp
    rw [hpj] at hi
    have : j = i := by simpa using hi
    omega
  have hlt : js.Pairwise (· < ·) := by
    have h1 : (m.map Prod.fst).Pairwise fun a b => shortLex (encode a) (encode b) = true :=
      List.pairwise_map.2 hsorted
    rw [hjs, List.pairwise_map] at h1
    refine h1.imp_of_mem fun {a b} ha hb hab => ?_
    have := hsmall a ha
    have := hsmall b hb
    exact (keyLt_small (by omega) (by omega) .null .null).1 hab
  have hrange : js = List.range' 1 n := by
    refine List.Pairwise.eq_of_mem_iff hlt List.pairwise_lt_range' fun j => ?_
    rw [List.mem_range'_1]
    constructor
    · intro hj; have := hsmall j hj; omega
    · intro hj; exact (hmem j).2 (hall j (by omega) (by omega))
  have hlen : m.length = n := by
    have := congrArg List.length hjs
    simpa [hrange] using this
  refine ⟨m.map Prod.snd, by simpa using hlen, eq_dictFrom_of_keys ?_⟩
  rw [hjs, hrange, hlen]

/-! ### What is read: dictionaries -/

/-- The integer keys of a map, in order. -/
def intKeys (m : List (Value × Value)) : List ℤ := m.filterMap fun p => match p.1 with
  | .int n => some n
  | _ => none

theorem mem_intKeys {m : List (Value × Value)} {z : ℤ} : z ∈ intKeys m ↔ ∃ p ∈ m, p.1 = .int z := by
  simp only [intKeys, List.mem_filterMap]
  refine exists_congr fun p => and_congr_right fun _ => ?_
  cases p.1 <;> simp

/-- No map in it holds an integer key twice. -/
inductive Distinct : Value → Prop
  | array {vs : List Value} (h : ∀ v ∈ vs, Distinct v) : Distinct (.array vs)
  | map {m : List (Value × Value)} (hkeys : (intKeys m).Nodup) (h : ∀ p ∈ m, Distinct p.2) : Distinct (.map m)
  | int (n : ℤ) : Distinct (.int n)
  | bytes (b : Bytes) : Distinct (.bytes b)
  | text (s : Str) : Distinct (.text s)
  | null : Distinct .null
  | bool (b : Bool) : Distinct (.bool b)
  | num (q : Option ℚ) : Distinct (.num q)
  | other (n : ℕ) : Distinct (.other n)

theorem nodup_intKeys {m : List (Value × Value)} (h : m.Pairwise fun a b => keyLt a b = true) : (intKeys m).Nodup := by
  refine List.pairwise_filterMap.2 (h.imp fun {a b} hab y hy z hz => ?_)
  rintro rfl
  have hkey : ∀ {p : Value × Value}, (match p.1 with | .int n => some n | _ => none) = some y → p.1 = .int y := by
    intro p hp
    split at hp <;> simp_all
  rw [keyLt, hkey hy, hkey hz, shortLex_irrefl] at hab
  cases hab

mutual

/-- An item in canonical form is in order, and its maps are dictionaries. -/
theorem sorted_of_canonical : ∀ {v : Value}, canonical v = true → sortKeys v = v ∧ Distinct v
  | .array xs, h => by
    simp only [canonical, Bool.and_eq_true] at h
    obtain ⟨hs, hd⟩ := sortedList_of_canonical h.2
    exact ⟨by rw [sortKeys, hs], .array hd⟩
  | .map m, h => by
    simp only [canonical, Bool.and_eq_true, decide_eq_true_eq] at h
    obtain ⟨hs, hd⟩ := sortedPairs_of_canonical h.1.2
    exact ⟨by rw [sortKeys, hs, insertionSort_of_keyLt h.2], .map (nodup_intKeys h.2) hd⟩
  | .int n, _ => ⟨rfl, .int n⟩
  | .bytes b, _ => ⟨rfl, .bytes b⟩
  | .text s, _ => ⟨rfl, .text s⟩
  | .null, _ => ⟨rfl, .null⟩
  | .bool b, _ => ⟨rfl, .bool b⟩
  | .num q, _ => ⟨rfl, .num q⟩
  | .other n, _ => ⟨rfl, .other n⟩

theorem sortedList_of_canonical : ∀ {vs : List Value}, canonicalList vs = true →
    sortKeysList vs = vs ∧ ∀ v ∈ vs, Distinct v
  | [], _ => ⟨rfl, by simp⟩
  | v :: vs, h => by
    simp only [canonicalList, Bool.and_eq_true] at h
    obtain ⟨hs, hd⟩ := sorted_of_canonical h.1
    obtain ⟨hss, hds⟩ := sortedList_of_canonical h.2
    exact ⟨by rw [sortKeysList, hs, hss], by simpa using ⟨hd, hds⟩⟩

theorem sortedPairs_of_canonical : ∀ {m : List (Value × Value)}, canonicalPairs m = true →
    sortKeysPairs m = m ∧ ∀ p ∈ m, Distinct p.2
  | [], _ => ⟨rfl, by simp⟩
  | (k, v) :: m, h => by
    simp only [canonicalPairs, Bool.and_eq_true] at h
    obtain ⟨hs, hd⟩ := sorted_of_canonical h.1.2
    obtain ⟨hss, hds⟩ := sortedPairs_of_canonical h.2
    exact ⟨by rw [sortKeysPairs, (sorted_of_canonical h.1.1).1, hs, hss], List.forall_mem_cons.2 ⟨hd, hds⟩⟩

end

/-! ### Sorting -/

theorem keyLe_trans : IsTrans (Value × Value) fun a b => keyLe a b = true := ⟨fun a b c h1 h2 => by
  by_contra hn
  have hca : shortLex (encode c.1) (encode a.1) = true := by simpa [keyLe] using hn
  by_cases hab : encode a.1 = encode b.1
  · simp [keyLe, ← hab, hca] at h2
  · rcases shortLex_connex hab with h | h
    · simp [keyLe, shortLex_trans hca h] at h2
    · simp [keyLe, h] at h1⟩

theorem keyLe_total : Std.Total fun a b : Value × Value => keyLe a b = true := ⟨fun a b => by
  by_cases h : encode a.1 = encode b.1
  · left; simp [keyLe, h, shortLex_irrefl]
  · rcases shortLex_connex h with h | h
    · left
      by_contra hn
      have := shortLex_trans h (by simpa [keyLe] using hn : shortLex (encode b.1) (encode a.1) = true)
      simp [shortLex_irrefl] at this
    · right
      by_contra hn
      have := shortLex_trans h (by simpa [keyLe] using hn : shortLex (encode a.1) (encode b.1) = true)
      simp [shortLex_irrefl] at this⟩

theorem sortKeysPairs_eq_map (m : List (Value × Value)) :
    sortKeysPairs m = m.map fun p => (sortKeys p.1, sortKeys p.2) := by
  induction m with
  | nil => rfl
  | cons p m ih => simp [sortKeysPairs, ih]

theorem plainPairs_iff {m : List (Value × Value)} :
    plainPairs m = true ↔ ∀ p ∈ m, plain p.1 = true ∧ plain p.2 = true := by
  induction m with
  | nil => simp [plainPairs]
  | cons p m ih => simp [plainPairs, ih, and_assoc]

/-- The entries of a dictionary are told apart by their keys. -/
theorem dictFrom_antisymm {k : ℕ} {vs : List Value} (hlen : k + vs.length ≤ 24) {a b : Value × Value}
    (ha : a ∈ dictFrom k vs) (hb : b ∈ dictFrom k vs) (hab : keyLe a b = true) (hba : keyLe b a = true) : a = b := by
  have hsymm : Std.Symm fun a b : Value × Value => a = b ∨ keyLt a b = true ∨ keyLt b a = true :=
    ⟨fun a b h => by tauto⟩
  have h := List.Pairwise.forall_of_forall (fun x _ => .inl rfl)
    ((pairwise_dictFrom hlen).imp fun {a b} h => (.inr (.inl h) : a = b ∨ keyLt a b = true ∨ keyLt b a = true)) ha hb
  simp only [keyLe, Bool.not_eq_true'] at hab hba
  simpa [keyLt, hab, hba] using h

/-- A map with the entries of a dictionary, in any order, is sorted to it. -/
theorem sortKeys_of_perm {m : List (Value × Value)} {vs : List Value} (hlen : vs.length < 24)
    (h : m.Perm (dictFrom 1 vs)) : sortKeys (.map m) = dict (sortKeysList vs) := by
  have hsorted : (sortKeysPairs m).Perm (dictFrom 1 (sortKeysList vs)) := by
    rw [← sortKeysPairs_dictFrom, sortKeysPairs_eq_map, sortKeysPairs_eq_map]
    exact h.map _
  have hlen' : 1 + (sortKeysList vs).length ≤ 24 := by
    have := hsorted.length_eq
    rw [dictFrom_length, sortKeysPairs_eq_map, List.length_map, h.length_eq, dictFrom_length] at this
    omega
  have hperm := (List.perm_insertionSort (fun a b => keyLe a b = true) _).trans hsorted
  have := keyLe_trans
  have := keyLe_total
  have hle : (dictFrom 1 (sortKeysList vs)).Pairwise fun a b => keyLe a b = true := by
    rw [← insertionSort_of_keyLt (pairwise_dictFrom hlen')]
    exact List.pairwise_insertionSort _ _
  rw [sortKeys, dict, List.Perm.eq_of_pairwise (fun a b ha hb => dictFrom_antisymm hlen' (hperm.mem_iff.1 ha) hb)
    (List.pairwise_insertionSort _ _) hle hperm]

theorem itemsPairs_eq_sum (m : List (Value × Value)) : itemsPairs m = (m.map fun p => items p.1 + items p.2).sum := by
  induction m with
  | nil => rfl
  | cons p m ih =>
    rw [itemsPairs, ih, List.map_cons, List.sum_cons]
    omega

theorem depthPairs_le_iff {m : List (Value × Value)} {d : ℕ} :
    depthPairs m ≤ d ↔ ∀ p ∈ m, depth p.1 ≤ d ∧ depth p.2 ≤ d := by
  induction m with
  | nil => simp [depthPairs]
  | cons p m ih => simp [depthPairs, ih, and_assoc]

theorem depthPairs_perm {m n : List (Value × Value)} (h : m.Perm n) : depthPairs m = depthPairs n := by
  refine le_antisymm (depthPairs_le_iff.2 fun p hp => ?_) (depthPairs_le_iff.2 fun p hp => ?_)
  · exact depthPairs_le_iff.1 le_rfl p (h.mem_iff.1 hp)
  · exact depthPairs_le_iff.1 le_rfl p (h.mem_iff.2 hp)

mutual

theorem measures_sortKeys : ∀ v : Value, items (sortKeys v) = items v ∧ depth (sortKeys v) = depth v
  | .int _ => ⟨rfl, rfl⟩
  | .bytes _ => ⟨rfl, rfl⟩
  | .text _ => ⟨rfl, rfl⟩
  | .null => ⟨rfl, rfl⟩
  | .bool _ => ⟨rfl, rfl⟩
  | .num _ => ⟨rfl, rfl⟩
  | .other _ => ⟨rfl, rfl⟩
  | .array xs => by
    obtain ⟨hi, hd⟩ := measuresList_sortKeys xs
    simp only [sortKeys, items, depth, hi, hd, and_self]
  | .map m => by
    obtain ⟨hi, hd⟩ := measuresPairs_sortKeys m
    have hperm := List.perm_insertionSort (fun a b => keyLe a b = true) (sortKeysPairs m)
    simp only [sortKeys, items, depth, itemsPairs_eq_sum, (hperm.map _).sum_eq, depthPairs_perm hperm, hd] at hi ⊢
    exact ⟨by rw [hi], trivial⟩

theorem measuresList_sortKeys : ∀ xs : List Value,
    itemsList (sortKeysList xs) = itemsList xs ∧ depthList (sortKeysList xs) = depthList xs
  | [] => ⟨rfl, rfl⟩
  | x :: xs => by
    obtain ⟨hi, hd⟩ := measures_sortKeys x
    obtain ⟨his, hds⟩ := measuresList_sortKeys xs
    simp only [sortKeysList, itemsList, depthList, hi, hd, his, hds, and_self]

theorem measuresPairs_sortKeys : ∀ m : List (Value × Value),
    itemsPairs (sortKeysPairs m) = itemsPairs m ∧ depthPairs (sortKeysPairs m) = depthPairs m
  | [] => ⟨rfl, rfl⟩
  | (k, v) :: m => by
    obtain ⟨hik, hdk⟩ := measures_sortKeys k
    obtain ⟨hiv, hdv⟩ := measures_sortKeys v
    obtain ⟨him, hdm⟩ := measuresPairs_sortKeys m
    simp only [sortKeysPairs, itemsPairs, depthPairs, hik, hdk, hiv, hdv, him, hdm, and_self]

end

/-! ### What is written: plain values in order -/

theorem plainList_iff {vs : List Value} : plainList vs = true ↔ ∀ v ∈ vs, plain v = true := by
  induction vs with
  | nil => simp [plainList]
  | cons v vs ih => simp [plainList, ih]

theorem canonicalList_iff {vs : List Value} : canonicalList vs = true ↔ ∀ v ∈ vs, canonical v = true := by
  induction vs with
  | nil => simp [canonicalList]
  | cons v vs ih => simp [canonicalList, ih]

theorem sortKeysList_eq_self {vs : List Value} (h : ∀ v ∈ vs, sortKeys v = v) : sortKeysList vs = vs := by
  induction vs with
  | nil => rfl
  | cons v vs ih =>
    rw [sortKeysList, h v (by simp), ih fun v hv => h v (by simp [hv])]

theorem depthList_le {vs : List Value} {d : ℕ} (h : ∀ v ∈ vs, depth v ≤ d) : depthList vs ≤ d := by
  induction vs with
  | nil => simp [depthList]
  | cons v vs ih => simpa [depthList] using ⟨h v (by simp), ih fun w hw => h w (by simp [hw])⟩

theorem depthPairs_dictFrom_le {k d : ℕ} {vs : List Value} (hk : k + vs.length ≤ 24) (hd : 1 ≤ d)
    (h : ∀ v ∈ vs, depth v ≤ d) : depthPairs (dictFrom k vs) ≤ d := by
  induction vs generalizing k with
  | nil => simp [dictFrom, depthPairs]
  | cons v vs ih =>
    simp only [List.length_cons] at hk
    have hkey : depth (.int k) = 1 := by
      have : magnitude (k : ℤ) < 2 ^ 64 := show k < 2 ^ 64 by omega
      simp only [depth, if_pos this]
    have hrest := ih (k := k + 1) (by omega) fun w hw => h w (by simp [hw])
    simpa [dictFrom, depthPairs, hkey] using ⟨hd, h v (by simp), hrest⟩

/-- Integers, byte strings, text and null in arrays and maps, the maps in order, nested at most `d` deep. -/
structure Tidy (d : ℕ) (v : Value) : Prop where
  plain : Cbor.plain v = true
  sorted : sortKeys v = v
  depth : Cbor.depth v ≤ d

namespace Tidy

variable {d : ℕ}

theorem int (n : ℤ) : Tidy 2 (.int n) := ⟨rfl, rfl, by simp only [Cbor.depth]; split_ifs <;> omega⟩

theorem bytes (b : Bytes) : Tidy 1 (.bytes b) := ⟨rfl, rfl, le_rfl⟩

theorem text (s : Str) : Tidy 1 (.text s) := ⟨rfl, rfl, le_rfl⟩

theorem null : Tidy 1 .null := ⟨rfl, rfl, le_rfl⟩

theorem mono {e : ℕ} {v : Value} (h : Tidy d v) (hde : d ≤ e) : Tidy e v := ⟨h.plain, h.sorted, h.depth.trans hde⟩

theorem array {vs : List Value} (h : ∀ v ∈ vs, Tidy d v) : Tidy (d + 1) (.array vs) where
  plain := plainList_iff.2 fun v hv => (h v hv).plain
  sorted := by rw [sortKeys, sortKeysList_eq_self fun v hv => (h v hv).sorted]
  depth := by
    have := depthList_le fun v hv => (h v hv).depth
    simp only [Cbor.depth]
    omega

theorem dict {vs : List Value} (hlen : vs.length < 24) (hd : 1 ≤ d) (h : ∀ v ∈ vs, Tidy d v) :
    Tidy (d + 1) (Cbor.dict vs) where
  plain := by rw [plain_dict, plainList_iff]; exact fun v hv => (h v hv).plain
  sorted := sortKeys_dict hlen (sortKeysList_eq_self fun v hv => (h v hv).sorted)
  depth := by
    have := depthPairs_dictFrom_le (k := 1) (by omega) hd fun v hv => (h v hv).depth
    simp only [Cbor.dict, Cbor.depth]
    omega

end Tidy

/-! ### What is read as it will be written -/

/-- A plain value that sorting turns into `w`. -/
structure WrittenAs (v w : Value) : Prop where
  plain : Cbor.plain v = true
  sorted : sortKeys v = w

theorem Tidy.writtenAs {d : ℕ} {v : Value} (h : Tidy d v) : WrittenAs v v := ⟨h.plain, h.sorted⟩

namespace WrittenAs

theorem list {vs ws : List Value} (h : List.Forall₂ WrittenAs vs ws) : plainList vs = true ∧ sortKeysList vs = ws := by
  induction h with
  | nil => exact ⟨rfl, rfl⟩
  | cons h _ ih => exact ⟨by rw [plainList, h.plain, ih.1, Bool.and_self], by rw [sortKeysList, h.sorted, ih.2]⟩

theorem array {vs ws : List Value} (h : List.Forall₂ WrittenAs vs ws) : WrittenAs (.array vs) (.array ws) :=
  ⟨(list h).1, by rw [sortKeys, (list h).2]⟩

theorem dict {m : List (Value × Value)} {vs ws : List Value} (hlen : vs.length < 24) (hm : m.Perm (dictFrom 1 vs))
    (h : List.Forall₂ WrittenAs vs ws) : WrittenAs (.map m) (Cbor.dict ws) where
  plain := by
    refine plainPairs_iff.2 fun p hp => ?_
    exact plainPairs_iff.1 ((plainPairs_dictFrom 1 vs).trans (list h).1) p (hm.mem_iff.1 hp)
  sorted := by rw [sortKeys_of_perm hlen hm, (list h).2]

theorem depth_eq {v w : Value} (h : WrittenAs v w) : depth v = depth w := by
  rw [← h.sorted, (measures_sortKeys v).2]

end WrittenAs

end DecentWallet.Cbor
