import DecentWallet.Sanity.KotlinCbor

/-! The Android codec and its inverse: what is written within the limits of the decoder is read back, and what is read
was written in one way only. A map is read back with its entries in canonical order, which is the same map. -/

namespace DecentWallet.Kotlin

open Cbor

/-! ### Equal values -/

mutual

/-- `equals`. Two maps are equal when they have as many entries, and each key of the one has an equal value in the
other. -/
def Same : Value → Value → Prop
  | .array xs, w => ∃ ys, w = .array ys ∧ SameList xs ys
  | .map m, w => ∃ n, w = .map n ∧ m.length = n.length ∧ SameEntries n m
  | v, w => v = w

def SameList : List Value → List Value → Prop
  | [], ys => ys = []
  | x :: xs, ys => ∃ z zs, ys = z :: zs ∧ Same x z ∧ SameList xs zs

def SameEntries (n : List (Value × Value)) : List (Value × Value) → Prop
  | [] => True
  | (k, v) :: m => (∃ w, (k, w) ∈ n ∧ Same v w) ∧ SameEntries n m

end

mutual

/-- The canonical order of the entries is a matter of the encoding only. -/
theorem same_sortKeys : ∀ v : Value, intKeyed v = true → Same v (sortKeys v)
  | .int _, _ => rfl
  | .bytes _, _ => rfl
  | .text _, _ => rfl
  | .null, _ => rfl
  | .bool _, _ => rfl
  | .num _, _ => rfl
  | .other _, _ => rfl
  | .array xs, h => ⟨_, rfl, sameList_sortKeys xs h⟩
  | .map m, h => by
    refine ⟨_, rfl, ?_, sameEntries_sortKeys m _ h fun p hp => ?_⟩
    · rw [List.length_insertionSort, sortKeysPairs_length]
    · exact (List.mem_insertionSort _).2 hp

theorem sameList_sortKeys : ∀ xs : List Value, intKeyedList xs = true → SameList xs (sortKeysList xs)
  | [], _ => rfl
  | x :: xs, h => by
    simp only [intKeyedList, Bool.and_eq_true] at h
    exact ⟨_, _, rfl, same_sortKeys x h.1, sameList_sortKeys xs h.2⟩

theorem sameEntries_sortKeys : ∀ m n : List (Value × Value), intKeyedPairs m = true → (∀ p ∈ sortKeysPairs m, p ∈ n) →
    SameEntries n m
  | [], _, _, _ => trivial
  | (k, v) :: m, n, h, hn => by
    simp only [intKeyedPairs, Bool.and_eq_true] at h
    obtain ⟨i, rfl⟩ : ∃ i, k = .int i := by
      cases k <;> simp at h ⊢
    simp only [sortKeysPairs, List.mem_cons, forall_eq_or_imp] at hn
    exact ⟨⟨_, hn.1, same_sortKeys v h.1.2⟩, sameEntries_sortKeys m n h.2 hn.2⟩

end

theorem keyLt_irrefl (p : Value × Value) : keyLt p p = false := by simp [keyLt, shortLex_irrefl]

theorem nodup_of_keyLt {m : List (Value × Value)} (h : m.Pairwise fun a b => keyLt a b = true) : m.Nodup := by
  refine h.imp fun {a b} hab heq => ?_
  subst heq
  simp [keyLt_irrefl] at hab

/-- Two lists with the same entries, both in canonical order. -/
theorem eq_of_keyLt {m n : List (Value × Value)} (hm : m.Pairwise fun a b => keyLt a b = true)
    (hn : n.Pairwise fun a b => keyLt a b = true) (hlen : m.length = n.length) (hsub : m ⊆ n) : m = n := by
  have hperm : m.Perm n := (List.subperm_of_subset (nodup_of_keyLt hm) hsub).perm_of_length_le (by omega)
  refine List.Perm.eq_of_pairwise (fun a b _ _ hab hba => ?_) hm hn hperm
  have := shortLex_trans hab hba
  simp [shortLex_irrefl] at this

mutual

/-- Equal values have one canonical form. -/
theorem eq_of_same : ∀ v w : Value, canonical v = true → canonical w = true → Same v w → v = w
  | .int _, _, _, _, h => h
  | .bytes _, _, _, _, h => h
  | .text _, _, _, _, h => h
  | .null, _, _, _, h => h
  | .bool _, _, _, _, h => h
  | .num _, _, _, _, h => h
  | .other _, _, _, _, h => h
  | .array xs, w, hv, hw, h => by
    obtain ⟨ys, rfl, hys⟩ := h
    simp only [canonical, Bool.and_eq_true] at hv hw
    rw [eq_of_sameList xs ys hv.2 hw.2 hys]
  | .map m, w, hv, hw, h => by
    obtain ⟨n, rfl, hlen, hentries⟩ := h
    simp only [canonical, Bool.and_eq_true, decide_eq_true_eq] at hv hw
    have hsub := subset_of_sameEntries n m hv.1.2 hw.1.2 hentries
    rw [eq_of_keyLt hv.2 hw.2 hlen hsub]

theorem eq_of_sameList : ∀ xs ys : List Value, canonicalList xs = true → canonicalList ys = true → SameList xs ys →
    xs = ys
  | [], _, _, _, h => h.symm
  | x :: xs, ys, hx, hy, h => by
    obtain ⟨z, zs, rfl, hz, hzs⟩ := h
    simp only [canonicalList, Bool.and_eq_true] at hx hy
    rw [eq_of_same x z hx.1 hy.1 hz, eq_of_sameList xs zs hx.2 hy.2 hzs]

theorem subset_of_sameEntries : ∀ n m : List (Value × Value), canonicalPairs m = true → canonicalPairs n = true →
    SameEntries n m → m ⊆ n
  | _, [], _, _, _ => List.nil_subset _
  | n, (k, v) :: m, hm, hn, h => by
    obtain ⟨⟨w, hmem, hw⟩, hrest⟩ := h
    simp only [canonicalPairs, Bool.and_eq_true] at hm
    refine List.cons_subset.2 ⟨?_, subset_of_sameEntries n m hm.2 hn hrest⟩
    rwa [eq_of_same v w hm.1.2 (canonicalPairs_iff.1 hn _ hmem).2 hw]

end

/-! ### What can be written -/

theorem intKeyedPairs_iff {m : List (Value × Value)} :
    intKeyedPairs m = true ↔ ∀ p ∈ m, (∃ n, p.1 = .int n) ∧ intKeyed p.2 = true := by
  induction m with
  | nil => simp [intKeyedPairs]
  | cons p m ih =>
    obtain ⟨k, v⟩ := p
    cases k <;> simp [intKeyedPairs, ih]

mutual

/-- Only maps with integer keys are written. -/
theorem intKeyed_of_writeValue : ∀ (v : Value) (d : ℕ) (b : Bytes), writeValue v d = .ok b →
    intKeyed v = true ∧ intKeyed (sortKeys v) = true
  | .int _, _, _, _ => ⟨rfl, rfl⟩
  | .bytes _, _, _, _ => ⟨rfl, rfl⟩
  | .text _, _, _, _ => ⟨rfl, rfl⟩
  | .null, _, _, _ => ⟨rfl, rfl⟩
  | .bool _, _, _, _ => ⟨rfl, rfl⟩
  | .num _, _, _, _ => ⟨rfl, rfl⟩
  | .other _, _, _, _ => ⟨rfl, rfl⟩
  | .array xs, d, b, h => by
    simp only [writeValue, bind_eq_ok] at h
    obtain ⟨-, -, -, -, e, he, -⟩ := h
    exact intKeyedList_of_writeList xs (d + 1) e he
  | .map m, d, b, h => by
    simp only [writeValue, bind_eq_ok] at h
    obtain ⟨-, -, -, -, es, hes, -⟩ := h
    obtain ⟨hm, hsorted⟩ := intKeyedPairs_of_writeEntries m (d + 1) es hes
    refine ⟨hm, intKeyedPairs_iff.2 fun p hp => ?_⟩
    exact intKeyedPairs_iff.1 hsorted p ((List.mem_insertionSort _).1 hp)

theorem intKeyedList_of_writeList : ∀ (vs : List Value) (d : ℕ) (b : Bytes), writeList vs d = .ok b →
    intKeyedList vs = true ∧ intKeyedList (sortKeysList vs) = true
  | [], _, _, _ => ⟨rfl, rfl⟩
  | v :: vs, d, b, h => by
    simp only [writeList, bind_eq_ok] at h
    obtain ⟨e, he, es, hes, -⟩ := h
    obtain ⟨hv, hv'⟩ := intKeyed_of_writeValue v d e he
    obtain ⟨hvs, hvs'⟩ := intKeyedList_of_writeList vs d es hes
    simp only [intKeyedList, sortKeysList, hv, hv', hvs, hvs', Bool.and_self, and_self]

theorem intKeyedPairs_of_writeEntries : ∀ (m : List (Value × Value)) (d : ℕ) (es : List (Bytes × Bytes)),
    writeEntries m d = .ok es → intKeyedPairs m = true ∧ intKeyedPairs (sortKeysPairs m) = true
  | [], _, _, _ => ⟨rfl, rfl⟩
  | (k, v) :: m, d, es, h => by
    simp only [writeEntries, bind_eq_ok] at h
    obtain ⟨kb, hk, e, he, es', hes, -⟩ := h
    obtain ⟨n, rfl, -, -⟩ := encodeKey_ok hk
    obtain ⟨hv, hv'⟩ := intKeyed_of_writeValue v d e he
    obtain ⟨hm, hm'⟩ := intKeyedPairs_of_writeEntries m d es' hes
    simp only [intKeyedPairs, sortKeysPairs, sortKeys, hv, hv', hm, hm', Bool.and_self, and_self]

end

/-- What `encodeCanonical` writes within the limits of the decoder is read back. -/
theorem decode_encodeCanonical {v : Value} {b : Bytes} (h : encodeCanonical v = .ok b) (hi : items v ≤ maxItems)
    (hd : depth v ≤ maxDepth + 1) : decodeCanonical b = .ok (sortKeys v) ∧ Same v (sortKeys v) := by
  obtain ⟨hwrite, hl⟩ := encodeCanonical_ok.1 h
  have hlt : b.length < 2 ^ 64 := by
    simp only [maxEncodedBytes] at hl
    omega
  obtain ⟨hcanonical, rfl⟩ := writeValue_canonical v 0 b hwrite hlt
  obtain ⟨hkeyed, hkeyed'⟩ := intKeyed_of_writeValue v 0 _ hwrite
  obtain ⟨hitems, hdepth⟩ := measures_sortKeys v
  exact ⟨decodeCanonical_complete hcanonical hkeyed' hl (by omega) (by omega), same_sortKeys v hkeyed⟩

/-- The codec and its inverse, and the one exception of the decoder. -/
theorem canonical_codec :
    (∀ v b, encodeCanonical v = .ok b → items v ≤ 10000 → depth v ≤ 33 → ∃ w, decodeCanonical b = .ok w ∧ Same v w) ∧
    (∀ b v, decodeCanonical b = .ok v → encodeCanonical v = .ok b) ∧
    (∀ b b' v v', decodeCanonical b = .ok v → decodeCanonical b' = .ok v' → Same v v' → b = b') ∧
    ∀ b, (∃ v, decodeCanonical b = .ok v) ∨ decodeCanonical b = .error .invalidIdentityState := by
  refine ⟨fun v b h hi hd => ⟨_, decode_encodeCanonical h hi hd⟩, fun b v h => (decodeCanonical_ok.1 h).2.2,
    fun b b' v v' h h' hsame => ?_, fun b => ?_⟩
  · obtain ⟨hv, rfl, -⟩ := decodeCanonical_sound h
    obtain ⟨hv', rfl, -⟩ := decodeCanonical_sound h'
    rw [eq_of_same v v' hv hv' hsame]
  · cases h : decodeCanonical b with
    | ok v => exact .inl ⟨v, rfl⟩
    | error e => exact .inr (by rw [decodeCanonical_fails b e h])

/-- Entries are written in the order of their keys. -/
example : encodeCanonical (.map [(.int 10, .bool true), (.int (-1), .array [.null])]) =
    .ok [0xa2, 0x0a, 0xf5, 0x20, 0x81, 0xf6] := by decide

end DecentWallet.Kotlin
