import DecentWallet.Lib.CborDict
import DecentWallet.Spec.KotlinCbor

/-! The Android codec decodes canonical encodings only, and every one within its limits. -/

namespace DecentWallet.Kotlin

open Cbor WalletError

/-! ### Exceptions -/

section

variable {α : Type} {x : Parse α}

@[simp] theorem orInvalid_ok {a : α} : orInvalid x = .ok a ↔ x = .ok a := by
  cases x <;> simp [orInvalid, Except.mapError]

@[simp] theorem rethrowInvalid_ok {a : α} : rethrowInvalid x = .ok a ↔ x = .ok a := by
  cases x <;> simp [rethrowInvalid, Except.mapError]

def OnlyInvalid (e : WalletError) : Prop := e = invalidIdentityState

theorem onlyInvalid : OnlyInvalid invalidIdentityState := rfl

/-- Whatever was thrown inside, `WalletInvalidIdentityStateException` is thrown. -/
theorem rethrowInvalid_fails : Fails OnlyInvalid (rethrowInvalid x) := by
  intro e h
  cases x with
  | ok a => simp [rethrowInvalid, Except.mapError] at h
  | error failure =>
    simp only [rethrowInvalid, Except.mapError, Except.error.injEq] at h
    split_ifs at h with hf
    · exact h.symm.trans hf
    · exact h.symm

theorem encodeCanonical_fails (v : Value) : Fails OnlyInvalid (encodeCanonical v) := rethrowInvalid_fails

theorem decodeCanonical_fails (b : Bytes) : Fails OnlyInvalid (decodeCanonical b) :=
  Fails.bind (Fails.reject onlyInvalid _) fun _ => rethrowInvalid_fails

theorem encodeUtf8_ok {s : Str} {b : Bytes} : encodeUtf8 s = .ok b ↔ utf8 s = some b := by simp [encodeUtf8]

end

/-! ### What is written is canonical -/

theorem isChain_of_not_hasDuplicate {m : List (Value × Value)}
    (hd : hasDuplicate (m.map fun p => (encode p.1, encode p.2)) = false)
    (hs : m.Pairwise fun a b => keyLe a b = true) : m.IsChain fun a b => keyLt a b = true := by
  induction m with
  | nil => simp
  | cons a m ih =>
    cases m with
    | nil => simp
    | cons b m =>
      simp only [List.map_cons, hasDuplicate, Bool.or_eq_false_iff] at hd
      rw [List.pairwise_cons] at hs
      refine List.IsChain.cons_cons ?_ (ih (by simpa using hd.2) hs.2)
      have hle := hs.1 b (by simp)
      have hne : encode a.1 ≠ encode b.1 := by simpa using hd.1
      rcases shortLex_connex hne with h | h
      · exact h
      · simp [keyLe, h] at hle

theorem pairwise_keyLt {m : List (Value × Value)} (h : m.IsChain fun a b => keyLt a b = true) :
    m.Pairwise fun a b => keyLt a b = true := by
  have : IsTrans (Value × Value) fun a b => keyLt a b = true := ⟨fun a b c => shortLex_trans⟩
  exact List.isChain_iff_pairwise.1 h

theorem encodePairs_eq_flatMap (m : List (Value × Value)) :
    encodePairs m = (m.map fun p => (encode p.1, encode p.2)).flatMap fun e => e.1 ++ e.2 := by
  induction m with
  | nil => rfl
  | cons p m ih => obtain ⟨k, v⟩ := p; simp [encodePairs, ih]

theorem canonicalPairs_iff {m : List (Value × Value)} :
    canonicalPairs m = true ↔ ∀ p ∈ m, canonical p.1 = true ∧ canonical p.2 = true := by
  induction m with
  | nil => simp [canonicalPairs]
  | cons p m ih => obtain ⟨k, v⟩ := p; simp [canonicalPairs, ih]

theorem encodeKey_ok {k : Value} {b : Bytes} (h : encodeKey k = .ok b) :
    ∃ n, k = .int n ∧ b = encodeInt n ∧ b.length ≤ maxEncodedBytes := by
  cases k with
  | int n =>
    simp only [encodeKey, bind_eq_ok, reject_eq_ok, pure_eq_ok, not_lt] at h
    obtain ⟨-, hl, rfl⟩ := h
    exact ⟨n, rfl, rfl, hl⟩
  | _ => simp [encodeKey] at h

theorem beWidth_lt_length (n : ℤ) (h : ¬magnitude n < 2 ^ 64) : beWidth (magnitude n) < (encodeInt n).length := by
  simp only [encodeInt, if_neg h, List.length_cons, List.length_append, minBE_length]
  omega

theorem canonical_int {n : ℤ} (h : (encodeInt n).length < 2 ^ 64) : canonical (.int n) = true := by
  simp only [canonical, Bool.or_eq_true, decide_eq_true_eq]
  by_cases hn : magnitude n < 2 ^ 64
  · exact Or.inl hn
  · have := beWidth_lt_length n hn; exact Or.inr (by omega)

theorem sortKeysPairs_length (m : List (Value × Value)) : (sortKeysPairs m).length = m.length := by
  induction m with
  | nil => rfl
  | cons p m ih => obtain ⟨k, v⟩ := p; simp [sortKeysPairs, ih]

/-- The sorted and checked entries of a map are its canonical form. -/
theorem sorted_entries {m : List (Value × Value)}
    (hd : hasDuplicate ((m.map fun p => (encode p.1, encode p.2)).insertionSort fun a b =>
      canonicalLe a.1 b.1 = true) = false) :
    ((m.map fun p => (encode p.1, encode p.2)).insertionSort fun a b => canonicalLe a.1 b.1 = true) =
        (m.insertionSort fun a b => keyLe a b = true).map (fun p => (encode p.1, encode p.2)) ∧
      (m.insertionSort fun a b => keyLe a b = true).Pairwise fun a b => keyLt a b = true := by
  have hmap : (m.insertionSort fun a b => keyLe a b = true).map (fun p => (encode p.1, encode p.2)) =
      (m.map fun p => (encode p.1, encode p.2)).insertionSort fun a b => canonicalLe a.1 b.1 = true :=
    List.map_insertionSort _ _ _ _ fun a _ b _ => Iff.rfl
  have := keyLe_trans
  have := keyLe_total
  refine ⟨hmap.symm, pairwise_keyLt (isChain_of_not_hasDuplicate (hmap ▸ hd) ?_)⟩
  exact List.pairwise_insertionSort _ _

mutual

theorem writeValue_canonical : ∀ (v : Value) (d : ℕ) (b : Bytes), writeValue v d = .ok b → b.length < 2 ^ 64 →
    canonical (sortKeys v) = true ∧ b = encode (sortKeys v)
  | .null, d, b, h, _ => by
    simp only [writeValue, bind_eq_ok, pure_eq_ok] at h
    obtain ⟨-, -, rfl⟩ := h
    exact ⟨rfl, rfl⟩
  | .bool x, d, b, h, _ => by
    simp only [writeValue, bind_eq_ok, pure_eq_ok] at h
    obtain ⟨-, -, rfl⟩ := h
    exact ⟨rfl, rfl⟩
  | .bytes x, d, b, h, hb => by
    simp only [writeValue, bind_eq_ok, pure_eq_ok] at h
    obtain ⟨-, -, rfl⟩ := h
    simp only [List.length_append] at hb
    simp only [sortKeys, canonical, encode, decide_eq_true_eq, and_true]
    omega
  | .text x, d, b, h, hb => by
    simp only [writeValue, bind_eq_ok, pure_eq_ok] at h
    obtain ⟨-, -, e, he, rfl⟩ := h
    obtain ⟨hs, rfl⟩ := utf8_eq_some.1 (encodeUtf8_ok.1 he)
    simp only [List.length_append] at hb
    simp only [sortKeys, canonical, encode, Bool.and_eq_true, decide_eq_true_eq, and_true]
    exact ⟨hs, by omega⟩
  | .int n, d, b, h, hb => by
    simp only [writeValue, bind_eq_ok, pure_eq_ok] at h
    obtain ⟨-, -, rfl⟩ := h
    exact ⟨canonical_int hb, rfl⟩
  | .array xs, d, b, h, hb => by
    simp only [writeValue, bind_eq_ok, pure_eq_ok, reject_eq_ok] at h
    obtain ⟨-, -, -, hc, e, he, rfl⟩ := h
    have hlen := List.length_append ▸ hb
    obtain ⟨hcan, rfl, hl⟩ := writeList_canonical xs (d + 1) e he (by omega)
    have hx : xs.length < 2 ^ 64 := by simp only [maxItems] at hc; omega
    exact ⟨by simp only [sortKeys, canonical, hcan, hl, hx, decide_true, Bool.and_self],
      by simp only [sortKeys, encode, hl]⟩
  | .map m, d, b, h, hb => by
    simp only [writeValue, bind_eq_ok, pure_eq_ok, reject_eq_ok] at h
    obtain ⟨-, -, -, hc, es, hes, -, hd, rfl⟩ := h
    have hbody : ∀ e ∈ es, e.1.length < 2 ^ 64 ∧ e.2.length < 2 ^ 64 := by
      intro e he
      have hmem : e ∈ es.insertionSort fun a b => canonicalLe a.1 b.1 = true := by simpa using he
      have hle :=
        List.Sublist.length_le (List.sublist_flatten_of_mem (List.mem_map_of_mem (f := fun e => e.1 ++ e.2) hmem))
      rw [List.length_append] at hb hle
      rw [List.flatMap_def] at hb
      omega
    obtain ⟨hcan, rfl⟩ := writeEntries_canonical m (d + 1) es hes hbody
    obtain ⟨hsort, hpair⟩ := sorted_entries (by simpa using hd)
    have hlen : ((sortKeysPairs m).insertionSort fun a b => keyLe a b = true).length = m.length := by
      rw [List.length_insertionSort, sortKeysPairs_length]
    have hm : m.length < 2 ^ 64 := by simp only [maxItems] at hc; omega
    rw [hsort, List.length_map, hlen, ← encodePairs_eq_flatMap]
    refine ⟨?_, by simp only [sortKeys, encode, hlen]⟩
    simp only [sortKeys, canonical, hlen, Bool.and_eq_true, decide_eq_true_eq]
    refine ⟨⟨hm, canonicalPairs_iff.2 fun p hp => canonicalPairs_iff.1 hcan p ?_⟩, hpair⟩
    simpa using hp
  | .num _, d, b, h, _ => by simp [writeValue] at h
  | .other _, d, b, h, _ => by simp [writeValue] at h

theorem writeList_canonical : ∀ (vs : List Value) (d : ℕ) (b : Bytes), writeList vs d = .ok b →
    b.length < 2 ^ 64 → canonicalList (sortKeysList vs) = true ∧ b = encodeList (sortKeysList vs) ∧
      (sortKeysList vs).length = vs.length
  | [], d, b, h, _ => by cases h; exact ⟨rfl, rfl, rfl⟩
  | v :: vs, d, b, h, hb => by
    simp only [writeList, bind_eq_ok, pure_eq_ok] at h
    obtain ⟨e, he, es, hes, rfl⟩ := h
    rw [List.length_append] at hb
    obtain ⟨hv, rfl⟩ := writeValue_canonical v d e he (by omega)
    obtain ⟨hvs, rfl, hl⟩ := writeList_canonical vs d es hes (by omega)
    simp [sortKeysList, canonicalList, encodeList, hv, hvs, hl]

theorem writeEntries_canonical : ∀ (m : List (Value × Value)) (d : ℕ) (es : List (Bytes × Bytes)),
    writeEntries m d = .ok es → (∀ e ∈ es, e.1.length < 2 ^ 64 ∧ e.2.length < 2 ^ 64) →
    canonicalPairs (sortKeysPairs m) = true ∧ es = (sortKeysPairs m).map fun p => (encode p.1, encode p.2)
  | [], d, es, h, _ => by cases h; exact ⟨rfl, rfl⟩
  | (k, v) :: m, d, es, h, hb => by
    simp only [writeEntries, bind_eq_ok, pure_eq_ok] at h
    obtain ⟨kb, hk, e, he, es, hes, rfl⟩ := h
    obtain ⟨n, rfl, rfl, hn⟩ := encodeKey_ok hk
    obtain ⟨hv, rfl⟩ := writeValue_canonical v d e he (hb (encodeInt n, e) (by simp)).2
    obtain ⟨hm, rfl⟩ := writeEntries_canonical m d es hes fun e he => hb e (by simp [he])
    have hn := canonical_int (hb _ (List.mem_cons_self ..)).1
    simp [sortKeysPairs, sortKeys, canonicalPairs, encode, hn, hv, hm]

end

theorem encodeCanonical_ok {v : Value} {b : Bytes} :
    encodeCanonical v = .ok b ↔ writeValue v 0 = .ok b ∧ b.length ≤ maxEncodedBytes := by
  simp only [encodeCanonical, rethrowInvalid_ok, bind_eq_ok, reject_eq_ok, pure_eq_ok, not_lt]
  constructor
  · rintro ⟨_, hw, -, hl, rfl⟩
    exact ⟨hw, hl⟩
  · rintro ⟨hw, hl⟩
    exact ⟨b, hw, (), hl, rfl⟩

/-! ### The decoder reads as the reader of the format does -/

/-- The decoder's limits: big-integer keys only, none of them twice. -/
def limits : Limits where
  items := maxItems
  length := maxEncodedBytes
  bools := true
  keyOk := fun acc k => match k with
    | .int n => !acc.any fun p => isKey n p.1
    | _ => false

namespace Decoder

section

variable {bytes : Bytes} {α β : Type}

/-- From any place in the input, `x` reads what `f` reads from there, and fails where it does. -/
def Follows (bytes : Bytes) (x : Reader α) (f : Cbor.Reader α) : Prop :=
  ∀ s : Decoder, s.offset ≤ bytes.length →
    (∀ a s', x s = (.ok a, s') → s'.offset ≤ bytes.length ∧
      f s.itemCount (bytes.drop s.offset) = some (a, s'.itemCount, bytes.drop s'.offset)) ∧
    ∀ e s', x s = (.error e, s') → f s.itemCount (bytes.drop s.offset) = none

/-- A reader that opens no item. -/
def level (f : Bytes → Option (α × Bytes)) : Cbor.Reader α := fun c b => (f b).map fun p => (p.1, c, p.2)

/-- One reader after the other. -/
def andThen (f : Cbor.Reader α) (g : α → Cbor.Reader β) : Cbor.Reader β := fun c b =>
  (f c b).bind fun p => g p.1 p.2.1 p.2.2

theorem Follows.bind {x : Reader α} {f : Cbor.Reader α} {y : α → Reader β} {g : α → Cbor.Reader β}
    (hx : Follows bytes x f) (hy : ∀ a, Follows bytes (y a) (g a)) : Follows bytes (x >>= y) (andThen f g) := by
  intro s hs
  obtain ⟨hok, herror⟩ := hx s hs
  refine ⟨fun b s' h => ?_, fun e s' h => ?_⟩
  · obtain ⟨a, s₁, hrun, hrest⟩ := Prog.bind_ok_iff.1 h
    obtain ⟨hs₁, hf⟩ := hok a s₁ hrun
    obtain ⟨hs', hg⟩ := (hy a s₁ hs₁).1 b s' hrest
    exact ⟨hs', by simp only [andThen, hf, Option.bind_some, hg]⟩
  · rcases Prog.bind_error_iff.1 h with hrun | ⟨a, s₁, hrun, hrest⟩
    · simp only [andThen, herror e s' hrun, Option.bind_none]
    · obtain ⟨hs₁, hf⟩ := hok a s₁ hrun
      simp only [andThen, hf, Option.bind_some, (hy a s₁ hs₁).2 e s' hrest]

theorem Follows.congr {x : Reader α} {f g : Cbor.Reader α} (hx : Follows bytes x f) (h : ∀ c b, f c b = g c b) :
    Follows bytes x g := by
  obtain rfl : f = g := funext fun c => funext fun b => h c b
  exact hx

theorem Follows.lift (r : Parse α) : Follows bytes (Prog.lift r) fun c b => r.toOption.map fun a => (a, c, b) := by
  refine fun s hs => ⟨fun a s' h => ?_, fun e s' h => ?_⟩
  · obtain ⟨rfl, rfl⟩ := Prog.lift_ok_iff.1 h
    exact ⟨hs, rfl⟩
  · obtain ⟨rfl, rfl⟩ := Prog.lift_error_iff.1 h
    rfl

theorem Follows.pure (a : α) : Follows bytes (pure a : Reader α) fun c b => some (a, c, b) :=
  Follows.lift (.ok a)

theorem Follows.reject (p : Prop) [Decidable p] (e : WalletError) :
    Follows bytes (Prog.reject p e : Reader Unit) fun c b => if p then none else some ((), c, b) :=
  (Follows.lift _).congr fun c b => by by_cases hp : p <;> simp [DecentWallet.reject, hp, Except.toOption]

theorem Follows.raise (e : WalletError) : Follows bytes (Prog.raise e : Reader α) fun _ _ => none :=
  Follows.lift (.error e)

theorem readBytes_follows (n : ℕ) : Follows bytes (readBytes bytes n) (level (takeBytes n)) := by
  intro s hs
  have hroom : (bytes.length : ℤ) - s.offset < n ↔ ¬n ≤ (bytes.drop s.offset).length := by
    rw [List.length_drop]
    omega
  by_cases hn : n ≤ (bytes.drop s.offset).length
  · have hcopy : copyOfRange bytes s.offset (s.offset + n) = .ok ((bytes.drop s.offset).take n) := by
      rw [List.length_drop] at hn
      simp only [copyOfRange, bind_eq_ok, reject_eq_ok, pure_eq_ok]
      exact ⟨(), by omega, by rw [Nat.add_sub_cancel_left]⟩
    have hrun : readBytes bytes n s = (.ok ((bytes.drop s.offset).take n), { s with offset := s.offset + n }) := by
      simp only [readBytes, Prog.bind_run, Prog.get_run, Prog.reject, Prog.lift_run, DecentWallet.reject, hroom,
        not_not.2 hn, if_false, hcopy, Prog.modify_run, Prog.pure_run]
    rw [hrun]
    refine ⟨fun a s' h => ?_, by simp⟩
    cases h
    rw [List.length_drop] at hn
    refine ⟨by simp only; omega, ?_⟩
    simp [level, takeBytes, hn, List.drop_drop]
  · have hrun : readBytes bytes n s = (.error invalidIdentityState, s) := by
      simp only [readBytes, Prog.bind_run, Prog.get_run, Prog.reject, Prog.lift_run, DecentWallet.reject, hroom, hn,
        not_false_eq_true, if_true]
    rw [hrun]
    exact ⟨by simp, fun _ _ _ => by simp only [level, takeBytes, if_neg hn, Option.map_none]⟩

theorem readUnsigned_follows (w : ℕ) : Follows bytes (readUnsigned bytes w) (level (readBE w)) :=
  ((readBytes_follows w).bind fun _ => .pure _).congr fun c b => by
    cases h : takeBytes w b <;> simp [andThen, level, readBE, h]

theorem readArgument_follows (a : ℕ) : Follows bytes (readArgument bytes a) (level (Cbor.readArgument a)) := by
  unfold readArgument
  split_ifs with h₁ h₂ h₃ h₄ h₅
  · exact (Follows.pure a).congr fun c b => by simp [level, Cbor.readArgument, h₁]
  · exact (readUnsigned_follows 1).congr fun c b => by simp [level, Cbor.readArgument, h₂]
  · exact (readUnsigned_follows 2).congr fun c b => by simp [level, Cbor.readArgument, h₃]
  · exact (readUnsigned_follows 4).congr fun c b => by simp [level, Cbor.readArgument, h₄]
  · exact (readUnsigned_follows 8).congr fun c b => by simp [level, Cbor.readArgument, h₅]
  · exact (Follows.raise _).congr fun c b => by simp [level, Cbor.readArgument, h₁, h₂, h₃, h₄, h₅]

theorem readLength_follows (a : ℕ) : Follows bytes (readLength bytes a) (level (Cbor.readLength limits a)) :=
  ((readArgument_follows a).bind fun n => (Follows.reject _ _).bind fun _ => .pure n).congr fun c b => by
    cases h : Cbor.readArgument a b with
    | none => simp [andThen, level, Cbor.readLength, h]
    | some p => by_cases hp : maxEncodedBytes < p.1 <;> simp [andThen, level, Cbor.readLength, limits, h, hp]

theorem readList_follows {x : Reader Value} {f : Cbor.Reader Value} (hx : Follows bytes x f) (n : ℕ) :
    Follows bytes (readList x n) (readMany f n) := by
  induction n with
  | zero => exact .pure []
  | succ n ih => exact (hx.bind fun v => ih.bind fun vs => .pure (v :: vs)).congr fun c b => rfl

theorem readEntries_follows {x : Reader Value} {f : Cbor.Reader Value} (hx : Follows bytes x f) (n : ℕ)
    (m : List (Value × Value)) : Follows bytes (readEntries x n m) (Cbor.readEntries limits f n m) := by
  induction n generalizing m with
  | zero => exact .pure m
  | succ n ih =>
    refine (hx.bind fun k => (Follows.lift _).bind fun i =>
      (Follows.reject (m.any (fun p => isKey i p.1) = true) _).bind fun _ => hx.bind fun v =>
        ih (m ++ [(.int i, v)])).congr fun c b => ?_
    cases h : f c b with
    | none => simp [andThen, Cbor.readEntries, h]
    | some p =>
      obtain ⟨k, c, b⟩ := p
      cases k with
      | int i => by_cases hi : m.any (fun p => isKey i p.1) = true <;>
          simp [andThen, Cbor.readEntries, limits, asBigInteger, Except.toOption, h, hi]
      | _ => simp [andThen, Cbor.readEntries, limits, asBigInteger, Except.toOption, h]

theorem readBigNumber_follows {x : Reader Value} {f : Cbor.Reader Value} (hx : Follows bytes x f) (a : ℕ) :
    Follows bytes (readBigNumber bytes x a) (andThen (level (Cbor.readArgument a)) fun tag => andThen f fun v c b =>
      (bigNumber tag v).map fun n => (n, c, b)) := by
  refine (readArgument_follows a).bind fun tag => ?_
  by_cases htag : tag ≠ 2 ∧ tag ≠ 3
  · -- the tag is refused before the magnitude is read
    refine ((Follows.reject _ _).bind fun _ => hx.bind fun v => (Follows.lift _).bind fun m => (Follows.reject _ _).bind
      fun _ => (Follows.reject _ _).bind fun _ => .pure _).congr fun c b => ?_
    have hnone : ∀ v, bigNumber tag v = none := fun v => by
      cases v <;> simp [bigNumber, htag.1, htag.2]
    cases h : f c b <;> simp [andThen, htag, h, hnone]
  · refine ((Follows.reject _ _).bind fun _ => hx.bind fun v => (Follows.lift _).bind fun m => (Follows.reject _ _).bind
      fun _ => (Follows.reject _ _).bind fun _ => .pure _).congr fun c b => ?_
    have htag' : tag = 2 ∨ tag = 3 := by omega
    cases h : f c b with
    | none => simp [andThen, h]
    | some p =>
      obtain ⟨v, c, b⟩ := p
      cases v with
      | bytes m =>
        by_cases hm : m = [] ∨ m.head? = some 0
        · rcases hm with hm | hm <;> simp [andThen, asByteArray, Except.toOption, bigNumber, htag, h, hm]
        · have hm' := not_or.1 hm
          by_cases hbig : 2 ^ 64 ≤ ofBE m
          · simp [andThen, asByteArray, Except.toOption, bigNumber, htag, htag', h, hm'.1, hm'.2,
              show ¬ofBE m ≤ 18446744073709551615 by omega, show 18446744073709551616 ≤ ofBE m by omega]
          · simp [andThen, asByteArray, Except.toOption, bigNumber, htag, h, hm,
              show ofBE m ≤ 18446744073709551615 by omega, show ¬18446744073709551616 ≤ ofBE m by omega]
      | _ => simp [andThen, asByteArray, Except.toOption, bigNumber, htag, h]

theorem readByte_ok {s : Decoder} {i : UInt8} {b : Bytes} (h : bytes.drop s.offset = i :: b) :
    readByte bytes s = (.ok i.toNat, { s with offset := s.offset + 1 }) ∧ s.offset < bytes.length ∧
      bytes.drop (s.offset + 1) = b := by
  have hlt : s.offset < bytes.length := by
    by_contra hge
    rw [List.drop_eq_nil_of_le (not_lt.1 hge)] at h
    cases h
  have hget : bytes[s.offset]? = some i := by rw [← List.head?_drop, h, List.head?_cons]
  refine ⟨?_, hlt, by rw [← List.tail_drop, h, List.tail_cons]⟩
  simp only [readByte, Prog.bind_run, Prog.get_run, Prog.reject, Prog.lift_run, DecentWallet.reject, not_le.2 hlt,
    if_false, hget, orRaise, Prog.modify_run, Prog.pure_run]

/-- What follows the initial byte `i` is read as the reader of the format reads it. -/
theorem readMajor_follows {left : ℕ} (ih : Follows bytes (readValue bytes left) (Cbor.readValue limits left))
    (i : UInt8) : ∃ f, Follows bytes (readMajor bytes (readValue bytes left) (i.toNat % 32) (i.toNat / 32)) f ∧
      ∀ c b, ¬maxItems < c + 1 → f (c + 1) b = Cbor.readValue limits (left + 1) c (i :: b) := by
  have hvalue : ∀ {c}, ¬maxItems < c + 1 → ¬limits.items < c + 1 := fun h => h
  have hmajor : i.toNat / 32 < 8 := by have := i.toNat_lt; omega
  set a := i.toNat % 32 with ha
  generalize hm : i.toNat / 32 = m at hmajor
  interval_cases m
  · refine ⟨_, (readArgument_follows a).bind fun n => .pure _, fun c b hc => ?_⟩
    rw [Cbor.readValue, if_neg (hvalue hc), hm]
    cases h : Cbor.readArgument a b <;> simp [andThen, level, h, ← ha]
  · refine ⟨_, (readArgument_follows a).bind fun n => .pure _, fun c b hc => ?_⟩
    rw [Cbor.readValue, if_neg (hvalue hc), hm]
    cases h : Cbor.readArgument a b <;> simp [andThen, level, h, ← ha]
  · refine ⟨_, (readLength_follows a).bind fun n => (readBytes_follows n).bind fun x => .pure _, fun c b hc => ?_⟩
    rw [Cbor.readValue, if_neg (hvalue hc), hm]
    cases h : Cbor.readLength limits a b with
    | none => simp [andThen, level, h, ← ha]
    | some p => cases h' : takeBytes p.1 p.2 <;> simp [andThen, level, h, h', ← ha]
  · refine ⟨_, (readLength_follows a).bind fun n => (readBytes_follows n).bind fun x => (Follows.lift _).bind fun s =>
      .pure _, fun c b hc => ?_⟩
    rw [Cbor.readValue, if_neg (hvalue hc), hm]
    cases h : Cbor.readLength limits a b with
    | none => simp [andThen, level, h, ← ha]
    | some p =>
      cases h' : takeBytes p.1 p.2 with
      | none => simp [andThen, level, h, h', ← ha]
      | some q => cases h'' : utf8Decode q.1 <;>
          simp [andThen, level, h, h', h'', ← ha, decodeText, orInvalid, orRaise, Except.mapError, Except.toOption]
  · refine ⟨_, (readLength_follows a).bind fun n => (readList_follows ih n).bind fun xs => .pure _, fun c b hc => ?_⟩
    rw [Cbor.readValue, if_neg (hvalue hc), hm]
    cases h : Cbor.readLength limits a b <;> simp [andThen, level, h, ← ha]
  · refine ⟨_, (readLength_follows a).bind fun n => (readEntries_follows ih n []).bind fun m => .pure _,
      fun c b hc => ?_⟩
    rw [Cbor.readValue, if_neg (hvalue hc), hm]
    cases h : Cbor.readLength limits a b <;> simp [andThen, level, h, ← ha]
  · refine ⟨_, (readBigNumber_follows ih a).bind fun n => .pure _, fun c b hc => ?_⟩
    rw [Cbor.readValue, if_neg (hvalue hc), hm]
    cases h : Cbor.readArgument a b with
    | none => simp [andThen, level, h, ← ha]
    | some p =>
      cases h' : Cbor.readValue limits left (c + 1) p.2 with
      | none => simp [andThen, level, h, h', ← ha]
      | some q => cases h'' : bigNumber p.1 q.1 <;> simp [andThen, level, h, h', h'', ← ha]
  · -- the three simple values
    refine ⟨fun c b => (simple limits a).map fun v => (v, c, b), ?_, fun c b hc => ?_⟩
    · unfold readMajor
      split_ifs with h₀ h₁ h₂
      · exact (Follows.pure _).congr fun c b => by simp [simple, limits, h₀]
      · exact (Follows.pure _).congr fun c b => by simp [simple, limits, h₁]
      · exact (Follows.pure _).congr fun c b => by simp [simple, limits, h₂]
      · exact (Follows.raise _).congr fun c b => by simp [simple, limits, h₀, h₁, h₂]
    · rw [Cbor.readValue, if_neg (hvalue hc), hm]
      rfl

theorem readValue_follows (left : ℕ) : Follows bytes (readValue bytes left) (Cbor.readValue limits left) := by
  induction left with
  | zero => exact Follows.raise _
  | succ left ih =>
    intro s hs
    by_cases hitems : maxItems < s.itemCount + 1
    · have hrun : readValue bytes (left + 1) s = (.error invalidIdentityState, ⟨s.offset, s.itemCount + 1⟩) := by
        simp only [readValue, Prog.bind_run, Prog.get_run, Prog.modify_run, Prog.reject, Prog.lift_run,
          DecentWallet.reject, hitems, if_true]
      rw [hrun]
      refine ⟨by simp, fun _ _ _ => ?_⟩
      cases bytes.drop s.offset with
      | nil => rfl
      | cons i b => simp only [Cbor.readValue, limits, hitems, if_true]
    · have hrun : readValue bytes (left + 1) s = (readByte bytes >>= fun initial =>
          readMajor bytes (readValue bytes left) (initial % 32) (initial / 32)) ⟨s.offset, s.itemCount + 1⟩ := by
        simp only [readValue, Prog.bind_run, Prog.get_run, Prog.modify_run, Prog.reject, Prog.lift_run,
          DecentWallet.reject, hitems, if_false]
      rw [hrun]
      cases hd : bytes.drop s.offset with
      | nil =>
        have hend : bytes.length ≤ s.offset := List.drop_eq_nil_iff.1 hd
        have hbyte : readByte bytes ⟨s.offset, s.itemCount + 1⟩ =
            (.error invalidIdentityState, ⟨s.offset, s.itemCount + 1⟩) := by
          simp only [readByte, Prog.bind_run, Prog.get_run, Prog.reject, Prog.lift_run, DecentWallet.reject, hend,
            if_true]
        rw [Prog.bind_run_error hbyte]
        exact ⟨by simp, fun _ _ _ => rfl⟩
      | cons i b =>
        obtain ⟨hbyte, hlt, hrest⟩ := readByte_ok (s := ⟨s.offset, s.itemCount + 1⟩) hd
        rw [Prog.bind_run_ok hbyte]
        obtain ⟨f, hf, heq⟩ := readMajor_follows ih i
        obtain ⟨hok, herror⟩ := hf ⟨s.offset + 1, s.itemCount + 1⟩ hlt
        simp only [hrest, heq s.itemCount b hitems] at hok herror
        exact ⟨hok, herror⟩

end

end Decoder

theorem decodeCanonical_ok {b : Bytes} {v : Value} : decodeCanonical b = .ok v ↔
    (b ≠ [] ∧ b.length ≤ maxEncodedBytes) ∧ (∃ c, readValue limits (maxDepth + 1) 0 b = some (v, c, [])) ∧
      encodeCanonical v = .ok b := by
  have hread := Decoder.readValue_follows (maxDepth + 1) ⟨0, 0⟩ (Nat.zero_le b.length)
  simp only [List.drop_zero] at hread
  have hdecode : (Decoder.decode b ⟨0, 0⟩).1 = .ok v ↔
      (∃ c, readValue limits (maxDepth + 1) 0 b = some (v, c, [])) ∧ encodeCanonical v = .ok b := by
    constructor
    · intro h
      obtain ⟨w, s, hrun, h⟩ := Prog.bind_ok_iff.1 (Prog.run_eq h)
      obtain ⟨_, _, hget, h⟩ := Prog.bind_ok_iff.1 h
      cases hget
      obtain ⟨_, _, hrejects, h⟩ := Prog.bind_ok_iff.1 h
      obtain ⟨hend, rfl⟩ := Prog.reject_ok_iff.1 hrejects
      obtain ⟨canonical, _, hwrites, h⟩ := Prog.bind_ok_iff.1 h
      obtain ⟨henc, rfl⟩ := Prog.lift_ok_iff.1 hwrites
      obtain ⟨_, _, hcompares, h⟩ := Prog.bind_ok_iff.1 h
      obtain ⟨hsame, rfl⟩ := Prog.reject_ok_iff.1 hcompares
      obtain ⟨rfl, -⟩ := Prog.pure_ok_iff.1 h
      rw [not_not] at hend hsame
      obtain ⟨-, hsome⟩ := hread.1 w s hrun
      rw [hend, List.drop_length] at hsome
      exact ⟨⟨_, hsome⟩, by rw [henc, hsame]⟩
    · rintro ⟨⟨c, hsome⟩, henc⟩
      rcases hrun : Decoder.readValue b (maxDepth + 1) ⟨0, 0⟩ with ⟨e | w, s⟩
      · rw [hread.2 e s hrun] at hsome
        cases hsome
      · obtain ⟨hs, hsome'⟩ := hread.1 w s hrun
        rw [hsome] at hsome'
        simp only [Option.some.injEq, Prod.mk.injEq] at hsome'
        obtain ⟨rfl, -, hrest⟩ := hsome'
        have hend : s.offset = b.length := le_antisymm hs (List.drop_eq_nil_iff.1 hrest.symm)
        simp only [Decoder.decode, Prog.bind_run, hrun, Prog.get_run, Prog.reject, Prog.lift_run, DecentWallet.reject,
          hend, ne_eq, not_true_eq_false, if_false, henc, Prog.pure_run]
  simp only [decodeCanonical, bind_eq_ok, reject_eq_ok, rethrowInvalid_ok, hdecode, not_or, not_lt, exists_const]

theorem limits_le (n : ℕ) (hn : maxItems ≤ n) : limits.Le (unlimited n true) where
  items := hn
  length := show maxEncodedBytes ≤ 2 ^ 64 - 1 by decide
  bools := fun _ => rfl
  keyOk := fun _ _ _ => rfl

/-- What decodes is canonical: the decoder compares its input with the canonical form of what it
read, so the item it read is already in that form. -/
theorem decodeCanonical_sound {b : Bytes} {v : Value} (h : decodeCanonical b = .ok v) :
    canonical v = true ∧ b = encode v ∧ b.length ≤ maxEncodedBytes := by
  obtain ⟨⟨-, hb⟩, ⟨c, hread⟩, henc⟩ := decodeCanonical_ok.1 h
  have hlt : b.length < 2 ^ 64 := by simp only [maxEncodedBytes] at hb; omega
  obtain ⟨hcan, hbe⟩ := writeValue_canonical v 0 b (encodeCanonical_ok.1 henc).1 hlt
  have hread' := readValue_mono (limits_le (max maxItems (items (sortKeys v))) (le_max_left _ _))
    (le_max_left (maxDepth + 1) (depth (sortKeys v))) _ _ _ hread
  have hcanon := readValue_canonical hcan (Or.inl rfl : true = true ∨ plain (sortKeys v) = true)
    (le_max_right (maxDepth + 1) (depth (sortKeys v))) (le_max_right maxItems (items (sortKeys v))) []
  rw [List.append_nil, ← hbe, hread'] at hcanon
  simp only [Option.some.injEq, Prod.mk.injEq] at hcanon
  rw [← hcanon.1] at hcan hbe
  exact ⟨hcan, hbe, hb⟩

theorem length_le_encodeList (vs : List Value) : vs.length ≤ (encodeList vs).length := by
  induction vs with
  | nil => simp
  | cons v vs ih =>
    have := encode_length_pos v
    simp only [encodeList, List.length_cons, List.length_append]; omega

theorem length_le_encodePairs (m : List (Value × Value)) : m.length ≤ (encodePairs m).length := by
  induction m with
  | nil => simp
  | cons p m ih =>
    obtain ⟨k, v⟩ := p
    have := encode_length_pos k
    simp only [encodePairs, List.length_cons, List.length_append]; omega

theorem items_pos (v : Value) : 0 < items v := by
  cases v <;> simp only [items] <;> first | omega | (split_ifs <;> omega)

theorem length_le_itemsList (vs : List Value) : vs.length ≤ itemsList vs := by
  induction vs with
  | nil => simp
  | cons v vs ih => have := items_pos v; simp only [itemsList, List.length_cons]; omega

theorem length_le_itemsPairs (m : List (Value × Value)) : m.length ≤ itemsPairs m := by
  induction m with
  | nil => simp
  | cons p m ih =>
    obtain ⟨k, v⟩ := p
    have := items_pos k
    simp only [itemsPairs, List.length_cons]; omega

/-! ### Every canonical encoding within the limits decodes -/

mutual

/-- Every map is keyed by integers. -/
def intKeyed : Value → Bool
  | .array xs => intKeyedList xs
  | .map m => intKeyedPairs m
  | _ => true

def intKeyedList : List Value → Bool
  | [] => true
  | v :: vs => intKeyed v && intKeyedList vs

def intKeyedPairs : List (Value × Value) → Bool
  | [] => true
  | (k, v) :: m => (match k with | .int _ => true | _ => false) && intKeyed v && intKeyedPairs m

end

theorem keyOk_of_sorted {acc : List (Value × Value)} {n : ℤ} {v : Value}
    (h : ∀ p ∈ acc, keyLt p (.int n, v) = true) : limits.keyOk acc (.int n) = true := by
  simp only [limits, Bool.not_eq_true', List.any_eq_false]
  intro p hp hk
  have hlt := h p hp
  obtain ⟨k, w⟩ := p
  cases k <;> simp [isKey] at hk
  subst hk
  simp [keyLt, shortLex_irrefl] at hlt

mutual

theorem readable_limits : ∀ v : Value, canonical v = true → intKeyed v = true →
    (encode v).length ≤ maxEncodedBytes → Readable limits v
  | .int n, _, _, hl => by
    by_cases hn : magnitude n < 2 ^ 64
    · exact Or.inl hn
    · have := beWidth_lt_length n hn
      rw [encode] at hl
      exact Or.inr (show _ ≤ maxEncodedBytes by omega)
  | .bytes b, _, _, hl => by
    simp only [encode, List.length_append] at hl
    exact (show b.length ≤ maxEncodedBytes by omega)
  | .text s, hc, _, hl => by
    simp only [canonical, Bool.and_eq_true] at hc
    simp only [encode, List.length_append] at hl
    exact ⟨hc.1, show _ ≤ maxEncodedBytes by omega⟩
  | .array xs, hc, hk, hl => by
    simp only [canonical, Bool.and_eq_true] at hc
    simp only [encode, List.length_append] at hl
    have hxs := length_le_encodeList xs
    exact ⟨show _ ≤ maxEncodedBytes by omega, readableList_limits xs hc.2 hk (by omega)⟩
  | .map m, hc, hk, hl => by
    simp only [canonical, Bool.and_eq_true, decide_eq_true_eq] at hc
    simp only [encode, List.length_append] at hl
    have hm := length_le_encodePairs m
    exact ⟨show _ ≤ maxEncodedBytes by omega,
      readablePairs_limits m [] hc.1.2 hk (by simpa using hc.2) (by omega)⟩
  | .null, _, _, _ => trivial
  | .bool _, _, _, _ => rfl
  | .num _, hc, _, _ => by simp [canonical] at hc
  | .other _, hc, _, _ => by simp [canonical] at hc

theorem readableList_limits : ∀ vs : List Value, canonicalList vs = true → intKeyedList vs = true →
    (encodeList vs).length ≤ maxEncodedBytes → ReadableList limits vs
  | [], _, _, _ => trivial
  | v :: vs, hc, hk, hl => by
    simp only [canonicalList, Bool.and_eq_true] at hc
    simp only [intKeyedList, Bool.and_eq_true] at hk
    simp only [encodeList, List.length_append] at hl
    exact ⟨readable_limits v hc.1 hk.1 (by omega), readableList_limits vs hc.2 hk.2 (by omega)⟩

theorem readablePairs_limits : ∀ m acc : List (Value × Value), canonicalPairs m = true →
    intKeyedPairs m = true → (acc ++ m).Pairwise (fun a b => keyLt a b = true) →
    (encodePairs m).length ≤ maxEncodedBytes → ReadablePairs limits acc m
  | [], _, _, _, _, _ => trivial
  | (k, v) :: m, acc, hc, hk, hp, hl => by
    simp only [canonicalPairs, Bool.and_eq_true] at hc
    simp only [intKeyedPairs, Bool.and_eq_true] at hk
    simp only [encodePairs, List.length_append] at hl
    obtain ⟨n, rfl⟩ : ∃ n, k = .int n := by
      cases k <;> simp at hk ⊢
    have hacc : ∀ p ∈ acc, keyLt p (.int n, v) = true := fun p hp' =>
      (List.pairwise_append.1 hp).2.2 p hp' _ (by simp)
    exact ⟨readable_limits _ hc.1.1 rfl (by omega), keyOk_of_sorted hacc,
      readable_limits v hc.1.2 hk.1.2 (by omega),
      readablePairs_limits m _ hc.2 hk.2 (by simpa using hp) (by omega)⟩

end

theorem not_hasDuplicate {m : List (Value × Value)} (h : m.Pairwise fun a b => keyLt a b = true) :
    hasDuplicate (m.map fun p => (encode p.1, encode p.2)) = false := by
  induction m with
  | nil => rfl
  | cons a m ih =>
    rw [List.pairwise_cons] at h
    cases m with
    | nil => rfl
    | cons b m =>
      have hab := h.1 b (by simp)
      have hne : encode a.1 ≠ encode b.1 := fun he => by simp [keyLt, he, shortLex_irrefl] at hab
      have hrest := ih h.2
      simp only [List.map_cons] at hrest ⊢
      simp [hasDuplicate, hne, hrest]

theorem keyLe_of_keyLt {a b : Value × Value} (h : keyLt a b = true) : keyLe a b = true := by
  by_contra hn
  have hba : shortLex (encode b.1) (encode a.1) = true := by simpa [keyLe] using hn
  have := shortLex_trans h hba
  simp [shortLex_irrefl] at this

mutual

theorem writeValue_encode : ∀ (v : Value) (d : ℕ), canonical v = true → intKeyed v = true →
    (encode v).length ≤ maxEncodedBytes → d + depth v ≤ maxDepth + 1 → items v ≤ maxItems →
    writeValue v d = .ok (encode v)
  | .int n, d, _, _, _, hd, _ => by
    have hd : ¬maxDepth < d := by simp only [depth] at hd; split_ifs at hd <;> omega
    simp only [writeValue, bind_eq_ok, reject_eq_ok, pure_eq_ok]
    exact ⟨(), hd, rfl⟩
  | .bytes b, d, _, _, _, hd, _ => by
    simp only [depth] at hd
    simp only [writeValue, bind_eq_ok, reject_eq_ok, pure_eq_ok]
    exact ⟨(), by omega, rfl⟩
  | .text s, d, hc, _, _, hd, _ => by
    simp only [depth] at hd
    simp only [canonical, Bool.and_eq_true] at hc
    simp only [writeValue, bind_eq_ok, reject_eq_ok, pure_eq_ok]
    exact ⟨(), by omega, _, encodeUtf8_ok.2 (utf8_eq_some.2 ⟨hc.1, rfl⟩), rfl⟩
  | .array xs, d, hc, hk, hl, hd, hi => by
    simp only [canonical, Bool.and_eq_true] at hc
    simp only [encode, List.length_append] at hl
    simp only [depth] at hd
    simp only [items] at hi
    have hxs := length_le_itemsList xs
    have hw := writeList_encode xs (d + 1) hc.2 hk (by omega) (by omega) (by omega)
    simp only [writeValue, bind_eq_ok, reject_eq_ok, pure_eq_ok]
    exact ⟨(), by omega, (), by omega, _, hw, rfl⟩
  | .map m, d, hc, hk, hl, hd, hi => by
    simp only [canonical, Bool.and_eq_true, decide_eq_true_eq] at hc
    simp only [encode, List.length_append] at hl
    simp only [depth] at hd
    simp only [items] at hi
    have hm := length_le_itemsPairs m
    have hw := writeEntries_encode m (d + 1) hc.1.2 hk (by omega) (by omega) (by omega)
    have hsort : (m.map fun p => (encode p.1, encode p.2)).insertionSort (fun a b => canonicalLe a.1 b.1 = true) =
        m.map fun p => (encode p.1, encode p.2) :=
      List.Pairwise.insertionSort_eq (List.pairwise_map.2 (hc.2.imp keyLe_of_keyLt))
    simp only [writeValue, bind_eq_ok, reject_eq_ok, pure_eq_ok]
    refine ⟨(), by omega, (), by omega, _, hw, (), ?_, ?_⟩
    · rw [hsort, not_hasDuplicate hc.2]
      exact Bool.false_ne_true
    · rw [hsort, List.length_map, ← encodePairs_eq_flatMap, encode]
  | .null, d, _, _, _, hd, _ => by
    simp only [depth] at hd
    simp only [writeValue, bind_eq_ok, reject_eq_ok, pure_eq_ok]
    exact ⟨(), by omega, rfl⟩
  | .bool b, d, _, _, _, hd, _ => by
    simp only [depth] at hd
    simp only [writeValue, bind_eq_ok, reject_eq_ok, pure_eq_ok]
    exact ⟨(), by omega, rfl⟩
  | .num _, _, hc, _, _, _, _ => by simp [canonical] at hc
  | .other _, _, hc, _, _, _, _ => by simp [canonical] at hc

theorem writeList_encode : ∀ (vs : List Value) (d : ℕ), canonicalList vs = true → intKeyedList vs = true →
    (encodeList vs).length ≤ maxEncodedBytes → d + depthList vs ≤ maxDepth + 1 → itemsList vs ≤ maxItems →
    writeList vs d = .ok (encodeList vs)
  | [], _, _, _, _, _, _ => rfl
  | v :: vs, d, hc, hk, hl, hd, hi => by
    simp only [canonicalList, Bool.and_eq_true] at hc
    simp only [intKeyedList, Bool.and_eq_true] at hk
    simp only [encodeList, List.length_append] at hl
    simp only [depthList] at hd
    simp only [itemsList] at hi
    simp only [writeList, bind_eq_ok, pure_eq_ok]
    exact ⟨_, writeValue_encode v d hc.1 hk.1 (by omega) (by omega) (by omega), _,
      writeList_encode vs d hc.2 hk.2 (by omega) (by omega) (by omega), rfl⟩

theorem writeEntries_encode : ∀ (m : List (Value × Value)) (d : ℕ), canonicalPairs m = true →
    intKeyedPairs m = true → (encodePairs m).length ≤ maxEncodedBytes → d + depthPairs m ≤ maxDepth + 1 →
    itemsPairs m ≤ maxItems → writeEntries m d = .ok (m.map fun p => (encode p.1, encode p.2))
  | [], _, _, _, _, _, _ => rfl
  | (k, v) :: m, d, hc, hk, hl, hd, hi => by
    simp only [canonicalPairs, Bool.and_eq_true] at hc
    simp only [intKeyedPairs, Bool.and_eq_true] at hk
    simp only [encodePairs, List.length_append] at hl
    simp only [depthPairs] at hd
    simp only [itemsPairs] at hi
    obtain ⟨n, rfl⟩ : ∃ n, k = .int n := by
      cases k <;> simp at hk ⊢
    rw [encode] at hl
    have hkey : encodeKey (.int n) = .ok (encodeInt n) := by
      simp only [encodeKey, bind_eq_ok, reject_eq_ok, pure_eq_ok, and_true, exists_const]
      omega
    simp only [writeEntries, bind_eq_ok, pure_eq_ok]
    exact ⟨_, hkey, _, writeValue_encode v d hc.1.2 hk.1.2 (by omega) (by omega) (by omega), _,
      writeEntries_encode m d hc.2 hk.2 (by omega) (by omega) (by omega), rfl⟩

end

theorem decodeCanonical_complete {v : Value} (hc : canonical v = true) (hk : intKeyed v = true)
    (hl : (encode v).length ≤ maxEncodedBytes) (hd : depth v ≤ maxDepth + 1) (hi : items v ≤ maxItems) :
    decodeCanonical (encode v) = .ok v := by
  have hr := readValue_encode limits (show maxEncodedBytes < 2 ^ 64 by decide) v (maxDepth + 1) 0 []
    (readable_limits v hc hk hl) hd (by simpa [limits] using hi)
  rw [List.append_nil] at hr
  have hw := writeValue_encode v 0 hc hk hl (by omega) hi
  exact decodeCanonical_ok.2 ⟨⟨encode_ne_nil v, hl⟩, ⟨_, hr⟩, encodeCanonical_ok.2 ⟨hw, hl⟩⟩

end DecentWallet.Kotlin
