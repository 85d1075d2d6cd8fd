import DecentWallet.Lib.Cbor

/-! A reader of CBOR items under resource limits. The limits only ever turn a read into a failure
(`readValue_mono`), and a canonical encoding within them is read back (`readValue_encode`). -/

namespace DecentWallet.Cbor

/-- What a reader refuses beyond malformed input. `keyOk` judges a map key after the entries
already read. -/
structure Limits where
  items : ℕ
  length : ℕ
  bools : Bool
  keyOk : List (Value × Value) → Value → Bool

def takeBytes (n : ℕ) (b : Bytes) : Option (Bytes × Bytes) :=
  if n ≤ b.length then some (b.take n, b.drop n) else none

def readBE (w : ℕ) (b : Bytes) : Option (ℕ × Bytes) :=
  (takeBytes w b).map fun p => (ofBE p.1, p.2)

/-- The argument after an initial byte with additional information `a`. -/
def readArgument (a : ℕ) (b : Bytes) : Option (ℕ × Bytes) :=
  if a < 24 then some (a, b)
  else if a = 24 then readBE 1 b
  else if a = 25 then readBE 2 b
  else if a = 26 then readBE 4 b
  else if a = 27 then readBE 8 b
  else none

def readLength (L : Limits) (a : ℕ) (b : Bytes) : Option (ℕ × Bytes) := do
  let (n, r) ← readArgument a b
  if L.length < n then none else some (n, r)

/-- A reader takes the number of items opened so far and the rest of the input. -/
abbrev Reader (α : Type) := ℕ → Bytes → Option (α × ℕ × Bytes)

def readMany (f : Reader Value) : ℕ → Reader (List Value)
  | 0, c, b => some ([], c, b)
  | n + 1, c, b => do
    let (v, c, b) ← f c b
    let (vs, c, b) ← readMany f n c b
    some (v :: vs, c, b)

def readEntries (L : Limits) (f : Reader Value) :
    ℕ → List (Value × Value) → Reader (List (Value × Value))
  | 0, acc, c, b => some (acc, c, b)
  | n + 1, acc, c, b => do
    let (k, c, b) ← f c b
    if L.keyOk acc k then
      let (v, c, b) ← f c b
      readEntries L f n (acc ++ [(k, v)]) c b
    else none

/-- A tag 2 or 3 item: a magnitude that starts with no zero byte and needs more than 64 bits. -/
def bigNumber (tag : ℕ) : Value → Option ℤ
  | .bytes m =>
    if (tag = 2 ∨ tag = 3) ∧ m ≠ [] ∧ m.head? ≠ some 0 ∧ 2 ^ 64 ≤ ofBE m then
      some (if tag = 2 then (ofBE m : ℤ) else -1 - (ofBE m : ℤ))
    else none
  | _ => none

/-- The items of major type 7. -/
def simple (L : Limits) (a : ℕ) : Option Value :=
  if a = 20 ∧ L.bools then some (.bool false)
  else if a = 21 ∧ L.bools then some (.bool true)
  else if a = 22 then some .null
  else none

/-- `d` levels of nesting are left. -/
def readValue (L : Limits) : ℕ → Reader Value
  | 0, _, _ => none
  | _ + 1, _, [] => none
  | d + 1, c, i :: b =>
    if L.items < c + 1 then none
    else
      let a := i.toNat % 32
      match i.toNat / 32 with
      | 0 => (readArgument a b).map fun p => (.int p.1, c + 1, p.2)
      | 1 => (readArgument a b).map fun p => (.int (-1 - (p.1 : ℤ)), c + 1, p.2)
      | 2 => do
        let (n, b) ← readLength L a b
        let (x, b) ← takeBytes n b
        some (.bytes x, c + 1, b)
      | 3 => do
        let (n, b) ← readLength L a b
        let (x, b) ← takeBytes n b
        let s ← utf8Decode x
        some (.text s, c + 1, b)
      | 4 => do
        let (n, b) ← readLength L a b
        let (xs, c, b) ← readMany (readValue L d) n (c + 1) b
        some (.array xs, c, b)
      | 5 => do
        let (n, b) ← readLength L a b
        let (m, c, b) ← readEntries L (readValue L d) n [] (c + 1) b
        some (.map m, c, b)
      | 6 => do
        let (tag, b) ← readArgument a b
        let (v, c, b) ← readValue L d (c + 1) b
        let n ← bigNumber tag v
        some (.int n, c, b)
      | _ => (simple L a).map fun v => (v, c + 1, b)

/-! ### Looser limits read at least as much -/

structure Limits.Le (L L' : Limits) : Prop where
  items : L.items ≤ L'.items
  length : L.length ≤ L'.length
  bools : L.bools = true → L'.bools = true
  keyOk : ∀ acc k, L.keyOk acc k = true → L'.keyOk acc k = true

theorem readLength_mono {L L' : Limits} (h : L.Le L') {a : ℕ} {b : Bytes} {p : ℕ × Bytes}
    (hr : readLength L a b = some p) : readLength L' a b = some p := by
  unfold readLength at *
  cases ha : readArgument a b with
  | none => simp [ha] at hr
  | some q =>
    have := h.length
    simp only [ha, Option.bind_eq_bind, Option.bind_some] at hr ⊢
    split_ifs at hr ⊢
    · omega
    · exact hr

theorem readMany_mono {f g : Reader Value} (hfg : ∀ c b p, f c b = some p → g c b = some p) (n : ℕ) :
    ∀ c b p, readMany f n c b = some p → readMany g n c b = some p := by
  induction n with
  | zero => intro c b p h; exact h
  | succ n ih =>
    intro c b p h
    simp only [readMany, Option.bind_eq_bind, Option.bind_eq_some_iff] at h ⊢
    obtain ⟨q, hq, q', hq', hp⟩ := h
    exact ⟨q, hfg _ _ _ hq, q', ih _ _ _ hq', hp⟩

theorem readEntries_mono {L L' : Limits} (h : L.Le L') {f g : Reader Value}
    (hfg : ∀ c b p, f c b = some p → g c b = some p) (n : ℕ) :
    ∀ acc c b p, readEntries L f n acc c b = some p → readEntries L' g n acc c b = some p := by
  induction n with
  | zero => intro acc c b p h; exact h
  | succ n ih =>
    intro acc c b p hr
    simp only [readEntries, Option.bind_eq_bind, Option.bind_eq_some_iff] at hr ⊢
    obtain ⟨q, hq, hr⟩ := hr
    refine ⟨q, hfg _ _ _ hq, ?_⟩
    by_cases ha : L.keyOk acc q.1 = true
    · rw [if_pos ha, Option.bind_eq_some_iff] at hr
      rw [if_pos (h.keyOk _ _ ha), Option.bind_eq_some_iff]
      obtain ⟨q', hq', hp⟩ := hr
      exact ⟨q', hfg _ _ _ hq', ih _ _ _ _ hp⟩
    · simp [ha] at hr

theorem simple_mono {L L' : Limits} (h : L.Le L') {a : ℕ} {v : Value} (hr : simple L a = some v) :
    simple L' a = some v := by
  have hb := h.bools
  unfold simple at *
  split_ifs at hr with h1 h2 h3
  · rw [if_pos ⟨h1.1, hb h1.2⟩]; exact hr
  · rw [if_neg (by omega), if_pos ⟨h2.1, hb h2.2⟩]; exact hr
  · rw [if_neg (by omega), if_neg (by omega), if_pos h3]; exact hr

theorem readValue_mono {L L' : Limits} (h : L.Le L') {d d' : ℕ} (hd : d ≤ d') :
    ∀ c b p, readValue L d c b = some p → readValue L' d' c b = some p := by
  induction d generalizing d' with
  | zero => intro c b p hr; simp [readValue] at hr
  | succ d ih =>
    obtain ⟨e, rfl⟩ : ∃ e, d' = e + 1 := ⟨d' - 1, by omega⟩
    have ih' := ih (show d ≤ e by omega)
    intro c b p hr
    cases b with
    | nil => simp [readValue] at hr
    | cons i b =>
      have hitems := h.items
      simp only [readValue] at hr ⊢
      by_cases hc : L.items < c + 1
      · simp [hc] at hr
      rw [if_neg hc] at hr
      rw [if_neg (by omega)]
      split at hr
      · exact hr
      · exact hr
      · simp only [Option.bind_eq_bind, Option.bind_eq_some_iff] at hr ⊢
        obtain ⟨q, hq, hr⟩ := hr
        exact ⟨q, readLength_mono h hq, hr⟩
      · simp only [Option.bind_eq_bind, Option.bind_eq_some_iff] at hr ⊢
        obtain ⟨q, hq, hr⟩ := hr
        exact ⟨q, readLength_mono h hq, hr⟩
      · simp only [Option.bind_eq_bind, Option.bind_eq_some_iff] at hr ⊢
        obtain ⟨q, hq, q', hq', hr⟩ := hr
        exact ⟨q, readLength_mono h hq, q', readMany_mono ih' _ _ _ _ hq', hr⟩
      · simp only [Option.bind_eq_bind, Option.bind_eq_some_iff] at hr ⊢
        obtain ⟨q, hq, q', hq', hr⟩ := hr
        exact ⟨q, readLength_mono h hq, q', readEntries_mono h ih' _ _ _ _ _ hq', hr⟩
      · simp only [Option.bind_eq_bind, Option.bind_eq_some_iff] at hr ⊢
        obtain ⟨q, hq, q', hq', hr⟩ := hr
        exact ⟨q, hq, q', ih' _ _ _ hq', hr⟩
      · obtain ⟨v, hv, hr⟩ := Option.map_eq_some_iff.1 hr
        exact Option.map_eq_some_iff.2 ⟨v, simple_mono h hv, hr⟩

/-! ### Round trip -/

mutual

/-- The limits other than item count and depth, for each part of an item. -/
def Readable (L : Limits) : Value → Prop
  | .int n => magnitude n < 2 ^ 64 ∨ beWidth (magnitude n) ≤ L.length
  | .bytes b => b.length ≤ L.length
  | .text s => s.all isScalar = true ∧ (utf8Raw s).length ≤ L.length
  | .array xs => xs.length ≤ L.length ∧ ReadableList L xs
  | .map m => m.length ≤ L.length ∧ ReadablePairs L [] m
  | .null => True
  | .bool _ => L.bools = true
  | .num _ => False
  | .other _ => False

def ReadableList (L : Limits) : List Value → Prop
  | [] => True
  | v :: vs => Readable L v ∧ ReadableList L vs

def ReadablePairs (L : Limits) : List (Value × Value) → List (Value × Value) → Prop
  | _, [] => True
  | acc, (k, v) :: m =>
    Readable L k ∧ L.keyOk acc k = true ∧ Readable L v ∧ ReadablePairs L (acc ++ [(k, v)]) m

end

theorem takeBytes_append {n : ℕ} {a : Bytes} (h : a.length = n) (r : Bytes) :
    takeBytes n (a ++ r) = some (a, r) := by
  subst h; simp [takeBytes]

theorem readBE_append {w n : ℕ} (h : n < 256 ^ w) (r : Bytes) : readBE w (toBE w n ++ r) = some (n, r) := by
  simp [readBE, takeBytes_append (toBE_length w n), ofBE_toBE w n h]

theorem readArgument_head {major n : ℕ} (hm : major < 8) (hn : n < 2 ^ 64) :
    ∃ i t, head major n = i :: t ∧ i.toNat / 32 = major ∧
      ∀ r, readArgument (i.toNat % 32) (t ++ r) = some (n, r) := by
  have hi : ∀ a, a < 32 → (UInt8.ofNat (major * 32 + a)).toNat = major * 32 + a :=
    fun a ha => toNat_ofNat_lt (by omega)
  unfold head
  split_ifs with h1 h2 h3 h4
  · refine ⟨_, _, rfl, by rw [hi n (by omega)]; omega, fun r => ?_⟩
    have hmod : (major * 32 + n) % 32 = n := by omega
    rw [hi n (by omega), hmod]; simp [readArgument, h1]
  all_goals
    refine ⟨_, _, rfl, by rw [hi _ (by decide)]; omega, fun r => ?_⟩
    rw [hi _ (by decide), Nat.mul_add_mod_self_right]
  · exact readBE_append (w := 1) (by norm_num; omega) r
  · exact readBE_append (w := 2) (by norm_num; omega) r
  · exact readBE_append (w := 4) (by norm_num; omega) r
  · exact readBE_append (w := 8) (by norm_num at *; omega) r

theorem bigNumber_minBE {n : ℕ} (h : 2 ^ 64 ≤ n) (s : ℕ) (hs : s < 2) :
    bigNumber (2 + s) (.bytes (minBE n)) = some (if s = 0 then (n : ℤ) else -1 - (n : ℤ)) := by
  obtain ⟨x, t, hx, hx0⟩ := minBE_head n (by omega)
  have hne : minBE n ≠ [] := by rw [hx]; simp
  have hhd : (minBE n).head? ≠ some 0 := by rw [hx]; simpa using hx0
  simp only [bigNumber, ofBE_minBE]
  rw [if_pos ⟨by omega, hne, hhd, h⟩]
  simp

theorem sign_lt (n : ℤ) : sign n < 2 := by unfold sign; split_ifs <;> decide

theorem ofMagnitude (n : ℤ) : (if sign n = 0 then (magnitude n : ℤ) else -1 - (magnitude n : ℤ)) = n := by
  cases n with
  | ofNat n => simp [sign, magnitude]
  | negSucc n => simp [sign, magnitude, Int.negSucc_lt_zero]; omega

theorem readValue_int (L : Limits) {d c : ℕ} {n : ℤ} (hL : L.length < 2 ^ 64) (h : Readable L (.int n))
    (hd : depth (.int n) ≤ d) (hc : c + items (.int n) ≤ L.items) (r : Bytes) :
    readValue L d c (encodeInt n ++ r) = some (.int n, c + items (.int n), r) := by
  simp only [depth, items] at hd hc ⊢
  obtain ⟨e, rfl⟩ : ∃ e, d = e + 1 := ⟨d - 1, by split_ifs at hd <;> omega⟩
  unfold encodeInt
  have hs := sign_lt n
  have hv := ofMagnitude n
  by_cases hn : magnitude n < 2 ^ 64
  · simp only [if_pos hn] at hd hc ⊢
    obtain ⟨i, t, hi, hmaj, harg⟩ := readArgument_head (show sign n < 8 by omega) hn
    rw [hi, List.cons_append, readValue, if_neg (by omega), hmaj]
    rcases (by omega : sign n = 0 ∨ sign n = 1) with h0 | h0 <;> simp [h0, harg] at hv ⊢ <;> exact hv
  · simp only [if_neg hn] at hd hc ⊢
    have hw : beWidth (magnitude n) ≤ L.length := by
      simp only [Readable] at h; omega
    obtain ⟨f, rfl⟩ : ∃ f, e = f + 1 := ⟨e - 1, by omega⟩
    obtain ⟨i, t, hi, hmaj, harg⟩ := readArgument_head (show 2 < 8 by decide)
      (show beWidth (magnitude n) < 2 ^ 64 by omega)
    have htag : (UInt8.ofNat (0xc2 + sign n)).toNat = 0xc2 + sign n := toNat_ofNat_lt (by omega)
    have hmag : readValue L (f + 1) (c + 1) (i :: (t ++ (minBE (magnitude n) ++ r))) =
        some (.bytes (minBE (magnitude n)), c + 2, r) := by
      rw [readValue, if_neg (by omega), hmaj]
      simp [readLength, harg, not_lt.2 hw, takeBytes_append (minBE_length (magnitude n))]
    rw [List.cons_append, readValue, if_neg (by omega), htag]
    have h6 : (0xc2 + sign n) / 32 = 6 := by omega
    have ha : (0xc2 + sign n) % 32 = 2 + sign n := by omega
    simp only [h6, ha]
    have harg6 : ∀ b, readArgument (2 + sign n) b = some (2 + sign n, b) := fun b => by
      simp [readArgument, show 2 + sign n < 24 by omega]
    rw [hi]
    simp only [harg6, List.cons_append, List.append_assoc, Option.bind_eq_bind, Option.bind_some, hmag,
      bigNumber_minBE (show 2 ^ 64 ≤ magnitude n by omega) _ hs, hv]

mutual

theorem readValue_encode (L : Limits) (hL : L.length < 2 ^ 64) : ∀ (v : Value) (d c : ℕ) (r : Bytes),
    Readable L v → depth v ≤ d → c + items v ≤ L.items →
    readValue L d c (encode v ++ r) = some (v, c + items v, r)
  | .int n, d, c, r, h, hd, hc => by
    rw [encode]; exact readValue_int L hL h hd hc r
  | .bytes b, d, c, r, h, hd, hc => by
    simp only [depth, items, Readable] at hd hc h ⊢
    obtain ⟨e, rfl⟩ : ∃ e, d = e + 1 := ⟨d - 1, by omega⟩
    obtain ⟨i, t, hi, hmaj, harg⟩ := readArgument_head (show 2 < 8 by decide) (show b.length < 2 ^ 64 by omega)
    rw [encode, hi, List.cons_append, List.cons_append, readValue, if_neg (by omega), hmaj]
    simp [readLength, harg, not_lt.2 h, takeBytes_append]
  | .text s, d, c, r, h, hd, hc => by
    simp only [depth, items, Readable] at hd hc h ⊢
    obtain ⟨e, rfl⟩ : ∃ e, d = e + 1 := ⟨d - 1, by omega⟩
    obtain ⟨i, t, hi, hmaj, harg⟩ := readArgument_head (show 3 < 8 by decide)
      (show (utf8Raw s).length < 2 ^ 64 by omega)
    rw [encode, hi, List.cons_append, List.cons_append, readValue, if_neg (by omega), hmaj]
    simp [readLength, harg, not_lt.2 h.2, takeBytes_append, utf8Decode_utf8Raw h.1]
  | .array xs, d, c, r, h, hd, hc => by
    simp only [depth, items, Readable] at hd hc h ⊢
    obtain ⟨e, rfl⟩ : ∃ e, d = e + 1 := ⟨d - 1, by omega⟩
    obtain ⟨i, t, hi, hmaj, harg⟩ := readArgument_head (show 4 < 8 by decide) (show xs.length < 2 ^ 64 by omega)
    have hxs := readMany_encode L hL xs e (c + 1) r h.2 (by omega) (by omega)
    rw [encode, hi, List.cons_append, List.cons_append, readValue, if_neg (by omega), hmaj]
    simp [readLength, harg, not_lt.2 h.1, hxs]
    omega
  | .map m, d, c, r, h, hd, hc => by
    simp only [depth, items, Readable] at hd hc h ⊢
    obtain ⟨e, rfl⟩ : ∃ e, d = e + 1 := ⟨d - 1, by omega⟩
    obtain ⟨i, t, hi, hmaj, harg⟩ := readArgument_head (show 5 < 8 by decide) (show m.length < 2 ^ 64 by omega)
    have hm := readEntries_encode L hL m e [] (c + 1) r h.2 (by omega) (by omega)
    rw [encode, hi, List.cons_append, List.cons_append, readValue, if_neg (by omega), hmaj]
    simp [readLength, harg, not_lt.2 h.1, hm]
    omega
  | .null, d, c, r, h, hd, hc => by
    simp only [depth, items] at hd hc ⊢
    obtain ⟨e, rfl⟩ : ∃ e, d = e + 1 := ⟨d - 1, by omega⟩
    simp [encode, readValue, simple, show ¬L.items < c + 1 by omega]
  | .bool b, d, c, r, h, hd, hc => by
    simp only [depth, items, Readable] at hd hc h ⊢
    obtain ⟨e, rfl⟩ : ∃ e, d = e + 1 := ⟨d - 1, by omega⟩
    cases b <;> simp [encode, readValue, simple, h, show ¬L.items < c + 1 by omega]
  | .num q, _, _, _, h, _, _ => by simp [Readable] at h
  | .other n, _, _, _, h, _, _ => by simp [Readable] at h

theorem readMany_encode (L : Limits) (hL : L.length < 2 ^ 64) : ∀ (vs : List Value) (d c : ℕ) (r : Bytes),
    ReadableList L vs → depthList vs ≤ d → c + itemsList vs ≤ L.items →
    readMany (readValue L d) vs.length c (encodeList vs ++ r) = some (vs, c + itemsList vs, r)
  | [], d, c, r, _, _, _ => rfl
  | v :: vs, d, c, r, h, hd, hc => by
    simp only [depthList, itemsList, ReadableList] at hd hc h ⊢
    have hv := readValue_encode L hL v d c (encodeList vs ++ r) h.1 (by omega) (by omega)
    have hvs := readMany_encode L hL vs d (c + items v) r h.2 (by omega) (by omega)
    simp only [encodeList, List.length_cons, readMany, List.append_assoc, hv, hvs, Option.bind_eq_bind,
      Option.bind_some, Nat.add_assoc]

theorem readEntries_encode (L : Limits) (hL : L.length < 2 ^ 64) :
    ∀ (m : List (Value × Value)) (d : ℕ) (acc : List (Value × Value)) (c : ℕ) (r : Bytes),
    ReadablePairs L acc m → depthPairs m ≤ d → c + itemsPairs m ≤ L.items →
    readEntries L (readValue L d) m.length acc c (encodePairs m ++ r) = some (acc ++ m, c + itemsPairs m, r)
  | [], d, acc, c, r, _, _, _ => by simp [readEntries, encodePairs, itemsPairs]
  | (k, v) :: m, d, acc, c, r, h, hd, hc => by
    simp only [depthPairs, itemsPairs, ReadablePairs] at hd hc h ⊢
    have hk := readValue_encode L hL k d c (encode v ++ (encodePairs m ++ r)) h.1 (by omega) (by omega)
    have hv := readValue_encode L hL v d (c + items k) (encodePairs m ++ r) h.2.2.1 (by omega) (by omega)
    have hm := readEntries_encode L hL m d (acc ++ [(k, v)]) (c + items k + items v) r h.2.2.2 (by omega)
      (by omega)
    simp only [encodePairs, List.length_cons, readEntries, List.append_assoc, hk, hv, h.2.1,
      Option.bind_eq_bind, Option.bind_some, if_true]
    rw [hm]
    simp [Nat.add_assoc]

end

/-! ### The loosest reader -/

/-- Every length the format can express, any key, any number of items up to `n`. -/
def unlimited (n : ℕ) (bools : Bool) : Limits :=
  { items := n, length := 2 ^ 64 - 1, bools, keyOk := fun _ _ => true }

mutual

theorem readable_of_canonical (n : ℕ) (bools : Bool) : ∀ v : Value, canonical v = true →
    (bools = true ∨ plain v = true) → Readable (unlimited n bools) v
  | .int k, h, _ => by
    simp only [canonical, Bool.or_eq_true, decide_eq_true_eq] at h
    exact h.imp_right fun h => (show _ ≤ 2 ^ 64 - 1 by omega)
  | .bytes b, h, _ => by
    simp only [canonical, decide_eq_true_eq] at h
    exact (show b.length ≤ 2 ^ 64 - 1 by omega)
  | .text s, h, _ => by
    simp only [canonical, Bool.and_eq_true, decide_eq_true_eq] at h
    exact ⟨h.1, show _ ≤ 2 ^ 64 - 1 by omega⟩
  | .array xs, h, hp => by
    simp only [canonical, Bool.and_eq_true, decide_eq_true_eq] at h
    exact ⟨show _ ≤ 2 ^ 64 - 1 by omega, readableList_of_canonical n bools xs h.2 (by simpa [plain] using hp)⟩
  | .map m, h, hp => by
    simp only [canonical, Bool.and_eq_true, decide_eq_true_eq] at h
    exact ⟨show _ ≤ 2 ^ 64 - 1 by omega, readablePairs_of_canonical n bools m [] h.1.2 (by simpa [plain] using hp)⟩
  | .null, _, _ => trivial
  | .bool b, _, hp => by simpa [plain, Readable, unlimited] using hp
  | .num q, h, _ => by simp [canonical] at h
  | .other k, h, _ => by simp [canonical] at h

theorem readableList_of_canonical (n : ℕ) (bools : Bool) : ∀ vs : List Value, canonicalList vs = true →
    (bools = true ∨ plainList vs = true) → ReadableList (unlimited n bools) vs
  | [], _, _ => trivial
  | v :: vs, h, hp => by
    simp only [canonicalList, plainList, Bool.and_eq_true] at h hp
    exact ⟨readable_of_canonical n bools v h.1 (hp.imp_right And.left),
      readableList_of_canonical n bools vs h.2 (hp.imp_right And.right)⟩

theorem readablePairs_of_canonical (n : ℕ) (bools : Bool) : ∀ (m acc : List (Value × Value)),
    canonicalPairs m = true → (bools = true ∨ plainPairs m = true) → ReadablePairs (unlimited n bools) acc m
  | [], _, _, _ => trivial
  | (k, v) :: m, acc, h, hp => by
    simp only [canonicalPairs, plainPairs, Bool.and_eq_true] at h hp
    exact ⟨readable_of_canonical n bools k h.1.1 (hp.imp_right fun h => h.1.1), rfl,
      readable_of_canonical n bools v h.1.2 (hp.imp_right fun h => h.1.2),
      readablePairs_of_canonical n bools m _ h.2 (hp.imp_right And.right)⟩

end

theorem readValue_canonical {n : ℕ} {bools : Bool} {v : Value} (h : canonical v = true)
    (hp : bools = true ∨ plain v = true) {d : ℕ} (hd : depth v ≤ d) (hn : items v ≤ n) (r : Bytes) :
    readValue (unlimited n bools) d 0 (encode v ++ r) = some (v, items v, r) := by
  simpa using readValue_encode (unlimited n bools) (show 2 ^ 64 - 1 < 2 ^ 64 by decide) v d 0 r
    (readable_of_canonical n bools v h hp) hd (by simpa [unlimited] using hn)

theorem beWidth_pos {n : ℕ} (h : 2 ^ 64 ≤ n) : 0 < beWidth n := by
  unfold beWidth; split_ifs <;> omega

mutual

theorem items_le_length : ∀ v : Value, items v ≤ (encode v).length
  | .int n => by
    have := head_length_pos 2 (beWidth (magnitude n))
    have := encodeInt_length_pos n
    simp only [items, encode]
    split_ifs with h
    · omega
    · have hw := beWidth_pos (show 2 ^ 64 ≤ magnitude n by omega)
      simp only [encodeInt, if_neg h, List.length_cons, List.length_append]
      omega
  | .bytes b => by have := encode_length_pos (.bytes b); simp only [items]; omega
  | .text s => by have := encode_length_pos (.text s); simp only [items]; omega
  | .array xs => by
    have := head_length_pos 4 xs.length
    have := itemsList_le_length xs
    simp only [items, encode, List.length_append]; omega
  | .map m => by
    have := head_length_pos 5 m.length
    have := itemsPairs_le_length m
    simp only [items, encode, List.length_append]; omega
  | .null => by simp [items, encode]
  | .bool _ => by simp [items, encode]
  | .num _ => by simp [items, encode]
  | .other _ => by simp [items, encode]

theorem itemsList_le_length : ∀ vs : List Value, itemsList vs ≤ (encodeList vs).length
  | [] => le_rfl
  | v :: vs => by
    have := items_le_length v
    have := itemsList_le_length vs
    simp only [itemsList, encodeList, List.length_append]; omega

theorem itemsPairs_le_length : ∀ m : List (Value × Value), itemsPairs m ≤ (encodePairs m).length
  | [] => le_rfl
  | (k, v) :: m => by
    have := items_le_length k
    have := items_le_length v
    have := itemsPairs_le_length m
    simp only [itemsPairs, encodePairs, List.length_append]; omega

end

mutual

theorem depth_le_items : ∀ v : Value, depth v ≤ items v
  | .int n => by simp only [depth, items]; exact le_rfl
  | .bytes b => by simp [depth, items]
  | .text s => by simp [depth, items]
  | .array xs => by have := depthList_le_items xs; simp only [depth, items]; omega
  | .map m => by have := depthPairs_le_items m; simp only [depth, items]; omega
  | .null => by simp [depth, items]
  | .bool _ => by simp [depth, items]
  | .num _ => by simp [depth, items]
  | .other _ => by simp [depth, items]

theorem depthList_le_items : ∀ vs : List Value, depthList vs ≤ itemsList vs
  | [] => le_rfl
  | v :: vs => by
    have := depth_le_items v
    have := depthList_le_items vs
    simp only [depthList, itemsList]; omega

theorem depthPairs_le_items : ∀ m : List (Value × Value), depthPairs m ≤ itemsPairs m
  | [] => le_rfl
  | (k, v) :: m => by
    have := depth_le_items k
    have := depth_le_items v
    have := depthPairs_le_items m
    simp only [depthPairs, itemsPairs]; omega

end

/-- The whole input as one item. -/
def loads (b : Bytes) : Option Value :=
  match readValue (unlimited b.length false) b.length 0 b with
  | some (v, _, []) => some v
  | _ => none

theorem loads_encode {v : Value} (hc : canonical v = true) (hp : plain v = true) : loads (encode v) = some v := by
  have hi := items_le_length v
  have h := readValue_canonical hc (Or.inr hp : false = true ∨ _) ((depth_le_items v).trans hi) hi []
  rw [List.append_nil] at h
  simp [loads, h]

/-- A canonical encoding determines its item. -/
theorem encode_inj {v w : Value} (hv : canonical v = true) (hw : canonical w = true)
    (h : encode v = encode w) : v = w := by
  have hr := readValue_canonical hv (Or.inl rfl : true = true ∨ plain v = true)
    (le_max_left (depth v) (depth w)) (le_max_left (items v) (items w)) []
  have hr' := readValue_canonical hw (Or.inl rfl : true = true ∨ plain w = true)
    (le_max_right (depth v) (depth w)) (le_max_right (items v) (items w)) []
  rw [h, hr'] at hr
  simp only [Option.some.injEq, Prod.mk.injEq] at hr
  exact hr.1.symm

end DecentWallet.Cbor
