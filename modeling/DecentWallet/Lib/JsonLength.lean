import DecentWallet.Lib.JsonSize

/-! The length of a JSON text. What is read takes no more bytes when it is written again: escapes, spaces and
repeated keys only get lost. Floats are weighed by a parameter, and every float of what is read comes from the
parser of floats. -/

namespace DecentWallet

theorem length_utf8Raw_append (s t : Str) : (utf8Raw (s ++ t)).length = (utf8Raw s).length + (utf8Raw t).length := by
  simp [utf8Raw]

theorem length_utf8Raw_cons (c : ℕ) (s : Str) :
    (utf8Raw (c :: s)).length = (encodePoint c).length + (utf8Raw s).length := by
  simp [utf8Raw]

theorem one_le_encodePoint (c : ℕ) : 1 ≤ (encodePoint c).length := List.length_pos_iff.2 (encodePoint_ne_nil c)

theorem length_utf8Raw_ascii {s : Str} (h : ∀ c ∈ s, c < 0x80) : (utf8Raw s).length = s.length := by
  induction s with
  | nil => rfl
  | cons c s ih =>
    rw [length_utf8Raw_cons, length_encodePoint, if_pos (h c (by simp)), ih fun d hd => h d (by simp [hd]),
      List.length_cons]
    omega

/-! ### Strings -/

theorem length_escapePoint_le (c : ℕ) : (utf8Raw (escapePoint c)).length ≤ 6 := by
  unfold escapePoint
  split_ifs with h1 h2 h3 h4 h5 h6 h7 h8
  · decide
  · decide
  · decide
  · decide
  · decide
  · decide
  · decide
  · have hdigit : ∀ n < 16, hexDigit n < 0x80 := by decide
    have hx := hdigit (c / 16) (by omega)
    have hy := hdigit (c % 16) (by omega)
    rw [length_utf8Raw_ascii (by simp [hx, hy])]
    simp
  · simp only [utf8Raw, List.flatMap_cons, List.flatMap_nil, List.append_nil, length_encodePoint]
    split_ifs <;> omega

/-- The bytes that a unit of a string was read from, at least. -/
def unitCost (u : ℕ × Bool) : ℕ := if u.2 then 6 else (utf8Raw (escapePoint u.1)).length

theorem length_simpleEscape {c p : ℕ} (h : simpleEscape c = some p) : (utf8Raw (escapePoint p)).length ≤ 2 := by
  unfold simpleEscape at h
  split_ifs at h with h1
  · rcases h1 with rfl | rfl | rfl <;> cases h <;> decide
  · cases h; decide
  · cases h; decide
  · cases h; decide
  · cases h; decide
  · cases h; decide

theorem escapePoint_plain {c : ℕ} (hq : c ≠ 34) (hb : c ≠ 92) (hc : ¬c < 32) : escapePoint c = [c] := by
  unfold escapePoint
  rw [if_neg hq, if_neg hb, if_neg (by omega), if_neg (by omega), if_neg (by omega), if_neg (by omega),
    if_neg (by omega), if_neg hc]

theorem cost_readUnits {s : Str} {l : List (ℕ × Bool)} {r : Str} (h : readUnits s = some (l, r)) :
    (l.map unitCost).sum + 1 + (utf8Raw r).length ≤ (utf8Raw s).length := by
  fun_induction readUnits s generalizing l r with
  | case1 => cases h
  | case2 r' =>
    cases h
    have := one_le_encodePoint 34
    simp only [List.map_nil, List.sum_nil, length_utf8Raw_cons]
    omega
  | case3 a b c d r' ih =>
    simp only [Option.bind_eq_bind, Option.bind_eq_some_iff, Option.some.injEq, Prod.mk.injEq] at h
    obtain ⟨w, -, x, -, y, -, z, -, ⟨l', r''⟩, hread, rfl, rfl⟩ := h
    have := ih hread
    have h1 := one_le_encodePoint 92
    have h2 := one_le_encodePoint 117
    have h3 := one_le_encodePoint a
    have h4 := one_le_encodePoint b
    have h5 := one_le_encodePoint c
    have h6 := one_le_encodePoint d
    simp only [List.map_cons, List.sum_cons, length_utf8Raw_cons, unitCost, if_true]
    omega
  | case4 c r' hne ih =>
    simp only [Option.bind_eq_bind, Option.bind_eq_some_iff, Option.some.injEq, Prod.mk.injEq] at h
    obtain ⟨p, hp, ⟨l', r''⟩, hread, rfl, rfl⟩ := h
    have := ih hread
    have h1 := one_le_encodePoint 92
    have h2 := one_le_encodePoint c
    have h3 := length_simpleEscape hp
    simp only [List.map_cons, List.sum_cons, length_utf8Raw_cons, unitCost, Bool.false_eq_true, if_false]
    omega
  | case5 c r' hq hu hb hlt => cases h
  | case6 c r' hq hu hb hge ih =>
    simp only [Option.bind_eq_bind, Option.bind_eq_some_iff, Option.some.injEq, Prod.mk.injEq] at h
    obtain ⟨⟨l', r''⟩, hread, rfl, rfl⟩ := h
    have := ih hread
    have hne : c ≠ 92 := by
      intro hc
      cases r' with
      | nil => cases hread
      | cons x r' => exact hb x r' hc rfl
    have hpoint : (utf8Raw [c]).length = (encodePoint c).length := by simp [utf8Raw]
    simp only [List.map_cons, List.sum_cons, unitCost, Bool.false_eq_true, if_false, escapePoint_plain hq hne hge,
      hpoint, length_utf8Raw_cons]
    omega

theorem length_joinSurrogates (l : List (ℕ × Bool)) :
    (utf8Raw ((joinSurrogates l).flatMap escapePoint)).length ≤ (l.map unitCost).sum := by
  have hunit : ∀ u : ℕ × Bool, (utf8Raw (escapePoint u.1)).length ≤ unitCost u := by
    intro u
    unfold unitCost
    split_ifs
    · exact length_escapePoint_le u.1
    · exact le_rfl
  fun_induction joinSurrogates l with
  | case1 => simp [utf8Raw]
  | case2 a f => simpa using hunit (a, f)
  | case3 a f b g r hpair ih =>
    -- twelve bytes for one point
    simp only [Bool.and_eq_true] at hpair
    have := length_escapePoint_le (0x10000 + (a - 0xD800) * 1024 + (b - 0xDC00))
    simp only [List.flatMap_cons, length_utf8Raw_append, List.map_cons, List.sum_cons, unitCost, hpair.1.1.1,
      hpair.1.1.2, if_true] at ih ⊢
    omega
  | case4 a f b g r hpair ih =>
    have := hunit (a, f)
    simp only [List.flatMap_cons, length_utf8Raw_append, List.map_cons, List.sum_cons] at ih this ⊢
    omega

/-- A string between its quotes. -/
theorem length_quote (s : Str) : (utf8Raw (quote s)).length = (utf8Raw (s.flatMap escapePoint)).length + 2 := by
  rw [quote, length_utf8Raw_cons, length_utf8Raw_append]
  simp [utf8Raw, encodePoint]
  omega

/-- A string without a character that JSON escapes. -/
theorem length_quote_plain {s : Str} (h : ∀ c ∈ s, 34 < c ∧ c < 0x80 ∧ c ≠ 92) :
    (utf8Raw (quote s)).length = s.length + 2 := by
  have hescape : s.flatMap escapePoint = s := by
    rw [List.flatMap_congr (g := fun c => [c]), List.flatMap_singleton']
    intro c hc
    have := h c hc
    exact escapePoint_plain (by omega) (by omega) (by omega)
  rw [length_quote, hescape, length_utf8Raw_ascii fun c hc => (h c hc).2.1]

theorem length_readString {s t r : Str} (h : readString s = some (t, r)) :
    (utf8Raw (quote t)).length + (utf8Raw r).length ≤ (utf8Raw s).length + 1 := by
  simp only [readString, Option.map_eq_some_iff, Prod.mk.injEq] at h
  obtain ⟨⟨l, r'⟩, hread, rfl, rfl⟩ := h
  have hcost := cost_readUnits hread
  have hjoin := length_joinSurrogates l
  rw [length_quote]
  dsimp only
  omega

/-! ### Numbers -/

theorem readNatural_split {s d r : Str} (h : readNatural s = some (d, r)) :
    s = d ++ r ∧ d ≠ [] ∧ ∀ c ∈ d, isDigit c = true := by
  fun_cases readNatural s with
  | case1 r' =>
    cases h
    simp [isDigit]
  | case2 c r' hne hc =>
    rw [readNatural.eq_2 _ _ (by omega), if_pos hc] at h
    cases h
    refine ⟨by simp, by simp, fun x hx => ?_⟩
    rcases List.mem_cons.1 hx with rfl | hx
    · simp only [isDigit, Bool.and_eq_true, decide_eq_true_eq]
      omega
    · exact List.mem_takeWhile_imp hx
  | case3 c r' hne hc =>
    rw [readNatural.eq_2 _ _ (by omega), if_neg hc] at h
    cases h
  | case4 => cases h

theorem readFraction_split (s : Str) : (readFraction s).1 ++ (readFraction s).2 = s := by
  fun_cases readFraction s with
  | case1 r h => simp
  | case2 r h => simp
  | case3 r h => simp

theorem readExponent_split (s : Str) : (readExponent s).1 ++ (readExponent s).2 = s := by
  cases s with
  | nil => rfl
  | cons c r =>
    unfold readExponent
    dsimp only
    split_ifs with h
    · have hsign : (r.take 1).filter isSign ++ r.drop ((r.take 1).filter isSign).length = r := by
        cases r with
        | nil => rfl
        | cons x r => by_cases hx : isSign x = true <;> simp [hx]
      simp only [List.cons_append, List.append_assoc, List.takeWhile_append_dropWhile, hsign]
    · rfl

theorem ofDecimal_lt {d : Str} (h : ∀ c ∈ d, isDigit c = true) : ofDecimal d < 10 ^ d.length := by
  have hfold : ∀ (d : Str) (a : ℕ), (∀ c ∈ d, isDigit c = true) →
      d.foldl (fun n c => n * 10 + (c - 48)) a < (a + 1) * 10 ^ d.length := by
    intro d
    induction d with
    | nil => simp
    | cons c d ih =>
      intro a hd
      have hc := hd c (by simp)
      simp only [isDigit, Bool.and_eq_true, decide_eq_true_eq] at hc
      have hstep := ih (a * 10 + (c - 48)) fun x hx => hd x (by simp [hx])
      have hle : a * 10 + (c - 48) + 1 ≤ (a + 1) * 10 := by omega
      rw [List.foldl_cons, List.length_cons, pow_succ']
      calc _ < (a * 10 + (c - 48) + 1) * 10 ^ d.length := hstep
        _ ≤ (a + 1) * 10 * 10 ^ d.length := Nat.mul_le_mul_right _ hle
        _ = (a + 1) * (10 * 10 ^ d.length) := by ring
  simpa [ofDecimal] using hfold d 0 h

theorem length_decimal_le {d : Str} (hne : d ≠ []) (h : ∀ c ∈ d, isDigit c = true) :
    (decimal (ofDecimal d)).length ≤ d.length := by
  have hpos := List.length_pos_iff.2 hne
  unfold decimal
  split_ifs with h0
  · simpa using Nat.succ_le_of_lt hpos
  · simpa using (Nat.digits_length_le_iff (by norm_num) _).2 (ofDecimal_lt h)

/-- The texts that the reader hands to `float`. -/
def FloatLiteral (t : Str) : Prop := ∃ s r, readNumber (fun t => ⟨t, true, none⟩) s = some (.float ⟨t, true, none⟩, r)

section

variable {float : Str → JsonFloat}

theorem readNumber_split {s r : Str} {v : Json} (h : readNumber float s = some (v, r)) : ∃ t, s = t ++ r ∧
    ((∃ n, v = .int n ∧ (intText n).length ≤ t.length) ∨ v = .float (float t) ∧ FloatLiteral t) := by
  have hsign : ∃ sign, (s.take 1).filter (· = 45) = sign ∧ s = sign ++ s.drop sign.length ∧ sign.length ≤ 1 := by
    refine ⟨_, rfl, ?_, ?_⟩
    · cases s with
      | nil => rfl
      | cons c s => by_cases hc : c = 45 <;> simp [hc]
    · exact (List.length_filter_le _ _).trans (by simp)
  obtain ⟨sign, hfilter, hs, hlen⟩ := hsign
  simp only [readNumber, hfilter, Option.bind_eq_bind, Option.bind_eq_some_iff] at h
  obtain ⟨⟨d, r1⟩, hnat, h⟩ := h
  obtain ⟨hd, hne, hdigits⟩ := readNatural_split hnat
  have hfrac := readFraction_split r1
  have hexp := readExponent_split (readFraction r1).2
  have hdec := length_decimal_le hne hdigits
  by_cases hint : (readFraction r1).1 = [] ∧ (readExponent (readFraction r1).2).1 = []
  · rw [if_pos hint] at h
    simp only [Option.some.injEq, Prod.mk.injEq] at h
    obtain ⟨rfl, rfl⟩ := h
    rw [hint.1, List.nil_append] at hfrac
    rw [hint.2, List.nil_append] at hexp
    refine ⟨sign ++ d, ?_, .inl ⟨_, rfl, ?_⟩⟩
    · rw [hexp, hfrac, List.append_assoc, ← hd]
      exact hs
    · rw [List.length_append]
      by_cases hnil : sign = []
      · rw [if_pos hnil, intText, if_neg (by omega), Int.natAbs_natCast]
        omega
      · have hpos := List.length_pos_iff.2 hnil
        rw [if_neg hnil, intText, Int.natAbs_neg, Int.natAbs_natCast]
        split_ifs
        · rw [List.length_cons]
          omega
        · omega
  · rw [if_neg hint] at h
    simp only [Option.some.injEq, Prod.mk.injEq] at h
    obtain ⟨rfl, rfl⟩ := h
    refine ⟨sign ++ d ++ (readFraction r1).1 ++ (readExponent (readFraction r1).2).1, ?_,
      .inr ⟨rfl, s, (readExponent (readFraction r1).2).2, ?_⟩⟩
    · rw [List.append_assoc, hexp, List.append_assoc, hfrac, List.append_assoc, ← hd]
      exact hs
    · simp only [readNumber, hfilter, hnat, Option.bind_eq_bind, Option.bind_some, if_neg hint]

end

/-! ### Values -/

namespace Json

section

variable (weight : JsonFloat → ℕ)

mutual

/-- The bytes of a value's text. -/
def size : Json → ℕ
  | .null => 4
  | .bool true => 4
  | .bool false => 5
  | .int n => (intText n).length
  | .float f => weight f
  | .str s => (utf8Raw (quote s)).length
  | .arr l => max 2 (sizeItems l)
  | .obj m => max 2 (sizeMembers m)

/-- The items, each with the comma or the bracket after it, and the bracket before them. -/
def sizeItems : List Json → ℕ
  | [] => 1
  | v :: l => size v + 1 + sizeItems l

def sizeMembers : List (Str × Json) → ℕ
  | [] => 1
  | (k, v) :: m => (utf8Raw (quote k)).length + 1 + size v + 1 + sizeMembers m

end

end

/-- A float weighs as much as its text. -/
def reprWeight (f : JsonFloat) : ℕ := (utf8Raw f.repr).length

theorem one_le_sizeItems (weight : JsonFloat → ℕ) (l : List Json) : 1 ≤ sizeItems weight l := by
  cases l with
  | nil => exact le_rfl
  | cons v l =>
    rw [sizeItems]
    omega

mutual

theorem length_text : ∀ v : Json, (utf8Raw (text v)).length = size reprWeight v
  | .null => rfl
  | .bool true => rfl
  | .bool false => rfl
  | .int n => length_utf8Raw_ascii (intText_lt n)
  | .float f => rfl
  | .str s => rfl
  | .arr [] => rfl
  | .arr (v :: l) => by
    have hv := length_text v
    have hl := length_textItems l
    have hone := one_le_sizeItems reprWeight l
    have hb : (encodePoint 91).length = 1 := rfl
    simp only [text, length_utf8Raw_cons, length_utf8Raw_append, hb, size, sizeItems] at hv hl ⊢
    omega
  | .obj [] => rfl
  | .obj ((k, v) :: m) => by
    have hv := length_text v
    have hm := length_textMembers m
    have hb : (encodePoint 123).length = 1 := rfl
    have hcolon : (encodePoint 58).length = 1 := rfl
    simp only [text, length_utf8Raw_cons, length_utf8Raw_append, hb, hcolon, size, sizeMembers] at hv hm ⊢
    omega

theorem length_textItems : ∀ l : List Json, (utf8Raw (textItems l)).length = sizeItems reprWeight l
  | [] => rfl
  | v :: l => by
    have hv := length_text v
    have hl := length_textItems l
    have hb : (encodePoint 44).length = 1 := rfl
    simp only [textItems, length_utf8Raw_cons, length_utf8Raw_append, hb, sizeItems] at hv hl ⊢
    omega

theorem length_textMembers : ∀ m : List (Str × Json), (utf8Raw (textMembers m)).length = sizeMembers reprWeight m
  | [] => rfl
  | (k, v) :: m => by
    have hv := length_text v
    have hm := length_textMembers m
    have hb : (encodePoint 44).length = 1 := rfl
    have hcolon : (encodePoint 58).length = 1 := rfl
    simp only [textMembers, length_utf8Raw_cons, length_utf8Raw_append, hb, hcolon, sizeMembers] at hv hm ⊢
    omega

end

section

variable {weight : JsonFloat → ℕ}

/-- The members in any order. -/
theorem sizeMembers_eq_sum (m : List (Str × Json)) :
    sizeMembers weight m = (m.map fun p => (utf8Raw (quote p.1)).length + size weight p.2 + 2).sum + 1 := by
  induction m with
  | nil => rfl
  | cons p m ih =>
    rw [sizeMembers, ih, List.map_cons, List.sum_cons]
    omega

theorem sizeMembers_perm {m m' : List (Str × Json)} (h : m.Perm m') : sizeMembers weight m = sizeMembers weight m' := by
  rw [sizeMembers_eq_sum, sizeMembers_eq_sum, (h.map _).sum_eq]

mutual

theorem size_sortKeys : ∀ v : Json, size weight (sortKeys v) = size weight v
  | .null => rfl
  | .bool _ => rfl
  | .int _ => rfl
  | .float _ => rfl
  | .str _ => rfl
  | .arr l => by rw [sortKeys, size, size, sizeItems_sortItems l]
  | .obj m => by rw [sortKeys, size, size, sizeMembers_perm (List.perm_insertionSort _ _), sizeMembers_sortMembers m]

theorem sizeItems_sortItems : ∀ l : List Json, sizeItems weight (sortItems l) = sizeItems weight l
  | [] => rfl
  | v :: l => by rw [sortItems, sizeItems, sizeItems, size_sortKeys v, sizeItems_sortItems l]

theorem sizeMembers_sortMembers : ∀ m : List (Str × Json), sizeMembers weight (sortMembers m) = sizeMembers weight m
  | [] => rfl
  | (k, v) :: m => by rw [sortMembers, sizeMembers, sizeMembers, size_sortKeys v, sizeMembers_sortMembers m]

end

theorem length_dumps {v : Json} {b : Bytes} (h : dumps v = some b) : b.length = size reprWeight v := by
  unfold dumps at h
  split_ifs at h
  obtain ⟨-, rfl⟩ := utf8_eq_some.1 h
  rw [length_text, size_sortKeys]

/-! ### Reading -/

section

variable (good : JsonFloat → Prop)

mutual

/-- Every float of the value is `good`. -/
def Floats : Json → Prop
  | .float f => good f
  | .arr l => FloatsItems l
  | .obj m => FloatsMembers m
  | _ => True

def FloatsItems : List Json → Prop
  | [] => True
  | v :: l => Floats v ∧ FloatsItems l

def FloatsMembers : List (Str × Json) → Prop
  | [] => True
  | (_, v) :: m => Floats v ∧ FloatsMembers m

end

theorem floatsMembers_iff {m : List (Str × Json)} : FloatsMembers good m ↔ ∀ p ∈ m, Floats good p.2 := by
  induction m with
  | nil => simp [FloatsMembers]
  | cons p m ih => simp [FloatsMembers, ih]

theorem floatsMembers_dictOf {l : List (Str × Json)} (h : FloatsMembers good l) : FloatsMembers good (dictOf l) := by
  have hset : ∀ (m : List (Str × Json)) (k : Str) (v : Json), FloatsMembers good m → Floats good v →
      FloatsMembers good (setItem m k v) := by
    intro m k v hm hv
    induction m with
    | nil => exact ⟨hv, trivial⟩
    | cons p m ih =>
      unfold setItem
      split_ifs
      · exact ⟨hv, hm.2⟩
      · exact ⟨hm.1, ih hm.2⟩
  have hfold : ∀ l d : List (Str × Json), FloatsMembers good l → FloatsMembers good d →
      FloatsMembers good (l.foldl (fun d p => setItem d p.1 p.2) d) := by
    intro l
    induction l with
    | nil => exact fun _ _ hd => hd
    | cons p l ih => exact fun d hl hd => ih _ hl.2 (hset d p.1 p.2 hd hl.1)
  exact hfold l [] h trivial

end

theorem sizeMembers_setItem (weight : JsonFloat → ℕ) (m : List (Str × Json)) (k : Str) (v : Json) :
    sizeMembers weight (setItem m k v) ≤ (utf8Raw (quote k)).length + 1 + size weight v + 1 + sizeMembers weight m := by
  induction m with
  | nil => rfl
  | cons p m ih =>
    unfold setItem
    split_ifs
    · simp only [sizeMembers]
      omega
    · simp only [sizeMembers]
      omega

theorem sizeMembers_dictOf (weight : JsonFloat → ℕ) (l : List (Str × Json)) :
    sizeMembers weight (dictOf l) ≤ sizeMembers weight l := by
  have hfold : ∀ (l d : List (Str × Json)), sizeMembers weight (l.foldl (fun d p => setItem d p.1 p.2) d) + 1 ≤
      sizeMembers weight d + sizeMembers weight l := by
    intro l
    induction l with
    | nil => exact fun _ => le_rfl
    | cons p l ih =>
      intro d
      have hstep := ih (setItem d p.1 p.2)
      have hset := sizeMembers_setItem weight d p.1 p.2
      rw [List.foldl_cons, sizeMembers]
      omega
  have := hfold l []
  rw [sizeMembers] at this
  unfold dictOf
  omega

theorem length_skipSpace (s : Str) : (utf8Raw (skipSpace s)).length ≤ (utf8Raw s).length := by
  have hsplit : s.takeWhile isSpace ++ skipSpace s = s := List.takeWhile_append_dropWhile
  have := length_utf8Raw_append (s.takeWhile isSpace) (skipSpace s)
  rw [hsplit] at this
  omega

/-- What `float` makes of a literal weighs no more than the literal and is `good`; so are the constants. -/
structure Weighs (float : Str → JsonFloat) (weight : JsonFloat → ℕ) (good : JsonFloat → Prop) : Prop where
  literal : ∀ {t}, FloatLiteral t → weight (float t) ≤ t.length ∧ good (float t)
  constant : ∀ s, weight ⟨s, false, none⟩ ≤ 3 ∧ good ⟨s, false, none⟩

variable {float : Str → JsonFloat} {good : JsonFloat → Prop}

theorem length_drop {s : Str} {k : ℕ} {w : String} (h : s.take k = DecentWallet.str w) :
    (DecentWallet.str w).length + (utf8Raw (s.drop k)).length ≤ (utf8Raw s).length := by
  have hle := length_le_utf8Raw (s.take k)
  have happend := length_utf8Raw_append (s.take k) (s.drop k)
  rw [List.take_append_drop] at happend
  rw [h] at hle
  rw [h] at happend
  omega

theorem size_readScalar (hw : Weighs float weight good) {s r : Str} {v : Json} (h : readScalar float s = some (v, r)) :
    size weight v + (utf8Raw r).length ≤ (utf8Raw s).length ∧ Floats good v := by
  have hconst : ∀ {k : ℕ} {w : String} (x : Str), s.take k = DecentWallet.str w → 3 ≤ (DecentWallet.str w).length →
      size weight (.float ⟨x, false, none⟩) + (utf8Raw (s.drop k)).length ≤ (utf8Raw s).length := by
    intro k w x hs hlen
    have := length_drop hs
    have := (hw.constant x).1
    rw [size]
    omega
  unfold readScalar at h
  split_ifs at h with h1 h2 h3 h4 h5 h6
  · cases h
    exact ⟨length_drop h1, trivial⟩
  · cases h
    exact ⟨length_drop h2, trivial⟩
  · cases h
    exact ⟨length_drop h3, trivial⟩
  · cases h
    exact ⟨hconst _ h4 (by decide), (hw.constant _).2⟩
  · cases h
    exact ⟨hconst _ h5 (by decide), (hw.constant _).2⟩
  · cases h
    exact ⟨hconst _ h6 (by decide), (hw.constant _).2⟩
  · obtain ⟨t, rfl, hv⟩ := readNumber_split h
    have hle := length_le_utf8Raw t
    rw [length_utf8Raw_append]
    rcases hv with ⟨n, rfl, hn⟩ | ⟨rfl, hlit⟩
    · refine ⟨?_, trivial⟩
      rw [size]
      omega
    · have := (hw.literal hlit).1
      refine ⟨?_, (hw.literal hlit).2⟩
      rw [size]
      omega

theorem length_lt_cons (c : ℕ) (s : Str) : (utf8Raw s).length + 1 ≤ (utf8Raw (c :: s)).length := by
  have := one_le_encodePoint c
  rw [length_utf8Raw_cons]
  omega

/-- Spaces, and the character after them. -/
theorem length_skipSpace_cons {s t : Str} {c : ℕ} (h : skipSpace s = c :: t) :
    (utf8Raw t).length + 1 ≤ (utf8Raw s).length := by
  have := length_skipSpace s
  rw [h] at this
  exact (length_lt_cons c t).trans this

/-- What is read with `n` levels is no longer than its text, and has good floats only. -/
structure Shrinks (float : Str → JsonFloat) (weight : JsonFloat → ℕ) (good : JsonFloat → Prop) (n : ℕ) : Prop where
  value : ∀ {s v r}, readJson float n s = some (v, r) →
    size weight v + (utf8Raw r).length ≤ (utf8Raw s).length ∧ Floats good v
  items : ∀ {s l r}, readItems float n s = some (l, r) →
    max 2 (sizeItems weight l) + (utf8Raw r).length ≤ (utf8Raw s).length + 1 ∧ FloatsItems good l
  members : ∀ {s m r}, readMembers float n s = some (m, r) →
    max 2 (sizeMembers weight m) + (utf8Raw r).length ≤ (utf8Raw s).length + 1 ∧ FloatsMembers good m

theorem size_readJson_succ (hw : Weighs float weight good) {n : ℕ} (ih : Shrinks float weight good n) {s r : Str}
    {v : Json} (h : readJson float (n + 1) s = some (v, r)) :
    size weight v + (utf8Raw r).length ≤ (utf8Raw s).length ∧ Floats good v := by
  rw [readJson.eq_def] at h
  split at h
  · cases h
  · -- a string
    rename_i t hfuel
    simp only [Option.map_eq_some_iff, Prod.mk.injEq] at h
    obtain ⟨⟨x, r'⟩, hx, rfl, rfl⟩ := h
    have := length_readString hx
    have := length_lt_cons 34 t
    refine ⟨?_, trivial⟩
    simp only [size]
    omega
  · -- an array
    rename_i k t hfuel
    cases hfuel
    have hopen := length_lt_cons 91 t
    split at h
    · rename_i r' hr'
      cases h
      have := length_skipSpace_cons hr'
      refine ⟨?_, trivial⟩
      simp only [size, sizeItems]
      omega
    · simp only [Option.map_eq_some_iff, Prod.mk.injEq] at h
      obtain ⟨⟨l, r'⟩, hl, rfl, rfl⟩ := h
      obtain ⟨hlen, hfloats⟩ := ih.items hl
      have := length_skipSpace t
      refine ⟨?_, hfloats⟩
      simp only [size]
      omega
  · -- an object
    rename_i k t hfuel
    cases hfuel
    have hopen := length_lt_cons 123 t
    split at h
    · rename_i r' hr'
      cases h
      have := length_skipSpace_cons hr'
      refine ⟨?_, trivial⟩
      simp only [size, sizeMembers]
      omega
    · simp only [Option.map_eq_some_iff, Prod.mk.injEq] at h
      obtain ⟨⟨m, r'⟩, hm, rfl, rfl⟩ := h
      obtain ⟨hlen, hfloats⟩ := ih.members hm
      have := length_skipSpace t
      have := sizeMembers_dictOf weight m
      refine ⟨?_, floatsMembers_dictOf good hfloats⟩
      simp only [size]
      omega
  · exact size_readScalar hw h

theorem size_readItems_succ {n : ℕ} (ih : Shrinks float weight good n) {s r : Str} {l : List Json}
    (h : readItems float (n + 1) s = some (l, r)) :
    max 2 (sizeItems weight l) + (utf8Raw r).length ≤ (utf8Raw s).length + 1 ∧ FloatsItems good l := by
  simp only [readItems, Option.bind_eq_bind, Option.bind_eq_some_iff] at h
  obtain ⟨⟨v, r1⟩, hv, h⟩ := h
  obtain ⟨hsize, hfloat⟩ := ih.value hv
  dsimp only at h
  split at h
  · rename_i r2 hr2
    simp only [Option.bind_eq_some_iff, Option.some.injEq, Prod.mk.injEq] at h
    obtain ⟨⟨l', r3⟩, hl, rfl, rfl⟩ := h
    obtain ⟨hlen, hfloats⟩ := ih.items hl
    have := length_skipSpace r2
    have := length_skipSpace_cons hr2
    refine ⟨?_, hfloat, hfloats⟩
    simp only [sizeItems]
    omega
  · rename_i r2 hr2
    cases h
    have := length_skipSpace_cons hr2
    refine ⟨?_, hfloat, trivial⟩
    simp only [sizeItems]
    omega
  · cases h

theorem size_readMembers_succ {n : ℕ} (ih : Shrinks float weight good n) {s r : Str} {m : List (Str × Json)}
    (h : readMembers float (n + 1) s = some (m, r)) :
    max 2 (sizeMembers weight m) + (utf8Raw r).length ≤ (utf8Raw s).length + 1 ∧ FloatsMembers good m := by
  rw [readMembers.eq_def] at h
  split at h
  · rename_i k t hfuel
    cases hfuel
    have hopen := length_lt_cons 34 t
    simp only [Option.bind_eq_bind, Option.bind_eq_some_iff] at h
    obtain ⟨⟨x, r1⟩, hx, h⟩ := h
    have hkey := length_readString hx
    dsimp only at h
    split at h
    · rename_i r2 hr2
      have hcolon := length_skipSpace_cons hr2
      simp only [Option.bind_eq_some_iff] at h
      obtain ⟨⟨v, r3⟩, hv, h⟩ := h
      obtain ⟨hsize, hfloat⟩ := ih.value hv
      have hspace := length_skipSpace r2
      dsimp only at h
      split at h
      · rename_i r4 hr4
        simp only [Option.bind_eq_some_iff, Option.some.injEq, Prod.mk.injEq] at h
        obtain ⟨⟨m', r5⟩, hm, rfl, rfl⟩ := h
        obtain ⟨hlen, hfloats⟩ := ih.members hm
        have := length_skipSpace r4
        have := length_skipSpace_cons hr4
        refine ⟨?_, hfloat, hfloats⟩
        simp only [sizeMembers]
        omega
      · rename_i r4 hr4
        cases h
        have := length_skipSpace_cons hr4
        refine ⟨?_, hfloat, trivial⟩
        simp only [sizeMembers]
        omega
      · cases h
    · cases h
  · cases h

theorem shrinks (hw : Weighs float weight good) (n : ℕ) : Shrinks float weight good n := by
  induction n with
  | zero =>
    exact ⟨fun h => by simp [readJson] at h, fun h => by simp [readItems] at h, fun h => by simp [readMembers] at h⟩
  | succ n ih => exact ⟨size_readJson_succ hw ih, size_readItems_succ ih, size_readMembers_succ ih⟩

/-- What is read takes no more bytes when it is written again. -/
theorem size_loads (hw : Weighs float weight good) {s : Str} {v : Json} (h : loads float s = some v) :
    size weight v ≤ (utf8Raw s).length ∧ Floats good v := by
  simp only [loads, Option.bind_eq_bind, Option.bind_eq_some_iff] at h
  obtain ⟨⟨w, r⟩, hread, h⟩ := h
  split_ifs at h
  obtain rfl : w = v := Option.some.inj h
  obtain ⟨hsize, hfloats⟩ := (shrinks hw _).value hread
  have hskip := length_skipSpace s
  exact ⟨by omega, hfloats⟩

end

end Json

end DecentWallet
