import DecentWallet.Lib.Json

/-! What is written as JSON is read back: `Json.loads` inverts `Json.text` on values whose objects are in key
order and whose floats are read back, and `Json.dumps` writes those as they are. -/

namespace DecentWallet

/-! ### Strings -/

/-- The points that are written as a `\u` escape. -/
def isEscapedUnit (c : ℕ) : Bool := c < 32 && !(c = 8 || c = 9 || c = 10 || c = 12 || c = 13)

theorem hexValue_hexDigit {n : ℕ} (h : n < 16) : hexValue (hexDigit n) = some n := by
  revert n; decide

theorem readUnits_plain {c : ℕ} (hq : c ≠ 34) (hb : c ≠ 92) (hc : ¬c < 32) (s : Str) :
    readUnits (c :: s) = (readUnits s).map fun p => ((c, false) :: p.1, p.2) := by
  rw [readUnits.eq_def]
  split
  · simp_all
  · simp_all
  · simp_all
  · simp_all
  · rename_i heq
    cases heq
    rw [if_neg hc]
    cases readUnits s <;> rfl

theorem readUnits_escapePoint (c : ℕ) (s : Str) :
    readUnits (escapePoint c ++ s) = (readUnits s).map fun p => ((c, isEscapedUnit c) :: p.1, p.2) := by
  unfold escapePoint
  split_ifs with h1 h2 h3 h4 h5 h6 h7 h8
  all_goals try subst c
  all_goals try (simp only [List.cons_append, List.nil_append, readUnits, simpleEscape]; cases readUnits s <;> rfl)
  · have hx := hexValue_hexDigit (n := c / 16) (by omega)
    have hy := hexValue_hexDigit (n := c % 16) (by omega)
    have hz : hexValue 48 = some 0 := rfl
    have hv : 0 * 4096 + 0 * 256 + c / 16 * 16 + c % 16 = c := by omega
    have hf : isEscapedUnit c = true := by simp [isEscapedUnit, h3, h4, h5, h6, h7, h8]
    simp only [List.cons_append, List.nil_append, readUnits, hx, hy, hz, Option.bind_eq_bind, Option.bind_some, hv, hf]
    cases readUnits s <;> rfl
  · have hf : isEscapedUnit c = false := by simp [isEscapedUnit, h8]
    rw [hf]
    exact readUnits_plain h1 h2 h8 s

theorem readUnits_escaped (s r : Str) :
    readUnits (s.flatMap escapePoint ++ 34 :: r) = some (s.map fun c => (c, isEscapedUnit c), r) := by
  induction s with
  | nil => simp [readUnits]
  | cons c s ih => simp [readUnits_escapePoint, ih]

theorem joinSurrogates_escaped (s : Str) : joinSurrogates (s.map fun c => (c, isEscapedUnit c)) = s := by
  induction s with
  | nil => rfl
  | cons a s ih =>
    cases s with
    | nil => rfl
    | cons b s =>
      -- an escaped point is below 32, so it starts no pair
      have hno : ¬(isEscapedUnit a && isEscapedUnit b && (0xD800 ≤ a && a < 0xDC00) &&
          (0xDC00 ≤ b && b < 0xE000)) = true := by
        simp only [isEscapedUnit, Bool.and_eq_true, decide_eq_true_eq]
        omega
      simp only [List.map_cons, joinSurrogates] at ih ⊢
      rw [if_neg hno, ih]

theorem readString_escaped (s r : Str) : readString (s.flatMap escapePoint ++ 34 :: r) = some (s, r) := by
  simp [readString, readUnits_escaped, joinSurrogates_escaped]

/-! ### Numbers -/

/-- What may come after a value. -/
def Follow (r : Str) : Prop := ∀ c ∈ r.head?, c = 44 ∨ c = 93 ∨ c = 125

theorem follow_nil : Follow [] := by simp [Follow]

theorem follow_cons {c : ℕ} {r : Str} (h : c = 44 ∨ c = 93 ∨ c = 125) : Follow (c :: r) := by
  intro x hx
  cases hx
  exact h

theorem decimal_eq (n : ℕ) :
    ∃ c s, decimal n = c :: s ∧ 48 ≤ c ∧ c ≤ 57 ∧ (∀ d ∈ s, isDigit d = true) ∧ (c = 48 → s = []) := by
  unfold decimal
  split_ifs with h
  · exact ⟨48, [], rfl, by omega, by omega, by simp, fun _ => rfl⟩
  · have hne : Nat.digits 10 n ≠ [] := Nat.digits_ne_nil_iff_ne_zero.2 h
    have hlast := Nat.getLast_digit_ne_zero 10 h
    have hlt : ∀ d ∈ Nat.digits 10 n, d < 10 := fun d hd => Nat.digits_lt_base (by norm_num) hd
    refine ⟨48 + (Nat.digits 10 n).getLast hne, ((Nat.digits 10 n).dropLast.reverse).map (48 + ·),
      ?_, by omega, ?_, ?_, ?_⟩
    · conv_lhs => rw [← List.dropLast_append_getLast hne]
      simp
    · have := hlt _ (List.getLast_mem hne)
      omega
    · intro d hd
      obtain ⟨e, he, rfl⟩ := List.mem_map.1 hd
      have := hlt e (List.mem_of_mem_dropLast (List.mem_reverse.1 he))
      simp only [isDigit, Bool.and_eq_true, decide_eq_true_eq]
      omega
    · intro h0
      omega

theorem ofDecimal_decimal (n : ℕ) : ofDecimal (decimal n) = n := by
  unfold decimal
  split_ifs with h
  · subst h; rfl
  · have hfold : ∀ l : List ℕ, ofDecimal (l.reverse.map (48 + ·)) = Nat.ofDigits 10 l := by
      intro l
      induction l with
      | nil => rfl
      | cons d l ih =>
        simp only [ofDecimal, List.reverse_cons, List.map_append, List.map_cons, List.map_nil, List.foldl_append,
          List.foldl_cons, List.foldl_nil, Nat.ofDigits_cons] at ih ⊢
        rw [ih]
        omega
    rw [hfold, Nat.ofDigits_digits]

/-- What may come after digits. -/
def NoDigit (r : Str) : Prop := ∀ c ∈ r.head?, isDigit c = false

theorem Follow.noDigit {r : Str} (h : Follow r) : NoDigit r := by
  intro c hc
  rcases h c hc with rfl | rfl | rfl <;> rfl

theorem takeWhile_digits {s r : Str} (hs : ∀ d ∈ s, isDigit d = true) (hr : NoDigit r) :
    (s ++ r).takeWhile isDigit = s ∧ (s ++ r).dropWhile isDigit = r := by
  have hr' : r.takeWhile isDigit = [] ∧ r.dropWhile isDigit = r := by
    cases r with
    | nil => simp
    | cons c r => simp [hr c rfl]
  rw [List.takeWhile_append_of_pos hs, List.dropWhile_append_of_pos hs, hr'.1, hr'.2]
  simp

theorem readNatural_decimal (n : ℕ) {r : Str} (hr : NoDigit r) :
    readNatural (decimal n ++ r) = some (decimal n, r) := by
  obtain ⟨c, s, heq, hlo, hhi, hs, hzero⟩ := decimal_eq n
  rw [heq]
  by_cases h : c = 48
  · rw [h, hzero h]; rfl
  · have hd := takeWhile_digits hs hr
    rw [List.cons_append, readNatural.eq_2 _ _ (by omega), if_pos ⟨by omega, hhi⟩, hd.1, hd.2]

theorem readFraction_follow {r : Str} (hr : Follow r) : readFraction r = ([], r) := by
  cases r with
  | nil => rfl
  | cons c r => rcases hr c rfl with rfl | rfl | rfl <;> rfl

theorem readExponent_follow {r : Str} (hr : Follow r) : readExponent r = ([], r) := by
  cases r with
  | nil => rfl
  | cons c r => rcases hr c rfl with rfl | rfl | rfl <;> simp [readExponent]

section

variable (float : Str → JsonFloat)

theorem readNumber_intText (n : ℤ) {r : Str} (hr : Follow r) :
    readNumber float (intText n ++ r) = some (.int n, r) := by
  obtain ⟨c, s, heq, hlo, hhi, -, -⟩ := decimal_eq n.natAbs
  have hnat := readNatural_decimal n.natAbs hr.noDigit
  have hhead : ((decimal n.natAbs ++ r).take 1).filter (· = 45) = [] := by
    rw [heq]
    have : c ≠ 45 := by omega
    simp [this]
  unfold intText readNumber
  split_ifs with hneg
  · simp [hnat, readFraction_follow hr, readExponent_follow hr, ofDecimal_decimal, abs_of_neg hneg]
  · simp [hhead, hnat, readFraction_follow hr, readExponent_follow hr, ofDecimal_decimal, abs_of_nonneg (not_lt.1 hneg)]

/-- A number starts with a digit, or with a minus sign and a digit. -/
def NumberHead : Str → Prop
  | [] => False
  | c :: s => isDigit c = true ∨ c = 45 ∧ ∃ d ∈ s.head?, isDigit d = true

theorem numberHead_decimal (n : ℕ) (s : Str) : NumberHead (decimal n ++ s) := by
  obtain ⟨c, t, heq, hlo, hhi, -, -⟩ := decimal_eq n
  rw [heq]
  exact .inl (by simp [isDigit, hlo, hhi])

theorem numberHead_intText (n : ℤ) : NumberHead (intText n) := by
  obtain ⟨c, t, heq, hlo, hhi, -, -⟩ := decimal_eq n.natAbs
  unfold intText
  split_ifs
  · exact .inr ⟨rfl, c, by rw [heq]; rfl, by simp [isDigit, hlo, hhi]⟩
  · simpa using numberHead_decimal n.natAbs []

theorem NumberHead.cons {s : Str} (h : NumberHead s) : ∃ c t, s = c :: t ∧ 45 ≤ c ∧ c ≤ 57 := by
  cases s with
  | nil => exact h.elim
  | cons c t =>
    refine ⟨c, t, rfl, ?_⟩
    rcases h with h | ⟨rfl, -⟩
    · simp only [isDigit, Bool.and_eq_true, decide_eq_true_eq] at h
      omega
    · omega

/-- No constant starts like a number. -/
theorem readScalar_number {s : Str} (h : NumberHead s) (r : Str) :
    readScalar float (s ++ r) = readNumber float (s ++ r) := by
  obtain ⟨c, t, rfl, hlo, hhi⟩ := h.cons
  have hne : ∀ {k x : ℕ} {u : Str} (w : String), str w = x :: u → c ≠ x → (c :: t ++ r).take k ≠ str w := by
    intro k x u w hw hx h
    rw [hw] at h
    cases k <;> simp [hx] at h
  unfold readScalar
  rw [if_neg (hne (x := 110) "null" rfl (by omega)), if_neg (hne (x := 116) "true" rfl (by omega)),
    if_neg (hne (x := 102) "false" rfl (by omega)), if_neg (hne (x := 78) "NaN" rfl (by omega)),
    if_neg (hne (x := 73) "Infinity" rfl (by omega)), if_neg]
  -- what is left is the minus sign of `-Infinity`, which no digit follows
  rcases h with hd | ⟨rfl, d, hd, hdigit⟩
  · refine hne (x := 45) "-Infinity" rfl ?_
    intro hc
    simp [hc, isDigit] at hd
  · cases t with
    | nil => simp at hd
    | cons x t =>
      cases hd
      intro h
      have hx : d = 73 := by
        have := congrArg (fun l => l.drop 1 |>.head?) h
        simpa [str] using this
      simp [hx, isDigit] at hdigit

/-- A float whose text is read as this float. -/
structure ReadsBack (f : JsonFloat) : Prop where
  finite : f.finite = true
  head : NumberHead f.repr
  read : ∀ {r}, Follow r → readNumber float (f.repr ++ r) = some (.float f, r)

/-- A whole number is written with `.0`. -/
theorem readsBack_whole {n : ℕ} {f : JsonFloat} (hfinite : f.finite = true) (hrepr : f.repr = decimal n ++ str ".0")
    (hf : float f.repr = f) : ReadsBack float f := by
  refine ⟨hfinite, hrepr ▸ numberHead_decimal n _, fun {r} hr => ?_⟩
  obtain ⟨c, s, heq, hlo, hhi, -, -⟩ := decimal_eq n
  have hpoint : NoDigit (46 :: 48 :: r) := by
    intro c hc
    cases hc
    rfl
  have hnat := readNatural_decimal n hpoint
  have hdigits := takeWhile_digits (s := [48]) (by simp [isDigit]) hr.noDigit
  have hfraction : readFraction (46 :: 48 :: r) = ([46, 48], r) := by
    simp only [List.singleton_append] at hdigits
    simp [readFraction, hdigits, isDigit]
  have hhead : ((decimal n ++ 46 :: 48 :: r).take 1).filter (· = 45) = [] := by
    have : c ≠ 45 := by omega
    simp [heq, this]
  have htext : decimal n ++ str ".0" ++ r = decimal n ++ 46 :: 48 :: r := by simp [str]
  have hlit : decimal n ++ [46, 48] = decimal n ++ str ".0" := by simp [str]
  rw [hrepr, htext]
  rw [hrepr] at hf
  simp [readNumber, hhead, hnat, hfraction, readExponent_follow hr, hlit, hf]

end

/-! ### Values -/

namespace Json

mutual

/-- No floats, and every object strictly in key order. -/
def canonical : Json → Bool
  | .float _ => false
  | .arr l => canonicalItems l
  | .obj m => (m.map Prod.fst).Pairwise (· < ·) && canonicalMembers m
  | _ => true

def canonicalItems : List Json → Bool
  | [] => true
  | v :: l => canonical v && canonicalItems l

def canonicalMembers : List (Str × Json) → Bool
  | [] => true
  | (_, v) :: m => canonical v && canonicalMembers m

end

section

variable (float : Str → JsonFloat)

mutual

/-- Every float one that is read back, and every object strictly in key order. -/
def Legible : Json → Prop
  | .float f => ReadsBack float f
  | .arr l => LegibleItems l
  | .obj m => (m.map Prod.fst).Pairwise (· < ·) ∧ LegibleMembers m
  | _ => True

def LegibleItems : List Json → Prop
  | [] => True
  | v :: l => Legible v ∧ LegibleItems l

def LegibleMembers : List (Str × Json) → Prop
  | [] => True
  | (_, v) :: m => Legible v ∧ LegibleMembers m

end

mutual

theorem legible_of_canonical : ∀ v : Json, canonical v = true → Legible float v
  | .null, _ => trivial
  | .bool _, _ => trivial
  | .int _, _ => trivial
  | .float _, h => by simp [canonical] at h
  | .str _, _ => trivial
  | .arr l, h => legibleItems_of_canonical l (by simpa [canonical] using h)
  | .obj m, h => by
    simp only [canonical, Bool.and_eq_true, decide_eq_true_eq] at h
    exact ⟨h.1, legibleMembers_of_canonical m h.2⟩

theorem legibleItems_of_canonical : ∀ l : List Json, canonicalItems l = true → LegibleItems float l
  | [], _ => trivial
  | v :: l, h => by
    simp only [canonicalItems, Bool.and_eq_true] at h
    exact ⟨legible_of_canonical v h.1, legibleItems_of_canonical l h.2⟩

theorem legibleMembers_of_canonical : ∀ m : List (Str × Json), canonicalMembers m = true → LegibleMembers float m
  | [], _ => trivial
  | (_, v) :: m, h => by
    simp only [canonicalMembers, Bool.and_eq_true] at h
    exact ⟨legible_of_canonical v h.1, legibleMembers_of_canonical m h.2⟩

end

end

variable {float : Str → JsonFloat}

theorem isSpace_of_number {c : ℕ} (hlo : 45 ≤ c) : isSpace c = false := by
  simp only [isSpace, Bool.or_eq_false_iff, decide_eq_false_iff_not]
  omega

/-- The first character of a value is neither a space nor a closing bracket. -/
theorem text_head {v : Json} (h : Legible float v) :
    ∃ c s, text v = c :: s ∧ isSpace c = false ∧ c ≠ 93 ∧ c ≠ 125 := by
  cases v with
  | null => exact ⟨110, _, rfl, rfl, by decide, by decide⟩
  | bool b => cases b <;> exact ⟨_, _, rfl, rfl, by decide, by decide⟩
  | int n =>
    obtain ⟨c, s, heq, hlo, hhi⟩ := (numberHead_intText n).cons
    exact ⟨c, s, heq, isSpace_of_number hlo, by omega, by omega⟩
  | float f =>
    obtain ⟨c, s, heq, hlo, hhi⟩ := (ReadsBack.head h).cons
    exact ⟨c, s, heq, isSpace_of_number hlo, by omega, by omega⟩
  | str s => exact ⟨34, _, rfl, rfl, by decide, by decide⟩
  | arr l => cases l <;> exact ⟨91, _, by rw [text], rfl, by decide, by decide⟩
  | obj m =>
    rcases m with _ | ⟨⟨k, v⟩, m⟩ <;> exact ⟨123, _, by rw [text], rfl, by decide, by decide⟩

theorem skipSpace_text {v : Json} (h : Legible float v) (r : Str) : skipSpace (text v ++ r) = text v ++ r := by
  obtain ⟨c, s, heq, hspace, -, -⟩ := text_head h
  simp [heq, skipSpace, hspace]

theorem setItem_append {α : Type} {m : List (Str × α)} {k : Str} (h : k ∉ m.map Prod.fst) (v : α) :
    setItem m k v = m ++ [(k, v)] := by
  induction m with
  | nil => rfl
  | cons p m ih =>
    obtain ⟨k', v'⟩ := p
    simp only [List.map_cons, List.mem_cons, not_or] at h
    simp [setItem, Ne.symm h.1, ih h.2]

theorem dictOf_eq {α : Type} {l : List (Str × α)} (h : (l.map Prod.fst).Pairwise (· < ·)) : dictOf l = l := by
  have hfold : ∀ (l d : List (Str × α)), ((d ++ l).map Prod.fst).Pairwise (· < ·) →
      l.foldl (fun d p => setItem d p.1 p.2) d = d ++ l := by
    intro l
    induction l with
    | nil => simp
    | cons p l ih =>
      intro d hd
      have hnotin : p.1 ∉ d.map Prod.fst := by
        intro hin
        rw [List.map_append, List.map_cons, List.pairwise_append] at hd
        exact lt_irrefl _ (hd.2.2 _ hin _ (by simp))
      rw [List.foldl_cons, setItem_append hnotin, ih _ (by simpa using hd)]
      simp
  unfold dictOf
  simpa using hfold l [] (by simpa using h)

section

variable (float)

theorem follow_textItems (l : List Json) (r : Str) : Follow (textItems l ++ r) := by
  cases l with
  | nil => exact follow_cons (.inr (.inl rfl))
  | cons v l => exact follow_cons (.inl rfl)

theorem follow_textMembers (m : List (Str × Json)) (r : Str) : Follow (textMembers m ++ r) := by
  rcases m with _ | ⟨⟨k, v⟩, m⟩
  · exact follow_cons (.inr (.inr rfl))
  · exact follow_cons (.inl rfl)

theorem readString_quote (s r : Str) : ∃ t, quote s ++ r = 34 :: t ∧ readString t = some (s, r) :=
  ⟨s.flatMap escapePoint ++ 34 :: r, by simp [quote], readString_escaped s r⟩

theorem quote_append_inj {s s' r r' : Str} (h : quote s ++ r = quote s' ++ r') : s = s' := by
  obtain ⟨t, ht, hread⟩ := readString_quote s r
  obtain ⟨t', ht', hread'⟩ := readString_quote s' r'
  cases ht.symm.trans (h.trans ht')
  cases hread.symm.trans hread'
  rfl

theorem readJson_scalar {c : ℕ} {s : Str} (n : ℕ) (h1 : c ≠ 34) (h2 : c ≠ 91) (h3 : c ≠ 123) :
    readJson float (n + 1) (c :: s) = readScalar float (c :: s) := by
  rw [readJson.eq_def]
  split <;> simp_all

theorem readJson_number {s : Str} (h : NumberHead s) (n : ℕ) (r : Str) :
    readJson float (n + 1) (s ++ r) = readNumber float (s ++ r) := by
  rw [← readScalar_number float h]
  obtain ⟨c, t, rfl, hlo, hhi⟩ := h.cons
  exact readJson_scalar float n (by omega) (by omega) (by omega)

mutual

theorem readJson_text : ∀ (v : Json) (n : ℕ) (r : Str), Legible float v → Follow r → 2 * (text v).length < n →
    readJson float n (text v ++ r) = some (v, r)
  | _, 0, _, _, _, hn => by omega
  | .null, n + 1, r, _, _, _ => by simp [text, DecentWallet.str, readJson, readScalar]
  | .bool true, n + 1, r, _, _, _ => by simp [text, DecentWallet.str, readJson, readScalar]
  | .bool false, n + 1, r, _, _, _ => by simp [text, DecentWallet.str, readJson, readScalar]
  | .int i, n + 1, r, _, hr, _ => by
    rw [text, readJson_number float (numberHead_intText i), readNumber_intText float i hr]
  | .float f, n + 1, r, hc, hr, _ => by
    rw [text, readJson_number float (ReadsBack.head hc), ReadsBack.read hc hr]
  | .str s, n + 1, r, _, _, _ => by
    obtain ⟨t, heq, hread⟩ := readString_quote s r
    simp [text, heq, readJson, hread]
  | .arr [], n + 1, r, _, _, _ => by simp [text, readJson, skipSpace, isSpace]
  | .arr (v :: l), n + 1, r, hc, hr, hn => by
    simp only [Legible, LegibleItems] at hc
    simp only [text, List.length_cons, List.length_append] at hn
    have hitems := readItems_text l v n r hc.1 hc.2 hr (fun n r hr hn => readJson_text v n r hc.1 hr hn) (by omega)
    have hspace := skipSpace_text hc.1 (textItems l ++ r)
    obtain ⟨c, s, heq, -, h93, -⟩ := text_head hc.1
    simp only [text, List.cons_append, List.append_assoc, readJson, hspace]
    rw [heq] at hitems ⊢
    rw [List.cons_append] at hitems ⊢
    split
    · simp_all
    · rw [hitems, Option.map_some]
  | .obj [], n + 1, r, _, _, _ => by simp [text, readJson, skipSpace, isSpace]
  | .obj ((k, v) :: m), n + 1, r, hc, hr, hn => by
    simp only [Legible, LegibleMembers] at hc
    simp only [text, List.length_cons, List.length_append] at hn
    have hmembers := readMembers_text m k v n r hc.2.1 hc.2.2 hr (fun n r hr hn => readJson_text v n r hc.2.1 hr hn)
      (by omega)
    have hquote : skipSpace (quote k ++ 58 :: (text v ++ (textMembers m ++ r))) =
        34 :: (k.flatMap escapePoint ++ [34] ++ 58 :: (text v ++ (textMembers m ++ r))) := rfl
    simp only [text, List.cons_append, List.append_assoc, readJson] at hquote ⊢
    rw [hquote]
    simp only [quote, List.cons_append, List.append_assoc] at hmembers
    simp only [hmembers, Option.map_some, dictOf_eq hc.1]

theorem readItems_text : ∀ (l : List Json) (v : Json) (n : ℕ) (r : Str), Legible float v →
    LegibleItems float l → Follow r →
    (∀ (n : ℕ) (r : Str), Follow r → 2 * (text v).length < n → readJson float n (text v ++ r) = some (v, r)) →
    2 * ((text v).length + (textItems l).length) ≤ n →
    readItems float n (text v ++ (textItems l ++ r)) = some (v :: l, r)
  | l, v, 0, _, _, _, _, _, hn => by
    obtain ⟨c, s, heq, -⟩ := text_head ‹_›
    simp [heq] at hn
  | [], v, n + 1, r, _, _, hr, hv, hn => by
    simp only [textItems, List.length_singleton] at hn
    rw [readItems, hv n _ (follow_textItems [] r) (by omega)]
    simp [textItems, skipSpace, isSpace]
  | w :: l, v, n + 1, r, _, hl, hr, hv, hn => by
    simp only [LegibleItems] at hl
    simp only [textItems, List.length_cons, List.length_append] at hn
    have hrest := readItems_text l w n r hl.1 hl.2 hr (fun n r hr hn => readJson_text w n r hl.1 hr hn) (by omega)
    rw [readItems, hv n _ (follow_textItems (w :: l) r) (by omega)]
    have hspace : skipSpace (44 :: (text w ++ (textItems l ++ r))) = 44 :: (text w ++ (textItems l ++ r)) := rfl
    simp only [textItems, List.cons_append, List.append_assoc, Option.bind_eq_bind, Option.bind_some, hspace,
      skipSpace_text hl.1, hrest]

theorem readMembers_text : ∀ (m : List (Str × Json)) (k : Str) (v : Json) (n : ℕ) (r : Str), Legible float v →
    LegibleMembers float m → Follow r →
    (∀ (n : ℕ) (r : Str), Follow r → 2 * (text v).length < n → readJson float n (text v ++ r) = some (v, r)) →
    2 * ((text v).length + (textMembers m).length) ≤ n →
    readMembers float n (quote k ++ 58 :: (text v ++ (textMembers m ++ r))) = some ((k, v) :: m, r)
  | m, k, v, 0, _, _, _, _, _, hn => by
    obtain ⟨c, s, heq, -⟩ := text_head ‹_›
    simp [heq] at hn
  | [], k, v, n + 1, r, hc, _, hr, hv, hn => by
    simp only [textMembers, List.length_singleton] at hn
    obtain ⟨t, heq, hread⟩ := readString_quote k (58 :: (text v ++ (textMembers [] ++ r)))
    have hcolon : ∀ s, skipSpace (58 :: s) = 58 :: s := fun _ => rfl
    rw [heq, readMembers, hread]
    simp only [Option.bind_eq_bind, Option.bind_some, hcolon, skipSpace_text hc,
      hv n _ (follow_textMembers [] r) (by omega)]
    simp [textMembers, skipSpace, isSpace]
  | (k', w) :: m, k, v, n + 1, r, hc, hm, hr, hv, hn => by
    simp only [LegibleMembers] at hm
    simp only [textMembers, List.length_cons, List.length_append] at hn
    have hrest := readMembers_text m k' w n r hm.1 hm.2 hr (fun n r hr hn => readJson_text w n r hm.1 hr hn) (by omega)
    obtain ⟨t, heq, hread⟩ := readString_quote k (58 :: (text v ++ (textMembers ((k', w) :: m) ++ r)))
    have hcolon : ∀ s, skipSpace (58 :: s) = 58 :: s := fun _ => rfl
    have hcomma : ∀ s, skipSpace (44 :: s) = 44 :: s := fun _ => rfl
    have hquote : ∀ s, skipSpace (quote k' ++ s) = quote k' ++ s := fun _ => rfl
    rw [heq, readMembers, hread]
    simp only [Option.bind_eq_bind, Option.bind_some, hcolon, skipSpace_text hc,
      hv n _ (follow_textMembers ((k', w) :: m) r) (by omega)]
    simp only [textMembers, List.cons_append, List.append_assoc, hcomma, hquote]
    rw [hrest, Option.bind_some]

end

theorem loads_text {v : Json} (h : Legible float v) : loads float (text v) = some v := by
  have hskip := skipSpace_text h []
  have hread := readJson_text float v (2 * (text v).length + 1) [] h follow_nil (by omega)
  rw [List.append_nil] at hskip hread
  rw [loads, hskip, hread]
  rfl

end

/-! ### Sorting leaves a legible value alone -/

mutual

theorem sortKeys_eq : ∀ v : Json, Legible float v → sortKeys v = v
  | .null, _ => rfl
  | .bool _, _ => rfl
  | .int _, _ => rfl
  | .float _, _ => rfl
  | .str _, _ => rfl
  | .arr l, h => by rw [sortKeys, sortItems_eq l h]
  | .obj m, h => by
    have hsorted : m.Pairwise fun a b => a.1 ≤ b.1 := (List.pairwise_map.1 h.1).imp le_of_lt
    rw [sortKeys, sortMembers_eq m h.2, hsorted.insertionSort_eq]

theorem sortItems_eq : ∀ l : List Json, LegibleItems float l → sortItems l = l
  | [], _ => rfl
  | v :: l, h => by rw [sortItems, sortKeys_eq v h.1, sortItems_eq l h.2]

theorem sortMembers_eq : ∀ m : List (Str × Json), LegibleMembers float m → sortMembers m = m
  | [], _ => rfl
  | (k, v) :: m, h => by rw [sortMembers, sortKeys_eq v h.1, sortMembers_eq m h.2]

end

mutual

theorem finite_of_legible : ∀ v : Json, Legible float v → finite v = true
  | .null, _ => rfl
  | .bool _, _ => rfl
  | .int _, _ => rfl
  | .float _, h => ReadsBack.finite h
  | .str _, _ => rfl
  | .arr l, h => finiteItems_of_legible l h
  | .obj m, h => finiteMembers_of_legible m h.2

theorem finiteItems_of_legible : ∀ l : List Json, LegibleItems float l → finiteItems l = true
  | [], _ => rfl
  | v :: l, h => by rw [finiteItems, finite_of_legible v h.1, finiteItems_of_legible l h.2, Bool.and_self]

theorem finiteMembers_of_legible : ∀ m : List (Str × Json), LegibleMembers float m → finiteMembers m = true
  | [], _ => rfl
  | (_, v) :: m, h => by rw [finiteMembers, finite_of_legible v h.1, finiteMembers_of_legible m h.2, Bool.and_self]

end

theorem Legible.dumps_eq {v : Json} (h : Legible float v) : dumps v = utf8 (text v) := by
  rw [dumps, if_pos (finite_of_legible v h), sortKeys_eq v h]

/-- What is dumped can be decoded and loaded. -/
theorem Legible.loads_dumps {v : Json} (h : Legible float v) {b : Bytes} (hb : dumps v = some b) :
    (utf8Decode b).bind (loads float) = some v := by
  rw [h.dumps_eq] at hb
  rw [utf8Decode_utf8 hb, Option.bind_some, loads_text float h]

theorem dumps_eq {v : Json} (h : canonical v = true) : dumps v = utf8 (text v) :=
  (legible_of_canonical (fun s => ⟨s, true, none⟩) v h).dumps_eq

theorem loads_dumps (float : Str → JsonFloat) {v : Json} (h : canonical v = true) {b : Bytes}
    (hb : dumps v = some b) : (utf8Decode b).bind (loads float) = some v :=
  (legible_of_canonical float v h).loads_dumps hb

end Json

end DecentWallet
