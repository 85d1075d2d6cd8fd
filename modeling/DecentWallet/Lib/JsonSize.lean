import DecentWallet.Lib.Base64
import DecentWallet.Lib.JsonText

/-! Which JSON values can be written, and a lower bound on the length of the result. -/

namespace DecentWallet

/-! ### Texts -/

/-- No surrogate in the text. -/
def Scalars (s : Str) : Prop := ∀ c ∈ s, isScalar c = true

theorem isScalar_of_lt {c : ℕ} (h : c < 0x80) : isScalar c = true := by
  simp only [isScalar, Bool.or_eq_true, decide_eq_true_eq]
  omega

theorem Scalars.of_lt {s : Str} (h : ∀ c ∈ s, c < 0x80) : Scalars s := fun c hc => isScalar_of_lt (h c hc)

theorem Scalars.append {s t : Str} (hs : Scalars s) (ht : Scalars t) : Scalars (s ++ t) := fun c hc =>
  (List.mem_append.1 hc).elim (hs c) (ht c)

theorem Scalars.cons {c : ℕ} {s : Str} (hc : c < 0x80) (hs : Scalars s) : Scalars (c :: s) := by
  intro d hd
  rcases List.mem_cons.1 hd with rfl | hd
  · exact isScalar_of_lt hc
  · exact hs d hd

theorem scalars_base64 (b : Bytes) : Scalars (base64Encode b) := .of_lt (base64Encode_lt b)

theorem utf8_of_scalars {s : Str} (h : Scalars s) : utf8 s = some (utf8Raw s) :=
  utf8_eq_some.2 ⟨List.all_eq_true.2 h, rfl⟩

theorem length_le_flatMap {α β : Type} {f : α → List β} (hf : ∀ a, f a ≠ []) (l : List α) :
    l.length ≤ (l.flatMap f).length := by
  induction l with
  | nil => simp
  | cons a l ih =>
    have := List.length_pos_iff.2 (hf a)
    simp only [List.flatMap_cons, List.length_append, List.length_cons]
    omega

theorem length_le_utf8Raw (s : Str) : s.length ≤ (utf8Raw s).length := length_le_flatMap encodePoint_ne_nil s

theorem scalars_escapePoint {c : ℕ} (h : isScalar c = true) : Scalars (escapePoint c) := by
  unfold escapePoint
  split_ifs with _ _ _ _ _ _ _ hlt
  · exact .of_lt (by decide)
  · exact .of_lt (by decide)
  · exact .of_lt (by decide)
  · exact .of_lt (by decide)
  · exact .of_lt (by decide)
  · exact .of_lt (by decide)
  · exact .of_lt (by decide)
  · have hdigit : ∀ n < 16, hexDigit n < 0x80 := by decide
    have h1 := hdigit (c / 16) (by omega)
    have h2 := hdigit (c % 16) (by omega)
    exact .of_lt (by simp [h1, h2])
  · simpa [Scalars] using h

theorem scalars_quote {s : Str} (h : Scalars s) : Scalars (quote s) := by
  refine .cons (by decide) (.append (fun c hc => ?_) (.of_lt (by decide)))
  obtain ⟨d, hd, hc⟩ := List.mem_flatMap.1 hc
  exact scalars_escapePoint (h d hd) c hc

theorem length_le_quote (s : Str) : s.length ≤ (quote s).length := by
  have hpoint : ∀ c, escapePoint c ≠ [] := fun c => by unfold escapePoint; split_ifs <;> simp
  have := length_le_flatMap hpoint s
  simp only [quote, List.length_cons, List.length_append]
  omega

theorem decimal_lt (n : ℕ) : ∀ c ∈ decimal n, c < 0x80 := by
  intro c hc
  obtain ⟨x, t, heq, -, hhi, ht, -⟩ := decimal_eq n
  rw [heq] at hc
  rcases List.mem_cons.1 hc with rfl | hc
  · omega
  · have := ht c hc
    simp only [isDigit, Bool.and_eq_true, decide_eq_true_eq] at this
    omega

theorem intText_lt (n : ℤ) : ∀ c ∈ intText n, c < 0x80 := by
  intro c hc
  unfold intText at hc
  split_ifs at hc
  · rcases List.mem_cons.1 hc with rfl | hc
    · decide
    · exact decimal_lt _ c hc
  · exact decimal_lt _ c hc

theorem scalars_intText (n : ℤ) : Scalars (intText n) := .of_lt (intText_lt n)

/-! ### Values -/

namespace Json

mutual

/-- Every string of a value, keys included. -/
def strings : Json → List Str
  | .str s => [s]
  | .arr l => stringsItems l
  | .obj m => stringsMembers m
  | _ => []

def stringsItems : List Json → List Str
  | [] => []
  | v :: l => strings v ++ stringsItems l

def stringsMembers : List (Str × Json) → List Str
  | [] => []
  | (k, v) :: m => k :: (strings v ++ stringsMembers m)

end

mutual

theorem scalars_text : ∀ v : Json, canonical v = true → (∀ s ∈ strings v, Scalars s) → Scalars (text v)
  | .null, _, _ => .of_lt (by decide)
  | .bool true, _, _ => .of_lt (by decide)
  | .bool false, _, _ => .of_lt (by decide)
  | .int n, _, _ => scalars_intText n
  | .float _, hc, _ => by simp [canonical] at hc
  | .str s, _, hs => scalars_quote (hs s (by simp [strings]))
  | .arr [], _, _ => .of_lt (by simp [text])
  | .arr (v :: l), hc, hs => by
    simp only [canonical, canonicalItems, Bool.and_eq_true, strings, stringsItems, List.mem_append] at hc hs
    exact .cons (by decide) ((scalars_text v hc.1 fun s h => hs s (.inl h)).append
      (scalars_textItems l hc.2 fun s h => hs s (.inr h)))
  | .obj [], _, _ => .of_lt (by simp [text])
  | .obj ((k, v) :: m), hc, hs => by
    simp only [canonical, canonicalMembers, Bool.and_eq_true, strings, stringsMembers, List.mem_cons,
      List.mem_append] at hc hs
    exact .cons (by decide) ((scalars_quote (hs k (.inl rfl))).append (.cons (by decide)
      ((scalars_text v hc.2.1 fun s h => hs s (.inr (.inl h))).append
        (scalars_textMembers m hc.2.2 fun s h => hs s (.inr (.inr h))))))

theorem scalars_textItems : ∀ l : List Json, canonicalItems l = true → (∀ s ∈ stringsItems l, Scalars s) →
    Scalars (textItems l)
  | [], _, _ => .of_lt (by simp [textItems])
  | v :: l, hc, hs => by
    simp only [canonicalItems, Bool.and_eq_true, stringsItems, List.mem_append] at hc hs
    exact .cons (by decide) ((scalars_text v hc.1 fun s h => hs s (.inl h)).append
      (scalars_textItems l hc.2 fun s h => hs s (.inr h)))

theorem scalars_textMembers : ∀ m : List (Str × Json), canonicalMembers m = true →
    (∀ s ∈ stringsMembers m, Scalars s) → Scalars (textMembers m)
  | [], _, _ => .of_lt (by simp [textMembers])
  | (k, v) :: m, hc, hs => by
    simp only [canonicalMembers, Bool.and_eq_true, stringsMembers, List.mem_cons, List.mem_append] at hc hs
    exact .cons (by decide) ((scalars_quote (hs k (.inl rfl))).append (.cons (by decide)
      ((scalars_text v hc.1 fun s h => hs s (.inr (.inl h))).append
        (scalars_textMembers m hc.2 fun s h => hs s (.inr (.inr h))))))

end

mutual

theorem length_le_text : ∀ v : Json, ∀ s ∈ strings v, s.length ≤ (text v).length
  | .null, _, h => by simp [strings] at h
  | .bool _, _, h => by simp [strings] at h
  | .int _, _, h => by simp [strings] at h
  | .float _, _, h => by simp [strings] at h
  | .str s, t, h => by
    simp only [strings, List.mem_singleton] at h
    rw [h]
    exact length_le_quote s
  | .arr [], _, h => by simp [strings, stringsItems] at h
  | .arr (v :: l), s, h => by
    simp only [strings, stringsItems, List.mem_append] at h
    simp only [text, List.length_cons, List.length_append]
    rcases h with h | h
    · have := length_le_text v s h
      omega
    · have := length_le_textItems l s h
      omega
  | .obj [], _, h => by simp [strings, stringsMembers] at h
  | .obj ((k, v) :: m), s, h => by
    simp only [strings, stringsMembers, List.mem_cons, List.mem_append] at h
    simp only [text, List.length_cons, List.length_append]
    rcases h with rfl | h | h
    · have := length_le_quote s
      omega
    · have := length_le_text v s h
      omega
    · have := length_le_textMembers m s h
      omega

theorem length_le_textItems : ∀ l : List Json, ∀ s ∈ stringsItems l, s.length ≤ (textItems l).length
  | [], _, h => by simp [stringsItems] at h
  | v :: l, s, h => by
    simp only [stringsItems, List.mem_append] at h
    simp only [textItems, List.length_cons, List.length_append]
    rcases h with h | h
    · have := length_le_text v s h
      omega
    · have := length_le_textItems l s h
      omega

theorem length_le_textMembers : ∀ m : List (Str × Json), ∀ s ∈ stringsMembers m, s.length ≤ (textMembers m).length
  | [], _, h => by simp [stringsMembers] at h
  | (k, v) :: m, s, h => by
    simp only [stringsMembers, List.mem_cons, List.mem_append] at h
    simp only [textMembers, List.length_cons, List.length_append]
    rcases h with rfl | h | h
    · have := length_le_quote s
      omega
    · have := length_le_text v s h
      omega
    · have := length_le_textMembers m s h
      omega

end

/-- A value without floats and surrogates is written, at no less than the length of each of its strings. -/
theorem dumps_of_scalars {v : Json} (hc : canonical v = true) (hs : ∀ s ∈ strings v, Scalars s) :
    ∃ b, dumps v = some b ∧ ∀ s ∈ strings v, s.length ≤ b.length := by
  refine ⟨_, (dumps_eq hc).trans (utf8_of_scalars (scalars_text v hc hs)), fun s h => ?_⟩
  exact (length_le_text v s h).trans (length_le_utf8Raw _)

end Json

end DecentWallet
