import DecentWallet.Lib.Base64

/-! Base64 with the URL alphabet and without padding. Like the decoder with padding, this one does not look at the
unused bits of the last character. -/

namespace DecentWallet

def urlChar (c : ℕ) : ℕ := if c = 43 then 45 else if c = 47 then 95 else c

def plainChar (c : ℕ) : ℕ := if c = 45 then 43 else if c = 95 then 47 else c

/-- `[A-Za-z0-9_-]`. -/
def isUrlChar (c : ℕ) : Bool :=
  (65 ≤ c && c ≤ 90) || (97 ≤ c && c ≤ 122) || (48 ≤ c && c ≤ 57) || c = 95 || c = 45

/-- The padding that was left out of a text of `n` characters. -/
def missingPad (n : ℕ) : Str := List.replicate ((4 - n % 4) % 4) padChar

def stripPad (s : Str) : Str := s.filter (· ≠ padChar)

def base64UrlEncode (b : Bytes) : Str := (stripPad (base64Encode b)).map urlChar

/-- One character is not enough for a last group. -/
def base64UrlDecode (s : Str) : Option Bytes :=
  if s.all isUrlChar = false ∨ s.length % 4 = 1 then none
  else decodeGroups (s.map plainChar ++ missingPad s.length)

/-! ### The round trip -/

theorem url_sextetChar (n : ℕ) :
    isUrlChar (urlChar (sextetChar n)) = true ∧ plainChar (urlChar (sextetChar n)) = sextetChar n := by
  by_cases hn : n < 64
  · revert n; decide
  · have : sextetChar n = 47 := by unfold sextetChar; rw [if_neg, if_neg, if_neg, if_neg] <;> omega
    rw [this]
    decide

theorem forall_stripPad {p : ℕ → Prop} (hs : ∀ n, p (sextetChar n)) (b : Bytes) :
    ∀ c ∈ stripPad (base64Encode b), p c := by
  intro c hc
  obtain ⟨hc, hpad⟩ := List.mem_filter.1 hc
  exact forall_base64Encode (p := fun c => c ≠ padChar → p c) (fun n _ => hs n) (fun h => absurd rfl h) b c hc
    (by simpa using hpad)

theorem base64UrlEncode_url (b : Bytes) : (base64UrlEncode b).all isUrlChar = true := by
  rw [List.all_eq_true]
  intro c hc
  obtain ⟨d, hd, rfl⟩ := List.mem_map.1 hc
  exact forall_stripPad (p := fun c => isUrlChar (urlChar c) = true) (fun n => (url_sextetChar n).1) b d hd

theorem plainChar_base64UrlEncode (b : Bytes) : (base64UrlEncode b).map plainChar = stripPad (base64Encode b) := by
  rw [base64UrlEncode, List.map_map]
  refine (List.map_congr_left fun c hc => ?_).trans (List.map_id _)
  exact forall_stripPad (p := fun c => plainChar (urlChar c) = c) (fun n => (url_sextetChar n).2) b c hc

theorem stripPad_sextet {n : ℕ} (h : n < 64) (s : Str) : stripPad (sextetChar n :: s) = sextetChar n :: stripPad s :=
  List.filter_cons_of_pos (by simpa using sextetChar_ne_padChar h)

theorem stripPad_pad (s : Str) : stripPad (padChar :: s) = stripPad s := List.filter_cons_of_neg (by simp)

/-- Only the last group has padding, as much as the length of what is before it asks for. -/
theorem stripPad_base64Encode (b : Bytes) :
    stripPad (base64Encode b) ++ missingPad (stripPad (base64Encode b)).length = base64Encode b ∧
      (stripPad (base64Encode b)).length = (b.length * 4 + 2) / 3 := by
  have hnil : stripPad [] = [] := rfl
  fun_induction base64Encode b with
  | case1 => simp [hnil, missingPad]
  | case2 a =>
    have ha := a.toNat_lt
    rw [stripPad_sextet (by omega), stripPad_sextet (by omega), stripPad_pad, stripPad_pad, hnil]
    simp [missingPad, List.replicate]
  | case3 a b =>
    have ha := a.toNat_lt
    have hb := b.toNat_lt
    rw [stripPad_sextet (by omega), stripPad_sextet (by omega), stripPad_sextet (by omega), stripPad_pad, hnil]
    simp [missingPad]
  | case4 a b c r ih =>
    have ha := a.toNat_lt
    have hb := b.toNat_lt
    have hc := c.toNat_lt
    obtain ⟨ih1, ih2⟩ := ih
    have hpad : missingPad ((stripPad (base64Encode r)).length + 1 + 1 + 1 + 1) =
        missingPad (stripPad (base64Encode r)).length := by
      unfold missingPad
      congr 1
      omega
    rw [stripPad_sextet (by omega), stripPad_sextet (by omega), stripPad_sextet (by omega), stripPad_sextet (by omega)]
    simp only [List.length_cons, List.cons_append]
    rw [hpad, ih1, ih2]
    refine ⟨rfl, by omega⟩

theorem length_base64UrlEncode (b : Bytes) : (base64UrlEncode b).length = (b.length * 4 + 2) / 3 := by
  rw [base64UrlEncode, List.length_map, (stripPad_base64Encode b).2]

theorem base64UrlDecode_encode (b : Bytes) : base64UrlDecode (base64UrlEncode b) = some b := by
  have hlen := length_base64UrlEncode b
  have hstrip : (base64UrlEncode b).length = (stripPad (base64Encode b)).length := List.length_map _
  have hgroup : ¬((base64UrlEncode b).all isUrlChar = false ∨ (base64UrlEncode b).length % 4 = 1) := by
    rw [base64UrlEncode_url, hlen]
    rintro (h | h)
    · cases h
    · omega
  rw [base64UrlDecode, if_neg hgroup, plainChar_base64UrlEncode, hstrip, (stripPad_base64Encode b).1,
    decodeGroups_encode]

end DecentWallet
