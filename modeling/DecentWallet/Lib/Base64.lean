import DecentWallet.Lib.Bytes

/-! Base64 with padding. The decoder is the strict mode of `binascii.a2b_base64`: it refuses every
character outside the alphabet, but not the unused bits of the last character, nor padding after
complete groups. -/

namespace DecentWallet

/-- The character of a six-bit group. -/
def sextetChar (n : ℕ) : ℕ :=
  if n < 26 then 65 + n
  else if n < 52 then 97 + (n - 26)
  else if n < 62 then 48 + (n - 52)
  else if n = 62 then 43
  else 47

def charSextet (c : ℕ) : Option ℕ :=
  if 65 ≤ c ∧ c ≤ 90 then some (c - 65)
  else if 97 ≤ c ∧ c ≤ 122 then some (c - 97 + 26)
  else if 48 ≤ c ∧ c ≤ 57 then some (c - 48 + 52)
  else if c = 43 then some 62
  else if c = 47 then some 63
  else none

/-- The padding character. -/
def padChar : ℕ := 61

def base64Encode : Bytes → Str
  | [] => []
  | [a] => [sextetChar (a.toNat / 4), sextetChar (a.toNat % 4 * 16), padChar, padChar]
  | [a, b] =>
    [sextetChar (a.toNat / 4), sextetChar (a.toNat % 4 * 16 + b.toNat / 16), sextetChar (b.toNat % 16 * 4), padChar]
  | a :: b :: c :: r =>
    sextetChar (a.toNat / 4) :: sextetChar (a.toNat % 4 * 16 + b.toNat / 16) ::
      sextetChar (b.toNat % 16 * 4 + c.toNat / 64) :: sextetChar (c.toNat % 64) :: base64Encode r

/-- From the start of a group on. -/
def decodeGroups : Str → Option Bytes
  | [] => some []
  | [w, x, y, z] =>
    if [w, x, y, z].all (· = padChar) then some []
    else if y = padChar ∧ z = padChar then do
      let i ← charSextet w
      let j ← charSextet x
      return [UInt8.ofNat (i * 4 + j / 16)]
    else if z = padChar then do
      let i ← charSextet w
      let j ← charSextet x
      let k ← charSextet y
      return [UInt8.ofNat (i * 4 + j / 16), UInt8.ofNat (j % 16 * 16 + k / 4)]
    else do
      let i ← charSextet w
      let j ← charSextet x
      let k ← charSextet y
      let l ← charSextet z
      return [UInt8.ofNat (i * 4 + j / 16), UInt8.ofNat (j % 16 * 16 + k / 4), UInt8.ofNat (k % 4 * 64 + l)]
  | w :: x :: y :: z :: r =>
    if (w :: x :: y :: z :: r).all (· = padChar) then some []
    else do
      let i ← charSextet w
      let j ← charSextet x
      let k ← charSextet y
      let l ← charSextet z
      let rest ← decodeGroups r
      return UInt8.ofNat (i * 4 + j / 16) :: UInt8.ofNat (j % 16 * 16 + k / 4) :: UInt8.ofNat (k % 4 * 64 + l) :: rest
  | s => if s.all (· = padChar) then some [] else none

/-- `base64.b64decode(s, validate=True)`. -/
def base64Decode (s : Str) : Option Bytes := if s.head? = some padChar then none else decodeGroups s

/-! ### The round trip -/

theorem charSextet_sextetChar {n : ℕ} (h : n < 64) : charSextet (sextetChar n) = some n := by
  revert n; decide

theorem sextetChar_ne_padChar {n : ℕ} (h : n < 64) : sextetChar n ≠ padChar := by
  revert n; decide

theorem ofNat_of_toNat {a : UInt8} {n : ℕ} (h : n = a.toNat) : UInt8.ofNat n = a := by
  rw [h, UInt8.ofNat_toNat]

theorem decodeGroups_cons {w x y z i j k l : ℕ} (hw : charSextet w = some i) (hx : charSextet x = some j)
    (hy : charSextet y = some k) (hz : charSextet z = some l) (hpad : w ≠ padChar) (hpad' : z ≠ padChar) (r : Str) :
    decodeGroups (w :: x :: y :: z :: r) = (decodeGroups r).map fun rest =>
      UInt8.ofNat (i * 4 + j / 16) :: UInt8.ofNat (j % 16 * 16 + k / 4) :: UInt8.ofNat (k % 4 * 64 + l) :: rest := by
  cases r with
  | nil => simp [decodeGroups, hw, hx, hy, hz, hpad, hpad']
  | cons c r =>
    rw [decodeGroups.eq_3 _ _ _ _ _ (by simp)]
    simp [hw, hx, hy, hz, hpad, Option.map_eq_bind]

theorem decodeGroups_encode (b : Bytes) : decodeGroups (base64Encode b) = some b := by
  fun_induction base64Encode b with
  | case1 => rfl
  | case2 a =>
    have ha := a.toNat_lt
    have h1 := charSextet_sextetChar (n := a.toNat / 4) (by omega)
    have h2 := charSextet_sextetChar (n := a.toNat % 4 * 16) (by omega)
    have hne := sextetChar_ne_padChar (n := a.toNat / 4) (by omega)
    simp only [decodeGroups, List.all_cons, hne, decide_false, Bool.false_and, Bool.false_eq_true, if_false, and_self,
      if_true, h1, h2, Option.bind_eq_bind, Option.bind_some, pure]
    rw [ofNat_of_toNat (a := a) (by omega)]
  | case3 a b =>
    have ha := a.toNat_lt
    have hb := b.toNat_lt
    have h1 := charSextet_sextetChar (n := a.toNat / 4) (by omega)
    have h2 := charSextet_sextetChar (n := a.toNat % 4 * 16 + b.toNat / 16) (by omega)
    have h3 := charSextet_sextetChar (n := b.toNat % 16 * 4) (by omega)
    have hne := sextetChar_ne_padChar (n := a.toNat / 4) (by omega)
    have hne' := sextetChar_ne_padChar (n := b.toNat % 16 * 4) (by omega)
    simp only [decodeGroups, List.all_cons, hne, hne', decide_false, Bool.false_and, Bool.false_eq_true, if_false,
      false_and, if_true, h1, h2, h3, Option.bind_eq_bind, Option.bind_some, pure]
    rw [ofNat_of_toNat (a := a) (by omega), ofNat_of_toNat (a := b) (by omega)]
  | case4 a b c r ih =>
    have ha := a.toNat_lt
    have hb := b.toNat_lt
    have hc := c.toNat_lt
    rw [decodeGroups_cons (charSextet_sextetChar (by omega)) (charSextet_sextetChar (by omega))
      (charSextet_sextetChar (by omega)) (charSextet_sextetChar (by omega)) (sextetChar_ne_padChar (by omega))
      (sextetChar_ne_padChar (by omega)), ih, Option.map_some]
    rw [ofNat_of_toNat (a := a) (by omega), ofNat_of_toNat (a := b) (by omega), ofNat_of_toNat (a := c) (by omega)]

theorem base64Decode_encode (b : Bytes) : base64Decode (base64Encode b) = some b := by
  rw [base64Decode, if_neg, decodeGroups_encode]
  fun_cases base64Encode b with
  | case1 => simp
  | case2 a => simpa using sextetChar_ne_padChar (by have := a.toNat_lt; omega)
  | case3 a b => simpa using sextetChar_ne_padChar (by have := a.toNat_lt; omega)
  | case4 a b c r => simpa using sextetChar_ne_padChar (by have := a.toNat_lt; omega)

theorem forall_base64Encode {p : ℕ → Prop} (hs : ∀ n, p (sextetChar n)) (hp : p padChar) (b : Bytes) :
    ∀ c ∈ base64Encode b, p c := by
  fun_induction base64Encode b with
  | case1 => simp
  | case2 a => simp [hs, hp]
  | case3 a b => simp [hs, hp]
  | case4 a b c r ih => simpa [hs] using ih

/-- The encoding is plain ASCII, and no character of it is escaped in JSON. -/
theorem base64Encode_plain (b : Bytes) : ∀ c ∈ base64Encode b, 43 ≤ c ∧ c < 0x80 ∧ c ≠ 92 := by
  refine forall_base64Encode (fun n => ?_) (by decide) b
  unfold sextetChar
  split_ifs <;> omega

theorem base64Encode_lt (b : Bytes) : ∀ c ∈ base64Encode b, c < 0x80 := fun c hc => (base64Encode_plain b c hc).2.1

/-! ### Lengths -/

theorem length_base64Encode (b : Bytes) : (base64Encode b).length = (b.length + 2) / 3 * 4 := by
  fun_induction base64Encode b with
  | case1 => rfl
  | case2 a => simp
  | case3 a b => simp
  | case4 a b c r ih =>
    simp only [List.length_cons, ih]
    omega

/-- Three bytes take a whole group. -/
theorem length_decodeGroups {s : Str} {b : Bytes} (h : decodeGroups s = some b) :
    (b.length + 2) / 3 * 4 ≤ s.length := by
  fun_induction decodeGroups s generalizing b with
  | case1 => cases h; simp
  | case2 w x y z hp => cases h; simp
  | case3 w x y z _ _ =>
    simp only [Option.bind_eq_bind, Option.bind_eq_some_iff, pure, Option.some.injEq] at h
    obtain ⟨i, -, j, -, rfl⟩ := h
    simp
  | case4 w x y _ _ =>
    simp only [Option.bind_eq_bind, Option.bind_eq_some_iff, pure, Option.some.injEq] at h
    obtain ⟨i, -, j, -, k, -, rfl⟩ := h
    simp
  | case5 w x y z _ _ =>
    simp only [Option.bind_eq_bind, Option.bind_eq_some_iff, pure, Option.some.injEq] at h
    obtain ⟨i, -, j, -, k, -, l, -, rfl⟩ := h
    simp
  | case6 w x y z r hr hp => cases h; simp
  | case7 w x y z r hr hp ih =>
    simp only [Option.bind_eq_bind, Option.bind_eq_some_iff, pure, Option.some.injEq] at h
    obtain ⟨i, -, j, -, k, -, l, -, rest, hrest, rfl⟩ := h
    have := ih hrest
    simp only [List.length_cons]
    omega
  | case8 s _ _ hp => cases h; simp
  | case9 s _ _ hp => cases h

/-- Encoding what was decoded does not make it longer. -/
theorem length_encode_decode {s : Str} {b : Bytes} (h : base64Decode s = some b) :
    (base64Encode b).length ≤ s.length := by
  unfold base64Decode at h
  split_ifs at h
  rw [length_base64Encode]
  exact length_decodeGroups h

end DecentWallet
