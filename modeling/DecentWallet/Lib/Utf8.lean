import DecentWallet.Lib.Bytes

/-! UTF-8. Both runtimes encode and decode strictly: a surrogate is refused on the way out, and an
overlong form, a surrogate or a stray tail byte on the way in. -/

namespace DecentWallet

/-- A Unicode scalar value. -/
def isScalar (n : ℕ) : Bool := n < 0xD800 || (0xE000 ≤ n && n < 0x110000)

def encodePoint (n : ℕ) : Bytes :=
  if n < 0x80 then [UInt8.ofNat n]
  else if n < 0x800 then [UInt8.ofNat (0xC0 + n / 64), UInt8.ofNat (0x80 + n % 64)]
  else if n < 0x10000 then
    [UInt8.ofNat (0xE0 + n / 4096), UInt8.ofNat (0x80 + n / 64 % 64), UInt8.ofNat (0x80 + n % 64)]
  else
    [UInt8.ofNat (0xF0 + n / 262144), UInt8.ofNat (0x80 + n / 4096 % 64),
      UInt8.ofNat (0x80 + n / 64 % 64), UInt8.ofNat (0x80 + n % 64)]

/-- `str.encode("utf-8")` where no code point is a surrogate. -/
def utf8Raw (s : Str) : Bytes := s.flatMap encodePoint

/-- `str.encode("utf-8")`. -/
def utf8 (s : Str) : Option Bytes := if s.all isScalar then some (utf8Raw s) else none

def isTail (b : UInt8) : Bool := 0x80 ≤ b.toNat && b.toNat < 0xC0

def tailBits (b : UInt8) : ℕ := b.toNat - 0x80

def decodePoint : Bytes → Option (ℕ × Bytes)
  | [] => none
  | a :: r =>
    if a.toNat < 0x80 then some (a.toNat, r)
    else if 0xC2 ≤ a.toNat && a.toNat < 0xE0 then
      match r with
      | b :: r => if isTail b then some ((a.toNat - 0xC0) * 64 + tailBits b, r) else none
      | _ => none
    else if 0xE0 ≤ a.toNat && a.toNat < 0xF0 then
      match r with
      | b :: c :: r =>
        let n := (a.toNat - 0xE0) * 4096 + tailBits b * 64 + tailBits c
        if isTail b && isTail c && 0x800 ≤ n && isScalar n then some (n, r) else none
      | _ => none
    else if 0xF0 ≤ a.toNat && a.toNat < 0xF5 then
      match r with
      | b :: c :: d :: r =>
        let n := (a.toNat - 0xF0) * 262144 + tailBits b * 4096 + tailBits c * 64 + tailBits d
        if isTail b && isTail c && isTail d && 0x10000 ≤ n && isScalar n then some (n, r) else none
      | _ => none
    else none

def decodePoints : ℕ → Bytes → Option Str
  | _, [] => some []
  | 0, _ :: _ => none
  | n + 1, b@(_ :: _) => do
    let (p, r) ← decodePoint b
    let ps ← decodePoints n r
    return p :: ps

/-- `bytes.decode("utf-8")`; every point takes at least one byte. -/
def utf8Decode (b : Bytes) : Option Str := decodePoints b.length b

theorem tail_of_toNat {b : UInt8} {n : ℕ} (hb : b.toNat = 0x80 + n) (h : n < 64) :
    isTail b = true ∧ tailBits b = n := by
  unfold isTail tailBits
  rw [hb]
  constructor
  · rw [Bool.and_eq_true, decide_eq_true_eq, decide_eq_true_eq]; omega
  · omega

theorem decodePoint_one {a : UInt8} (r : Bytes) (h : a.toNat < 0x80) :
    decodePoint (a :: r) = some (a.toNat, r) := by
  simp only [decodePoint, if_pos h]

theorem decodePoint_two {a b : UInt8} (r : Bytes) (h1 : 0xC2 ≤ a.toNat) (h2 : a.toNat < 0xE0)
    (hb : isTail b = true) :
    decodePoint (a :: b :: r) = some ((a.toNat - 0xC0) * 64 + tailBits b, r) := by
  rw [decodePoint]
  rw [if_neg (by omega), if_pos (by simp [h1, h2])]
  simp [hb]

theorem decodePoint_three {a b c : UInt8} {n : ℕ} (r : Bytes) (h1 : 0xE0 ≤ a.toNat) (h2 : a.toNat < 0xF0)
    (hb : isTail b = true) (hc : isTail c = true)
    (hn : (a.toNat - 0xE0) * 4096 + tailBits b * 64 + tailBits c = n) (hl : 0x800 ≤ n)
    (hs : isScalar n = true) : decodePoint (a :: b :: c :: r) = some (n, r) := by
  rw [decodePoint]
  rw [if_neg (by omega), if_neg (by simp; omega), if_pos (by simp [h1, h2])]
  simp [hb, hc, hn, hl, hs]

theorem decodePoint_four {a b c d : UInt8} {n : ℕ} (r : Bytes) (h1 : 0xF0 ≤ a.toNat) (h2 : a.toNat < 0xF5)
    (hb : isTail b = true) (hc : isTail c = true) (hd : isTail d = true)
    (hn : (a.toNat - 0xF0) * 262144 + tailBits b * 4096 + tailBits c * 64 + tailBits d = n)
    (hl : 0x10000 ≤ n) (hs : isScalar n = true) :
    decodePoint (a :: b :: c :: d :: r) = some (n, r) := by
  rw [decodePoint]
  rw [if_neg (by omega), if_neg (by simp; omega), if_neg (by simp; omega), if_pos (by simp [h1, h2])]
  simp [hb, hc, hd, hn, hl, hs]

theorem decodePoint_encodePoint {n : ℕ} (h : isScalar n = true) (r : Bytes) :
    decodePoint (encodePoint n ++ r) = some (n, r) := by
  have hn : n < 0x110000 := by
    simp only [isScalar, Bool.or_eq_true, decide_eq_true_eq, Bool.and_eq_true] at h; omega
  have ht : ∀ m, m < 64 → isTail (UInt8.ofNat (0x80 + m)) = true ∧ tailBits (UInt8.ofNat (0x80 + m)) = m :=
    fun m hm => tail_of_toNat (toNat_ofNat_lt (by omega)) hm
  obtain ⟨t0, v0⟩ := ht (n % 64) (by omega)
  obtain ⟨t1, v1⟩ := ht (n / 64 % 64) (by omega)
  obtain ⟨t2, v2⟩ := ht (n / 4096 % 64) (by omega)
  unfold encodePoint
  split_ifs with h1 h2 h3
  · have ha : (UInt8.ofNat n).toNat = n := toNat_ofNat_lt (by omega)
    rw [List.singleton_append, decodePoint_one r (by rw [ha]; exact h1), ha]
  · have ha : (UInt8.ofNat (0xC0 + n / 64)).toNat = 0xC0 + n / 64 := toNat_ofNat_lt (by omega)
    have hv : (0xC0 + n / 64 - 0xC0) * 64 + n % 64 = n := by omega
    rw [List.cons_append, List.singleton_append, decodePoint_two r (by omega) (by omega) t0, ha, v0, hv]
  · have ha : (UInt8.ofNat (0xE0 + n / 4096)).toNat = 0xE0 + n / 4096 := toNat_ofNat_lt (by omega)
    exact decodePoint_three r (by omega) (by omega) t1 t0 (by rw [ha, v1, v0]; omega) (by omega) h
  · have ha : (UInt8.ofNat (0xF0 + n / 262144)).toNat = 0xF0 + n / 262144 := toNat_ofNat_lt (by omega)
    exact decodePoint_four r (by omega) (by omega) t2 t1 t0 (by rw [ha, v2, v1, v0]; omega) (by omega) h

theorem encodePoint_ne_nil (n : ℕ) : encodePoint n ≠ [] := by
  unfold encodePoint; split_ifs <;> simp

theorem decodePoints_utf8Raw (s : Str) (h : s.all isScalar = true) :
    ∀ k, (utf8Raw s).length ≤ k → decodePoints k (utf8Raw s) = some s := by
  induction s with
  | nil => intro k _; cases k <;> rfl
  | cons n s ih =>
    intro k hk
    simp only [List.all_cons, Bool.and_eq_true] at h
    obtain ⟨x, t, hx⟩ := List.exists_cons_of_ne_nil (encodePoint_ne_nil n)
    have hcons : utf8Raw (n :: s) = encodePoint n ++ utf8Raw s := rfl
    cases k with
    | zero => rw [hcons, hx] at hk; simp at hk
    | succ k =>
      have hlen : (utf8Raw s).length ≤ k := by
        rw [hcons, hx] at hk
        simp only [List.cons_append, List.length_cons, List.length_append] at hk
        omega
      have hd := decodePoint_encodePoint h.1 (utf8Raw s)
      rw [hcons]
      rw [hx, List.cons_append] at hd ⊢
      simp [decodePoints, hd, ih h.2 k hlen]

theorem utf8Decode_utf8Raw {s : Str} (h : s.all isScalar = true) : utf8Decode (utf8Raw s) = some s :=
  decodePoints_utf8Raw s h _ le_rfl

theorem utf8_eq_some {s : Str} {b : Bytes} : utf8 s = some b ↔ s.all isScalar = true ∧ utf8Raw s = b := by
  unfold utf8; split_ifs with h <;> simp [h]

theorem utf8Decode_utf8 {s : Str} {b : Bytes} (h : utf8 s = some b) : utf8Decode b = some s := by
  obtain ⟨hs, rfl⟩ := utf8_eq_some.1 h
  exact utf8Decode_utf8Raw hs

theorem utf8Raw_injOn {s t : Str} (hs : s.all isScalar = true) (ht : t.all isScalar = true)
    (h : utf8Raw s = utf8Raw t) : s = t := by
  have := utf8Decode_utf8Raw hs
  rw [h, utf8Decode_utf8Raw ht] at this
  exact (Option.some.inj this).symm

theorem utf8Raw_eq_nil {s : Str} : utf8Raw s = [] ↔ s = [] := by
  cases s with
  | nil => simp [utf8Raw]
  | cons n s => simp [utf8Raw, encodePoint_ne_nil]

theorem length_encodePoint (n : ℕ) :
    (encodePoint n).length = if n < 0x80 then 1 else if n < 0x800 then 2 else if n < 0x10000 then 3 else 4 := by
  unfold encodePoint
  split_ifs <;> rfl

/-- A point is read from as many bytes as it is written in. -/
theorem length_decodePoint {b r : Bytes} {n : ℕ} (h : decodePoint b = some (n, r)) :
    (encodePoint n).length + r.length = b.length := by
  have htail : ∀ c : UInt8, isTail c = true → tailBits c < 64 := by
    intro c hc
    rw [isTail, Bool.and_eq_true, decide_eq_true_eq, decide_eq_true_eq] at hc
    unfold tailBits
    omega
  unfold decodePoint at h
  split at h
  · cases h
  rename_i a s
  split_ifs at h with h1 h2 h3 h4
  · cases h
    rw [length_encodePoint, if_pos h1, List.length_cons]
    omega
  · simp only [Bool.and_eq_true, decide_eq_true_eq] at h2
    split at h
    · rename_i x s
      split_ifs at h with hx
      obtain ⟨rfl, rfl⟩ := Prod.mk.inj (Option.some.inj h)
      have := htail x hx
      rw [length_encodePoint, if_neg (by omega), if_pos (by omega), List.length_cons, List.length_cons]
      omega
    · cases h
  · simp only [Bool.and_eq_true, decide_eq_true_eq] at h3
    split at h
    · rename_i x y s
      simp only [Bool.and_eq_true, decide_eq_true_eq] at h
      split_ifs at h with hx
      obtain ⟨rfl, rfl⟩ := Prod.mk.inj (Option.some.inj h)
      have hx1 := htail x hx.1.1.1
      have hx2 := htail y hx.1.1.2
      rw [length_encodePoint, if_neg (by omega), if_neg (by omega), if_pos (by omega)]
      simp only [List.length_cons]
      omega
    · cases h
  · simp only [Bool.and_eq_true, decide_eq_true_eq] at h4
    split at h
    · rename_i x y z s
      simp only [Bool.and_eq_true, decide_eq_true_eq] at h
      split_ifs at h with hx
      obtain ⟨rfl, rfl⟩ := Prod.mk.inj (Option.some.inj h)
      rw [length_encodePoint, if_neg (by omega), if_neg (by omega), if_neg (by omega)]
      simp only [List.length_cons]
      omega
    · cases h

theorem length_decodePoints {s : Str} : ∀ {k : ℕ} {b : Bytes}, decodePoints k b = some s →
    (utf8Raw s).length = b.length := by
  induction s with
  | nil =>
    intro k b h
    cases b with
    | nil => rfl
    | cons x b =>
      cases k with
      | zero => simp [decodePoints] at h
      | succ k => simp [decodePoints, Option.bind_eq_some_iff] at h
  | cons n s ih =>
    intro k b h
    cases b with
    | nil => cases k <;> simp [decodePoints] at h
    | cons x b =>
      cases k with
      | zero => simp [decodePoints] at h
      | succ k =>
        simp only [decodePoints, Option.bind_eq_bind, Option.bind_eq_some_iff, pure, Option.some.injEq,
          List.cons.injEq] at h
        obtain ⟨⟨p, r⟩, hp, ps, hps, rfl, rfl⟩ := h
        have := length_decodePoint hp
        have := ih hps
        simp only [utf8Raw, List.flatMap_cons, List.length_append] at this ⊢
        omega

theorem length_utf8Decode {s : Str} {b : Bytes} (h : utf8Decode b = some s) : (utf8Raw s).length = b.length :=
  length_decodePoints h

end DecentWallet
