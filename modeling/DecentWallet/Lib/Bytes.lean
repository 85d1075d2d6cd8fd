import Mathlib

/-! Byte strings, code-point strings and the two orders the sources sort by: the
lexicographic order of byte strings, and the length-first order of canonical CBOR keys. -/

namespace DecentWallet

abbrev Bytes := List UInt8

/-- A text is its list of code points; a lone surrogate is a code point that `utf8` refuses. -/
abbrev Str := List ℕ

/-- The code points of a literal. -/
def str (s : String) : Str := s.toList.map Char.toNat

instance instLawfulBEqBytes : LawfulBEq Bytes := inferInstance

instance instLawfulBEqStr : LawfulBEq Str := inferInstance

instance instLawfulBEqOptionStr : LawfulBEq (Option Str) := inferInstance

/-! ### Big-endian integers -/

def ofBE (b : Bytes) : ℕ := b.foldl (fun n x => n * 256 + x.toNat) 0

def toBE : ℕ → ℕ → Bytes
  | 0, _ => []
  | w + 1, n => toBE w (n / 256) ++ [UInt8.ofNat (n % 256)]

theorem toNat_ofNat_mod (n : ℕ) : (UInt8.ofNat (n % 256)).toNat = n % 256 := by
  simp [UInt8.toNat_ofNat']

theorem toNat_ofNat_lt {n : ℕ} (h : n < 256) : (UInt8.ofNat n).toNat = n := by
  rw [UInt8.toNat_ofNat', Nat.mod_eq_of_lt h]

@[simp] theorem toBE_length (w n : ℕ) : (toBE w n).length = w := by
  induction w generalizing n with
  | zero => rfl
  | succ w ih => simp [toBE, ih]

theorem ofBE_append_singleton (b : Bytes) (x : UInt8) : ofBE (b ++ [x]) = ofBE b * 256 + x.toNat := by
  simp [ofBE, List.foldl_append]

theorem ofBE_toBE (w n : ℕ) (h : n < 256 ^ w) : ofBE (toBE w n) = n := by
  induction w generalizing n with
  | zero =>
    have : n = 0 := by simpa using h
    subst this; rfl
  | succ w ih =>
    have hd : n / 256 < 256 ^ w := by
      rw [Nat.div_lt_iff_lt_mul (by norm_num)]
      rwa [pow_succ] at h
    rw [toBE, ofBE_append_singleton, ih _ hd, toNat_ofNat_mod]
    omega

/-- The width of the shortest big-endian form. -/
def beWidth (n : ℕ) : ℕ := if n = 0 then 0 else Nat.log 256 n + 1

/-- The shortest big-endian form; empty for zero. -/
def minBE (n : ℕ) : Bytes := toBE (beWidth n) n

theorem lt_pow_beWidth (n : ℕ) : n < 256 ^ beWidth n := by
  unfold beWidth
  split_ifs with h
  · simp [h]
  · exact Nat.lt_pow_succ_log_self (by norm_num) n

theorem ofBE_minBE (n : ℕ) : ofBE (minBE n) = n := ofBE_toBE _ _ (lt_pow_beWidth n)

theorem minBE_length (n : ℕ) : (minBE n).length = beWidth n := toBE_length _ _

theorem toBE_succ_eq_cons (w n : ℕ) :
    toBE (w + 1) n = UInt8.ofNat (n / 256 ^ w % 256) :: toBE w n := by
  induction w generalizing n with
  | zero => simp [toBE]
  | succ w ih =>
    have hd : n / 256 / 256 ^ w = n / 256 ^ (w + 1) := by
      rw [Nat.div_div_eq_div_mul, pow_succ, mul_comm]
    conv_lhs => rw [toBE]
    rw [ih (n / 256), hd]
    rfl

/-- The shortest form of a positive number does not start with a zero byte. -/
theorem minBE_head (n : ℕ) (h : n ≠ 0) : ∃ x t, minBE n = x :: t ∧ x ≠ 0 := by
  have hw : beWidth n = Nat.log 256 n + 1 := by simp [beWidth, h]
  refine ⟨_, _, by rw [minBE, hw, toBE_succ_eq_cons], fun h0 => ?_⟩
  have hge : 256 ^ Nat.log 256 n ≤ n := Nat.pow_log_le_self 256 h
  have hlt : n < 256 ^ (Nat.log 256 n + 1) := Nat.lt_pow_succ_log_self (by norm_num) n
  have hp : 0 < 256 ^ Nat.log 256 n := by positivity
  have hq1 : 1 ≤ n / 256 ^ Nat.log 256 n := (Nat.one_le_div_iff hp).2 hge
  have hq2 : n / 256 ^ Nat.log 256 n < 256 := by
    rw [Nat.div_lt_iff_lt_mul hp]
    rwa [pow_succ, mul_comm] at hlt
  have := congrArg UInt8.toNat h0
  rw [toNat_ofNat_mod, Nat.mod_eq_of_lt hq2] at this
  simp at this
  omega

/-! ### Orders -/

/-- Lexicographic order of byte strings, a proper start of a string coming first. -/
def bytesLt : Bytes → Bytes → Bool
  | _, [] => false
  | [], _ :: _ => true
  | x :: xs, y :: ys => x.toNat < y.toNat || (x.toNat == y.toNat && bytesLt xs ys)

def bytesLe (a b : Bytes) : Bool := !bytesLt b a

theorem bytesLt_irrefl (a : Bytes) : bytesLt a a = false := by
  induction a with
  | nil => rfl
  | cons x xs ih => simp [bytesLt, ih]

theorem bytesLt_trans {a b c : Bytes} (h1 : bytesLt a b = true) (h2 : bytesLt b c = true) :
    bytesLt a c = true := by
  induction a generalizing b c with
  | nil =>
    cases c with
    | nil => cases b <;> simp [bytesLt] at h2
    | cons z zs => rfl
  | cons x xs ih =>
    cases b with
    | nil => simp [bytesLt] at h1
    | cons y ys =>
      cases c with
      | nil => simp [bytesLt] at h2
      | cons z zs =>
        simp only [bytesLt, Bool.or_eq_true, decide_eq_true_eq, Bool.and_eq_true, beq_iff_eq] at *
        rcases h1 with h1 | ⟨h1, h1'⟩ <;> rcases h2 with h2 | ⟨h2, h2'⟩
        · left; omega
        · left; omega
        · left; omega
        · exact Or.inr ⟨by omega, ih h1' h2'⟩

theorem bytesLt_connex {a b : Bytes} (h : a ≠ b) : bytesLt a b = true ∨ bytesLt b a = true := by
  induction a generalizing b with
  | nil =>
    cases b with
    | nil => exact absurd rfl h
    | cons y ys => exact Or.inl rfl
  | cons x xs ih =>
    cases b with
    | nil => exact Or.inr rfl
    | cons y ys =>
      simp only [bytesLt, Bool.or_eq_true, decide_eq_true_eq, Bool.and_eq_true, beq_iff_eq]
      rcases lt_trichotomy x.toNat y.toNat with hlt | heq | hgt
      · exact Or.inl (Or.inl hlt)
      · have hxy : x = y := UInt8.toNat_inj.1 heq
        have hne : xs ≠ ys := fun he => h (by rw [hxy, he])
        rcases ih hne with h1 | h1
        · exact Or.inl (Or.inr ⟨heq, h1⟩)
        · exact Or.inr (Or.inr ⟨heq.symm, h1⟩)
      · exact Or.inr (Or.inl hgt)

theorem bytesLe_of_lt {a b : Bytes} (h : bytesLt a b = true) : bytesLe a b = true := by
  by_contra hn
  have hba : bytesLt b a = true := by simpa [bytesLe] using hn
  have := bytesLt_trans h hba
  rw [bytesLt_irrefl] at this
  exact absurd this (by decide)

theorem bytesLt_of_le_of_ne {a b : Bytes} (h : bytesLe a b = true) (hne : a ≠ b) : bytesLt a b = true := by
  rcases bytesLt_connex hne with h1 | h1
  · exact h1
  · simp [bytesLe, h1] at h

theorem bytesLe_trans {a b c : Bytes} (h1 : bytesLe a b = true) (h2 : bytesLe b c = true) :
    bytesLe a c = true := by
  by_contra hn
  have hca : bytesLt c a = true := by simpa [bytesLe] using hn
  by_cases hab : a = b
  · simp [bytesLe, ← hab, hca] at h2
  · have := bytesLt_trans hca (bytesLt_of_le_of_ne h1 hab)
    simp [bytesLe, this] at h2

theorem bytesLe_total (a b : Bytes) : bytesLe a b = true ∨ bytesLe b a = true := by
  by_cases h : a = b
  · left; simp [bytesLe, h, bytesLt_irrefl]
  · exact (bytesLt_connex h).imp bytesLe_of_lt bytesLe_of_lt

theorem ne_of_bytesLt {a b : Bytes} (h : bytesLt a b = true) : a ≠ b := by
  rintro rfl; simp [bytesLt_irrefl] at h

/-- A list without repeated keys that sorting leaves alone is strictly increasing. -/
theorem eq_sort_nodup_iff {α : Type} (key : α → Bytes) (l : List α) :
    (l = l.insertionSort (fun a b => bytesLe (key a) (key b) = true) ∧ (l.map key).Nodup) ↔
      l.Pairwise fun a b => bytesLt (key a) (key b) = true := by
  constructor
  · rintro ⟨hs, hn⟩
    have : Std.Total fun a b => bytesLe (key a) (key b) = true := ⟨fun a b => bytesLe_total _ _⟩
    have : IsTrans α fun a b => bytesLe (key a) (key b) = true := ⟨fun a b c => bytesLe_trans⟩
    have hp := List.pairwise_insertionSort (fun a b => bytesLe (key a) (key b) = true) l
    rw [← hs] at hp
    exact (hp.and (List.pairwise_map.1 hn)).imp fun h => bytesLt_of_le_of_ne h.1 h.2
  · intro hp
    refine ⟨(List.Pairwise.insertionSort_eq (hp.imp bytesLe_of_lt)).symm, ?_⟩
    exact List.pairwise_map.2 (hp.imp ne_of_bytesLt)

/-- Sorting by distinct keys forgets the order of the list. -/
theorem sort_eq_of_perm {α : Type} (key : α → Bytes) {l l' : List α} (hp : l.Perm l') (hn : (l.map key).Nodup) :
    l.insertionSort (fun a b => bytesLe (key a) (key b) = true) =
      l'.insertionSort fun a b => bytesLe (key a) (key b) = true := by
  have : Std.Total fun a b => bytesLe (key a) (key b) = true := ⟨fun a b => bytesLe_total _ _⟩
  have : IsTrans α fun a b => bytesLe (key a) (key b) = true := ⟨fun a b c => bytesLe_trans⟩
  have hl := List.perm_insertionSort (fun a b => bytesLe (key a) (key b) = true) l
  have hl' := List.perm_insertionSort (fun a b => bytesLe (key a) (key b) = true) l'
  refine List.Perm.eq_of_pairwise ?_ (List.pairwise_insertionSort _ l) (List.pairwise_insertionSort _ l')
    (hl.trans (hp.trans hl'.symm))
  intro a b ha hb hab hba
  -- two members with one key are one member
  refine List.inj_on_of_nodup_map hn (hl.mem_iff.1 ha) ((hp.trans hl'.symm).mem_iff.2 hb) ?_
  by_contra hne
  have hlt := bytesLt_of_le_of_ne hab hne
  simp [bytesLe, hlt] at hba

/-- Sorting what is sorted changes nothing. -/
theorem sort_idem {α : Type} (key : α → Bytes) (l : List α) :
    (l.insertionSort fun a b => bytesLe (key a) (key b) = true).insertionSort
        (fun a b => bytesLe (key a) (key b) = true) =
      l.insertionSort fun a b => bytesLe (key a) (key b) = true := by
  have : Std.Total fun a b => bytesLe (key a) (key b) = true := ⟨fun a b => bytesLe_total _ _⟩
  have : IsTrans α fun a b => bytesLe (key a) (key b) = true := ⟨fun a b c => bytesLe_trans⟩
  exact (List.pairwise_insertionSort _ l).insertionSort_eq

/-- The key order of canonical CBOR: a shorter encoding comes first. -/
def shortLex (a b : Bytes) : Bool :=
  a.length < b.length || (a.length == b.length && bytesLt a b)

theorem shortLex_irrefl (a : Bytes) : shortLex a a = false := by simp [shortLex, bytesLt_irrefl]

theorem shortLex_trans {a b c : Bytes} (h1 : shortLex a b = true) (h2 : shortLex b c = true) :
    shortLex a c = true := by
  simp only [shortLex, Bool.or_eq_true, decide_eq_true_eq, Bool.and_eq_true, beq_iff_eq] at *
  rcases h1 with h1 | ⟨h1, h1'⟩ <;> rcases h2 with h2 | ⟨h2, h2'⟩
  · left; omega
  · left; omega
  · left; omega
  · exact Or.inr ⟨by omega, bytesLt_trans h1' h2'⟩

theorem shortLex_connex {a b : Bytes} (h : a ≠ b) : shortLex a b = true ∨ shortLex b a = true := by
  simp only [shortLex, Bool.or_eq_true, decide_eq_true_eq, Bool.and_eq_true, beq_iff_eq]
  rcases lt_trichotomy a.length b.length with hl | hl | hl
  · exact Or.inl (Or.inl hl)
  · rcases bytesLt_connex h with h1 | h1
    · exact Or.inl (Or.inr ⟨hl, h1⟩)
    · exact Or.inr (Or.inr ⟨hl.symm, h1⟩)
  · exact Or.inr (Or.inl hl)

end DecentWallet
