import Mathlib

/-! Finite maps as lists of entries. On lists in key order, a map is determined by its lookups. -/

namespace DecentWallet.Assoc

variable {κ α β : Type} [LinearOrder κ]

def get (m : List (κ × α)) (k : κ) : Option α := (m.find? fun p => p.1 = k).map Prod.snd

/-- `m[k] = v`, on a list in key order. -/
def insert : List (κ × α) → κ → α → List (κ × α)
  | [], k, v => [(k, v)]
  | p :: m, k, v => if k < p.1 then (k, v) :: p :: m else if k = p.1 then (k, v) :: m else p :: insert m k v

/-- `m.pop(k, None)`. -/
def erase (m : List (κ × α)) (k : κ) : List (κ × α) := m.filter fun p => p.1 ≠ k

def Sorted (m : List (κ × α)) : Prop := m.Pairwise fun p q => p.1 < q.1

instance (m : List (κ × α)) : Decidable (Sorted m) := inferInstanceAs (Decidable (m.Pairwise _))

@[simp] theorem get_nil (k : κ) : get ([] : List (κ × α)) k = none := rfl

theorem get_cons (p : κ × α) (m : List (κ × α)) (k : κ) : get (p :: m) k = if p.1 = k then some p.2 else get m k := by
  unfold get
  rw [List.find?_cons]
  split_ifs with h <;> simp [h]

theorem mem_of_get {m : List (κ × α)} {k : κ} {v : α} (h : get m k = some v) : (k, v) ∈ m := by
  induction m with
  | nil => simp at h
  | cons p m ih =>
    rw [get_cons] at h
    split_ifs at h with hp
    · cases h
      simp [← hp]
    · exact List.mem_cons_of_mem _ (ih h)

theorem get_eq_none {m : List (κ × α)} {k : κ} (h : ∀ p ∈ m, k < p.1) : get m k = none := by
  by_contra hne
  obtain ⟨v, hv⟩ := Option.ne_none_iff_exists'.1 hne
  exact lt_irrefl _ (h _ (mem_of_get hv))

theorem get_insert (m : List (κ × α)) (k j : κ) (v : α) : get (insert m k v) j = if k = j then some v else get m j := by
  induction m with
  | nil => simp [insert, get_cons]
  | cons p m ih =>
    simp only [insert]
    split_ifs with h1 h2 h3 h4 h5
    · simp [get_cons, h2]
    · simp [get_cons, h2]
    · simp [get_cons, h4]
    · simp [get_cons, h4, ← h3]
    · rw [get_cons, if_neg (by rw [← h5]; exact Ne.symm h3), ih, if_pos h5]
    · rw [get_cons, get_cons, ih, if_neg h5]

theorem get_erase (m : List (κ × α)) (k j : κ) : get (erase m k) j = if k = j then none else get m j := by
  induction m with
  | nil => simp [erase]
  | cons p m ih =>
    unfold erase at ih ⊢
    rw [List.filter_cons]
    split_ifs with h1 h2 h2
    · rw [get_cons, ih, if_pos h2, if_neg (by simp_all)]
    · rw [get_cons, get_cons, ih, if_neg h2]
    · rw [ih, if_pos h2]
    · rw [ih, if_neg h2, get_cons, if_neg (by simp_all)]

theorem mem_insert {m : List (κ × α)} {k : κ} {v : α} {p : κ × α} (h : p ∈ insert m k v) : p = (k, v) ∨ p ∈ m := by
  induction m with
  | nil => exact .inl (by simpa [insert] using h)
  | cons q m ih =>
    simp only [insert] at h
    split_ifs at h with h1 h2
    · rcases List.mem_cons.1 h with h | h
      · exact .inl h
      · exact .inr h
    · rcases List.mem_cons.1 h with h | h
      · exact .inl h
      · exact .inr (List.mem_cons_of_mem _ h)
    · rcases List.mem_cons.1 h with h | h
      · exact .inr (by simp [h])
      · exact (ih h).imp_right (List.mem_cons_of_mem _)

theorem Sorted.insert {m : List (κ × α)} (h : Sorted m) (k : κ) (v : α) : Sorted (insert m k v) := by
  induction m with
  | nil => simp [Assoc.insert, Sorted]
  | cons p m ih =>
    obtain ⟨hp, hm⟩ := List.pairwise_cons.1 h
    simp only [Assoc.insert]
    split_ifs with h1 h2
    · refine List.pairwise_cons.2 ⟨fun q hq => ?_, h⟩
      rcases List.mem_cons.1 hq with rfl | hq
      · exact h1
      · exact h1.trans (hp q hq)
    · exact List.pairwise_cons.2 ⟨fun q hq => by rw [h2]; exact hp q hq, hm⟩
    · refine List.pairwise_cons.2 ⟨fun q hq => ?_, ih hm⟩
      rcases mem_insert hq with rfl | hq
      · exact lt_of_le_of_ne (not_lt.1 h1) (Ne.symm h2)
      · exact hp q hq

theorem Sorted.erase {m : List (κ × α)} (h : Sorted m) (k : κ) : Sorted (erase m k) := List.Pairwise.filter _ h

/-- Two maps in key order with the same lookups are the same list. -/
theorem Sorted.ext {m n : List (κ × α)} (hm : Sorted m) (hn : Sorted n) (h : ∀ k, get m k = get n k) : m = n := by
  induction m generalizing n with
  | nil =>
    cases n with
    | nil => rfl
    | cons q n => simpa [get_cons] using h q.1
  | cons p m ih =>
    cases n with
    | nil => simpa [get_cons] using h p.1
    | cons q n =>
      obtain ⟨hpm, hm⟩ := List.pairwise_cons.1 hm
      obtain ⟨hqn, hn⟩ := List.pairwise_cons.1 hn
      -- the smaller of the two first keys would be missing on the other side
      have hkey : p.1 = q.1 := by
        rcases lt_trichotomy p.1 q.1 with hlt | heq | hgt
        · have := h p.1
          rw [get_cons, if_pos rfl, get_cons, if_neg hlt.ne', get_eq_none fun r hr => hlt.trans (hqn r hr)] at this
          cases this
        · exact heq
        · have := h q.1
          rw [get_cons, if_neg hgt.ne', get_eq_none fun r hr => hgt.trans (hpm r hr), get_cons, if_pos rfl] at this
          cases this
      have hval : p.2 = q.2 := by simpa [get_cons, hkey] using h q.1
      rw [Prod.ext hkey hval, ih hm hn]
      intro k
      by_cases hk : p.1 = k
      · rw [← hk, get_eq_none hpm, get_eq_none fun r hr => by rw [hkey]; exact hqn r hr]
      · have := h k
        rwa [get_cons, if_neg hk, get_cons, if_neg (by rwa [← hkey])] at this

end DecentWallet.Assoc
