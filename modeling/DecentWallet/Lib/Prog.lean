import Mathlib

/-! Code that raises: checks that reject, and programs over a world whose changes survive an
exception. `Keeps R` is the rule for what every run of a program may do to the world. -/

namespace DecentWallet

/-! ### Pure code -/

section Checks

variable {E α β : Type}

/-- `if c: raise e`. -/
def reject (c : Prop) [Decidable c] (e : E) : Except E Unit := if c then .error e else .ok ()

@[simp] theorem reject_eq_ok {c : Prop} [Decidable c] {e : E} {u : Unit} : reject c e = .ok u ↔ ¬c := by
  unfold reject; split_ifs with h <;> simp [h]

theorem bind_eq_ok {x : Except E α} {f : α → Except E β} {b : β} :
    (x >>= f) = .ok b ↔ ∃ a, x = .ok a ∧ f a = .ok b := by
  cases x <;> simp [bind, Except.bind]

@[simp] theorem pure_eq_ok {a b : α} : (pure a : Except E α) = .ok b ↔ a = b := by
  simp [pure, Except.pure]

theorem map_eq_ok {f : α → β} {x : Except E α} {b : β} : x.map f = .ok b ↔ ∃ a, x = .ok a ∧ f a = b := by
  cases x <;> simp [Except.map]

/-- `except Exception: raise e from None`. -/
def orRaise (e : E) : Option α → Except E α
  | some a => .ok a
  | none => .error e

@[simp] theorem orRaise_eq_ok {e : E} {o : Option α} {a : α} : orRaise e o = .ok a ↔ o = some a := by
  cases o <;> simp [orRaise]

/-- Every error `x` ends with is one of `p`. -/
def Fails (p : E → Prop) (x : Except E α) : Prop := ∀ e, x = .error e → p e

section Fails

variable {p : E → Prop}

theorem Fails.ok (a : α) : Fails p (.ok a) := nofun

theorem Fails.error {e : E} (he : p e) : Fails p (.error e : Except E α) := fun _ h => Except.error.inj h ▸ he

theorem Fails.bind {x : Except E α} {f : α → Except E β} (hx : Fails p x) (hf : ∀ a, Fails p (f a)) :
    Fails p (x >>= f) := by
  cases x with
  | error e => exact Fails.error (hx e rfl)
  | ok a => exact hf a

theorem Fails.bind_ok {x : Except E α} {f : α → Except E β} (hx : Fails p x) (hf : ∀ a, x = .ok a → Fails p (f a)) :
    Fails p (x >>= f) := by
  cases x with
  | error e => exact Fails.error (hx e rfl)
  | ok a => exact hf a rfl

theorem Fails.orRaise {e : E} (he : p e) (o : Option α) : Fails p (orRaise e o) := by
  cases o with
  | none => exact Fails.error he
  | some a => exact Fails.ok a

theorem Fails.reject {e : E} (he : p e) (c : Prop) [Decidable c] : Fails p (reject c e) := by
  unfold DecentWallet.reject
  split_ifs
  · exact Fails.error he
  · exact Fails.ok ()

theorem Fails.mapError {F : Type} {e : E} (he : p e) (x : Except F α) : Fails p (x.mapError fun _ => e) := by
  cases x with
  | error _ => exact Fails.error he
  | ok a => exact Fails.ok a

theorem Fails.map {x : Except E α} (f : α → β) (hx : Fails p x) : Fails p (x.map f) := by
  cases x with
  | error e => exact Fails.error (hx e rfl)
  | ok a => exact Fails.ok _

theorem Fails.ite {c : Prop} [Decidable c] {x y : Except E α} (hx : Fails p x) (hy : Fails p y) :
    Fails p (if c then x else y) := by
  split_ifs
  · exact hx
  · exact hy

end Fails

/-- A loop over `l` that appends what it reads to `s`, checking each new element against the
ones before it: it ends well exactly on lists that can be read item by item to a good result. -/
theorem accumulate_ok {f : List α → List β → Except E (List β)} {R : α → β → Prop} {G : List β → Prop}
    (hnil : ∀ s, f [] s = .ok s)
    (hcons : ∀ v l s r, G s → (f (v :: l) s = .ok r ↔ ∃ b, R v b ∧ G (s ++ [b]) ∧ f l (s ++ [b]) = .ok r))
    (hinit : ∀ l l', G (l ++ l') → G l) {l : List α} {s r : List β} (hs : G s) :
    f l s = .ok r ↔ ∃ new, r = s ++ new ∧ List.Forall₂ R l new ∧ G r := by
  induction l generalizing s with
  | nil =>
    simp only [hnil, Except.ok.injEq, List.forall₂_nil_left_iff]
    constructor
    · rintro rfl; exact ⟨[], by simp, rfl, hs⟩
    · rintro ⟨_, hr, rfl, -⟩; simpa using hr.symm
  | cons v l ih =>
    rw [hcons v l s r hs]
    constructor
    · rintro ⟨b, hb, hgood, hr⟩
      obtain ⟨new, rfl, hf, hr⟩ := (ih hgood).1 hr
      exact ⟨b :: new, by simp, .cons hb hf, hr⟩
    · rintro ⟨new, rfl, hf, hr⟩
      cases hf with
      | @cons _ b _ new hb hf =>
        have hgood : G (s ++ [b]) := hinit _ new (by simpa using hr)
        exact ⟨b, hb, hgood, (ih hgood).2 ⟨new, by simp, hf, hr⟩⟩

end Checks

/-! ### Programs -/

/-- A program ends with a value or an exception, and with a world in either case. -/
abbrev Prog (W E α : Type) := W → Except E α × W

namespace Prog

variable {W E α β : Type}

instance : Monad (Prog W E) where
  pure a := fun w => (.ok a, w)
  bind x f := fun w =>
    match x w with
    | (.ok a, w') => f a w'
    | (.error e, w') => (.error e, w')

def raise (e : E) : Prog W E α := fun w => (.error e, w)

def lift (x : Except E α) : Prog W E α := fun w => (x, w)

def get : Prog W E W := fun w => (.ok w, w)

def modify (f : W → W) : Prog W E Unit := fun w => (.ok (), f w)

/-- `try: x except: h`. -/
def tryCatch (x : Prog W E α) (h : E → Prog W E α) : Prog W E α := fun w =>
  match x w with
  | (.ok a, w') => (.ok a, w')
  | (.error e, w') => h e w'

/-- Run `x` and go on with how it ended. -/
def attempt {F : Type} (x : Prog W E α) : Prog W F (Except E α) := fun w => (.ok (x w).1, (x w).2)

/-- Run `x` with its exceptions translated. -/
def mapError {F : Type} (f : E → F) (x : Prog W E α) : Prog W F α := fun w => ((x w).1.mapError f, (x w).2)

/-- `if c: raise e` inside a program. -/
def reject (c : Prop) [Decidable c] (e : E) : Prog W E Unit := lift (DecentWallet.reject c e)

@[simp] theorem pure_run (a : α) (w : W) : (pure a : Prog W E α) w = (.ok a, w) := rfl

@[simp] theorem lift_run (x : Except E α) (w : W) : (lift x : Prog W E α) w = (x, w) := rfl

@[simp] theorem raise_run (e : E) (w : W) : (raise e : Prog W E α) w = (.error e, w) := rfl

@[simp] theorem get_run (w : W) : (get : Prog W E W) w = (.ok w, w) := rfl

@[simp] theorem modify_run (f : W → W) (w : W) : (modify f : Prog W E Unit) w = (.ok (), f w) := rfl

theorem bind_run (x : Prog W E α) (f : α → Prog W E β) (w : W) :
    (x >>= f) w = match x w with
      | (.ok a, w') => f a w'
      | (.error e, w') => (.error e, w') := rfl

theorem bind_run_ok {x : Prog W E α} {f : α → Prog W E β} {w w' : W} {a : α} (h : x w = (.ok a, w')) :
    (x >>= f) w = f a w' := by rw [bind_run, h]

theorem bind_run_error {x : Prog W E α} {f : α → Prog W E β} {w w' : W} {e : E} (h : x w = (.error e, w')) :
    (x >>= f) w = (.error e, w') := by rw [bind_run, h]

theorem bind_ok_iff {x : Prog W E α} {f : α → Prog W E β} {w w' : W} {b : β} :
    (x >>= f) w = (.ok b, w') ↔ ∃ a w1, x w = (.ok a, w1) ∧ f a w1 = (.ok b, w') := by
  rw [bind_run]
  rcases x w with ⟨_ | a, w1⟩ <;> simp

theorem bind_error_iff {x : Prog W E α} {f : α → Prog W E β} {w w' : W} {e : E} :
    (x >>= f) w = (.error e, w') ↔
      x w = (.error e, w') ∨ ∃ a w1, x w = (.ok a, w1) ∧ f a w1 = (.error e, w') := by
  rw [bind_run]
  rcases x w with ⟨_ | a, w1⟩ <;> simp

theorem run_eq {x : Prog W E α} {w : W} {r : Except E α} (h : (x w).1 = r) : x w = (r, (x w).2) := Prod.ext h rfl

theorem map_ok_iff {f : α → β} {x : Prog W E α} {w w' : W} {b : β} :
    (f <$> x) w = (.ok b, w') ↔ ∃ a, x w = (.ok a, w') ∧ f a = b := by
  rw [show (f <$> x) w = (x >>= fun a => pure (f a)) w from rfl, bind_ok_iff]
  refine exists_congr fun a => ?_
  constructor
  · rintro ⟨w1, hx, hb⟩
    cases hb
    exact ⟨hx, rfl⟩
  · rintro ⟨hx, rfl⟩
    exact ⟨w', hx, rfl⟩

theorem map_run_snd (f : α → β) (x : Prog W E α) (w : W) : ((f <$> x) w).2 = (x w).2 := by
  rw [show (f <$> x) w = (x >>= fun a => pure (f a)) w from rfl, bind_run]
  split <;> simp_all

theorem map_error_iff {f : α → β} {x : Prog W E α} {w w' : W} {e : E} :
    (f <$> x) w = (.error e, w') ↔ x w = (.error e, w') := by
  rw [show (f <$> x) w = (x >>= fun a => pure (f a)) w from rfl, bind_error_iff]
  simp

@[simp] theorem lift_ok_iff {x : Except E α} {w w' : W} {a : α} :
    (lift x : Prog W E α) w = (.ok a, w') ↔ x = .ok a ∧ w = w' := by simp

@[simp] theorem reject_ok_iff {c : Prop} [Decidable c] {e : E} {w w' : W} {u : Unit} :
    (reject c e : Prog W E Unit) w = (.ok u, w') ↔ ¬c ∧ w = w' := by simp [reject]

@[simp] theorem pure_ok_iff {a b : α} {w w' : W} :
    (pure a : Prog W E α) w = (.ok b, w') ↔ a = b ∧ w = w' := by simp

theorem tryCatch_ok_iff {x : Prog W E α} {h : E → Prog W E α} {w w' : W} {a : α} :
    tryCatch x h w = (.ok a, w') ↔
      x w = (.ok a, w') ∨ ∃ e w1, x w = (.error e, w1) ∧ h e w1 = (.ok a, w') := by
  unfold tryCatch
  rcases x w with ⟨_ | a, w1⟩ <;> simp

@[simp] theorem raise_error_iff {e e' : E} {w w' : W} :
    (raise e : Prog W E α) w = (.error e', w') ↔ e = e' ∧ w = w' := by simp

@[simp] theorem pure_error_iff {a : α} {e : E} {w w' : W} :
    (pure a : Prog W E α) w = (.error e, w') ↔ False := by simp

@[simp] theorem lift_error_iff {x : Except E α} {w w' : W} {e : E} :
    (lift x : Prog W E α) w = (.error e, w') ↔ x = .error e ∧ w = w' := by simp

@[simp] theorem reject_error_iff {c : Prop} [Decidable c] {e e' : E} {w w' : W} :
    (reject c e : Prog W E Unit) w = (.error e', w') ↔ c ∧ e = e' ∧ w = w' := by
  unfold reject DecentWallet.reject
  split_ifs with h <;> simp [h]

@[simp] theorem attempt_run {F : Type} (x : Prog W E α) (w : W) :
    (attempt x : Prog W F (Except E α)) w = (.ok (x w).1, (x w).2) := rfl

theorem attempt_ok_iff {F : Type} {x : Prog W E α} {w w' : W} {r : Except E α} :
    (attempt x : Prog W F (Except E α)) w = (.ok r, w') ↔ x w = (r, w') := by
  simp [attempt, Prod.ext_iff]

theorem attempt_error_iff {F : Type} {x : Prog W E α} {w w' : W} {e : F} :
    (attempt x : Prog W F (Except E α)) w = (.error e, w') ↔ False := by simp

theorem mapError_ok_iff {F : Type} {f : E → F} {x : Prog W E α} {w w' : W} {a : α} :
    mapError f x w = (.ok a, w') ↔ x w = (.ok a, w') := by
  unfold mapError
  rcases x w with ⟨_ | a, w1⟩ <;> simp [Except.mapError]

theorem mapError_error_iff {F : Type} {f : E → F} {x : Prog W E α} {w w' : W} {e : F} :
    mapError f x w = (.error e, w') ↔ ∃ e', x w = (.error e', w') ∧ f e' = e := by
  unfold mapError
  rcases x w with ⟨e' | a, w1⟩ <;> simp [Except.mapError, and_comm]

theorem tryCatch_error_iff {x : Prog W E α} {h : E → Prog W E α} {w w' : W} {e : E} :
    tryCatch x h w = (.error e, w') ↔ ∃ e1 w1, x w = (.error e1, w1) ∧ h e1 w1 = (.error e, w') := by
  unfold tryCatch
  rcases x w with ⟨_ | a, w1⟩ <;> simp

/-! ### What every run does to the world -/

/-- Every run of `x`, also one that raises, moves the world along `R`. -/
def Keeps (R : W → W → Prop) (x : Prog W E α) : Prop := ∀ w, R w (x w).2

variable {R : W → W → Prop}

theorem Keeps.pure [Std.Refl R] (a : α) : Keeps R (pure a : Prog W E α) :=
  fun w => Std.Refl.refl w

theorem Keeps.lift [Std.Refl R] (x : Except E α) : Keeps R (lift x : Prog W E α) :=
  fun w => Std.Refl.refl w

theorem Keeps.raise [Std.Refl R] (e : E) : Keeps R (raise e : Prog W E α) :=
  fun w => Std.Refl.refl w

theorem Keeps.reject [Std.Refl R] (c : Prop) [Decidable c] (e : E) : Keeps R (reject c e : Prog W E Unit) :=
  Keeps.lift _

theorem Keeps.bind [IsTrans W R] {x : Prog W E α} {f : α → Prog W E β} (hx : Keeps R x)
    (hf : ∀ a, Keeps R (f a)) : Keeps R (x >>= f) := by
  intro w
  have h := hx w
  rw [bind_run]
  rcases hxw : x w with ⟨_ | a, w1⟩ <;> rw [hxw] at h
  · exact h
  · exact IsTrans.trans _ _ _ h (hf a w1)

theorem Keeps.map [Std.Refl R] [IsTrans W R] {x : Prog W E α} (f : α → β) (hx : Keeps R x) : Keeps R (f <$> x) :=
  hx.bind fun a => Keeps.pure (f a)

theorem Keeps.ite {c : Prop} [Decidable c] {x y : Prog W E α} (hx : Keeps R x) (hy : Keeps R y) :
    Keeps R (if c then x else y) := by
  split_ifs
  · exact hx
  · exact hy

theorem Keeps.tryCatch [IsTrans W R] {x : Prog W E α} {f : E → Prog W E α} (hx : Keeps R x)
    (hf : ∀ e, Keeps R (f e)) : Keeps R (tryCatch x f) := by
  intro w
  have h := hx w
  unfold Prog.tryCatch
  rcases hxw : x w with ⟨e | a, w1⟩ <;> rw [hxw] at h
  · exact IsTrans.trans _ _ _ h (hf e w1)
  · exact h

theorem Keeps.attempt {F : Type} {x : Prog W E α} (hx : Keeps R x) : Keeps R (attempt x : Prog W F (Except E α)) := hx

theorem Keeps.mapError {F : Type} {f : E → F} {x : Prog W E α} (hx : Keeps R x) : Keeps R (mapError f x) := hx

theorem Keeps.get [Std.Refl R] : Keeps R (get : Prog W E W) := fun w => Std.Refl.refl w

theorem Keeps.modify {f : W → W} (hf : ∀ w, R w (f w)) : Keeps R (modify f : Prog W E Unit) := hf

/-- What every run does, a given run has done. -/
theorem Keeps.of_run {x : Prog W E α} (hx : Keeps R x) {w w' : W} {r : Except E α} (h : x w = (r, w')) : R w w' := by
  have := hx w
  rwa [h] at this

/-! ### From one world -/

/-- Run from `w`, `x` returns a value and a world in `Q`, or raises with a world in `F`. -/
def Ends (x : Prog W E α) (w : W) (Q : α → W → Prop) (F : E → W → Prop) : Prop :=
  (∀ a w', x w = (.ok a, w') → Q a w') ∧ ∀ e w', x w = (.error e, w') → F e w'

variable {w : W} {Q : α → W → Prop} {S : β → W → Prop} {F : E → W → Prop}

theorem Ends.ok {x : Prog W E α} (h : Ends x w Q F) {a : α} {w' : W} (hr : x w = (.ok a, w')) : Q a w' := h.1 a w' hr

theorem Ends.error {x : Prog W E α} (h : Ends x w Q F) {e : E} {w' : W} (hr : x w = (.error e, w')) : F e w' :=
  h.2 e w' hr

theorem Ends.pure {a : α} (h : Q a w) : Ends (pure a : Prog W E α) w Q F :=
  ⟨fun _ _ hr => by cases hr; exact h, nofun⟩

theorem Ends.raise {e : E} (h : F e w) : Ends (raise e : Prog W E α) w Q F :=
  ⟨nofun, fun _ _ hr => by cases hr; exact h⟩

theorem Ends.lift {x : Except E α} (hok : ∀ a, x = .ok a → Q a w) (herror : ∀ e, x = .error e → F e w) :
    Ends (lift x : Prog W E α) w Q F :=
  ⟨fun a _ hr => by obtain ⟨hx, rfl⟩ := lift_ok_iff.1 hr; exact hok a hx,
    fun e _ hr => by obtain ⟨hx, rfl⟩ := lift_error_iff.1 hr; exact herror e hx⟩

theorem Ends.reject {c : Prop} [Decidable c] {e : E} {Q : Unit → W → Prop} (hok : ¬c → Q () w) (herror : c → F e w) :
    Ends (reject c e : Prog W E Unit) w Q F :=
  ⟨fun _ _ hr => by obtain ⟨hc, rfl⟩ := reject_ok_iff.1 hr; exact hok hc,
    fun _ _ hr => by obtain ⟨hc, rfl, rfl⟩ := reject_error_iff.1 hr; exact herror hc⟩

theorem Ends.modify {f : W → W} {Q : Unit → W → Prop} (h : Q () (f w)) : Ends (modify f : Prog W E Unit) w Q F :=
  ⟨fun _ _ hr => by cases hr; exact h, nofun⟩

theorem Ends.bind {x : Prog W E α} {f : α → Prog W E β} (hx : Ends x w Q F)
    (hf : ∀ a w', Q a w' → Ends (f a) w' S F) : Ends (x >>= f) w S F := by
  constructor
  · intro b w' hr
    obtain ⟨a, w1, hxw, hfw⟩ := bind_ok_iff.1 hr
    exact (hf a w1 (hx.ok hxw)).ok hfw
  · intro e w' hr
    rcases bind_error_iff.1 hr with hxw | ⟨a, w1, hxw, hfw⟩
    · exact hx.error hxw
    · exact (hf a w1 (hx.ok hxw)).error hfw

/-- A first step that is known to return. -/
theorem Ends.bind_run {x : Prog W E α} {f : α → Prog W E β} {a : α} {w' : W} (hx : x w = (.ok a, w'))
    (hf : Ends (f a) w' S F) : Ends (x >>= f) w S F := by
  refine ⟨fun b w2 hr => hf.ok ?_, fun e w2 hr => hf.error ?_⟩
  · rwa [bind_run_ok hx] at hr
  · rwa [bind_run_ok hx] at hr

/-- A check before the rest. -/
theorem Ends.reject_bind {c : Prop} [Decidable c] {e : E} {f : Unit → Prog W E β} (herror : c → F e w)
    (hok : ¬c → Ends (f ()) w S F) : Ends (Prog.reject c e >>= f) w S F :=
  Ends.bind (Q := fun _ w' => ¬c ∧ w' = w) (Ends.reject (fun h => ⟨h, rfl⟩) herror) fun _ _ h => h.2 ▸ hok h.1

/-- Pure code before the rest. -/
theorem Ends.lift_bind {x : Except E α} {f : α → Prog W E β} (herror : ∀ e, x = .error e → F e w)
    (hok : ∀ a, x = .ok a → Ends (f a) w S F) : Ends (Prog.lift x >>= f) w S F :=
  Ends.bind (Q := fun a w' => x = .ok a ∧ w' = w) (Ends.lift (fun _ h => ⟨h, rfl⟩) herror) fun _ _ h => h.2 ▸ hok _ h.1

theorem Ends.mono {x : Prog W E α} {Q' : α → W → Prop} {F' : E → W → Prop} (hx : Ends x w Q F)
    (hQ : ∀ a w', Q a w' → Q' a w') (hF : ∀ e w', F e w' → F' e w') : Ends x w Q' F' :=
  ⟨fun a w' hr => hQ a w' (hx.ok hr), fun e w' hr => hF e w' (hx.error hr)⟩

theorem Ends.map {x : Prog W E α} {f : α → β} (hx : Ends x w (fun a w' => S (f a) w') F) : Ends (f <$> x) w S F :=
  Ends.bind hx fun _ _ hq => Ends.pure hq

theorem Ends.mapError {G : Type} {x : Prog W E α} {f : E → G} {F : G → W → Prop}
    (hx : Ends x w Q fun e w' => F (f e) w') : Ends (mapError f x) w Q F := by
  refine ⟨fun a w' hr => hx.ok (mapError_ok_iff.1 hr), fun e w' hr => ?_⟩
  obtain ⟨e', he', rfl⟩ := mapError_error_iff.1 hr
  exact hx.error he'

theorem Ends.of_keeps {R : W → W → Prop} {x : Prog W E α} (hx : Keeps R x) (w : W) :
    Ends x w (fun _ w' => R w w') fun _ w' => R w w' := ⟨fun _ _ hr => hx.of_run hr, fun _ _ hr => hx.of_run hr⟩

theorem Ends.ite {c : Prop} [Decidable c] {x y : Prog W E α} (hx : c → Ends x w Q F) (hy : ¬c → Ends y w Q F) :
    Ends (if c then x else y) w Q F := by
  split_ifs with hc
  · exact hx hc
  · exact hy hc

theorem Ends.tryCatch {x : Prog W E α} {f : E → Prog W E α} {G : E → W → Prop} (hx : Ends x w Q G)
    (hf : ∀ e w', G e w' → Ends (f e) w' Q F) : Ends (tryCatch x f) w Q F := by
  constructor
  · intro a w' hr
    rcases tryCatch_ok_iff.1 hr with hxw | ⟨e, w1, hxw, hfw⟩
    · exact hx.ok hxw
    · exact (hf e w1 (hx.error hxw)).ok hfw
  · intro e w' hr
    obtain ⟨e1, w1, hxw, hfw⟩ := tryCatch_error_iff.1 hr
    exact (hf e1 w1 (hx.error hxw)).error hfw

end Prog

end DecentWallet
