import DecentWallet.Sanity.Lengths
import DecentWallet.Sanity.WalletRun

/-! Hostile containers: what `open`, `import_container` and `migrate_container` raise for any bytes. `json.loads` may
run into a limit of the interpreter, and neither `RecursionError` nor the `ValueError` for digits is caught around
the container, nor around the payload that `open` decrypts; and `_decode_value` may run out of stack on a payload
that `json.loads` has read. -/

namespace DecentWallet

open Raised Prog

variable {σ : Type} {C : Crypto} {M : Machine σ}

/-- A `WalletError`. -/
def Raised.Clean (e : Raised) : Prop := e.isWalletError = true

instance (e : Raised) : Decidable e.Clean := inferInstanceAs (Decidable (_ = _))

/-- The text of the container is beyond a limit. -/
def ContainerLimit (C : Crypto) (data : Bytes) : Prop := ∃ text l, utf8Decode data = some text ∧ C.limit text = some l

/-- The container unlocks to a payload of these bytes. -/
def Decrypts (C : Crypto) (data : Bytes) (password : Str) (v : ℤ) (plaintext : Bytes) : Prop := ∃ c dek aad,
  parseContainer C data v = .ok c ∧ unwrapDek C c password v = .ok dek ∧ payloadAad c.payload v = .ok aad ∧
    openBox C dek c.payload aad = .ok plaintext

/-- The text of the payload is beyond a limit. -/
def PayloadLimit (C : Crypto) (data : Bytes) (password : Str) (v : ℤ) : Prop := ∃ plaintext text l,
  Decrypts C data password v plaintext ∧ utf8Decode plaintext = some text ∧ C.limit text = some l

/-- `{"t": kind, "v": l}`, in any order. -/
def Json.Typed (j : Json) (kind : String) (l : List Json) : Prop :=
  j = tagged kind (.arr l) ∨ j = .obj [(DecentWallet.str "v", .arr l),
    (DecentWallet.str "t", .str (DecentWallet.str kind))]

/-- The key that the next one must follow. -/
def lastKey (previous : Option Str) (m : List (Str × PayloadValue)) : Option Str :=
  (m.getLast?.map Prod.fst).or previous

/-- There is no room for the value, or none inside of a list or a map whose items before it can be decoded. -/
inductive Json.Overruns : Json → ℕ → Prop where
  | full (j : Json) : Overruns j 0
  | list {j x : Json} {l1 l2 : List Json} {room : ℕ} {vs : List PayloadValue} : j.Typed "list" (l1 ++ x :: l2) →
      decodeItems l1 room = .ok vs → Overruns x room → Overruns j (room + 1)
  | map {j x : Json} {k : Str} {l1 l2 : List Json} {room : ℕ} {m : List (Str × PayloadValue)} :
      j.Typed "map" (l1 ++ .arr [.str k, x] :: l2) → decodeMembers none l1 room = .ok m →
      (∀ p ∈ lastKey none m, p < k) → Overruns x room → Overruns j (room + 1)

/-- The payload is read, and there is no room to decode it. -/
def PayloadOverrun (C : Crypto) (data : Bytes) (password : Str) (v : ℤ) : Prop := ∃ plaintext j,
  Decrypts C data password v plaintext ∧ jsonLoads C unlockFailed plaintext = .ok j ∧ j.Overruns C.room

/-! ### Exceptions of the parts -/

theorem JsonLimit.not_clean (l : JsonLimit) : ¬l.raised.Clean := by
  cases l <;> decide

theorem jsonLoads_limit {e : Raised} {raw : Bytes} {text : Str} {l : JsonLimit} (ht : utf8Decode raw = some text)
    (hl : C.limit text = some l) : jsonLoads C e raw = .error l.raised := by
  rw [jsonLoads, ht]
  change loadText C e text = _
  rw [loadText, hl]

theorem parseContainer_limit {data : Bytes} {text : Str} {l : JsonLimit} (hlen : data.length ≤ maxContainerBytes)
    (ht : utf8Decode data = some text) (hl : C.limit text = some l) (v : ℤ) :
    parseContainer C data v = .error l.raised := by
  rw [parseContainer, reject, if_neg (by omega)]
  change parseContainerBody C data v = _
  rw [parseContainerBody, jsonLoads_limit ht hl]
  rfl

theorem clean_parseContainer {data : Bytes} (hlen : data.length ≤ maxContainerBytes) (v : ℤ) :
    Fails Raised.Clean (parseContainer C data v) ↔ ¬ContainerLimit C data := by
  constructor
  · rintro hclean ⟨text, l, ht, hl⟩
    exact l.not_clean (hclean _ (parseContainer_limit hlen ht hl v))
  · intro hlimit
    exact parseContainer_fails (by decide) (by decide) (fun text l ht hl => absurd ⟨text, l, ht, hl⟩ hlimit) v

/-! ### Decoding without room -/

theorem lastKey_cons (previous : Option Str) (k : Str) (v : PayloadValue) (m : List (Str × PayloadValue)) :
    lastKey previous ((k, v) :: m) = lastKey (some k) m := by
  cases h : m.getLast? with
  | none => simp [lastKey, List.getLast?_cons, h]
  | some p => simp [lastKey, List.getLast?_cons, h]

theorem decodeItems_append_error {l1 : List Json} {room : ℕ} {vs : List PayloadValue} {x : Json} {e : Raised}
    (h1 : decodeItems l1 room = .ok vs) (hx : decodeValue x room = .error e) (l2 : List Json) :
    decodeItems (l1 ++ x :: l2) room = .error e := by
  induction l1 generalizing vs with
  | nil =>
    rw [List.nil_append, decodeItems, hx]
    rfl
  | cons j l1 ih =>
    simp only [decodeItems, bind_eq_ok, pure_eq_ok] at h1
    obtain ⟨v, hv, vs', hvs, -⟩ := h1
    rw [List.cons_append, decodeItems, hv]
    change (decodeItems (l1 ++ x :: l2) room >>= _) = _
    rw [ih hvs]
    rfl

/-- An entry is an array of a key, which follows the key before, and a value. -/
theorem decodeMembers_cons_ok {previous : Option Str} {j : Json} {l : List Json} {room : ℕ}
    {m : List (Str × PayloadValue)} (h : decodeMembers previous (j :: l) room = .ok m) :
    ∃ k x v m', j = .arr [.str k, x] ∧ (¬∃ p ∈ previous, k ≤ p) ∧ decodeValue x room = .ok v ∧
      decodeMembers (some k) l room = .ok m' ∧ m = (k, v) :: m' := by
  rw [decodeMembers.eq_def] at h
  split at h
  · rename_i hnil
    cases hnil
  · rename_i hcons
    cases hcons
    simp only [bind_eq_ok, reject_eq_ok, pure_eq_ok] at h
    obtain ⟨_, hk, v, hv, m', hm', rfl⟩ := h
    exact ⟨_, _, v, m', rfl, hk, hv, hm', rfl⟩
  · cases h

theorem decodeMembers_append_error {l1 : List Json} {previous : Option Str} {room : ℕ} {m : List (Str × PayloadValue)}
    {k : Str} {x : Json} {e : Raised} (h1 : decodeMembers previous l1 room = .ok m)
    (hk : ∀ p ∈ lastKey previous m, p < k) (hx : decodeValue x room = .error e) (l2 : List Json) :
    decodeMembers previous (l1 ++ .arr [.str k, x] :: l2) room = .error e := by
  induction l1 generalizing previous m with
  | nil =>
    cases Except.ok.inj h1
    have hnot : ¬∃ p ∈ previous, k ≤ p := by
      rintro ⟨p, hp, hle⟩
      exact absurd (hk p (by simpa [lastKey] using hp)) (not_lt.2 hle)
    rw [List.nil_append, decodeMembers, reject, if_neg hnot, hx]
    rfl
  | cons j l1 ih =>
    obtain ⟨k', x', v, m', rfl, hprevious, hv, hm', rfl⟩ := decodeMembers_cons_ok h1
    rw [lastKey_cons] at hk
    rw [List.cons_append, decodeMembers, reject, if_neg hprevious, hv]
    change (decodeMembers (some k') (l1 ++ .arr [.str k, x] :: l2) room >>= _) = _
    rw [ih hm' hk]
    rfl

theorem decodeValue_typed {j : Json} {kind : String} {l : List Json} (h : j.Typed kind l) (room : ℕ) :
    decodeValue j (room + 1) = decodeTagged (str kind) (.arr l) room := by
  have hne : str "v" ≠ str "t" := by decide
  rcases h with rfl | rfl
  · exact decodeValue_tagged kind _ room
  · simp [decodeValue, decodeEntry, hne]

theorem Json.Overruns.error {j : Json} {room : ℕ} (h : j.Overruns room) :
    decodeValue j room = .error recursionError := by
  induction h with
  | full j => cases j <;> rfl
  | list htyped h1 _ ih =>
    rw [decodeValue_typed htyped, decodeTagged, if_pos rfl, decodeItems_append_error h1 ih]
    rfl
  | map htyped h1 hk _ ih =>
    have hne : DecentWallet.str "map" ≠ DecentWallet.str "list" := by decide
    rw [decodeValue_typed htyped, decodeTagged, if_neg hne, if_pos rfl, decodeMembers_append_error h1 hk ih]
    rfl

/-- What may be raised by a decoder: the form is wrong, or it has run out of stack, and then `overrun` is so. -/
def Raised.Decoding (overrun : Prop) (e : Raised) : Prop := e = invalidContainer ∨ e = recursionError ∧ overrun

section

variable {room : ℕ}

theorem decodeItems_fails (hvalue : ∀ x, Fails (Raised.Decoding (x.Overruns room)) (decodeValue x room))
    (l : List Json) :
    Fails (Raised.Decoding (∃ l1 x l2 vs, l = l1 ++ x :: l2 ∧ decodeItems l1 room = .ok vs ∧ x.Overruns room))
      (decodeItems l room) := by
  induction l with
  | nil => exact Fails.ok _
  | cons j l ih =>
    rw [decodeItems]
    refine Fails.bind_ok (fun e he => (hvalue j e he).imp_right fun hover => ⟨hover.1, [], j, l, [], rfl, rfl, hover.2⟩)
      fun v hv => Fails.bind (fun e he => (ih e he).imp_right fun hover => ⟨hover.1, ?_⟩) fun _ => Fails.ok _
    obtain ⟨-, l1, x, l2, vs, rfl, hvs, hx⟩ := hover
    refine ⟨j :: l1, x, l2, v :: vs, rfl, ?_, hx⟩
    rw [decodeItems, hv, hvs]
    rfl

theorem decodeMembers_fails (hvalue : ∀ x, Fails (Raised.Decoding (x.Overruns room)) (decodeValue x room))
    (l : List Json) (previous : Option Str) : Fails (Raised.Decoding (∃ l1 k x l2 m, l = l1 ++ .arr [.str k, x] :: l2 ∧
      decodeMembers previous l1 room = .ok m ∧ (∀ p ∈ lastKey previous m, p < k) ∧ x.Overruns room))
      (decodeMembers previous l room) := by
  induction l generalizing previous with
  | nil => exact Fails.ok _
  | cons j l ih =>
    rw [decodeMembers.eq_def]
    split
    · exact Fails.ok _
    · rename_i k x l' hcons
      cases hcons
      refine Fails.bind_ok (Fails.reject (.inl rfl) _) fun _ hk =>
        Fails.bind_ok (fun e he => (hvalue x e he).imp_right fun hover => ⟨hover.1, ?_⟩) fun v hv =>
        Fails.bind (fun e he => (ih (some k) e he).imp_right fun hover => ⟨hover.1, ?_⟩) fun _ => Fails.ok _
      · refine ⟨[], k, x, l, [], rfl, rfl, fun p hp => ?_, hover.2⟩
        exact not_le.1 fun hle => reject_eq_ok.1 hk ⟨p, by simpa [lastKey] using hp, hle⟩
      · obtain ⟨-, l1, k', x', l2, m, rfl, hm, hlast, hx⟩ := hover
        refine ⟨.arr [.str k, x] :: l1, k', x', l2, (k, v) :: m, rfl, ?_, ?_, hx⟩
        · rw [decodeMembers, hk, hv, hm]
          rfl
        · rwa [lastKey_cons]
    · exact Fails.error (.inl rfl)

/-- A tagged value other than a list or a map needs no room. -/
theorem decodeTagged_fails (hvalue : ∀ x, Fails (Raised.Decoding (x.Overruns room)) (decodeValue x room)) {j : Json}
    {kind : Str} {v : Json} (hj : ∀ {name l}, kind = str name → v = .arr l → j.Typed name l) :
    Fails (Raised.Decoding (j.Overruns (room + 1))) (decodeTagged kind v room) := by
  cases v with
  | bool b =>
    rw [decodeTagged]
    exact Fails.ite (Fails.ok _) (Fails.error (.inl rfl))
  | str s =>
    rw [decodeTagged]
    exact Fails.ite (Fails.ok _)
      (Fails.ite ((b64Decode_fails (.inl rfl) _ _).bind fun _ => Fails.ok _) (Fails.error (.inl rfl)))
  | int n =>
    rw [decodeTagged]
    exact Fails.ite (Fails.ok _) (Fails.error (.inl rfl))
  | arr l =>
    rw [decodeTagged]
    split_ifs with hlist hmap
    · refine Fails.bind (fun e he => (decodeItems_fails hvalue l e he).imp_right fun hover => ⟨hover.1, ?_⟩) fun _ =>
        Fails.ok _
      obtain ⟨-, l1, x, l2, vs, rfl, hvs, hx⟩ := hover
      exact .list (hj hlist rfl) hvs hx
    · refine Fails.bind (fun e he => (decodeMembers_fails hvalue l none e he).imp_right fun hover =>
        ⟨hover.1, ?_⟩) fun _ => Fails.ok _
      obtain ⟨-, l1, k, x, l2, m, rfl, hm, hk, hx⟩ := hover
      exact .map (hj hmap rfl) hm hk hx
    · exact Fails.error (.inl rfl)
  | null => exact Fails.error (.inl rfl)
  | float f => exact Fails.error (.inl rfl)
  | obj m => exact Fails.error (.inl rfl)

end

theorem decodeValue_fails (j : Json) (room : ℕ) : Fails (Raised.Decoding (j.Overruns room)) (decodeValue j room) := by
  induction room generalizing j with
  | zero => exact fun e he => .inr ⟨by cases j <;> exact (Except.error.inj he).symm, .full j⟩
  | succ room ih =>
    cases j with
    | obj m =>
      rw [decodeValue, decodeEntry.eq_def]
      split
      · split
        · exact Fails.ite (Fails.ok _) (Fails.error (.inl rfl))
        · exact Fails.error (.inl rfl)
      · split_ifs with hk hk'
        · obtain ⟨rfl, rfl⟩ := hk
          split
          · exact decodeTagged_fails ih fun hkind hv => .inl (by rw [hkind, hv]; rfl)
          · exact Fails.error (.inl rfl)
        · obtain ⟨rfl, rfl⟩ := hk'
          split
          · exact decodeTagged_fails ih fun hkind hv => .inr (by rw [hkind, hv])
          · exact Fails.error (.inl rfl)
        · exact Fails.error (.inl rfl)
      · exact Fails.error (.inl rfl)
    | _ => exact Fails.error (.inl rfl)

/-! ### Unlocking -/

theorem openBox_clean (key aad : Bytes) (box : SealedBox) : Fails Raised.Clean (openBox C key box aad) :=
  (b64Decode_fails (by decide) _ _).bind fun _ => (b64Decode_fails (by decide) _ _).bind fun _ =>
    (b64Decode_fails (by decide) _ _).bind fun _ => Fails.orRaise (by decide) _

theorem unwrapDek_clean (c : Container) (password : Str) (v : ℤ) : Fails Raised.Clean (unwrapDek C c password v) :=
  (b64Decode_fails (by decide) _ _).bind fun _ => (Fails.orRaise (by decide) _).bind fun _ =>
    (canonicalJson_fails (by decide) _).bind fun _ => (openBox_clean _ _ _).bind fun _ =>
    (Fails.reject (by decide) _).bind fun _ => Fails.ok _

theorem install_clean (stored : Payload) : Fails Raised.Clean (installSecretMaterial C stored) := by
  unfold installSecretMaterial
  refine Fails.ite ((Fails.reject (by decide) _).bind fun _ => Fails.ok _) ?_
  refine (Fails.orRaise (by decide) _).bind fun _ => Fails.bind ?_ fun _ => Fails.bind ?_ fun _ => Fails.ok _
  · unfold installPending
    exact Fails.ite ((Fails.reject (by decide) _).bind fun _ => Fails.ok _)
      ((Fails.orRaise (by decide) _).bind fun _ => (Fails.reject (by decide) _).bind fun _ => Fails.ok _)
  · unfold checkInstalledIntent
    exact Fails.ite ((Fails.reject (by decide) _).bind fun _ => (fromPayload_fails (by decide) _).bind fun _ =>
      Fails.reject (by decide) _) (Fails.ok _)

/-- `_unlock_envelope` in two halves. -/
theorem unlockEnvelope_eq (c : Container) (password : Str) (v : ℤ) : unlockEnvelope C c password v = do
    let dek ← unwrapDek C c password v
    let payload ← decodePayload C c dek v
    return (dek, payload) := by
  simp only [unlockEnvelope, unwrapDek, bind_assoc, pure_bind]

theorem Json.Overruns.not_clean {j : Json} {room : ℕ} : Fails Raised.Clean (decodeValue j room) ↔ ¬j.Overruns room := by
  constructor
  · intro hclean hover
    exact absurd (hclean _ hover.error) (by decide)
  · intro hnot e he
    rcases decodeValue_fails j room e he with rfl | ⟨-, hover⟩
    · decide
    · exact absurd hover hnot

theorem decodeOpened_clean {plaintext : Bytes} : Fails Raised.Clean (decodeOpened C plaintext) ↔
    (¬∃ text l, utf8Decode plaintext = some text ∧ C.limit text = some l) ∧
      ¬∃ j, jsonLoads C unlockFailed plaintext = .ok j ∧ j.Overruns C.room := by
  constructor
  · intro hclean
    refine ⟨?_, ?_⟩
    · rintro ⟨text, l, ht, hl⟩
      exact l.not_clean (hclean _ (by rw [decodeOpened, jsonLoads_limit ht hl]; rfl))
    · rintro ⟨j, hj, hover⟩
      have herror : decodeOpened C plaintext = .error recursionError := by
        rw [decodeOpened, hj]
        change (decodeValue j C.room >>= _) = _
        rw [hover.error]
        rfl
      exact absurd (hclean _ herror) (by decide)
  · rintro ⟨hlimit, hover⟩
    refine (jsonLoads_fails (by decide) fun text l ht hl => absurd ⟨text, l, ht, hl⟩ hlimit).bind_ok fun j hj => ?_
    exact (Json.Overruns.not_clean.2 fun hj' => hover ⟨j, hj, hj'⟩).bind fun _ => Fails.orRaise (by decide) _

theorem decodePayload_clean {c : Container} {dek : Bytes} {v : ℤ} : Fails Raised.Clean (decodePayload C c dek v) ↔
    ∀ aad plaintext, payloadAad c.payload v = .ok aad → openBox C dek c.payload aad = .ok plaintext →
      Fails Raised.Clean (decodeOpened C plaintext) := by
  constructor
  · intro hclean aad plaintext haad hopen e he
    refine hclean e ?_
    rw [decodePayload, haad]
    change (openBox C dek c.payload aad >>= _) = _
    rw [hopen]
    exact he
  · intro hopened
    exact (canonicalJson_fails (by decide) _).bind_ok fun aad haad =>
      (openBox_clean _ _ _).bind_ok fun plaintext hopen => hopened aad plaintext haad hopen

/-- The pure part of `open`. -/
def opening (C : Crypto) (data : Bytes) (password : Str) : Except Raised SecretMaterial := do
  let c ← parseContainer C data currentFormatVersion
  let unlocked ← unlockEnvelope C c password currentFormatVersion
  installSecretMaterial C unlocked.2

theorem opening_clean {data : Bytes} (hlen : data.length ≤ maxContainerBytes) (password : Str) :
    Fails Raised.Clean (opening C data password) ↔ ¬ContainerLimit C data ∧
      ¬PayloadLimit C data password currentFormatVersion ∧ ¬PayloadOverrun C data password currentFormatVersion := by
  constructor
  · intro hclean
    have hopened : ∀ {plaintext}, Decrypts C data password currentFormatVersion plaintext →
        Fails Raised.Clean (decodeOpened C plaintext) := by
      rintro plaintext ⟨c, dek, aad, hc, hdek, haad, hopen⟩
      refine decodePayload_clean.1 (fun e he => hclean e ?_) aad plaintext haad hopen
      rw [opening, hc]
      change (unlockEnvelope C c password currentFormatVersion >>= _) = _
      rw [unlockEnvelope_eq, hdek]
      change ((decodePayload C c dek currentFormatVersion >>= _) >>= _) = _
      rw [he]
      rfl
    refine ⟨?_, ?_, ?_⟩
    · rw [← clean_parseContainer hlen currentFormatVersion]
      intro e he
      exact hclean e (by rw [opening, he]; rfl)
    · rintro ⟨plaintext, text, l, hdecrypts, ht, hl⟩
      exact (decodeOpened_clean.1 (hopened hdecrypts)).1 ⟨text, l, ht, hl⟩
    · rintro ⟨plaintext, j, hdecrypts, hj, hover⟩
      exact (decodeOpened_clean.1 (hopened hdecrypts)).2 ⟨j, hj, hover⟩
  · rintro ⟨hcontainer, hlimit, hoverrun⟩
    refine ((clean_parseContainer hlen _).2 hcontainer).bind_ok fun c hc => ?_
    rw [unlockEnvelope_eq]
    refine ((unwrapDek_clean c password _).bind_ok fun dek hdek => Fails.bind ?_ fun _ => Fails.ok _).bind fun _ =>
      install_clean _
    refine decodePayload_clean.2 fun aad plaintext haad hopen => decodeOpened_clean.2 ⟨?_, ?_⟩
    · rintro ⟨text, l, ht, hl⟩
      exact hlimit ⟨plaintext, text, l, ⟨c, dek, aad, hc, hdek, haad, hopen⟩, ht, hl⟩
    · rintro ⟨j, hj, hover⟩
      exact hoverrun ⟨plaintext, j, ⟨c, dek, aad, hc, hdek, haad, hopen⟩, hj, hover⟩

/-! ### Files -/

/-- A write that fails leaves the files alone. -/
theorem writeOrLock_fails (hM : M.Working) (path : Path) (data : Bytes) (replace : Bool) (j : ℕ) (h : Host σ) :
    Ends (writeOrLock M path data replace j) h (fun _ _ => True) fun _ h' => SameFiles h h' := by
  unfold writeOrLock
  rcases hw : atomicWrite M path data replace h with ⟨r, h1⟩
  refine Ends.bind_run (attempt_ok_iff.2 hw) ?_
  cases r with
  | ok _ => exact .pure trivial
  | error e =>
    have hsame : SameFiles h h1 := by
      cases replace with
      | false => exact (atomicWrite_create_error_working hM hw).2
      | true =>
        obtain ⟨h2, hok⟩ := atomicWrite_replace_working hM path data h
        cases hok.symm.trans hw
    exact Ends.bind_run (lock_run h1) (.raise hsame)

theorem importContainer_fails (hM : M.Working) (path : Path) (data : Bytes) (password : Str) (minutes : ℤ)
    (h : Host σ) :
    Ends (importContainer C M path data password minutes) h (fun _ _ => True) fun _ h' => SameFiles h h' :=
  importContainer_ends (fun _ _ hs => hs) fun j h' h0 =>
    (writeOrLock_fails hM path data false j h').mono (fun _ _ _ => trivial) fun _ _ hs => IsTrans.trans _ _ _ h0 hs

theorem migrateContainer_fails (hM : M.Working) (path : Path) (password : Str) (minutes : ℤ) (h : Host σ) :
    Ends (migrateContainer C M path password minutes) h (fun _ _ => True) fun _ h' => SameFiles h h' :=
  migrateContainer_ends (fun _ _ hs => hs) fun data j h' h0 =>
    (writeOrLock_fails hM path data true j h').mono (fun _ _ _ => trivial) fun _ _ hs => IsTrans.trans _ _ _ h0 hs

/-! ### Exceptions of the three calls -/

theorem orStorageFailure_clean (e : Raised) : (Raised.orStorageFailure e).Clean := by
  unfold Raised.orStorageFailure
  split_ifs with he
  · exact he
  · decide

section

variable {path : Path} {password : Str} {minutes : ℤ} {data : Bytes} {h : Host σ}

/-- After its checks and its read, `open` raises what its pure part raises. -/
theorem openWallet_error_iff (hM : M.Working) (hpassword : validatePassword password none = .ok ())
    (hminutes : validateInactivity minutes = .ok ()) (hdata : h.dataAt path = some data) (e : Raised) :
    (∃ h', openWallet C M path password minutes h = (.error e, h')) ↔ opening C data password = .error e := by
  obtain ⟨s, hread⟩ := readContainer_working hM path h
  rw [hdata] at hread
  have hrun : openWallet C M path password minutes h = (do
      let c ← Prog.lift (parseContainer C data currentFormatVersion)
      let unlocked ← Prog.lift (unlockEnvelope C c password currentFormatVersion)
      initSession C M path unlocked.1 unlocked.2 c minutes) (h.setState s) := by
    rw [openWallet, bind_run_ok (lift_ok_iff.2 ⟨hpassword, rfl⟩), bind_run_ok (lift_ok_iff.2 ⟨hminutes, rfl⟩),
      bind_run_ok hread, parseContainer_take]
  rw [hrun, opening]
  cases parseContainer C data currentFormatVersion with
  | error e' => simp [bind, Except.bind]
  | ok c =>
    cases hu : unlockEnvelope C c password currentFormatVersion with
    | error e' => simp [bind, Except.bind, hu]
    | ok unlocked =>
      cases hm : installSecretMaterial C unlocked.2 with
      | error e' => simp [bind, Except.bind, hu, hm, initSession]
      | ok m => simp [bind, Except.bind, hu, hm, initSession, ask]

theorem validateInactivity_five : validateInactivity 5 = .ok () := by
  decide

theorem validateInactivity_cases (minutes : ℤ) :
    validateInactivity minutes = .ok () ∨ validateInactivity minutes = .error invalidContainer := by
  unfold validateInactivity reject
  split_ifs <;> simp

theorem openWallet_clean (hM : M.Working) (hlen : data.length ≤ maxContainerBytes)
    (hpassword : validatePassword password none = .ok ()) (hdata : h.dataAt path = some data) :
    (∀ minutes e h', openWallet C M path password minutes h = (.error e, h') → e.Clean) ↔ ¬ContainerLimit C data ∧
      ¬PayloadLimit C data password currentFormatVersion ∧ ¬PayloadOverrun C data password currentFormatVersion := by
  rw [← opening_clean hlen]
  constructor
  · intro hclean e he
    obtain ⟨h', hr⟩ := (openWallet_error_iff (M := M) hM hpassword validateInactivity_five hdata e).2 he
    exact hclean 5 e h' hr
  · intro hclean minutes e h' hr
    rcases validateInactivity_cases minutes with hm | hm
    · exact hclean e ((openWallet_error_iff hM hpassword hm hdata e).1 ⟨h', hr⟩)
    · rw [openWallet, bind_run_ok (lift_ok_iff.2 ⟨hpassword, rfl⟩), bind_run_error (lift_error_iff.2 ⟨hm, rfl⟩)] at hr
      cases hr
      decide

/-- An exception of the parser is raised as it is. -/
theorem importContainer_parse {e : Raised} (hpassword : validatePassword password none = .ok ())
    (he : parseContainer C data currentFormatVersion = .error e) :
    importContainer C M path data password 5 h = (.error e, h) := by
  rw [importContainer, bind_run_ok (lift_ok_iff.2 ⟨hpassword, rfl⟩),
    bind_run_ok (lift_ok_iff.2 ⟨validateInactivity_five, rfl⟩)]
  exact bind_run_error (lift_error_iff.2 ⟨he, rfl⟩)

theorem importContainer_clean (hlen : data.length ≤ maxContainerBytes)
    (hpassword : validatePassword password none = .ok ()) :
    (∀ minutes e h', importContainer C M path data password minutes h = (.error e, h') → e.Clean) ↔
      ¬ContainerLimit C data := by
  rw [← clean_parseContainer hlen currentFormatVersion]
  constructor
  · intro hclean e he
    exact hclean 5 e h (importContainer_parse hpassword he)
  · intro hclean minutes e h' hr
    simp only [importContainer, bind_error_iff, lift_error_iff, lift_ok_iff, mapError_error_iff, hpassword] at hr
    rcases hr with ⟨hr, -⟩ | ⟨_, _, -, ⟨hr, -⟩ | ⟨_, _, -, ⟨hr, -⟩ | ⟨c, h1, -, e', -, rfl⟩⟩⟩
    · cases hr
    · rcases validateInactivity_cases minutes with hm | hm
      · cases hm.symm.trans hr
      · cases hm.symm.trans hr
        decide
    · exact hclean e hr
    · exact orStorageFailure_clean e'

theorem migrateContainer_parse (hM : M.Working) {e : Raised} (hpassword : validatePassword password none = .ok ())
    (hdata : h.dataAt path = some data) (he : parseContainer C data 1 = .error e) :
    ∃ h', migrateContainer C M path password 5 h = (.error e, h') := by
  obtain ⟨s, hread⟩ := readContainer_working hM path h
  rw [hdata] at hread
  refine ⟨h.setState s, ?_⟩
  rw [migrateContainer, bind_run_ok (lift_ok_iff.2 ⟨hpassword, rfl⟩),
    bind_run_ok (lift_ok_iff.2 ⟨validateInactivity_five, rfl⟩), bind_run_ok hread, parseContainer_take]
  exact bind_run_error (lift_error_iff.2 ⟨he, rfl⟩)

theorem migrateContainer_clean (hM : M.Working) (hlen : data.length ≤ maxContainerBytes)
    (hpassword : validatePassword password none = .ok ()) (hdata : h.dataAt path = some data) :
    (∀ minutes e h', migrateContainer C M path password minutes h = (.error e, h') → e.Clean) ↔
      ¬ContainerLimit C data := by
  rw [← clean_parseContainer hlen 1]
  constructor
  · intro hclean e he
    obtain ⟨h', hr⟩ := migrateContainer_parse (M := M) hM hpassword hdata he
    exact hclean 5 e h' hr
  · intro hclean minutes e h' hr
    obtain ⟨s, hread⟩ := readContainer_working hM path h
    rw [hdata] at hread
    rcases validateInactivity_cases minutes with hm | hm
    · rw [migrateContainer, bind_run_ok (lift_ok_iff.2 ⟨hpassword, rfl⟩), bind_run_ok (lift_ok_iff.2 ⟨hm, rfl⟩),
        bind_run_ok hread, parseContainer_take] at hr
      simp only [bind_error_iff, lift_error_iff, lift_ok_iff, mapError_error_iff] at hr
      rcases hr with ⟨hr, -⟩ | ⟨c, h1, -, e', -, rfl⟩
      · exact hclean e hr
      · exact orStorageFailure_clean e'
    · rw [migrateContainer, bind_run_ok (lift_ok_iff.2 ⟨hpassword, rfl⟩),
        bind_run_error (lift_error_iff.2 ⟨hm, rfl⟩)] at hr
      cases hr
      decide

end

namespace Sample

/-- A payload that is read, and whose second item has no known type. -/
def untyped : Bytes := utf8Raw (str "\x7b\"t\":\"list\",\"v\":[\x7b\"t\":\"null\"\x7d,\x7b\"t\":\"other\"\x7d]\x7d")

/-- A container around it, sealed like the wallet's own. -/
def hostile : Container where
  version := currentFormatVersion
  kdf := ownHeader
  wrap := (((wrapAad ownHeader currentFormatVersion).bind fun aad =>
    sealBox checked [] (List.replicate 24 5) aad (List.replicate 32 9)).toOption).getD ⟨[], [], []⟩
  payload := ((sealPayload checked (List.replicate 32 9) untyped (List.replicate 24 5)).toOption).getD ⟨[], [], []⟩

def hostileBytes : Bytes := (serialize hostile).toOption.getD []

theorem hostile_facts :
    (openWallet checked machine (str "w") password 5 (holding hostileBytes)).1 = .error .invalidContainer ∧
      hostileBytes.length ≤ maxContainerBytes := by
  decide +kernel

end Sample

namespace Sample

/-- The longest run of digits, after one of `current` digits. -/
def digitRun : ℕ → Str → ℕ
  | current, [] => current
  | current, c :: text => max current (digitRun (if 48 ≤ c ∧ c ≤ 57 then current + 1 else 0) text)

/-- CPython converts no integer literal of more than 4300 digits. -/
def limited : Crypto := { checked with limit := fun text => if 4300 < digitRun 0 text then some .digits else none }

theorem le_digitRun (n current : ℕ) : n + current ≤ digitRun current (List.replicate n 49) := by
  induction n generalizing current with
  | zero => simp [digitRun]
  | succ n ih =>
    have hstep := ih (current + 1)
    simp only [List.replicate_succ, digitRun]
    simp only [show (48 ≤ 49 ∧ 49 ≤ 57) = True by simp, if_true]
    omega

/-- The text of one long integer. -/
def ones (n : ℕ) : Bytes := List.replicate n 49

theorem utf8Decode_ones (n : ℕ) : utf8Decode (ones n) = some (List.replicate n 49) := by
  have hraw : utf8Raw (List.replicate n 49) = ones n := by
    induction n with
    | zero => rfl
    | succ n ih => exact congrArg (List.cons 49) ih
  rw [← hraw]
  exact utf8Decode_utf8Raw (List.all_replicate.trans (by simp [isScalar]))

theorem parseContainer_ones {n : ℕ} (hn : 4300 < n) (hlen : n ≤ maxContainerBytes) (v : ℤ) :
    parseContainer limited (ones n) v = .error .valueError := by
  refine parseContainer_limit (l := .digits) ?_ (utf8Decode_ones n) (if_pos ?_) v
  · rwa [ones, List.length_replicate]
  · have := le_digitRun n 0
    omega

end Sample

end DecentWallet
