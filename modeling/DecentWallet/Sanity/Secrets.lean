import DecentWallet.Sanity.Payload
import DecentWallet.Spec.Rotation

/-! The secret material of a wallet: what `_install_secret_material` accepts, and that the payload
`_build_envelope` stores for it is accepted and gives it back. -/

namespace DecentWallet

open Raised

variable {C : Crypto}

/-! ### Key pairs -/

/-- A seed and the 32-byte public key a payload stores for it. -/
structure KeyPair (C : Crypto) (seed : Bytes) (publicKey : PayloadValue) (key : Bytes) : Prop where
  value : publicKey = .bytes key
  seedLength : seed.length = keyLength
  keyLength : key.length = keyLength
  derived : C.publicKey seed = some key

theorem asBytes_eq_some {v : PayloadValue} {b : Bytes} : v.asBytes = some b ↔ v = .bytes b := by
  cases v <;> simp [PayloadValue.asBytes]

theorem isNone_eq_true {v : PayloadValue} : v.isNone = true ↔ v = .none := by
  cases v <;> simp [PayloadValue.isNone]

theorem validateSeedPublicKeyPair_eq_ok {seed publicKey : PayloadValue} {b : Bytes} :
    validateSeedPublicKeyPair C seed publicKey = .ok b ↔ seed = .bytes b ∧ ∃ key, KeyPair C b publicKey key := by
  simp only [validateSeedPublicKeyPair, orRaise_eq_ok, Option.bind_eq_bind, Option.bind_eq_some_iff, asBytes_eq_some]
  constructor
  · intro h
    obtain ⟨s, hs, key, hkey, h⟩ := h
    split_ifs at h with hc
    cases h
    exact ⟨hs, key, hkey, hc.1, hc.2.1, hc.2.2⟩
  · intro h
    obtain ⟨hs, key, hpair⟩ := h
    refine ⟨b, hs, key, hpair.value, ?_⟩
    rw [if_pos ⟨hpair.seedLength, hpair.keyLength, hpair.derived⟩]

theorem publicKeyForSecret_eq_ok {seed : Option Bytes} {stored : PayloadValue} {key : Bytes} :
    publicKeyForSecret C seed stored = .ok key ↔ ∃ s, seed = some s ∧ KeyPair C s stored key := by
  simp only [publicKeyForSecret, orRaise_eq_ok, Option.bind_eq_bind, Option.bind_eq_some_iff, asBytes_eq_some]
  constructor
  · intro h
    obtain ⟨s, hs, k, hk, h⟩ := h
    split_ifs at h with hc
    cases h
    exact ⟨s, hs, hk, hc.1, hc.2.1, hc.2.2⟩
  · intro h
    obtain ⟨s, hs, hpair⟩ := h
    refine ⟨s, hs, key, hpair.value, ?_⟩
    rw [if_pos ⟨hpair.seedLength, hpair.keyLength, hpair.derived⟩]

/-! ### Consistent secret material -/

/-- The intent of a payload names its two keys. -/
def IntentBound (p : Payload) : Prop :=
  p.has intentKey = true → p.get pendingPublicKeyKey ≠ .none ∧
    ∃ intent, RotationDispatchIntent.fromPayload (p.get intentKey) = .ok intent ∧
    p.get "public_key" = .bytes intent.predecessorOwnerPublicKey ∧
    p.get pendingPublicKeyKey = .bytes intent.successorOwnerPublicKey

/-- What `_install_secret_material` leaves. -/
structure SecretMaterial.Ok (C : Crypto) (m : SecretMaterial) : Prop where
  noSeed : m.payload.has "private_seed" = false
  noPendingSeed : m.payload.has pendingPrivateSeedKey = false
  inactive : m.seed = none → m.payload.get "public_key" = .none ∧ m.pendingSeed = none ∧ m.payload.has intentKey = false
  active : ∀ s ∈ m.seed, ∃ key, KeyPair C s (m.payload.get "public_key") key
  unstaged : m.pendingSeed = none → m.payload.get pendingPublicKeyKey = .none
  staged : ∀ s ∈ m.pendingSeed, (∃ key, KeyPair C s (m.payload.get pendingPublicKeyKey) key) ∧
    m.payload.get pendingPublicKeyKey ≠ m.payload.get "public_key"
  intent : IntentBound m.payload

theorem checkInstalledIntent_eq_ok {p : Payload} : checkInstalledIntent p = .ok () ↔ IntentBound p := by
  unfold checkInstalledIntent IntentBound
  split_ifs with h
  · simp only [h, bind_eq_ok, reject_eq_ok, isNone_eq_true, not_or, not_not, asBytes_eq_some, forall_const]
    constructor
    · intro hok
      obtain ⟨_, hne, intent, hi, hp, hs⟩ := hok
      exact ⟨hne, intent, hi, hp, hs⟩
    · intro hok
      obtain ⟨hne, intent, hi, hp, hs⟩ := hok
      exact ⟨(), hne, intent, hi, hp, hs⟩
  · simp [h]

theorem installPending_eq_ok {publicKey pendingSeed pendingPublicKey : PayloadValue} {r : Option Bytes} :
    installPending C publicKey pendingSeed pendingPublicKey = .ok r ↔
      (pendingSeed = .none ∧ pendingPublicKey = .none ∧ r = none) ∨
      ∃ s, pendingSeed = .bytes s ∧ r = some s ∧ (∃ key, KeyPair C s pendingPublicKey key) ∧
        pendingPublicKey.asBytes ≠ publicKey.asBytes := by
  unfold installPending
  split_ifs with h
  · rw [isNone_eq_true] at h
    simp only [h, bind_eq_ok, reject_eq_ok, pure_eq_ok, Bool.not_eq_false, isNone_eq_true]
    constructor
    · intro hok
      obtain ⟨_, hp, rfl⟩ := hok
      exact .inl ⟨trivial, hp, rfl⟩
    · intro hok
      rcases hok with ⟨-, hp, rfl⟩ | ⟨s, hs, -⟩
      · exact ⟨(), hp, rfl⟩
      · cases hs
  · rw [isNone_eq_true] at h
    simp only [bind_eq_ok, reject_eq_ok, pure_eq_ok, validateSeedPublicKeyPair_eq_ok]
    constructor
    · intro hok
      obtain ⟨s, ⟨hs, hpair⟩, _, hne, rfl⟩ := hok
      exact .inr ⟨s, hs, rfl, hpair, hne⟩
    · intro hok
      rcases hok with ⟨hs, -⟩ | ⟨s, hs, rfl, hpair, hne⟩
      · exact absurd hs h
      · exact ⟨s, ⟨hs, hpair⟩, (), hne, rfl⟩

/-- The payload `_build_envelope` stores for the material. -/
def SecretMaterial.stored (m : SecretMaterial) : Payload :=
  let p := match m.seed with
    | none => m.payload
    | some s => m.payload.setBytes "private_seed" s
  match m.pendingSeed with
  | none => p
  | some s => p.setBytes pendingPrivateSeedKey s

theorem get_of_not_has {p : Payload} {k : String} (h : p.has k = false) : p.get k = .none := by
  unfold Payload.has at h
  unfold Payload.get
  rw [Option.isSome_eq_false_iff, Option.isNone_iff_eq_none] at h
  rw [h]
  rfl

theorem SecretMaterial.ok_of_install {stored : Payload} {m : SecretMaterial}
    (h : installSecretMaterial C stored = .ok m) : m.Ok C := by
  unfold installSecretMaterial at h
  dsimp only at h
  split_ifs at h with hseed
  · simp only [bind_eq_ok, reject_eq_ok, pure_eq_ok, not_or, Bool.not_eq_false, Bool.not_eq_true, isNone_eq_true] at h
    obtain ⟨_, ⟨hp, -, hpp, hi⟩, rfl⟩ := h
    refine ⟨by simp [pendingPrivateSeedKey], by simp [pendingPrivateSeedKey], fun _ => ⟨hp, rfl, hi⟩, by simp,
      fun _ => hpp, by simp, fun hh => ?_⟩
    rw [hi] at hh
    cases hh
  · simp only [bind_eq_ok, pure_eq_ok, validateSeedPublicKeyPair_eq_ok, installPending_eq_ok] at h
    obtain ⟨s, ⟨-, hpair⟩, pending, hpending, _, hintent, rfl⟩ := h
    refine ⟨by simp [pendingPrivateSeedKey], by simp [pendingPrivateSeedKey], by simp, ?_, ?_, ?_,
      checkInstalledIntent_eq_ok.1 hintent⟩
    · intro t ht
      cases ht
      exact hpair
    · intro hnone
      dsimp only at hnone
      rcases hpending with ⟨-, hpp, -⟩ | ⟨t, -, ht, -⟩
      · exact hpp
      · rw [hnone] at ht
        cases ht
    · intro t ht
      rcases hpending with ⟨-, -, hnone⟩ | ⟨u, -, hu, hkey, hne⟩
      · cases hnone ▸ ht
      · obtain rfl : u = t := Option.some.inj (hu.symm.trans ht)
        exact ⟨hkey, fun heq => hne (by rw [heq])⟩

/-- The stored form of consistent material is accepted, and gives the material back. -/
theorem SecretMaterial.install_stored {m : SecretMaterial} (h : m.Ok C) : installSecretMaterial C m.stored = .ok m := by
  obtain ⟨payload, seed, pending⟩ := m
  have hrest :
      ((SecretMaterial.stored ⟨payload, seed, pending⟩).pop "private_seed").pop pendingPrivateSeedKey = payload := by
    apply Payload.ext_get
    intro k
    have h1 := h.noSeed
    have h2 := h.noPendingSeed
    simp only [Payload.has, Option.isSome_eq_false_iff, Option.isNone_iff_eq_none] at h1 h2
    simp only [Payload.entries_pop]
    split_ifs with hk1 hk2
    · rw [← hk1, h2]
    · rw [← hk2, h1]
    · cases seed <;> cases pending <;> simp [stored, Payload.entries_setBytes, hk1, hk2]
  have hget : (SecretMaterial.stored ⟨payload, seed, pending⟩).get "private_seed" = (seed.map .bytes).getD .none ∧
      (SecretMaterial.stored ⟨payload, seed, pending⟩).get pendingPrivateSeedKey = (pending.map .bytes).getD .none := by
    have h1 := get_of_not_has h.noSeed
    have h2 := get_of_not_has h.noPendingSeed
    cases seed <;> cases pending <;> simp_all [stored, pendingPrivateSeedKey]
  unfold installSecretMaterial
  rw [hrest, hget.1, hget.2]
  cases seed with
  | none =>
    obtain ⟨hp, hpending, hi⟩ := h.inactive rfl
    have hpp := h.unstaged hpending
    simp only at hp hpp hi hpending
    subst hpending
    simp only [Option.map_none, Option.getD_none, PayloadValue.isNone, if_true, hp, hpp, hi, bind_eq_ok, reject_eq_ok,
      pure_eq_ok]
    exact ⟨(), by simp, trivial⟩
  | some s =>
    have hactive : validateSeedPublicKeyPair C (.bytes s) (payload.get "public_key") = .ok s :=
      validateSeedPublicKeyPair_eq_ok.2 ⟨rfl, h.active s rfl⟩
    have hpending : installPending C (payload.get "public_key") ((pending.map .bytes).getD .none)
        (payload.get pendingPublicKeyKey) = .ok pending := by
      rw [installPending_eq_ok]
      cases pending with
      | none => exact .inl ⟨rfl, h.unstaged rfl, rfl⟩
      | some t =>
        obtain ⟨⟨key, hkey⟩, hne⟩ := h.staged t rfl
        obtain ⟨key', hkey'⟩ := h.active s rfl
        refine .inr ⟨t, rfl, rfl, ⟨key, hkey⟩, fun heq => hne ?_⟩
        simp only [hkey.value, hkey'.value, PayloadValue.asBytes, Option.some.injEq] at heq ⊢
        rw [heq]
    have hintent := checkInstalledIntent_eq_ok.2 h.intent
    simp [PayloadValue.isNone, hactive, hpending, hintent, bind_eq_ok]

/-! ### What `_build_envelope` stores -/

/-- The seeds `_build_envelope` stores. -/
def Overrides.seed (o : Overrides) (s : Session) : Option Bytes := o.activeSeed <|> s.seed

def Overrides.pending (o : Overrides) (s : Session) : Option Bytes :=
  if o.includePending then o.pendingSeed <|> s.pendingSeed else none

/-- Setting a key to the value it has changes nothing. -/
theorem Payload.set_same {p : Payload} {k : String} {v : PayloadValue} {hv : v.ordered = true}
    (h : Assoc.get p.entries (str k) = some v) : p.set k v hv = p := by
  apply Payload.ext_get
  intro j
  rw [Payload.entries_set]
  split_ifs with hj
  · rw [← hj, h]
  · rfl

theorem Payload.setBytes_same {p : Payload} {k : String} {b : Bytes} (h : p.get k = .bytes b) : p.setBytes k b = p := by
  apply Payload.set_same
  unfold Payload.get at h
  cases hg : Assoc.get p.entries (str k) with
  | none => simp [hg] at h
  | some v => simpa [hg] using h

theorem Payload.pop_same {p : Payload} {k : String} (h : p.has k = false) : p.pop k = p := by
  apply Payload.ext_get
  intro j
  rw [Payload.entries_pop]
  split_ifs with hj
  · simp only [Payload.has, Option.isSome_eq_false_iff, Option.isNone_iff_eq_none] at h
    rw [← hj, h]
  · rfl

theorem storeActive_eq {s : Session} {o : Overrides} (updated : Payload)
    (hkey : o.activeSeed = none → s.seed ≠ none → updated.get "public_key" ≠ .none ∧
      updated.get "public_key" = s.payload.get "public_key") :
    storeActive s o updated = .ok (match o.seed s with
      | none => updated
      | some seed => updated.setBytes "private_seed" seed) := by
  unfold storeActive Overrides.seed
  cases ha : o.activeSeed with
  | some seed => simp
  | none =>
    cases hs : s.seed with
    | none => simp
    | some seed =>
      obtain ⟨hne, heq⟩ := hkey ha (by simp [hs])
      have hget : Assoc.get s.payload.entries (str "public_key") = some (updated.get "public_key") := by
        rw [heq] at hne ⊢
        unfold Payload.get at hne ⊢
        cases hg : Assoc.get s.payload.entries (str "public_key") with
        | none => simp [hg] at hne
        | some v => rfl
      have hstored : Assoc.get (updated.setBytes "private_seed" seed).entries (str "public_key") =
          some (updated.get "public_key") := by
        rw [Payload.entries_setBytes, if_neg (by simp)]
        unfold Payload.get at hne ⊢
        cases hg : Assoc.get updated.entries (str "public_key") with
        | none => simp [hg] at hne
        | some v => rfl
      have hordered := (PayloadValue.ordered_map_iff.1 s.payload.ordered).2 _ (Assoc.mem_of_get hget)
      simp only [Payload.copy_eq_ok]
      exact ⟨_, hordered, hget, Payload.set_same hstored⟩

/-- The payload that is stored is the stored form of the material the session will hold. -/
theorem payloadForStorage_eq {s : Session} {o : Overrides} {updated : Payload}
    (hok : SecretMaterial.Ok C ⟨updated, o.seed s, o.pending s⟩)
    (hkey : o.activeSeed = none → s.seed ≠ none → updated.get "public_key" = s.payload.get "public_key")
    (hpop : o.includePending = false → updated.has pendingPublicKeyKey = false) :
    payloadForStorage s o updated = .ok (SecretMaterial.stored ⟨updated, o.seed s, o.pending s⟩) := by
  have hactive := storeActive_eq (s := s) (o := o) updated fun ha hs => by
    refine ⟨?_, hkey ha hs⟩
    obtain ⟨seed, hseed⟩ := Option.ne_none_iff_exists'.1 hs
    obtain ⟨key, hpair⟩ := hok.active seed (by simp [Overrides.seed, ha, hseed])
    rw [hpair.value]
    simp
  simp only [payloadForStorage, bind_eq_ok]
  refine ⟨_, hactive, ?_⟩
  unfold storePending SecretMaterial.stored
  by_cases hinclude : o.includePending = true
  · have hpending : o.pending s = (o.pendingSeed <|> s.pendingSeed) := by simp [Overrides.pending, hinclude]
    rw [if_pos hinclude, ← hpending]
    cases hp : o.pending s with
    | none => rfl
    | some seed =>
      obtain ⟨⟨key, hpair⟩, -⟩ := hok.staged seed hp
      have hvalue : updated.get pendingPublicKeyKey = .bytes key := hpair.value
      simp only [bind_eq_ok, orRaise_eq_ok, reject_eq_ok, pure_eq_ok, asBytes_eq_some]
      refine ⟨key, ?_, (), by simp [hpair.keyLength], ?_⟩
      · cases o.seed s <;> simp [pendingPublicKeyKey] at hvalue ⊢ <;> exact hvalue
      · apply Payload.setBytes_same
        cases o.seed s <;> simp [pendingPublicKeyKey, pendingPrivateSeedKey] at hvalue ⊢ <;> exact hvalue
  · have hpending : o.pending s = none := by simp [Overrides.pending, hinclude]
    have hno := hok.noPendingSeed
    have hnone := hpop (by simpa using hinclude)
    rw [if_neg hinclude, hpending]
    simp only [Except.ok.injEq]
    rw [Payload.pop_same, Payload.pop_same]
    · cases o.seed s <;> simpa [pendingPrivateSeedKey] using hno
    · rw [Payload.has_pop]
      cases o.seed s <;> simp [pendingPublicKeyKey] at hnone ⊢ <;> exact fun _ => hnone

/-! ### The material each operation leaves -/

def Session.material (s : Session) : SecretMaterial := ⟨s.payload, s.seed, s.pendingSeed⟩

namespace SecretMaterial.Ok

variable {payload : Payload} {seed pending : Option Bytes}

theorem stage (h : Ok C ⟨payload, seed, none⟩) {s t active key : Bytes} (hs : seed = some s)
    (hactive : payload.get "public_key" = .bytes active) (hnone : payload.has intentKey = false)
    (hpair : KeyPair C t (.bytes key) key) (hne : key ≠ active) :
    Ok C ⟨payload.setBytes pendingPublicKeyKey key, seed, some t⟩ where
  noSeed := by simpa [pendingPublicKeyKey] using h.noSeed
  noPendingSeed := by simpa [pendingPublicKeyKey, pendingPrivateSeedKey] using h.noPendingSeed
  inactive := by simp [hs]
  active := fun u hu => by simpa [pendingPublicKeyKey] using h.active u hu
  unstaged := by simp
  staged := fun u hu => by
    cases hu
    refine ⟨⟨key, ?_⟩, ?_⟩
    · simpa [pendingPublicKeyKey] using hpair
    · simpa [pendingPublicKeyKey, hactive] using hne
  intent := fun hhas => by simp [pendingPublicKeyKey, intentKey] at hhas hnone; simp [hnone] at hhas

theorem unstage (h : Ok C ⟨payload, seed, pending⟩) (hnone : payload.has intentKey = false) (hs : seed ≠ none) :
    Ok C ⟨payload.pop pendingPublicKeyKey, seed, none⟩ where
  noSeed := by simpa [pendingPublicKeyKey] using h.noSeed
  noPendingSeed := by simpa [pendingPublicKeyKey, pendingPrivateSeedKey] using h.noPendingSeed
  inactive := fun hn => absurd hn hs
  active := fun u hu => by simpa [pendingPublicKeyKey] using h.active u hu
  unstaged := by simp
  staged := by simp
  intent := fun hhas => by simp [pendingPublicKeyKey, intentKey] at hhas hnone; simp [hnone] at hhas

/-- A staged successor needs an active seed. -/
theorem seed_ne_none (h : Ok C ⟨payload, seed, pending⟩) (hp : pending ≠ none) : seed ≠ none := by
  intro hs
  exact hp (h.inactive hs).2.1

theorem setIntent (h : Ok C ⟨payload, seed, pending⟩) {intent : RotationDispatchIntent}
    (hactive : payload.get "public_key" = .bytes intent.predecessorOwnerPublicKey)
    (hpending : payload.get pendingPublicKeyKey = .bytes intent.successorOwnerPublicKey) :
    Ok C ⟨payload.setIntent intent, seed, pending⟩ where
  noSeed := by simpa [Payload.setIntent, intentKey] using h.noSeed
  noPendingSeed := by simpa [Payload.setIntent, intentKey, pendingPrivateSeedKey] using h.noPendingSeed
  inactive := fun hn => by
    have := (h.inactive hn).1
    simp [hactive] at this
  active := fun u hu => by simpa [Payload.setIntent, intentKey] using h.active u hu
  unstaged := fun hn => by simpa [Payload.setIntent, intentKey, pendingPublicKeyKey] using h.unstaged hn
  staged := fun u hu => by simpa [Payload.setIntent, intentKey, pendingPublicKeyKey] using h.staged u hu
  intent := fun _ => by
    simp only [pendingPublicKeyKey] at hpending
    simp [Payload.setIntent, intentKey, pendingPublicKeyKey, hactive, hpending]

theorem popIntent (h : Ok C ⟨payload, seed, pending⟩) : Ok C ⟨payload.pop intentKey, seed, pending⟩ where
  noSeed := by simpa [intentKey] using h.noSeed
  noPendingSeed := by simpa [intentKey, pendingPrivateSeedKey] using h.noPendingSeed
  inactive := fun hn => by simpa [intentKey] using ⟨(h.inactive hn).1, (h.inactive hn).2.1⟩
  active := fun u hu => by simpa [intentKey] using h.active u hu
  unstaged := fun hn => by simpa [intentKey, pendingPublicKeyKey] using h.unstaged hn
  staged := fun u hu => by simpa [intentKey, pendingPublicKeyKey] using h.staged u hu
  intent := fun hhas => by simp at hhas

theorem promote (h : Ok C ⟨payload, seed, pending⟩) {t key : Bytes} (hp : pending = some t)
    (hkey : KeyPair C t (payload.get pendingPublicKeyKey) key) :
    Ok C ⟨((payload.setBytes "public_key" key).pop pendingPublicKeyKey).pop intentKey, pending, none⟩ where
  noSeed := by simpa [intentKey, pendingPublicKeyKey] using h.noSeed
  noPendingSeed := by simpa [intentKey, pendingPublicKeyKey, pendingPrivateSeedKey] using h.noPendingSeed
  inactive := by simp [hp]
  active := fun u hu => by
    obtain rfl : t = u := Option.some.inj (hp.symm.trans hu)
    exact ⟨key, by simpa [intentKey, pendingPublicKeyKey] using
      (⟨rfl, hkey.seedLength, hkey.keyLength, hkey.derived⟩ : KeyPair C t (.bytes key) key)⟩
  unstaged := by simp [intentKey, pendingPublicKeyKey]
  staged := by simp
  intent := fun hhas => by simp at hhas

end SecretMaterial.Ok

theorem get_eq_of_entries {p : Payload} {k : String} {v : PayloadValue} (h : Assoc.get p.entries (str k) = some v) :
    p.get k = v := by
  rw [Payload.get, h]
  rfl

/-- A conditional copy of one key. -/
theorem copyIf_eq_ok {p q r : Payload} {c : Bool} {k : String} (h : p.copyIf c q k = .ok r) :
    (∀ j, j ≠ k → r.get j = p.get j ∧ r.has j = p.has j) ∧
      (c = true → r.get k = q.get k ∧ r.has k = true ∧ q.has k = true) ∧
      (c = false → r.get k = p.get k ∧ r.has k = p.has k) := by
  unfold Payload.copyIf at h
  split_ifs at h with hc
  · obtain ⟨v, hv, hget, rfl⟩ := Payload.copy_eq_ok.1 h
    refine ⟨fun j hj => ?_, fun _ => ?_, fun hf => absurd hf (by simp [hc])⟩
    · simp [Ne.symm hj]
    · have hq : q.has k = true := by rw [Payload.has, hget]; rfl
      simp [get_eq_of_entries hget, hq]
  · cases Except.ok.inj h
    exact ⟨fun _ _ => ⟨rfl, rfl⟩, fun ht => absurd ht hc, fun _ => ⟨rfl, rfl⟩⟩

/-- `update_payload` keeps the public fields of the rotation. -/
structure KeepsFields (p q : Payload) : Prop where
  publicKey : q.get "public_key" = p.get "public_key"
  pendingPublicKey : q.get pendingPublicKeyKey = p.get pendingPublicKeyKey
  intent : q.get intentKey = p.get intentKey
  hasIntent : q.has intentKey = p.has intentKey

theorem updatedPayload_keeps {s : Session} {payload updated : Payload} (hok : s.material.Ok C)
    (hfields : hasSigningField payload = false) (h : updatedPayload s payload = .ok updated) :
    KeepsFields s.payload updated ∧ updated.has "private_seed" = false ∧ updated.has pendingPrivateSeedKey = false := by
  simp only [hasSigningField, signingFields, List.any_cons, List.any_nil, Bool.or_false,
    Bool.or_eq_false_iff] at hfields
  obtain ⟨hseed, hpk, (hpseed : payload.has pendingPrivateSeedKey = false),
    (hppk : payload.has pendingPublicKeyKey = false), (hintent : payload.has intentKey = false)⟩ := hfields
  simp only [updatedPayload, bind_eq_ok] at h
  obtain ⟨p1, h1, p2, h2, h3⟩ := h
  obtain ⟨o1, t1, f1⟩ := copyIf_eq_ok h1
  obtain ⟨o2, t2, f2⟩ := copyIf_eq_ok h2
  obtain ⟨o3, t3, f3⟩ := copyIf_eq_ok h3
  refine ⟨⟨?_, ?_, ?_, ?_⟩, ?_, ?_⟩
  · rw [(o3 _ (by decide)).1, (o2 _ (by decide)).1]
    cases hs : s.seed with
    | none =>
      rw [(f1 (by simp [hs])).1, get_of_not_has hpk]
      exact (hok.inactive hs).1.symm
    | some seed => exact (t1 (by simp [hs])).1
  · rw [(o3 _ (by decide)).1]
    cases hs : s.pendingSeed with
    | none =>
      rw [(f2 (by simp [hs])).1, (o1 _ (by decide)).1, get_of_not_has hppk]
      exact (hok.unstaged hs).symm
    | some seed => exact (t2 (by simp [hs])).1
  · cases hs : s.payload.has intentKey with
    | false => rw [(f3 hs).1, (o2 _ (by decide)).1, (o1 _ (by decide)).1, get_of_not_has hintent, get_of_not_has hs]
    | true => exact (t3 hs).1
  · cases hs : s.payload.has intentKey with
    | false => rw [(f3 hs).2, (o2 _ (by decide)).2, (o1 _ (by decide)).2, hintent]
    | true => exact (t3 hs).2.1
  · rw [(o3 _ (by decide)).2, (o2 _ (by decide)).2, (o1 _ (by decide)).2, hseed]
  · rw [(o3 _ (by decide)).2, (o2 _ (by decide)).2, (o1 _ (by decide)).2, hpseed]

theorem SecretMaterial.Ok.update {s : Session} {updated : Payload} (hok : s.material.Ok C)
    (hkeep : KeepsFields s.payload updated) (hseed : updated.has "private_seed" = false)
    (hpseed : updated.has pendingPrivateSeedKey = false) : Ok C ⟨updated, s.seed, s.pendingSeed⟩ where
  noSeed := hseed
  noPendingSeed := hpseed
  inactive := fun hn => by
    rw [hkeep.publicKey, hkeep.hasIntent]
    exact hok.inactive hn
  active := fun u hu => by
    rw [hkeep.publicKey]
    exact hok.active u hu
  unstaged := fun hn => by
    rw [hkeep.pendingPublicKey]
    exact hok.unstaged hn
  staged := fun u hu => by
    rw [hkeep.pendingPublicKey, hkeep.publicKey]
    exact hok.staged u hu
  intent := by
    have := hok.intent
    unfold IntentBound at this ⊢
    rw [hkeep.hasIntent, hkeep.pendingPublicKey, hkeep.intent, hkeep.publicKey]
    exact this

end DecentWallet
