import DecentWallet.Sanity.History
import DecentWallet.Sanity.Reference
import DecentWallet.Spec.Publish

/-! What reading a state makes of arbitrary answers: a verified state, none, or an adapter error, unless a
rotation of a legacy state holds an owner key that cannot be hashed. -/

namespace DecentWallet

open Cbor IdentityError

/-! ### Keys that were checked are found -/

theorem pyGet_isSome {m : Dict} {n : ℤ} (h : n ∈ intKeys m) : (pyGet m n).isSome = true := by
  simp only [intKeys, List.mem_filterMap] at h
  obtain ⟨p, hp, hn⟩ := h
  have hkey : pyEqInt n p.1 = true := by
    cases hp1 : p.1 <;> simp [hp1] at hn
    simp [pyEqInt, hn]
  simp only [pyGet, Option.isSome_map, List.find?_isSome]
  exact ⟨p, hp, hkey⟩

/-- Only adapter errors. -/
def AdapterError (e : IdentityError) : Prop := e.isAdapterError = true

theorem stateError : AdapterError invalidIdentityState := rfl

theorem requestError : AdapterError invalidIdentityRequest := rfl

variable {P : Platform}

theorem item_fails {m : Dict} {n : ℤ} (h : n ∈ intKeys m) : Fails AdapterError (item m n) := by
  obtain ⟨v, hv⟩ := Option.isSome_iff_exists.1 (pyGet_isSome h)
  rw [item, hv]
  exact Fails.ok v

theorem requireUint_fails (v : Value) : Fails AdapterError (requireUint v) := by
  cases v with
  | int n => exact (Fails.reject requestError _).bind fun _ => Fails.ok _
  | _ => exact Fails.error requestError

theorem requireBytes_fails (l : Option ℕ) (v : Value) : Fails AdapterError (requireBytes l v) := by
  cases v with
  | bytes b => exact (Fails.reject requestError _).bind fun _ => Fails.ok _
  | _ => exact Fails.error requestError

theorem requireStr_fails (v : Value) : Fails AdapterError (requireStr v) := by
  cases v with
  | text s => exact Fails.ok _
  | _ => exact Fails.error stateError

theorem requireList_fails (v : Value) : Fails AdapterError (requireList v) := by
  cases v with
  | array xs => exact Fails.ok _
  | _ => exact Fails.error stateError

theorem requireDict_fails (v : Value) : Fails AdapterError (requireDict v) := by
  cases v with
  | map m => exact Fails.ok _
  | _ => exact Fails.error stateError

theorem requireOne_fails (v : Value) : Fails AdapterError (requireOne v) := by
  cases v with
  | int n => exact Fails.reject stateError _
  | _ => exact Fails.error stateError

theorem requireSignerId_fails (v : Value) : Fails AdapterError (requireSignerId v) := by
  cases v with
  | null => exact Fails.ok _
  | text s => exact (Fails.reject stateError _).bind fun _ => Fails.ok _
  | _ => exact Fails.error stateError

theorem requireExactKeys_fails (ks : List ℤ) (v : Value) : Fails AdapterError (requireExactKeys ks v) := by
  cases v with
  | map m => exact (Fails.reject stateError _).bind fun _ => Fails.ok _
  | _ => exact Fails.error stateError

/-- A check of the exact keys, and what reads them afterwards. -/
theorem requireExactKeys_then {α : Type} {ks : List ℤ} {v : Value} {f : Dict → Except IdentityError α}
    (hf : ∀ m, (∀ n ∈ ks, n ∈ intKeys m) → Fails AdapterError (f m)) :
    Fails AdapterError (requireExactKeys ks v >>= f) :=
  (requireExactKeys_fails ks v).bind_ok fun m hm => hf m (requireExactKeys_ok.1 hm).2.2.2

theorem validateOwnerName_fails (b : Bytes) : Fails AdapterError (validateOwnerName b) := by
  unfold validateOwnerName
  exact (Fails.reject requestError _).bind fun _ => (Fails.orRaise requestError _).bind fun _ => Fails.ok _

theorem requireCanonical_fails (data : Bytes) : Fails AdapterError (requireCanonical P data) := by
  unfold requireCanonical
  exact (Fails.reject stateError _).bind fun _ => (Fails.orRaise stateError _).bind fun _ =>
    (Fails.orRaise stateError _).bind fun _ => (Fails.reject stateError _).bind fun _ => Fails.ok _

theorem normalizeSigners_fails (vs : List Value) : ∀ seen, Fails AdapterError (normalizeSigners vs seen) := by
  induction vs with
  | nil => exact fun seen => Fails.ok seen
  | cons v vs ih =>
    intro seen
    unfold normalizeSigners
    refine requireExactKeys_then fun m hm => (item_fails (hm 1 (by simp))).bind fun i =>
      (item_fails (hm 2 (by simp))).bind fun k => (requireBytes_fails _ k).bind fun _ =>
      (requireStr_fails i).bind fun s => (Fails.reject stateError _).bind fun _ =>
      (Fails.orRaise stateError _).bind fun _ => (Fails.reject stateError _).bind fun _ =>
      (Fails.reject stateError _).bind fun _ => ih _

theorem validateAuthorization_fails (v : Value) : Fails AdapterError (validateAuthorization v) := by
  unfold validateAuthorization
  refine requireExactKeys_then fun m hm => (item_fails (hm 1 (by simp))).bind fun a =>
    (requireUint_fails a).bind fun _ => (Fails.reject stateError _).bind fun _ =>
    (item_fails (hm 2 (by simp))).bind fun b => (requireUint_fails b).bind fun _ =>
    (Fails.reject stateError _).bind fun _ => (item_fails (hm 3 (by simp))).bind fun c =>
    (requireUint_fails c).bind fun _ => (Fails.reject stateError _).bind fun _ =>
    (item_fails (hm 4 (by simp))).bind fun d => (requireUint_fails d).bind fun _ =>
    (item_fails (hm 5 (by simp))).bind fun e => (requireUint_fails e).bind fun _ =>
    (item_fails (hm 6 (by simp))).bind fun f => (requireList_fails f).bind fun vs =>
    (Fails.reject stateError _).bind fun _ => (normalizeSigners_fails vs []).bind fun _ =>
    (Fails.reject stateError _).bind fun _ => (item_fails (hm 7 (by simp))).bind fun g => (requireBytes_fails _ g).bind
    fun _ => Fails.ok _

theorem decodeSignedUpdate_fails (b : Bytes) : Fails AdapterError (decodeSignedUpdate P b) := by
  unfold decodeSignedUpdate
  refine (requireCanonical_fails b).bind fun v => (requireDict_fails v).bind fun m =>
    (Fails.reject stateError _).bind fun _ => ?_
  refine (Fails.reject stateError _).bind_ok fun _ hkeys => ?_
  have hkey : ∀ n ∈ ([1, 2, 3] : List ℤ), n ∈ intKeys m := by
    simp only [reject_eq_ok, not_and_or, not_not] at hkeys
    intro n hn
    rcases hkeys with h | h
    · exact h.2 n hn
    · exact h.2 n (by simp only [List.mem_cons] at hn ⊢; tauto)
  refine (item_fails (hkey 1 (by simp))).bind fun r => (requireExactKeys_fails _ r).bind fun _ =>
    (item_fails (hkey 2 (by simp))).bind fun p => (requireExactKeys_fails _ p).bind fun _ =>
    (item_fails (hkey 3 (by simp))).bind fun s => (requireUint_fails s).bind fun _ => ?_
  refine Fails.bind ?_ fun _ => Fails.ok _
  cases pyGet m 4 with
  | none => exact Fails.ok none
  | some v => exact (validateAuthorization_fails v).map some

theorem normalizeProofs_fails (vs : List Value) : ∀ seen, Fails AdapterError (normalizeProofs vs seen) := by
  induction vs with
  | nil => exact fun seen => Fails.ok seen
  | cons v vs ih =>
    intro seen
    unfold normalizeProofs
    refine requireExactKeys_then fun m hm => (item_fails (hm 1 (by simp))).bind fun i =>
      (requireSignerId_fails i).bind fun _ => (item_fails (hm 2 (by simp))).bind fun s =>
      (requireBytes_fails _ s).bind fun _ => (Fails.reject stateError _).bind fun _ =>
      (Fails.reject stateError _).bind fun _ => ih _

theorem validateProofList_fails (v : Value) : Fails AdapterError (validateProofList v) := by
  unfold validateProofList
  exact (requireList_fails v).bind fun vs => (normalizeProofs_fails vs []).bind fun _ =>
    (Fails.reject stateError _).bind fun _ => Fails.ok _

theorem verifySignature_fails (k u s : Bytes) : Fails AdapterError (verifySignature P k u s) :=
  Fails.reject stateError _

theorem verifyProofs_fails (keys : SignerSet) (update : Bytes) (ps : List ProofEntry) :
    Fails AdapterError (verifyProofs P keys update ps) := by
  induction ps with
  | nil => exact Fails.ok _
  | cons p ps ih =>
    unfold verifyProofs
    exact (Fails.orRaise stateError _).bind fun _ => (Fails.orRaise stateError _).bind fun _ =>
      (verifySignature_fails _ _ _).bind fun _ => ih.bind fun _ => Fails.ok _

/-! ### The key that cannot be hashed -/

/-- A rotation of the legacy state `p` that passes every check before its owner key is looked up. -/
structure UnhashableKey (n : Bytes) (sequence : ℕ) (ownerKey : Value) (a : Authorization) (p : IdentityState) :
    Prop where
  operation : a.operation = 5
  unhashable : hashable ownerKey = false
  name : p.ownerName = n
  predecessor : p.stateHash = a.predecessor
  sequence : sequence = p.sequence + 1
  legacy : p.signerSet = []
  generation : a.generation = 1
  threshold : a.threshold = 2
  signers : a.signers.length = 3

theorem isBytes_of_not_hashable {v : Value} (h : hashable v = false) (b : Bytes) : v.isBytes b = false := by
  cases v <;> simp [hashable, Value.isBytes] at h ⊢

theorem checkOperation_unhashable {n : Bytes} {sequence : ℕ} {k : Value} {a : Authorization} {p : IdentityState}
    (h : UnhashableKey n sequence k a p) : checkOperation n sequence k a (some p) = .error typeError := by
  obtain ⟨hop, hk, hname, hpred, hseq, hlegacy, hgen, hthr, hlen⟩ := h
  simp [checkOperation, hop, hk, hname, hpred, hseq, hlegacy, hgen, hthr, hlen, isBytes_of_not_hashable hk, reject]
  rfl

/-- An adapter error, or the `TypeError` of a key that cannot be hashed. -/
def OrTypeError (unhashable : Prop) (x : IdentityError) : Prop := AdapterError x ∨ x = typeError ∧ unhashable

theorem Fails.orTypeError {α : Type} {x : Except IdentityError α} {q : Prop} (h : Fails AdapterError x) :
    Fails (OrTypeError q) x := fun e he => .inl (h e he)

theorem checkOperation_fails (n : Bytes) (sequence : ℕ) (k : Value) (a : Authorization)
    (previous : Option IdentityState) :
    Fails (OrTypeError (∃ p ∈ previous, UnhashableKey n sequence k a p)) (checkOperation n sequence k a previous) := by
  have hstate : ∀ q, OrTypeError q invalidIdentityState := fun _ => .inl rfl
  unfold checkOperation
  refine Fails.ite ((Fails.reject (hstate _) _).bind fun _ => Fails.reject (hstate _) _) ?_
  refine Fails.ite (Fails.reject (hstate _) _) ?_
  by_cases h2 : a.operation = 2
  · rw [if_pos h2]
    cases previous with
    | none => exact Fails.error (hstate _)
    | some p => exact Fails.reject (hstate _) _
  rw [if_neg h2]
  by_cases h3 : a.operation = 3
  · rw [if_pos h3]
    refine (Fails.reject (hstate _) _).bind fun _ => ?_
    cases previous with
    | none => exact Fails.error (hstate _)
    | some p => exact Fails.reject (hstate _) _
  rw [if_neg h3]
  by_cases h5 : a.operation = 5
  · rw [if_pos h5]
    cases previous with
    | none => exact Fails.error (hstate _)
    | some p =>
      refine (Fails.reject (hstate _) _).bind_ok fun _ hfollows => ?_
      by_cases hlegacy : p.signerSet = []
      · rw [if_neg (by simp [hlegacy])]
        refine (Fails.reject (hstate _) _).bind_ok fun _ hfresh => ?_
        simp only [reject_eq_ok, not_or, not_not] at hfollows hfresh
        refine Fails.bind ?_ fun _ => Fails.reject (hstate _) _
        -- the set of signer keys hashes the key first
        by_cases hk : hashable k = false
        · exact fun x hx => .inr ⟨by simpa [reject, hk] using hx.symm, p, rfl, h5, hk, hfollows.1, hfollows.2.2.1,
            hfollows.2.2.2, hlegacy, hfresh.1, hfresh.2.1, hfresh.2.2⟩
        · simp [reject, hk, Fails]
      · rw [if_pos hlegacy]
        exact Fails.reject (hstate _) _
  · rw [if_neg h5]
    exact Fails.error (hstate _)

theorem checkUpgrade_fails (sequence : ℕ) (k : Value) (a : Authorization) (ps : List ProofEntry)
    (previous : Option IdentityState) : Fails AdapterError (checkUpgrade sequence k a ps previous) := by
  unfold checkUpgrade
  refine Fails.ite ?_ (Fails.ok _)
  split
  · exact Fails.reject stateError _
  · exact Fails.error stateError

theorem countSigners_fails (a : Authorization) (ids : List Str) : Fails AdapterError (countSigners a ids) := by
  unfold countSigners
  exact Fails.ite (Fails.reject stateError _) (Fails.reject stateError _)

theorem checkProofs_fails (update : Bytes) (a : Authorization) (ps : List ProofEntry)
    (previous : Option IdentityState) : Fails AdapterError (checkProofs P update a ps previous) := by
  cases previous with
  | none => exact (verifyProofs_fails _ _ _).bind fun _ => countSigners_fails _ _
  | some p =>
    unfold checkProofs
    refine Fails.ite ?_ ((verifyProofs_fails _ _ _).bind fun _ => countSigners_fails _ _)
    split
    · exact verifySignature_fails _ _ _
    · exact Fails.error stateError

/-- The envelope `e` is such a rotation, whatever its proofs are. -/
def UnhashableRotation (P : Platform) (n e : Bytes) (p : IdentityState) : Prop :=
  ∃ m update u a k, requireCanonical P e = .ok (.map m) ∧ m.any (fun q => !isInt q.1) = false ∧ keySet m [1, 2, 3] ∧
    pyGet m 1 = some (.int 1) ∧ pyGet m 2 = some (.bytes update) ∧ decodeSignedUpdate P update = .ok u ∧
    u.authorization = some a ∧ pyGet u.record 1 = some (.bytes n) ∧ pyGet u.record 2 = some k ∧
    UnhashableKey n u.sequence k a p

theorem parseIdentityEnvelope_unhashable {n e : Bytes} {p : IdentityState} (h : UnhashableRotation P n e p) :
    parseIdentityEnvelope P n e (some p) = .error typeError := by
  obtain ⟨m, update, u, a, k, hm, hints, hkeys, h1, h2, hu, ha, hname, hkey, hk⟩ := h
  have hpayload := decodeSignedUpdate_payload P hu
  have hnot : ¬keySet m [1, 2] := keySet_two_of_three hkeys
  simp [parseIdentityEnvelope, bind, Except.bind, hm, requireDict, reject, hints, hnot, hkeys, item, h1, h2, orRaise,
    requireOne, requireBytes, hu, ha, hname, hkey, hpayload, Value.isBytes, checkOperation_unhashable hk, pure,
    Except.pure]

theorem parseIdentityEnvelope_fails (n e : Bytes) (previous : Option IdentityState) :
    Fails (OrTypeError (∃ p ∈ previous, UnhashableRotation P n e p)) (parseIdentityEnvelope P n e previous) := by
  unfold parseIdentityEnvelope
  refine (requireCanonical_fails e).orTypeError.bind_ok fun v hv =>
    (requireDict_fails v).orTypeError.bind_ok fun m hm => ?_
  obtain rfl := requireDict_ok.1 hm
  refine (Fails.reject stateError _).orTypeError.bind_ok fun _ hints => ?_
  simp only [reject_eq_ok, Bool.not_eq_true] at hints
  by_cases h2 : keySet m [1, 2]
  · rw [if_pos h2]
    refine Fails.orTypeError ?_
    refine (item_fails (h2.2 1 (by simp))).bind fun a => (requireBytes_fails _ a).bind fun update =>
      (item_fails (h2.2 2 (by simp))).bind fun s => (requireBytes_fails _ s).bind fun _ =>
      (decodeSignedUpdate_fails update).bind_ok fun u hu => ?_
    obtain ⟨_, v1, -, -, -, -, -, hr, -⟩ := (decodeSignedUpdate_ok P).1 hu
    have hrecord := (requireExactKeys_ok.1 hr).2.2.2
    exact (item_fails (hrecord 1 (by simp))).bind fun _ => (Fails.reject stateError _).bind fun _ =>
      (item_fails (hrecord 2 (by simp))).bind fun k => (requireBytes_fails _ k).bind fun _ =>
      (verifySignature_fails _ _ _).bind fun _ => Fails.ok _
  · rw [if_neg h2]
    refine (Fails.reject stateError _).orTypeError.bind_ok fun _ hkeys => ?_
    simp only [reject_eq_ok, not_not] at hkeys
    refine (item_fails (hkeys.2 1 (by simp))).orTypeError.bind_ok fun one hone =>
      (requireOne_fails one).orTypeError.bind_ok fun _ hone' => ?_
    refine (item_fails (hkeys.2 2 (by simp))).orTypeError.bind_ok fun b hb =>
      (requireBytes_fails _ b).orTypeError.bind_ok fun update hb' => ?_
    refine (decodeSignedUpdate_fails update).orTypeError.bind_ok fun u hu =>
      (Fails.orRaise stateError _).orTypeError.bind_ok fun a ha => ?_
    obtain ⟨_, v1, -, -, -, -, -, hr, -⟩ := (decodeSignedUpdate_ok P).1 hu
    have hrecord := (requireExactKeys_ok.1 hr).2.2.2
    refine (item_fails (hrecord 1 (by simp))).orTypeError.bind_ok fun name hname =>
      (Fails.reject stateError _).orTypeError.bind_ok fun _ hname' =>
      (item_fails (hrecord 2 (by simp))).orTypeError.bind_ok fun k hk => ?_
    simp only [item_ok, requireOne_ok, requireBytes_ok, orRaise_eq_ok, reject_eq_ok, not_or, not_not, isBytes_iff] at *
    refine Fails.bind ?_ fun _ => Fails.orTypeError ?_
    · intro x hx
      rcases checkOperation_fails _ _ _ _ _ x hx with h | ⟨rfl, p, hp, hu'⟩
      · exact .inl h
      · exact .inr ⟨rfl, p, hp, m, update, u, a, k, hv, hints, hkeys, by rw [hone, hone'], by rw [hb, hb'.1], hu, ha,
          by rw [hname, hname'.2], hk, hu'⟩
    · exact (item_fails (hkeys.2 3 (by simp))).bind fun _ => (validateProofList_fails _).bind fun _ =>
        (checkUpgrade_fails _ _ _ _ _).bind fun _ => (checkProofs_fails _ _ _ _).bind fun _ =>
        (requireBytes_fails _ _).bind fun _ => Fails.ok _

/-! ### The walk and the replay -/

theorem peekAuthorization_fails (e : Bytes) : Fails AdapterError (peekAuthorization P e) := by
  unfold peekAuthorization
  refine (requireCanonical_fails e).bind fun v => ?_
  split
  · split
    · exact (decodeSignedUpdate_fails _).bind fun _ => Fails.ok _
    · exact Fails.ok _
  · exact Fails.ok _

variable {n : Bytes}

/-- A replayed link leaves signers behind. -/
theorem signerSet_of_link {c : List (Bytes × Opened)} {s t : IdentityState} (h : HistoryOf P n c s) {e : Bytes}
    (hl : ShowsLink P e) (ht : parseIdentityEnvelope P n e (some s) = .ok t) :
    t.signerSet ≠ [] ∧ ∃ c', HistoryOf P n c' t := by
  obtain ⟨a, hpeek, -⟩ := hl
  obtain ⟨o, ho⟩ := (historyOf_link h hpeek (by simp)).1 ht
  refine ⟨?_, _, ho⟩
  obtain ⟨hopens, -⟩ := ho.opens (e, o) (by simp)
  have hauth : o.auth = some a := Except.ok.inj ((peekAuthorization_of_opens hopens).symm.trans hpeek)
  have hthr := hopens.thresholdInRange a hauth
  have hstate := Option.some.inj ho.state
  rw [← hstate]
  intro hnil
  have hnil : a.signers = [] := by simpa [Opened.state, hauth] using hnil
  rw [hnil] at hthr
  simp at hthr
  omega

theorem replay_signed_fails {links : List Bytes} {c : List (Bytes × Opened)} {s : IdentityState} (h : HistoryOf P n c s)
    (hs : s.signerSet ≠ []) (hl : ∀ e ∈ links, ShowsLink P e) : Fails AdapterError (replay P n s links) := by
  induction links generalizing c s with
  | nil => exact Fails.ok s
  | cons e links ih =>
    refine Fails.bind_ok (fun x hx => ?_) fun t ht => ?_
    · rcases parseIdentityEnvelope_fails n e (some s) x hx with
        hx | ⟨-, p, hp, _, _, _, _, _, _, _, _, _, _, _, _, _, _, hu⟩
      · exact hx
      · cases hp
        exact absurd hu.legacy hs
    · obtain ⟨ht', c', hc'⟩ := signerSet_of_link h (hl e (by simp)) ht
      exact ih hc' ht' fun e he => hl e (by simp [he])

theorem replay_fails {links : List Bytes} {c : List (Bytes × Opened)} {s : IdentityState} (h : HistoryOf P n c s)
    (hl : ∀ e ∈ links, ShowsLink P e) :
    Fails (OrTypeError (∃ e rest, links = e :: rest ∧ UnhashableRotation P n e s)) (replay P n s links) := by
  cases links with
  | nil => exact Fails.ok s
  | cons e links =>
    refine Fails.bind_ok (fun x hx => ?_) fun t ht => ?_
    · rcases parseIdentityEnvelope_fails n e (some s) x hx with hx | ⟨rfl, p, hp, hu⟩
      · exact .inl hx
      · cases hp
        exact .inr ⟨rfl, e, links, rfl, hu⟩
    · obtain ⟨ht', c', hc'⟩ := signerSet_of_link h (hl e (by simp)) ht
      exact (replay_signed_fails hc' ht' fun e he => hl e (by simp [he])).orTypeError

section

open Prog (Ends)

variable {σ : Type} {A : Adapter σ}

theorem fetchPredecessor_fails (n : Bytes) (a : Authorization) (w : World σ) :
    Ends (fetchPredecessor A n none a) w (fun _ _ => True) fun e _ => AdapterError e := by
  unfold fetchPredecessor
  rw [if_neg (by simp)]
  refine Ends.bind (Q := fun _ _ => True) ⟨fun _ _ _ => trivial, nofun⟩ fun f w1 _ => ?_
  rcases f with _ | _ | e | _
  · exact Ends.raise (show AdapterError transportFailure from rfl)
  · exact Ends.raise stateError
  · exact Ends.pure trivial
  · exact Ends.raise stateError

theorem collectHistory_fails (n : Bytes) (rem : ℕ) : ∀ chain e (w : World σ),
    Ends (collectHistory P A n none rem chain e) w (fun _ _ => True) fun e _ => AdapterError e := by
  have hanchor : ∀ e x, parseIdentityEnvelope P n e none = .error x → AdapterError x := by
    intro e x hx
    rcases parseIdentityEnvelope_fails n e none x hx with h | ⟨-, p, hp, -⟩
    · exact h
    · cases hp
  induction rem with
  | zero =>
    intro chain e w
    unfold collectHistory
    refine Ends.bind (Q := fun _ _ => True) (Ends.lift (fun _ _ => trivial) (peekAuthorization_fails e))
      fun a w1 _ => ?_
    cases linkAuthorization a with
    | none =>
      exact Ends.bind (Q := fun _ _ => True) (Ends.lift (fun _ _ => trivial) (hanchor e)) fun _ _ _ => Ends.pure trivial
    | some b => exact Ends.raise stateError
  | succ rem ih =>
    intro chain e w
    unfold collectHistory
    refine Ends.bind (Q := fun _ _ => True) (Ends.lift (fun _ _ => trivial) (peekAuthorization_fails e))
      fun a w1 _ => ?_
    cases linkAuthorization a with
    | none =>
      exact Ends.bind (Q := fun _ _ => True) (Ends.lift (fun _ _ => trivial) (hanchor e)) fun _ _ _ => Ends.pure trivial
    | some b => exact Ends.bind (fetchPredecessor_fails n b w1) fun p w2 _ => ih _ p w2

/-- The head leads down to a legacy anchor, and the oldest update above it is a rotation whose owner key
is an array or a map. -/
def PoisonedRead (P : Platform) (A : Adapter σ) (n : Bytes) (w : World σ) : Prop :=
  validateOwnerName n = .ok n ∧ ∃ head w1 anchor e rest w2, getIdentityEnvelope A n w = (.ok (some (.bytes head)), w1) ∧
    collectHistory P A n none maxPredecessorDepth [] head w1 = (.ok (anchor, e :: rest), w2) ∧
    UnhashableRotation P n e anchor

theorem readState_fails (n : Bytes) (w : World σ) :
    Ends (readState P A n) w (fun _ _ => True) fun e _ => OrTypeError (PoisonedRead P A n w) e := by
  unfold readState
  refine Ends.bind (Q := fun m w' => validateOwnerName n = .ok m ∧ w' = w)
    (Ends.lift (fun m hm => ⟨hm, rfl⟩) fun e he => .inl (validateOwnerName_fails n e he)) ?_
  rintro m w' ⟨hm, rfl⟩
  obtain rfl := validateOwnerName_eq hm
  refine Ends.bind (Q := fun f w1 => getIdentityEnvelope A n w' = (.ok f, w1)) ⟨fun f w1 hf => hf, nofun⟩
    fun f w1 hf => ?_
  rcases f with _ | _ | head | _
  · exact Ends.raise (.inl rfl)
  · exact Ends.pure trivial
  · refine Ends.bind (Q := fun _ _ => True) ?_ fun _ _ _ => Ends.pure trivial
    unfold parseStateWithHistory
    refine Ends.bind (Q := fun r w2 => collectHistory P A n none maxPredecessorDepth [] head w1 = (.ok r, w2))
      ⟨fun r w2 hr => hr, fun e w2 hr => .inl ((collectHistory_fails n _ _ _ _).error hr)⟩ ?_
    rintro ⟨anchor, chain⟩ w2 hcol
    refine Ends.lift (fun _ _ => trivial) fun x hx => ?_
    obtain ⟨links, a, rfl, -, hshow, -, -, hparse⟩ := collectHistory_ok A _ hcol
    obtain ⟨o, ho⟩ := historyOf_anchor.1 hparse
    rcases replay_fails ho (by simpa using hshow) x hx with h | ⟨rfl, e, rest, hlinks, hu⟩
    · exact .inl h
    · exact .inr ⟨rfl, hm, head, w1, anchor, e, rest, w2, hf, by rw [← hlinks]; exact hcol, hu⟩
  · exact Ends.raise (.inl rfl)

theorem readState_poisoned {n : Bytes} {w : World σ} (h : PoisonedRead P A n w) :
    (readState P A n w).1 = .error typeError := by
  obtain ⟨hn, head, w1, anchor, e, rest, w2, hhead, hcol, hu⟩ := h
  have hreplay : replay P n anchor (e :: rest) = .error typeError := by
    simp [replay, List.foldlM_cons, parseIdentityEnvelope_unhashable hu, bind, Except.bind]
  have hparse : parseStateWithHistory P A n head none w1 = (.error typeError, w2) := by
    unfold parseStateWithHistory
    rw [Prog.bind_run_ok hcol]
    simp [hreplay]
  have hname : Prog.lift (validateOwnerName n) w = (.ok n, w) := Prog.lift_ok_iff.2 ⟨hn, rfl⟩
  unfold readState
  rw [Prog.bind_run_ok hname, Prog.bind_run_ok hhead]
  dsimp only
  rw [Prog.bind_run_error hparse]

end

/-- Reading a state from arbitrary answers: what is returned is verified, and what is raised is an
adapter error exactly unless an owner key that cannot be hashed is met, which is a `TypeError`. -/
theorem read_state_fails_cleanly_iff {σ : Type} (P : Platform) (A : Adapter σ) (n : Bytes) (w : World σ) :
    (∀ s, (readState P A n w).1 = .ok (some s) → ∃ c, HistoryOf P n c s) ∧
    (∀ e, (readState P A n w).1 = .error e → e.isAdapterError = true ∨ e = typeError) ∧
    ((∀ e, (readState P A n w).1 = .error e → e.isAdapterError = true) ↔ ¬PoisonedRead P A n w) := by
  have hfails : ∀ e, (readState P A n w).1 = .error e → OrTypeError (PoisonedRead P A n w) e :=
    fun e he => (readState_fails n w).error (Prog.run_eq he)
  refine ⟨fun s hs => ?_, fun e he => (hfails e he).imp id And.left, ?_⟩
  · obtain ⟨e, w1, -, hparse⟩ := readState_some A (Prog.run_eq hs)
    obtain ⟨c, hc, -⟩ := parseStateWithHistory_sound A hparse
    exact ⟨c, hc⟩
  · constructor
    · intro hall hpoison
      exact absurd (hall typeError (readState_poisoned hpoison)) (by decide)
    · intro hclean e he
      rcases hfails e he with h | ⟨-, h⟩
      · exact h
      · exact absurd h hclean

namespace Vector

/-- The rotation of the vector with an empty array for an owner key, and no proof at all. -/
def poisonedUpdate : Bytes :=
  encode (dict [dict [.bytes ownerName, .array []], dict [], .int 8, authorizationValue authorization])

def poisonedEnvelope : Bytes := encode (dict [.int 1, .bytes poisonedUpdate, .array []])

def poisonedAdapter : Adapter Unit :=
  { adapter with transport := { transport with
      getIdentityEnvelope := fun _ st => (some (.bytes poisonedEnvelope), st) } }

end Vector

/-- Nobody has to sign for it. -/
theorem read_state_type_error :
    (readState Vector.platform Vector.poisonedAdapter Vector.ownerName Vector.world).1 = .error typeError := by
  decide +kernel

end DecentWallet
