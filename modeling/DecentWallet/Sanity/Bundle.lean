import DecentWallet.Sanity.Canonical
import DecentWallet.Sanity.History
import DecentWallet.Spec.Bundle

/-! The state a draft stands on, and the one its bundle finalizes to, have verified histories. -/

namespace DecentWallet

open Cbor IdentityError Opened

section

variable {P : Platform} {n : Bytes}

/-- One more envelope: a legacy one starts the history anew, any other extends it. -/
theorem historyOf_step {e : Bytes} {previous : Option IdentityState} {s : IdentityState}
    (hprev : ∀ p ∈ previous, ∃ c, HistoryOf P n c p) (h : parseIdentityEnvelope P n e previous = .ok s) :
    ∃ c, HistoryOf P n c s := by
  have hok : ∀ p ∈ previous, PreviousOk n p := by
    intro p hp
    obtain ⟨c, hc⟩ := hprev p hp
    exact hc.previousOk
  obtain ⟨o, ho, hname, hadm, rfl⟩ := (parseIdentityEnvelope_ok P hok).1 h
  cases hauth : o.auth with
  | none =>
    obtain ⟨signature, hproofs, hsig⟩ := hadm.legacy_signed hauth
    refine ⟨[(e, o)], by simpa using ⟨ho, hname⟩, .anchor (.legacy hauth hproofs hsig), ?_⟩
    simp [chainState, Opened.state, hauth]
  | some a =>
    cases previous with
    | none => exact ⟨[(e, o)], by simpa using ⟨ho, hname⟩, .anchor hadm, rfl⟩
    | some p =>
      obtain ⟨c, hc⟩ := hprev p rfl
      have hpeek : peekAuthorization P e = .ok (some a) := hauth ▸ peekAuthorization_of_opens ho
      obtain ⟨o', hc'⟩ := (historyOf_link hc hpeek (by simp)).1 h
      exact ⟨_, hc'⟩

theorem parsePreviousStateChain_historyOf {envelope : Option Bytes} {history : List Bytes}
    {previous : Option IdentityState} (h : parsePreviousStateChain P n envelope history = .ok previous) :
    ∀ p ∈ previous, ∃ c, HistoryOf P n c p := by
  -- the loop keeps a state with a verified history
  have hloop : ∀ (es : List Bytes) (p q : Option IdentityState), (∀ s ∈ p, ∃ c, HistoryOf P n c s) →
      es.foldlM (fun p e => do return some (← parseIdentityEnvelope P n e p)) p = .ok q →
      ∀ s ∈ q, ∃ c, HistoryOf P n c s := by
    intro es
    induction es with
    | nil =>
      intro p q hp h
      simp only [List.foldlM_nil, pure_eq_ok] at h
      exact h ▸ hp
    | cons e es ih =>
      intro p q hp h
      simp only [List.foldlM_cons, bind_eq_ok, pure_eq_ok] at h
      obtain ⟨_, ⟨s, hs, rfl⟩, hrest⟩ := h
      refine ih (some s) q ?_ hrest
      intro t ht
      cases ht
      exact historyOf_step hp hs
  cases envelope with
  | none =>
    simp only [parsePreviousStateChain, bind_eq_ok, pure_eq_ok] at h
    obtain ⟨_, -, rfl⟩ := h
    simp
  | some e =>
    simp only [parsePreviousStateChain, bind_eq_ok, pure_eq_ok] at h
    obtain ⟨q, hq, s, hs, rfl⟩ := h
    intro t ht
    cases ht
    exact historyOf_step (hloop _ _ _ (by simp) hq) hs

/-- Replaying a verified history, oldest first, arrives at its state. -/
theorem parsePreviousStateChain_complete {x : Bytes × Opened} {c : List (Bytes × Opened)} {s : IdentityState}
    (h : HistoryOf P n (x :: c) s) :
    parsePreviousStateChain P n (some x.1) (c.map Prod.fst) = .ok (some s) := by
  have hstep : ∀ (x : Bytes × Opened) (c : List (Bytes × Opened)) (t : IdentityState), HistoryOf P n (x :: c) t →
      parseIdentityEnvelope P n x.1 (chainState P c) = .ok t := by
    intro x c t ht
    cases c with
    | nil => exact historyOf_anchor.2 ⟨x.2, ht⟩
    | cons y c =>
      obtain ⟨u, hu⟩ := ht.tail
      have hv := ht.verified
      cases hv with
      | link _ hauth _ =>
        rw [hu.state]
        exact (historyOf_link hu (peekAuthorization_of_opens (ht.opens x (by simp)).1) hauth).2 ⟨x.2, ht⟩
  have hloop : ∀ (c : List (Bytes × Opened)) (t : IdentityState), HistoryOf P n c t →
      (c.map Prod.fst).reverse.foldlM (fun p e => do return some (← parseIdentityEnvelope P n e p)) none =
        .ok (some t) := by
    intro c
    induction c with
    | nil => intro t ht; cases ht.state
    | cons y c ih =>
      intro t ht
      have hfold : (c.map Prod.fst).reverse.foldlM
          (fun p e => do return some (← parseIdentityEnvelope P n e p)) none = .ok (chainState P c) := by
        cases c with
        | nil => rfl
        | cons z c =>
          obtain ⟨u, hu⟩ := ht.tail
          rw [ih u hu, hu.state]
      simp only [List.map_cons, List.reverse_cons, List.foldlM_append, List.foldlM_cons, List.foldlM_nil, bind_eq_ok,
        pure_eq_ok]
      exact ⟨_, hfold, some t, ⟨t, hstep y c t ht, rfl⟩, rfl⟩
  simp only [parsePreviousStateChain, bind_eq_ok, pure_eq_ok]
  refine ⟨chainState P c, ?_, s, hstep x c s h, rfl⟩
  cases c with
  | nil => rfl
  | cons y c =>
    obtain ⟨u, hu⟩ := h.tail
    rw [hloop _ u hu, hu.state]

/-- The parser adds at most the state before it to the predecessors. -/
theorem predecessorEnvelopes_of_parse {e : Bytes} {previous : Option IdentityState} {s : IdentityState}
    (hok : ∀ p ∈ previous, PreviousOk n p) (h : parseIdentityEnvelope P n e previous = .ok s) :
    s.envelopeBytes = e ∧ (s.predecessorEnvelopes = [] ∨
      ∃ p, previous = some p ∧ s.predecessorEnvelopes = p.envelopeBytes :: p.predecessorEnvelopes) := by
  obtain ⟨o, -, -, -, rfl⟩ := (parseIdentityEnvelope_ok P hok).1 h
  refine ⟨rfl, ?_⟩
  cases hauth : o.auth with
  | none => exact Or.inl (by simp [Opened.state, hauth])
  | some a =>
    cases previous with
    | none => exact Or.inl (by simp [Opened.state, hauth])
    | some p => exact Or.inr ⟨p, rfl, by simp [Opened.state, hauth]⟩

namespace IdentityDraft

theorem contents_spec (d : IdentityDraft P) : ∃ u, decodeSignedUpdate P d.signedUpdateBytes = .ok u ∧
    pyGet u.record 1 = some (.bytes d.ownerName) ∧ pyGet u.record 2 = some (.bytes d.ownerPublicKey) ∧
    d.ownerPublicKey.length = keyLength ∧ u.sequence = d.sequence ∧ u.authorization = d.authorization ∧
    d.previousStateHistory.length ≤ maxPredecessorDepth ∧ validateOwnerName d.ownerName = .ok d.ownerName ∧
    parsePreviousStateChain P d.ownerName d.previousStateEnvelope d.previousStateHistory = .ok d.previousState ∧
    validateDraftTransition d.ownerName d.ownerPublicKey d.sequence d.authorization d.previousState = .ok () := by
  have h := d.valid
  simp only [draftContents, bind_eq_ok, reject_eq_ok, item_ok, requireBytes_ok, pure_eq_ok, not_or, not_not,
    not_lt, Option.mem_def, Option.some.injEq, forall_eq'] at h
  obtain ⟨u, hu, _, ⟨-, hlen⟩, v, hv, m, ⟨rfl, -⟩, m', hname, v2, hv2, key, ⟨rfl, hkey⟩, p, hp, _, ht, hc⟩ := h
  obtain rfl := validateOwnerName_eq hname
  unfold ownerName ownerPublicKey sequence authorization previousState
  rw [← hc]
  exact ⟨u, hu, hv, hv2, hkey, rfl, rfl, hlen, hname, hp, ht⟩

theorem make_fields {d : IdentityDraft P} {update : Bytes} {envelope : Option Bytes} {history : List Bytes}
    (h : make update envelope history = .ok d) :
    d.signedUpdateBytes = update ∧ d.previousStateEnvelope = envelope ∧ d.previousStateHistory = history := by
  unfold make at h
  split at h
  · cases h
    exact ⟨rfl, rfl, rfl⟩
  · cases h

theorem previousState_historyOf (d : IdentityDraft P) :
    ∀ p ∈ d.previousState, ∃ c, HistoryOf P d.ownerName c p := by
  obtain ⟨u, -, -, -, -, -, -, -, -, hp, -⟩ := d.contents_spec
  exact parsePreviousStateChain_historyOf hp

theorem validateOwnerName_ok (d : IdentityDraft P) : validateOwnerName d.ownerName = .ok d.ownerName := by
  obtain ⟨u, -, -, -, -, -, -, -, hn, -⟩ := d.contents_spec
  exact hn

end IdentityDraft

theorem asRequest_ok {α : Type} {x : Except IdentityError α} {a : α} : asRequest x = .ok a ↔ x = .ok a := by
  cases x with
  | ok b => simp [asRequest]
  | error e => cases e <;> simp [asRequest]

/-- A finalized envelope parses on the state the draft stands on. -/
theorem IdentityBundle.finalize_ok {b : IdentityBundle P} {e : Bytes} (h : b.finalize = .ok e) :
    b.proofs ≠ [] ∧ ∃ s, parseIdentityEnvelope P b.draft.ownerName e b.draft.previousState = .ok s := by
  unfold finalize at h
  simp only [bind_eq_ok, reject_eq_ok, pure_eq_ok, asRequest_ok] at h
  obtain ⟨_, hne, x, -, s, hs, rfl⟩ := h
  exact ⟨hne, s, hs⟩

/-! ### What a finalized envelope says -/

end

end DecentWallet
