import DecentWallet.Sanity.Merge

/-! The history a draft carries, against the predecessors its own verification returns: a legacy
envelope forgets what stood below it. -/

namespace DecentWallet

open Cbor IdentityError

section

variable {P : Platform} {n : Bytes}

/-- Every envelope with another one below it has an authorization. -/
def Linked (P : Platform) (es : List Bytes) : Prop :=
  ∀ l x y r, es = l ++ x :: y :: r → ∃ a, peekAuthorization P x = .ok (some a)

theorem linked_singleton (x : Bytes) : Linked P [x] := by
  intro l y z r h
  have := congrArg List.length h
  simp at this
  omega

theorem linked_cons {x y : Bytes} {r : List Bytes} :
    Linked P (x :: y :: r) ↔ (∃ a, peekAuthorization P x = .ok (some a)) ∧ Linked P (y :: r) := by
  constructor
  · intro h
    exact ⟨h [] x y r rfl, fun l u v s hs => h (x :: l) u v s (by rw [hs]; rfl)⟩
  · rintro ⟨hx, hr⟩ l u v s hs
    cases l with
    | nil =>
      simp only [List.nil_append, List.cons.injEq] at hs
      exact hs.1 ▸ hx
    | cons z l =>
      simp only [List.cons_append, List.cons.injEq] at hs
      exact hr l u v s hs.2

/-- The chain below the newest envelope is a chain of its own. -/
theorem parsePreviousStateChain_cons (e y : Bytes) (r : List Bytes) :
    parsePreviousStateChain P n (some e) (y :: r) = do
      let p ← parsePreviousStateChain P n (some y) r
      return some (← parseIdentityEnvelope P n e p) := by
  simp [parsePreviousStateChain, List.foldlM_append]

/-- What one more envelope makes of the predecessors. -/
theorem predecessorEnvelopes_step {e : Bytes} {previous : Option IdentityState} {s : IdentityState}
    (hok : ∀ p ∈ previous, PreviousOk n p) (h : parseIdentityEnvelope P n e previous = .ok s) :
    s.envelopeBytes = e ∧ ((∃ a, peekAuthorization P e = .ok (some a)) ∧
        s.predecessorEnvelopes = (previous.map fun p => p.envelopeBytes :: p.predecessorEnvelopes).getD [] ∨
      peekAuthorization P e = .ok none ∧ s.predecessorEnvelopes = []) := by
  obtain ⟨o, ho, -, -, rfl⟩ := (parseIdentityEnvelope_ok P hok).1 h
  have hpeek := peekAuthorization_of_opens ho
  refine ⟨rfl, ?_⟩
  cases hauth : o.auth with
  | none => exact .inr ⟨hauth ▸ hpeek, by simp [Opened.state, hauth]⟩
  | some a =>
    refine .inl ⟨⟨a, hauth ▸ hpeek⟩, ?_⟩
    cases previous with
    | none => simp [Opened.state, hauth]
    | some p => simp [Opened.state, hauth]

/-- The predecessors of the state a chain arrives at are the chain's own exactly where it is linked. -/
theorem chain_predecessors_iff {e : Bytes} {r : List Bytes} {s : IdentityState}
    (h : parsePreviousStateChain P n (some e) r = .ok (some s)) :
    s.envelopeBytes = e ∧ (r = s.predecessorEnvelopes ↔ Linked P (e :: r)) := by
  induction r generalizing e s with
  | nil =>
    simp only [parsePreviousStateChain, List.reverse_nil, List.foldlM_nil, bind_eq_ok, pure_eq_ok,
      Option.some.injEq] at h
    obtain ⟨p, rfl, t, ht, rfl⟩ := h
    obtain ⟨he, ⟨-, hpre⟩ | ⟨-, hpre⟩⟩ := predecessorEnvelopes_step (by simp) ht
    · exact ⟨he, iff_of_true hpre.symm (linked_singleton e)⟩
    · exact ⟨he, iff_of_true hpre.symm (linked_singleton e)⟩
  | cons y r ih =>
    rw [parsePreviousStateChain_cons] at h
    simp only [bind_eq_ok, pure_eq_ok, Option.some.injEq] at h
    obtain ⟨p, hp, t, ht, rfl⟩ := h
    have hhist := parsePreviousStateChain_historyOf hp
    have hok : ∀ q ∈ p, PreviousOk n q := fun q hq => (hhist q hq).choose_spec.previousOk
    obtain ⟨q, rfl⟩ : ∃ q, p = some q := by
      simp only [parsePreviousStateChain, bind_eq_ok, pure_eq_ok] at hp
      obtain ⟨_, -, q, -, hq⟩ := hp
      exact ⟨q, hq.symm⟩
    obtain ⟨hy, hiff⟩ := ih hp
    obtain ⟨he, ⟨ha, hpre⟩ | ⟨hnone, hpre⟩⟩ := predecessorEnvelopes_step hok ht
    · refine ⟨he, ?_⟩
      rw [hpre, linked_cons, ← hiff]
      simp [hy, ha]
    · refine ⟨he, iff_of_false (by simp [hpre]) fun hl => ?_⟩
      obtain ⟨a, ha⟩ := (linked_cons.1 hl).1
      rw [hnone] at ha
      cases Except.ok.inj ha

end

/-- A draft's history is the predecessor chain of its previous state exactly where no legacy envelope
has another one below it; drafts of that kind that agree on the update and on the state are one. -/
theorem draft_history_iff {P : Platform} (d : IdentityDraft P) {e : Bytes} (he : d.previousStateEnvelope = some e) :
    ∃ s, d.previousState = some s ∧
      (d.previousStateHistory = s.predecessorEnvelopes ↔ Linked P (e :: d.previousStateHistory)) ∧
      ∀ d' : IdentityDraft P, d'.signedUpdateBytes = d.signedUpdateBytes → d'.previousStateEnvelope = some e →
        d'.previousState = some s → Linked P (e :: d.previousStateHistory) → Linked P (e :: d'.previousStateHistory) →
        d' = d ∧ ∀ b c : IdentityBundle P, b.draft = d → c.draft = d' →
          (∀ p ∈ b.proofs, ∀ q ∈ c.proofs, p.signerId ≠ q.signerId) → ∃ m, b.merge c = .ok m := by
  obtain ⟨-, -, -, -, -, -, -, -, -, hchain, -⟩ := d.contents_spec
  rw [he] at hchain
  obtain ⟨s, hs⟩ : ∃ s, d.previousState = some s := by
    simp only [parsePreviousStateChain, bind_eq_ok, pure_eq_ok] at hchain
    obtain ⟨-, -, s, -, hs⟩ := hchain
    exact ⟨s, hs.symm⟩
  rw [hs] at hchain
  have hiff := (chain_predecessors_iff hchain).2
  refine ⟨s, hs, hiff, fun d' hu he' hs' hl hl' => ?_⟩
  obtain ⟨-, -, -, -, -, -, -, -, -, hchain', -⟩ := d'.contents_spec
  rw [he', hs'] at hchain'
  have hhist : d'.previousStateHistory = d.previousStateHistory :=
    ((chain_predecessors_iff hchain').2.2 hl').trans (hiff.2 hl).symm
  obtain rfl : d' = d := IdentityDraft.ext hu (he'.trans he.symm) hhist
  refine ⟨rfl, fun b c hb hc hids => IdentityBundle.merge_ok_iff.2 ⟨hb.trans hc.symm, hids⟩⟩

/-- The ordinary update's draft has one predecessor below the rotation. -/
theorem draft_history_iff_vector : ∃ s, Vector.ordinaryDraft.previousState = some s ∧
    Vector.ordinaryDraft.previousStateHistory = s.predecessorEnvelopes ∧ s.predecessorEnvelopes ≠ [] := by
  have hpeek : peekAuthorization Vector.platform Vector.rotationEnvelope = .ok (some Vector.authorization) := by
    decide +kernel
  have hlinked : Linked Vector.platform [Vector.rotationEnvelope, Vector.legacyEnvelope] :=
    linked_cons.2 ⟨⟨_, hpeek⟩, linked_singleton _⟩
  obtain ⟨s, hs, hiff, -⟩ := draft_history_iff Vector.ordinaryDraft (e := Vector.rotationEnvelope) rfl
  have hhistory : Vector.ordinaryDraft.previousStateHistory = s.predecessorEnvelopes := hiff.2 hlinked
  exact ⟨s, hs, hhistory, hhistory ▸ by simp [Vector.ordinaryDraft]⟩

/-- The same draft with the legacy envelope once more below itself. -/
def Vector.longDraft : IdentityDraft Vector.platform :=
  ⟨Vector.rotationUpdate, some Vector.legacyEnvelope, [Vector.legacyEnvelope], Vector.draftContents, by decide +kernel⟩

/-- Both are drafts of one update on one state, which has no predecessors, and they do not merge. -/
theorem draft_history_extra :
    Vector.longDraft.signedUpdateBytes = Vector.draft.signedUpdateBytes ∧
    Vector.longDraft.previousStateEnvelope = Vector.draft.previousStateEnvelope ∧
    Vector.longDraft.previousState = Vector.draft.previousState ∧
    Vector.longDraft.previousState.map IdentityState.predecessorEnvelopes = some [] ∧
    Vector.longDraft.previousStateHistory = [Vector.legacyEnvelope] ∧
    ∀ b c : IdentityBundle Vector.platform, b.draft = Vector.draft → c.draft = Vector.longDraft →
      ∃ e, b.merge c = .error e := by
  refine ⟨rfl, rfl, rfl, rfl, rfl, fun b c hb hc => IdentityBundle.merge_error_iff.2 (.inl ?_)⟩
  rw [hb, hc]
  intro h
  exact absurd (congrArg IdentityDraft.previousStateHistory h) (by simp [Vector.draft, Vector.longDraft])

end DecentWallet
