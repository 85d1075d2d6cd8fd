import DecentWallet.Sanity.Envelope
import DecentWallet.Spec.Transport

/-! Walking back to the anchor and replaying forward accepts exactly the verified histories. -/

namespace DecentWallet

open Cbor IdentityError Opened

section

variable {P : Platform} {n : Bytes}

/-! ### Opened envelopes -/

theorem peekAuthorization_of_opens {e : Bytes} {o : Opened} (h : Opens P e o) :
    peekAuthorization P e = .ok o.auth := by
  cases h with
  | legacy houter hints hkeys hupdate hsig hslen hu hauth hname hkey hklen =>
    simp [peekAuthorization, houter, bind, Except.bind, hupdate, pure, Except.pure]
  | versionOne houter hints hkeys hversion hupdate hu hauth hname hkey hklen hv hproofs =>
    simp [peekAuthorization, houter, bind, Except.bind, hversion, hupdate, hu, hauth, pure, Except.pure]

theorem Opens.decode {e : Bytes} {o : Opened} (h : Opens P e o) :
    ∃ u, decodeSignedUpdate P o.update = .ok u ∧ u.sequence = o.sequence ∧ u.authorization = o.auth ∧
      pyGet u.record 1 = some (.bytes o.ownerName) ∧ pyGet u.record 2 = some (.bytes o.ownerKey) := by
  cases h with
  | legacy _ _ _ _ _ _ hu hauth hname hkey => exact ⟨_, hu, rfl, hauth, hname, hkey⟩
  | versionOne _ _ _ _ _ hu hauth hname hkey => exact ⟨_, hu, rfl, hauth, hname, hkey⟩

/-- What the rules call a link has an authorization that names its predecessor. -/
theorem Admits.of_some {C : Primitives} {o : Opened} {h : Head} (hadm : Admits C (some h) o)
    (hauth : o.auth ≠ none) : ∃ a, o.auth = some a ∧ a.operation ∈ [2, 3, 4, 5] ∧ o.Follows a h := by
  obtain ⟨a, ha⟩ := Option.ne_none_iff_exists'.1 hauth
  refine ⟨a, ha, hadm.operation_mem ha, ?_⟩
  cases hadm with
  | legacy h => exact absurd h hauth
  | ordinary h _ hf | replaceSigners h _ hf | upgrade h _ hf | rotate h _ hf | rotateLegacy h _ hf =>
    cases ha.symm.trans h; exact hf

/-- An anchor is a legacy envelope or a genesis. -/
theorem Admits.of_none {C : Primitives} {o : Opened} (hadm : Admits C none o) :
    linkAuthorization o.auth = none := by
  cases hadm with
  | legacy h => rw [h]; rfl
  | genesis h hop => rw [h]; simp [linkAuthorization, Option.filter, hop]

theorem linkAuthorization_some {a : Authorization} {o : Option Authorization}
    (h : linkAuthorization o = some a) : o = some a ∧ a.operation ∈ [2, 3, 4, 5] := by
  obtain ⟨h1, h2⟩ := Option.filter_eq_some_iff.1 h
  exact ⟨h1, by simpa using h2⟩

/-! ### Governance -/

/-- Governance of an admitted update, given that of the state before it. -/
theorem admits_twoOfThree {C : Primitives} {h : Option Head} {o : Opened} (hadm : Admits C h o)
    (hh : ∀ p ∈ h, p.signers ≠ [] → p.threshold = some 2 ∧ p.signers.length = 3) :
    ∀ a ∈ o.auth, a.threshold = 2 ∧ a.signers.length = 3 := by
  intro a ha
  have ha : o.auth = some a := ha
  cases hadm with
  | legacy hauth => rw [hauth] at ha; cases ha
  | genesis hauth _ _ _ hgov => cases ha.symm.trans hauth; exact hgov.2
  | ordinary hauth _ _ hv1 _ hgov =>
    cases ha.symm.trans hauth
    obtain ⟨ht, hl⟩ := hh _ rfl hv1
    exact ⟨Option.some.inj (hgov.2.1.trans ht), hgov.2.2 ▸ hl⟩
  | replaceSigners hauth _ _ _ _ _ hthr hlen => cases ha.symm.trans hauth; exact ⟨hthr, hlen⟩
  | upgrade hauth _ _ _ _ hgov => cases ha.symm.trans hauth; exact hgov.2
  | rotate hauth _ _ hv1 _ hgov =>
    cases ha.symm.trans hauth
    obtain ⟨ht, hl⟩ := hh _ rfl hv1
    exact ⟨Option.some.inj (hgov.2.1.trans ht), hgov.2.2 ▸ hl⟩
  | rotateLegacy hauth _ _ _ _ hgov => cases ha.symm.trans hauth; exact hgov.2

/-- By induction along the history: every version-1 update is 2-of-3. -/
theorem verified_twoOfThree {C : Primitives} {os : List Opened} (h : Verified C os) :
    ∀ o ∈ os, ∀ a ∈ o.auth, a.threshold = 2 ∧ a.signers.length = 3 := by
  induction h with
  | anchor hadm =>
    intro o ho
    rw [List.mem_singleton.1 ho]
    exact admits_twoOfThree hadm (by simp)
  | @link o p os hadm _ _ ih =>
    intro q hq
    rcases List.mem_cons.1 hq with rfl | hq
    · refine admits_twoOfThree hadm fun h hh hne => ?_
      cases hh
      cases hp : p.auth with
      | none => simp [Opened.head, hp] at hne
      | some b =>
        obtain ⟨ht, hl⟩ := ih p (by simp) b hp
        simp [Opened.head, hp, ht, hl]
    · exact ih q hq

/-- Sequence numbers fall strictly along a history. -/
theorem verified_sequence {C : Primitives} {os : List Opened} (h : Verified C os) :
    os.Pairwise fun o p => p.sequence < o.sequence := by
  have htrans : IsTrans Opened fun o p => p.sequence < o.sequence := ⟨fun _ _ _ h1 h2 => h2.trans h1⟩
  rw [← List.isChain_iff_pairwise]
  induction h with
  | anchor => simp
  | @link o p os hadm hauth _ ih =>
    obtain ⟨a, -, -, -, hseq⟩ := hadm.of_some hauth
    have hlt : p.sequence < o.sequence := by rw [hseq]; exact Nat.lt_succ_self _
    exact List.isChain_cons_cons.2 ⟨hlt, ih⟩

/-! ### Histories -/

theorem HistoryOf.previousOk {c : List (Bytes × Opened)} {s : IdentityState} (h : HistoryOf P n c s) :
    PreviousOk n s := by
  cases c with
  | nil => cases h.state
  | cons x c =>
    obtain ⟨hx, hn⟩ := h.opens x (by simp)
    have hs := h.state
    simp only [chainState, Option.some.injEq] at hs
    subst hs
    refine ⟨hn, ?_⟩
    cases ha : x.2.auth with
    | none => simp [Opened.state, ha]
    | some a => simpa [Opened.state, ha] using (hx.wellFormed.auth a ha).idsNodup

theorem HistoryOf.head_eq {x : Bytes × Opened} {c : List (Bytes × Opened)} {s : IdentityState}
    (h : HistoryOf P n (x :: c) s) : s.head = x.2.head P.primitives := by
  have hs := h.state
  simp only [chainState, Option.some.injEq] at hs
  rw [← hs]; rfl

theorem historyOf_anchor {e : Bytes} {s : IdentityState} :
    parseIdentityEnvelope P n e none = .ok s ↔ ∃ o, HistoryOf P n [(e, o)] s := by
  rw [parseIdentityEnvelope_ok P (by simp)]
  constructor
  · rintro ⟨o, ho, hn, hadm, rfl⟩
    exact ⟨o, by simpa using ⟨ho, hn⟩, .anchor hadm, rfl⟩
  · rintro ⟨o, h⟩
    obtain ⟨ho, hn⟩ := h.opens (e, o) (by simp)
    have hv := h.verified
    cases hv with
    | anchor hadm => exact ⟨o, ho, hn, hadm, (Option.some.inj h.state).symm⟩

theorem HistoryOf.tail {x y : Bytes × Opened} {c : List (Bytes × Opened)} {s : IdentityState}
    (h : HistoryOf P n (x :: y :: c) s) : ∃ t, HistoryOf P n (y :: c) t := by
  have hv := h.verified
  cases hv with
  | link _ _ ht => exact ⟨_, fun z hz => h.opens z (by simp [List.mem_cons.1 hz]), ht, rfl⟩

theorem historyOf_link {e : Bytes} {c : List (Bytes × Opened)} {s t : IdentityState} (h : HistoryOf P n c s)
    {a : Option Authorization} (hpeek : peekAuthorization P e = .ok a) (ha : a ≠ none) :
    parseIdentityEnvelope P n e (some s) = .ok t ↔ ∃ o, HistoryOf P n ((e, o) :: c) t := by
  obtain ⟨y, c, rfl⟩ : ∃ y c', c = y :: c' := by
    cases c with
    | nil => cases h.state
    | cons y c => exact ⟨y, c, rfl⟩
  rw [parseIdentityEnvelope_ok P (by simpa using h.previousOk)]
  simp only [Option.map_some, h.head_eq]
  constructor
  · rintro ⟨o, ho, hn, hadm, rfl⟩
    have hauth : o.auth = a := by
      have := peekAuthorization_of_opens ho
      rw [hpeek] at this
      exact (Except.ok.inj this).symm
    refine ⟨o, ?_, .link hadm (hauth ▸ ha) h.verified, ?_⟩
    · intro x hx
      rcases List.mem_cons.1 hx with rfl | hx
      · exact ⟨ho, hn⟩
      · exact h.opens x hx
    · rw [chainState, h.state]
  · rintro ⟨o, h'⟩
    obtain ⟨ho, hn⟩ := h'.opens (e, o) (by simp)
    have hv := h'.verified
    cases hv with
    | link hadm =>
      have hs := h'.state
      rw [chainState, h.state] at hs
      exact ⟨o, ho, hn, hadm, (Option.some.inj hs).symm⟩

theorem predecessorEnvelopes_eq {c : List (Bytes × Opened)} {s : IdentityState} (h : HistoryOf P n c s) :
    s.predecessorEnvelopes = c.tail.map Prod.fst := by
  induction c generalizing s with
  | nil => cases h.state
  | cons x c ih =>
    have hs := Option.some.inj h.state
    have hv := h.verified
    cases c with
    | nil =>
      subst hs
      simp only [Opened.state, chainState, List.tail_cons, List.map_nil]
      cases x.2.auth <;> rfl
    | cons y c =>
      obtain ⟨t, ht⟩ := h.tail
      have hpre := ih ht
      cases hv with
      | link hadm hauth _ =>
        obtain ⟨a, ha⟩ := Option.ne_none_iff_exists'.1 hauth
        have ht' := ht.state
        simp only [chainState, Option.some.injEq] at ht' hs
        rw [← hs, ht']
        simp only [Opened.state, ha, hpre, List.tail_cons, List.map_cons, List.cons.injEq, and_true]
        rw [← ht']
        rfl

/-- The envelope shows an authorization that names a predecessor. -/
def ShowsLink (P : Platform) (e : Bytes) : Prop :=
  ∃ a, peekAuthorization P e = .ok (some a) ∧ a.operation ∈ [2, 3, 4, 5]

theorem replay_sound {c : List (Bytes × Opened)} {s t : IdentityState} (h : HistoryOf P n c s)
    {links : List Bytes} (hl : ∀ e ∈ links, ShowsLink P e) (hr : replay P n s links = .ok t) :
    ∃ c', HistoryOf P n (c' ++ c) t ∧ c'.map Prod.fst = links.reverse := by
  induction links generalizing c s with
  | nil =>
    simp only [replay, List.foldlM_nil, pure_eq_ok] at hr
    subst hr
    exact ⟨[], h, rfl⟩
  | cons e links ih =>
    simp only [replay, List.foldlM_cons, bind_eq_ok] at hr
    obtain ⟨s', hs', hr⟩ := hr
    obtain ⟨a, hpeek, -⟩ := hl e (by simp)
    obtain ⟨o, ho⟩ := (historyOf_link h hpeek (by simp)).1 hs'
    obtain ⟨c', hc', hmap⟩ := ih ho (fun e he => hl e (by simp [he])) hr
    exact ⟨c' ++ [(e, o)], by simpa using hc', by simp [hmap]⟩

theorem replay_complete {c c' : List (Bytes × Opened)} {s t : IdentityState} (h : HistoryOf P n c s)
    (h' : HistoryOf P n (c' ++ c) t) : replay P n s (c'.map Prod.fst).reverse = .ok t := by
  induction c' using List.reverseRecOn generalizing c s with
  | nil =>
    have := h.state.symm.trans h'.state
    simp [replay, Option.some.inj this]
  | append_singleton c' x ih =>
    rw [List.append_assoc, List.singleton_append] at h'
    obtain ⟨s', hs'⟩ : ∃ s', HistoryOf P n (x :: c) s' := by
      clear ih
      induction c' generalizing t with
      | nil => exact ⟨t, h'⟩
      | cons y c' ih' =>
        obtain ⟨t', ht'⟩ : ∃ t', HistoryOf P n (c' ++ x :: c) t' := by
          cases c' with
          | nil => exact h'.tail
          | cons z c' => exact h'.tail
        exact ih' ht'
    obtain ⟨ho, -⟩ := hs'.opens x (by simp)
    have hauth : x.2.auth ≠ none := by
      have hv := hs'.verified
      cases c with
      | nil => cases h.state
      | cons y c => cases hv with | link _ hl _ => exact hl
    have hparse := (historyOf_link h (peekAuthorization_of_opens ho) hauth).2 ⟨x.2, hs'⟩
    simp only [List.map_append, List.map_cons, List.map_nil, List.reverse_append, List.reverse_singleton,
      List.singleton_append, replay, List.foldlM_cons, bind_eq_ok]
    exact ⟨s', hparse, ih hs' h'⟩

/-! ### The walk -/

variable {σ : Type} (A : Adapter σ)

/-- The walk fetched `y` because `x` names it. -/
def Fetched (P : Platform) (A : Adapter σ) (n : Bytes) (renv : Option Str) (x y : Bytes) : Prop :=
  ∃ a, peekAuthorization P x = .ok (some a) ∧ a.operation ∈ [2, 3, 4, 5] ∧
    ∃ w w', fetchPredecessor A n renv a w = (.ok y, w')

/-- A walk that ends well has fetched `links`, oldest first, and an anchor below them. -/
theorem collectHistory_ok {renv : Option Str} (rem : ℕ) {chain out : List Bytes} {e : Bytes} {w w' : World σ}
    {s : IdentityState} (h : collectHistory P A n renv rem chain e w = (.ok (s, out), w')) :
    ∃ links anchor, out = links ++ chain ∧ links.length ≤ rem ∧ (∀ x ∈ links, ShowsLink P x) ∧
      (links.reverse ++ [anchor]).IsChain (Fetched P A n renv) ∧ (links.reverse ++ [anchor]).head? = some e ∧
      parseIdentityEnvelope P n anchor none = .ok s := by
  induction rem generalizing chain e w with
  | zero =>
    unfold collectHistory at h
    obtain ⟨a, w1, hpeek, h⟩ := Prog.bind_ok_iff.1 h
    simp only [Prog.lift_ok_iff] at hpeek
    cases hl : linkAuthorization a with
    | none =>
      simp only [hl] at h
      obtain ⟨s', w2, hs, h⟩ := Prog.bind_ok_iff.1 h
      simp at h hs
      exact ⟨[], e, by simp [h], le_rfl, by simp, by simp, rfl, by simp [hs, h]⟩
    | some b => simp [hl] at h
  | succ rem ih =>
    unfold collectHistory at h
    obtain ⟨a, w1, hpeek, h⟩ := Prog.bind_ok_iff.1 h
    simp only [Prog.lift_ok_iff] at hpeek
    cases hl : linkAuthorization a with
    | none =>
      simp only [hl] at h
      obtain ⟨s', w2, hs, h⟩ := Prog.bind_ok_iff.1 h
      simp at h hs
      exact ⟨[], e, by simp [h], by simp, by simp, by simp, rfl, by simp [hs, h]⟩
    | some b =>
      simp only [hl] at h
      obtain ⟨p, w2, hp, h⟩ := Prog.bind_ok_iff.1 h
      obtain ⟨links, anchor, rfl, hlen, hshow, hchain, hhead, hparse⟩ := ih h
      obtain ⟨rfl, hop⟩ := linkAuthorization_some hl
      refine ⟨links ++ [e], anchor, by simp, by simpa using hlen, ?_, ?_, by simp, hparse⟩
      · intro x hx
        rcases List.mem_append.1 hx with hx | hx
        · exact hshow x hx
        · rw [List.mem_singleton.1 hx]; exact ⟨b, hpeek.1, hop⟩
      · rw [List.reverse_append, List.reverse_singleton, List.append_assoc, List.singleton_append,
          List.isChain_cons]
        refine ⟨fun y hy => ?_, hchain⟩
        obtain rfl : p = y := Option.some.inj (hhead.symm.trans hy)
        exact ⟨b, hpeek.1, hop, w1, w2, hp⟩

theorem parseStateWithHistory_sound {renv : Option Str} {e : Bytes} {w w' : World σ} {s : IdentityState}
    (h : parseStateWithHistory P A n e renv w = (.ok s, w')) :
    ∃ c, HistoryOf P n c s ∧ c.length ≤ maxPredecessorDepth + 1 ∧ (c.map Prod.fst).head? = some e ∧
      (c.map Prod.fst).IsChain (Fetched P A n renv) := by
  unfold parseStateWithHistory at h
  obtain ⟨⟨s0, out⟩, w1, hcol, h⟩ := Prog.bind_ok_iff.1 h
  obtain ⟨hrep, -⟩ := Prog.lift_ok_iff.1 h
  obtain ⟨links, anchor, rfl, hlen, hshow, hchain, hhead, hparse⟩ := collectHistory_ok A _ hcol
  obtain ⟨o, ho⟩ := historyOf_anchor.1 hparse
  obtain ⟨c, hc, hmap⟩ := replay_sound ho (by simpa using hshow) hrep
  refine ⟨_, hc, ?_, ?_, ?_⟩
  · have : c.length = links.length := by simpa using congrArg List.length hmap
    simp; omega
  · rw [List.map_append, hmap]; simpa using hhead
  · rw [List.map_append, hmap]; simpa using hchain

/-- A walk along a verified history, when every link can be fetched in a world that satisfies `I`. -/
theorem collectHistory_complete {renv : Option Str} {I : σ → Prop} {rem : ℕ} {c : List (Bytes × Opened)}
    {s : IdentityState} (h : HistoryOf P n c s) (hlen : c.length ≤ rem + 1)
    (hfetch : (c.map Prod.fst).IsChain fun x y => ∀ a w, peekAuthorization P x = .ok (some a) → I w.state →
      ∃ w', fetchPredecessor A n renv a w = (.ok y, w') ∧ I w'.state)
    {l : List Bytes} {e : Bytes} {w : World σ} (hw : I w.state) (he : (c.map Prod.fst).head? = some e) :
    ∃ s0 x c' w', c = c' ++ [x] ∧ HistoryOf P n [x] s0 ∧ I w'.state ∧
      collectHistory P A n renv rem l e w = (.ok (s0, (c'.map Prod.fst).reverse ++ l), w') := by
  induction c generalizing rem l e w s with
  | nil => cases h.state
  | cons x c ih =>
    obtain rfl : x.1 = e := by simpa using he
    obtain ⟨ho, -⟩ := h.opens x (by simp)
    have hpeek := peekAuthorization_of_opens ho
    cases c with
    | nil =>
      have hv := h.verified
      cases hv with
      | anchor hadm =>
        refine ⟨s, x, [], w, rfl, h, hw, ?_⟩
        unfold collectHistory
        have hparse := historyOf_anchor.2 ⟨x.2, h⟩
        simp [Prog.bind_run, hpeek, hadm.of_none, hparse]
    | cons y c =>
      have hv := h.verified
      obtain ⟨t, ht⟩ := h.tail
      cases hv with
      | link hadm hauth _ =>
        obtain ⟨a, ha, hop, -⟩ := hadm.of_some hauth
        rw [List.map_cons, List.map_cons, List.isChain_cons_cons] at hfetch
        obtain ⟨w', hf, hw'⟩ := hfetch.1 a w (ha ▸ hpeek) hw
        obtain ⟨rem, rfl⟩ : ∃ r, rem = r + 1 := ⟨rem - 1, by simp at hlen; omega⟩
        obtain ⟨s0, z, c', w2, hc, hz, hw2, hcol⟩ := ih ht (by simpa using hlen) hfetch.2 (l := x.1 :: l) hw' rfl
        refine ⟨s0, z, x :: c', w2, by simp [hc], hz, hw2, ?_⟩
        have hlink : linkAuthorization (some a) = some a := by simp [linkAuthorization, Option.filter, hop]
        unfold collectHistory
        simp [Prog.bind_run, hpeek, ha, hlink, hf, hcol]

theorem parseStateWithHistory_complete {renv : Option Str} {I : σ → Prop} {c : List (Bytes × Opened)}
    {s : IdentityState} (h : HistoryOf P n c s) (hlen : c.length ≤ maxPredecessorDepth + 1)
    (hfetch : (c.map Prod.fst).IsChain fun x y => ∀ a w, peekAuthorization P x = .ok (some a) → I w.state →
      ∃ w', fetchPredecessor A n renv a w = (.ok y, w') ∧ I w'.state)
    {e : Bytes} {w : World σ} (hw : I w.state) (he : (c.map Prod.fst).head? = some e) :
    ∃ w', parseStateWithHistory P A n e renv w = (.ok s, w') ∧ I w'.state := by
  obtain ⟨s0, x, c', w', rfl, hx, hw', hcol⟩ := collectHistory_complete A h hlen hfetch (l := []) hw he
  have hrep := replay_complete hx h
  refine ⟨w', ?_, hw'⟩
  unfold parseStateWithHistory
  simp [Prog.bind_run, hcol, hrep]

theorem validateOwnerName_eq {m : Bytes} (h : validateOwnerName n = .ok m) : n = m := by
  simp only [validateOwnerName, bind_eq_ok, pure_eq_ok] at h
  obtain ⟨-, -, -, -, rfl⟩ := h; rfl

theorem readState_some {w w' : World σ} {s : IdentityState} (h : readState P A n w = (.ok (some s), w')) :
    ∃ e w1, (A.transport.getIdentityEnvelope n w.state).1 = some (.bytes e) ∧
      parseStateWithHistory P A n e none w1 = (.ok s, w') := by
  unfold readState at h
  obtain ⟨m, w1, hm, hrest⟩ := Prog.bind_ok_iff.1 h
  obtain ⟨hval, rfl⟩ := Prog.lift_ok_iff.1 hm
  obtain rfl := validateOwnerName_eq hval
  obtain ⟨f, w2, hf, hans⟩ := Prog.bind_ok_iff.1 hrest
  simp only [getIdentityEnvelope, Prod.mk.injEq, Except.ok.injEq] at hf
  rcases f with _ | _ | e | _
  · simp at hans
  · simp at hans
  · obtain ⟨s', w3, hs, hret⟩ := Prog.bind_ok_iff.1 hans
    simp only [Prog.pure_ok_iff, Option.some.injEq] at hret
    obtain ⟨rfl, rfl⟩ := hret
    exact ⟨e, w2, hf.1, hs⟩
  · simp at hans

end

end DecentWallet
