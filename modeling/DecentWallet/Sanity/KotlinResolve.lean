import DecentWallet.Sanity.KotlinHistory

/-! `resolve` accepts exactly the verified histories that keep the Android client's limits. -/

namespace DecentWallet.Kotlin

open Cbor WalletError Opened

section

variable {C : Primitives} {n : Bytes}

/-! ### Replaying -/

/-- The state a list of opened envelopes, newest first, arrives at. -/
def verifiedState (C : Primitives) : List (Bytes × Opened) → Option VerifiedState
  | [] => none
  | x :: c => some (.from (parsed C x.1 x.2) (verifiedState C c))

theorem from_head (x : Bytes × Opened) (prev : Option VerifiedState) :
    (VerifiedState.from (parsed C x.1 x.2) prev).head = x.2.head C := by
  simp only [VerifiedState.head, VerifiedState.from, parsed, Opened.head, Option.map_map]
  rfl

theorem Fits.previousFits {x : Bytes × Opened} (h : Fits C n x.1 x.2) (prev : Option VerifiedState) :
    PreviousFits n (.from (parsed C x.1 x.2) prev) where
  ownerName := h.ownerName
  idsNodup := by
    cases ha : x.2.auth with
    | none => simp [VerifiedState.from, parsed, ha]
    | some a => simpa [VerifiedState.from, parsed, ha] using (h.sealed.wellFormed.auth a ha).idsNodup
  generation := by
    cases ha : x.2.auth <;> simp [VerifiedState.from, parsed, ha]

/-- One transition admits what the rules admit, except a legacy envelope on top of another state. -/
theorem verifyTransition_ok {x : Bytes × Opened} (h : Fits C n x.1 x.2) {prev : Option VerifiedState}
    (hp : ∀ s ∈ prev, PreviousFits n s) {t : VerifiedState} :
    verifyTransition C n (parsed C x.1 x.2) prev = .ok t ↔ Admits C (prev.map VerifiedState.head) x.2 ∧
      (prev.isSome → x.2.auth ≠ none) ∧ t = .from (parsed C x.1 x.2) prev := by
  cases ha : x.2.auth with
  | none =>
    rw [verifyTransition_legacy h ha]
    constructor
    · rintro ⟨rfl, rfl⟩
      obtain ⟨signature, hps⟩ := h.sealed.legacy ha
      exact ⟨.legacy ha hps (h.signed ha (none, signature) (by simp [hps])), by simp, rfl⟩
    · rintro ⟨-, hsome, rfl⟩
      obtain rfl : prev = none := by cases prev <;> simp_all
      exact ⟨rfl, rfl⟩
  | some a =>
    by_cases hop : a.operation = 1
    · rw [verifyTransition_genesis h ha hop]
      constructor
      · rintro ⟨rfl, hadm, rfl⟩; exact ⟨hadm, by simp, rfl⟩
      · rintro ⟨hadm, -, rfl⟩
        cases prev with
        | none => exact ⟨rfl, hadm, rfl⟩
        | some s => exact absurd (hadm.operation_mem ha) (by simp [hop])
    · rw [verifyTransition_link h ha hop hp]
      constructor
      · rintro ⟨s, rfl, hadm, rfl⟩; exact ⟨hadm, by simp, rfl⟩
      · rintro ⟨hadm, -, rfl⟩
        cases prev with
        | none =>
          cases hadm with
          | legacy h => rw [ha] at h; cases h
          | genesis h h1 => cases ha.symm.trans h; exact absurd h1 hop
        | some s => exact ⟨s, rfl, hadm, rfl⟩

theorem verifyAll_ok {c : List (Bytes × Opened)} (hfit : ∀ x ∈ c, Fits C n x.1 x.2) {t : VerifiedState} :
    verifyAll C n (c.map fun x => parsed C x.1 x.2).reverse = .ok (some t) ↔
      Verified C (c.map Prod.snd) ∧ verifiedState C c = some t := by
  induction c generalizing t with
  | nil =>
    simp only [verifyAll, List.map_nil, List.reverse_nil, List.foldlM_nil, pure_eq_ok]
    constructor
    · intro h; cases h
    · rintro ⟨h, -⟩; cases h
  | cons x c ih =>
    have hx := hfit x (by simp)
    have ih := fun {s} => @ih (fun y hy => hfit y (by simp [hy])) s
    have hstep : verifyAll C n ((x :: c).map fun x => parsed C x.1 x.2).reverse =
        (verifyAll C n (c.map fun x => parsed C x.1 x.2).reverse >>= fun prev =>
          some <$> verifyTransition C n (parsed C x.1 x.2) prev) := by
      simp [verifyAll, List.foldlM_append]
    have hsome : ∀ prev, (some <$> verifyTransition C n (parsed C x.1 x.2) prev) = .ok (some t) ↔
        verifyTransition C n (parsed C x.1 x.2) prev = .ok t := fun prev => by
      cases verifyTransition C n (parsed C x.1 x.2) prev <;> simp [Functor.map, Except.map]
    rw [hstep, bind_eq_ok]
    simp only [hsome]
    cases c with
    | nil =>
      simp only [verifyAll, List.map_nil, List.reverse_nil, List.foldlM_nil, pure_eq_ok, exists_eq_left']
      rw [verifyTransition_ok hx (by simp)]
      simp only [Option.map_none, Option.isSome_none, Bool.false_eq_true, false_implies, true_and, List.map_cons,
        List.map_nil, verifiedState, Option.some.injEq]
      constructor
      · rintro ⟨hadm, rfl⟩; exact ⟨.anchor hadm, rfl⟩
      · rintro ⟨hv, rfl⟩
        cases hv with
        | anchor hadm => exact ⟨hadm, rfl⟩
    | cons y c =>
      have hy := hfit y (by simp)
      have hprev : ∀ prev, verifyAll C n ((y :: c).map fun x => parsed C x.1 x.2).reverse = .ok prev →
          ∃ s, prev = some s := by
        intro prev hprev
        simp only [verifyAll, List.map_cons, List.reverse_cons, List.foldlM_append, bind_eq_ok, List.foldlM_cons,
          List.foldlM_nil, pure_eq_ok] at hprev
        obtain ⟨p, -, q, hq, rfl⟩ := hprev
        cases hv : verifyTransition C n (parsed C y.1 y.2) p with
        | error => simp [hv, Functor.map, Except.map] at hq
        | ok s => simp only [hv, Functor.map, Except.map, Except.ok.injEq] at hq; exact ⟨s, hq.symm⟩
      constructor
      · rintro ⟨prev, hall, hv⟩
        obtain ⟨s, rfl⟩ := hprev prev hall
        obtain ⟨hver, hs⟩ := ih.1 hall
        have hs' := Option.some.inj hs
        subst hs'
        obtain ⟨hadm, hauth, rfl⟩ := (verifyTransition_ok hx (by simpa using hy.previousFits _)).1 hv
        rw [Option.map_some, from_head] at hadm
        exact ⟨.link hadm (hauth rfl) hver, by rw [verifiedState, hs]⟩
      · rintro ⟨hver, hs⟩
        cases hver with
        | link hadm hauth ht =>
          refine ⟨_, ih.2 ⟨ht, rfl⟩, (verifyTransition_ok hx (by simpa using hy.previousFits _)).2
            ⟨?_, fun _ => hauth, ?_⟩⟩
          · rw [Option.map_some, from_head]; exact hadm
          · exact (Option.some.inj hs).symm

/-! ### The walk -/

variable {W : Type}

/-- The envelope `x` names a predecessor, and `R` answers it with `y`. -/
def Linked (R : Bytes → Bytes → Prop) (x y : Bytes × Opened) : Prop :=
  ∃ a, x.2.auth = some a ∧ a.operation ≠ 1 ∧ R a.predecessor y.1

theorem collect_keeps {R : W → W → Prop} [Std.Refl R] [IsTrans W R] {lookup : Bytes → Prog W WalletError (Option Bytes)}
    (hlookup : ∀ hash, Prog.Keeps R (lookup hash)) (rem : ℕ) (visited : List ParsedEnvelope) (total : ℕ) (cur : Bytes) :
    Prog.Keeps R (collect C lookup n rem visited total cur) := by
  induction rem generalizing visited total cur with
  | zero =>
    unfold collect
    refine (Prog.Keeps.lift _).bind fun p => (Prog.Keeps.reject _ _).bind fun _ => ?_
    split
    · exact Prog.Keeps.pure _
    · exact Prog.Keeps.raise _
  | succ rem ih =>
    unfold collect
    refine (Prog.Keeps.lift _).bind fun p => (Prog.Keeps.reject _ _).bind fun _ => ?_
    split
    · exact Prog.Keeps.pure _
    · exact (hlookup _).bind fun _ => (Prog.Keeps.lift _).bind fun _ => (Prog.Keeps.lift _).bind fun _ => ih _ _ _

/-- The lookup answered the hash with the envelope on the way from `w` to `w'`. -/
def Answered (R : W → W → Prop) (lookup : Bytes → Prog W WalletError (Option Bytes)) (w w' : W) (hash e : Bytes) :
    Prop :=
  ∃ u u', R w u ∧ lookup hash u = (.ok (some e), u') ∧ R u' w'

theorem collect_sound {R : W → W → Prop} [Std.Refl R] [IsTrans W R] {lookup : Bytes → Prog W WalletError (Option Bytes)}
    (hlookup : ∀ hash, Prog.Keeps R (lookup hash)) (rem : ℕ)
    {visited out : List ParsedEnvelope} {total : ℕ} {cur : Bytes} {w w' : W}
    (h : collect C lookup n rem visited total cur w = (.ok out, w')) :
    ∃ c : List (Bytes × Opened), out = (c.map fun x => parsed C x.1 x.2).reverse ++ visited ∧
      (c.map Prod.fst).head? = some cur ∧ (∀ x ∈ c, Fits C n x.1 x.2) ∧ c.length ≤ rem + 1 ∧
      c.IsChain (Linked (Answered R lookup w w')) ∧
      (c.map fun x => C.sha256 x.2.update).Nodup ∧
      ∀ x ∈ c, C.sha256 x.2.update ∉ visited.map ParsedEnvelope.stateHash := by
  induction rem generalizing visited total cur w with
  | zero =>
    unfold collect at h
    obtain ⟨p, w1, hp, h⟩ := Prog.bind_ok_iff.1 h
    obtain ⟨_, w2, hnew, h⟩ := Prog.bind_ok_iff.1 h
    obtain ⟨o, hfit, rfl⟩ := parseEnvelope_ok.1 (Prog.lift_ok_iff.1 hp).1
    have hfresh : C.sha256 o.update ∉ visited.map ParsedEnvelope.stateHash := (Prog.reject_ok_iff.1 hnew).1
    cases hl : (parsed C cur o).authorization.filter fun a => a.operation ≠ 1 with
    | none =>
      simp only [hl] at h
      simp only [Prog.pure_ok_iff] at h
      exact ⟨[(cur, o)], by simp [h], rfl, by simpa using hfit, by simp, by simp, by simp, by simpa using hfresh⟩
    | some a => simp only [hl] at h; simp at h
  | succ rem ih =>
    unfold collect at h
    obtain ⟨p, w1, hp, h⟩ := Prog.bind_ok_iff.1 h
    obtain ⟨_, w2, hnew, h⟩ := Prog.bind_ok_iff.1 h
    obtain ⟨o, hfit, rfl⟩ := parseEnvelope_ok.1 (Prog.lift_ok_iff.1 hp).1
    have hfresh : C.sha256 o.update ∉ visited.map ParsedEnvelope.stateHash := (Prog.reject_ok_iff.1 hnew).1
    cases hl : (parsed C cur o).authorization.filter fun a => a.operation ≠ 1 with
    | none =>
      simp only [hl] at h
      simp only [Prog.pure_ok_iff] at h
      exact ⟨[(cur, o)], by simp [h], rfl, by simpa using hfit, by simp, by simp, by simp, by simpa using hfresh⟩
    | some a =>
      simp only [hl] at h
      obtain ⟨q, w3, hq, h⟩ := Prog.bind_ok_iff.1 h
      obtain ⟨b, w4, hb, h⟩ := Prog.bind_ok_iff.1 h
      obtain ⟨_, w5, hsize, hrest⟩ := Prog.bind_ok_iff.1 h
      obtain ⟨c, rfl, hhead, hall, hlen, hchain, hnodup, hold⟩ := ih hrest
      simp only [Prog.lift_ok_iff, orRaise_eq_ok] at hb
      obtain ⟨rfl, rfl⟩ := hb
      obtain rfl := (Prog.lift_ok_iff.1 hp).2
      obtain rfl := (Prog.reject_ok_iff.1 hnew).2
      obtain rfl := (Prog.lift_ok_iff.1 hsize).2
      have hasked := (hlookup _).of_run hq
      have hchain : c.IsChain (Linked (Answered R lookup w w')) := by
        refine hchain.imp fun x y hxy => ?_
        obtain ⟨a, ha, hop, u, u', hu, hrun, hu'⟩ := hxy
        exact ⟨a, ha, hop, u, u', IsTrans.trans _ _ _ hasked hu, hrun, hu'⟩
      obtain ⟨hauth, hop⟩ := Option.filter_eq_some_iff.1 hl
      obtain ⟨a', ha, rfl⟩ : ∃ b, o.auth = some b ∧ fields b = a := Option.map_eq_some_iff.1 hauth
      have hop : a'.operation ≠ 1 := of_decide_eq_true hop
      refine ⟨(cur, o) :: c, by simp, rfl, ?_, by simpa using hlen, List.isChain_cons.2 ⟨fun y hy => ?_, hchain⟩,
        List.nodup_cons.2 ⟨fun hmem => ?_, hnodup⟩, fun x hx => ?_⟩
      · intro x hx
        rcases List.mem_cons.1 hx with rfl | hx
        · exact hfit
        · exact hall x hx
      · have hy : y.1 = b := by
          rw [List.head?_map, hy] at hhead
          exact Option.some.inj hhead
        exact ⟨a', ha, hop, _, _, Std.Refl.refl w, by rw [hy]; exact hq, (collect_keeps hlookup _ _ _ _).of_run hrest⟩
      · obtain ⟨x, hx, heq⟩ := List.mem_map.1 hmem
        exact hold x hx (by rw [heq]; exact List.mem_cons_self)
      · rcases List.mem_cons.1 hx with rfl | hx
        · exact hfresh
        · exact fun hmem => hold x hx (List.mem_cons_of_mem _ hmem)

theorem Fits.ne_nil {e : Bytes} {o : Opened} (h : Fits C n e o) : e.length ≠ 0 := by
  rw [h.sealed.envelope]
  simpa using encode_ne_nil o.envelopeItem

/-- The lookup answers the hash with the envelope, whatever was asked before. -/
def Serves (lookup : Bytes → Prog W WalletError (Option Bytes)) (hash envelope : Bytes) : Prop :=
  ∀ w, ∃ w', lookup hash w = (.ok (some envelope), w')

theorem collect_complete {lookup : Bytes → Prog W WalletError (Option Bytes)} {rem total : ℕ}
    {c : List (Bytes × Opened)} {visited : List ParsedEnvelope} {cur : Bytes} (hfit : ∀ x ∈ c, Fits C n x.1 x.2)
    (hver : Verified C (c.map Prod.snd)) (hlink : c.IsChain (Linked (Serves lookup)))
    (hlen : c.length ≤ rem + 1) (hnew : ∀ x ∈ c, C.sha256 x.2.update ∉ visited.map ParsedEnvelope.stateHash)
    (hnod : (c.map fun x => C.sha256 x.2.update).Nodup)
    (htotal : total + (c.tail.map fun x => x.1.length).sum ≤ maxHistoryTotalBytes)
    (hcur : (c.map Prod.fst).head? = some cur) (w : W) :
    ∃ w', collect C lookup n rem visited total cur w =
      (.ok ((c.map fun x => parsed C x.1 x.2).reverse ++ visited), w') := by
  induction c generalizing rem visited total cur w with
  | nil => cases hver
  | cons x c ih =>
    obtain rfl : x.1 = cur := by simpa using hcur
    have hparse := parseEnvelope_ok.2 ⟨x.2, hfit x (by simp), rfl⟩
    have hfresh : ¬(parsed C x.1 x.2).stateHash ∈ visited.map ParsedEnvelope.stateHash := hnew x (by simp)
    cases c with
    | nil =>
      have hlast : (parsed C x.1 x.2).authorization.filter (fun a => a.operation ≠ 1) = none := by
        cases hver with
        | anchor hadm =>
          cases hadm with
          | legacy h => simp [parsed, h]
          | genesis h hop => simp [parsed, h, fields, hop, Option.filter]
      refine ⟨w, ?_⟩
      unfold collect
      simp only [Prog.bind_run, Prog.lift_run, hparse, Prog.reject, reject, if_neg hfresh, hlast]
      simp
    | cons y c =>
      cases hver with
      | link _ _ ht =>
        rw [List.isChain_cons_cons] at hlink
        obtain ⟨⟨a, ha, hop, hlook⟩, hlink⟩ := hlink
        have hnext : (parsed C x.1 x.2).authorization.filter (fun a => a.operation ≠ 1) = some (fields a) := by
          simp [parsed, ha, fields, hop, Option.filter]
        obtain ⟨rem, rfl⟩ : ∃ r, rem = r + 1 := ⟨rem - 1, by simp at hlen; omega⟩
        have hy := hfit y (by simp)
        simp only [List.tail_cons, List.map_cons, List.sum_cons] at htotal
        have hbudget : requireHistoryBudget y.1.length total = .ok () := by
          rw [requireHistoryBudget, reject_eq_ok]
          have := hy.ne_nil
          have := hy.size
          omega
        rw [List.map_cons, List.nodup_cons] at hnod
        obtain ⟨w₁, hserved⟩ := hlook w
        have hrest : ∃ w', collect C lookup n rem (parsed C x.1 x.2 :: visited) (total + y.1.length) y.1 w₁ = (_, w') :=
          ih (fun z hz => hfit z (by simp [List.mem_cons.1 hz])) ht hlink (by simpa using hlen)
          (fun z hz hmem => by
            rcases List.mem_cons.1 hmem with h | h
            · exact hnod.1 (List.mem_map.2 ⟨z, hz, h⟩)
            · exact hnew z (by simp [List.mem_cons.1 hz]) h)
          hnod.2 (by simpa [add_assoc] using htotal) rfl w₁
        obtain ⟨w', hrest⟩ := hrest
        refine ⟨w', ?_⟩
        unfold collect
        simp only [Prog.bind_run, Prog.lift_run, hparse, Prog.reject, reject, if_neg hfresh, hnext]
        simp only [fields, hserved, orRaise, hbudget]
        simpa using hrest

/-- A lookup that asks nobody. -/
def pureLookup (look : Bytes → Option Bytes) : Bytes → Prog W WalletError (Option Bytes) :=
  fun hash w => (.ok (look hash), w)

theorem serves_pureLookup {look : Bytes → Option Bytes} {hash e : Bytes} (h : look hash = some e) :
    Serves (W := W) (pureLookup look) hash e := fun w => ⟨w, by rw [pureLookup, h]⟩

/-! ### `resolve` -/

/-- What the lookups do to the world, `resolve` does. -/
theorem resolve_keeps {R : W → W → Prop} [Std.Refl R] [IsTrans W R] {lookup : Bytes → Prog W WalletError (Option Bytes)}
    (hlookup : ∀ hash, Prog.Keeps R (lookup hash)) (e : Bytes) : Prog.Keeps R (resolve C lookup n e) :=
  (Prog.Keeps.reject _ _).bind fun _ => (Prog.Keeps.lift _).bind fun _ => (Prog.Keeps.lift _).bind fun _ =>
    (collect_keeps hlookup _ _ _ _).bind fun _ => (Prog.Keeps.lift _).bind fun _ => (Prog.Keeps.lift _).bind fun _ =>
      Prog.Keeps.pure _

theorem resolve_sound {R : W → W → Prop} [Std.Refl R] [IsTrans W R] {lookup : Bytes → Prog W WalletError (Option Bytes)}
    (hlookup : ∀ hash, Prog.Keeps R (lookup hash)) {e : Bytes} {w w' : W}
    {r : VerifiedIdentityState} (h : resolve C lookup n e w = (.ok r, w')) :
    ∃ (c : List (Bytes × Opened)) (t : VerifiedState), (c.map Prod.fst).head? = some e ∧
      (∀ x ∈ c, Fits C n x.1 x.2) ∧ Verified C (c.map Prod.snd) ∧ c.length ≤ maxPredecessorDepth + 1 ∧
      c.IsChain (Linked (Answered R lookup w w')) ∧
      verifiedState C c = some t ∧ (c.map fun x => C.sha256 x.2.update).Nodup ∧
      r = publicState t (c.tail.map Prod.fst) := by
  unfold resolve at h
  obtain ⟨_, w1, hname, h⟩ := Prog.bind_ok_iff.1 h
  obtain ⟨_, w2, hutf8, h⟩ := Prog.bind_ok_iff.1 h
  obtain ⟨_, w3, hsize, h⟩ := Prog.bind_ok_iff.1 h
  obtain ⟨out, w4, hcol, h⟩ := Prog.bind_ok_iff.1 h
  obtain ⟨v, w5, hv, h⟩ := Prog.bind_ok_iff.1 h
  obtain ⟨t, w6, ht, hret⟩ := Prog.bind_ok_iff.1 h
  obtain ⟨c, rfl, hhead, hfit, hlen, hlink, hnodup, -⟩ := collect_sound hlookup _ hcol
  simp only [Prog.lift_ok_iff, checkNotNull, orRaise_eq_ok, Prog.pure_ok_iff, List.append_nil] at hv ht hret
  obtain ⟨rfl, rfl⟩ := ht
  obtain rfl := (Prog.reject_ok_iff.1 hname).2
  obtain rfl := (Prog.lift_ok_iff.1 hutf8).2
  obtain rfl := (Prog.lift_ok_iff.1 hsize).2
  obtain rfl : w4 = w' := hv.2.trans hret.2
  obtain ⟨hver, hstate⟩ := (verifyAll_ok hfit).1 hv.1
  refine ⟨c, t, hhead, hfit, hver, hlen, hlink, hstate, hnodup, ?_⟩
  rw [← hret.1]
  simp [parsed, List.map_tail, Function.comp_def]

theorem resolve_history {lookup : Bytes → Prog W WalletError (Option Bytes)} {e : Bytes} {w w' : W}
    {r : VerifiedIdentityState} (h : resolve C lookup n e w = (.ok r, w')) :
    ∃ (c : List (Bytes × Opened)) (t : VerifiedState), (c.map Prod.fst).head? = some e ∧
      (∀ x ∈ c, Fits C n x.1 x.2) ∧ Verified C (c.map Prod.snd) ∧ c.length ≤ maxPredecessorDepth + 1 ∧
      c.IsChain (Linked fun hash b => ∃ w w', lookup hash w = (.ok (some b), w')) ∧
      verifiedState C c = some t ∧ (c.map fun x => C.sha256 x.2.update).Nodup ∧
      r = publicState t (c.tail.map Prod.fst) := by
  have : Std.Refl (fun _ _ : W => True) := ⟨fun _ => trivial⟩
  have : IsTrans W (fun _ _ : W => True) := ⟨fun _ _ _ _ _ => trivial⟩
  obtain ⟨c, t, hhead, hfit, hver, hlen, hlink, hrest⟩ :=
    resolve_sound (R := fun _ _ => True) (fun _ _ => trivial) h
  refine ⟨c, t, hhead, hfit, hver, hlen, hlink.imp fun x y hxy => ?_, hrest⟩
  obtain ⟨a, ha, hop, u, u', -, hrun, -⟩ := hxy
  exact ⟨a, ha, hop, u, u', hrun⟩

theorem resolve_complete {lookup : Bytes → Prog W WalletError (Option Bytes)} {c : List (Bytes × Opened)}
    {t : VerifiedState} {e : Bytes} (hn : n ≠ []) (hfit : ∀ x ∈ c, Fits C n x.1 x.2)
    (hver : Verified C (c.map Prod.snd)) (hlink : c.IsChain (Linked (Serves lookup)))
    (hlen : c.length ≤ maxPredecessorDepth + 1) (hnod : (c.map fun x => C.sha256 x.2.update).Nodup)
    (htotal : (c.map fun x => x.1.length).sum ≤ maxHistoryTotalBytes) (he : (c.map Prod.fst).head? = some e)
    (ht : verifiedState C c = some t) (w : W) :
    ∃ w', resolve C lookup n e w = (.ok (publicState t (c.tail.map Prod.fst)), w') := by
  cases c with
  | nil => cases hver
  | cons x c =>
    obtain rfl : x.1 = e := by simpa using he
    have hx := hfit x (by simp)
    rw [List.map_cons, List.sum_cons] at htotal
    have hbudget : requireHistoryBudget x.1.length 0 = .ok () := by
      rw [requireHistoryBudget, reject_eq_ok]
      have := hx.ne_nil
      have := hx.size
      omega
    have hcol : ∃ w', collect C lookup n maxPredecessorDepth [] x.1.length x.1 w = (_, w') :=
      collect_complete hfit hver hlink hlen (by simp) hnod (by simpa using htotal) he w
    obtain ⟨w', hcol⟩ := hcol
    have hall := (verifyAll_ok hfit).2 ⟨hver, ht⟩
    rw [List.append_nil] at hcol
    refine ⟨w', ?_⟩
    unfold resolve
    simp only [Prog.bind_run, Prog.lift_run, Prog.reject, reject, if_neg hn, requireValidUtf8_ok (u := ()).2 hx.utf8,
      hbudget, hcol, hall, checkNotNull, orRaise]
    simp [parsed, Function.comp_def]

end

end DecentWallet.Kotlin
