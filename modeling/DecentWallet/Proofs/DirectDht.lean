import DecentWallet.Sanity.History
import DecentWallet.Sanity.KotlinResolve
import DecentWallet.Sanity.Reference
import DecentWallet.Spec.KotlinDirectDht

/-! The conditional write over pinned DHT peers: what it sends, when it stops, and what it has read before it sends
anything. -/

namespace DecentWallet.Kotlin

open WalletError

/-! ### Logs -/

def sent (events : List DhtEvent) : List DhtPut :=
  events.filterMap fun e => match e with
    | .put p => some p
    | _ => none

theorem sent_append (l m : List DhtEvent) : sent (l ++ m) = sent l ++ sent m := List.filterMap_append ..

theorem mem_sent {events : List DhtEvent} {p : DhtPut} : p ∈ sent events ↔ .put p ∈ events := by
  unfold sent
  rw [List.mem_filterMap]
  refine ⟨fun h => ?_, fun h => ⟨_, h, rfl⟩⟩
  obtain ⟨e, he, hp⟩ := h
  cases e with
  | put q => exact Option.some.inj hp ▸ he
  | get _ _ _ => cases hp
  | clock _ => cases hp

variable {σ : Type}

/-- Nothing is sent on the way from `w` to `w'`. -/
def Reads (w w' : Line σ) : Prop := ∃ reads, w'.log = w.log ++ reads ∧ sent reads = []

instance : Std.Refl (Reads (σ := σ)) := ⟨fun _ => ⟨[], by simp, rfl⟩⟩

instance : IsTrans (Line σ) Reads := ⟨fun w₁ w₂ w₃ h h' => by
  obtain ⟨l, hl, hs⟩ := h
  obtain ⟨m, hm, hs'⟩ := h'
  exact ⟨l ++ m, by rw [hm, hl, List.append_assoc], by rw [sent_append, hs, hs', List.append_nil]⟩⟩

/-! ### The fan-out -/

/-- The calls go to the peers in order, with one envelope under the key of the name; only the last may have failed, and
directly before each the clock was before the deadline. -/
structure FansOut (C : Primitives) (ownerName envelope : Bytes) (expiresAt : ℤ) (peers : List Str)
    (events : List DhtEvent) : Prop where
  inOrder : (sent events).map DhtPut.peer <+: peers
  same : ∀ p ∈ sent events, identityKey C ownerName = .ok p.key ∧ p.value = envelope
  stops : ∀ p ∈ (sent events).dropLast, p.answer = .ok true
  inTime : ∀ before p, before ++ [.put p] <+: events → ∃ earlier now, before = earlier ++ [.clock now] ∧ now < expiresAt

section

variable {C : Primitives} {ownerName envelope : Bytes} {expiresAt : ℤ} {peers : List Str}

theorem FansOut.of_reads {events : List DhtEvent} (h : sent events = []) :
    FansOut C ownerName envelope expiresAt peers events where
  inOrder := by rw [h]; exact List.nil_prefix
  same p hp := by rw [h] at hp; cases hp
  stops p hp := by rw [h] at hp; cases hp
  inTime before p hpre := by
    have hp : p ∈ sent events := mem_sent.2 (hpre.subset (by simp))
    rw [h] at hp
    cases hp

theorem FansOut.after_reads {reads events : List DhtEvent} (h : sent reads = [])
    (hfan : FansOut C ownerName envelope expiresAt peers events) :
    FansOut C ownerName envelope expiresAt peers (reads ++ events) := by
  have hsent : sent (reads ++ events) = sent events := by rw [sent_append, h, List.nil_append]
  refine ⟨hsent ▸ hfan.inOrder, hsent ▸ hfan.same, hsent ▸ hfan.stops, fun before p hpre => ?_⟩
  obtain ⟨after, heq⟩ := hpre
  rw [List.append_assoc, List.singleton_append] at heq
  -- the write is not among the reads
  rcases List.append_eq_append_iff.1 heq with ⟨mid, hreads, hmid⟩ | ⟨mid, hbefore, hevents⟩
  · cases mid with
    | nil =>
      obtain ⟨earlier, now, hnil, -⟩ := hfan.inTime [] p ⟨after, by simpa using hmid⟩
      simp at hnil
    | cons e mid =>
      rw [List.cons_append, List.cons.injEq] at hmid
      have hp : p ∈ sent reads := mem_sent.2 (by rw [hreads, ← hmid.1]; simp)
      rw [h] at hp
      cases hp
  · obtain ⟨earlier, now, rfl, hnow⟩ := hfan.inTime mid p ⟨after, by rw [hevents]; simp⟩
    exact ⟨reads ++ earlier, now, by rw [hbefore, List.append_assoc], hnow⟩

theorem FansOut.nil : FansOut C ownerName envelope expiresAt peers [] := .of_reads rfl

/-- A first call, and after it more only if it was acknowledged. -/
theorem FansOut.cons {key : Bytes} (hkey : identityKey C ownerName = .ok key) {now : ℤ} (hnow : now < expiresAt)
    {peer : Str} {answer : Except TransportFailure Bool} {events : List DhtEvent}
    (hfan : FansOut C ownerName envelope expiresAt peers events) (hanswer : sent events ≠ [] → answer = .ok true) :
    FansOut C ownerName envelope expiresAt (peer :: peers)
      (.clock now :: .put ⟨peer, key, envelope, answer⟩ :: events) where
  inOrder := (List.cons_prefix_cons).2 ⟨rfl, hfan.inOrder⟩
  same p hp := by
    rcases List.mem_cons.1 (show p ∈ _ :: sent events from hp) with rfl | hp
    · exact ⟨hkey, rfl⟩
    · exact hfan.same p hp
  stops p hp := by
    change p ∈ (_ :: sent events).dropLast at hp
    cases hs : sent events with
    | nil => rw [hs] at hp; cases hp
    | cons q l =>
      rw [hs, List.dropLast_cons_cons, ← hs] at hp
      rcases List.mem_cons.1 hp with rfl | hp
      · exact hanswer (by rw [hs]; exact List.cons_ne_nil _ _)
      · exact hfan.stops p hp
  inTime before p hpre := by
    obtain ⟨after, heq⟩ := hpre
    cases before with
    | nil => cases heq
    | cons e before =>
      obtain ⟨rfl, htail⟩ := List.cons.inj heq
      cases before with
      | nil => exact ⟨[], now, rfl, hnow⟩
      | cons e before =>
        obtain ⟨rfl, hrest⟩ := List.cons.inj htail
        obtain ⟨earlier, now', rfl, hnow'⟩ := hfan.inTime before p ⟨after, hrest⟩
        exact ⟨_ :: _ :: earlier, now', rfl, hnow'⟩

end

/-- The client's own exceptions are none of the two typed ones. -/
def AndroidKadDhtRpcClient.NeverTyped (client : AndroidKadDhtRpcClient σ) : Prop :=
  ∀ peer key value s, (client.putValue peer key value s).1 ≠ .error .preconditionFailed ∧
    (client.putValue peer key value s).1 ≠ .error .writeExpired

def Typed (r : Except TransportFailure Unit) : Prop := r = .error .preconditionFailed ∨ r = .error .writeExpired

namespace AndroidDirectDhtIdentityTransport

variable (T : AndroidDirectDhtIdentityTransport σ) (C : Primitives)

theorem fanOut_log (hT : T.dhtClient.NeverTyped) {ownerName key : Bytes} (hkey : identityKey C ownerName = .ok key)
    (envelope : Bytes) (expiresAt : ℤ) (peers : List Str) (started acknowledged : Bool) (w : Line σ) :
    ∃ events, (T.fanOut key envelope expiresAt peers started acknowledged w).2.log = w.log ++ events ∧
      FansOut C ownerName envelope expiresAt peers events ∧
      (Typed (T.fanOut key envelope expiresAt peers started acknowledged w).1 → started = false ∧ sent events = []) ∧
      ((T.fanOut key envelope expiresAt peers started acknowledged w).1 = .ok () →
        (sent events).map DhtPut.peer = peers ∧ ∀ p ∈ sent events, p.answer = .ok true) := by
  induction peers generalizing started acknowledged w with
  | nil =>
    refine ⟨[], by simp [fanOut, Prog.reject], .nil, fun h => ?_, fun _ => ⟨rfl, by simp [sent]⟩⟩
    simp only [Typed, fanOut, Prog.reject, Prog.lift_run, reject] at h
    split_ifs at h <;> rcases h with h | h <;> cases h
  | cons peer peers ih =>
    set now := (T.epochSeconds w.state).1
    set s := (T.epochSeconds w.state).2
    by_cases hlate : expiresAt ≤ now
    · have hrun : T.fanOut key envelope expiresAt (peer :: peers) started acknowledged w =
          (.error (if started then .wallet identityTransport else .writeExpired), ⟨s, w.log ++ [.clock now]⟩) := by
        simp only [fanOut, Prog.bind_run, readClock, Prog.reject, Prog.lift_run, reject]
        rw [if_pos hlate]
      rw [hrun]
      refine ⟨[.clock now], rfl, .of_reads rfl, fun h => ⟨?_, rfl⟩, by simp⟩
      cases started with
      | false => rfl
      | true => rcases h with h | h <;> cases h
    · have hnow : now < expiresAt := not_le.1 hlate
      rcases hput : T.dhtClient.putValue peer key envelope s with ⟨answer, s'⟩
      have hnext : T.fanOut key envelope expiresAt (peer :: peers) started acknowledged w =
          (Prog.lift answer >>= fun ok => Prog.reject (ok = false) (.wallet identityTransport) >>= fun _ =>
            T.fanOut key envelope expiresAt peers true true)
            ⟨s', w.log ++ [.clock now] ++ [.put ⟨peer, key, envelope, answer⟩]⟩ := by
        simp only [fanOut, Prog.bind_run, readClock, Prog.reject, Prog.lift_run, reject, putValue]
        rw [if_neg hlate]
        simp only [s, now] at hput ⊢
        rw [hput]
      have hlog : ∀ events, w.log ++ [.clock now] ++ [.put ⟨peer, key, envelope, answer⟩] ++ events =
          w.log ++ .clock now :: .put ⟨peer, key, envelope, answer⟩ :: events := fun events => by simp
      rcases answer with e | (_ | _)
      · have hrun : T.fanOut key envelope expiresAt (peer :: peers) started acknowledged w = (.error e, _) := hnext
        rw [hrun]
        refine ⟨_, by rw [← hlog [], List.append_nil], .cons hkey hnow .nil (fun h => absurd rfl h), fun h => ?_,
          by simp⟩
        have hne := hT peer key envelope s
        rw [hput] at hne
        rcases h with h | h
        · exact absurd h (by simpa using hne.1)
        · exact absurd h (by simpa using hne.2)
      · have hrun : T.fanOut key envelope expiresAt (peer :: peers) started acknowledged w =
            (.error (.wallet identityTransport), _) := hnext
        rw [hrun]
        refine ⟨_, by rw [← hlog [], List.append_nil], .cons hkey hnow .nil (fun h => absurd rfl h), fun h => ?_,
          by simp⟩
        rcases h with h | h <;> cases h
      · have hrun : T.fanOut key envelope expiresAt (peer :: peers) started acknowledged w =
            T.fanOut key envelope expiresAt peers true true _ := hnext
        rw [hrun]
        obtain ⟨events, hevents, hfan, htyped, hall⟩ := ih true true
          ⟨s', w.log ++ [.clock now] ++ [.put ⟨peer, key, envelope, .ok true⟩]⟩
        refine ⟨_, by rw [hevents, hlog], .cons hkey hnow hfan fun _ => rfl, fun h => ?_, fun h => ?_⟩
        · cases (htyped h).1
        · obtain ⟨hpeers, hacks⟩ := hall h
          refine ⟨by rw [← hpeers]; rfl, fun p hp => ?_⟩
          rcases List.mem_cons.1 (show p ∈ _ :: sent events from hp) with rfl | hp
          · rfl
          · exact hacks p hp

/-! ### Reads -/

theorem getValue_reads (peer : Str) (key : Bytes) : Prog.Keeps Reads (T.getValue peer key) := fun _ => ⟨_, rfl, rfl⟩

theorem firstValue_reads (key : Bytes) (peers : List Str) (failed : Bool) :
    Prog.Keeps Reads (T.firstValue key peers failed) := by
  induction peers generalizing failed with
  | nil => exact (Prog.Keeps.reject _ _).bind fun _ => Prog.Keeps.pure _
  | cons peer peers ih =>
    refine (Prog.Keeps.attempt (T.getValue_reads peer key)).bind fun r => ?_
    rcases r with e | (_ | value)
    · exact ih true
    · exact ih failed
    · exact Prog.Keeps.pure _

theorem getIdentityEnvelopeByHash_reads (ownerName stateHash : Bytes) :
    Prog.Keeps Reads (T.getIdentityEnvelopeByHash C ownerName stateHash) :=
  (Prog.Keeps.lift _).bind fun _ => T.firstValue_reads _ _ _

theorem resolve_reads (ownerName envelope : Bytes) : Prog.Keeps Reads (T.resolve C ownerName envelope) :=
  resolve_keeps (T.getIdentityEnvelopeByHash_reads C ownerName) envelope

theorem readVerifiedCurrent_reads (ownerName : Bytes) : Prog.Keeps Reads (T.readVerifiedCurrent C ownerName) :=
  ((Prog.Keeps.lift _).bind fun _ => (T.getValue_reads _ _).mapError).bind fun _ =>
    (Prog.Keeps.lift _).bind fun _ => T.resolve_reads C _ _

theorem firstValue_answered {key value : Bytes} {peers : List Str} {failed : Bool} {w w' : Line σ}
    (h : T.firstValue key peers failed w = (.ok (some value), w')) :
    ∃ events, w'.log = w.log ++ events ∧ ∃ peer ∈ peers, .get peer key (.ok (some value)) ∈ events := by
  induction peers generalizing failed w with
  | nil =>
    obtain ⟨_, w₁, -, h⟩ := Prog.bind_ok_iff.1 h
    cases (Prog.pure_ok_iff.1 h).1
  | cons peer peers ih =>
    obtain ⟨r, w₁, hget, h⟩ := Prog.bind_ok_iff.1 h
    have hrun := Prog.attempt_ok_iff.1 hget
    have hlog : w₁.log = w.log ++ [.get peer key r] := by
      simp only [getValue, Prod.mk.injEq] at hrun
      rw [← hrun.2, hrun.1]
    -- an error or an empty answer sends the loop to the next peer
    have hnext : ∀ {failed}, T.firstValue key peers failed w₁ = (.ok (some value), w') →
        ∃ events, w'.log = w.log ++ events ∧ ∃ p ∈ peer :: peers, .get p key (.ok (some value)) ∈ events := by
      intro failed h
      obtain ⟨events, hevents, p, hp, hmem⟩ := ih h
      refine ⟨.get peer key r :: events, by rw [hevents, hlog]; simp, p, List.mem_cons_of_mem _ hp, ?_⟩
      exact List.mem_cons_of_mem _ hmem
    rcases r with e | (_ | answer)
    · exact hnext h
    · exact hnext h
    · obtain ⟨hvalue, rfl⟩ := Prog.pure_ok_iff.1 h
      obtain rfl := Option.some.inj hvalue
      exact ⟨_, hlog, peer, by simp, by simp⟩

/-- A peer answered with the envelope when asked for the state with the hash. -/
def Fetched (ownerName : Bytes) (events : List DhtEvent) (hash envelope : Bytes) : Prop :=
  ∃ key, historyKey C ownerName hash = .ok key ∧
    ∃ peer ∈ T.config.historyPeers, .get peer key (.ok (some envelope)) ∈ events

/-- The events are reads, and with what they fetched the envelopes are a verified history, newest first. -/
structure Verifies (ownerName : Bytes) (events : List DhtEvent) (history : List (Bytes × Opened)) : Prop where
  reads : sent events = []
  fits : ∀ x ∈ history, Fits C ownerName x.1 x.2
  verified : Verified C (history.map Prod.snd)
  fetched : history.IsChain (Linked (T.Fetched C ownerName events))

theorem resolve_verifies {ownerName envelope : Bytes} {w w' : Line σ} {state : VerifiedIdentityState}
    (h : T.resolve C ownerName envelope w = (.ok state, w')) :
    ∃ events o earlier, w'.log = w.log ++ events ∧ T.Verifies C ownerName events ((envelope, o) :: earlier) ∧
      state = publicState (.from (parsed C envelope o) (verifiedState C earlier)) (earlier.map Prod.fst) := by
  obtain ⟨events, hlog, hsent⟩ := (T.resolve_reads C ownerName envelope).of_run h
  obtain ⟨c, t, hhead, hfit, hver, -, hlink, ht, -, hstate⟩ :=
    resolve_sound (T.getIdentityEnvelopeByHash_reads C ownerName) h
  cases c with
  | nil => cases ht
  | cons x c =>
    obtain rfl : x.1 = envelope := by simpa using hhead
    obtain rfl := Option.some.inj ht
    refine ⟨events, x.2, c, hlog, ⟨hsent, hfit, hver, hlink.imp fun x y hxy => ?_⟩, hstate⟩
    obtain ⟨a, ha, hop, u, u', ⟨l, hl, -⟩, hask, m, hm, -⟩ := hxy
    obtain ⟨key, u₁, hlift, hfirst⟩ := Prog.bind_ok_iff.1 hask
    obtain ⟨hkey, rfl⟩ := Prog.lift_ok_iff.1 hlift
    obtain ⟨asked, hasked, peer, hpeer, hmem⟩ := T.firstValue_answered hfirst
    have hevents : events = l ++ asked ++ m := by
      rw [hm, hasked, hl, List.append_assoc, List.append_assoc] at hlog
      simpa using (List.append_cancel_left hlog).symm
    exact ⟨a, ha, hop, key, hkey, peer, hpeer, by simp [hevents, hmem]⟩

/-- The primary peer was asked for the current envelope of the name, and its answer was verified: a state with the
hash. -/
def VerifiedRead (ownerName hash : Bytes) (events : List DhtEvent) : Prop :=
  ∃ key envelope fetched o earlier, identityKey C ownerName = .ok key ∧
    events = .get T.config.primaryPeer key (.ok (some envelope)) :: fetched ∧
    T.Verifies C ownerName fetched ((envelope, o) :: earlier) ∧ C.sha256 o.update = hash

theorem VerifiedRead.sent {ownerName hash : Bytes} {events : List DhtEvent}
    (h : T.VerifiedRead C ownerName hash events) : sent events = [] := by
  obtain ⟨key, envelope, fetched, o, earlier, -, rfl, hver, -⟩ := h
  exact hver.reads

theorem verifiedRead {ownerName : Bytes} {w w' : Line σ} {state : VerifiedIdentityState}
    (h : T.readVerifiedCurrent C ownerName w = (.ok state, w')) :
    ∃ events, w'.log = w.log ++ events ∧ T.VerifiedRead C ownerName state.stateHash events := by
  obtain ⟨answer, w₁, hread, h⟩ := Prog.bind_ok_iff.1 h
  obtain ⟨envelope, w₂, hlift, hresolve⟩ := Prog.bind_ok_iff.1 h
  obtain ⟨hsome, rfl⟩ := Prog.lift_ok_iff.1 hlift
  obtain rfl := orRaise_eq_ok.1 hsome
  obtain ⟨key, w₂, hlift', hget⟩ := Prog.bind_ok_iff.1 hread
  obtain ⟨hkey, rfl⟩ := Prog.lift_ok_iff.1 hlift'
  have hanswer := Prog.mapError_ok_iff.1 hget
  simp only [getValue, Prod.mk.injEq] at hanswer
  obtain ⟨fetched, o, earlier, hlog, hver, rfl⟩ := T.resolve_verifies C hresolve
  refine ⟨.get T.config.primaryPeer key (.ok (some envelope)) :: fetched, ?_, key, envelope, fetched, o, earlier, hkey,
    rfl, hver, rfl⟩
  rw [hlog, ← hanswer.2, hanswer.1]
  simp

end AndroidDirectDhtIdentityTransport

/-- Only a rotation changes the owner key. -/
theorem rotation_of_key_ne {C : Primitives} {o : Opened} {h : Head} (hadm : Admits C (some h) o) (hauth : o.auth ≠ none)
    (hne : o.ownerKey ≠ h.ownerKey) : ∃ a, o.auth = some a ∧ a.operation = 5 := by
  cases hadm with
  | legacy hnone => exact absurd hnone hauth
  | ordinary _ _ _ _ hkey => exact absurd hkey hne
  | replaceSigners _ _ _ _ hkey => exact absurd hkey hne
  | upgrade _ _ _ _ hkey => exact absurd hkey hne
  | rotate hauth hop => exact ⟨_, hauth, hop⟩
  | rotateLegacy hauth hop => exact ⟨_, hauth, hop⟩

namespace AndroidDirectDhtIdentityTransport

variable (T : AndroidDirectDhtIdentityTransport σ) (C : Primitives)

/-- The envelope was verified as a change of the owner key of the state with the hash. -/
def OwnerKeyChange (ownerName envelope hash : Bytes) (events : List DhtEvent) : Prop :=
  ∃ o p earlier a, T.Verifies C ownerName events ((envelope, o) :: p :: earlier) ∧ o.auth = some a ∧ a.operation = 5 ∧
    a.predecessor = hash ∧ C.sha256 p.2.update = hash ∧ o.ownerKey ≠ p.2.ownerKey

theorem ownerKeyChange {ownerName envelope hash key : Bytes} {w w' : Line σ} {state : VerifiedIdentityState}
    (h : T.resolve C ownerName envelope w = (.ok state, w')) (hhash : state.predecessorStateHash = some hash)
    (hkey : state.predecessorOwnerPublicKey = some key) (hne : key ≠ state.ownerPublicKey) :
    ∃ events, w'.log = w.log ++ events ∧ T.OwnerKeyChange C ownerName envelope hash events := by
  obtain ⟨events, o, earlier, hlog, hver, rfl⟩ := T.resolve_verifies C h
  cases earlier with
  | nil => cases hkey
  | cons p earlier =>
    have hverified := hver.verified
    cases hverified with
    | link hadm hauth _ =>
      have hkeys : o.ownerKey ≠ p.2.ownerKey := fun heq => hne (by
        rw [← Option.some.inj hkey]
        exact heq.symm)
      obtain ⟨a, ha, hop⟩ := rotation_of_key_ne hadm hauth hkeys
      obtain ⟨a', ha', -, hfollows⟩ := hadm.of_some hauth
      obtain rfl := Option.some.inj (ha.symm.trans ha')
      have hpred : a.predecessor = hash := by
        obtain ⟨b, hb, hpred⟩ : ∃ b, o.auth = some b ∧ b.predecessor = hash := by
          simpa [publicState, VerifiedState.from, parsed, fields] using hhash
        rw [Option.some.inj (ha.symm.trans hb), hpred]
      refine ⟨events, hlog, o, p, earlier, a, hver, ha, hop, hpred, ?_, hkeys⟩
      rw [← hpred]
      exact hfollows.1

/-- The events begin with a verified read of the state with the hash, the verification of the envelope as an owner-key
change on it, and a second such read; no write is among these. -/
def Cleared (ownerName envelope expectedHash : Bytes) (events : List DhtEvent) : Prop :=
  ∃ first candidate second rest, events = first ++ candidate ++ second ++ rest ∧
    T.VerifiedRead C ownerName expectedHash first ∧ T.OwnerKeyChange C ownerName envelope expectedHash candidate ∧
    T.VerifiedRead C ownerName expectedHash second ∧ sent (first ++ candidate ++ second) = []

theorem Cleared.append {ownerName envelope expectedHash : Bytes} {events : List DhtEvent}
    (h : T.Cleared C ownerName envelope expectedHash events) (more : List DhtEvent) :
    T.Cleared C ownerName envelope expectedHash (events ++ more) := by
  obtain ⟨first, candidate, second, rest, rfl, hparts⟩ := h
  exact ⟨first, candidate, second, rest ++ more, by simp, hparts⟩

/-- A run sends nothing and does not return, or it reads, is cleared by what it read, and is then that of the
fan-out. -/
def Outcome (ownerName envelope expectedHash : Bytes) (expiresAt : ℤ) (w : Line σ) (r : Except TransportFailure Unit)
    (w' : Line σ) : Prop :=
  Reads w w' ∧ r ≠ .ok () ∨ ∃ key w₁ events, identityKey C ownerName = .ok key ∧ w₁.log = w.log ++ events ∧
    sent events = [] ∧ T.Cleared C ownerName envelope expectedHash events ∧
    T.fanOut key envelope expiresAt T.config.historyPeers false false w₁ = (r, w')

theorem writeIfCurrent_outcome (ownerName envelope expectedHash : Bytes) (expiresAt : ℤ) (w : Line σ) :
    Prog.Ends (T.writeIfCurrent C ownerName envelope expectedHash expiresAt) w
      (fun _ w' => T.Outcome C ownerName envelope expectedHash expiresAt w (.ok ()) w')
      (fun e w' => T.Outcome C ownerName envelope expectedHash expiresAt w (.error e) w') := by
  have hfail : ∀ {e w'}, Reads w w' → T.Outcome C ownerName envelope expectedHash expiresAt w (.error e) w' :=
    fun h => .inl ⟨h, by simp⟩
  have hcurrent : ∀ {w₀}, Reads w w₀ → Prog.Ends (Prog.mapError .wallet (T.readVerifiedCurrent C ownerName)) w₀
      (fun s w₁ => (∃ events, w₁.log = w₀.log ++ events ∧ T.VerifiedRead C ownerName s.stateHash events) ∧ Reads w w₁)
      (fun e w' => T.Outcome C ownerName envelope expectedHash expiresAt w (.error e) w') := by
    intro w₀ h₀
    refine Prog.Ends.mapError ⟨fun s w₁ hr => ⟨T.verifiedRead C hr, ?_⟩, fun e w' hr => hfail ?_⟩
    · exact IsTrans.trans _ _ _ h₀ ((T.readVerifiedCurrent_reads C ownerName).of_run hr)
    · exact IsTrans.trans _ _ _ h₀ ((T.readVerifiedCurrent_reads C ownerName).of_run hr)
  refine Prog.Ends.bind (hcurrent (Std.Refl.refl w)) fun s₁ w₁ h₁ => ?_
  obtain ⟨⟨first, hlog₁, hread₁⟩, hreads₁⟩ := h₁
  refine Prog.Ends.reject_bind (fun _ => hfail hreads₁) fun hsame₁ => ?_
  refine Prog.Ends.bind (Prog.Ends.mapError ⟨fun s w' hr => ?_, fun e w' hr => hfail ?_⟩)
    (Q := fun s w₂ => T.resolve C ownerName envelope w₁ = (.ok s, w₂) ∧ Reads w w₂) fun s₂ w₂ h₂ => ?_
  · exact ⟨hr, IsTrans.trans _ _ _ hreads₁ ((T.resolve_reads C _ _).of_run hr)⟩
  · exact IsTrans.trans _ _ _ hreads₁ ((T.resolve_reads C _ _).of_run hr)
  obtain ⟨hresolve, hreads₂⟩ := h₂
  refine Prog.Ends.lift_bind (fun _ _ => hfail hreads₂) fun hash hhash => ?_
  refine Prog.Ends.lift_bind (fun _ _ => hfail hreads₂) fun key hkey => ?_
  refine Prog.Ends.reject_bind (fun _ => hfail hreads₂) fun hchange => ?_
  refine Prog.Ends.bind (hcurrent hreads₂) fun s₃ w₃ h₃ => ?_
  obtain ⟨⟨second, hlog₃, hread₃⟩, hreads₃⟩ := h₃
  refine Prog.Ends.reject_bind (fun _ => hfail hreads₃) fun hsame₃ => ?_
  rw [not_not] at hsame₁ hsame₃
  rw [not_or, not_not] at hchange
  rw [hsame₁] at hread₁
  rw [hsame₃] at hread₃
  rw [hchange.1] at hhash
  obtain ⟨candidate, hlog₂, hrotation⟩ :=
    T.ownerKeyChange C hresolve (orRaise_eq_ok.1 hhash) (orRaise_eq_ok.1 hkey) hchange.2
  refine Prog.Ends.bind_run (a := (T.epochSeconds w₃.state).1) rfl ?_
  set now := (T.epochSeconds w₃.state).1
  set w₄ : Line σ := ⟨(T.epochSeconds w₃.state).2, w₃.log ++ [.clock now]⟩
  have hall : Reads w w₄ := IsTrans.trans _ _ _ hreads₃ ⟨[_], rfl, rfl⟩
  refine Prog.Ends.reject_bind (fun _ => hfail hall) fun _ => ?_
  refine Prog.Ends.lift_bind (fun _ _ => hfail hall) fun key hkey => ?_
  have hsent : sent (first ++ candidate ++ second) = [] := by
    obtain ⟨o, p, earlier, a, hver, -⟩ := hrotation
    simp only [sent_append, hread₁.sent, hver.reads, hread₃.sent, List.append_nil]
  have hidentity : identityKey C ownerName = .ok key := by
    cases hid : identityKey C ownerName with
    | error e => rw [hid] at hkey; cases hkey
    | ok k => rw [hid] at hkey; cases hkey; rfl
  have hout : ∀ {r w'}, T.fanOut key envelope expiresAt T.config.historyPeers false false w₄ = (r, w') →
      T.Outcome C ownerName envelope expectedHash expiresAt w r w' := by
    intro r w' hr
    refine .inr ⟨key, w₄, first ++ candidate ++ second ++ [.clock now], hidentity, ?_, ?_,
      ⟨first, candidate, second, [.clock now], rfl, hread₁, hrotation, hread₃, hsent⟩, hr⟩
    · simp [w₄, hlog₃, hlog₂, hlog₁]
    · rw [sent_append, hsent]
      rfl
  exact ⟨fun _ w' hr => hout hr, fun e w' hr => hout hr⟩

/-- Outside the `try` nothing is sent, and its clauses keep the typed exceptions apart. -/
theorem putIdentityEnvelopeIfCurrent_outcome {ownerName envelope expectedStateHash : Bytes} {expiresAt : ℤ}
    {w w' : Line σ} {r : Except TransportFailure Unit}
    (h : T.putIdentityEnvelopeIfCurrent C ownerName envelope expectedStateHash expiresAt w = (r, w')) :
    Reads w w' ∧ r ≠ .ok () ∨ ∃ r', T.Outcome C ownerName envelope expectedStateHash expiresAt w r' w' ∧
      (r = .ok () → r' = .ok ()) ∧ (Typed r → Typed r') := by
  have hbody := T.writeIfCurrent_outcome C ownerName envelope expectedStateHash expiresAt w
  cases r with
  | ok u =>
    obtain ⟨_, w₁, henabled, h⟩ := Prog.bind_ok_iff.1 h
    obtain ⟨-, rfl⟩ := Prog.reject_ok_iff.1 henabled
    obtain ⟨_, w₁, hshape, h⟩ := Prog.bind_ok_iff.1 h
    obtain ⟨-, rfl⟩ := Prog.reject_ok_iff.1 hshape
    rcases Prog.tryCatch_ok_iff.1 h with hok | ⟨e, w₁, -, hcatch⟩
    · exact .inr ⟨.ok (), hbody.ok hok, fun _ => rfl, id⟩
    · cases e <;> cases hcatch
  | error e =>
    rcases Prog.bind_error_iff.1 h with henabled | ⟨_, w₁, henabled, h⟩
    · obtain ⟨-, -, rfl⟩ := Prog.reject_error_iff.1 henabled
      exact .inl ⟨Std.Refl.refl w, by simp⟩
    obtain ⟨-, rfl⟩ := Prog.reject_ok_iff.1 henabled
    rcases Prog.bind_error_iff.1 h with hshape | ⟨_, w₁, hshape, h⟩
    · obtain ⟨-, -, rfl⟩ := Prog.reject_error_iff.1 hshape
      exact .inl ⟨Std.Refl.refl w, by simp⟩
    obtain ⟨-, rfl⟩ := Prog.reject_ok_iff.1 hshape
    obtain ⟨e', w₁, herror, hcatch⟩ := Prog.tryCatch_error_iff.1 h
    have hout := hbody.error herror
    cases e' with
    | preconditionFailed => cases hcatch; exact .inr ⟨_, hout, by simp, fun _ => .inl rfl⟩
    | writeExpired => cases hcatch; exact .inr ⟨_, hout, by simp, fun _ => .inr rfl⟩
    | wallet e' =>
      cases hcatch
      refine .inr ⟨_, hout, by simp, fun htyped => ?_⟩
      rcases htyped with htyped | htyped <;> cases htyped

end AndroidDirectDhtIdentityTransport

theorem AndroidRegistryDhtConfig.historyPeers_nodup (config : AndroidRegistryDhtConfig) :
    config.historyPeers.Nodup := by
  unfold historyPeers
  cases hreadback : config.readbackPeer with
  | none => simpa using config.ok.unique
  | some peer =>
    refine List.nodup_append.2 ⟨config.ok.unique, List.nodup_singleton peer, fun other hother p hp heq => ?_⟩
    obtain rfl := List.mem_singleton.1 hp
    exact (config.ok.readback p hreadback).2.2.2 other hother (by rw [heq])

/-- For every list of peers, clock and answers: a typed exception means that nothing was sent; what is sent is the
envelope, under the key of the name, to the configured peers in order, each once, with time left, up to the first
failure; a return means that every peer acknowledged; and a call that sends anything has before asked the primary
peer twice, verified both answers as a state with the expected hash, and between them the envelope as an owner-key
change on that state. -/
theorem direct_dht_conditional_write (T : AndroidDirectDhtIdentityTransport σ) (C : Primitives)
    (hT : T.dhtClient.NeverTyped) (ownerName envelope expectedStateHash : Bytes) (expiresAt : ℤ) (w w' : Line σ)
    (r : Except TransportFailure Unit)
    (hrun : T.putIdentityEnvelopeIfCurrent C ownerName envelope expectedStateHash expiresAt w = (r, w')) :
    ∃ events, w'.log = w.log ++ events ∧
      (r = .error .preconditionFailed ∨ r = .error .writeExpired → sent events = []) ∧
      T.config.historyPeers.Nodup ∧ FansOut C ownerName envelope expiresAt T.config.historyPeers events ∧
      (r = .ok () → (sent events).map DhtPut.peer = T.config.historyPeers ∧ ∀ p ∈ sent events, p.answer = .ok true) ∧
      (sent events ≠ [] → T.Cleared C ownerName envelope expectedStateHash events) := by
  have hnodup := T.config.historyPeers_nodup
  rcases T.putIdentityEnvelopeIfCurrent_outcome C hrun with hquiet | ⟨r', hquiet | hfan, hok, htyped⟩
  · obtain ⟨⟨reads, hlog, hsent⟩, hne⟩ := hquiet
    exact ⟨reads, hlog, fun _ => hsent, hnodup, .of_reads hsent, fun h => absurd h hne, fun h => absurd hsent h⟩
  · obtain ⟨⟨reads, hlog, hsent⟩, hne⟩ := hquiet
    exact ⟨reads, hlog, fun _ => hsent, hnodup, .of_reads hsent, fun h => absurd (hok h) hne, fun h => absurd hsent h⟩
  · obtain ⟨key, w₁, reads, hkey, hlog, hsent, hcleared, hfan⟩ := hfan
    obtain ⟨events, hevents, hshape, hnone, hall⟩ :=
      T.fanOut_log C hT hkey envelope expiresAt T.config.historyPeers false false w₁
    rw [hfan] at hevents hnone hall
    have hsame : sent (reads ++ events) = sent events := by rw [sent_append, hsent, List.nil_append]
    refine ⟨reads ++ events, by rw [hevents, hlog, List.append_assoc], fun h => ?_, hnodup, hshape.after_reads hsent,
      fun h => ?_, fun _ => hcleared.append T C events⟩
    · rw [hsame]
      exact (hnone (htyped h)).2
    · rw [hsame]
      exact hall (hok h)

namespace Vector

/-- Two peers that serve the predecessor of the test vector's rotation under every key and acknowledge every write, and
a third to read back from. -/
def dhtConfig : AndroidRegistryDhtConfig where
  registryEnvironment := str "testnet"
  registryPeers := [str "/dns/one/p2p/a", str "/dns/two/p2p/b"]
  enableOwnerKeyRotation := true
  requestTimeoutMillis := 10000
  readbackPeer := some (str "/dns/three/p2p/c")
  ok := ⟨by decide, by decide, by decide, by decide, by decide, by decide +kernel⟩

def dht : AndroidDirectDhtIdentityTransport Unit where
  config := dhtConfig
  dhtClient := ⟨fun _ _ s => (.ok (some DecentWallet.Vector.legacyEnvelope), s), fun _ _ _ s => (.ok true, s)⟩
  epochSeconds := fun s => (0, s)

def rotate : Prog (Line Unit) TransportFailure Unit :=
  dht.putIdentityEnvelopeIfCurrent DecentWallet.Vector.platform.primitives DecentWallet.Vector.ownerName
    DecentWallet.Vector.rotationEnvelope DecentWallet.Vector.legacyHash 1

def line : Line Unit := ⟨(), []⟩

end Vector

/-- The rotation of the test vector goes out to all three peers, after both reads. -/
theorem direct_dht_conditional_write_vector : (Vector.rotate Vector.line).1 = .ok () ∧
    (sent (Vector.rotate Vector.line).2.log).map DhtPut.peer =
      [str "/dns/one/p2p/a", str "/dns/two/p2p/b", str "/dns/three/p2p/c"] ∧
    Vector.dht.Cleared DecentWallet.Vector.platform.primitives DecentWallet.Vector.ownerName
      DecentWallet.Vector.rotationEnvelope DecentWallet.Vector.legacyHash (Vector.rotate Vector.line).2.log := by
  have hok : (Vector.rotate Vector.line).1 = .ok () := by decide +kernel
  obtain ⟨events, hlog, -, -, -, hall, hcleared⟩ := direct_dht_conditional_write Vector.dht
    DecentWallet.Vector.platform.primitives (fun _ _ _ _ => ⟨nofun, nofun⟩) DecentWallet.Vector.ownerName
    DecentWallet.Vector.rotationEnvelope DecentWallet.Vector.legacyHash 1 Vector.line _ _ (Prog.run_eq hok)
  rw [show Vector.line.log = [] from rfl, List.nil_append] at hlog
  have hevents : (Vector.rotate Vector.line).2.log = events := by
    unfold Vector.rotate
    exact hlog
  have hpeers := (hall rfl).1
  rw [hevents]
  refine ⟨hok, hpeers, hcleared fun hnil => ?_⟩
  rw [hnil] at hpeers
  cases hpeers

end DecentWallet.Kotlin
