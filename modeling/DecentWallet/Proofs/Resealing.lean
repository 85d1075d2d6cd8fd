import DecentWallet.Sanity.Lengths
import DecentWallet.Sanity.Reference
import DecentWallet.Sanity.SessionRun

/-! Which accepted containers can be opened again once the wallet has written them. Resealing keeps the wrapped
key and writes the header it was wrapped under anew. -/

namespace DecentWallet

open Raised Prog

variable {σ : Type} {P : Platform} {C : Crypto} {M : Machine σ} {i : ℕ}

/-- The operation writes no file where it returns, or the header prints as the wallet's own. -/
def Container.Outlasts (c : Container) (s : Session) (op : WalletOp P) : Prop := c.HeaderKept ∨ op.rewrites s = false

/-- The session is locked, or its container and file are the accepted ones, or it has written them anew with the
header kept. -/
def Follows (C : Crypto) (i : ℕ) (data : Bytes) (password : Str) (c : Container) (dek : Bytes) (h : Host σ) : Prop :=
  (h.sessions i).Locked ∨ ∃ c', Rooted C (h.sessions i) password c c' dek ∧
    (h.dataAt (h.sessions i).path = some data ∨ c.HeaderKept ∧ c.Reseals c' ∧
      ∃ new, serialize c' = .ok new ∧ h.dataAt (h.sessions i).path = some new)

namespace Follows

variable {data dek : Bytes} {c : Container} {password : Str} {h h' : Host σ} {op : WalletOp P}
  {r : Except Raised WalletResult}

theorem operation (hC : C.Correct) (hM : M.Steady) (hf : Follows C i data password c dek h) (hop : ¬op.Rekeys r)
    (hc : r.isOk = true → c.Outlasts (h.sessions i) op) (hr : op.run C M i h = (r, h')) :
    Follows C i data password c dek h' := by
  rcases hf with hlocked | ⟨c1, hroot, hfile⟩
  · exact .inl (walletOp_stays_locked hlocked hr)
  have hstep := walletOp_stepped hC hroot.holds hr
  cases hstep with
  | locked hlocked _ => exact .inl hlocked
  | kept hsame _ hkept =>
    refine .inr ⟨c1, hroot.of_core hsame, ?_⟩
    rw [hsame.path, hkept hM]
    exact hfile
  | saved hw hsaved =>
    rcases hw.resealed_or with ⟨hresealed, -⟩ | ⟨_, _, rfl, -⟩
    · have hreseals := hroot.reseals hresealed
      refine .inr ⟨_, ⟨hsaved.holds hroot.holds hw, hroot.unwrap, .inr hreseals⟩, .inr ⟨?_, hreseals, ?_⟩⟩
      · exact (hc rfl).resolve_right (by simp [hw.rewrites])
      · rw [hsaved.path]
        exact hsaved.file
    · exact absurd ⟨⟨_, _, rfl⟩, rfl⟩ hop

theorem run (hC : C.Correct) (hM : M.Steady) {h0 : Host σ} {password' : Str} (h0f : Follows C i data password c dek h0)
    (hrun : SessionRun (P := P) C M (fun s op r => ¬op.Rekeys r ∧ (r.isOk = true → c.Outlasts s op)) i h0 password h
      password') : Follows C i data password c dek h := by
  induction hrun with
  | start => exact h0f
  | operation op _ hop hr ih => exact ih.operation hC hM hop.1 hop.2 hr
  | elsewhere _ hsession hdata ih =>
    rcases ih with hlocked | ⟨c1, hroot, hfile⟩
    · exact .inl (by rwa [hsession])
    · refine .inr ⟨c1, by rwa [hsession], ?_⟩
      rw [hsession, hdata]
      exact hfile

/-- Where the session is not locked, the file unlocks with the password. -/
theorem unlocks (hC : C.Correct) {m : SecretMaterial} (hu : Unlocks C data password c dek m)
    (hf : Follows C i data password c dek h) :
    (h.sessions i).Locked ∨ ∃ now c' m', h.dataAt (h.sessions i).path = some now ∧
    Unlocks C now password c' dek m' := by
  refine hf.imp_right fun hex => ?_
  obtain ⟨c1, hroot, hfile | ⟨hkept, hreseals, new, hnew, hfile⟩⟩ := hex
  · exact ⟨data, c, m, hfile, hu⟩
  · obtain ⟨salt, -, hwritten⟩ := hreseals.header
    exact ⟨new, c1, _, hfile, unlocks_serialize hC hwritten hroot.holds.stores hnew (hreseals.unwraps hkept hu.unwrap)⟩

end Follows

/-- What an operation has just sealed anew opens with the password only where the header is kept. -/
theorem headerKept_of_opens (hC : C.Correct) (hbind : C.BindsAad) {password : Str} {root c c' : Container} {dek : Bytes}
    {m : SecretMaterial} {h h' h'' : Host σ} {M' : Machine σ} {minutes : ℤ} {j : ℕ}
    (hroot : Rooted C (h.sessions i) password root c dek) (hresealed : Resealed C c dek c' m)
    (hsaved : Saved i h h' c' m)
    (hopen : openWallet C M' (h'.sessions i).path password minutes h' = (.ok j, h'')) : root.HeaderKept := by
  obtain ⟨data, c2, dek', m2, hdata, -, hu, -, -⟩ := openWallet_ok hopen
  obtain ⟨new, hnew, hfile⟩ := hsaved.file
  have hreseals := hroot.reseals hresealed
  obtain ⟨salt, -, hwritten⟩ := hreseals.header
  rw [hsaved.path] at hdata
  cases hfile.symm.trans hdata
  cases hu.parse.symm.trans (parseContainerBody_serialize hC hwritten hnew)
  exact hreseals.headerKept hbind hroot.unwrap hu.unwrap

/-- In any run of a session of accepted bytes that sets no password, whatever fails in it but for a write that loses
the file, as long as each operation that returned had written no file or the accepted header printed as the wallet's
own: the file opens with the password after the next operation that returns exactly where the same is true of it. -/
theorem resealed_opens_iff (hC : C.Correct) (hbind : C.BindsAad) (hM : M.Steady) {data : Bytes}
    {password password' : Str} {h0 h h' : Host σ} {c : Container} (haccepts : Accepts C M data password i h0)
    (hc : parseContainer C data currentFormatVersion = .ok c)
    (hrun : SessionRun (P := P) C M (fun s op r => ¬op.Rekeys r ∧ (r.isOk = true → c.Outlasts s op)) i h0 password h
      password')
    {op : WalletOp P} {a : WalletResult} (hr : op.run C M i h = (.ok a, h')) (hop : ¬op.Rekeys (.ok a))
    (hlock : op ≠ .lock) (hsize : ∀ now ∈ h'.dataAt (h'.sessions i).path, now.length ≤ maxContainerBytes)
    {M' : Machine σ} (hM' : M'.Working) {minutes : ℤ} (hminutes : validateInactivity minutes = .ok ()) :
    (∃ j h'', openWallet C M' (h'.sessions i).path password minutes h' = (.ok j, h'')) ↔
    c.Outlasts (h.sessions i) op := by
  obtain ⟨c0, dek, m, hu, hlen, hholds, hfile⟩ := haccepts.holds
  cases hc.symm.trans (parseContainer_eq_ok.2 ⟨hlen, hu.parse⟩)
  have hfollows : Follows C i data password c dek h :=
    Follows.run hC hM (.inr ⟨c, ⟨hholds, hu.unwrap, .inl rfl⟩, .inl hfile⟩) hrun
  rcases id hfollows with hlocked | ⟨c1, hroot, -⟩
  · rcases walletOp_locked hlocked.dek hr with ⟨he, -⟩ | ⟨hl, -⟩
    · cases he
    · exact absurd hl hlock
  have hstep := walletOp_stepped hC hroot.holds hr
  have hkey := hstep.key hroot.holds hlock
  constructor
  · intro hex
    obtain ⟨j, h'', hopen⟩ := hex
    cases hstep with
    | locked _ hl => exact absurd (hl rfl) hlock
    | kept _ hkept _ => exact .inr (hkept rfl)
    | saved hw hsaved =>
      rcases hw.resealed_or with ⟨hresealed, -⟩ | ⟨_, _, rfl, -⟩
      · exact .inl (headerKept_of_opens hC hbind hroot hresealed hsaved hopen)
      · exact absurd ⟨⟨_, _, rfl⟩, rfl⟩ hop
  · intro houtlasts
    rcases (hfollows.operation hC hM hop (fun _ => houtlasts) hr).unlocks hC hu with hlocked | ⟨now, c', m', hnow, hu'⟩
    · cases hlocked.dek.symm.trans hkey
    · obtain ⟨j, h'', hopen, -⟩ := openWallet_working hM' haccepts.password_ok hminutes hnow (hsize now hnow) hu'
      exact ⟨j, h'', hopen⟩

namespace Sample

/-- A wallet with a signing key. -/
def signing : Host ℕ := (createWithGeneratedKey binding machine (str "w") password password 5 host).2

/-- It was opened once more, as session 1. -/
def reopened : Host ℕ := (openWallet binding machine (str "w") password 5 signing).2

/-- Session 1 has staged a successor key. -/
def successor : Host ℕ := (prepareSigningKeyRotation binding machine 1 reopened).2

def noted : Payload := Payload.empty.setBytes "note" [1, 2, 3]

/-- It has a new payload. -/
def updated : Host ℕ := (updatePayload binding machine 1 noted successor).2

theorem updated_facts : (createWithGeneratedKey binding machine (str "w") password password 5 host).1 = .ok 0 ∧
    (openWallet binding machine (str "w") password 5 signing).1 = .ok 1 ∧
    (prepareSigningKeyRotation binding machine 1 reopened).1 = .ok (List.replicate 32 1) ∧
    (updatePayload binding machine 1 noted successor).1 = .ok () ∧
    (updated.dataAt (updated.sessions 1).path).all (·.length ≤ maxContainerBytes) = true ∧
    updated.dataAt (str "w") ≠ reopened.dataAt (str "w") := by
  decide +kernel

end Sample

/-- The wallet was opened, staged a successor and stored a payload: its file is another one, and opens. -/
theorem resealed_opens_iff_updated : Sample.updated.dataAt (str "w") ≠ Sample.reopened.dataAt (str "w") ∧
    ∃ j h', openWallet Sample.binding Sample.machine (Sample.updated.sessions 1).path Sample.password 5 Sample.updated =
      (.ok j, h') := by
  obtain ⟨hcreate, hopen, hprepare, hupdate, hsize, hother⟩ := Sample.updated_facts
  obtain ⟨h1, p, c, dek, salt, m, data, hcreated⟩ := createWithGeneratedKey_ok (run_eq hcreate)
  have hwritten := hcreated.built.written Sample.binding_correct hcreated.salt_length hcreated.install
  have hkept := hwritten.ownHeader.headerKept
  have hparse := parseContainerBody_serialize Sample.binding_correct hwritten hcreated.written
  obtain ⟨data', c', dek', m', hdata', hlen, hu, hb, hsame⟩ := openWallet_ok (run_eq hopen)
  cases hcreated.after.symm.trans hdata'
  have hstaged : (WalletOp.prepare : WalletOp Vector.platform).run Sample.binding Sample.machine 1 Sample.reopened =
      (.ok (.key (List.replicate 32 1)), Sample.successor) := by
    rw [WalletOp.run, map_ok_iff]
    exact ⟨_, run_eq hprepare, rfl⟩
  have hupdated : (WalletOp.updatePayload Sample.noted : WalletOp Vector.platform).run Sample.binding Sample.machine 1
      Sample.successor = (.ok .nothing, Sample.updated) := by
    rw [WalletOp.run, map_ok_iff]
    exact ⟨_, run_eq hupdate, rfl⟩
  refine ⟨hother, (resealed_opens_iff Sample.binding_correct Sample.binding_bindsAad Sample.machine_working.steady
    (.opened hcreated.after (run_eq hopen)) (parseContainer_eq_ok.2 ⟨hlen, hparse⟩)
    (.operation .prepare .start ⟨by simp [WalletOp.Rekeys], fun _ => .inl hkept⟩ hstaged) hupdated
    (by simp [WalletOp.Rekeys]) (by simp) ?_ Sample.machine_working (by decide)).2 (.inl hkept)⟩
  intro now hnow
  rw [Option.mem_def.1 hnow] at hsize
  simpa using hsize

/-! ### A header that is not kept -/

namespace Sample

/-- A container with a float in its header, sealed like the wallet's own. -/
def floatContainer : Except Raised Container :=
  (buildV2Envelope binding machine password (List.replicate 32 9) floatHeader .empty host).1

def floatHost : Host ℕ := holding ((floatContainer.bind serialize).toOption.getD [])

def floatOpened : Host ℕ := (openWallet binding machine (str "w") password 5 floatHost).2

def floatUpdated : Host ℕ := (updatePayload binding machine 0 .empty floatOpened).2

end Sample

/-- The container opens, and opens no more after its payload was updated. -/
theorem resealed_float_header : Sample.binding.Correct ∧ Sample.binding.BindsAad ∧
    (openWallet Sample.binding Sample.machine (str "w") Sample.password 5 Sample.floatHost).1 = .ok 0 ∧
      (updatePayload Sample.binding Sample.machine 0 .empty Sample.floatOpened).1 = .ok () ∧
      (Sample.floatUpdated.dataAt (str "w")).any (·.length ≤ maxContainerBytes) = true ∧
      (openWallet Sample.binding Sample.machine (str "w") Sample.password 5 Sample.floatUpdated).1 =
        .error unlockFailed :=
  ⟨Sample.binding_correct, Sample.binding_bindsAad, by decide +kernel⟩

end DecentWallet
