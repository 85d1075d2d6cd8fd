import DecentWallet.Sanity.WalletRun

/-! A wallet talks to no registry: whatever is called on it, the log of the transports stays as it is. -/

namespace DecentWallet

open Prog

variable {σ : Type} {P : Platform} {C : Crypto} {M : Machine σ} {i : ℕ} {path : Path}

/-- Nothing was logged. -/
def SameLog (h h' : Host σ) : Prop := h'.world.log = h.world.log

instance : Std.Refl (SameLog (σ := σ)) := ⟨fun _ => rfl⟩

instance : IsTrans (Host σ) SameLog := ⟨fun _ _ _ h1 h2 => h2.trans h1⟩

/-! ### What is known already -/

theorem Checks.sameLog {α : Type} {x : Proc σ α} (hx : Checks i x) : Keeps SameLog x := by
  intro h
  cases hr : x h with
  | mk r h' =>
    cases r with
    | ok a => exact ((hx h).ok hr).log
    | error e => exact ((hx h).error hr).log

theorem sameLog_of_only {E α : Type} {x : Prog (Host σ) E α} (hx : Keeps (OnlyFile path) x) : Keeps SameLog x :=
  fun h => (hx h).log

theorem ask_log {E α : Type} (f : σ → α × σ) : Keeps SameLog (ask f : Prog (Host σ) E α) := fun _ => rfl

theorem session_log : Keeps SameLog (session i : Proc σ Session) := fun _ => rfl

theorem lock_log : Keeps SameLog (lock i : Proc σ Unit) := fun _ => rfl

theorem modifySession_log (f : Session → Session) : Keeps SameLog (modifySession i f : Proc σ Unit) := fun _ => rfl

theorem setSigner_log (id : ℕ) (s : Signer) :
    Keeps SameLog (Prog.modify fun h => h.setSigner id s : Proc σ Unit) := fun _ => rfl

theorem invalidateCapabilities_log : Keeps SameLog (invalidateCapabilities i : Proc σ Unit) := fun _ => rfl

/-- What is done on the adapter's side besides talking to the transport. -/
theorem net_log {α : Type} {x : Net σ α} (hx : ∀ w, (x w).2.log = w.log) : Keeps SameLog (net x) := fun h => hx h.world

/-! ### Building and persisting -/

theorem makePayload_log (dek : Bytes) (payload : Payload) : Keeps SameLog (makePayload C M dek payload) :=
  (Keeps.lift _).bind fun _ => (ask_log _).bind fun _ => Keeps.lift _

theorem buildEnvelope_log (payload : Payload) (o : Overrides) : Keeps SameLog (buildEnvelope C M i payload o) :=
  session_log.bind fun _ => (Keeps.lift _).bind fun _ => (Keeps.lift _).bind fun _ => (Keeps.lift _).bind fun _ =>
    (Keeps.lift _).bind fun _ => (makePayload_log _ _).bind fun _ => Keeps.pure _

theorem persistEnvelope_log (c : Container) : Keeps SameLog (persistEnvelope M i c) := by
  unfold persistEnvelope
  refine session_log.bind fun s => (Keeps.lift _).bind fun data =>
    (sameLog_of_only (atomicWrite_only data true)).attempt.bind fun r => ?_
  split
  · exact Keeps.pure _
  · exact lock_log.bind fun _ => Keeps.raise _
  · exact Keeps.raise _

theorem buildV2Envelope_log (password : Str) (dek : Bytes) (kdf : KdfHeader) (payload : Payload) :
    Keeps SameLog (buildV2Envelope C M password dek kdf payload) :=
  (Keeps.lift _).bind fun _ => (Keeps.lift _).bind fun _ => (ask_log _).bind fun _ => (Keeps.lift _).bind fun _ =>
    (makePayload_log _ _).bind fun _ => Keeps.pure _

/-! ### Creating and opening -/

theorem initSession_log (dek : Bytes) (stored : Payload) (c : Container) (minutes : ℤ) :
    Keeps SameLog (initSession C M path dek stored c minutes) :=
  (Keeps.lift _).bind fun _ => (ask_log _).bind fun _ _ => rfl

theorem readContainer_log : Keeps SameLog (readContainer M path) := (readContainer_checks (i := 0) path).sameLog

theorem writeOrLock_log (data : Bytes) (replace : Bool) (j : ℕ) :
    Keeps SameLog (writeOrLock M path data replace j) := by
  unfold writeOrLock
  refine (sameLog_of_only (atomicWrite_only data replace)).attempt.bind fun r => ?_
  cases r with
  | ok _ => exact Keeps.pure _
  | error e => exact lock_log.bind fun _ => Keeps.raise _

theorem createStorage_log (password confirmation : Str) (payload : Payload) (minutes : ℤ) :
    Keeps SameLog (createStorage C M path password confirmation payload minutes) := by
  unfold createStorage
  refine (Keeps.lift _).bind fun _ => (Keeps.lift _).bind fun _ => Keeps.mapError ?_
  refine (ask_log _).bind fun dek => (ask_log _).bind fun salt => (buildV2Envelope_log _ _ _ _).bind fun c =>
    (Keeps.lift _).bind fun data => (sameLog_of_only (atomicWrite_only data false)).bind fun _ => ?_
  exact (initSession_log _ _ _ _).tryCatch fun _ => (sameLog_of_only unlink_only).attempt.bind fun _ => Keeps.raise _

theorem create_log (password confirmation : Str) (payload : Payload) (minutes : ℤ) :
    Keeps SameLog (create C M path password confirmation payload minutes) :=
  (Keeps.reject _ _).bind fun _ => createStorage_log _ _ _ _

theorem createWithGeneratedKey_log (password confirmation : Str) (minutes : ℤ) :
    Keeps SameLog (createWithGeneratedKey C M path password confirmation minutes) :=
  (generateSeed_checks (i := 0)).sameLog.bind fun _ => (Keeps.lift _).bind fun _ => createStorage_log _ _ _ _

theorem openWallet_log (password : Str) (minutes : ℤ) : Keeps SameLog (openWallet C M path password minutes) :=
  (Keeps.lift _).bind fun _ => (Keeps.lift _).bind fun _ => readContainer_log.bind fun _ => (Keeps.lift _).bind fun _ =>
    (Keeps.lift _).bind fun _ => initSession_log _ _ _ _

theorem importContainer_log (data : Bytes) (password : Str) (minutes : ℤ) :
    Keeps SameLog (importContainer C M path data password minutes) :=
  (Keeps.lift _).bind fun _ => (Keeps.lift _).bind fun _ => (Keeps.lift _).bind fun _ => Keeps.mapError
    ((Keeps.lift _).bind fun _ => (initSession_log _ _ _ _).bind fun j => writeOrLock_log _ _ j)

theorem migrateContainer_log (password : Str) (minutes : ℤ) :
    Keeps SameLog (migrateContainer C M path password minutes) :=
  (Keeps.lift _).bind fun _ => (Keeps.lift _).bind fun _ => readContainer_log.bind fun _ => (Keeps.lift _).bind fun _ =>
    Keeps.mapError ((Keeps.lift _).bind fun _ => (buildV2Envelope_log _ _ _ _).bind fun _ =>
      (initSession_log _ _ _ _).bind fun j => (Keeps.lift _).bind fun _ => writeOrLock_log _ _ j)

/-! ### Operations -/

/-- The end of every operation that writes. -/
theorem store_log {α : Type} {updated : Payload} {o : Overrides} {f : Container → Proc σ α}
    (hf : ∀ c, Keeps SameLog (f c)) :
    Keeps SameLog (buildEnvelope C M i updated o >>= fun c => persistEnvelope M i c >>= fun _ => f c) :=
  (buildEnvelope_log _ _).bind fun c => (persistEnvelope_log c).bind fun _ => hf c

theorem updatePayload_log (payload : Payload) : Keeps SameLog (updatePayload C M i payload) :=
  touch_checks.sameLog.bind fun _ => (Keeps.reject _ _).bind fun _ => session_log.bind fun _ =>
    (Keeps.lift _).bind fun _ => store_log fun _ => (modifySession_log _).bind fun _ => invalidateCapabilities_log

theorem changePassword_log (password confirmation : Str) : Keeps SameLog (changePassword C M i password confirmation) :=
  touch_checks.sameLog.bind fun _ => (Keeps.lift _).bind fun _ => (ask_log _).bind fun _ => (Keeps.lift _).bind fun _ =>
    session_log.bind fun _ => (Keeps.lift _).bind fun _ => (ask_log _).bind fun _ => (Keeps.lift _).bind fun _ =>
      (Keeps.lift _).bind fun _ => (persistEnvelope_log _).bind fun _ => modifySession_log _

theorem createSigner_log (timeoutSeconds : ℤ) : Keeps SameLog (createSigner C M i timeoutSeconds) :=
  touch_checks.sameLog.bind fun _ => ensure_checks.sameLog.bind fun _ => session_log.bind fun _ =>
    (Keeps.lift _).bind fun _ => (Keeps.lift _).bind fun _ => (Keeps.reject _ _).bind fun _ =>
    (Keeps.reject _ _).bind fun _ => (Keeps.lift _).bind fun _ =>
      (ask_log _).bind fun _ => (net_log fun _ => rfl).bind fun _ => (setSigner_log _ _).bind fun _ =>
        (Keeps.reject _ _).bind fun _ => (modifySession_log _).bind fun _ => Keeps.pure _

theorem prepareSigningKeyRotation_log : Keeps SameLog (prepareSigningKeyRotation C M i) := by
  unfold prepareSigningKeyRotation
  refine touch_checks.sameLog.bind fun _ => ensure_checks.sameLog.bind fun _ => session_log.bind fun s => ?_
  refine Keeps.ite (pendingSigningPublicKey_checks.sameLog.bind fun _ => Keeps.lift _) ?_
  exact (stageSuccessor_checks (i := i) s).sameLog.bind fun _ => store_log fun _ => (modifySession_log _).bind fun _ =>
    invalidateCapabilities_log.bind fun _ => Keeps.pure _

theorem cancelSigningKeyRotation_log : Keeps SameLog (cancelSigningKeyRotation C M i) :=
  touch_checks.sameLog.bind fun _ => ensure_checks.sameLog.bind fun _ => session_log.bind fun _ =>
    (Keeps.reject _ _).ite (store_log fun _ => (modifySession_log _).bind fun _ => invalidateCapabilities_log)

theorem latch_log (b : IdentityBundle P) (pub : RotationPublication P) :
    Keeps SameLog (latchSigningKeyRotationDispatchIntent P C M i b pub) :=
  touch_checks.sameLog.bind fun _ => ensure_checks.sameLog.bind fun _ =>
    (latchIntent_checks b pub).sameLog.bind fun _ => (Keeps.reject _ _).bind fun _ =>
    (net_log fun _ => rfl).bind fun _ => (Keeps.reject _ _).bind fun _ =>
      invalidateCapabilities_log.bind fun _ => session_log.bind fun _ => store_log fun _ =>
      (modifySession_log _).bind fun _ =>
        (net_log fun _ => rfl).bind fun _ => (Keeps.reject _ _).bind fun _ => Keeps.pure _

theorem bindEnd_log (intent : RotationDispatchIntent) (environment : Str) (approved : Bool) :
    Keeps SameLog (bindEnd C M i intent environment approved) :=
  touch_checks.sameLog.bind fun _ => (Keeps.reject _ _).bind fun _ => dispatchIntent_checks.sameLog.bind fun _ =>
    (Keeps.reject _ _).bind fun _ => (Keeps.lift _).bind fun _ => session_log.bind fun _ =>
    (buildEnvelope_log _ _).bind fun _ =>
      invalidateCapabilities_log.bind fun _ => (persistEnvelope_log _).bind fun _ => (modifySession_log _).bind fun _ =>
        Keeps.pure _

theorem finalizeSigningKeyRotation_log (confirmation : RotationConfirmation) :
    Keeps SameLog (finalizeSigningKeyRotation C M i confirmation) :=
  touch_checks.sameLog.bind fun _ => session_log.bind fun _ => (Keeps.lift _).bind fun _ =>
    (Keeps.reject _ _).bind fun _ => (Keeps.lift _).bind fun _ => (Keeps.reject _ _).bind fun _ =>
    (net_log fun _ => rfl).bind fun _ =>
      (Keeps.reject _ _).bind fun _ => invalidateCapabilities_log.bind fun _ => store_log fun _ =>
        (modifySession_log _).bind fun _ => (net_log fun _ => rfl).bind fun _ =>
        (Keeps.reject _ _).bind fun _ => Keeps.pure _

theorem resolve_log (rejection : RotationDispatchRejection P) :
    Keeps SameLog (resolveSigningKeyRotationRejection P C M i rejection) := by
  have hconsume : ∀ w : World σ, (consume rejection.id w).2.log = w.log := by
    intro w
    unfold consume
    split_ifs <;> rfl
  have hpersist : ∀ updated, Keeps SameLog (persistOrRelease C M i rejection.id updated) := fun updated =>
    Keeps.tryCatch (store_log fun _ => Keeps.pure _) fun _ => (net_log fun _ => rfl).bind fun _ => Keeps.raise _
  unfold resolveSigningKeyRotationRejection
  refine touch_checks.sameLog.bind fun _ => session_log.bind fun _ => (Keeps.lift _).bind fun _ =>
    (Keeps.reject _ _).bind fun _ => (Keeps.lift _).bind fun _ => (net_log fun _ => rfl).bind fun _ =>
      (Keeps.reject _ _).bind fun _ => (net_log hconsume).bind fun _ => (Keeps.reject _ _).bind fun _ => ?_
  exact (hpersist _).bind fun _ => (modifySession_log _).bind fun _ => invalidateCapabilities_log.bind fun _ =>
    (net_log fun _ => rfl).bind fun _ => Keeps.pure _

theorem walletOp_log (op : WalletOp P) : Keeps SameLog (op.run C M i) := by
  cases op with
  | updatePayload payload => exact (updatePayload_log payload).map _
  | changePassword password confirmation => exact (changePassword_log password confirmation).map _
  | createSigner timeoutSeconds => exact (createSigner_log timeoutSeconds).map _
  | prepare => exact prepareSigningKeyRotation_log.map _
  | provePending draft => exact (provePending_checks draft).sameLog.map _
  | cancel => exact cancelSigningKeyRotation_log.map _
  | latch bundle publication => exact (latch_log bundle publication).map _
  | bindBegin environment => exact (bindBegin_checks environment).sameLog.map _
  | bindEnd intent environment approved => exact (bindEnd_log intent environment approved).map _
  | finalize confirmation => exact (finalizeSigningKeyRotation_log confirmation).map _
  | resolve rejection => exact (resolve_log rejection).map _
  | exportContainer => exact exportContainer_checks.sameLog.map _
  | lock => exact lock_log.map _

/-! ### Capabilities -/

theorem invalidateSigner_log (id : ℕ) : Keeps SameLog (invalidateSigner id : Proc σ Unit) := by
  refine Keeps.modify fun h => ?_
  unfold Host.discard
  split <;> rfl

theorem signIdentityUpdate_log (id : ℕ) (update : Bytes) : Keeps SameLog (signIdentityUpdate P C M id update) := by
  have hactive : Keeps SameLog (assertActive M id) :=
    Keeps.bind (fun _ => rfl) fun _ => (Keeps.reject _ _).bind fun _ => (ask_log _).bind fun _ =>
      ((invalidateSigner_log id).bind fun _ => Keeps.raise _).ite (Keeps.pure _)
  exact hactive.bind fun _ => (invalidateSigner_log id).bind fun _ => Keeps.lift _

end DecentWallet
