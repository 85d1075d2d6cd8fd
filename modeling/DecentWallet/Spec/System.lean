import DecentWallet.Lib.Trace
import DecentWallet.Spec.Submit
import DecentWallet.Spec.WalletRun

/-! The system: a process that holds any number of wallets and adapters and calls them in any order. What a call
takes from earlier calls it can only have got from them: publications, permits, confirmations and rejections are
sealed by the code that issues them. -/

namespace DecentWallet

/-! ### Adapters -/

/-- The calls of a `RegistryAdapter`. A consent handler runs between two parts of a call that asks it, and so does a
signer. -/
inductive AdapterCall (P : Platform) where
  | readState (ownerName : Bytes)
  | publishBegin (bundle : IdentityBundle P) (request : ConsentRequest)
  | publishEnd (pending : PendingPublication P) (decision : ConsentDecision)
  | prepareBegin (bundle : IdentityBundle P) (request : ConsentRequest)
  | prepareEnd (pending : PendingPublication P) (decision : ConsentDecision)
  | dispatch (publication : RotationPublication P) (permit : RotationDispatchPermit)
  | confirm (intent : RotationDispatchIntent)
  | submitBegin (request : SubmitRequest P)
  | signDraftBegin (draft : IdentityDraft P) (signerPublicKey : Bytes) (signerId : Option Str)
      (request : ConsentRequest)
  | submitSign (pending : PendingSubmission P) (decision : ConsentDecision)
  | submitEnd (pending : PendingSubmission P) (signer : Option SignerAnswers)

inductive AdapterReply (P : Platform) where
  | state (state : Option IdentityState)
  | pending (pending : PendingPublication P)
  | publication (result : PublicationResult P)
  | dispatch (result : RotationDispatchResult P)
  | confirmation (confirmation : Option RotationConfirmation)
  | asking (pending : PendingSubmission P)
  | signing (pending : PendingSubmission P)
  | submission (result : SubmissionResult P)

def AdapterReply.ofBegin {P : Platform} : PublicationResult P ⊕ PendingPublication P → AdapterReply P
  | .inl result => publication result
  | .inr p => pending p

def AdapterReply.ofSubmitBegin {P : Platform} : SubmissionResult P ⊕ PendingSubmission P → AdapterReply P
  | .inl result => submission result
  | .inr p => asking p

/-- How its second part ended; without a result the signer is asked. -/
def AdapterReply.ofSubmitSign {P : Platform} (p : PendingSubmission P) : Option (SubmissionResult P) → AdapterReply P
  | some result => submission result
  | none => signing p

def AdapterCall.run {P : Platform} {σ : Type} (A : Adapter σ) : AdapterCall P → Net σ (AdapterReply P)
  | readState ownerName => .state <$> DecentWallet.readState P A ownerName
  | publishBegin bundle request => .ofBegin <$> publishBundleBegin A bundle request
  | publishEnd pending decision => .publication <$> publishBundleEnd A pending decision
  | prepareBegin bundle request => .ofBegin <$> preparePublicationBegin A bundle request
  | prepareEnd pending decision => .publication <$> preparePublicationEnd A pending decision
  | dispatch publication permit => .dispatch <$> dispatchOwnerKeyRotation A publication permit
  | confirm intent => .confirmation <$> confirmOwnerKeyRotation (P := P) A intent
  | submitBegin request => .ofSubmitBegin <$> submitIdentityBegin A request
  | signDraftBegin draft signerPublicKey signerId request =>
      .ofSubmitBegin <$> DecentWallet.signDraftBegin A draft signerPublicKey signerId request
  | submitSign pending decision => .ofSubmitSign pending <$> submitIdentitySign A pending decision
  | submitEnd pending signer => .submission <$> submitIdentityEnd A pending signer

/-! ### Calls -/

/-- `invalidate` is also what the timer of a capability does. -/
inductive Action (P : Platform) where
  | create (path : Path) (password confirmation : Str) (payload : Payload) (minutes : ℤ)
  | generate (path : Path) (password confirmation : Str) (minutes : ℤ)
  | openAt (path : Path) (password : Str) (minutes : ℤ)
  | importAt (path : Path) (data : Bytes) (password : Str) (minutes : ℤ)
  | migrate (path : Path) (password : Str) (minutes : ℤ)
  | operation (i : ℕ) (op : WalletOp P)
  | sign (id : ℕ) (update : Bytes)
  | invalidate (id : ℕ)
  | adapter (a : ℕ) (call : AdapterCall P)

inductive Reply (P : Platform) where
  | session (j : ℕ)
  | wallet (result : WalletResult)
  | signature (signature : Bytes)
  | invalidated
  | adapter (reply : AdapterReply P)

variable {P : Platform} {σ : Type}

def Action.run (C : Crypto) (M : Machine σ) (R : ℕ → Adapter σ) : Action P → Proc σ (Reply P)
  | create path password confirmation payload minutes =>
      .session <$> DecentWallet.create C M path password confirmation payload minutes
  | generate path password confirmation minutes =>
      .session <$> createWithGeneratedKey C M path password confirmation minutes
  | openAt path password minutes => .session <$> openWallet C M path password minutes
  | importAt path data password minutes => .session <$> importContainer C M path data password minutes
  | migrate path password minutes => .session <$> migrateContainer C M path password minutes
  | operation i op => .wallet <$> op.run C M i
  | sign id update => .signature <$> signIdentityUpdate P C M id update
  | invalidate id => (fun _ => .invalidated) <$> invalidateSigner id
  | adapter a call => .adapter <$> net (call.run (R a))

/-! ### Runs -/

abbrev Call (σ : Type) (P : Platform) := Entry (Host σ) (Action P) (Except Raised (Reply P))

namespace Call

def Issues (e : Call σ P) (publication : RotationPublication P) : Prop :=
  ∃ result, e.result = .ok (.adapter (.publication result)) ∧ result.publication = some publication

def Permits (e : Call σ P) (permit : RotationDispatchPermit) : Prop := e.result = .ok (.wallet (.permit permit))

def Rejects (e : Call σ P) (rejection : RotationDispatchRejection P) : Prop :=
  ∃ result, e.result = .ok (.adapter (.dispatch result)) ∧ result.rejection = some rejection

def Confirms (e : Call σ P) (confirmation : RotationConfirmation) : Prop :=
  e.result = .ok (.adapter (.confirmation (some confirmation))) ∨
    ∃ result, e.result = .ok (.adapter (.dispatch result)) ∧ result.confirmation = some confirmation

/-- The call is the first half of `a`'s publication and waits for consent. -/
def Asks (e : Call σ P) (a : ℕ) (first : IdentityBundle P → ConsentRequest → AdapterCall P) (p : PendingPublication P) :
    Prop :=
  (∃ bundle request, e.action = .adapter a (first bundle request)) ∧ e.result = .ok (.adapter (.pending p))

def AsksToSubmit (e : Call σ P) (a : ℕ) (p : PendingSubmission P) : Prop :=
  (∃ call, e.action = .adapter a call) ∧ e.result = .ok (.adapter (.asking p))

def AsksToSign (e : Call σ P) (a : ℕ) (p : PendingSubmission P) : Prop :=
  (∃ decision, e.action = .adapter a (.submitSign p decision)) ∧ e.result = .ok (.adapter (.signing p))

/-- The call is the first half of a `bind_legacy_rotation_dispatch_environment` of session `i`. -/
def BeginsBinding (e : Call σ P) (i : ℕ) (intent : RotationDispatchIntent) (environment : Str) : Prop :=
  e.action = .operation i (.bindBegin environment) ∧ e.result = .ok (.wallet (.intent intent))

end Call

/-- The sealed objects a call takes were returned by earlier calls. -/
def Obtained (past : List (Call σ P)) : Action P → Prop
  | .operation _ (.latch _ publication) => ∃ e ∈ past, e.Issues publication
  | .operation i (.bindEnd intent environment _) => ∃ e ∈ past, e.BeginsBinding i intent environment
  | .operation _ (.finalize confirmation) => ∃ e ∈ past, e.Confirms confirmation
  | .operation _ (.resolve rejection) => ∃ e ∈ past, e.Rejects rejection
  | .adapter a (.publishEnd p _) => ∃ e ∈ past, e.Asks a .publishBegin p
  | .adapter a (.prepareEnd p _) => ∃ e ∈ past, e.Asks a .prepareBegin p
  | .adapter a (.submitSign p _) => ∃ e ∈ past, e.AsksToSubmit a p
  | .adapter a (.submitEnd p _) => ∃ e ∈ past, e.AsksToSign a p
  | .adapter _ (.dispatch publication permit) => (∃ e ∈ past, e.Issues publication) ∧ ∃ e ∈ past, e.Permits permit
  | _ => True

abbrev SystemRun (C : Crypto) (M : Machine σ) (R : ℕ → Adapter σ) (G : Host σ → Action P → Prop)
    (past : List (Call σ P)) (h : Host σ) (later : List (Call σ P)) (h' : Host σ) : Prop :=
  Trace (Action.run C M R) (fun past h a => Obtained past a ∧ G h a) past h later h'

end DecentWallet
