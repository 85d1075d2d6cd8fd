import DecentWallet.Lib.Trace
import DecentWallet.Spec.KotlinWallet

/-! Threads that call `createWalletLoginProofRequest` on one session, while others operate on it. A call goes through
stages; what it does under the session's lock is one step, and so is every other operation of a session. The consent
callback is outside the lock: between the steps of a call any other call may take steps. -/

namespace DecentWallet.Kotlin

structure LoginRequest where
  challenge : Str
  identityId : Str
  expiresAtEpochSeconds : ℤ
  deriving DecidableEq, Repr

/-- Where a call stands; `challengeKey` is its local variable. -/
inductive LoginStage where
  /-- The request is well-formed and not expired. -/
  | checked (challengeKey : Str)
  /-- The challenge is reserved, and the callback runs. -/
  | asking (challengeKey : Str)
  | approved (challengeKey : Str)
  /-- In the `catch` block. -/
  | failing (challengeKey : Str) (e : WalletError)
  | ended (result : Parse WalletLoginProofRequest)

structure LoginCall where
  request : LoginRequest
  stage : LoginStage

structure Desk (σ : Type) where
  phone : Phone σ
  calls : ℕ → Option LoginCall

inductive LoginAction where
  | call (n : ℕ) (request : LoginRequest)
  | reserve (n : ℕ)
  | answer (n : ℕ) (reply : Option Bool)
  | sign (n : ℕ)
  | release (n : ℕ)
  | operation (j : ℕ) (op : SessionOp)

inductive LoginEvent where
  | silent
  | consented (n : ℕ) (profile identityId : Str) (approved : Bool)
  | returned (n : ℕ) (proof : WalletLoginProofRequest)
  | threw (n : ℕ) (e : WalletError)

namespace Desk

variable {σ : Type}

def put (d : Desk σ) (n : ℕ) (request : LoginRequest) (stage : LoginStage) (p : Phone σ) : Desk σ where
  phone := p
  calls := Function.update d.calls n (some ⟨request, stage⟩)

end Desk

section

variable {σ : Type} (A : Android σ) (C : Primitives) (i : ℕ)

def LoginStage.start : Parse Str → LoginStage
  | .ok challengeKey => .checked challengeKey
  | .error e => .ended (.error e)

def LoginStage.reserved (challengeKey : Str) : Parse Unit → LoginStage
  | .ok () => .asking challengeKey
  | .error e => .ended (.error e)

/-- A callback that throws has not approved. -/
def LoginStage.answered (challengeKey : Str) (approved : Bool) : LoginStage :=
  if approved then .approved challengeKey else .failing challengeKey .loginProofRejected

def LoginStage.signed (challengeKey : Str) : Parse WalletLoginProofRequest → LoginStage
  | .ok proof => .ended (.ok proof)
  | .error e => .failing challengeKey e

def LoginEvent.ofStage (n : ℕ) : LoginStage → LoginEvent
  | .ended (.ok proof) => .returned n proof
  | .ended (.error e) => .threw n e
  | _ => .silent

/-- A call takes its next step; an action that is not the next step of its call does nothing. -/
def LoginAction.run : LoginAction → Desk σ → LoginEvent × Desk σ
  | .call n request, d =>
    match d.calls n with
    | none =>
      let (r, p) := loginChallengeKey A request.challenge request.identityId request.expiresAtEpochSeconds d.phone
      (.ofStage n (.start r), d.put n request (.start r) p)
    | some _ => (.silent, d)
  | .reserve n, d =>
    match d.calls n with
    | some ⟨request, .checked challengeKey⟩ =>
      let (r, p) := reserveChallengeKey i challengeKey d.phone
      (.ofStage n (.reserved challengeKey r), d.put n request (.reserved challengeKey r) p)
    | _ => (.silent, d)
  | .answer n reply, d =>
    match d.calls n with
    | some ⟨request, .asking challengeKey⟩ =>
      let approved := reply.getD false
      (.consented n loginProfile request.identityId approved,
        d.put n request (.answered challengeKey approved) d.phone)
    | _ => (.silent, d)
  | .sign n, d =>
    match d.calls n with
    | some ⟨request, .approved challengeKey⟩ =>
      let (r, p) := signUnderLock A i request.challenge request.identityId request.expiresAtEpochSeconds d.phone
      (.ofStage n (.signed challengeKey r), d.put n request (.signed challengeKey r) p)
    | _ => (.silent, d)
  | .release n, d =>
    match d.calls n with
    | some ⟨request, .failing challengeKey e⟩ =>
      let (_, p) := releaseChallengeKey i challengeKey d.phone
      (.threw n e, d.put n request (.ended (.error e)) p)
    | _ => (.silent, d)
  | .operation j op, d => (.silent, { d with phone := (op.run A C j d.phone).2 })

abbrev LoginEntry (σ : Type) := Entry (Desk σ) LoginAction LoginEvent

def LoginRun (d₀ : Desk σ) (steps : List (LoginEntry σ)) (d : Desk σ) : Prop :=
  (∀ n, d₀.calls n = none) ∧ Trace (LoginAction.run A C i) (fun _ _ _ => True) [] d₀ steps d

end

end DecentWallet.Kotlin
