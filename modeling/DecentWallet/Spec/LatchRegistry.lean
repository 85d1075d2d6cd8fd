import DecentWallet.Lib.Trace
import DecentWallet.Spec.Adapter

/-! Threads that call `register` and `clear` of one `_RotationLatchRegistry`. Taking a lock, reading the table,
writing it and giving a lock back are steps of their own, and between the steps of a call any other call may take
steps; a call that waits for a lock does nothing while another has it. Code that holds an owner's lock around its
calls keeps other calls waiting and no more. -/

namespace DecentWallet

inductive LatchCall where
  | register (value : RotationBinding) (dispatchReady : Bool)
  | clear (value : RotationBinding)
  deriving DecidableEq

namespace LatchCall

def value : LatchCall → RotationBinding
  | register b _ => b
  | clear b => b

/-- What the guarded block leaves for the owner, once it has read `current`; `none` where it returns `False`. -/
def decide (current : Option (RotationBinding × Bool)) : LatchCall → Option (Option (RotationBinding × Bool))
  | register b dispatchReady =>
    match current with
    | none => some (some (b, dispatchReady))
    | some c =>
      if c.1 ≠ b ∧ Latches.mayReplace c b dispatchReady = false then none else some (some (b, dispatchReady || c.2))
  | clear b =>
    match current with
    | none => none
    | some c => if c.1 ≠ b then none else some none

/-- The call as if nothing else ran. -/
def run : LatchCall → Latches → Bool × Latches
  | register b dispatchReady, l => l.register b dispatchReady
  | clear b, l => l.clear b

end LatchCall

inductive LatchStage where
  /-- The binding is well-formed; `owner_lock` wants the guard. -/
  | called
  /-- In `owner_lock`, with the guard. -/
  | lookingUp
  /-- `owner_lock` has returned its lock, which is wanted now. -/
  | found (lock : ℕ)
  | locked (lock : ℕ)
  /-- With the owner's lock and the guard. -/
  | guarded (lock : ℕ)
  | read (lock : ℕ) (current : Option (RotationBinding × Bool))
  | decided (lock : ℕ) (result : Bool)
  | unguarded (lock : ℕ) (result : Bool)
  | returned (result : Bool)
  deriving DecidableEq

/-- The registry, with the calls made so far, each under a number of its own, and the call that has each lock. -/
structure LatchRegistry where
  guard : Option ℕ
  ownerLocks : Bytes → Option ℕ
  locks : ℕ
  holder : ℕ → Option ℕ
  bindings : Latches
  calls : ℕ → Option (LatchCall × LatchStage)

inductive LatchAction where
  | call (n : ℕ) (c : LatchCall)
  | next (n : ℕ)

namespace LatchRegistry

def new : LatchRegistry where
  guard := none
  ownerLocks _ := none
  locks := 0
  holder _ := none
  bindings _ := none
  calls _ := none

def put (r : LatchRegistry) (n : ℕ) (c : LatchCall) (stage : LatchStage) : LatchRegistry :=
  { r with calls := Function.update r.calls n (some (c, stage)) }

def setGuard (r : LatchRegistry) (guard : Option ℕ) : LatchRegistry := { r with guard := guard }

def setHolder (r : LatchRegistry) (lock : ℕ) (n : Option ℕ) : LatchRegistry :=
  { r with holder := Function.update r.holder lock n }

def setBinding (r : LatchRegistry) (ownerName : Bytes) (entry : Option (RotationBinding × Bool)) : LatchRegistry :=
  { r with bindings := r.bindings.put ownerName entry }

def ownerLock (r : LatchRegistry) (ownerName : Bytes) : ℕ × LatchRegistry :=
  match r.ownerLocks ownerName with
  | some lock => (lock, r)
  | none =>
      (r.locks, { r with ownerLocks := Function.update r.ownerLocks ownerName (some r.locks), locks := r.locks + 1 })

/-- The next step of a call that stands at a stage. What a step shows is the decision of the guarded block. -/
def advance (r : LatchRegistry) (n : ℕ) (c : LatchCall) : LatchStage → Option (LatchCall × Bool) × LatchRegistry
  | .called => (none, if r.guard = none then (r.setGuard (some n)).put n c .lookingUp else r)
  | .lookingUp =>
    let found := r.ownerLock c.value.ownerName
    (none, (found.2.setGuard none).put n c (.found found.1))
  | .found lock => (none, if r.holder lock = none then (r.setHolder lock (some n)).put n c (.locked lock) else r)
  | .locked lock => (none, if r.guard = none then (r.setGuard (some n)).put n c (.guarded lock) else r)
  | .guarded lock => (none, r.put n c (.read lock (r.bindings c.value.ownerName)))
  | .read lock current =>
    match c.decide current with
    | none => (some (c, false), r.put n c (.decided lock false))
    | some entry => (some (c, true), (r.setBinding c.value.ownerName entry).put n c (.decided lock true))
  | .decided lock result => (none, (r.setGuard none).put n c (.unguarded lock result))
  | .unguarded lock result => (none, (r.setHolder lock none).put n c (.returned result))
  | .returned _ => (none, r)

end LatchRegistry

/-- A call is made once, and a value that is no binding is refused at once. -/
def LatchAction.run : LatchAction → LatchRegistry → Option (LatchCall × Bool) × LatchRegistry
  | .call n c, r =>
    match r.calls n with
    | none => (none, r.put n c (if c.value.checked = none then .returned false else .called))
    | some _ => (none, r)
  | .next n, r =>
    match r.calls n with
    | none => (none, r)
    | some (c, stage) => r.advance n c stage

abbrev LatchStep := Entry LatchRegistry LatchAction (Option (LatchCall × Bool))

/-- Steps in any order, from a new registry. -/
def LatchRun (steps : List LatchStep) (r : LatchRegistry) : Prop :=
  Trace LatchAction.run (fun _ _ _ => True) [] .new steps r

end DecentWallet
