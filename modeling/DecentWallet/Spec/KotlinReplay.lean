import DecentWallet.Lib.Bytes
import DecentWallet.Lib.Trace

/-! `FileAndroidIdentityReplayNonceStore.kt`: the journal of consumed nonce digests. Calls of `consume` run in any
number of processes, each with its own `processLock`, and share the journal and the lock file of one directory. A
call takes a step at a time, a write may stop after any byte, an I/O operation may throw, and a process may crash at
any point. -/

namespace DecentWallet.Kotlin.Replay

def digestBytes : ℕ := 32

def recordBytes : ℕ := 40

def maxRecords : ℕ := 1000000

def magic : Bytes := [0x44, 0x57, 0x4e, 0x52]

def putInt (n : UInt32) : Bytes :=
  [UInt8.ofNat (n.toNat / 2 ^ 24), UInt8.ofNat (n.toNat / 2 ^ 16 % 2 ^ 8), UInt8.ofNat (n.toNat / 2 ^ 8 % 2 ^ 8),
    UInt8.ofNat (n.toNat % 2 ^ 8)]

/-- Where a call stands. `size` and `index` are local variables; `rest` is what remains in the buffer `append`. The
result is `none` where an exception is on its way out. -/
inductive Stage where
  | called
  /-- It holds the process lock. -/
  | inProcess
  /-- It holds the file lock as well, up to `leaving`. -/
  | locked
  | scanning (size index : ℕ)
  | appending (size : ℕ) (rest : Bytes)
  | written
  | leaving (result : Option Bool)
  /-- It has released the file lock. -/
  | unlocked (result : Option Bool)
  | ended (result : Option Bool)
  | crashed
  deriving DecidableEq, Repr

structure Consume where
  process : ℕ
  digest : Bytes
  stage : Stage
  deriving DecidableEq, Repr

/-- The directory and the calls of `consume` so far, each under a number of its own. The locks are held by calls. -/
structure Directory where
  journal : Bytes
  fileLock : Option ℕ
  processLocks : ℕ → Option ℕ
  calls : ℕ → Option Consume

inductive Action where
  | consume (n process : ℕ) (digest : Bytes)
  /-- Call `n` goes on; if it is writing, `count` bytes reach the file. -/
  | advance (n count : ℕ)
  /-- What call `n` does next throws. -/
  | fail (n : ℕ)
  | crash (process : ℕ)
  deriving DecidableEq, Repr

inductive Event where
  | silent
  | returned (n : ℕ) (digest : Bytes) (result : Bool)
  | threw (n : ℕ)
  deriving DecidableEq, Repr

def Event.ofResult (n : ℕ) (digest : Bytes) : Option Bool → Event
  | some result => .returned n digest result
  | none => .threw n

namespace Directory

def put (s : Directory) (n : ℕ) (c : Consume) (stage : Stage) : Directory :=
  { s with calls := Function.update s.calls n (some { c with stage := stage }) }

end Directory

def writeAt (content : Bytes) (position : ℕ) (bytes : Bytes) : Bytes :=
  content.take position ++ bytes ++ content.drop (position + bytes.length)

section

variable (crc32 : Bytes → UInt32)

def recordCrc (digest : Bytes) : UInt32 := crc32 (magic ++ digest)

def record (digest : Bytes) : Bytes := magic ++ digest ++ putInt (recordCrc crc32 digest)

def digestAt (journal : Bytes) (index : ℕ) : Bytes := ((journal.drop (index * recordBytes)).drop 4).take digestBytes

def wellFormedAt (journal : Bytes) (index : ℕ) : Bool :=
  (journal.drop (index * recordBytes)).take recordBytes = record crc32 (digestAt journal index)

/-- A turn of the loop over the records, or what comes after it. No call writes while this one holds the file lock, so a
record is read in one step. -/
def scan (journal digest : Bytes) (size index : ℕ) : Stage :=
  if index < size / recordBytes then
    if wellFormedAt crc32 journal index = false then .leaving none
    else if digestAt journal index = digest then .leaving (some false)
    else .scanning size (index + 1)
  else if maxRecords ≤ size / recordBytes then .leaving none
  else .appending size (record crc32 digest)

def openJournal (journal : Bytes) : Stage :=
  if journal.length % recordBytes ≠ 0 ∨ maxRecords < journal.length / recordBytes then .leaving none
  else .scanning journal.length 0

def wrote (size : ℕ) (rest : Bytes) (count : ℕ) : Stage :=
  if rest.drop count = [] then .written else .appending size (rest.drop count)

/-- The call goes on. A lock that is held makes it wait; the file lock is held for the whole process, and a second
attempt in one process throws. -/
def advance (n count : ℕ) (s : Directory) (c : Consume) : Event × Directory :=
  match c.stage with
  | .called =>
    if s.processLocks c.process = none then
      (.silent, { s.put n c .inProcess with processLocks := Function.update s.processLocks c.process (some n) })
    else (.silent, s)
  | .inProcess =>
    match s.fileLock with
    | none => (.silent, { s.put n c .locked with fileLock := some n })
    | some m =>
      if (s.calls m).any fun c' => c'.process = c.process then (.silent, s.put n c (.unlocked none)) else (.silent, s)
  | .locked => (.silent, s.put n c (openJournal s.journal))
  | .scanning size index => (.silent, s.put n c (scan crc32 s.journal c.digest size index))
  | .appending size rest =>
    let position := size + (recordBytes - rest.length)
    (.silent, { s.put n c (wrote size rest count) with journal := writeAt s.journal position (rest.take count) })
  | .written => (.silent, s.put n c (.leaving (some true)))
  | .leaving result => (.silent, { s.put n c (.unlocked result) with fileLock := none })
  | .unlocked result =>
    (.ofResult n c.digest result,
      { s.put n c (.ended result) with processLocks := Function.update s.processLocks c.process none })
  | .ended _ => (.silent, s)
  | .crashed => (.silent, s)

def Stage.failed : Stage → Stage
  | .inProcess => .unlocked none
  | .locked => .leaving none
  | .scanning _ _ => .leaving none
  | .appending _ _ => .leaving none
  | .written => .leaving none
  | .leaving _ => .leaving none
  | .unlocked _ => .unlocked none
  | stage => stage

def Stage.afterCrash : Stage → Stage
  | .ended result => .ended result
  | _ => .crashed

def crash (process : ℕ) (s : Directory) : Directory where
  journal := s.journal
  fileLock := s.fileLock.filter fun n => !(s.calls n).any fun c => c.process = process
  processLocks := Function.update s.processLocks process none
  calls n := (s.calls n).map fun c => if c.process = process then { c with stage := c.stage.afterCrash } else c

def Action.run : Action → Directory → Event × Directory
  | .consume n process digest, s =>
    match s.calls n with
    | none =>
      if digest.length ≠ digestBytes then (.threw n, s.put n ⟨process, digest, .called⟩ (.ended none))
      else (.silent, s.put n ⟨process, digest, .called⟩ .called)
    | some _ => (.silent, s)
  | .advance n count, s =>
    match s.calls n with
    | none => (.silent, s)
    | some c => Replay.advance crc32 n count s c
  | .fail n, s =>
    match s.calls n with
    | none => (.silent, s)
    | some c => (.silent, s.put n c c.stage.failed)
  | .crash process, s => (.silent, Replay.crash process s)

abbrev Step := Entry Directory Action Event

/-- Steps in any order, from a directory with any journal and no call. -/
def Run (s₀ : Directory) (steps : List Step) (s : Directory) : Prop :=
  (∀ n, s₀.calls n = none) ∧ Trace (Action.run crc32) (fun _ _ _ => True) [] s₀ steps s

end

end DecentWallet.Kotlin.Replay
