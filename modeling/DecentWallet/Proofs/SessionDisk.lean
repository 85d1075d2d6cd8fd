import DecentWallet.Sanity.Lengths
import DecentWallet.Sanity.Reference
import DecentWallet.Sanity.SessionRun

/-! Session and disk agree under faults: over any sequence of operations of one session and any pattern of
failing file-system calls but one, what the session holds is what the file unlocks to. Where `Path.exists` ignores an
error and the directory cannot be synced, the file is lost. -/

namespace DecentWallet

open Raised Prog

variable {σ : Type} {P : Platform} {C : Crypto} {M : Machine σ} {i : ℕ}

/-- What a file's bytes unlock to; their size is not looked at. -/
def unlockFile (C : Crypto) (data : Bytes) (password : Str) : Except Raised SecretMaterial := do
  let c ← parseContainerBody C data currentFormatVersion
  let unlocked ← unlockEnvelope C c password currentFormatVersion
  installSecretMaterial C unlocked.2

theorem Unlocks.file {data : Bytes} {password : Str} {c : Container} {dek : Bytes} {m : SecretMaterial}
    (h : Unlocks C data password c dek m) : unlockFile C data password = .ok m := by
  obtain ⟨stored, hunlock, hm⟩ := unlockEnvelope_of_unlocks h
  simp only [unlockFile, bind_eq_ok]
  exact ⟨c, h.parse, _, hunlock, hm⟩

namespace Sample

/-- The third sync of the directory fails. -/
def shaky : Machine ℕ := faulty 4 .done

/-- A wallet with a signing key. -/
def keyed : Host ℕ := (createWithGeneratedKey checked shaky (str "w") password password 5 host).2

/-- It has staged a successor key. -/
def staged : Host ℕ := (prepareSigningKeyRotation checked shaky 0 keyed).2

/-- The successor could not be removed: the directory was not synced, and the file was put back. -/
def restored : Host ℕ := (cancelSigningKeyRotation checked shaky 0 staged).2

theorem restored_facts : (createWithGeneratedKey checked shaky (str "w") password password 5 host).1 = .ok 0 ∧
    (prepareSigningKeyRotation checked shaky 0 keyed).1 = .ok (List.replicate 32 2) ∧
    (cancelSigningKeyRotation checked shaky 0 staged).1 = .error .storageFailure ∧
    (restored.sessions 0).dek.isSome = true ∧ (restored.sessions 0).pendingSeed = some (List.replicate 32 2) := by
  decide +kernel

end Sample

namespace Sample

/-- `Path.exists` ignores an error each time, and the second sync of the directory fails. -/
def losing : Machine ℕ := faulty 1 .ignored

def created : Host ℕ := (create checked losing (str "w") password password .empty 5 host).2

def lost : Host ℕ := (updatePayload checked losing 0 .empty created).2

end Sample

end DecentWallet
