import DecentWallet.Spec.Adapter

/-! The latch registry on bindings that an intent may hold: such a binding is its own checked form, and what
is registered for it is found and cleared again. -/

namespace DecentWallet

theorem RotationBinding.checked_of_intentOk {b : RotationBinding} (h : b.IntentOk) : b.checked = some b := by
  obtain ⟨-, hname, -, -, hpred, hsucc, hstate, henv, hseq⟩ := h
  rw [checked, if_pos]
  refine ⟨fun hnil => ?_, hpred, hsucc, hstate, by omega, henv⟩
  rw [hnil] at hname
  simp at hname

theorem RotationBinding.eq_of_checked {b c : RotationBinding} (h : b.checked = some c) : b = c := by
  unfold checked at h
  split_ifs at h
  exact Option.some.inj h

/-- A binding matches an intent only when it is the intent's. -/
theorem RotationBinding.checked_eq_iff {b : RotationBinding} {intent : RotationDispatchIntent} :
    b.checked = intent.toRotationBinding.checked ↔ b = intent.toRotationBinding := by
  rw [checked_of_intentOk intent.ok]
  constructor
  · exact eq_of_checked
  · intro h
    rw [h, checked_of_intentOk intent.ok]

theorem RotationPublication.matchesIntent_iff {P : Platform} {p : RotationPublication P}
    {intent : RotationDispatchIntent} :
    p.matchesIntent intent.toRotationBinding = true ↔ p.binding = intent.toRotationBinding := by
  simp [matchesIntent, RotationBinding.checked_eq_iff]

theorem RotationConfirmation.matchesIntent_iff {c : RotationConfirmation} {intent : RotationDispatchIntent} :
    c.matchesIntent intent.toRotationBinding = true ↔ c.binding = intent.toRotationBinding := by
  simp [matchesIntent, RotationBinding.checked_eq_iff]

namespace Latches

variable {l : Latches} {intent : RotationDispatchIntent}

theorem isLatched_iff :
    l.isLatched intent.toRotationBinding = true ↔ ∃ ready,
    l intent.ownerName = some (intent.toRotationBinding, ready) := by
  simp only [isLatched, RotationBinding.checked_of_intentOk intent.ok]
  cases hl : l intent.ownerName with
  | none => simp
  | some p => simp [Prod.ext_iff]

/-- An owner without a latch gets one. -/
theorem register_of_free (h : l.isOwnerLatched intent.ownerName = false) (ready : Bool) :
    l.register intent.toRotationBinding ready =
      (true, l.put intent.ownerName (some (intent.toRotationBinding, ready))) := by
  rw [isOwnerLatched, Option.isSome_eq_false_iff, Option.isNone_iff_eq_none] at h
  simp only [register, RotationBinding.checked_of_intentOk intent.ok, h]

/-- A latch that is there is cleared. -/
theorem clear_of_isLatched (h : l.isLatched intent.toRotationBinding = true) :
    l.clear intent.toRotationBinding = (true, l.put intent.ownerName none) := by
  obtain ⟨ready, hl⟩ := isLatched_iff.1 h
  simp [clear, RotationBinding.checked_of_intentOk intent.ok, hl]

end Latches

end DecentWallet
