/-
  RobotCar.Link.Boost — the right trigger. Past half way the sender sets the packet's boost
  bit; the receiver reads the bit as speed 85, a clear bit as 100.

  - `moving_channel`: on a sample that moves some channel carries the full duty.
  - `boost_iff`: so pulling the trigger further slows the robot exactly when it passes half
    way on a sample that moves at all.
-/

import RobotCar.Link.Drive
import RobotCar.Receiver.Duty

namespace RobotCar.Link

open RobotCar.Sender RobotCar.Receiver

/-! ## A moving sample drives some channel at the full duty -/

/-- On a sample that moves, whichever way the trigger stands. -/
theorem moving_channel {s : Sample} (h : ¬ centred s) : ∃ reg, ∀ full inner, (wheels (TPacket.drive
    ⟨turnBits s.RStickX s.RStickY, 0, if s.LStickY.toInt ≤ -10 then 1 else 0, if 10 ≤ s.LStickY.toInt then 1 else 0, 0⟩)
    full inner).regs.get reg = full := by
  apply full_channel
  apply drive_moves
  by_cases hf : 10 ≤ s.LStickY.toInt
  · exact .inl (by simp [hf])
  by_cases hb : s.LStickY.toInt ≤ -10
  · exact .inr (.inl (by simp [hb]))
  · have ht : ¬ (s.RStickX.toInt.natAbs < 10 ∧ s.RStickY.toInt.natAbs < 10) := by
      intro hr
      exact h ⟨by omega, hr.1, hr.2⟩
    obtain ⟨a, ha, hA⟩ := turnBits_turn ht
    have hne := (turn_code a ha (decide (10 ≤ s.RStickX.toInt))).1
    simp only [decide_eq_true_eq] at hne
    exact .inr (.inr (by rw [hA]; exact hne))

/-! ## The trigger -/

/-- The same sample with the trigger somewhere else. -/
def pull (s : Sample) (R2Value : UInt8) : Sample := { s with R2Value := R2Value }

theorem asked_pull {s : Sample} {R2Value : UInt8} (h : fullDuty (pull s R2Value) = fullDuty s) :
    asked (pull s R2Value) = asked s := by
  unfold asked curve spot
  rw [h]
  rfl

theorem boost_iff {s : Sample} {R2Value : UInt8} (h : s.R2Value ≤ R2Value) (g g' : Globals) (r r' : Regs) :
    (∀ reg, (drive s g r).get reg ≤ (drive (pull s R2Value) g' r').get reg) ↔
      s.R1 = true ∨ centred s ∨ 128 ≤ s.R2Value ∨ R2Value < 128 := by
  constructor
  · intro hle
    by_contra hc
    simp only [not_or, Bool.not_eq_true, UInt8.not_le, UInt8.not_lt] at hc
    obtain ⟨hR1, hmove, hlow, hhigh⟩ := hc
    obtain ⟨reg, hreg⟩ := moving_channel hmove
    have hdrop := hle reg
    rw [drive_moving hR1 hmove, drive_moving (s := pull s R2Value) hR1 hmove] at hdrop
    have hfull : fullDuty s = 4999 := if_neg (UInt8.not_le.mpr hlow)
    have hslow : fullDuty (pull s R2Value) = 4249 := if_pos hhigh
    rw [hfull, hslow, hreg] at hdrop
    exact absurd (hdrop.trans_eq (hreg _ _)) (by decide)
  · intro hcase reg
    suffices drive s g r = drive (pull s R2Value) g' r' by rw [this]
    rcases hcase with hR1 | hc | hhigh | hlow
    · rw [drive_stop (.inl hR1), drive_stop (s := pull s R2Value) (.inl hR1)]
    · rw [drive_stop (.inr hc), drive_stop (s := pull s R2Value) (.inr hc)]
    · have hfull : fullDuty (pull s R2Value) = fullDuty s :=
        (if_pos (UInt8.le_trans hhigh h)).trans (if_pos hhigh).symm
      rw [drive_eq, drive_eq, asked_pull hfull]
    · have hlow' : s.R2Value < 128 := UInt8.lt_of_le_of_lt h hlow
      have hfull : fullDuty (pull s R2Value) = fullDuty s :=
        (if_neg (UInt8.not_le.mpr hlow)).trans (if_neg (UInt8.not_le.mpr hlow')).symm
      rw [drive_eq, drive_eq, asked_pull hfull]

/-- Straight ahead, from 128 to 255: the same full boost. -/
theorem boost_iff_past_half : (drive ⟨true, 100, 0, 0, 128, false, false⟩ .init .zero).get .TPM1_C1V ≤
    (drive (pull ⟨true, 100, 0, 0, 128, false, false⟩ 255) .init .zero).get .TPM1_C1V :=
  (boost_iff (by decide) .init .init .zero .zero).mpr (by decide) .TPM1_C1V

/-- Straight ahead, from 0 to 255: 4999 becomes 4249. -/
theorem boost_slows : ¬ ∀ (s : Sample) (R2Value : UInt8), s.R2Value ≤ R2Value →
    ∀ (g g' : Globals) (r r' : Regs) (reg : Reg), (drive s g r).get reg ≤ (drive (pull s R2Value) g' r').get reg := by
  intro h
  have := h ⟨true, 100, 0, 0, 0, false, false⟩ 255 (by decide) .init .init .zero .zero .TPM1_C1V
  revert this
  rw [drive_eq, drive_eq]
  decide

end RobotCar.Link
