/-
  RobotCar.Receiver.Duty — `motorControl` for every argument: the registers it leaves.

  - `regs_get`: in each state a register is the full duty, the inner side's or nothing,
    whatever the speed; so each is at most `PWM_MAX` (`regs_le`) and never falls as the
    speed rises (`regs_mono`).
  - `duty_safe` puts these together with what the clamp and the curves do.
-/

import RobotCar.Receiver.MotorControl

namespace RobotCar.Receiver

open RobotCar.Lib

/-! ## The registers -/

theorem duty_mono {speed faster : Int} (h : speed ≤ faster) : duty speed ≤ duty faster := by
  unfold duty
  omega

theorem innerDuty_mono (turnBits : BitVec 8) {full more : Nat} (h : full ≤ more) :
    innerDuty turnBits full ≤ innerDuty turnBits more := by
  unfold innerDuty
  split <;> omega

/-- The inner side of a curve has at least half the duty, rounded down, and at most all of it. -/
theorem innerDuty_range (turnBits : BitVec 8) (full : Nat) :
    full / 2 ≤ innerDuty turnBits full ∧ innerDuty turnBits full ≤ full := by
  unfold innerDuty
  split <;> omega

/-- In each state a register holds the full duty, the inner side's or nothing, at every speed. -/
theorem regs_get (state : Int) (reg : Reg) :
    (∀ full inner, (wheels state full inner).regs.get reg = full) ∨
    (∀ full inner, (wheels state full inner).regs.get reg = inner) ∨
      ∀ full inner, (wheels state full inner).regs.get reg = 0 := by
  cases drive_cases state with
  | off h =>
    refine .inr (.inr ?_)
    intro full inner
    rw [wheels_off _ _ h]
    cases reg <;> rfl
  | _ => cases reg <;> simp [Wheels.regs, Regs.get]

/-- In a drive state that moves some channel carries the full duty. -/
theorem full_channel {state : Int} (h : 0 ≤ state ∧ state ≤ 7) :
    ∃ reg, ∀ full inner, (wheels state full inner).regs.get reg = full := by
  cases drive_cases state with
  | off hoff => omega
  | forward => exact ⟨.TPM1_C1V, by simp [Wheels.regs, Regs.get]⟩
  | rightTurnOnSpot => exact ⟨.TPM1_C1V, by simp [Wheels.regs, Regs.get]⟩
  | reverse => exact ⟨.TPM1_C0V, by simp [Wheels.regs, Regs.get]⟩
  | leftTurnOnSpot => exact ⟨.TPM1_C0V, by simp [Wheels.regs, Regs.get]⟩
  | rightTurnForward => exact ⟨.TPM1_C1V, by simp [Wheels.regs, Regs.get]⟩
  | leftTurnForward => exact ⟨.TPM2_C1V, by simp [Wheels.regs, Regs.get]⟩
  | rightTurnReverse => exact ⟨.TPM1_C0V, by simp [Wheels.regs, Regs.get]⟩
  | leftTurnReverse => exact ⟨.TPM2_C0V, by simp [Wheels.regs, Regs.get]⟩

section Registers

variable (state : Int) (turnBits : BitVec 8) (r : Regs)

theorem regs_le (speed : Int) (reg : Reg) : ((motorControl state speed turnBits r).get reg : Int) ≤ PWM_MAX := by
  have hfull := duty_le speed
  have hinner := (innerDuty_range turnBits (duty speed)).2
  unfold PWM_MAX
  rw [motorControl_eq]
  rcases regs_get state reg with h | h | h
  · rw [h]
    omega
  · rw [h]
    omega
  · rw [h]
    omega

theorem regs_mono {speed faster : Int} (hs : speed ≤ faster) (reg : Reg) :
    (motorControl state speed turnBits r).get reg ≤ (motorControl state faster turnBits r).get reg := by
  rw [motorControl_eq, motorControl_eq]
  rcases regs_get state reg with h | h | h
  · rw [h, h]
    exact duty_mono hs
  · rw [h, h]
    exact innerDuty_mono turnBits (duty_mono hs)
  · rw [h, h]

theorem regs_zero {speed : Int} (hs : speed ≤ 0 ∨ state < 0 ∨ 7 < state) : motorControl state speed turnBits r = .zero := by
  rw [motorControl_eq]
  rcases hs with hs | hs
  · have hfull : duty speed = 0 := by
      unfold duty
      omega
    have hinner : innerDuty turnBits 0 = 0 := by
      unfold innerDuty
      split <;> rfl
    rw [hfull, hinner]
    cases drive_cases state with
    | off h =>
      rw [wheels_off _ _ h]
      rfl
    | _ => rfl
  · rw [wheels_off _ _ hs]
    rfl

/-- Outside 0..100 the speed is as good as the end of the range it is beyond. -/
theorem regs_clamped {speed other : Int} (h : (speed ≤ 0 ∧ other ≤ 0) ∨ (100 ≤ speed ∧ 100 ≤ other)) :
    motorControl state other turnBits r = motorControl state speed turnBits r := by
  have hduty : duty other = duty speed := by
    unfold duty
    omega
  rw [motorControl_eq, motorControl_eq, hduty]

end Registers

/-! ## Curves -/

/-- A curve's state, the channel of its inner side and that of its outer side. -/
def curves : List (Int × Reg × Reg) :=
  [(rightTurnForward, .TPM2_C1V, .TPM1_C1V), (leftTurnForward, .TPM1_C1V, .TPM2_C1V),
    (rightTurnReverse, .TPM2_C0V, .TPM1_C0V), (leftTurnReverse, .TPM1_C0V, .TPM2_C0V)]

theorem curve_regs {state : Int} {inner outer : Reg} (h : (state, inner, outer) ∈ curves) (full half : Nat) :
    (wheels state full half).regs.get outer = full ∧ (wheels state full half).regs.get inner = half ∧
      ∀ reg, reg ≠ inner → reg ≠ outer → (wheels state full half).regs.get reg = 0 := by
  simp only [curves, List.mem_cons, List.not_mem_nil, or_false, Prod.mk.injEq] at h
  rcases h with h | h | h | h
  all_goals
    obtain ⟨rfl, rfl, rfl⟩ := h
    refine ⟨by simp [Wheels.regs, Regs.get], by simp [Wheels.regs, Regs.get], ?_⟩
    intro reg hi ho
    cases reg <;> simp_all [Wheels.regs, Regs.get]

theorem duty_safe (state speed : Int32) (turnBits : BitVec 8) (r : Regs) :
    let out := fun (speed : Int32) r => motorControl state.toInt speed.toInt turnBits r
    (∀ reg, ((out speed r).get reg : Int) ≤ PWM_MAX) ∧
    (-2 ^ 31 ≤ (clampSpeed speed.toInt).toInt * PWM_MAX ∧ (clampSpeed speed.toInt).toInt * PWM_MAX < 2 ^ 31 ∧
      (dutyCycle speed.toInt).toInt = ((clampSpeed speed.toInt).toInt * PWM_MAX).tdiv 100) ∧
    (∀ r', out speed r' = out speed r) ∧
    (∀ faster, speed ≤ faster → ∀ reg, (out speed r).get reg ≤ (out faster r).get reg) ∧
    (∀ other, (speed ≤ 0 ∧ other ≤ 0) ∨ (100 ≤ speed ∧ 100 ≤ other) → out other r = out speed r) ∧
    (speed ≤ 0 ∨ state < 0 ∨ 7 < state → out speed r = .zero) ∧
    ∀ inner outer, (state.toInt, inner, outer) ∈ curves →
      ((out speed r).get outer : Int) = (dutyCycle speed.toInt).toInt ∧ (out speed r).get inner ≤ (out speed r).get outer ∧
      (out speed r).get outer / 2 ≤ (out speed r).get inner ∧
      ∀ reg, reg ≠ inner → reg ≠ outer → (out speed r).get reg = 0 := by
  intro out
  simp only [Int32.le_iff_toInt_le, Int32.lt_iff_toInt_lt]
  refine ⟨regs_le _ _ r _, dutyCycle_exact _, ?_, ?_, ?_, regs_zero _ _ r, ?_⟩
  · intro r'
    exact (motorControl_eq ..).trans (motorControl_eq ..).symm
  · intro faster hs
    exact regs_mono _ _ r hs
  · intro other h
    exact regs_clamped _ _ r h
  · intro inner outer h
    obtain ⟨houter, hinner, hrest⟩ := curve_regs h (duty speed.toInt) (innerDuty turnBits (duty speed.toInt))
    obtain ⟨hlow, hhigh⟩ := innerDuty_range turnBits (duty speed.toInt)
    simp only [out, motorControl_eq, houter, hinner, dutyCycle_toInt]
    exact ⟨trivial, hhigh, hlow, hrest⟩

/-- A left curve forward at speed 75, from registers left over from reverse: the left side
    gets no more than the right, and speeding up to 90 lowers nothing. -/
theorem duty_safe_curve :
    let curve := fun speed => motorControl leftTurnForward speed 2 ⟨4249, 0, 4249, 0⟩
    (curve 75).TPM1_C1V ≤ (curve 75).TPM2_C1V ∧ ∀ reg, (curve 75).get reg ≤ (curve 90).get reg := by
  intro curve
  obtain ⟨-, -, -, hmono, -, -, hcurve⟩ := duty_safe 5 75 2 ⟨4249, 0, 4249, 0⟩
  exact ⟨(hcurve .TPM1_C1V .TPM2_C1V (by decide)).2.1, hmono 90 (by decide)⟩

end RobotCar.Receiver
