/-
  RobotCar.Receiver.Indicator — `isMoving`, which the LED threads read, against the motors.
  `decode` sets it in four branches of its own; `motorControl` works from `state`, `speed`
  and `turnFactor` and never looks at it.

  - `Agree`: `isMoving` says that `state` is a drive state other than `brake`, and the
    speed is positive; the registers are those of the globals.
  - `indicator_agrees`: after any bytes, `isMoving` exactly when a side is driven, and then
    both are.
-/

import RobotCar.Receiver.MotorControl

namespace RobotCar.Receiver

open RobotCar.Lib

/-- One byte decoded and the motors set. -/
def dispatch (s : Globals × Regs) (raw_data : BitVec 8) : Globals × Regs :=
  let g := decode s.1 raw_data
  (g, motorControl g.state g.speed g.turnFactor s.2)

def Regs.leftDriven (r : Regs) : Prop := r.TPM1_C0V ≠ 0 ∨ r.TPM1_C1V ≠ 0

def Regs.rightDriven (r : Regs) : Prop := r.TPM2_C0V ≠ 0 ∨ r.TPM2_C1V ≠ 0

/-! ## Which sides a drive state drives -/

/-- A side is driven when its signed duty is not zero. -/
theorem driven_regs (w : Wheels) : (w.regs.leftDriven ↔ w.left ≠ 0) ∧ (w.regs.rightDriven ↔ w.right ≠ 0) := by
  simp only [Regs.leftDriven, Regs.rightDriven, Wheels.regs]
  omega

theorem wheels_on {state : Int} {full inner : Nat} (hs : 0 ≤ state ∧ state ≤ 7) (hf : 0 < full) (hi : 0 < inner) :
    (wheels state full inner).left ≠ 0 ∧ (wheels state full inner).right ≠ 0 := by
  cases drive_cases state with
  | off h => omega
  | _ =>
    simp
    omega

/-! ## The globals agree with themselves -/

structure Agree (g : Globals) : Prop where
  state : 0 ≤ g.state ∧ g.state ≤ 8
  speed : 0 < g.speed
  isMoving : g.isMoving = true ↔ g.state ≠ brake

theorem init_agree : Agree .init := ⟨by decide, by decide, by decide⟩

theorem decode_agree {g : Globals} (h : Agree g) (b : BitVec 8) : Agree (decode g b) := by
  by_cases h0 : (fields b).OP = 0b00
  · rw [decode_movement h0]
    refine ⟨drive_range _, ?_, decide_eq_true_iff⟩
    show 0 < if (fields b).B ≠ 0 then (85 : Int) else 100
    split <;> decide
  by_cases h2 : (fields b).OP = 0b10
  · rw [decode_audio h2]
    exact ⟨h.state, h.speed, h.isMoving⟩
  · rw [decode_other h0 h2]
    exact h

/-! ## Any bytes -/

/-- What `motorControl` makes of the globals. -/
def Globals.wheels (g : Globals) : Wheels := Receiver.wheels g.state (duty g.speed) (innerDuty g.turnFactor (duty g.speed))

structure Driven (s : Globals × Regs) : Prop where
  agree : Agree s.1
  regs : s.2 = s.1.wheels.regs

theorem dispatch_driven {s : Globals × Regs} (h : Driven s) (b : BitVec 8) : Driven (dispatch s b) :=
  ⟨decode_agree h.agree b, motorControl_eq _ _ _ _⟩

theorem bytes_driven {s : Globals × Regs} (h : Driven s) (bs : List (BitVec 8)) : Driven (bs.foldl dispatch s) := by
  induction bs generalizing s with
  | nil => exact h
  | cons b bs ih => exact ih (dispatch_driven h b)

theorem Driven.moving {s : Globals × Regs} (h : Driven s) :
    (s.1.isMoving = true → s.2.leftDriven ∧ s.2.rightDriven) ∧
    (s.1.isMoving = false → ¬ s.2.leftDriven ∧ ¬ s.2.rightDriven) := by
  obtain ⟨hl, hr⟩ := driven_regs s.1.wheels
  rw [h.regs, hl, hr]
  constructor
  · intro hm
    have hne := h.agree.isMoving.mp hm
    have hs := h.agree.state
    refine wheels_on ⟨hs.1, ?_⟩ (duty_pos.mpr h.agree.speed) ((innerDuty_pos _).mpr h.agree.speed)
    simp only [brake] at hne
    omega
  · intro hm
    have hbrake : s.1.state = brake := by
      by_contra hne
      simp [h.agree.isMoving.mpr hne] at hm
    rw [Globals.wheels, hbrake, wheels_brake]
    exact ⟨fun h0 => h0 rfl, fun h0 => h0 rfl⟩

/-- The robot after a list of bytes, from reset. -/
def afterBytes (bs : List (BitVec 8)) : Globals × Regs := bs.foldl dispatch (.init, .zero)

theorem indicator_agrees (bs : List (BitVec 8)) :
    ((afterBytes bs).1.isMoving = true ↔ (afterBytes bs).2.leftDriven ∨ (afterBytes bs).2.rightDriven) ∧
    ((afterBytes bs).1.isMoving = true ↔ (afterBytes bs).1.state ≠ brake) ∧
    ((afterBytes bs).1.isMoving = true → (afterBytes bs).2.leftDriven ∧ (afterBytes bs).2.rightDriven) := by
  have hs : Driven (afterBytes bs) := bytes_driven ⟨init_agree, rfl⟩ bs
  obtain ⟨hon, hoff⟩ := hs.moving
  refine ⟨⟨fun hm => .inl (hon hm).1, ?_⟩, hs.agree.isMoving, hon⟩
  intro hd
  by_contra hm
  obtain ⟨hl, hr⟩ := hoff (by simpa using hm)
  exact hd.elim hl hr

end RobotCar.Receiver
