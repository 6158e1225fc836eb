/-
  RobotCar.Link.Lights — from the controller to the green LEDs, the longest way round: the
  report, the sketch, the wire, `decode`, `isMoving`, and the two green threads handing
  their token over (`Receiver.Main`).

  - `stays`: a silence that has come to rest stays at rest for as long as it lasts.
  - `lights_follow`: two turns of the green threads later, the LEDs chase exactly when the
    last report asks for the wheels to turn, and the wheels still do what it asks.
-/

import RobotCar.Link.Silence

namespace RobotCar.Link.System

open RobotCar.Lib
open Sender (Sample TPacket makeMovementPacket controlFunction)
open Pad (sample)
open Receiver (AtRest)
open Receiver.Led (lit GREEN_PINS)

/-- What a schedule is to the program of the robot. -/
def robotEvs (s : St) (fs : List Ev) : List Receiver.Main.Ev := system.log toMain.lab s fs

section Lights

variable {es fs gs : List Ev} {s t u : St}

/-! ## The silence goes on -/

theorem silent_trail (h : u ∈ system.trail s fs) (hpad : ∀ e, .pad e ∉ fs) : u.pad = s.pad := by
  obtain ⟨gs, hpre, hgs⟩ := Machine.exec_of_mem_trail h
  exact silent_pad hgs fun e he => hpad e (hpre.subset he)

/-- A call that sees the packet remembered says nothing. -/
theorem mute_made {q : TPacket} {x : Sample} (h : ∀ D, packet x D = some q) : Mute q (· = x) := by
  intro D seen out hsees hseen
  rw [Sender.call_still hsees hseen, controlFunction_eq, h D]
  simp

theorem Silence.mute (h : Silence es s fs t) (hconn : s.pad.is_active = true) (hsq : squareOf (lastReport es) = false) :
    Mute t.prevPacket (· = sample t.pad) := by
  have hpad : t.pad = s.pad := silent_pad h.exec h.quiet
  have hshown : (sample s.pad).isConnected = true := hconn
  obtain ⟨D, hmade⟩ := h.made hconn
  rw [hsq] at hmade
  refine mute_made ?_
  intro D'
  rw [hpad, packet, if_pos hshown, (sample_report h.run).2, hsq]
  exact congrArg some hmade

theorem stays (h : Silence es s fs t) (hconn : s.pad.is_active = true) (hsq : squareOf (lastReport es) = false)
    (hpad : ∀ e, .pad e ∉ gs) (hu : u ∈ system.trail t gs) : Undisturbed (· = sample t.pad) t u := by
  obtain ⟨hs, hpre, hexec⟩ := Machine.exec_of_mem_trail hu
  have hquiet : ∀ e, .pad e ∉ hs := fun e he => hpad e (hpre.subset he)
  refine undisturbed_run (h.mute hconn hsq) h.after h.line h.rest hexec ?_
  intro v hv
  exact congrArg sample (silent_trail hv hquiet)

/-! ## The lights -/

/-- At rest `isMoving` says whether the last report asks for the wheels to turn. -/
theorem Silence.moving (h : Silence es s fs t) (hconn : s.pad.is_active = true) (hsq : squareOf (lastReport es) = false) :
    t.robot.core.globals.isMoving = true ↔ askedOf (lastReport es) ≠ ⟨0, 0⟩ := by
  obtain ⟨hon, hoff⟩ := (h.rest.driven (core_run h.ends)).moving
  obtain ⟨hl, hr⟩ := Receiver.driven_regs (askedOf (lastReport es))
  rw [← h.regs hconn hsq] at hl hr
  constructor
  · intro hm hzero
    exact hl.mp (hon hm).1 (congrArg Receiver.Wheels.left hzero)
  · intro hne
    by_contra hm
    obtain ⟨hnl, hnr⟩ := hoff (by simpa using hm)
    exact hne (Receiver.Wheels.ext (not_not.mp (mt hl.mpr hnl)) (not_not.mp (mt hr.mpr hnr)))

theorem lights_follow (h : Silence es s fs t) (hconn : s.pad.is_active = true) (hsq : squareOf (lastReport es) = false)
    (hgs : system.execFrom t gs = some u) (hpad : ∀ e, .pad e ∉ gs)
    (hturns : 2 ≤ (Receiver.Main.greenTurns t.robot (robotEvs t gs)).length)
    (hidle : ∀ f, u.robot.led.green.busy f = 0) :
    u.robot.core.regs = (askedOf (lastReport es)).regs ∧
    (lit u.robot.led = GREEN_PINS ↔ askedOf (lastReport es) = ⟨0, 0⟩) ∧
    ((∃ p ∈ GREEN_PINS, lit u.robot.led = [p]) ↔ askedOf (lastReport es) ≠ ⟨0, 0⟩) := by
  obtain ⟨r, hrun, rfl⟩ := toMain.exec toMain.init h.ends
  obtain ⟨q, hexec, rfl⟩ := toMain.exec (a := t.robot) rfl hgs
  have hmoving : ∀ v ∈ Receiver.Main.main.trail t.robot (robotEvs t gs),
      v.core.globals.isMoving = t.robot.core.globals.isMoving := by
    intro v hv
    obtain ⟨w, hw, rfl⟩ := toMain.trail (a := t.robot) rfl hgs hv
    rw [(stays h hconn hsq hpad hw).core.globals]
  obtain ⟨hall, hone⟩ := Receiver.Main.lights_settle hrun hexec hmoving hturns hidle
  have hasked := h.moving hconn hsq
  refine ⟨?_, ?_, hone.trans hasked⟩
  · rw [(stays h hconn hsq hpad (Machine.end_mem_trail hgs)).core.regs, h.regs hconn hsq]
  · rw [hall, ← Bool.not_eq_true, hasked, not_not]

/-- The stick is ahead, the sketch calls again to no effect, and one green LED is lit. -/
theorem lights_follow_ahead :
    let t : St := (system.execFrom system.init (ahead ++ answered)).get rfl
    let gs : List Ev := List.flatten [List.replicate 10 (.loop 0), Receiver.Main.twoTurns.map .robot]
    let u : St := (system.execFrom t gs).get (by decide +kernel)
    (∃ p ∈ GREEN_PINS, lit u.robot.led = [p]) ↔ askedOf (lastReport ahead) ≠ ⟨0, 0⟩ := by
  intro t gs u
  have hgs : system.execFrom t gs = some u := (Option.some_get _).symm
  have hturns : 2 ≤ (Receiver.Main.greenTurns t.robot (robotEvs t gs)).length := by decide +kernel
  have hidle : ∀ f, u.robot.led.green.busy f = 0 := by
    intro f
    cases f <;> decide +kernel
  exact (lights_follow silence_ahead rfl (by decide +kernel) hgs (by simp [gs]) hturns hidle).2.2

end Lights

end RobotCar.Link.System
