/-
  RobotCar.Receiver.Motors — what the motor registers follow. `motorThread` reads the
  three globals one by one and may read them in the middle of a `decode`; `serialThread`
  releases `motorFlag` after each `decode`.

  - `motor_inv`: unless a token waits in `motorFlag` or `serialThread` is inside `decode`,
    every argument read, every register write still to come and the registers already
    written are those of the current globals.
  - `motors_settle`: so when both threads wait, the registers are what `motorControl`
    computes from the current globals, and the last byte decoded is the newest.
-/

import RobotCar.Receiver.Delivery

namespace RobotCar.Receiver

open RobotCar.Lib

/-! ## Arguments read one by one -/

def Globals.triple (g : Globals) : Int × Int × BitVec 8 := (g.state, g.speed, g.turnFactor)

/-- The arguments read so far are those of `g`. -/
def Globals.Gives (g : Globals) (x y : Option Int) (z : Option (BitVec 8)) : Prop :=
  (∀ a ∈ x, a = g.state) ∧ (∀ a ∈ y, a = g.speed) ∧ ∀ a ∈ z, a = g.turnFactor

section Gives

variable {g : Globals} {x y : Option Int} {z : Option (BitVec 8)}

theorem gives_none : g.Gives none none none := ⟨nofun, nofun, nofun⟩

theorem Globals.Gives.state (h : g.Gives x y z) : g.Gives (some g.state) y z :=
  ⟨fun _ ha => (Option.some.inj ha).symm, h.2⟩

theorem Globals.Gives.speed (h : g.Gives x y z) : g.Gives x (some g.speed) z :=
  ⟨h.1, fun _ ha => (Option.some.inj ha).symm, h.2.2⟩

theorem Globals.Gives.turnFactor (h : g.Gives x y z) : g.Gives x y (some g.turnFactor) :=
  ⟨h.1, h.2.1, fun _ ha => (Option.some.inj ha).symm⟩

theorem Globals.Gives.triple {a b : Int} {c : BitVec 8} (h : g.Gives (some a) (some b) (some c)) :
    (a, b, c) = g.triple := by
  obtain ⟨hx, hy, hz⟩ := h
  rw [hx a rfl, hy b rfl, hz c rfl]
  rfl

end Gives

/-! ## The invariant -/

/-- What `motorControl` makes of the globals. -/
def Globals.motors (g : Globals) : Regs := motorControl g.state g.speed g.turnFactor .zero

theorem motorControl_motors (g : Globals) (r : Regs) : motorControl g.state g.speed g.turnFactor r = g.motors := by
  rw [Globals.motors, motorControl_eq, motorControl_eq]

/-- The pass of `motorThread` under way, or its last one, follows `g`. -/
def MotorPc.Follows (g : Globals) (r : Regs) : MotorPc → Prop
  | .args x y z => g.Gives x y z
  | .control ws => Stores.after Regs.put r ws = g.motors
  | _ => r = g.motors

/-- Between its read of `received_byte` and its release of `motorFlag`. -/
def SerialPc.decoding : SerialPc → Bool
  | .decode _ _ => true
  | _ => false

def MotorInv (s : St) : Prop :=
  s.motorFlag ≠ some .full → s.serial.decoding = false → s.motor.Follows s.globals s.regs

theorem init_motor_inv : MotorInv init := by
  intro _ _
  show Regs.zero = Globals.init.motors
  decide

section Step

variable {s t : St} {e : Ev}

/-- `motorThread` moves on from `pc`; the globals stay. -/
theorem MotorInv.motor {pc : MotorPc} (hi : MotorInv s) (hpc : s.motor = pc) (hf : t.motorFlag = s.motorFlag)
    (hs : t.serial = s.serial) (h : pc.Follows s.globals s.regs → t.motor.Follows t.globals t.regs) : MotorInv t := by
  intro hm hd
  rw [hf] at hm
  rw [hs] at hd
  have hr := hi hm hd
  rw [hpc] at hr
  exact h hr

theorem step_motor_inv (hb : Booted s) (hi : MotorInv s) (h : Step s e t) : MotorInv t := by
  cases h with
  | byte D => exact hi
  | noByte => exact hi
  | boot hs hm =>
    intro _ hd
    exact hi (by simp [hm]) hd
  | serialAcquire hpc _ =>
    intro hm _
    exact hi hm (by rw [hpc]; rfl)
  | serialCall hpc =>
    intro _ hd
    cases hd
  | store b w ws hpc =>
    intro _ hd
    cases hd
  | notify b hpc =>
    -- the token just released calls for another pass
    intro hm _
    exact absurd (hb.notify_full hpc) hm
  | serialWake hpc =>
    intro hm _
    exact hi hm (by rw [hpc]; rfl)
  | motorAcquire _ _ =>
    intro _ _
    exact gives_none
  | motorCall x y z hpc =>
    refine hi.motor hpc rfl rfl ?_
    intro hr
    cases hr.triple
    exact motorControl_motors s.globals s.regs
  | write w ws hpc => exact hi.motor hpc rfl rfl fun hr => hr
  | motorReturn hpc => exact hi.motor hpc rfl rfl fun hr => hr
  | motorWake hpc => exact hi.motor hpc rfl rfl fun hr => hr
  | readState y z hpc => exact hi.motor hpc rfl rfl fun hr => hr.state
  | readSpeed x z hpc => exact hi.motor hpc rfl rfl fun hr => hr.speed
  | readTurnFactor x y hpc => exact hi.motor hpc rfl rfl fun hr => hr.turnFactor

end Step

theorem motor_inv {s : St} (h : robot.Reach s) : MotorInv s := by
  obtain ⟨es, hrun⟩ := h
  apply Machine.run_induction (P := fun _ s => MotorInv s) init_motor_inv _ hrun
  intro es s e t hrun hi he
  exact step_motor_inv (booted ⟨es, hrun⟩) hi (step_cases he)

/-! ## At rest -/

/-- Not between its acquire of `serialFlag` and its release of `motorFlag`. -/
def SerialPc.outside : SerialPc → Bool
  | .acquire => true
  | .delay => true
  | _ => false

/-- Not between its acquire of `motorFlag` and the end of `motorControl`. -/
def MotorPc.outside : MotorPc → Bool
  | .args _ _ _ => false
  | .control (_ :: _) => false
  | _ => true

theorem MotorPc.Follows.regs_eq {pc : MotorPc} {g : Globals} {r : Regs} (h : pc.Follows g r) (ho : pc.outside = true) :
    r = g.motors := by
  cases pc with
  | args x y z => cases ho
  | control ws =>
    cases ws with
    | nil => exact h
    | cons w ws => cases ho
  | acquire => exact h
  | delay => exact h

theorem motors_settle {es : List Ev} {s : St} (h : robot.Run es s) (hs : s.serialFlag = some .empty)
    (hm : s.motorFlag = some .empty) (hserial : s.serial.outside = true) (hmotor : s.motor.outside = true) :
    (decodeCalls es).getLast? = some s.received_byte ∧
      ∀ r, s.regs = motorControl s.globals.state s.globals.speed s.globals.turnFactor r := by
  have hcall : s.serial ≠ .call := by
    intro hc
    simp [hc, SerialPc.outside] at hserial
  have hdec : s.serial.decoding = false := by
    cases hpc : s.serial with
    | decode b ws => simp [hpc, SerialPc.outside] at hserial
    | _ => rfl
  refine ⟨last_decodeCall h hs hcall, ?_⟩
  intro r
  have hfollow := motor_inv ⟨es, h⟩ (by simp [hm, Semaphore.full, Semaphore.empty]) hdec
  rw [motorControl_motors]
  exact hfollow.regs_eq hmotor

/-- The startup pass, then a forward byte and the pass it triggers: full duty ahead. -/
def forwardRun : List Ev :=
  List.flatten [[.Init_RTOX], List.replicate 7 .serialThread,
    [.motorThread, .arg .state, .arg .speed, .arg .turnFactor], List.replicate 7 .motorThread,
    [.irq (some 0x20)], List.replicate 8 .serialThread,
    [.motorThread, .arg .turnFactor, .arg .state, .arg .speed], List.replicate 5 .motorThread]

theorem motors_settle_forward : (decodeCalls forwardRun).getLast? = some 0x20 ∧
    (⟨0, 4999, 0, 4999⟩ : Regs) = motorControl forward 100 0 .zero := by
  have h : robot.Run forwardRun
    ⟨1, 0x20, ⟨false, true, forward, 100, 0⟩, ⟨0, 4999, 0, 4999⟩, some .empty, some .empty, .delay, .control []⟩ := by
    decide
  obtain ⟨hlast, hregs⟩ := motors_settle h rfl rfl rfl rfl
  exact ⟨hlast, hregs .zero⟩

end RobotCar.Receiver
