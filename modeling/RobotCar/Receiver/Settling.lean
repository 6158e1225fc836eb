/-
  RobotCar.Receiver.Settling — the robot left alone. With no byte arriving, the two threads
  run down: each of their steps lowers a rank, and where neither can move both wait with
  nothing to take.

  - `AtRest.driven`: at rest the motor registers are those of the globals, and `isMoving` says
    whether the wheels are driven.
  - `settles`: after the last byte at most 58 steps of the threads are left, whichever moves
    when, and with none left the robot is at rest.
-/

import RobotCar.Lib.Rank
import RobotCar.Receiver.Indicator
import RobotCar.Receiver.Motors

namespace RobotCar.Receiver

open RobotCar.Lib

/-! ## The motors at rest -/

/-- Both threads of the core wait, and there is nothing to take. -/
structure AtRest (s : St) : Prop where
  serialFlag : s.serialFlag = some .empty
  motorFlag : s.motorFlag = some .empty
  serial : s.serial.outside = true
  motor : s.motor.outside = true

section Rest

variable {es : List Ev} {s : St}

theorem AtRest.idle (h : AtRest s) : s.serial ≠ .call ∧ s.serial.idle = true ∧ s.serial.decoding = false := by
  have ho := h.serial
  cases hpc : s.serial with
  | call => simp [hpc, SerialPc.outside] at ho
  | decode b ws => simp [hpc, SerialPc.outside] at ho
  | acquire => exact ⟨by decide, rfl, rfl⟩
  | delay => exact ⟨by decide, rfl, rfl⟩

theorem AtRest.regs (h : AtRest s) (hrun : robot.Run es s) : s.regs = s.globals.motors := by
  have hfollow := motor_inv ⟨es, hrun⟩ (by simp [h.motorFlag, Semaphore.full, Semaphore.empty]) h.idle.2.2
  exact hfollow.regs_eq h.motor

theorem agree_bytes (bs : List (BitVec 8)) : Agree (bs.foldl decode .init) := by
  suffices ∀ g, Agree g → Agree (bs.foldl decode g) from this _ init_agree
  induction bs with
  | nil => exact fun _ h => h
  | cons b bs ih => exact fun g h => ih _ (decode_agree h b)

theorem AtRest.driven (h : AtRest s) (hrun : robot.Run es s) : Driven (s.globals, s.regs) := by
  refine ⟨?_, ?_⟩
  · show Agree s.globals
    rw [globals_eq hrun h.idle.2.1]
    exact agree_bytes _
  · show s.regs = s.globals.wheels.regs
    rw [h.regs hrun]
    exact motorControl_eq _ _ _ _

end Rest

/-- What a step with no byte leaves of a robot at rest. -/
structure Kept (s t : St) : Prop where
  rest : AtRest t
  globals : t.globals = s.globals
  regs : t.regs = s.regs

theorem AtRest.step {s t : St} {e : Ev} (h : AtRest s) (he : Step s e t) (hno : ∀ D, e ≠ .irq (some D)) : Kept s t := by
  obtain ⟨hs, hm, hserial, hmotor⟩ := h
  cases he with
  | byte D => exact absurd rfl (hno D)
  | noByte => exact ⟨⟨hs, hm, hserial, hmotor⟩, rfl, rfl⟩
  | boot hn _ => simp [hn] at hs
  | serialAcquire _ hf =>
    rw [hf] at hs
    cases hs
  | serialCall hpc => simp [hpc, SerialPc.outside] at hserial
  | store b w ws hpc => simp [hpc, SerialPc.outside] at hserial
  | notify b hpc => simp [hpc, SerialPc.outside] at hserial
  | serialWake _ => exact ⟨⟨hs, hm, rfl, hmotor⟩, rfl, rfl⟩
  | motorAcquire _ hf =>
    rw [hf] at hm
    cases hm
  | motorCall x y z hpc => simp [hpc, MotorPc.outside] at hmotor
  | write w ws hpc => simp [hpc, MotorPc.outside] at hmotor
  | motorReturn _ => exact ⟨⟨hs, hm, hserial, rfl⟩, rfl, rfl⟩
  | motorWake _ => exact ⟨⟨hs, hm, hserial, rfl⟩, rfl, rfl⟩
  | readState y z hpc => simp [hpc, MotorPc.outside] at hmotor
  | readSpeed x z hpc => simp [hpc, MotorPc.outside] at hmotor
  | readTurnFactor x y hpc => simp [hpc, MotorPc.outside] at hmotor

/-! ## What is left to do -/

/-- The steps a token in `motorFlag` calls for. -/
def motorFlagCost (f : Handle) : Nat := if f = some .full then 11 else 0

def MotorPc.cost : MotorPc → Nat
  | .acquire => 0
  | .args state speed turnFactor => state.isNone.toNat + speed.isNone.toNat + turnFactor.isNone.toNat + 7
  | .control ws => ws.length + 2
  | .delay => 1

/-- The steps a token in `serialFlag` calls for, and one more for the semaphore to exist. -/
def serialFlagCost : Handle → Nat
  | none => 20
  | some f => if f = .full then 19 else 0

/-- Its release of `motorFlag` may call for a pass of `motorThread`. -/
def SerialPc.cost : SerialPc → Nat
  | .acquire => 0
  | .call => 18
  | .decode _ ws => ws.length + 13
  | .delay => 1

def cost (s : St) : Nat := serialFlagCost s.serialFlag + s.serial.cost + (motorFlagCost s.motorFlag + s.motor.cost)

/-- The steps that are not the interrupt's. -/
def threads : Ev → Bool
  | .irq _ => false
  | _ => true

theorem decodeStores_length (b : BitVec 8) : (decodeStores b).length ≤ 4 := by
  revert b
  decide +kernel

theorem motorStores_length (x y : Int) (z : BitVec 8) : (motorStores x y z).length = 4 := by
  rw [motorStores_eq]
  rfl

theorem motorFlagCost_le (f : Handle) : motorFlagCost f ≤ 11 := by
  unfold motorFlagCost
  split <;> omega

@[simp] theorem motorFlagCost_empty : motorFlagCost (some .empty) = 0 := rfl
@[simp] theorem motorFlagCost_full : motorFlagCost (some .full) = 11 := rfl
@[simp] theorem serialFlagCost_none : serialFlagCost none = 20 := rfl
@[simp] theorem serialFlagCost_empty : serialFlagCost (some .empty) = 0 := rfl
@[simp] theorem serialFlagCost_full : serialFlagCost (some .full) = 19 := rfl

section Step

variable {s t : St} {e : Ev}

theorem step_cost (h : Step s e t) (he : threads e = true) : cost t < cost s := by
  cases h with
  | byte D => cases he
  | noByte => cases he
  | boot hs hm =>
    simp only [cost, hs, hm, serialFlagCost_none, serialFlagCost_full, motorFlagCost_empty]
    omega
  | serialAcquire hpc hf => simp [cost, hpc, hf, SerialPc.cost]
  | serialCall hpc =>
    have hlen := decodeStores_length s.received_byte
    simp only [cost, hpc, SerialPc.cost]
    omega
  | store b w ws hpc =>
    simp only [cost, hpc, SerialPc.cost, List.length_cons]
    omega
  | notify b hpc =>
    have hle := motorFlagCost_le (osSemaphoreRelease s.motorFlag)
    simp only [cost, hpc, SerialPc.cost, List.length_nil]
    omega
  | serialWake hpc =>
    simp only [cost, hpc, SerialPc.cost]
    omega
  | motorAcquire hpc hf => simp [cost, hpc, hf, MotorPc.cost]
  | motorCall x y z hpc =>
    have hlen := motorStores_length x y z
    simp only [cost, hpc, MotorPc.cost, Option.isNone_some, Bool.toNat_false]
    omega
  | write w ws hpc =>
    simp only [cost, hpc, MotorPc.cost, List.length_cons]
    omega
  | motorReturn hpc =>
    simp only [cost, hpc, MotorPc.cost, List.length_nil]
    omega
  | motorWake hpc =>
    simp only [cost, hpc, MotorPc.cost]
    omega
  | readState y z hpc => simp [cost, hpc, MotorPc.cost]
  | readSpeed x z hpc => simp [cost, hpc, MotorPc.cost]
  | readTurnFactor x y hpc => simp [cost, hpc, MotorPc.cost]

theorem still_rest (hb : Booted s) (h : ∀ e, threads e = true → step s e = none) : AtRest s := by
  have hserial : serialThread s = none := h .serialThread rfl
  have hmotor : motorThread s = none := h .motorThread rfl
  have hboot : s.serialFlag ≠ none := by
    intro hn
    have hinit : Init_RTOX s = none := h .Init_RTOX rfl
    simp [Init_RTOX, hn, hb.together.mp hn] at hinit
  obtain ⟨f, hf⟩ := Option.ne_none_iff_exists'.mp hboot
  obtain ⟨g, hg⟩ := Option.ne_none_iff_exists'.mp fun hn => hboot (hb.together.mpr hn)
  have hs : s.serial = .acquire ∧ s.serialFlag = some .empty := by
    unfold serialThread at hserial
    split at hserial
    · rename_i hpc
      refine ⟨hpc, ?_⟩
      rcases f.binary with rfl | rfl
      · exact hf
      · rw [hf] at hserial
        cases hserial
    all_goals cases hserial
  have hm : s.motor = .acquire ∧ s.motorFlag = some .empty := by
    unfold motorThread at hmotor
    split at hmotor
    · rename_i hpc
      refine ⟨hpc, ?_⟩
      rcases g.binary with rfl | rfl
      · exact hg
      · rw [hg] at hmotor
        cases hmotor
    · cases hmotor
    · -- some argument is not read yet
      rename_i x y z hmiss hpc
      exfalso
      cases x with
      | none =>
        have harg : readArg s .state = none := h (.arg .state) rfl
        simp [readArg, hpc] at harg
      | some x =>
        cases y with
        | none =>
          have harg : readArg s .speed = none := h (.arg .speed) rfl
          simp [readArg, hpc] at harg
        | some y =>
          cases z with
          | none =>
            have harg : readArg s .turnFactor = none := h (.arg .turnFactor) rfl
            simp [readArg, hpc] at harg
          | some z => exact hmiss x y z rfl rfl rfl
    all_goals cases hmotor
  exact ⟨hs.2, hm.2, by rw [hs.1]; rfl, by rw [hm.1]; rfl⟩

end Step

def running : Ranking robot where
  moves := threads
  idle e := e == .irq none
  inv := Booted
  rank := cost
  keep hb _ h := step_booted (step_cases h) hb
  down _ he h := step_cost (step_cases h) he
  stay := by
    intro s e t _ he h
    cases eq_of_beq he
    cases h
    exact Nat.le_refl _

/-- The stores and writes of a call still to come are some of its own. -/
structure Short (s : St) : Prop where
  serial : ∀ b ws, s.serial = .decode b ws → ws.length ≤ 4
  motor : ∀ ws, s.motor = .control ws → ws.length ≤ 4

theorem init_short : Short init where
  serial _ _ h := by cases h
  motor _ h := by cases h

theorem step_short {s t : St} {e : Ev} (h : Step s e t) (hi : Short s) : Short t := by
  obtain ⟨hs, hm⟩ := hi
  cases h with
  | serialCall hpc =>
    refine ⟨?_, hm⟩
    intro b ws hd
    cases hd
    exact decodeStores_length _
  | store b w ws hpc =>
    refine ⟨?_, hm⟩
    intro b' ws' hd
    cases hd
    exact Nat.le_of_succ_le (hs b _ hpc)
  | motorCall x y z hpc =>
    refine ⟨hs, ?_⟩
    intro ws hc
    cases hc
    exact Nat.le_of_eq (motorStores_length x y z)
  | write w ws hpc =>
    refine ⟨hs, ?_⟩
    intro ws' hc
    cases hc
    exact Nat.le_of_succ_le (hm _ hpc)
  | byte D => exact ⟨hs, hm⟩
  | noByte => exact ⟨hs, hm⟩
  | boot _ _ => exact ⟨hs, hm⟩
  | serialAcquire _ _ => exact ⟨nofun, hm⟩
  | notify b _ => exact ⟨nofun, hm⟩
  | serialWake _ => exact ⟨nofun, hm⟩
  | _ => exact ⟨hs, nofun⟩

theorem cost_le {s : St} (h : robot.Reach s) : cost s ≤ 58 := by
  have hshort : Short s := Machine.invariant init_short (fun _ _ _ hi he => step_short (step_cases he) hi) h
  have hmotor : s.motor.cost ≤ 10 := by
    cases hpc : s.motor with
    | acquire => exact Nat.zero_le _
    | args x y z =>
      have hx := x.isNone.toNat_le
      have hy := y.isNone.toNat_le
      have hz := z.isNone.toNat_le
      simp only [MotorPc.cost]
      omega
    | control ws => exact Nat.le_trans (Nat.add_le_add_right (hshort.motor ws hpc) 2) (by decide)
    | delay => exact (by decide : 1 ≤ 10)
  have hflag := motorFlagCost_le s.motorFlag
  have hserial : serialFlagCost s.serialFlag + s.serial.cost ≤ 37 := by
    cases hf : s.serialFlag with
    | none =>
      rw [(booted h).serial hf]
      decide
    | some f =>
      have htoken : serialFlagCost (some f) ≤ 19 := by
        rcases f.binary with rfl | rfl <;> decide
      have hpc : s.serial.cost ≤ 18 := by
        cases hpc : s.serial with
        | decode b ws => exact Nat.le_trans (Nat.add_le_add_right (hshort.serial b ws hpc) 13) (by decide)
        | _ => decide
      omega
  unfold cost
  omega

theorem settles {es fs : List Ev} {s t : St} (hs : robot.Run es s) (h : robot.execFrom s fs = some t)
    (hno : ∀ D, .irq (some D) ∉ fs) :
    fs.countP threads ≤ 58 ∧ ((∀ e, threads e = true → robot.step t e = none) → AtRest t) := by
  have hb := booted ⟨es, hs⟩
  have hbound := running.bounded hb h ?_
  · have hle := cost_le ⟨es, hs⟩
    change fs.countP threads + cost t ≤ cost s at hbound
    refine ⟨by omega, ?_⟩
    have ht : robot.Reach t := ⟨es ++ fs, hs.append h⟩
    exact still_rest (booted ht)
  · intro e he
    cases e with
    | irq D =>
      cases D with
      | none => exact .inr rfl
      | some D => exact absurd he (hno D)
    | _ => exact .inl rfl

/-- What is left to do when a byte arrives before the semaphores exist. -/
def lastSteps : List Ev :=
  List.flatten [[.Init_RTOX], List.replicate 8 .serialThread,
    [.motorThread, .arg .state, .arg .speed, .arg .turnFactor], List.replicate 7 .motorThread]

theorem settles_early : AtRest ((robot.execFrom (UART2_IRQHandler init (some 0x20)) lastSteps).get rfl) := by
  have hs : robot.Run [.irq (some 0x20)] (UART2_IRQHandler init (some 0x20)) := rfl
  refine (settles hs (Option.some_get (h := rfl)).symm ?_).2 ?_
  · simp [lastSteps]
  · intro e he
    cases e with
    | irq D => cases he
    | arg a => cases a <;> rfl
    | _ => rfl

end RobotCar.Receiver
