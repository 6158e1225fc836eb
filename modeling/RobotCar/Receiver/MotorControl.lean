/-
  RobotCar.Receiver.MotorControl — the four PWM duty registers (motorControl.h). A call is
  the register writes it makes, in the code's order; the duty is computed in the board's
  32-bit `int`, the turn factors 1.0 and 0.5 are exact rationals and the store drops the
  fraction.

  - `dutyCycle_exact`: the product of the clamped speed and `PWM_MAX` is far inside `int`.

  What the table is for: `Wheels`, a signed duty for each side, positive forward.
  - `motorControl_eq`: after a call the registers are those of `wheels`, whatever they
    were, each side's duty in its forward or its reverse channel.
  - `between_writes`: seen between any two writes of any sequence of calls, a side has at
    most one channel on, exactly when no call reverses a side the call before it drove
    forward. Every arm writes channel 0 before channel 1, so a reversal the other way
    round clears before it sets.
-/

import Mathlib.Data.List.Chain
import Mathlib.Data.Rat.Floor
import RobotCar.Receiver.Decode

namespace RobotCar.Receiver

open RobotCar.Lib

def PWM_MAX : Int := 4999

inductive Reg where
  | TPM1_C0V
  | TPM1_C1V
  | TPM2_C0V
  | TPM2_C1V
  deriving DecidableEq, Repr

structure Regs where
  TPM1_C0V : Nat
  TPM1_C1V : Nat
  TPM2_C0V : Nat
  TPM2_C1V : Nat
  deriving DecidableEq, Repr

def Regs.zero : Regs := ⟨0, 0, 0, 0⟩

def Regs.put (r : Regs) : Reg × Nat → Regs
  | (.TPM1_C0V, v) => { r with TPM1_C0V := v }
  | (.TPM1_C1V, v) => { r with TPM1_C1V := v }
  | (.TPM2_C0V, v) => { r with TPM2_C0V := v }
  | (.TPM2_C1V, v) => { r with TPM2_C1V := v }

def Regs.get (r : Regs) : Reg → Nat
  | .TPM1_C0V => r.TPM1_C0V
  | .TPM1_C1V => r.TPM1_C1V
  | .TPM2_C0V => r.TPM2_C0V
  | .TPM2_C1V => r.TPM2_C1V

def getTurnFactor (turnBits : BitVec 8) : ℚ :=
  match turnBits with
  | 0b00 => 1
  | 0b01 => 1 / 2
  | 0b10 => 1 / 2
  | 0b11 => 1 / 2
  | _ => 1

/-- `int` to the register's `uint32_t`. -/
def toReg (x : Int) : Nat := (x % 2 ^ 32).toNat

/-- `float` to the register's `uint32_t`: the fraction is dropped. -/
def floatToReg (q : ℚ) : Nat := toReg (q.num.tdiv q.den)

def clampSpeed (speed : Int) : Int32 :=
  let speed := if speed < 0 then 0 else speed
  let speed := if speed > 100 then 100 else speed
  Int32.ofInt speed

/-- `(speed * PWM_MAX) / 100`, wrapping round like any `int`. -/
def dutyCycle (speed : Int) : Int32 := clampSpeed speed * Int32.ofInt PWM_MAX / 100

/-- The writes of one call of `motorControl`. -/
def motorStores (state speed : Int) (turnBits : BitVec 8) : List (Reg × Nat) :=
  let dutyCycle : Int := (dutyCycle speed).toInt
  let turnFactor := getTurnFactor turnBits
  match state with
  | forward =>
    [(.TPM1_C0V, 0), (.TPM1_C1V, toReg dutyCycle), (.TPM2_C0V, 0), (.TPM2_C1V, toReg dutyCycle)]
  | rightTurnOnSpot =>
    [(.TPM1_C0V, 0), (.TPM1_C1V, toReg dutyCycle), (.TPM2_C0V, toReg dutyCycle), (.TPM2_C1V, 0)]
  | reverse =>
    [(.TPM1_C0V, toReg dutyCycle), (.TPM1_C1V, 0), (.TPM2_C0V, toReg dutyCycle), (.TPM2_C1V, 0)]
  | leftTurnOnSpot =>
    [(.TPM1_C0V, toReg dutyCycle), (.TPM1_C1V, 0), (.TPM2_C0V, 0), (.TPM2_C1V, toReg dutyCycle)]
  | rightTurnForward =>
    [(.TPM1_C0V, 0), (.TPM1_C1V, toReg dutyCycle), (.TPM2_C0V, 0), (.TPM2_C1V, floatToReg (dutyCycle * turnFactor))]
  | leftTurnForward =>
    [(.TPM1_C0V, 0), (.TPM1_C1V, floatToReg (dutyCycle * turnFactor)), (.TPM2_C0V, 0), (.TPM2_C1V, toReg dutyCycle)]
  | rightTurnReverse =>
    [(.TPM1_C0V, toReg dutyCycle), (.TPM1_C1V, 0), (.TPM2_C0V, floatToReg (dutyCycle * turnFactor)), (.TPM2_C1V, 0)]
  | leftTurnReverse =>
    [(.TPM1_C0V, floatToReg (dutyCycle * turnFactor)), (.TPM1_C1V, 0), (.TPM2_C0V, toReg dutyCycle), (.TPM2_C1V, 0)]
  | brake =>
    [(.TPM1_C0V, 0), (.TPM1_C1V, 0), (.TPM2_C0V, 0), (.TPM2_C1V, 0)]
  | _ =>
    [(.TPM1_C0V, 0), (.TPM1_C1V, 0), (.TPM2_C0V, 0), (.TPM2_C1V, 0)]

def motorControl (state speed : Int) (turnBits : BitVec 8) (r : Regs) : Regs :=
  Stores.after Regs.put r (motorStores state speed turnBits)

/-! ## Signed duties -/

/-- A side's duty, forward channel minus reverse channel. -/
def Regs.left (r : Regs) : Int := r.TPM1_C1V - r.TPM1_C0V
def Regs.right (r : Regs) : Int := r.TPM2_C1V - r.TPM2_C0V

@[ext] structure Wheels where
  left : Int
  right : Int
  deriving DecidableEq, Repr

/-- A duty in the channel of its direction, the other channel off. -/
def Wheels.regs (w : Wheels) : Regs := ⟨(-w.left).toNat, w.left.toNat, (-w.right).toNat, w.right.toNat⟩

@[simp] theorem Wheels.regs_left (w : Wheels) : w.regs.left = w.left := by
  simp only [regs, Regs.left]
  omega

@[simp] theorem Wheels.regs_right (w : Wheels) : w.regs.right = w.right := by
  simp only [regs, Regs.right]
  omega

/-- The table of drive states, from the full duty and the duty of a curve's inner side. -/
def wheels (state : Int) (full inner : Nat) : Wheels :=
  match state with
  | forward => ⟨full, full⟩
  | rightTurnOnSpot => ⟨full, -full⟩
  | reverse => ⟨-full, -full⟩
  | leftTurnOnSpot => ⟨-full, full⟩
  | rightTurnForward => ⟨full, inner⟩
  | leftTurnForward => ⟨inner, full⟩
  | rightTurnReverse => ⟨-full, -inner⟩
  | leftTurnReverse => ⟨-inner, -full⟩
  | _ => ⟨0, 0⟩

section Table

variable (f i : Nat)

@[simp] theorem wheels_forward : wheels forward f i = ⟨f, f⟩ := rfl
@[simp] theorem wheels_rightTurnOnSpot : wheels rightTurnOnSpot f i = ⟨f, -f⟩ := rfl
@[simp] theorem wheels_reverse : wheels reverse f i = ⟨-f, -f⟩ := rfl
@[simp] theorem wheels_leftTurnOnSpot : wheels leftTurnOnSpot f i = ⟨-f, f⟩ := rfl
@[simp] theorem wheels_rightTurnForward : wheels rightTurnForward f i = ⟨f, i⟩ := rfl
@[simp] theorem wheels_leftTurnForward : wheels leftTurnForward f i = ⟨i, f⟩ := rfl
@[simp] theorem wheels_rightTurnReverse : wheels rightTurnReverse f i = ⟨-f, -i⟩ := rfl
@[simp] theorem wheels_leftTurnReverse : wheels leftTurnReverse f i = ⟨-i, -f⟩ := rfl

/-- `brake`, and every value that is no drive state, stops both sides. -/
theorem wheels_off {state : Int} (h : state < 0 ∨ 7 < state) : wheels state f i = ⟨0, 0⟩ := by
  unfold wheels
  split <;> first | rfl | (simp at h)

@[simp] theorem wheels_brake : wheels brake f i = ⟨0, 0⟩ := rfl

end Table

def duty (speed : Int) : Nat := (min speed 100).toNat * 4999 / 100

/-- A curve's inner side gets half the duty, or all of it when the turn bits ask for no curve. -/
def innerDuty (turnBits : BitVec 8) (full : Nat) : Nat :=
  if turnBits = 1 ∨ turnBits = 2 ∨ turnBits = 3 then full / 2 else full

theorem clampSpeed_toInt (speed : Int) : (clampSpeed speed).toInt = (min speed 100).toNat := by
  have hclamp : (if (if speed < 0 then 0 else speed) > 100 then 100 else if speed < 0 then 0 else speed) =
      ((min speed 100).toNat : Int) := by
    split <;> split <;> omega
  simp only [clampSpeed, hclamp]
  exact Int32.toInt_ofInt_of_le (by omega) (by omega)

/-- The product does not overflow, so the wrapped quotient is the exact one. -/
theorem dutyCycle_exact (speed : Int) : -2 ^ 31 ≤ (clampSpeed speed).toInt * PWM_MAX ∧
    (clampSpeed speed).toInt * PWM_MAX < 2 ^ 31 ∧
    (dutyCycle speed).toInt = ((clampSpeed speed).toInt * PWM_MAX).tdiv 100 := by
  have hclamp := clampSpeed_toInt speed
  have hmax : (Int32.ofInt PWM_MAX).toInt = PWM_MAX := rfl
  have h100 : (100 : Int32).toInt = 100 := rfl
  have hprod : (clampSpeed speed * Int32.ofInt PWM_MAX).toInt = (clampSpeed speed).toInt * PWM_MAX := by
    rw [Int32.toInt_mul, hmax, Int.bmod_eq_of_le] <;> unfold PWM_MAX <;> omega
  refine ⟨by unfold PWM_MAX; omega, by unfold PWM_MAX; omega, ?_⟩
  rw [dutyCycle, Int32.toInt_div_of_ne_right _ _ (by decide), hprod, h100]

theorem dutyCycle_toInt (speed : Int) : (dutyCycle speed).toInt = duty speed := by
  obtain ⟨-, -, hexact⟩ := dutyCycle_exact speed
  rw [hexact, clampSpeed_toInt, Int.tdiv_eq_ediv_of_nonneg (by unfold PWM_MAX; omega)]
  unfold duty PWM_MAX
  omega

theorem duty_le (speed : Int) : duty speed ≤ 4999 := by
  unfold duty
  omega

theorem duty_pos {speed : Int} : 0 < duty speed ↔ 0 < speed := by
  unfold duty
  omega

/-- Half of any positive duty is positive. -/
theorem innerDuty_pos {speed : Int} (turnBits : BitVec 8) : 0 < innerDuty turnBits (duty speed) ↔ 0 < speed := by
  unfold innerDuty duty
  split <;> omega

theorem toReg_duty (speed : Int) : toReg (duty speed) = duty speed := by
  have := duty_le speed
  unfold toReg
  omega

theorem floatToReg_nonneg {q : ℚ} (h : 0 ≤ q) : floatToReg q = toReg ⌊q⌋ := by
  rw [floatToReg, Rat.floor_def', Int.tdiv_eq_ediv_of_nonneg (Rat.num_nonneg.mpr h)]

theorem floatToReg_inner (speed : Int) (turnBits : BitVec 8) :
    floatToReg (((duty speed : Int) : ℚ) * getTurnFactor turnBits) = innerDuty turnBits (duty speed) := by
  have hle := duty_le speed
  have hhalf : floatToReg (((duty speed : Int) : ℚ) * (1 / 2)) = duty speed / 2 := by
    rw [floatToReg_nonneg (by positivity), mul_one_div, show (2 : ℚ) = ((2 : Nat) : ℚ) by norm_num,
      Rat.floor_intCast_div_natCast]
    unfold toReg
    omega
  have hfull : floatToReg (((duty speed : Int) : ℚ) * 1) = duty speed := by
    rw [floatToReg_nonneg (by positivity), mul_one, Int.floor_intCast, toReg_duty]
  unfold getTurnFactor innerDuty
  split
  · exact hfull
  · exact hhalf
  · exact hhalf
  · exact hhalf
  · rename_i h1 h2 h3
    rw [if_neg (by tauto)]
    exact hfull

/-! ## A call writes its own registers, in order -/

def Regs.stores (t : Regs) : List (Reg × Nat) :=
  [(.TPM1_C0V, t.TPM1_C0V), (.TPM1_C1V, t.TPM1_C1V), (.TPM2_C0V, t.TPM2_C0V), (.TPM2_C1V, t.TPM2_C1V)]

@[simp] theorem after_stores (r t : Regs) : Stores.after Regs.put r t.stores = t := rfl

theorem motorStores_eq (state speed : Int) (turnBits : BitVec 8) : motorStores state speed turnBits =
    (wheels state (duty speed) (innerDuty turnBits (duty speed))).regs.stores := by
  unfold motorStores
  simp only [dutyCycle_toInt, toReg_duty, floatToReg_inner]
  split
  case h_10 h0 h1 h2 h3 h4 h5 h6 h7 h8 =>
    simp only [Int.ofNat_eq_natCast, imp_false] at h0 h1 h2 h3 h4 h5 h6 h7 h8
    have hoff : state < 0 ∨ 7 < state := by omega
    rw [wheels_off _ _ hoff]
    rfl
  all_goals simp [Regs.stores, Wheels.regs]

theorem motorControl_eq (state speed : Int) (turnBits : BitVec 8) (r : Regs) : motorControl state speed turnBits r =
    (wheels state (duty speed) (innerDuty turnBits (duty speed))).regs := by
  rw [motorControl, motorStores_eq, after_stores]

/-! ## Between two writes -/

structure Call where
  state : Int
  speed : Int
  turnBits : BitVec 8
  deriving DecidableEq, Repr

def Call.stores (c : Call) : List (Reg × Nat) := motorStores c.state c.speed c.turnBits

def Call.wheels (c : Call) : Wheels := Receiver.wheels c.state (duty c.speed) (innerDuty c.turnBits (duty c.speed))

/-- No side has both its channels on. -/
def OneChannel (r : Regs) : Prop := (r.TPM1_C0V = 0 ∨ r.TPM1_C1V = 0) ∧ (r.TPM2_C0V = 0 ∨ r.TPM2_C1V = 0)

instance (r : Regs) : Decidable (OneChannel r) := inferInstanceAs (Decidable (_ ∧ _))

def Call.leftForward (c : Call) : Prop :=
  0 < c.speed ∧ c.state ∈ [forward, rightTurnOnSpot, rightTurnForward, leftTurnForward]

def Call.leftReverse (c : Call) : Prop :=
  0 < c.speed ∧ c.state ∈ [reverse, leftTurnOnSpot, rightTurnReverse, leftTurnReverse]

def Call.rightForward (c : Call) : Prop :=
  0 < c.speed ∧ c.state ∈ [forward, leftTurnOnSpot, rightTurnForward, leftTurnForward]

def Call.rightReverse (c : Call) : Prop :=
  0 < c.speed ∧ c.state ∈ [reverse, rightTurnOnSpot, rightTurnReverse, leftTurnReverse]

/-- `b` drives in reverse a side that `a` drove forward. -/
def Call.Plugs (a b : Call) : Prop := (a.leftForward ∧ b.leftReverse) ∨ (a.rightForward ∧ b.rightReverse)

/-- The drive states that move, by name, and every other value. -/
inductive Drive : Int → Prop
  | forward : Drive forward
  | rightTurnOnSpot : Drive rightTurnOnSpot
  | reverse : Drive reverse
  | leftTurnOnSpot : Drive leftTurnOnSpot
  | rightTurnForward : Drive rightTurnForward
  | leftTurnForward : Drive leftTurnForward
  | rightTurnReverse : Drive rightTurnReverse
  | leftTurnReverse : Drive leftTurnReverse
  | off {state : Int} : state < 0 ∨ 7 < state → Drive state

theorem drive_cases (state : Int) : Drive state := by
  match state with
  | .negSucc n => exact .off (.inl (Int.negSucc_lt_zero n))
  | 0 => exact .forward
  | 1 => exact .rightTurnOnSpot
  | 2 => exact .reverse
  | 3 => exact .leftTurnOnSpot
  | 4 => exact .rightTurnForward
  | 5 => exact .leftTurnForward
  | 6 => exact .rightTurnReverse
  | 7 => exact .leftTurnReverse
  | .ofNat (n + 8) =>
    refine .off (.inr ?_)
    show (7 : Int) < ((n + 8 : Nat) : Int)
    omega

theorem off_ne {state : Int} (h : state < 0 ∨ 7 < state) : state ≠ forward ∧ state ≠ rightTurnOnSpot ∧
    state ≠ reverse ∧ state ≠ leftTurnOnSpot ∧ state ≠ rightTurnForward ∧ state ≠ leftTurnForward ∧
    state ≠ rightTurnReverse ∧ state ≠ leftTurnReverse := by
  simp only [forward, rightTurnOnSpot, reverse, leftTurnOnSpot, rightTurnForward, leftTurnForward, rightTurnReverse,
    leftTurnReverse]
  omega

section Signs

variable (c : Call)

/-- Which way each side turns is read off the drive state, as soon as the speed is positive. -/
theorem Call.signs : (0 < c.wheels.left ↔ c.leftForward) ∧ (c.wheels.left < 0 ↔ c.leftReverse) ∧
    (0 < c.wheels.right ↔ c.rightForward) ∧ (c.wheels.right < 0 ↔ c.rightReverse) := by
  obtain ⟨state, speed, turnBits⟩ := c
  have hd : 0 < duty speed ↔ 0 < speed := duty_pos
  have hi : 0 < innerDuty turnBits (duty speed) ↔ 0 < speed := innerDuty_pos turnBits
  unfold wheels leftForward leftReverse rightForward rightReverse
  cases drive_cases state with
  | off h =>
    obtain ⟨h0, h1, h2, h3, h4, h5, h6, h7⟩ := off_ne h
    simp [wheels_off _ _ h, h0, h1, h2, h3, h4, h5, h6, h7]
  | _ => simp [hd, hi]

theorem Call.stores_eq : c.stores = c.wheels.regs.stores := motorStores_eq _ _ _

end Signs

theorem Wheels.oneChannel (w : Wheels) : OneChannel w.regs := by
  simp only [OneChannel, Wheels.regs]
  omega

/-- A side with the new reverse duty and the old forward one has both channels on exactly
    when it is reversed while its channel 1 is on. -/
theorem half_written (old : Nat) (new : Int) : ((-new).toNat = 0 ∨ old = 0) ↔ ¬ (old ≠ 0 ∧ new < 0) := by
  omega

/-- The points of one call: channel 0 of a side is written while its channel 1 still holds
    the old duty. -/
theorem points_call (r : Regs) (w : Wheels) : (∀ u ∈ Stores.points Regs.put r w.regs.stores, OneChannel u) ↔
    OneChannel r ∧ ¬ (r.TPM1_C1V ≠ 0 ∧ w.left < 0) ∧ ¬ (r.TPM2_C1V ≠ 0 ∧ w.right < 0) := by
  obtain ⟨hleft, hright⟩ := w.oneChannel
  rw [← half_written, ← half_written]
  simp only [Regs.stores, Stores.points, Regs.put, List.mem_cons, List.not_mem_nil, or_false, forall_eq_or_imp, forall_eq,
    OneChannel]
  constructor
  · intro h
    obtain ⟨hr, ⟨hl, -⟩, -, ⟨-, hd⟩, -⟩ := h
    exact ⟨hr, hl, hd⟩
  · intro h
    obtain ⟨hr, hl, hd⟩ := h
    exact ⟨hr, ⟨hl, hr.2⟩, ⟨hleft, hr.2⟩, ⟨hleft, hd⟩, hleft, hright⟩

theorem points_step (a b : Call) :
    (∀ u ∈ Stores.points Regs.put a.wheels.regs b.stores, OneChannel u) ↔ ¬ a.Plugs b := by
  obtain ⟨hlf, -, hrf, -⟩ := a.signs
  obtain ⟨-, hlr, -, hrr⟩ := b.signs
  rw [b.stores_eq, points_call, Call.Plugs, ← hlf, ← hlr, ← hrf, ← hrr]
  rw [and_iff_right a.wheels.oneChannel]
  simp only [Wheels.regs]
  omega

theorem points_calls (a : Call) (calls : List Call) :
    (∀ u ∈ Stores.points Regs.put a.wheels.regs (calls.flatMap Call.stores), OneChannel u) ↔
      (a :: calls).IsChain fun a b => ¬ a.Plugs b := by
  induction calls generalizing a with
  | nil => simp [Stores.points, a.wheels.oneChannel]
  | cons b calls ih =>
    have hend : Stores.after Regs.put a.wheels.regs b.stores = b.wheels.regs := by rw [b.stores_eq, after_stores]
    rw [List.isChain_cons_cons, ← ih b, ← points_step a b, List.flatMap_cons]
    simp only [Stores.mem_points_append, hend]
    constructor
    · intro h
      exact ⟨fun u hu => h u (Or.inl hu), fun u hu => h u (Or.inr hu)⟩
    · intro h u hu
      rcases hu with hu | hu
      · exact h.1 u hu
      · exact h.2 u hu

/-- Between any two writes of a sequence of calls no side has both channels on, exactly
    when no call drives in reverse a side the call before it drove forward. -/
theorem between_writes (calls : List Call) :
    (∀ u ∈ Stores.points Regs.put .zero (calls.flatMap Call.stores), OneChannel u) ↔
      calls.IsChain fun a b => ¬ a.Plugs b := by
  cases calls with
  | nil => simp [Stores.points, Regs.zero, OneChannel]
  | cons a calls =>
    have hend : Stores.after Regs.put .zero a.stores = a.wheels.regs := by rw [a.stores_eq, after_stores]
    have hfirst : ∀ u ∈ Stores.points Regs.put .zero a.stores, OneChannel u := by
      rw [a.stores_eq, points_call]
      simp [Regs.zero, OneChannel]
    rw [← points_calls, List.flatMap_cons]
    simp only [Stores.mem_points_append, hend]
    constructor
    · intro h u hu
      exact h u (Or.inr hu)
    · intro h u hu
      rcases hu with hu | hu
      · exact hfirst u hu
      · exact h u hu

/-- Forward at full speed, then reverse: after the second call's first write the left side
    has both channels at full duty. -/
theorem forward_then_reverse : ¬ ∀ calls : List Call,
    ∀ u ∈ Stores.points Regs.put .zero (calls.flatMap Call.stores), OneChannel u := by
  intro h
  have := h [⟨forward, 100, 0⟩, ⟨reverse, 100, 0⟩] ⟨4999, 4999, 0, 4999⟩ (by decide)
  revert this
  decide

end RobotCar.Receiver
