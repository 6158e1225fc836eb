/-
  RobotCar.Sender.Packet — the controller side (Packet.h): one sample of the PS4 pad
  becomes one 8-bit packet, written to Serial2 only when it differs from the last one
  written.

  The bit-fields are bit vectors of their widths, so an assignment keeps the low bits of
  what is assigned (`0b1000` into three bits is 0). Axis values are `int8_t`, promoted to
  `int` wherever the code computes with them. `makeAudioPacket` leaves field D unassigned:
  what it holds is a parameter.

  - `makeMovementPacket_eq`: the packet in closed form, a field at a time.
  - `turnBits_straight`, `turnBits_turn`: the three turn bits are 0 exactly when the right
    stick is centred; otherwise the low two are never 0 and the high one is set exactly
    when the stick points right.
-/

namespace RobotCar.Sender

structure TPacket where
  A : BitVec 3
  B : BitVec 1
  C : BitVec 1
  D : BitVec 1
  OP : BitVec 2
  deriving DecidableEq, Repr

/-- What one call of `controlFunction` reads of the pad. -/
structure Sample where
  isConnected : Bool
  LStickY : Int8
  RStickX : Int8
  RStickY : Int8
  R2Value : UInt8
  R1 : Bool
  Square : Bool
  deriving DecidableEq, Repr

/-- `prevPacket` before the first call. -/
def initPacket : TPacket := { A := 0, B := 0, C := 0, D := 0, OP := 0 }

/-- `abs(axis) >= 10 ? axis : 0`. -/
def deadZone (axis : Int8) : Int := if 10 ≤ axis.toInt.natAbs then axis.toInt else 0

def makeMovementPacket (PS4 : Sample) : TPacket :=
  let movementPacket : TPacket := { OP := 0b00, A := 0, B := 0, C := 0, D := 0 }
  let leftYCoordinate := deadZone PS4.LStickY
  let rightXCoordinate := deadZone PS4.RStickX
  let rightYCoordinate : Nat := if 10 ≤ PS4.RStickY.toInt.natAbs then PS4.RStickY.toInt.natAbs % 256 else 0
  if (leftYCoordinate = 0 ∧ rightXCoordinate = 0 ∧ rightYCoordinate = 0) ∨ PS4.R1 then movementPacket
  else
    let movementPacket :=
      if leftYCoordinate < 0 then { movementPacket with C := 0b1 }
      else if leftYCoordinate > 0 then { movementPacket with D := 0b1 }
      else movementPacket
    let movementPacket := if PS4.R2Value ≥ 128 then { movementPacket with B := 0b1 } else movementPacket
    if rightXCoordinate = 0 ∧ rightYCoordinate = 0 then { movementPacket with A := BitVec.ofNat 3 0b1000 }
    else
      let movementPacket :=
        if rightXCoordinate > 0 then { movementPacket with A := movementPacket.A ||| 0b100 } else movementPacket
      -- the quotient is an integer already, so `floor` keeps it; it is at most 2
      let angleBits : Nat := 3 - rightYCoordinate / 43
      { movementPacket with A := movementPacket.A ||| BitVec.ofNat 3 angleBits }

def makeAudioPacket (D : BitVec 1) : TPacket := { OP := 0b10, A := 0, B := 0, C := 0b1, D := D }

/-- The packet's storage read as one byte: the first field lies in the lowest bits. -/
def sendPacket (packet : TPacket) : BitVec 8 := packet.OP ++ packet.D ++ packet.C ++ packet.B ++ packet.A

def checkPacket (prevPacket packet : TPacket) : Bool :=
  packet.A == prevPacket.A && packet.B == prevPacket.B && packet.C == prevPacket.C && packet.D == prevPacket.D &&
    packet.OP == prevPacket.OP

/-- The new `prevPacket`, and the byte written if one is. -/
def controlFunction (prevPacket : TPacket) (PS4 : Sample) (D : BitVec 1) : TPacket × Option (BitVec 8) :=
  if PS4.isConnected then
    let packetToSend := if PS4.Square then makeAudioPacket D else makeMovementPacket PS4
    if !checkPacket prevPacket packetToSend then (packetToSend, some (sendPacket packetToSend))
    else (prevPacket, none)
  else (prevPacket, none)

theorem checkPacket_iff {p q : TPacket} : checkPacket p q = true ↔ q = p := by
  cases p
  cases q
  simp [checkPacket, and_assoc]

/-! ## The dead zone -/

theorem deadZone_eq_zero {x : Int8} : deadZone x = 0 ↔ x.toInt.natAbs < 10 := by
  unfold deadZone
  split <;> omega

theorem deadZone_pos {x : Int8} : 0 < deadZone x ↔ 10 ≤ x.toInt := by
  unfold deadZone
  split <;> omega

theorem deadZone_neg {x : Int8} : deadZone x < 0 ↔ x.toInt ≤ -10 := by
  unfold deadZone
  split <;> omega

/-! ## The movement packet in closed form -/

/-- All three axes the packet looks at are in their dead zone. -/
def centred (s : Sample) : Prop := s.LStickY.toInt.natAbs < 10 ∧ s.RStickX.toInt.natAbs < 10 ∧ s.RStickY.toInt.natAbs < 10

instance (s : Sample) : Decidable (centred s) := inferInstanceAs (Decidable (_ ∧ _ ∧ _))

def turnBits (x y : Int8) : BitVec 3 :=
  if x.toInt.natAbs < 10 ∧ y.toInt.natAbs < 10 then 0
  else (if 10 ≤ x.toInt then 0b100 else 0) ||| BitVec.ofNat 3 (3 - (if 10 ≤ y.toInt.natAbs then y.toInt.natAbs else 0) / 43)

theorem makeMovementPacket_stop {s : Sample} (h : s.R1 = true ∨ centred s) : makeMovementPacket s = initPacket := by
  unfold makeMovementPacket
  simp only
  rw [if_pos]
  · rfl
  rcases h with h | ⟨hy, hx, hr⟩
  · exact Or.inr h
  · exact Or.inl ⟨deadZone_eq_zero.mpr hy, deadZone_eq_zero.mpr hx, if_neg (by omega)⟩

theorem makeMovementPacket_eq {s : Sample} (hR1 : s.R1 = false) (h : ¬ centred s) : makeMovementPacket s =
    { A := turnBits s.RStickX s.RStickY
      B := if s.R2Value ≥ 128 then 1 else 0
      C := if s.LStickY.toInt ≤ -10 then 1 else 0
      D := if 10 ≤ s.LStickY.toInt then 1 else 0
      OP := 0 } := by
  have hbyte : s.RStickY.toInt.natAbs % 256 = s.RStickY.toInt.natAbs := by
    have := s.RStickY.toInt_lt
    have := s.RStickY.le_toInt
    omega
  have hstop : ¬ ((deadZone s.LStickY = 0 ∧ deadZone s.RStickX = 0 ∧
      (if 10 ≤ s.RStickY.toInt.natAbs then s.RStickY.toInt.natAbs else 0) = 0) ∨ s.R1 = true) := by
    intro hs
    rcases hs with ⟨hy, hx, hr⟩ | h1
    · refine h ⟨deadZone_eq_zero.mp hy, deadZone_eq_zero.mp hx, ?_⟩
      split at hr <;> omega
    · simp [hR1] at h1
  unfold makeMovementPacket
  simp only [hbyte]
  rw [if_neg hstop]
  simp only [deadZone_neg, deadZone_pos, deadZone_eq_zero, turnBits, gt_iff_lt]
  by_cases hs : s.RStickX.toInt.natAbs < 10 ∧ s.RStickY.toInt.natAbs < 10
  · have hz : (if 10 ≤ s.RStickY.toInt.natAbs then s.RStickY.toInt.natAbs else 0) = 0 := if_neg (by omega)
    simp only [hz, hs, and_self, if_true]
    repeat' split
    all_goals first | rfl | omega
  · have hz : ¬ (s.RStickX.toInt.natAbs < 10 ∧ (if 10 ≤ s.RStickY.toInt.natAbs then s.RStickY.toInt.natAbs else 0) = 0) := by
      intro hsmall
      obtain ⟨hx, hr⟩ := hsmall
      refine hs ⟨hx, ?_⟩
      split at hr <;> omega
    simp only [hz, hs, if_false]
    by_cases hc : s.LStickY.toInt ≤ -10 <;> by_cases hd : 10 ≤ s.LStickY.toInt <;> by_cases hb : s.R2Value ≥ 128 <;>
      by_cases hx : 10 ≤ s.RStickX.toInt <;> simp [hc, hd, hb, hx] <;> omega

theorem makeMovementPacket_OP (s : Sample) : (makeMovementPacket s).OP = 0 := by
  by_cases h : s.R1 = true ∨ centred s
  · rw [makeMovementPacket_stop h]
    rfl
  · rw [not_or] at h
    rw [makeMovementPacket_eq (by simpa using h.1) h.2]

/-! ## The turn bits -/

theorem turnBits_straight {x y : Int8} (hx : x.toInt.natAbs < 10) (hy : y.toInt.natAbs < 10) : turnBits x y = 0 :=
  if_pos ⟨hx, hy⟩

/-- Off centre, the angle bits are 1, 2 or 3 and the high bit says which side. -/
theorem turnBits_turn {x y : Int8} (h : ¬ (x.toInt.natAbs < 10 ∧ y.toInt.natAbs < 10)) :
    ∃ a ∈ [1#3, 2#3, 3#3], turnBits x y = (if 10 ≤ x.toInt then 0b100 else 0) ||| a := by
  refine ⟨_, ?_, if_neg h⟩
  have hq : (if 10 ≤ y.toInt.natAbs then y.toInt.natAbs else 0) / 43 ≤ 2 := by
    have := y.toInt_lt
    have := y.le_toInt
    split <;> omega
  generalize (if 10 ≤ y.toInt.natAbs then y.toInt.natAbs else 0) / 43 = q at hq
  match q, hq with
  | 0, _ => decide
  | 1, _ => decide
  | 2, _ => decide

end RobotCar.Sender
