/-
  RobotCar.Link.Drive — from the sticks to the wheels: one movement packet packed by the
  sender, decoded by the robot and handed to `motorControl`.

  `asked` says what the sticks ask of the wheels, in signed duties and with no packet in
  between; `drive_eq`: the whole path gives exactly that, whatever the receiver and the
  registers held before.

  - `wheels_follow_sticks`: direction, straight lines, the inner side of a curve and turns
    on the spot, read off `asked`.
  - `mirror_iff`: negating RStickX swaps the two sides, and a centred RStickX does not
    steer, exactly when R1 is pressed, RStickX is off centre or RStickY is centred. With
    RStickX centred and RStickY not, the sender sets angle bits and leaves the side bit
    clear, which the receiver reads as a left turn.
-/

import RobotCar.Receiver.MotorControl
import RobotCar.Sender.Packet

namespace RobotCar.Link

open RobotCar.Sender RobotCar.Receiver

/-- The receiver's fields of a byte are the sender's fields of the packet in it. -/
theorem fields_sendPacket (p : Sender.TPacket) : fields (sendPacket p) = ⟨p.A, p.B, p.C, p.D, p.OP⟩ := by
  obtain ⟨A, B, C, D, OP⟩ := p
  revert A B C D OP
  decide +kernel

def drive (s : Sample) (g : Globals) (r : Regs) : Regs :=
  let g := decode g (sendPacket (makeMovementPacket s))
  motorControl g.state g.speed g.turnFactor r

/-! ## What the sticks ask for -/

/-- The right stick is off centre. -/
def turning (s : Sample) : Prop := 10 ≤ s.RStickX.toInt.natAbs ∨ 10 ≤ s.RStickY.toInt.natAbs

instance (s : Sample) : Decidable (turning s) := inferInstanceAs (Decidable (_ ∨ _))

/-- The duty of speed 85 with the trigger past half way, of speed 100 otherwise. -/
def fullDuty (s : Sample) : Nat := if s.R2Value ≥ 128 then 4249 else 4999

def curve (s : Sample) : Wheels :=
  if turning s then
    if 10 ≤ s.RStickX.toInt then ⟨fullDuty s, (fullDuty s / 2 : Nat)⟩ else ⟨(fullDuty s / 2 : Nat), fullDuty s⟩
  else ⟨fullDuty s, fullDuty s⟩

def spot (s : Sample) : Wheels :=
  if turning s then if 10 ≤ s.RStickX.toInt then ⟨fullDuty s, -fullDuty s⟩ else ⟨-fullDuty s, fullDuty s⟩
  else ⟨0, 0⟩

def asked (s : Sample) : Wheels :=
  if s.R1 then ⟨0, 0⟩
  else if 10 ≤ s.LStickY.toInt then curve s
  else if s.LStickY.toInt ≤ -10 then ⟨-(curve s).left, -(curve s).right⟩
  else spot s

theorem fullDuty_pos (s : Sample) : 2 ≤ fullDuty s := by
  unfold fullDuty
  split <;> omega

theorem duty_speed (s : Sample) :
    duty (if (if s.R2Value ≥ 128 then (1 : BitVec 1) else 0) ≠ 0 then 85 else 100) = fullDuty s := by
  unfold fullDuty
  by_cases h : s.R2Value ≥ 128
  · simp only [h, if_true]
    decide
  · simp only [h, if_false]
    decide

/-! ## The path gives what is asked -/

/-- The turn bits at the receiver: nonzero, their top bit the side, their angle a curve. -/
theorem turn_code : ∀ a ∈ [1#3, 2#3, 3#3], ∀ side : Bool,
    let A := (if side then 0b100 else 0) ||| a
    A ≠ 0 ∧ (A >>> 2 ≠ 0 ↔ side = true) ∧ A.setWidth 8 % 4 = a.setWidth 8 := by
  decide

theorem innerDuty_angle {a : BitVec 3} (h : a ∈ [1#3, 2#3, 3#3]) (full : Nat) :
    innerDuty (a.setWidth 8) full = full / 2 := by
  unfold innerDuty
  rw [if_pos]
  revert a
  decide

theorem drive_stop {s : Sample} (h : s.R1 = true ∨ centred s) (g : Globals) (r : Regs) : drive s g r = .zero := by
  have hOP : (fields (sendPacket initPacket)).OP = 0b00 := by decide
  simp only [drive, makeMovementPacket_stop h, decode_movement hOP, motorControl_eq]
  exact congrArg Wheels.regs (wheels_brake _ _)

theorem drive_moving {s : Sample} (hR1 : s.R1 = false) (h : ¬ centred s) (g : Globals) (r : Regs) :
    drive s g r = (wheels (TPacket.drive ⟨turnBits s.RStickX s.RStickY, 0, if s.LStickY.toInt ≤ -10 then 1 else 0,
      if 10 ≤ s.LStickY.toInt then 1 else 0, 0⟩) (fullDuty s)
      (innerDuty ((turnBits s.RStickX s.RStickY).setWidth 8 % 4) (fullDuty s))).regs := by
  have hOP : (fields (sendPacket (makeMovementPacket s))).OP = 0b00 := by
    rw [fields_sendPacket, makeMovementPacket_eq hR1 h]
  simp only [drive, motorControl_eq]
  rw [decode_movement hOP]
  simp only [fields_sendPacket]
  rw [makeMovementPacket_eq hR1 h]
  rw [duty_speed]
  rfl

theorem drive_eq (s : Sample) (g : Globals) (r : Regs) : drive s g r = (asked s).regs := by
  by_cases hR1 : s.R1 = true
  · rw [drive_stop (Or.inl hR1), asked, if_pos hR1]
    rfl
  by_cases hc : centred s
  · obtain ⟨hy, hx, hr⟩ := hc
    rw [drive_stop (Or.inr ⟨hy, hx, hr⟩), asked, if_neg hR1, if_neg (by omega), if_neg (by omega), spot,
      if_neg (by unfold turning; omega)]
    rfl
  rw [drive_moving (by simpa using hR1) hc]
  congr 1
  unfold asked curve spot
  rw [if_neg hR1]
  by_cases ht : turning s
  · obtain ⟨a, ha, hA⟩ := turnBits_turn (x := s.RStickX) (y := s.RStickY) (by unfold turning at ht; omega)
    obtain ⟨hne, hside, hangle⟩ := turn_code a ha (decide (10 ≤ s.RStickX.toInt))
    simp only [decide_eq_true_eq] at hne hside hangle
    rw [hA, hangle, innerDuty_angle ha]
    simp only [TPacket.drive, hne, hside, ht, ne_eq, not_false_iff, if_true]
    by_cases hf : 10 ≤ s.LStickY.toInt
    · by_cases hx : 10 ≤ s.RStickX.toInt <;> simp [hf, hx]
    · by_cases hb : s.LStickY.toInt ≤ -10 <;> by_cases hx : 10 ≤ s.RStickX.toInt <;> simp [hf, hb, hx]
  · have hA : turnBits s.RStickX s.RStickY = 0 := by
      unfold turning at ht
      exact turnBits_straight (by omega) (by omega)
    have hy : 10 ≤ s.LStickY.toInt ∨ s.LStickY.toInt ≤ -10 := by
      unfold turning at ht
      unfold centred at hc
      omega
    rcases hy with hf | hb
    · simp [hA, ht, hf, TPacket.drive]
    · have hf : ¬ 10 ≤ s.LStickY.toInt := by omega
      simp [hA, ht, hb, hf, TPacket.drive]

/-! ## The wheels follow the sticks -/

theorem wheels_follow_sticks (s : Sample) (hR1 : s.R1 = false) (g : Globals) (r : Regs) :
    let left := (drive s g r).left
    let right := (drive s g r).right
    (10 ≤ s.LStickY.toInt → 0 < left ∧ 0 < right) ∧
    (s.LStickY.toInt ≤ -10 → left < 0 ∧ right < 0) ∧
    (10 ≤ s.LStickY.toInt.natAbs → s.RStickX.toInt.natAbs < 10 → s.RStickY.toInt.natAbs < 10 → left = right) ∧
    (10 ≤ s.LStickY.toInt.natAbs → 10 ≤ s.RStickX.toInt.natAbs →
      (0 < s.RStickX.toInt → right.natAbs < left.natAbs) ∧ (s.RStickX.toInt < 0 → left.natAbs < right.natAbs)) ∧
    (s.LStickY.toInt.natAbs < 10 → 10 ≤ s.RStickX.toInt.natAbs →
      left = -right ∧ (0 < s.RStickX.toInt → 0 < left) ∧ (s.RStickX.toInt < 0 → left < 0)) := by
  have hd := fullDuty_pos s
  simp only [drive_eq, Wheels.regs_left, Wheels.regs_right, asked, hR1, Bool.false_eq_true, if_false]
  refine ⟨?_, ?_, ?_, ?_, ?_⟩
  · intro hy
    rw [if_pos hy]
    unfold curve
    split
    · split <;> simp only <;> omega
    · simp only
      omega
  · intro hy
    rw [if_neg (by omega), if_pos hy]
    unfold curve
    split
    · split <;> simp only <;> omega
    · simp only
      omega
  · intro hy hx hr
    have ht : ¬ turning s := by
      unfold turning
      omega
    unfold curve
    rw [if_neg ht]
    split
    · rfl
    · rw [if_pos (by omega)]
  · intro hy hx
    have ht : turning s := Or.inl hx
    unfold curve
    rw [if_pos ht]
    split <;> (try rw [if_pos (by omega : s.LStickY.toInt ≤ -10)]) <;> split <;> simp only <;> omega
  · intro hy hx
    have ht : turning s := Or.inl hx
    rw [if_neg (by omega), if_neg (by omega)]
    unfold spot
    rw [if_pos ht]
    split
    · exact ⟨(neg_neg _).symm, fun _ => by simp only; omega, fun h => by omega⟩
    · exact ⟨rfl, fun h => by omega, fun _ => by simp only; omega⟩

/-- Forward and right with R1 released: both sides forward, the right one slower. -/
theorem wheels_follow_sticks_right :
    let s : Sample := ⟨true, 100, 50, 0, 0, false, false⟩
    0 < (drive s .init .zero).left ∧ 0 < (drive s .init .zero).right ∧
      (drive s .init .zero).right.natAbs < (drive s .init .zero).left.natAbs := by
  intro s
  obtain ⟨hfwd, -, -, hcurve, -⟩ := wheels_follow_sticks s rfl .init .zero
  obtain ⟨hl, hr⟩ := hfwd (by decide)
  exact ⟨hl, hr, (hcurve (by decide) (by decide)).1 (by decide)⟩

/-! ## Left and right -/

def mirror (s : Sample) : Sample := { s with RStickX := -s.RStickX }

/-- The left pair of registers and the right pair exchanged. -/
def swap (r : Regs) : Regs := ⟨r.TPM2_C0V, r.TPM2_C1V, r.TPM1_C0V, r.TPM1_C1V⟩

/-- Mirroring the sample mirrors the registers, and a centred RStickX steers to no side. -/
def Mirrored (s : Sample) (g g' : Globals) (r r' : Regs) : Prop :=
  drive (mirror s) g' r' = swap (drive s g r) ∧ (s.RStickX.toInt.natAbs < 10 → drive s g r = swap (drive s g r))

theorem toInt_neg {x : Int8} (h : x ≠ -128) : (-x).toInt = -x.toInt := by
  have hx : x.toInt ≠ -128 := fun he => h (Int8.toInt_inj.mp he)
  have := x.le_toInt
  have := x.toInt_lt
  rw [Int8.toInt_neg, Int.bmod_eq_of_le (by omega) (by omega)]

theorem swap_regs (w : Wheels) : swap w.regs = Wheels.regs ⟨w.right, w.left⟩ := rfl

theorem regs_inj {v w : Wheels} : v.regs = w.regs ↔ v = w := by
  constructor
  · intro h
    have hl := congrArg Regs.left h
    have hr := congrArg Regs.right h
    simp only [Wheels.regs_left, Wheels.regs_right] at hl hr
    exact Wheels.ext hl hr
  · intro h
    rw [h]

/-- Mirroring the sample mirrors what is asked, unless only RStickY is off centre. -/
theorem asked_mirror {s : Sample} (hx : s.RStickX ≠ -128)
    (h : s.R1 = true ∨ 10 ≤ s.RStickX.toInt.natAbs ∨ s.RStickY.toInt.natAbs < 10) :
    asked (mirror s) = ⟨(asked s).right, (asked s).left⟩ := by
  have hn := toInt_neg hx
  have hturn : turning (mirror s) ↔ turning s := by
    simp only [turning, mirror, hn, Int.natAbs_neg]
  unfold asked
  rw [show (mirror s).R1 = s.R1 from rfl, show (mirror s).LStickY = s.LStickY from rfl]
  by_cases hR1 : s.R1 = true
  · rw [if_pos hR1, if_pos hR1]
  rw [if_neg hR1, if_neg hR1]
  have hoff := h.resolve_left hR1
  -- the side flips with the sign of RStickX; when nothing turns there is no side
  have hside : turning s → (10 ≤ (mirror s).RStickX.toInt ↔ ¬ 10 ≤ s.RStickX.toInt) := by
    intro ht
    simp only [turning] at ht
    simp only [mirror, hn]
    omega
  unfold curve spot
  simp only [hturn]
  by_cases ht : turning s
  · simp only [ht, if_true, hside ht, show fullDuty (mirror s) = fullDuty s from rfl]
    by_cases hr : 10 ≤ s.RStickX.toInt <;> simp only [hr, not_true, not_false_iff, if_true, if_false] <;> split <;>
      (try split) <;> simp
  · simp only [ht, if_false, show fullDuty (mirror s) = fullDuty s from rfl]
    split <;> (try split) <;> rfl

/-- With only RStickY off centre the two sides are asked for different duties. -/
theorem asked_uneven {s : Sample} (hR1 : s.R1 = false) (hx : s.RStickX.toInt.natAbs < 10)
    (hy : 10 ≤ s.RStickY.toInt.natAbs) : (asked s).left ≠ (asked s).right := by
  have hd := fullDuty_pos s
  have ht : turning s := Or.inr hy
  have hr : ¬ 10 ≤ s.RStickX.toInt := by omega
  simp only [asked, hR1, Bool.false_eq_true, if_false, curve, spot, ht, hr, if_true]
  split
  · simp only
    omega
  · split <;> simp only <;> omega

theorem mirror_iff (s : Sample) (hx : s.RStickX ≠ -128) (g g' : Globals) (r r' : Regs) :
    Mirrored s g g' r r' ↔ s.R1 = true ∨ 10 ≤ s.RStickX.toInt.natAbs ∨ s.RStickY.toInt.natAbs < 10 := by
  simp only [Mirrored, drive_eq, swap_regs, regs_inj]
  constructor
  · intro h
    obtain ⟨-, hdead⟩ := h
    by_contra hc
    simp only [not_or, Bool.not_eq_true, Nat.not_le, Nat.not_lt] at hc
    obtain ⟨hR1, hdz, hy⟩ := hc
    exact asked_uneven hR1 hdz hy (congrArg Wheels.left (hdead hdz))
  · intro h
    refine ⟨asked_mirror hx h, ?_⟩
    intro hdz
    -- a centred RStickX and its mirror ask for the same, so the mirror law says the sides agree
    have hn := toInt_neg hx
    have hself : asked (mirror s) = asked s := by
      have ht : turning (mirror s) ↔ turning s := by simp only [turning, mirror, hn, Int.natAbs_neg]
      have hr : (10 ≤ (mirror s).RStickX.toInt) ↔ 10 ≤ s.RStickX.toInt := by
        simp only [mirror, hn]
        omega
      simp only [asked, curve, spot, ht, hr]
      rfl
    exact hself.symm.trans (asked_mirror hx h)

/-- Right stick straight up, left stick forward: a left curve, though RStickX is centred. -/
theorem stick_up_steers_left : ¬ ∀ (s : Sample) (g g' : Globals) (r r' : Regs), s.RStickX ≠ -128 → Mirrored s g g' r r' := by
  intro h
  obtain ⟨-, hdead⟩ := h ⟨true, 100, 0, 100, 0, false, false⟩ .init .init .zero .zero (by decide)
  have := hdead (by decide)
  rw [drive_eq, swap_regs, regs_inj] at this
  revert this
  decide

/-- A right turn with RStickX off centre, and its mirror image. -/
theorem mirror_iff_right : Mirrored ⟨true, 100, 50, 100, 0, false, false⟩ .init .init .zero .zero :=
  (mirror_iff ⟨true, 100, 50, 100, 0, false, false⟩ (by decide) .init .init .zero .zero).mpr (by decide)

end RobotCar.Link
