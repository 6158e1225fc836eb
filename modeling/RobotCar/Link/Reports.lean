/-
  RobotCar.Link.Reports — from the controller's report to the wheels: the parser, the
  accessors, the packet, `decode` and `motorControl` one after the other.

  `askedBytes` says what a report asks of the wheels in the bytes themselves: thresholds on
  four bytes and one bit, with no signed axis and no packet in between.

  - `report_drives`: the whole path gives exactly that, for every report.
-/

import RobotCar.Link.Drive
import RobotCar.Pad.Host

namespace RobotCar.Link

open RobotCar.Sender RobotCar.Receiver RobotCar.Pad

/-- What `controlFunction` sees of the object's data. -/
def seen (isConnected : Bool) (d : ps4_t) : Sample :=
  ⟨isConnected, -d.analog.stick.ly, d.analog.stick.rx, -d.analog.stick.ry, d.analog.button.r2, d.button.r1,
    d.button.square⟩

theorem sample_eq (s : Pad.St) : sample s = seen s.is_active s.PS4.data := rfl

/-! ## What a report asks for -/

/-- Far enough from the middle of the axis. -/
def offCentre (b : UInt8) : Prop := b ≤ 118 ∨ 138 ≤ b

instance (b : UInt8) : Decidable (offCentre b) := inferInstanceAs (Decidable (_ ∨ _))

def askedBytes (byte : Nat → UInt8) : Wheels :=
  let full : Nat := if byte packet_index_analog_r2 ≥ 128 then 4249 else 4999
  let turns := offCentre (byte packet_index_analog_stick_rx) ∨ offCentre (byte packet_index_analog_stick_ry)
  let right := 138 ≤ byte packet_index_analog_stick_rx
  let curve : Wheels :=
    if turns then if right then ⟨full, (full / 2 : Nat)⟩ else ⟨(full / 2 : Nat), full⟩ else ⟨full, full⟩
  if byte packet_index_button_extra &&& button_mask_r1 ≠ 0 then ⟨0, 0⟩
  -- the stick's byte falls as it is pushed forward
  else if byte packet_index_analog_stick_ly ≤ 118 then curve
  else if 138 ≤ byte packet_index_analog_stick_ly then ⟨-curve.left, -curve.right⟩
  else if turns then if right then ⟨full, -full⟩ else ⟨-full, full⟩
  else ⟨0, 0⟩

/-! ## The thresholds -/

theorem axis_right (b : UInt8) : 10 ≤ (axis b).toInt ↔ 138 ≤ b :=
  all_bytes (P := fun b => 10 ≤ (axis b).toInt ↔ 138 ≤ b) (by decide) b

theorem axis_forward (b : UInt8) : 10 ≤ (-axis b).toInt ↔ b ≤ 118 :=
  all_bytes (P := fun b => 10 ≤ (-axis b).toInt ↔ b ≤ 118) (by decide) b

theorem axis_back (b : UInt8) : (-axis b).toInt ≤ -10 ↔ 138 ≤ b :=
  all_bytes (P := fun b => (-axis b).toInt ≤ -10 ↔ 138 ≤ b) (by decide) b

theorem axis_off (b : UInt8) : 10 ≤ (axis b).toInt.natAbs ↔ offCentre b :=
  all_bytes (P := fun b => 10 ≤ (axis b).toInt.natAbs ↔ offCentre b) (by decide) b

theorem neg_axis_off (b : UInt8) : 10 ≤ (-axis b).toInt.natAbs ↔ offCentre b :=
  all_bytes (P := fun b => 10 ≤ (-axis b).toInt.natAbs ↔ offCentre b) (by decide) b

section Report

variable (packet : Packet) (isConnected : Bool)

theorem turning_reading : turning (seen isConnected (reading packet)) ↔
    offCentre (packet.byte packet_index_analog_stick_rx) ∨ offCentre (packet.byte packet_index_analog_stick_ry) :=
  or_congr (axis_off _) (neg_axis_off _)

theorem asked_reading : asked (seen isConnected (reading packet)) = askedBytes packet.byte := by
  have hR1 : (seen isConnected (reading packet)).R1 = true ↔
      packet.byte packet_index_button_extra &&& button_mask_r1 ≠ 0 := bne_iff_ne
  have hforward : 10 ≤ (seen isConnected (reading packet)).LStickY.toInt ↔
      packet.byte packet_index_analog_stick_ly ≤ 118 := axis_forward _
  have hback : (seen isConnected (reading packet)).LStickY.toInt ≤ -10 ↔
      138 ≤ packet.byte packet_index_analog_stick_ly := axis_back _
  have hright : 10 ≤ (seen isConnected (reading packet)).RStickX.toInt ↔
      138 ≤ packet.byte packet_index_analog_stick_rx := axis_right _
  have hduty : fullDuty (seen isConnected (reading packet)) =
      if packet.byte packet_index_analog_r2 ≥ 128 then 4249 else 4999 := rfl
  simp only [asked, curve, spot, hR1, hforward, hback, hright, turning_reading, hduty]
  rfl

theorem report_drives (g : Globals) (r : Regs) :
    drive (seen isConnected (reading packet)) g r = (askedBytes packet.byte).regs := by
  rw [drive_eq, asked_reading]

end Report

end RobotCar.Link
