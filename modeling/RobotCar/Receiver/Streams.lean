/-
  RobotCar.Receiver.Streams — the bytes for the wheels and the bytes for the buzzer as two
  streams over one line. A movement byte overwrites all of what drives the robot and
  nothing else, an audio byte with C or B set overwrites `isComplete` and nothing else,
  and no other byte does anything.

  - `motion_last`, `complete_last`: each part is what the last byte of its stream says.
  - `streams_independent`: so only the two streams matter, not how they were mixed.
-/

import RobotCar.Receiver.Decode

namespace RobotCar.Receiver

open RobotCar.Lib

/-! ## The two streams -/

def movementByte (b : BitVec 8) : Bool := (fields b).OP == 0b00

def audioByte (b : BitVec 8) : Bool := (fields b).OP == 0b10 && ((fields b).C != 0 || (fields b).B != 0)

/-- The globals a movement byte sets: `state`, `speed`, `turnFactor` and `isMoving`. -/
def Globals.motion (g : Globals) : Int × Int × BitVec 8 × Bool := (g.state, g.speed, g.turnFactor, g.isMoving)

/-- What a movement byte sets them to. -/
def commanded (b : BitVec 8) : Int × Int × BitVec 8 × Bool :=
  ((fields b).drive, if (fields b).B ≠ 0 then 85 else 100, (fields b).A.setWidth 8 % 4, decide ((fields b).drive ≠ brake))

theorem globals_ext {g h : Globals} (hm : g.motion = h.motion) (hc : g.isComplete = h.isComplete) : g = h := by
  obtain ⟨c, m, st, sp, tf⟩ := g
  obtain ⟨c', m', st', sp', tf'⟩ := h
  simp only [Globals.motion, Prod.mk.injEq] at hm hc
  obtain ⟨hst, hsp, htf, hmv⟩ := hm
  subst hst hsp htf hmv hc
  rfl

/-! ## One byte -/

section Byte

variable {b : BitVec 8} (g : Globals)

theorem motion_set (h : movementByte b = true) : (decode g b).motion = commanded b := by
  rw [decode_movement (eq_of_beq h)]
  rfl

theorem motion_keep (h : movementByte b = false) : (decode g b).motion = g.motion := by
  have h0 : (fields b).OP ≠ 0b00 := ne_of_beq_false h
  by_cases h2 : (fields b).OP = 0b10
  · rw [decode_audio h2]
    rfl
  · rw [decode_other h0 h2]

theorem complete_set (h : audioByte b = true) : (decode g b).isComplete = decide ((fields b).C ≠ 0) := by
  simp only [audioByte, Bool.and_eq_true, Bool.or_eq_true, beq_iff_eq, bne_iff_ne] at h
  obtain ⟨h2, hCB⟩ := h
  rw [decode_audio h2]
  by_cases hC : (fields b).C = 0
  · have hB := hCB.resolve_left (not_not_intro hC)
    simp only [hC, ne_eq, not_true, if_false, if_pos hB, decide_false]
  · simp only [ne_eq, hC, not_false_iff, if_true, decide_true]

theorem complete_keep (h : audioByte b = false) : (decode g b).isComplete = g.isComplete := by
  by_cases h0 : (fields b).OP = 0b00
  · rw [decode_movement h0]
  by_cases h2 : (fields b).OP = 0b10
  · simp only [audioByte, h2, beq_self_eq_true, Bool.true_and, Bool.or_eq_false_iff, bne_eq_false_iff_eq] at h
    rw [decode_audio h2]
    simp [h.1, h.2]
  · rw [decode_other h0 h2]

theorem no_effect (hm : movementByte b = false) (ha : audioByte b = false) : decode g b = g :=
  globals_ext (motion_keep g hm) (complete_keep g ha)

end Byte

/-! ## Any number of bytes -/

section Bytes

variable (g : Globals) (bs : List (BitVec 8))

theorem motion_last : (bs.foldl decode g).motion = ((bs.filter movementByte).getLast?.map commanded).getD g.motion :=
  Stores.last_write Globals.motion (fun g _ => motion_set g) (fun g _ => motion_keep g)

theorem complete_last : (bs.foldl decode g).isComplete =
    ((bs.filter audioByte).getLast?.map fun b => decide ((fields b).C ≠ 0)).getD g.isComplete :=
  Stores.last_write Globals.isComplete (fun g _ => complete_set g) (fun g _ => complete_keep g)

theorem streams_independent :
    (bs.foldl decode g).motion = ((bs.filter movementByte).getLast?.map commanded).getD g.motion ∧
    (bs.foldl decode g).isComplete =
      ((bs.filter audioByte).getLast?.map fun b => decide ((fields b).C ≠ 0)).getD g.isComplete ∧
    (∀ b, movementByte b = false → audioByte b = false → ∀ h, decode h b = h) ∧
    ∀ cs : List (BitVec 8), cs.filter movementByte = bs.filter movementByte →
      cs.filter audioByte = bs.filter audioByte → cs.foldl decode g = bs.foldl decode g := by
  refine ⟨motion_last g bs, complete_last g bs, fun b hm ha h => no_effect h hm ha, ?_⟩
  intro cs hm ha
  apply globals_ext
  · rw [motion_last, motion_last, hm]
  · rw [complete_last, complete_last, ha]

end Bytes

/-- Forward, the finishing tune, a light byte: the same in another order and without the light. -/
theorem streams_independent_mixed :
    [0x28, 0x90, 0x47].foldl decode .init = [0x90, 0x28].foldl decode .init :=
  (streams_independent .init [0x90, 0x28]).2.2.2 [0x28, 0x90, 0x47] (by decide) (by decide)

end RobotCar.Receiver
