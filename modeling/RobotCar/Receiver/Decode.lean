/-
  RobotCar.Receiver.Decode — what the robot makes of a byte (decode.h): the packet's
  fields by shifts and masks, then the assignments to the five globals, one store each and
  in the order the code makes them.

  - `decode_movement`, `decode_audio`, `decode_other`: what each opcode does.
  - `decode_twice`: decoding a byte again changes nothing.
  - `decode_command`: apart from `speed`, the globals after a byte do not depend on `speed`
    before it.
-/

import RobotCar.Lib.Stores

namespace RobotCar.Receiver

open RobotCar.Lib

/-! ## The drive states -/

@[match_pattern] abbrev forward : Int := 0
@[match_pattern] abbrev rightTurnOnSpot : Int := 1
@[match_pattern] abbrev reverse : Int := 2
@[match_pattern] abbrev leftTurnOnSpot : Int := 3
@[match_pattern] abbrev rightTurnForward : Int := 4
@[match_pattern] abbrev leftTurnForward : Int := 5
@[match_pattern] abbrev rightTurnReverse : Int := 6
@[match_pattern] abbrev leftTurnReverse : Int := 7
@[match_pattern] abbrev brake : Int := 8

structure Globals where
  isComplete : Bool
  isMoving : Bool
  state : Int
  speed : Int
  turnFactor : BitVec 8
  deriving DecidableEq, Repr

def Globals.init : Globals := { isComplete := false, isMoving := false, state := 8, speed := 75, turnFactor := 0 }

/-- One assignment of `decode` to a global. -/
inductive Store where
  | isComplete (v : Bool)
  | isMoving (v : Bool)
  | state (v : Int)
  | speed (v : Int)
  | turnFactor (v : BitVec 8)
  deriving DecidableEq, Repr

def Globals.put (g : Globals) : Store → Globals
  | .isComplete v => { g with isComplete := v }
  | .isMoving v => { g with isMoving := v }
  | .state v => { g with state := v }
  | .speed v => { g with speed := v }
  | .turnFactor v => { g with turnFactor := v }

/-- decode.h's own `TPacket`. -/
structure TPacket where
  A : BitVec 3
  B : BitVec 1
  C : BitVec 1
  D : BitVec 1
  OP : BitVec 2
  deriving DecidableEq, Repr

def fields (raw_data : BitVec 8) : TPacket where
  OP := ((raw_data >>> 6) &&& 0b11).setWidth 2
  D := ((raw_data >>> 5) &&& 0b1).setWidth 1
  C := ((raw_data >>> 4) &&& 0b1).setWidth 1
  B := ((raw_data >>> 3) &&& 0b1).setWidth 1
  A := (raw_data &&& 0b111).setWidth 3

/-- The assignments `decode` makes. -/
def decodeStores (raw_data : BitVec 8) : List Store :=
  let data := fields raw_data
  let movement : List Store := if data.OP = 0b00 then
      .speed (if data.B ≠ 0 then 85 else 100) :: .turnFactor (data.A.setWidth 8 % 4) ::
      if data.D ≠ 0 then
        [if data.A ≠ 0 then .state (if data.A >>> 2 ≠ 0 then rightTurnForward else leftTurnForward) else .state forward,
          .isMoving true]
      else if data.C ≠ 0 then
        [if data.A ≠ 0 then .state (if data.A >>> 2 ≠ 0 then rightTurnReverse else leftTurnReverse) else .state reverse,
          .isMoving true]
      else if data.A ≠ 0 then
        [.state (if data.A >>> 2 ≠ 0 then rightTurnOnSpot else leftTurnOnSpot), .isMoving true]
      else
        [.state brake, .isMoving false]
    else []
  let audio : List Store := if data.OP = 0b10 then
      if data.C ≠ 0 then [.isComplete true]
      else if data.B ≠ 0 then [.isComplete false]
      else []
    else []
  movement ++ audio

def decode (g : Globals) (raw_data : BitVec 8) : Globals := Stores.after Globals.put g (decodeStores raw_data)

/-! ## What each opcode does -/

/-- The drive state a movement packet asks for. -/
def TPacket.drive (p : TPacket) : Int :=
  if p.D ≠ 0 then if p.A ≠ 0 then if p.A >>> 2 ≠ 0 then rightTurnForward else leftTurnForward else forward
  else if p.C ≠ 0 then if p.A ≠ 0 then if p.A >>> 2 ≠ 0 then rightTurnReverse else leftTurnReverse else reverse
  else if p.A ≠ 0 then if p.A >>> 2 ≠ 0 then rightTurnOnSpot else leftTurnOnSpot
  else brake

theorem drive_range (p : TPacket) : 0 ≤ p.drive ∧ p.drive ≤ 8 := by
  unfold TPacket.drive
  repeat' split
  all_goals decide

/-- A packet with a direction or a turn asks for a state that moves. -/
theorem drive_moves {p : TPacket} (h : p.D ≠ 0 ∨ p.C ≠ 0 ∨ p.A ≠ 0) : 0 ≤ p.drive ∧ p.drive ≤ 7 := by
  unfold TPacket.drive
  split
  · repeat' split
    all_goals decide
  · split
    · repeat' split
      all_goals decide
    · rename_i hD hC
      rw [if_pos ((h.resolve_left hD).resolve_left hC)]
      split <;> decide

theorem decode_movement {b : BitVec 8} (h : (fields b).OP = 0b00) (g : Globals) : decode g b =
    { isComplete := g.isComplete
      isMoving := decide ((fields b).drive ≠ brake)
      state := (fields b).drive
      speed := if (fields b).B ≠ 0 then 85 else 100
      turnFactor := (fields b).A.setWidth 8 % 4 } := by
  unfold decode decodeStores TPacket.drive
  simp only [h, if_true]
  -- four stores on every path; the path is chosen by D, C, A and the top bit of A
  by_cases hD : (fields b).D = 0
  · by_cases hC : (fields b).C = 0
    · by_cases hA : (fields b).A = 0
      · simp only [hD, hC, hA, ne_eq, not_true, if_false]
        rfl
      · simp only [hD, hC, hA, ne_eq, not_true, not_false_iff, if_false, if_true]
        by_cases hR : (fields b).A >>> 2 = 0 <;> simp only [hR, not_true, not_false_iff, if_false, if_true] <;> rfl
    · simp only [hD, hC, ne_eq, not_true, not_false_iff, if_false, if_true]
      by_cases hA : (fields b).A = 0 <;> by_cases hR : (fields b).A >>> 2 = 0 <;>
        simp only [hA, hR, not_true, not_false_iff, if_false, if_true] <;> rfl
  · simp only [hD, ne_eq, not_false_iff, if_true]
    by_cases hA : (fields b).A = 0 <;> by_cases hR : (fields b).A >>> 2 = 0 <;>
      simp only [hA, hR, not_true, not_false_iff, if_false, if_true] <;> rfl

theorem decode_audio {b : BitVec 8} (h : (fields b).OP = 0b10) (g : Globals) : decode g b =
    { g with isComplete := if (fields b).C ≠ 0 then true else if (fields b).B ≠ 0 then false else g.isComplete } := by
  unfold decode decodeStores
  simp only [h, if_true]
  rw [if_neg (by decide)]
  split
  · rfl
  · split <;> rfl

theorem decode_other {b : BitVec 8} (h0 : (fields b).OP ≠ 0b00) (h2 : (fields b).OP ≠ 0b10) (g : Globals) :
    decode g b = g := by
  unfold decode decodeStores
  simp only [h0, h2, if_false]
  rfl

/-! ## Decoding again, and what it does not read -/

theorem decode_twice (g : Globals) (b : BitVec 8) : decode (decode g b) b = decode g b := by
  by_cases h0 : (fields b).OP = 0b00
  · rw [decode_movement h0, decode_movement h0]
  by_cases h2 : (fields b).OP = 0b10
  · rw [decode_audio h2, decode_audio h2]
    simp only [Globals.mk.injEq, and_true]
    split <;> (try split) <;> rfl
  · rw [decode_other h0 h2, decode_other h0 h2]

/-- The globals a command sets for good: all but `speed`, which the startup decode of the
    initial `received_byte` already changes. -/
def Globals.command (g : Globals) : Int × BitVec 8 × Bool × Bool := (g.state, g.turnFactor, g.isMoving, g.isComplete)

theorem decode_command {g h : Globals} (e : g.command = h.command) (b : BitVec 8) :
    (decode g b).command = (decode h b).command := by
  simp only [Globals.command, Prod.mk.injEq] at e ⊢
  obtain ⟨hs, ht, hm, hc⟩ := e
  by_cases h0 : (fields b).OP = 0b00
  · simp [decode_movement h0, hc]
  by_cases h2 : (fields b).OP = 0b10
  · simp [decode_audio h2, hs, ht, hm, hc]
  · simp [decode_other h0 h2, hs, ht, hm, hc]

/-- The startup decode of the zero byte changes `speed` alone. -/
theorem decode_startup : (decode .init 0).command = Globals.init.command := by decide

end RobotCar.Receiver
