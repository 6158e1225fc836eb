/-
  RobotCar.Sender.Loop — `controlFunction` as the ESP32 runs it: each accessor of `PS4` it
  calls reads the object as it is then, and the Bluetooth task may have stored a new report
  in between. `abs(PS4.LStickY()) >= 10 ? PS4.LStickY() : 0` calls the accessor twice, and the
  two calls may return two positions of the stick. `abs` is the function of that name, which
  evaluates its argument once.

  - `controlFunction_atOnce`: with no report in between it is `Sender.controlFunction`.
  - `controlFunction_settled`: whatever happens in between it writes what
    `Sender.controlFunction` writes for one sample: each button and the trigger as one of the
    samples read has it, each axis where two of the samples put it (`settle`).
-/

import RobotCar.Lib.Reads
import RobotCar.Sender.Packet

namespace RobotCar.Sender

open RobotCar.Lib
open Prog (read)

namespace Loop

/-- `abs(axis()) >= 10 ? axis() : 0`. -/
def deadZone (axis : Sample → Int8) : Prog Sample Int := do
  let tested ← read axis
  if 10 ≤ tested.toInt.natAbs then
    let value ← read axis
    pure value.toInt
  else pure 0

def makeMovementPacket : Prog Sample TPacket := do
  let movementPacket : TPacket := { OP := 0b00, A := 0, B := 0, C := 0, D := 0 }
  let leftYCoordinate ← deadZone Sample.LStickY
  let rightXCoordinate ← deadZone Sample.RStickX
  let value ← deadZone Sample.RStickY
  let rightYCoordinate : Nat := value.natAbs % 256
  let stop ← (if leftYCoordinate = 0 ∧ rightXCoordinate = 0 ∧ rightYCoordinate = 0 then pure true else read Sample.R1)
  if stop then pure movementPacket
  else
    let movementPacket :=
      if leftYCoordinate < 0 then { movementPacket with C := 0b1 }
      else if leftYCoordinate > 0 then { movementPacket with D := 0b1 }
      else movementPacket
    let R2Value ← read Sample.R2Value
    let movementPacket := if R2Value ≥ 128 then { movementPacket with B := 0b1 } else movementPacket
    if rightXCoordinate = 0 ∧ rightYCoordinate = 0 then pure { movementPacket with A := BitVec.ofNat 3 0b1000 }
    else
      let movementPacket :=
        if rightXCoordinate > 0 then { movementPacket with A := movementPacket.A ||| 0b100 } else movementPacket
      let angleBits : Nat := 3 - rightYCoordinate / 43
      pure { movementPacket with A := movementPacket.A ||| BitVec.ofNat 3 angleBits }

/-- The new `prevPacket`, and the byte written if one is. -/
def controlFunction (prevPacket : TPacket) (D : BitVec 1) : Prog Sample (TPacket × Option (BitVec 8)) := do
  let isConnected ← read Sample.isConnected
  if isConnected then
    let Square ← read Sample.Square
    let packetToSend ← (if Square then pure (makeAudioPacket D) else makeMovementPacket)
    if !checkPacket prevPacket packetToSend then pure (packetToSend, some (sendPacket packetToSend))
    else pure (prevPacket, none)
  else pure (prevPacket, none)

end Loop

/-! ## Where an axis settles -/

/-- The position that stands for a test at `v` and a value read at `w`. -/
def settle (v w : Int8) : Int8 :=
  if v.toInt.natAbs < 10 then 0
  else if 10 ≤ w.toInt.natAbs then w
  else if 0 < w.toInt then 10
  else if w.toInt < 0 then -10
  else 0

/-- One position an axis had in the samples seen, or two of them settled. -/
def AxisSeen (axis : Sample → Int8) (seen : List Sample) (p : Int8) : Prop :=
  ∃ x ∈ seen, ∃ y ∈ seen, p = settle (axis x) (axis y)

structure Settled (seen : List Sample) (s : Sample) : Prop where
  isConnected : ∃ x ∈ seen, s.isConnected = x.isConnected
  LStickY : AxisSeen Sample.LStickY seen s.LStickY
  RStickX : AxisSeen Sample.RStickX seen s.RStickX
  RStickY : AxisSeen Sample.RStickY seen s.RStickY
  R2Value : ∃ x ∈ seen, s.R2Value = x.R2Value
  R1 : ∃ x ∈ seen, s.R1 = x.R1
  Square : ∃ x ∈ seen, s.Square = x.Square

/-- What the packet looks at in an axis whose reads gave `u`, were they at `p`. -/
structure Reads (u : Int) (p : Int8) : Prop where
  zero : u = 0 ↔ p.toInt.natAbs < 10
  pos : 0 < u ↔ 10 ≤ p.toInt
  neg : u < 0 ↔ p.toInt ≤ -10
  small : u.natAbs < 256
  third : u.natAbs / 43 = (if 10 ≤ p.toInt.natAbs then p.toInt.natAbs else 0) / 43

section Axis

variable {axis : Sample → Int8} {seen : List Sample} {u : Int} {v w : Int8}

theorem AxisSeen.mono {seen' : List Sample} {p : Int8} (h : AxisSeen axis seen p) (hs : ∀ x ∈ seen, x ∈ seen') :
    AxisSeen axis seen' p := by
  obtain ⟨x, hx, y, hy, he⟩ := h
  exact ⟨x, hs x hx, y, hs y hy, he⟩

theorem reads_zero (h : v.toInt.natAbs < 10) : Reads 0 (settle v w) := by
  rw [settle, if_pos h]
  exact ⟨by decide, by decide, by decide, by decide, by decide⟩

theorem reads_value (h : 10 ≤ v.toInt.natAbs) : Reads w.toInt (settle v w) := by
  have hlt := w.toInt_lt
  have hle := w.le_toInt
  rw [settle, if_neg (by omega)]
  have hten : (10 : Int8).toInt = 10 ∧ (-10 : Int8).toInt = -10 ∧ (0 : Int8).toInt = 0 := by decide
  obtain ⟨hp, hn, hz⟩ := hten
  by_cases hw : 10 ≤ w.toInt.natAbs
  · rw [if_pos hw]
    refine ⟨by omega, by omega, by omega, by omega, ?_⟩
    rw [if_pos hw]
  rw [if_neg hw]
  by_cases hpos : 0 < w.toInt
  · rw [if_pos hpos]
    refine ⟨by omega, by omega, by omega, by omega, ?_⟩
    rw [hp, if_pos (by decide)]
    omega
  rw [if_neg hpos]
  by_cases hneg : w.toInt < 0
  · rw [if_pos hneg]
    refine ⟨by omega, by omega, by omega, by omega, ?_⟩
    rw [hn, if_pos (by decide)]
    omega
  · rw [if_neg hneg]
    have hw0 : w.toInt = 0 := by omega
    rw [hw0]
    exact ⟨by decide, by decide, by decide, by decide, by decide⟩

theorem deadZone_settles (h : (Loop.deadZone axis).Sees seen u) : ∃ p, AxisSeen axis seen p ∧ Reads u p := by
  obtain ⟨v, first, rest, rfl, hv, h⟩ := Prog.sees_bind.mp h
  obtain ⟨x, rfl, rfl⟩ := Prog.sees_read.mp hv
  split at h
  · rename_i htest
    obtain ⟨w, second, last, rfl, hw, h⟩ := Prog.sees_bind.mp h
    obtain ⟨y, rfl, rfl⟩ := Prog.sees_read.mp hw
    obtain ⟨rfl, rfl⟩ := Prog.sees_pure.mp h
    exact ⟨_, ⟨x, by simp, y, by simp, rfl⟩, reads_value htest⟩
  · rename_i htest
    obtain ⟨rfl, rfl⟩ := Prog.sees_pure.mp h
    exact ⟨_, ⟨x, by simp, x, by simp, rfl⟩, reads_zero (Nat.lt_of_not_le htest)⟩

end Axis

/-! ## The packet of a settled sample -/

/-- The packet made of two axes, the size of the third and what is read after them. -/
def packetOf (l x : Int) (y : Nat) (R1 : Bool) (R2Value : UInt8) : TPacket :=
  let movementPacket : TPacket := { OP := 0b00, A := 0, B := 0, C := 0, D := 0 }
  if (l = 0 ∧ x = 0 ∧ y = 0) ∨ R1 then movementPacket
  else
    let movementPacket :=
      if l < 0 then { movementPacket with C := 0b1 }
      else if l > 0 then { movementPacket with D := 0b1 }
      else movementPacket
    let movementPacket := if R2Value ≥ 128 then { movementPacket with B := 0b1 } else movementPacket
    if x = 0 ∧ y = 0 then { movementPacket with A := BitVec.ofNat 3 0b1000 }
    else
      let movementPacket := if x > 0 then { movementPacket with A := movementPacket.A ||| 0b100 } else movementPacket
      { movementPacket with A := movementPacket.A ||| BitVec.ofNat 3 (3 - y / 43) }

theorem makeMovementPacket_packetOf (s : Sample) : makeMovementPacket s =
    packetOf (deadZone s.LStickY) (deadZone s.RStickX)
      (if 10 ≤ s.RStickY.toInt.natAbs then s.RStickY.toInt.natAbs % 256 else 0) s.R1 s.R2Value := rfl

section Packet

variable {seen : List Sample} {s : Sample} {l x v : Int} {y : Nat} {R1 : Bool} {R2Value : UInt8} {packet : TPacket}

theorem packetOf_settled (hl : Reads l s.LStickY) (hx : Reads x s.RStickX) (hv : Reads v s.RStickY) :
    packetOf l x (v.natAbs % 256) s.R1 s.R2Value = makeMovementPacket s := by
  have hlt := s.RStickY.toInt_lt
  have hle := s.RStickY.le_toInt
  have hbyte : s.RStickY.toInt.natAbs % 256 = s.RStickY.toInt.natAbs := Nat.mod_eq_of_lt (by omega)
  have hy : v.natAbs = 0 ↔ (if 10 ≤ s.RStickY.toInt.natAbs then s.RStickY.toInt.natAbs else 0) = 0 := by
    rw [Int.natAbs_eq_zero, hv.zero]
    split <;> omega
  rw [makeMovementPacket_packetOf, hbyte, Nat.mod_eq_of_lt hv.small]
  unfold packetOf
  simp only [hy, hv.third, hl.zero, hl.neg, hl.pos, hx.zero, hx.pos, gt_iff_lt, deadZone_eq_zero, deadZone_neg,
    deadZone_pos]

theorem makeMovementPacket_settles (h : Loop.makeMovementPacket.Sees seen packet) :
    ∃ s, packet = makeMovementPacket s ∧ AxisSeen Sample.LStickY seen s.LStickY ∧
      AxisSeen Sample.RStickX seen s.RStickX ∧ AxisSeen Sample.RStickY seen s.RStickY ∧
      (∃ a ∈ seen, s.R2Value = a.R2Value) ∧ ∃ a ∈ seen, s.R1 = a.R1 := by
  obtain ⟨l, first, _, rfl, hl, h⟩ := Prog.sees_bind.mp h
  obtain ⟨x, second, _, rfl, hx, h⟩ := Prog.sees_bind.mp h
  obtain ⟨v, third, rest, rfl, hv, h⟩ := Prog.sees_bind.mp h
  obtain ⟨p, hp, hlp⟩ := deadZone_settles hl
  obtain ⟨q, hq, hxq⟩ := deadZone_settles hx
  obtain ⟨r, hr, hvr⟩ := deadZone_settles hv
  obtain ⟨z, hz, _⟩ := id hp
  -- what is not read may be as any sample has it
  suffices ∃ R1 R2Value, packet = packetOf l x (v.natAbs % 256) R1 R2Value ∧ (∃ a ∈ z :: rest, R1 = a.R1) ∧
      ∃ a ∈ z :: rest, R2Value = a.R2Value by
    obtain ⟨R1, R2Value, rfl, ⟨a, ha, hR1⟩, b, hb, hR2⟩ := this
    have hin : ∀ c ∈ z :: rest, c ∈ first ++ (second ++ (third ++ rest)) := by
      intro c hc
      rcases List.mem_cons.mp hc with rfl | hc
      · simp [hz]
      · simp [hc]
    refine ⟨⟨true, p, q, r, R2Value, R1, false⟩,
      packetOf_settled (s := ⟨true, p, q, r, R2Value, R1, false⟩) hlp hxq hvr, ?_, ?_, ?_, ?_, ?_⟩
    · exact hp.mono fun c hc => by simp [hc]
    · exact hq.mono fun c hc => by simp [hc]
    · exact hr.mono fun c hc => by simp [hc]
    · exact ⟨b, hin b hb, hR2⟩
    · exact ⟨a, hin a ha, hR1⟩
  obtain ⟨stop, tested, last, rfl, hstop, h⟩ := Prog.sees_bind.mp h
  by_cases hc : l = 0 ∧ x = 0 ∧ v.natAbs % 256 = 0
  · rw [if_pos hc] at hstop
    obtain ⟨rfl, rfl⟩ := Prog.sees_pure.mp hstop
    obtain ⟨rfl, rfl⟩ := Prog.sees_pure.mp h
    refine ⟨z.R1, z.R2Value, ?_, ⟨z, .head _, rfl⟩, z, .head _, rfl⟩
    rw [packetOf, if_pos (.inl hc)]
  rw [if_neg hc] at hstop
  obtain ⟨a, rfl, rfl⟩ := Prog.sees_read.mp hstop
  cases hR1 : a.R1 with
  | true =>
    rw [hR1] at h
    obtain ⟨rfl, rfl⟩ := Prog.sees_pure.mp h
    refine ⟨true, z.R2Value, ?_, ⟨a, by simp, hR1.symm⟩, z, .head _, rfl⟩
    rw [packetOf, if_pos (.inr rfl)]
  | false =>
    rw [hR1] at h
    obtain ⟨R2Value, _, _, rfl, hR2, h⟩ := Prog.sees_bind.mp h
    obtain ⟨b, rfl, rfl⟩ := Prog.sees_read.mp hR2
    refine ⟨false, b.R2Value, ?_, ⟨a, by simp, hR1.symm⟩, b, by simp, rfl⟩
    rw [packetOf, if_neg (by simpa using hc)]
    by_cases hturn : x = 0 ∧ v.natAbs % 256 = 0
    · simp only [if_pos hturn] at h
      obtain ⟨rfl, rfl⟩ := Prog.sees_pure.mp h
      exact (if_pos hturn).symm
    · simp only [if_neg hturn] at h
      obtain ⟨rfl, rfl⟩ := Prog.sees_pure.mp h
      exact (if_neg hturn).symm

end Packet

/-! ## One call -/

theorem deadZone_atOnce (axis : Sample → Int8) (s : Sample) : (Loop.deadZone axis).atOnce s = deadZone (axis s) := by
  simp only [Loop.deadZone, Prog.atOnce_bind, Prog.atOnce_ite, Prog.atOnce_pure]
  rfl

theorem makeMovementPacket_atOnce (s : Sample) : Loop.makeMovementPacket.atOnce s = makeMovementPacket s := by
  have hy : (deadZone s.RStickY).natAbs % 256 =
      if 10 ≤ s.RStickY.toInt.natAbs then s.RStickY.toInt.natAbs % 256 else 0 := by
    unfold deadZone
    split <;> rfl
  simp only [Loop.makeMovementPacket, Prog.atOnce_bind, Prog.atOnce_ite, Prog.atOnce_pure, deadZone_atOnce]
  simp only [Prog.atOnce_read]
  rw [makeMovementPacket_packetOf, ← hy, packetOf]
  by_cases hc : deadZone s.LStickY = 0 ∧ deadZone s.RStickX = 0 ∧ (deadZone s.RStickY).natAbs % 256 = 0
  · exact (if_pos (if_pos hc)).trans (if_pos (.inl hc)).symm
  by_cases hR1 : s.R1 = true
  · exact (if_pos ((if_neg hc).trans hR1)).trans (if_pos (.inr hR1)).symm
  · have hgo : ¬ (if deadZone s.LStickY = 0 ∧ deadZone s.RStickX = 0 ∧ (deadZone s.RStickY).natAbs % 256 = 0 then true
        else s.R1) = true := by rwa [if_neg hc]
    refine (if_neg hgo).trans (Eq.trans ?_ (if_neg (by simp [hc, hR1])).symm)
    rfl

theorem controlFunction_atOnce (prevPacket : TPacket) (s : Sample) (D : BitVec 1) :
    (Loop.controlFunction prevPacket D).atOnce s = controlFunction prevPacket s D := by
  simp only [Loop.controlFunction, Prog.atOnce_bind, Prog.atOnce_ite, Prog.atOnce_pure, makeMovementPacket_atOnce]
  rfl

section Call

variable {prevPacket : TPacket} {D : BitVec 1} {seen : List Sample} {out : TPacket × Option (BitVec 8)}

theorem call_settles (h : (Loop.controlFunction prevPacket D).Sees seen out) :
    ∃ s, Settled seen s ∧ out = controlFunction prevPacket s D := by
  obtain ⟨isConnected, _, rest, rfl, hconn, h⟩ := Prog.sees_bind.mp h
  obtain ⟨x, rfl, rfl⟩ := Prog.sees_read.mp hconn
  -- an axis that is not read may be where `x` has it
  have hx : ∀ axis, AxisSeen axis ([x] ++ rest) (settle (axis x) (axis x)) :=
    fun _ => ⟨x, .head _, x, .head _, rfl⟩
  cases hc : x.isConnected with
  | false =>
    rw [hc] at h
    obtain ⟨rfl, rfl⟩ := Prog.sees_pure.mp h
    refine ⟨⟨false, _, _, _, x.R2Value, x.R1, x.Square⟩, ⟨⟨x, .head _, hc.symm⟩, hx _, hx _, hx _, ?_, ?_, ?_⟩, rfl⟩
    all_goals exact ⟨x, .head _, rfl⟩
  | true =>
    rw [hc] at h
    obtain ⟨Square, _, rest, rfl, hsq, h⟩ := Prog.sees_bind.mp h
    obtain ⟨y, rfl, rfl⟩ := Prog.sees_read.mp hsq
    obtain ⟨packetToSend, made, last, rfl, hmade, h⟩ := Prog.sees_bind.mp h
    have hout : out = if !checkPacket prevPacket packetToSend then (packetToSend, some (sendPacket packetToSend))
        else (prevPacket, none) := by
      split at h
      · rename_i hk
        rw [if_pos hk]
        exact (Prog.sees_pure.mp h).2
      · rename_i hk
        rw [if_neg hk]
        exact (Prog.sees_pure.mp h).2
    have hy : ∃ z ∈ [x] ++ ([y] ++ (made ++ last)), y.Square = z.Square := ⟨y, by simp, rfl⟩
    cases hSquare : y.Square with
    | true =>
      rw [hSquare] at hmade hy
      obtain ⟨rfl, rfl⟩ := Prog.sees_pure.mp hmade
      refine ⟨⟨true, _, _, _, x.R2Value, x.R1, true⟩, ⟨⟨x, .head _, hc.symm⟩, hx _, hx _, hx _, ?_, ?_, hy⟩, hout⟩
      all_goals exact ⟨x, .head _, rfl⟩
    | false =>
      rw [hSquare] at hmade hy
      obtain ⟨s, rfl, hl, hx', hr, ⟨a, ha, hR2⟩, b, hb, hR1⟩ := makeMovementPacket_settles hmade
      have hin : ∀ c ∈ made, c ∈ [x] ++ ([y] ++ (made ++ last)) := fun c hc => by simp [hc]
      exact ⟨{ s with isConnected := true, Square := false },
        ⟨⟨x, .head _, hc.symm⟩, hl.mono hin, hx'.mono hin, hr.mono hin, ⟨a, hin a ha, hR2⟩, ⟨b, hin b hb, hR1⟩, hy⟩, hout⟩

theorem call_still {s : Sample} (h : (Loop.controlFunction prevPacket D).Sees seen out) (hs : ∀ x ∈ seen, x = s) :
    out = controlFunction prevPacket s D := (h.at_once hs).trans (controlFunction_atOnce prevPacket s D)

/-- Whatever the Bluetooth task stores while `controlFunction` runs, it does what it does for
    one sample; for the very one it saw, when it saw one only. -/
theorem controlFunction_settled (h : (Loop.controlFunction prevPacket D).Sees seen out) :
    (∃ s, Settled seen s ∧ out = controlFunction prevPacket s D) ∧
    ∀ s, (∀ x ∈ seen, x = s) → out = controlFunction prevPacket s D :=
  ⟨call_settles h, fun _ hs => call_still h hs⟩

/-- The left stick is tested well forward and read just behind the centre: the packet says
    reverse, as for one sample with the stick well back. -/
theorem controlFunction_settled_torn :
    let ahead : Sample := ⟨true, 100, 0, 0, 0, false, false⟩
    let behind : Sample := ⟨true, -3, 0, 0, 0, false, false⟩
    let seen := List.replicate 3 ahead ++ List.replicate 5 behind
    ∃ s, Settled seen s ∧ (⟨0, 0, 1, 0, 0⟩, some 0x10) = controlFunction initPacket s 0 :=
  (controlFunction_settled (Prog.sees_of_feed rfl)).1

end Call

end RobotCar.Sender
