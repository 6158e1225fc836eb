/-
  RobotCar.Queue.Fetch — `fetchData` (fetchData.h): the oldest byte of the ring buffer as a
  packet of one 2-bit and six 1-bit fields. It takes the byte without asking whether
  there is one, and masks the lowest bit with 0.

  - `fetchData_queue`: on a queue that is not empty it leaves the queue as `Q_Dequeue` does.
  - `unpack_value`: the packet carries the byte without its lowest bit.
-/

import RobotCar.Queue.Circular

namespace RobotCar.Queue

structure TPacket where
  OP : BitVec 2
  A : BitVec 1
  B : BitVec 1
  C : BitVec 1
  D : BitVec 1
  E : BitVec 1
  F : BitVec 1
  deriving DecidableEq, Repr

def unpack (raw_data : BitVec 8) : TPacket where
  OP := ((raw_data >>> 6) &&& 0b11).setWidth 2
  A := ((raw_data >>> 5) &&& 0b01).setWidth 1
  B := ((raw_data >>> 4) &&& 0b01).setWidth 1
  C := ((raw_data >>> 3) &&& 0b01).setWidth 1
  D := ((raw_data >>> 2) &&& 0b01).setWidth 1
  E := ((raw_data >>> 1) &&& 0b01).setWidth 1
  F := (raw_data &&& 0b00).setWidth 1

def fetchData (q : Queue_t) : Queue_t × TPacket :=
  ({ q with head := BitVec.ofNat 8 ((q.head.toNat + 1) % QUEUE_SIZE), count := q.count - 1 }, unpack (q.get q.head.toNat))

/-- The byte whose fields, from the highest bits down, are those of the packet. -/
def TPacket.value (p : TPacket) : Nat :=
  p.OP.toNat * 64 + p.A.toNat * 32 + p.B.toNat * 16 + p.C.toNat * 8 + p.D.toNat * 4 + p.E.toNat * 2 + p.F.toNat

theorem unpack_value (b : BitVec 8) : (unpack b).value = b.toNat - b.toNat % 2 := by
  revert b
  decide +kernel

section Fetch

variable {q : Queue_t}

theorem fetchData_queue (h : Q_Empty q = false) (data : BitVec 8) : (fetchData q).1 = (Q_Dequeue q data).2.1 := by
  rw [Q_Dequeue, h]
  rfl

theorem fetchData_packet (h : Q_Empty q = false) (data : BitVec 8) : (fetchData q).2 = unpack (Q_Dequeue q data).2.2 := by
  rw [Q_Dequeue, h]
  rfl

/-- The packet is the whole byte exactly when the byte is even. -/
theorem fetchData_lossless (h : Q_Empty q = false) (data : BitVec 8) :
    ((fetchData q).1 = (Q_Dequeue q data).2.1 ∧ (fetchData q).2.value = (Q_Dequeue q data).2.2.toNat) ↔
      (q.get q.head.toNat).toNat % 2 = 0 := by
  have hbyte : (Q_Dequeue q data).2.2 = q.get q.head.toNat := by
    rw [Q_Dequeue, h]
    rfl
  rw [and_iff_right (fetchData_queue h data), fetchData_packet h data, unpack_value, hbyte]
  omega

/-- The byte 0xB2, stored alone. -/
theorem fetchData_lossless_even :
    (fetchData (Q_Enqueue (Q_Init ⟨Vector.replicate 16 0, 0, 0, 0⟩) 0xB2).2).2.value = 0xB2 :=
  ((fetchData_lossless (q := (Q_Enqueue (Q_Init ⟨Vector.replicate 16 0, 0, 0, 0⟩) 0xB2).2) rfl 0).mpr rfl).2

end Fetch

end RobotCar.Queue
