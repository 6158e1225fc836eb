/-
  RobotCar.Queue.Circular — the ring buffer of bytes (circularQueue.h). The indices and the
  count are `uint8_t`: sums are computed in `int` and the store drops the high bits.

  `Holds q xs`: the queue holds the bytes `xs`, oldest first (`Lib.Ring`).
  - `init_holds`, `enqueue_holds`, `dequeue_holds`: what each operation makes of them.
-/

import RobotCar.Lib.Ring

namespace RobotCar.Queue

open RobotCar.Lib

abbrev QUEUE_SIZE : Nat := 16

structure Queue_t where
  buffer : Vector (BitVec 8) QUEUE_SIZE
  head : BitVec 8
  tail : BitVec 8
  count : BitVec 8
  deriving DecidableEq, Repr

/-- `q->buffer[i]`; both indices of a queue that was set up stay below `QUEUE_SIZE`. -/
def Queue_t.get (q : Queue_t) (i : Nat) : BitVec 8 := q.buffer[i]?.getD 0

def Q_Init (q : Queue_t) : Queue_t := { q with head := 0, tail := 0, count := 0 }

def Q_Full (q : Queue_t) : Bool := q.count.toNat == QUEUE_SIZE

def Q_Empty (q : Queue_t) : Bool := q.count.toNat == 0

def Q_Enqueue (q : Queue_t) (data : BitVec 8) : Bool × Queue_t :=
  if Q_Full q then (false, q)
  else (true, { q with
    buffer := q.buffer.setIfInBounds q.tail.toNat data
    tail := BitVec.ofNat 8 ((q.tail.toNat + 1) % QUEUE_SIZE)
    count := q.count + 1 })

/-- `data` is the byte the caller's pointer points to. -/
def Q_Dequeue (q : Queue_t) (data : BitVec 8) : Bool × Queue_t × BitVec 8 :=
  if Q_Empty q then (false, q, data)
  else (true, { q with
    head := BitVec.ofNat 8 ((q.head.toNat + 1) % QUEUE_SIZE)
    count := q.count - 1 }, q.get q.head.toNat)

/-! ## The bytes a queue holds -/

def Holds (q : Queue_t) (xs : List (BitVec 8)) : Prop :=
  Ring.Rep QUEUE_SIZE q.get q.head.toNat q.tail.toNat q.count.toNat xs

/-- The bytes stored, oldest first. -/
def stored (q : Queue_t) : List (BitVec 8) := Ring.live QUEUE_SIZE q.get q.head.toNat q.count.toNat

/-- An index counted on modulo `QUEUE_SIZE` fits its byte. -/
theorem next_toNat (i : BitVec 8) : (BitVec.ofNat 8 ((i.toNat + 1) % QUEUE_SIZE)).toNat = (i.toNat + 1) % QUEUE_SIZE := by
  have hlt : (i.toNat + 1) % QUEUE_SIZE < QUEUE_SIZE := Nat.mod_lt _ (by decide)
  rw [BitVec.toNat_ofNat]
  exact Nat.mod_eq_of_lt (Nat.lt_trans hlt (by decide))

theorem init_holds (q : Queue_t) : Holds (Q_Init q) [] := Ring.Rep.start (by decide)

section Holds

variable {q : Queue_t} {xs : List (BitVec 8)} {b : BitVec 8}

theorem Holds.full (h : Holds q xs) : Q_Full q = decide (xs.length = QUEUE_SIZE) := by
  rw [Q_Full, h.count_eq]
  rfl

theorem Holds.empty (h : Holds q xs) : Q_Empty q = xs.isEmpty := by
  rw [Q_Empty, h.count_eq]
  cases xs with
  | nil => rfl
  | cons b xs => rfl

theorem get_set {i : Nat} (hi : i < QUEUE_SIZE) (t : BitVec 8) (c : BitVec 8) :
    ({ q with buffer := q.buffer.setIfInBounds i b, tail := t, count := c } : Queue_t).get = Function.update q.get i b := by
  funext k
  unfold Queue_t.get
  by_cases hk : k = i
  · subst hk
    simp [hi]
  · simp [Function.update_of_ne hk, Ne.symm hk]

theorem enqueue_holds (h : Holds q xs) (b : BitVec 8) :
    (Q_Enqueue q b).1 = (Ring.push QUEUE_SIZE xs b).1 ∧ Holds (Q_Enqueue q b).2 (Ring.push QUEUE_SIZE xs b).2 := by
  have hle := h.count_le
  have hcount := h.count_eq
  unfold Q_Enqueue Ring.push
  by_cases hroom : xs.length < QUEUE_SIZE
  · rw [if_pos hroom, h.full, if_neg (by simp; omega)]
    refine ⟨rfl, ?_⟩
    have hpush := Ring.Rep.push h (hcount ▸ hroom) b
    have hsucc : (q.count + 1).toNat = q.count.toNat + 1 := by
      rw [BitVec.toNat_add]
      simp only [QUEUE_SIZE] at hroom
      simp
      omega
    unfold Holds
    simp only
    rw [get_set h.tail_lt, next_toNat, hsucc]
    exact hpush
  · rw [if_neg hroom, h.full, if_pos (by simp; omega)]
    exact ⟨rfl, h⟩

theorem dequeue_empty (h : Holds q []) (d : BitVec 8) : Q_Dequeue q d = (false, q, d) := by
  rw [Q_Dequeue, h.empty]
  rfl

theorem dequeue_holds (h : Holds q (b :: xs)) (d : BitVec 8) :
    (Q_Dequeue q d).1 = true ∧ (Q_Dequeue q d).2.2 = b ∧ Holds (Q_Dequeue q d).2.1 xs := by
  have hcount := h.count_eq
  rw [List.length_cons] at hcount
  obtain ⟨hget, hpop⟩ := Ring.Rep.pop h
  rw [Q_Dequeue, h.empty]
  refine ⟨rfl, hget, ?_⟩
  show Ring.Rep QUEUE_SIZE q.get (BitVec.ofNat 8 ((q.head.toNat + 1) % QUEUE_SIZE)).toNat q.tail.toNat (q.count - 1).toNat xs
  have hpred : (q.count - 1).toNat = q.count.toNat - 1 := by
    rw [BitVec.toNat_sub]
    simp
    omega
  rw [next_toNat, hpred]
  exact hpop

end Holds

end RobotCar.Queue
