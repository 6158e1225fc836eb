/-
  RobotCar.Lib.Semaphore — counting semaphores with a maximum. The bound is part of the
  type, so no semaphore holds more than its maximum; a release at the maximum leaves it
  as it was, an acquire without a token is not enabled.
-/

namespace RobotCar.Lib

structure Semaphore (max : Nat) where
  count : Nat
  count_le : count ≤ max
  deriving DecidableEq

namespace Semaphore

variable {max : Nat}

def release (s : Semaphore max) : Semaphore max :=
  if h : s.count < max then ⟨s.count + 1, h⟩ else s

def acquire (s : Semaphore max) : Option (Semaphore max) :=
  if 0 < s.count then some ⟨s.count - 1, Nat.le_trans (Nat.sub_le _ _) s.count_le⟩ else none

@[ext] theorem ext {s t : Semaphore max} (h : s.count = t.count) : s = t := by
  cases s
  cases t
  simpa using h

theorem acquire_eq_some {s t : Semaphore max} : s.acquire = some t ↔ s.count = t.count + 1 := by
  unfold acquire
  split
  · rw [Option.some.injEq, Semaphore.ext_iff]
    simp only
    omega
  · simp
    omega

/-! ## Binary semaphores -/

def empty : Semaphore 1 := ⟨0, by decide⟩
def full : Semaphore 1 := ⟨1, by decide⟩

theorem binary (s : Semaphore 1) : s = empty ∨ s = full := by
  have := s.count_le
  rcases (by omega : s.count = 0 ∨ s.count = 1) with h | h
  · exact Or.inl (ext h)
  · exact Or.inr (ext h)

/-- Released, a binary semaphore is full, whether it was or not. -/
@[simp] theorem release_binary (s : Semaphore 1) : s.release = full := by
  rcases s.binary with rfl | rfl <;> rfl

/-- A binary semaphore's acquire takes its one token. -/
theorem acquire_binary {s t : Semaphore 1} : s.acquire = some t ↔ s = full ∧ t = empty := by
  rw [acquire_eq_some, Semaphore.ext_iff, Semaphore.ext_iff]
  have := s.count_le
  simp only [full, empty]
  omega

end Semaphore

end RobotCar.Lib
