/-
  RobotCar.Lib.Ring — a bounded first-in first-out queue and its ring buffer. `push` and
  `pop` are the queue, on a list with the oldest element first. The ring keeps the same
  elements in `n` slots, from slot `head` on and round the end, with `tail` the next slot
  to write and `count` the number of elements.

  - `Rep`: the ring that holds a given list.
  - `Rep.start`, `Rep.push`, `Rep.pop`: writing at `tail` and reading at `head`, with both
    indices counted on modulo `n`, are the queue's operations.
-/

import Mathlib.Data.Nat.ModEq
import Mathlib.Logic.Function.Basic

namespace RobotCar.Lib.Ring

variable {α : Type}

/-! ## The queue -/

/-- Whether there was room, and the queue after. -/
def push (n : Nat) (xs : List α) (b : α) : Bool × List α := if xs.length < n then (true, xs ++ [b]) else (false, xs)

def pop : List α → Option α × List α
  | [] => (none, [])
  | b :: xs => (some b, xs)

/-! ## The ring -/

/-- The elements, oldest first. -/
def live (n : Nat) (buf : Nat → α) (head count : Nat) : List α := (List.range count).map fun k => buf ((head + k) % n)

variable {n : Nat} {buf : Nat → α} {head tail count : Nat} {xs : List α} {b : α}

/-- Fewer than `n` slots on from `head`, no two are the same. -/
theorem slot_ne {i j : Nat} (hi : i < j) (hj : j < n) : (head + i) % n ≠ (head + j) % n := by
  intro h
  have hij : i ≡ j [MOD n] := Nat.ModEq.add_left_cancel' head h
  have := hij.eq_of_lt_of_lt (Nat.lt_trans hi hj) hj
  omega

theorem live_push (h : count < n) :
    live n (Function.update buf ((head + count) % n) b) head (count + 1) = live n buf head count ++ [b] := by
  unfold live
  rw [List.range_succ, List.map_append, List.map_singleton, Function.update_self]
  congr 1
  apply List.map_congr_left
  intro k hk
  exact Function.update_of_ne (slot_ne (List.mem_range.mp hk) h) _ _

theorem live_pop : live n buf head (count + 1) = buf (head % n) :: live n buf ((head + 1) % n) count := by
  unfold live
  rw [List.range_succ_eq_map, List.map_cons, List.map_map]
  congr 1
  apply List.map_congr_left
  intro k _
  show buf ((head + (k + 1)) % n) = buf (((head + 1) % n + k) % n)
  rw [Nat.mod_add_mod]
  congr 2
  omega

structure Rep (n : Nat) (buf : Nat → α) (head tail count : Nat) (xs : List α) : Prop where
  head_lt : head < n
  tail_eq : tail = (head + count) % n
  count_eq : count = xs.length
  count_le : count ≤ n
  live_eq : live n buf head count = xs

namespace Rep

theorem start (h : 0 < n) : Rep n buf 0 0 0 [] := ⟨h, rfl, rfl, Nat.zero_le n, rfl⟩

theorem tail_lt (h : Rep n buf head tail count xs) : tail < n := by
  rw [h.tail_eq]
  exact Nat.mod_lt _ (Nat.lt_of_le_of_lt (Nat.zero_le _) h.head_lt)

theorem push (h : Rep n buf head tail count xs) (hroom : count < n) (b : α) :
    Rep n (Function.update buf tail b) head ((tail + 1) % n) (count + 1) (xs ++ [b]) := by
  refine ⟨h.head_lt, ?_, ?_, hroom, ?_⟩
  · rw [h.tail_eq, Nat.mod_add_mod, Nat.add_assoc]
  · rw [List.length_append, ← h.count_eq]
    rfl
  · rw [h.tail_eq, live_push hroom, h.live_eq]

theorem pop (h : Rep n buf head tail count (b :: xs)) :
    buf head = b ∧ Rep n buf ((head + 1) % n) tail (count - 1) xs := by
  obtain ⟨hhead, htail, hcount, hle, hlive⟩ := h
  rw [List.length_cons] at hcount
  subst hcount
  rw [live_pop, Nat.mod_eq_of_lt hhead, List.cons.injEq] at hlive
  refine ⟨hlive.1, Nat.mod_lt _ (by omega), ?_, rfl, by omega, hlive.2⟩
  rw [htail, Nat.mod_add_mod]
  congr 1
  omega

end Rep

end RobotCar.Lib.Ring
