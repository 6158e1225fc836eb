/-
  RobotCar.Lib.Edges — a signal that is looked at again and again, and the changes seen.

  - `edges_chain`: no change is reported twice in a row, and the first is away from where
    the signal stood.
  - `edges_last`: the last change says where the signal stands.
  - `edges_count`: of a two-valued signal the rises and the falls balance, up to where it
    started and where it stands.
-/

import Mathlib.Data.List.Chain

namespace RobotCar.Lib.Edges

section Signal

variable {α : Type} [DecidableEq α]

/-- The new level, if it is not the old one. -/
def edge (prev cur : α) : Option α := if prev = cur then none else some cur

def edges : α → List α → List α
  | _, [] => []
  | prev, cur :: rest => (edge prev cur).toList ++ edges cur rest

variable {a : α} {as : List α}

theorem edges_chain : (a :: edges a as).IsChain (· ≠ ·) := by
  induction as generalizing a with
  | nil => exact .singleton a
  | cons b as ih =>
    simp only [edges, edge]
    split
    · rename_i hab
      subst hab
      exact ih
    · rename_i hab
      exact .cons_cons hab ih

theorem edges_last : (a :: edges a as).getLast? = (a :: as).getLast? := by
  induction as generalizing a with
  | nil => rfl
  | cons b as ih =>
    rw [List.getLast?_cons_cons, ← ih]
    simp only [edges, edge]
    split
    · rename_i hab
      subst hab
      rfl
    · exact List.getLast?_cons_cons

theorem edges_snoc {b : α} : edges a (as ++ [b]) = edges a as ++ (edge (as.getLastD a) b).toList := by
  induction as generalizing a with
  | nil => simp [edges]
  | cons c as ih =>
    rw [List.cons_append, edges, ih, edges, List.append_assoc, List.getLastD_cons]

end Signal

theorem edges_count (b : Bool) (bs : List Bool) :
    (edges b bs).count true + b.toNat = (edges b bs).count false + (bs.getLastD b).toNat := by
  induction bs generalizing b with
  | nil => simp [edges]
  | cons c bs ih =>
    have hrest := ih c
    simp only [edges, List.count_append, List.getLastD_cons]
    cases b <;> cases c <;> simp [edge] at hrest ⊢ <;> omega

end RobotCar.Lib.Edges
