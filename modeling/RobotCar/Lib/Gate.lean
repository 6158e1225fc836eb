/-
  RobotCar.Lib.Gate — a gate that its first visitor opens. An item that finds the gate shut
  opens it and is spent on that; the items after it pass, until the gate is shut again.

  What the gate does can be read off the history of items and shuttings:
  - `isOpen_iff`: it is open exactly when the last thing to happen was an item.
  - `held_eq`: the items that pass are those that come right after another; the gate
    remembers the last one.
-/

import RobotCar.Lib.Machine

namespace RobotCar.Lib.Gate

variable {α : Type}

inductive Ev (α : Type) where
  | item (a : α)
  | shut

structure St (α : Type) where
  isOpen : Bool
  /-- The item that passed last. -/
  held : Option α

def step (s : St α) : Ev α → St α
  | .item a => if s.isOpen then { s with held := some a } else { s with isOpen := true }
  | .shut => { s with isOpen := false }

def gate (α : Type) : Machine (St α) (Ev α) := ⟨⟨false, none⟩, fun s e => some (step s e)⟩

def Ev.item? : Ev α → Option α
  | .item a => some a
  | .shut => none

/-! ## The history -/

section History

variable (es : List (Ev α))

def items : List α := es.filterMap Ev.item?

/-- Every event with the one right before it. -/
def before : List (Option (Ev α) × Ev α) := (none :: es.map some).zip es

/-- The items with an item right before them. -/
def passed : List α := (before es).filterMap fun p => if (p.1.bind Ev.item?).isSome then p.2.item? else none

/-- For each item an answer, `x` if it passes and `y` if it opens the gate. -/
def answers {β : Type} (x y : β) : List β :=
  (before es).filterMap fun p => p.2.item?.map fun _ => if (p.1.bind Ev.item?).isSome then x else y

end History

section Snoc

variable {es : List (Ev α)} {e : Ev α}

theorem before_snoc : before (es ++ [e]) = before es ++ [(es.getLast?, e)] := by
  suffices ∀ p : Option (Ev α), (p :: (es ++ [e]).map some).zip (es ++ [e]) =
      (p :: es.map some).zip es ++ [((es.getLast?.map some).getD p, e)] by
    have hnone := this none
    rw [before, before, hnone]
    cases es.getLast? <;> rfl
  induction es with
  | nil =>
    intro p
    rfl
  | cons a es ih =>
    intro p
    have htail := ih (some a)
    simp only [List.cons_append, List.map_cons, List.zip_cons_cons] at htail ⊢
    rw [htail, List.getLast?_cons]
    cases es.getLast? <;> rfl

theorem passed_snoc : passed (es ++ [e]) =
    passed es ++ (if (es.getLast?.bind Ev.item?).isSome then e.item? else none).toList := by
  rw [passed, before_snoc, List.filterMap_append, ← passed]
  congr 1

theorem answers_snoc {β : Type} {x y : β} : answers (es ++ [e]) x y =
    answers es x y ++ (e.item?.map fun _ => if (es.getLast?.bind Ev.item?).isSome then x else y).toList := by
  rw [answers, before_snoc, List.filterMap_append, ← answers]
  congr 1

end Snoc

theorem mem_answers {β : Type} {x y z : β} {es : List (Ev α)} (h : z ∈ answers es x y) : z = x ∨ z = y := by
  obtain ⟨p, _, hp⟩ := List.mem_filterMap.mp h
  obtain ⟨a, _, hz⟩ := Option.map_eq_some_iff.mp hp
  split at hz
  · exact .inl hz.symm
  · exact .inr hz.symm

/-! ## The gate and its history -/

section Run

variable {s t : St α} {es : List (Ev α)}

theorem isOpen_eq (h : (gate α).Run es s) : s.isOpen = (es.getLast?.bind Ev.item?).isSome := by
  refine Machine.run_induction (P := fun es s => s.isOpen = (es.getLast?.bind Ev.item?).isSome) rfl ?_ h
  intro es s e t _ _ he
  cases he
  rw [List.getLast?_concat]
  cases e with
  | item a =>
    show (if s.isOpen = true then { s with held := some a } else { s with isOpen := true }).isOpen = true
    split
    · assumption
    · rfl
  | shut => rfl

theorem isOpen_iff (h : (gate α).Run es s) : s.isOpen = true ↔ ∃ a, es.getLast? = some (.item a) := by
  rw [isOpen_eq h]
  cases hl : es.getLast? with
  | none => simp
  | some e => cases e <;> simp [Ev.item?]

theorem held_eq (h : (gate α).Run es s) : s.held = (passed es).getLast? := by
  refine Machine.run_induction (P := fun es s => s.held = (passed es).getLast?) rfl ?_ h
  intro es s e t hrun ih he
  rw [passed_snoc, ← isOpen_eq hrun, List.getLast?_append, ← ih]
  cases he
  cases e with
  | item a =>
    simp only [step]
    split <;> simp [Ev.item?]
  | shut =>
    simp only [step]
    split <;> simp [Ev.item?]

end Run

end RobotCar.Lib.Gate
