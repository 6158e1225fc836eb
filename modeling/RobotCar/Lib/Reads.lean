/-
  RobotCar.Lib.Reads — a program that reads a state which others change while it runs. Each
  `look` sees the state as it is then, so two looks in a row may see two states.

  - `Sees p seen a`: `p` can return `a`, its looks having seen `seen`, in order.
    `sees_bind`: the looks of two programs one after the other are those of both.
  - `Sees.at_once`: a program that sees one state only returns what it computes from it.
  - `Prog.After`: a program part of the way through, with what it has seen so far.
-/

namespace RobotCar.Lib

inductive Prog (σ α : Type) where
  | ret (a : α)
  | look (k : σ → Prog σ α)

namespace Prog

variable {σ α β : Type}

def bind : Prog σ α → (α → Prog σ β) → Prog σ β
  | .ret a, f => f a
  | .look k, f => .look fun s => (k s).bind f

instance : Monad (Prog σ) where
  pure := .ret
  bind := .bind

def read (f : σ → α) : Prog σ α := .look fun s => .ret (f s)

/-- What the program returns when every look sees `s`. -/
def atOnce : Prog σ α → σ → α
  | .ret a, _ => a
  | .look k, s => (k s).atOnce s

inductive Sees : Prog σ α → List σ → α → Prop
  | ret (a : α) : Sees (.ret a) [] a
  | look {k : σ → Prog σ α} {seen : List σ} {a : α} (s : σ) : Sees (k s) seen a → Sees (.look k) (s :: seen) a

/-- Run the program, showing its looks `seen` in order. -/
def feed : Prog σ α → List σ → Option α
  | .ret a, [] => some a
  | .look k, s :: seen => (k s).feed seen
  | _, _ => none

variable {p : Prog σ α} {f : α → Prog σ β} {seen : List σ} {a : α} {b : β} {s : σ}

theorem sees_of_feed (h : p.feed seen = some a) : Sees p seen a := by
  induction p generalizing seen with
  | ret b =>
    cases seen with
    | nil =>
      cases h
      exact .ret _
    | cons s seen => cases h
  | look k ih =>
    cases seen with
    | nil => cases h
    | cons s seen => exact .look s (ih s h)

/-! ## One program after another -/

theorem sees_pure {c : α} : Sees (pure a : Prog σ α) seen c ↔ seen = [] ∧ c = a := by
  constructor
  · intro h
    cases h
    exact ⟨rfl, rfl⟩
  · intro h
    obtain ⟨rfl, rfl⟩ := h
    exact .ret _

theorem sees_read {g : σ → α} : Sees (read g) seen a ↔ ∃ s, seen = [s] ∧ a = g s := by
  constructor
  · intro h
    cases h with
    | look s h =>
      cases h
      exact ⟨s, rfl, rfl⟩
  · intro h
    obtain ⟨s, rfl, rfl⟩ := h
    exact .look s (.ret _)

theorem sees_bind : Sees (p >>= f) seen b ↔ ∃ a first rest, seen = first ++ rest ∧ Sees p first a ∧ Sees (f a) rest b := by
  constructor
  · intro h
    induction p generalizing seen with
    | ret a => exact ⟨a, [], seen, rfl, .ret a, h⟩
    | look k ih =>
      cases h with
      | look s h =>
        obtain ⟨a, first, rest, rfl, hp, hf⟩ := ih s h
        exact ⟨a, s :: first, rest, rfl, .look s hp, hf⟩
  · intro h
    obtain ⟨a, first, rest, rfl, hp, hf⟩ := h
    induction hp with
    | ret a => exact hf
    | look s _ ih => exact .look s (ih hf)

/-! ## All looks at one state -/

@[simp] theorem atOnce_pure : (pure a : Prog σ α).atOnce s = a := rfl

@[simp] theorem atOnce_read {g : σ → α} : (read g).atOnce s = g s := rfl

@[simp] theorem atOnce_bind : (p >>= f).atOnce s = (f (p.atOnce s)).atOnce s := by
  induction p with
  | ret a => rfl
  | look k ih => exact ih s

@[simp] theorem atOnce_ite {c : Prop} [Decidable c] {q : Prog σ α} :
    (if c then p else q).atOnce s = if c then p.atOnce s else q.atOnce s := by
  split <;> rfl

theorem Sees.at_once (h : Sees p seen a) (hs : ∀ x ∈ seen, x = s) : a = p.atOnce s := by
  induction h with
  | ret a => rfl
  | look x _ ih =>
    cases hs x (.head _)
    exact ih fun y hy => hs y (.tail _ hy)

/-! ## Part of the way through -/

/-- `q` is what is left of `p` once its looks have seen `seen`. -/
def After (p : Prog σ α) (seen : List σ) (q : Prog σ α) : Prop := ∀ rest a, Sees q rest a → Sees p (seen ++ rest) a

theorem after_nil : After p [] p := fun _ _ h => h

theorem After.look {k : σ → Prog σ α} (h : After p seen (.look k)) (s : σ) : After p (seen ++ [s]) (k s) := by
  intro rest a hk
  rw [List.append_assoc]
  exact h _ a (.look s hk)

theorem After.ret (h : After p seen (.ret a)) : Sees p seen a := by
  have hret := h [] a (.ret a)
  rwa [List.append_nil] at hret

end Prog

end RobotCar.Lib
