/-
  RobotCar.Lib.Stores — a routine as the list of its atomic stores. `after` is the state
  when it returns; `points` is every state on the way, so that what holds between two
  consecutive stores can be stated. Calls made one after another are the stores of one
  longer routine. A part of the state that some stores overwrite and the others leave is
  what the last of these left in it (`last_write`).
-/

namespace RobotCar.Lib.Stores

variable {σ α β : Type} (put : σ → α → σ)

def after (s : σ) (ws : List α) : σ := ws.foldl put s

/-- The state before the first store and the one after each. -/
def points : σ → List α → List σ
  | s, [] => [s]
  | s, w :: ws => s :: points (put s w) ws

variable {put} {s : σ} {w : α} {ws vs : List α}

@[simp] theorem after_nil : after put s [] = s := rfl
@[simp] theorem after_cons : after put s (w :: ws) = after put (put s w) ws := rfl

/-- The points of two routines in a row are those of the first and, from where it ends,
    those of the second. -/
theorem mem_points_append {u : σ} :
    u ∈ points put s (vs ++ ws) ↔ u ∈ points put s vs ∨ u ∈ points put (after put s vs) ws := by
  induction vs generalizing s with
  | nil =>
    cases ws with
    | nil => simp [points]
    | cons w ws => simp +contextual [points]
  | cons v vs ih => simp [points, ih, or_assoc]

theorem start_mem_points : s ∈ points put s ws := by
  cases ws with
  | nil => simp [points]
  | cons w ws => simp [points]

/-- Some first stores of a routine lead to one of its points. -/
theorem after_mem_points : after put s vs ∈ points put s (vs ++ ws) :=
  mem_points_append.mpr (.inr start_mem_points)

theorem last_write {ω : Type} (view : σ → ω) {writes : α → Bool} {value : α → ω}
    (hset : ∀ s w, writes w = true → view (put s w) = value w)
    (hkeep : ∀ s w, writes w = false → view (put s w) = view s) :
    view (after put s ws) = ((ws.filter writes).getLast?.map value).getD (view s) := by
  induction ws generalizing s with
  | nil => rfl
  | cons w ws ih =>
    rw [after_cons, ih]
    cases hw : writes w with
    | false => rw [List.filter_cons_of_neg (by simp [hw]), hkeep s w hw]
    | true =>
      rw [List.filter_cons_of_pos hw, List.getLast?_cons, hset s w hw]
      cases (ws.filter writes).getLast? <;> rfl

end RobotCar.Lib.Stores
