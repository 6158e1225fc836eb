/-
  RobotCar.Lib.Rank — machines that run down. Some events are moves of the system itself,
  some are idle; the rest come from outside. A ranking gives each state a number that every
  move lowers and no idle event raises.

  - `Ranking.kept`: what a ranking assumes holds until an event comes from outside.
  - `Ranking.bounded`: between two events from outside, a schedule makes at most as many
    moves as the rank it starts from.
  - `Ranking.runs_down`: from every state some moves lead to one where no move is enabled.
-/

import RobotCar.Lib.Machine

namespace RobotCar.Lib

structure Ranking {σ ε : Type} (M : Machine σ ε) where
  moves : ε → Bool
  idle : ε → Bool
  inv : σ → Prop
  rank : σ → Nat
  keep : ∀ {s e t}, inv s → moves e = true ∨ idle e = true → M.step s e = some t → inv t
  down : ∀ {s e t}, inv s → moves e = true → M.step s e = some t → rank t < rank s
  stay : ∀ {s e t}, inv s → idle e = true → M.step s e = some t → rank t ≤ rank s

namespace Ranking

variable {σ ε : Type} {M : Machine σ ε} (R : Ranking M) {s t : σ} {es : List ε}

/-- No move is enabled. -/
def Still (s : σ) : Prop := ∀ e, R.moves e = true → M.step s e = none

theorem kept (hi : R.inv s) (h : M.execFrom s es = some t) (he : ∀ e ∈ es, R.moves e = true ∨ R.idle e = true) :
    R.inv t := by
  induction es generalizing s with
  | nil =>
    cases h
    exact hi
  | cons e es ih =>
    obtain ⟨u, hu, h⟩ := Machine.execFrom_cons.mp h
    exact ih (R.keep hi (he e (.head _)) hu) h fun x hx => he x (.tail _ hx)

theorem bounded (hi : R.inv s) (h : M.execFrom s es = some t) (he : ∀ e ∈ es, R.moves e = true ∨ R.idle e = true) :
    es.countP R.moves + R.rank t ≤ R.rank s := by
  induction es generalizing s with
  | nil =>
    cases h
    simp
  | cons e es ih =>
    obtain ⟨u, hu, h⟩ := Machine.execFrom_cons.mp h
    have hrest := ih (R.keep hi (he e (.head _)) hu) h fun x hx => he x (.tail _ hx)
    rw [List.countP_cons]
    by_cases hm : R.moves e = true
    · have hdown := R.down hi hm hu
      rw [if_pos hm]
      omega
    · have hstay := R.stay hi ((he e (.head _)).resolve_left hm) hu
      rw [if_neg hm]
      omega

theorem runs_down (hi : R.inv s) :
    ∃ es t, (∀ e ∈ es, R.moves e = true) ∧ M.execFrom s es = some t ∧ R.Still t := by
  induction hn : R.rank s using Nat.strongRecOn generalizing s with
  | ind n ih =>
    by_cases hmove : ∃ e u, R.moves e = true ∧ M.step s e = some u
    · obtain ⟨e, u, he, hu⟩ := hmove
      obtain ⟨es, t, hes, ht, hs⟩ := ih _ (hn ▸ R.down hi he hu) (R.keep hi (.inl he) hu) rfl
      refine ⟨e :: es, t, ?_, Machine.execFrom_cons.mpr ⟨u, hu, ht⟩, hs⟩
      intro x hx
      rcases List.mem_cons.mp hx with rfl | hx
      · exact he
      · exact hes x hx
    · refine ⟨[], s, nofun, rfl, ?_⟩
      intro e he
      rw [Option.eq_none_iff_forall_ne_some]
      exact fun u hu => hmove ⟨e, u, he, hu⟩

end Ranking

end RobotCar.Lib
