/-
  RobotCar.Lib.History — reading a state off the events that led to it. `latest f d es` is
  what `f` last noted in `es`; `LastIs p Q es` says that the last event of kind `p` in `es`
  stands, with the events before it, in `Q`.

  - `view_latest`: a part of the state that every step sets to what `f` notes, or leaves
    alone where `f` notes nothing, is `latest`.
  - `lastIs_snoc`: one more event decides `LastIs` if it is of kind `p`, and keeps it if not.
-/

import RobotCar.Lib.Machine

namespace RobotCar.Lib

variable {ε ω σ : Type}

def latest (f : ε → Option ω) (d : ω) (es : List ε) : ω := (es.filterMap f).getLast?.getD d

theorem latest_snoc {f : ε → Option ω} {d : ω} {es : List ε} {e : ε} :
    latest f d (es ++ [e]) = (f e).getD (latest f d es) := by
  rw [latest, List.filterMap_append, List.getLast?_append]
  cases h : f e with
  | none => simp [h, latest]
  | some v => simp [h]

theorem view_latest (view : σ → ω) {M : Machine σ ε} {f : ε → Option ω} {es : List ε} {s : σ}
    (hstep : ∀ s e t, M.step s e = some t → view t = (f e).getD (view s)) (h : M.Run es s) :
    view s = latest f (view M.init) es := by
  refine Machine.run_induction (P := fun es s => view s = latest f (view M.init) es) rfl ?_ h
  intro es s e t _ ih he
  rw [latest_snoc, hstep s e t he, ih]

/-! ## The last event of a kind -/

def LastIs (p : ε → Bool) (Q : List ε → ε → Prop) (es : List ε) : Prop :=
  ∃ pre e post, es = pre ++ e :: post ∧ p e = true ∧ Q pre e ∧ ∀ x ∈ post, p x = false

variable {p : ε → Bool} {Q : List ε → ε → Prop} {es : List ε} {e : ε}

theorem not_lastIs_nil : ¬ LastIs p Q [] := by
  intro h
  obtain ⟨pre, e, post, hes, _⟩ := h
  cases pre <;> cases hes

theorem lastIs_snoc : LastIs p Q (es ++ [e]) ↔ if p e = true then Q es e else LastIs p Q es := by
  constructor
  · intro h
    obtain ⟨pre, x, post, hes, hx, hQ, hpost⟩ := h
    rcases List.eq_nil_or_concat post with rfl | ⟨post, y, rfl⟩
    · obtain ⟨rfl, hxe⟩ := List.append_inj' hes rfl
      cases hxe
      rwa [if_pos hx]
    · have hassoc : es ++ [e] = (pre ++ x :: post) ++ [y] := by simpa using hes
      obtain ⟨rfl, hye⟩ := List.append_inj' hassoc rfl
      cases hye
      rw [if_neg (by simp [hpost e (by simp)])]
      exact ⟨pre, x, post, rfl, hx, hQ, fun z hz => hpost z (by simp [hz])⟩
  · intro h
    split at h
    · rename_i he
      exact ⟨es, e, [], rfl, he, h, by simp⟩
    · rename_i he
      obtain ⟨pre, x, post, rfl, hx, hQ, hpost⟩ := h
      refine ⟨pre, x, post ++ [e], by simp, hx, hQ, ?_⟩
      intro y hy
      rcases List.mem_append.mp hy with hy | hy
      · exact hpost y hy
      · rw [List.mem_singleton.mp hy]
        simpa using he

end RobotCar.Lib
