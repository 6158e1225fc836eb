/-
  RobotCar.Lib.Repeats — a sender that does not repeat itself. It remembers the last
  message it sent and stays silent when the next one is the same; `sayEach` is the sender
  that sends every message.

  When acting twice on a message is acting once, and the receiver starts as if it had just
  acted on the remembered message, no receiver can tell the two senders apart
  (`say_eq_sayEach`), though the remembered message need never have been sent.
-/

namespace RobotCar.Lib.Repeats

variable {σ β : Type} [DecidableEq β] (act : σ → β → σ)

/-- What the sender remembers and where the receiver stands. -/
structure Link (β σ : Type) where
  last : β
  far : σ

/-- One turn of the sender: no message, or one it sends unless it is the last one sent. -/
def say (l : Link β σ) : Option β → Link β σ
  | none => l
  | some m => if m = l.last then l else ⟨m, act l.far m⟩

def sayEach (s : σ) : Option β → σ
  | none => s
  | some m => act s m

/-- The receiver stands where acting on the remembered message again would leave it. -/
def Settled (l : Link β σ) : Prop := act l.far l.last = l.far

variable {act} (hidem : ∀ s m, act (act s m) m = act s m)

include hidem

theorem say_settled {l : Link β σ} (h : Settled act l) (o : Option β) : Settled act (say act l o) := by
  cases o with
  | none => exact h
  | some m =>
    simp only [say]
    split
    · exact h
    · exact hidem l.far m

omit hidem in
theorem say_far {l : Link β σ} (h : Settled act l) (o : Option β) : (say act l o).far = sayEach act l.far o := by
  cases o with
  | none => rfl
  | some m =>
    simp only [say, sayEach]
    split
    · rename_i he
      rw [he]
      exact h.symm
    · rfl

theorem say_eq_sayEach {l : Link β σ} (h : Settled act l) (os : List (Option β)) :
    (os.foldl (say act) l).far = os.foldl (sayEach act) l.far := by
  induction os generalizing l with
  | nil => rfl
  | cons o os ih =>
    simp only [List.foldl_cons]
    rw [ih (say_settled hidem h o), say_far h]

end RobotCar.Lib.Repeats
