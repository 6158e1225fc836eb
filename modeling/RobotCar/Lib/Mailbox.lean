/-
  RobotCar.Lib.Mailbox — a mailbox with one slot. A put overwrites what the slot holds; a
  take reads it and leaves it there, so a take may return what the take before it did.

  The `Ledger` of a history sorts the messages put: taken in time (`kept`), overwritten
  first (`lost`), not taken yet (`waiting`).
  - `kept_sublist`, `puts_length`, `kept_eq_puts`: kept, lost and waiting account for
    every message put, kept in the order they were put.
  - `takes_fold`: a consumer that acts on whatever it takes, and for which acting twice
    on one message is acting once, ends as if it had acted once on each kept message.
  - `last_take`: with nothing waiting, the last take returned what the slot holds.
-/

namespace RobotCar.Lib

inductive Mail (β : Type) where
  | put (b : β)
  | take (b : β)
  deriving DecidableEq, Repr

namespace Mail

variable {β σ τ : Type}

structure Ledger (β : Type) where
  waiting : Option β
  kept : List β
  lost : List β

def Ledger.note (l : Ledger β) : Mail β → Ledger β
  | .put b => ⟨some b, l.kept, l.lost ++ l.waiting.toList⟩
  | .take _ => ⟨none, l.kept ++ l.waiting.toList, l.lost⟩

def ledger (ms : List (Mail β)) : Ledger β := ms.foldl Ledger.note ⟨none, [], []⟩

def puts (ms : List (Mail β)) : List β := ms.filterMap fun | .put b => some b | .take _ => none

def takes (ms : List (Mail β)) : List β := ms.filterMap fun | .put _ => none | .take b => some b

/-- What the slot holds after `ms`, `b₀` before the first put. -/
def slot (b₀ : β) (ms : List (Mail β)) : β := ms.foldl (fun b m => match m with | .put b' => b' | .take _ => b) b₀

/-- Histories in which every take returns what the slot holds. -/
inductive Genuine (b₀ : β) : List (Mail β) → Prop
  | nil : Genuine b₀ []
  | put {ms : List (Mail β)} (b : β) : Genuine b₀ ms → Genuine b₀ (ms ++ [.put b])
  | take {ms : List (Mail β)} : Genuine b₀ ms → Genuine b₀ (ms ++ [.take (slot b₀ ms)])

variable {b₀ b : β} {ms : List (Mail β)}

/-! ## One more event -/

@[simp] theorem ledger_put : ledger (ms ++ [.put b]) =
    ⟨some b, (ledger ms).kept, (ledger ms).lost ++ (ledger ms).waiting.toList⟩ := by
  simp [ledger, Ledger.note]

@[simp] theorem ledger_take : ledger (ms ++ [.take b]) =
    ⟨none, (ledger ms).kept ++ (ledger ms).waiting.toList, (ledger ms).lost⟩ := by
  simp [ledger, Ledger.note]

@[simp] theorem puts_put : puts (ms ++ [.put b]) = puts ms ++ [b] := by simp [puts]
@[simp] theorem puts_take : puts (ms ++ [.take b]) = puts ms := by simp [puts]
@[simp] theorem takes_put : takes (ms ++ [.put b]) = takes ms := by simp [takes]
@[simp] theorem takes_take : takes (ms ++ [.take b]) = takes ms ++ [b] := by simp [takes]
@[simp] theorem slot_put : slot b₀ (ms ++ [.put b]) = b := by simp [slot]
@[simp] theorem slot_take : slot b₀ (ms ++ [.take b]) = slot b₀ ms := by simp [slot]

/-! ## The ledger accounts for every put -/

theorem kept_sublist (h : Genuine b₀ ms) :
    ((ledger ms).kept ++ (ledger ms).waiting.toList).Sublist (puts ms) := by
  induction h with
  | nil => exact .slnil
  | put b _ ih =>
    have hk := (List.sublist_append_left _ _).trans ih
    simpa using hk.append (List.Sublist.refl [b])
  | take _ ih => simpa using ih

theorem puts_length (h : Genuine b₀ ms) : (puts ms).length =
    (ledger ms).kept.length + (ledger ms).lost.length + (ledger ms).waiting.toList.length := by
  induction h with
  | nil => rfl
  | put b _ ih =>
    simp only [puts_put, ledger_put, List.length_append, List.length_singleton, Option.toList_some]
    omega
  | take _ ih =>
    simp only [puts_take, ledger_take, List.length_append, Option.toList_none, List.length_nil]
    omega

/-- Nothing overwritten: every message put was taken in time or still waits. -/
theorem kept_eq_puts (h : Genuine b₀ ms) (hl : (ledger ms).lost = []) :
    (ledger ms).kept ++ (ledger ms).waiting.toList = puts ms := by
  have hlen := puts_length h
  refine (kept_sublist h).eq_of_length ?_
  simp only [List.length_append, hlen, hl, List.length_nil]
  omega

/-- The newest message put is never among the lost. -/
theorem last_kept (h : Genuine b₀ ms) :
    ((ledger ms).kept ++ (ledger ms).waiting.toList).getLast? = (puts ms).getLast? := by
  induction h with
  | nil => rfl
  | put b _ ih => simp
  | take _ ih => simpa using ih

/-! ## What a consumer makes of it -/

theorem slot_waiting (h : Genuine b₀ ms) (hw : (ledger ms).waiting = some b) : slot b₀ ms = b := by
  induction h with
  | nil => cases hw
  | put c _ _ => simpa using hw
  | take _ _ => simp at hw

theorem last_take (h : Genuine b₀ ms) (hw : (ledger ms).waiting = none) (ht : takes ms ≠ []) :
    (takes ms).getLast? = some (slot b₀ ms) := by
  cases h with
  | nil => exact absurd rfl ht
  | put c _ => simp at hw
  | take _ => simp

section Consumer

variable {act : σ → β → σ} {s₀ : σ} {view : σ → τ}

/-- The consumer as an observer sees it (`view`): acting twice on a message is acting
    once, and the slot's first content changes nothing. -/
theorem takes_fold (h : Genuine b₀ ms) (hcongr : ∀ s t b, view s = view t → view (act s b) = view (act t b))
    (hidem : ∀ s b, view (act (act s b) b) = view (act s b)) (hstart : view (act s₀ b₀) = view s₀) :
    view ((takes ms).foldl act s₀) = view ((ledger ms).kept.foldl act s₀) := by
  suffices view ((takes ms).foldl act s₀) = view ((ledger ms).kept.foldl act s₀) ∧
      ((ledger ms).waiting = none →
        view (act ((ledger ms).kept.foldl act s₀) (slot b₀ ms)) = view ((ledger ms).kept.foldl act s₀)) from this.1
  induction h with
  | nil => exact ⟨rfl, fun _ => hstart⟩
  | put b _ ih =>
    refine ⟨by simpa using ih.1, ?_⟩
    intro hw
    simp at hw
  | @take ms hg ih =>
    obtain ⟨hview, hquiet⟩ := ih
    simp only [takes_take, ledger_take, slot_take, List.foldl_append, List.foldl_cons, List.foldl_nil]
    cases hw : (ledger ms).waiting with
    | none =>
      -- the slot's content was taken before: acting on it again changes nothing
      simp only [Option.toList_none, List.foldl_nil]
      exact ⟨(hcongr _ _ _ hview).trans (hquiet hw), fun _ => hquiet hw⟩
    | some b =>
      simp only [slot_waiting hg hw, Option.toList_some, List.foldl_cons, List.foldl_nil]
      exact ⟨hcongr _ _ _ hview, fun _ => hidem _ _⟩

end Consumer

end Mail

end RobotCar.Lib
