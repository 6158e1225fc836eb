/-
  RobotCar.Receiver.Tune — what the buzzer plays (`Receiver.Audio`), whichever way and
  however often `isComplete` changes.

  - `silent_between`: a section that finds the buzzer silent leaves it silent, so it is
    silent whenever no thread is between its acquire and its release.
  - `one_note`: otherwise it sounds a note of the one thread that is, MOD and C0V both.
  - `notes_in_order`: the notes a thread programs are its own table's from the start,
    round and round.
  `buzzer_coherent` puts the three together.
-/

import RobotCar.Lib.Sections
import RobotCar.Receiver.Pairs

namespace RobotCar.Receiver.Audio

open RobotCar.Lib
open Turns (sections made Upkeep)

variable {es : List (Turns.Ev Flag)} {s : Turns.St Flag Stmt TPM0} {f : Flag}

/-! ## The tables -/

/-- The table a thread plays. -/
def freq : Flag → List Nat
  | .audioRunningFlag => freqRunning
  | .audioEndFlag => freqEnd

def entry (f : Flag) (i : Nat) : Nat := (freq f).getD i 0

theorem routine_loops : (team.routine f).loops = (freq f).length := by
  cases f <;> rfl

theorem routine_work (i : Nat) : (team.routine f).work i =
    [.MOD (CLOCK / entry f i), .C0V (CLOCK / entry f i / 8), .osDelay (if f = .audioRunningFlag then 70 else 65), .C0V 0x0] := by
  cases f <;> rfl

theorem freq_pos : 0 < (freq f).length := by
  cases f <;> exact List.length_pos_iff.mpr (List.cons_ne_nil _ _)

theorem loops_pos (f : Flag) : 0 < (team.routine f).loops := by
  rw [routine_loops]
  exact freq_pos

/-! ## Silence between sections -/

def silent_between : Upkeep team where
  holds _ r := r.C0V = 0
  start := rfl
  turn _ i r _ := by
    show (Stores.after TPM0.put r _).C0V = 0
    rw [Turns.Routine.turn, routine_work]
    rfl
  rest i w hw r := by
    cases i <;> cases List.mem_singleton.mp hw <;> rfl

theorem silent (h : audio.Run es s) (hidle : ∀ f, s.busy f = 0) : s.device.C0V = 0 := by
  have hkept : silent_between.Kept (sections team false es) s := Upkeep.kept loops_pos h
  exact hkept.idle hidle

theorem one_note (h : audio.Run es s) (hf : s.busy f = 1) : s.device.C0V = 0 ∨
    s.device.MOD = CLOCK / entry f (s.thread f).i ∧ s.device.C0V = CLOCK / entry f (s.thread f).i / 8 := by
  obtain ⟨js, r, _, hr, hi, hat⟩ := silent_between.at_point loops_pos h hf
  have hquiet : r.C0V = 0 := hr
  rw [Turns.Routine.turn, ← hi, routine_work] at hat
  simp only [Stores.points, List.mem_cons, List.not_mem_nil, or_false] at hat
  rcases hat with hat | hat | hat | hat | hat
  · exact .inl (by rw [hat, hquiet])
  · exact .inl (by rw [hat]; exact hquiet)
  · exact .inr (by rw [hat]; exact ⟨rfl, rfl⟩)
  · exact .inr (by rw [hat]; exact ⟨rfl, rfl⟩)
  · exact .inl (by rw [hat]; rfl)

/-! ## The notes in order -/

def period? : Stmt → Option Nat
  | .MOD v => some v
  | _ => none

/-- What a thread writes to MOD over a run; outside its sections it writes nothing. -/
def notes (f : Flag) (es : List (Turns.Ev Flag)) : List Nat := (made team false es f).filterMap period?

theorem turn_note (k : Nat) :
    ((team.routine f).turn k).filterMap period? = [CLOCK / entry f (k % (freq f).length)] := by
  rw [Turns.Routine.turn, routine_work, routine_loops]
  rfl

theorem notes_in_order (h : audio.Run es s) :
    notes f es = (List.range (notes f es).length).map fun k => CLOCK / entry f (k % (freq f).length) := by
  have hall := congrArg (List.filterMap period?) (Turns.made_eq loops_pos h f)
  simp only [List.filterMap_append, List.filterMap_flatMap, turn_note, ← List.map_eq_flatMap] at hall
  exact Turns.prefix_of_range hall

/-! ## Both registers, one tune -/

theorem buzzer_coherent (h : audio.Run es s) :
    (s.device.C0V = 0 ∨ ∃ f, s.busy f = 1 ∧ (∀ g, s.busy g = 1 → g = f) ∧
      s.device.MOD = CLOCK / entry f (s.thread f).i ∧ s.device.C0V = CLOCK / entry f (s.thread f).i / 8) ∧
    ((∀ f, s.busy f = 0) → s.device.C0V = 0) ∧
    ∀ f, notes f es = (List.range (notes f es).length).map fun k => CLOCK / entry f (k % (freq f).length) := by
  refine ⟨?_, silent h, fun f => notes_in_order h⟩
  by_cases hidle : ∀ f, s.busy f = 0
  · exact .inl (silent h hidle)
  · obtain ⟨f, hf⟩ := not_forall.mp hidle
    have hbusy := Turns.busy_one (Nat.pos_of_ne_zero hf)
    rcases one_note h hbusy with hquiet | hnote
    · exact .inl hquiet
    · exact .inr ⟨f, hbusy, fun g hg => (audio_token ⟨es, h⟩).exclusive g f hg hbusy, hnote⟩

/-- The running tune plays its first note, hands over, and the other tune begins its own. -/
theorem buzzer_coherent_handed_over :
    let es : List (Turns.Ev Flag) := List.flatten [List.replicate 5 (.run .audioRunningFlag), [.setFlag true],
      List.replicate 2 (.run .audioRunningFlag), List.replicate 3 (.run .audioEndFlag)]
    notes .audioRunningFlag es = (List.range 1).map fun k => CLOCK / entry .audioRunningFlag (k % (freq .audioRunningFlag).length) := by
  intro es
  exact (buzzer_coherent (s := (audio.execFrom audio.init es).get rfl) (Option.some_get _).symm).2.2 .audioRunningFlag

end RobotCar.Receiver.Audio
