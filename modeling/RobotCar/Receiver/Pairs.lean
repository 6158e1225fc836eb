/-
  RobotCar.Receiver.Pairs — the two pairs of hand-over threads: the audio pair over
  `isComplete` (`Receiver.Audio`) and the green LED pair over `isMoving`
  (`Receiver.Led`). Both are crews of `Lib.HandOver`, so:

  - `pairs_share_one_token`: in each pair the semaphores' counts and the threads between
    acquire and release add up to one; the threads are never inside together, no release
    is dropped and the pair never waits for a token that is nowhere.
  - `stale_turn_at_most_once`: while the flag keeps its value, the thread it does not name
    acquires its semaphore at most once.
-/

import RobotCar.Receiver.Audio
import RobotCar.Receiver.Led

namespace RobotCar.Receiver

open RobotCar.Lib
open Audio (audio audio_crew)
open Led (led led_crew)

/-! ## One token -/

theorem audio_token {s : Turns.St Audio.Flag Audio.Stmt Audio.TPM0} (h : audio.Reach s) : Turns.OneToken s := by
  obtain ⟨_, a, rfl, ha⟩ := HandOver.reach_crew audio_crew h
  exact Turns.oneToken_of_rep ha

theorem led_token {s : Led.St} (h : led.Reach s) : Turns.OneToken s.green := by
  obtain ⟨_, a, rfl, ha⟩ := HandOver.reach_crew led_crew h
  exact Turns.oneToken_of_rep ha

theorem pairs_share_one_token :
    (∀ s, audio.Reach s → Turns.OneToken s) ∧ (∀ s, led.Reach s → Turns.OneToken s.green) :=
  ⟨fun _ => audio_token, fun _ => led_token⟩

/-- The running tune's first note is over and `isComplete` has just become true; the
    stationary LEDs are lit, the red one is on. -/
theorem pairs_share_one_token_started :
    Turns.OneToken ((audio.execFrom audio.init
      (List.flatten [List.replicate 5 (.run .audioRunningFlag), [.setFlag true, .run .audioRunningFlag]])).get rfl) ∧
    Turns.OneToken ((led.execFrom led.init
      (List.flatten [List.replicate 3 (.green (.run .greenStationaryFlag)), [.red]])).get rfl).green :=
  ⟨pairs_share_one_token.1 _ ⟨_, (Option.some_get _).symm⟩, pairs_share_one_token.2 _ ⟨_, (Option.some_get _).symm⟩⟩

/-! ## Stale turns -/

/-- How often a thread of the pair acquires its semaphore along a schedule. -/
def Audio.acquires (f : Audio.Flag) (s : Turns.St Audio.Flag Audio.Stmt Audio.TPM0) (es : List (Turns.Ev Audio.Flag)) : Nat :=
  (audio.log (Turns.label Audio.team) s es).count (.acquire f)

def Led.acquires (f : Led.Flag) (s : Led.St) (es : List Led.Ev) : Nat := (led.log Led.label s es).count (.acquire f)

theorem audio_stale {s t : Turns.St Audio.Flag Audio.Stmt Audio.TPM0} {es : List (Turns.Ev Audio.Flag)} {b : Bool}
    {f : Audio.Flag} (hf : f ≠ Audio.team.wants b) (hs : audio.Reach s) (h : audio.execFrom s es = some t)
    (hb : ∀ u ∈ audio.trail s es, u.flag = b) : Audio.acquires f s es ≤ 1 := by
  refine HandOver.acquires_le_one audio_crew hf hs h ?_
  intro u hu c hc
  cases hc
  exact congrArg Audio.team.wants (hb u hu)

theorem led_stale {s t : Led.St} {es : List Led.Ev} {b : Bool} {f : Led.Flag} (hf : f ≠ Led.team.wants b)
    (hs : led.Reach s) (h : led.execFrom s es = some t) (hb : ∀ u ∈ led.trail s es, u.green.flag = b) :
    Led.acquires f s es ≤ 1 := by
  refine HandOver.acquires_le_one led_crew hf hs h ?_
  intro u hu c hc
  cases hc
  exact congrArg Led.team.wants (hb u hu)

theorem stale_turn_at_most_once :
    (∀ s es t, audio.Reach s → audio.execFrom s es = some t →
      ((∀ u ∈ audio.trail s es, u.flag = true) → Audio.acquires .audioRunningFlag s es ≤ 1) ∧
      ((∀ u ∈ audio.trail s es, u.flag = false) → Audio.acquires .audioEndFlag s es ≤ 1)) ∧
    (∀ s es t, led.Reach s → led.execFrom s es = some t →
      ((∀ u ∈ led.trail s es, u.green.flag = true) → Led.acquires .greenStationaryFlag s es ≤ 1) ∧
      ((∀ u ∈ led.trail s es, u.green.flag = false) → Led.acquires .greenMovingFlag s es ≤ 1)) := by
  refine ⟨fun s es t hs h => ⟨?_, ?_⟩, fun s es t hs h => ⟨?_, ?_⟩⟩
  · intro hb
    exact audio_stale (by decide) hs h hb
  · intro hb
    exact audio_stale (by decide) hs h hb
  · intro hb
    exact led_stale (by decide) hs h hb
  · intro hb
    exact led_stale (by decide) hs h hb

/-- `isComplete` and `isMoving` become true at once: the running tune still takes its
    first note, the stationary LEDs are still lit once. -/
theorem stale_turn_at_most_once_start :
    Audio.acquires .audioRunningFlag ((audio.execFrom audio.init [.setFlag true]).get rfl)
      (List.replicate 8 (.run .audioRunningFlag)) ≤ 1 ∧
    Led.acquires .greenStationaryFlag ((led.execFrom led.init [.green (.setFlag true)]).get rfl)
      (.red :: List.replicate 5 (.green (.run .greenStationaryFlag))) ≤ 1 := by
  constructor
  · apply (stale_turn_at_most_once.1 _ _ _ ⟨_, (Option.some_get _).symm⟩ (Option.some_get (h := rfl)).symm).1
    decide
  · apply (stale_turn_at_most_once.2 _ _ _ ⟨_, (Option.some_get _).symm⟩ (Option.some_get (h := rfl)).symm).1
    decide

end RobotCar.Receiver
