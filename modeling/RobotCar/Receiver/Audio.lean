/-
  RobotCar.Receiver.Audio — the buzzer: `runningAudioThread` and `stopAudioThread`
  (main.c) with the two tunes (audio.h), as a team of `Lib.Turns` over the two TPM0
  registers they write. A note is programmed, sounds for an `osDelay` and is silenced
  before the token is handed on by `isComplete`.

  - `audio_crew`: the two threads are a crew that starts with `audioRunningFlag`'s token.
-/

import Mathlib.Data.Fintype.Defs
import RobotCar.Lib.Turns

namespace RobotCar.Receiver.Audio

open RobotCar.Lib

/-! ## The tunes -/

def note_Ads : Nat := 932
def note_Bd : Nat := 988
def note_C : Nat := 1047
def note_D : Nat := 1175
def note_Ds : Nat := 1245
def note_E : Nat := 1319
def note_Fs : Nat := 1480
def note_G : Nat := 1568
def note_Gs : Nat := 1661
def note_A : Nat := 1760
def note_As : Nat := 1865
def note_B : Nat := 1976
def note_C1 : Nat := 2093
def note_D1 : Nat := 2349
def note_D1s : Nat := 2489
def note_E1 : Nat := 2637
def rest : Nat := 65535

def freqEnd : List Nat := [
  rest, rest, rest, rest, rest, rest, rest, rest, rest, rest, note_C, rest, note_E, rest, note_G, rest,
  note_A, rest, rest, rest, rest, rest, rest, rest, note_G, rest, rest, rest, rest, rest, note_C, rest,
  note_D, rest, note_D, rest, note_C, rest, note_E, rest, rest, rest, rest, rest, note_E, rest, note_G, rest,
  note_A, rest, note_B, rest, note_A, rest, note_G, rest, note_E, rest, note_D, rest, note_D, rest, note_C, rest,
  note_D, rest, note_D, rest, note_E, rest, note_C, rest, rest, rest, note_C, rest, note_E, rest, note_G, rest,
  note_A, rest, rest, rest, rest, rest, rest, rest, note_G, rest, rest, rest, rest, rest, note_C, rest,
  note_D, rest, note_D, rest, note_C, rest, note_E, rest, rest, rest, rest, rest, note_E, rest, note_G, rest,
  note_A, rest, note_C1, rest, note_D1, rest, note_E1, rest, note_D1, rest, note_C1, rest, note_A, rest, note_C1, rest,
  note_D1, rest, note_D1, rest, note_C1, rest, note_C1, rest, rest, rest, rest, rest, note_A, rest, note_C1, rest,
  note_D1, rest, note_D1, rest, note_C1, rest, note_C1, rest, rest, rest, rest, rest, rest, rest, rest, rest]

def freqRunning : List Nat := [
  note_As, rest, rest, rest, note_As, rest, rest, rest, note_As, rest, rest, rest, note_As, rest, rest, rest,
  note_As, rest, rest, note_B, rest, rest, note_D1s, rest, note_As, rest, rest, rest, note_As, rest, rest, rest,
  note_As, rest, rest, note_B, rest, rest, note_D1s, rest, note_As, rest, rest, rest, note_As, rest, rest, rest,
  note_As, rest, rest, note_B, rest, rest, note_D1s, rest, note_As, rest, rest, rest, note_As, rest, rest, rest,
  note_As, rest, rest, note_Gs, rest, rest, note_Fs, rest, note_Ds, rest, rest, rest, note_Ds, rest, rest, rest,
  note_As, rest, rest, note_Gs, rest, rest, note_Fs, rest, note_Ds, rest, rest, rest, note_Ds, rest, rest, rest,
  note_Ads, rest, rest, note_Bd, rest, rest, note_Ds, rest, note_Ads, rest, rest, rest, note_Ads, rest, rest, rest,
  note_Ads, rest, rest, note_Bd, rest, rest, note_Ds, rest, note_Ads, rest, rest, rest, note_Ads, rest, rest, rest,
  rest, rest, rest, rest, rest, rest, rest, rest, rest, rest, rest, rest, rest, rest, rest, rest]

def CLOCK : Nat := 48000000 / 128

/-! ## The threads -/

inductive Flag where
  | audioRunningFlag
  | audioEndFlag
  deriving DecidableEq, Repr

instance : Fintype Flag := ⟨{.audioRunningFlag, .audioEndFlag}, fun i => by cases i <;> decide⟩

inductive Stmt where
  | MOD (v : Nat)
  | C0V (v : Nat)
  | osDelay (ms : Nat)
  deriving DecidableEq, Repr

structure TPM0 where
  MOD : Nat
  C0V : Nat
  deriving DecidableEq, Repr

def TPM0.put (r : TPM0) : Stmt → TPM0
  | .MOD v => { r with MOD := v }
  | .C0V v => { r with C0V := v }
  | .osDelay _ => r

def audioThread (freq : List Nat) (ms : Nat) : Turns.Routine Flag Stmt where
  loops := freq.length
  work i := [.MOD (CLOCK / freq.getD i 0), .C0V (CLOCK / freq.getD i 0 / 8), .osDelay ms, .C0V 0x0]
  next isComplete := if isComplete then .audioEndFlag else .audioRunningFlag
  rest := [.osDelay ms]

def runningAudioThread : Turns.Routine Flag Stmt := audioThread freqRunning 70
def stopAudioThread : Turns.Routine Flag Stmt := audioThread freqEnd 65

/-- The audio semaphores as `Init_RTOX` creates them. -/
def Init_RTOX : Flag → Semaphore 1
  | .audioRunningFlag => .full
  | .audioEndFlag => .empty

def team : Turns.Team Flag Stmt TPM0 where
  put := TPM0.put
  routine
    | .audioRunningFlag => runningAudioThread
    | .audioEndFlag => stopAudioThread
  sem := Init_RTOX
  device := ⟨0xFFFF, 0⟩
  wants isComplete := if isComplete then .audioEndFlag else .audioRunningFlag
  next_eq i b := by cases i <;> rfl
  start := .audioRunningFlag
  sem_eq i := by cases i <;> rfl

/-- From reset: `isComplete` is false, the buzzer is silent. -/
def audio : Machine (Turns.St Flag Stmt TPM0) (Turns.Ev Flag) := team.machine false

def audio_crew : Simulation audio (HandOver.crew Flag.audioRunningFlag .audioRunningFlag) := Turns.crewOf team false

end RobotCar.Receiver.Audio
