/-
  RobotCar.Receiver.Led — the LEDs on port C: `greenMovingThread`, `greenStationaryThread`
  and `redMovingThread` (main.c, LED.h). The green threads are a team of `Lib.Turns` over
  the port's output latch; the red thread blinks pin 7 of the same latch and takes part
  in no hand-over. A write to PSOR sets the written bits of the latch, one to PCOR clears
  them.

  - `led_crew`: whatever the red thread does, the green threads are a crew that starts
    with `greenStationaryFlag`'s token.
-/

import Mathlib.Data.Fintype.Defs
import RobotCar.Lib.Turns

namespace RobotCar.Receiver.Led

open RobotCar.Lib

/-! ## Port C -/

def MASK (x : Nat) : BitVec 32 := 1 <<< x

def GREEN_LEDS : List (BitVec 32) := [MASK 4, MASK 5, MASK 6, MASK 10, MASK 11, MASK 12, MASK 13, MASK 16]

inductive Stmt where
  | PSOR (m : BitVec 32)
  | PCOR (m : BitVec 32)
  | osDelay (ms : Nat)
  deriving DecidableEq, Repr

def put (latch : BitVec 32) : Stmt → BitVec 32
  | .PSOR m => latch ||| m
  | .PCOR m => latch &&& ~~~m
  | .osDelay _ => latch

def GreenOff : Stmt :=
  .PCOR (MASK 4 ||| MASK 5 ||| MASK 6 ||| MASK 10 ||| MASK 11 ||| MASK 12 ||| MASK 13 ||| MASK 16)

/-! ## The threads -/

inductive Flag where
  | greenMovingFlag
  | greenStationaryFlag
  deriving DecidableEq, Repr

instance : Fintype Flag := ⟨{.greenMovingFlag, .greenStationaryFlag}, fun i => by cases i <;> decide⟩

def greenMovingThread : Turns.Routine Flag Stmt where
  loops := GREEN_LEDS.length
  work i := [GreenOff, .PSOR (GREEN_LEDS.getD i 0)]
  next isMoving := if isMoving then .greenMovingFlag else .greenStationaryFlag
  rest := [.osDelay 100]

def greenStationaryThread : Turns.Routine Flag Stmt where
  loops := 1
  work _ := [GreenOff,
    .PSOR (MASK 4 ||| MASK 5 ||| MASK 6 ||| MASK 10 ||| MASK 11 ||| MASK 12 ||| MASK 13 ||| MASK 16)]
  next isMoving := if isMoving then .greenMovingFlag else .greenStationaryFlag
  rest := []

/-- One pass of its loop; both its delays are 250 whichever way `isMoving` reads. -/
def redMovingThread : List Stmt := [.PCOR (MASK 7), .osDelay 250, .PSOR (MASK 7), .osDelay 250]

/-- The green semaphores as `Init_RTOX` creates them. -/
def Init_RTOX : Flag → Semaphore 1
  | .greenMovingFlag => .empty
  | .greenStationaryFlag => .full

def team : Turns.Team Flag Stmt (BitVec 32) where
  put := put
  routine
    | .greenMovingFlag => greenMovingThread
    | .greenStationaryFlag => greenStationaryThread
  sem := Init_RTOX
  device := 0
  wants isMoving := if isMoving then .greenMovingFlag else .greenStationaryFlag
  next_eq i b := by cases i <;> rfl
  start := .greenStationaryFlag
  sem_eq i := by cases i <;> rfl

structure St where
  green : Turns.St Flag Stmt (BitVec 32)
  /-- What is left of the red thread's pass. -/
  red : List Stmt

inductive Ev where
  | green (e : Turns.Ev Flag)
  | red

def step (s : St) : Ev → Option St
  | .green e => (team.step s.green e).map fun g => { s with green := g }
  | .red =>
    match s.red with
    | w :: ws => some ⟨s.green.setDevice (put s.green.device w), ws⟩
    | [] => some { s with red := redMovingThread }

/-- From reset: `isMoving` is false, the latch is clear. -/
def led : Machine St Ev := ⟨⟨team.init false, redMovingThread⟩, step⟩

/-- What a step is to the crew of the green semaphores. -/
def label (s : St) : Ev → Option (HandOver.Ev Flag)
  | .green e => Turns.label team s.green e
  | .red => none

def led_crew : Simulation led (HandOver.crew Flag.greenStationaryFlag .greenStationaryFlag) where
  rel s c := s.green.crew team = c
  lab := label
  init := (Turns.crewOf team false).init
  step := by
    intro s c e t hc h
    subst hc
    cases e with
    | green e =>
      obtain ⟨g, hg, rfl⟩ := Option.map_eq_some_iff.mp h
      exact (Turns.crewOf team false).step rfl hg
    | red =>
      show t.green.crew team = s.green.crew team
      simp only [led, step] at h
      split at h
      · cases h
        rfl
      · cases h
        rfl

end RobotCar.Receiver.Led
