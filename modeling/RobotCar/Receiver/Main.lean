/-
  RobotCar.Receiver.Main — the whole of main.c: the interrupt and all seven threads as one
  machine. The globals are one set: `isComplete`, which the audio threads read, and
  `isMoving`, which the green threads read, are those `decode` assigns. No thread runs before
  `Init_RTOX` has created the semaphores.

  - `toRobot`, `toAudio`, `toLed`: the machine is simulated by `robot`, by the buzzer's
    machine and by the LEDs' machine, each seeing its own part of every step.
  - `lights_tell`: the LEDs against the motors, two threads that share nothing but
    `isMoving`. Once `isMoving` has stood still for two turns of the green threads and the
    motors are set, the LEDs chase exactly when the wheels are driven.
-/

import RobotCar.Receiver.Display
import RobotCar.Receiver.Settling
import RobotCar.Receiver.Tune

namespace RobotCar.Receiver.Main

open RobotCar.Lib
open Audio (audio audio_crew)
open Led (led led_crew lit GREEN_PINS)

/-! ## The machine -/

structure St where
  core : Receiver.St
  audio : Turns.St Audio.Flag Audio.Stmt Audio.TPM0
  led : Led.St

inductive Ev where
  /-- The interrupt, `Init_RTOX`, `serialThread` and `motorThread`. -/
  | core (e : Receiver.Ev)
  /-- `runningAudioThread` or `stopAudioThread`, by the semaphore it waits on. -/
  | audioThread (f : Audio.Flag)
  /-- `greenMovingThread` or `greenStationaryThread`. -/
  | greenThread (f : Led.Flag)
  | redMovingThread
  deriving DecidableEq

/-- The globals after a step of the core are the ones all threads see. -/
def St.share (s : St) (core : Receiver.St) : St where
  core := core
  audio := { s.audio with flag := core.globals.isComplete }
  led := { s.led with green := { s.led.green with flag := core.globals.isMoving } }

/-- `Init_RTOX` has returned: the threads exist. -/
def St.started (s : St) : Bool := s.core.serialFlag.isSome

def runLed (s : St) (e : Led.Ev) : Option St :=
  if s.started then (Led.step s.led e).map fun l => { s with led := l } else none

def step (s : St) : Ev → Option St
  | .core e => (Receiver.step s.core e).map s.share
  | .audioThread f => if s.started then (Audio.team.run s.audio f).map fun a => { s with audio := a } else none
  | .greenThread f => runLed s (.green (.run f))
  | .redMovingThread => runLed s .red

def main : Machine St Ev := ⟨⟨robot.init, audio.init, led.init⟩, step⟩

inductive Step (s : St) : Ev → St → Prop
  | core (e : Receiver.Ev) (t : Receiver.St) : robot.step s.core e = some t → Step s (.core e) (s.share t)
  | audio (f : Audio.Flag) (a : Turns.St Audio.Flag Audio.Stmt Audio.TPM0) : s.started = true →
      Audio.team.run s.audio f = some a → Step s (.audioThread f) { s with audio := a }
  | green (f : Led.Flag) (l : Led.St) : s.started = true → led.step s.led (.green (.run f)) = some l →
      Step s (.greenThread f) { s with led := l }
  | red (l : Led.St) : s.started = true → led.step s.led .red = some l → Step s .redMovingThread { s with led := l }

theorem runLed_cases {s t : St} {e : Led.Ev} (h : runLed s e = some t) :
    s.started = true ∧ ∃ l, led.step s.led e = some l ∧ t = { s with led := l } := by
  unfold runLed at h
  split at h
  · rename_i hs
    obtain ⟨l, hl, rfl⟩ := Option.map_eq_some_iff.mp h
    exact ⟨hs, l, hl, rfl⟩
  · cases h

theorem step_cases {s t : St} {e : Ev} (h : step s e = some t) : Step s e t := by
  cases e with
  | core e =>
    obtain ⟨c, hc, rfl⟩ := Option.map_eq_some_iff.mp h
    exact .core e c hc
  | audioThread f =>
    simp only [step] at h
    split at h
    · rename_i hs
      obtain ⟨a, ha, rfl⟩ := Option.map_eq_some_iff.mp h
      exact .audio f a hs ha
    · cases h
  | greenThread f =>
    obtain ⟨hs, l, hl, rfl⟩ := runLed_cases h
    exact .green f l hs hl
  | redMovingThread =>
    obtain ⟨hs, l, hl, rfl⟩ := runLed_cases h
    exact .red l hs hl

theorem core_cases {s t : St} {e : Receiver.Ev} (h : main.step s (.core e) = some t) :
    ∃ c, Receiver.Step s.core e c ∧ t = s.share c := by
  obtain ⟨c, hc, rfl⟩ := Option.map_eq_some_iff.mp h
  exact ⟨c, Receiver.step_cases hc, rfl⟩

/-! ## Its parts -/

def toRobot : Simulation main robot where
  rel s a := s.core = a
  lab _ e :=
    match e with
    | .core e => some e
    | _ => none
  init := rfl
  step := by
    intro s a e t hrel h
    subst hrel
    cases step_cases h with
    | core e c hc => exact ⟨c, hc, rfl⟩
    | audio f a _ _ => rfl
    | green f l _ _ => rfl
    | red l _ _ => rfl

/-- What an event is to the audio threads. -/
def audioEv (s : St) : Ev → Option (Turns.Ev Audio.Flag)
  | .core e => (robot.step s.core e).map fun t => .setFlag t.globals.isComplete
  | .audioThread f => some (.run f)
  | _ => none

def toAudio : Simulation main audio where
  rel s a := s.audio = a ∧ a.flag = s.core.globals.isComplete
  lab := audioEv
  init := ⟨rfl, rfl⟩
  step := by
    intro s a e t hrel h
    obtain ⟨rfl, hflag⟩ := hrel
    cases step_cases h with
    | core e c hc =>
      simp only [audioEv, hc, Option.map_some]
      exact ⟨_, rfl, rfl, rfl⟩
    | audio f a _ ha => exact ⟨a, ha, rfl, (Turns.run_flag ha).trans hflag⟩
    | green f l _ _ => exact ⟨rfl, hflag⟩
    | red l _ _ => exact ⟨rfl, hflag⟩

/-- What an event is to the LED threads. -/
def ledEv (s : St) : Ev → Option Led.Ev
  | .core e => (robot.step s.core e).map fun t => .green (.setFlag t.globals.isMoving)
  | .greenThread f => some (.green (.run f))
  | .redMovingThread => some .red
  | .audioThread _ => none

theorem led_flag {s t : Led.St} {e : Led.Ev} (he : ∀ b, e ≠ .green (.setFlag b)) (h : led.step s e = some t) :
    t.green.flag = s.green.flag := by
  cases e with
  | green e =>
    obtain ⟨g, hg, rfl⟩ := Option.map_eq_some_iff.mp h
    cases e with
    | run i => exact Turns.run_flag hg
    | setFlag b => exact absurd rfl (he b)
  | red =>
    simp only [led, Led.step] at h
    split at h
    · cases h
      rfl
    · cases h
      rfl

def toLed : Simulation main led where
  rel s a := s.led = a ∧ a.green.flag = s.core.globals.isMoving
  lab := ledEv
  init := ⟨rfl, rfl⟩
  step := by
    intro s a e t hrel h
    obtain ⟨rfl, hflag⟩ := hrel
    cases step_cases h with
    | core e c hc =>
      simp only [ledEv, hc, Option.map_some]
      exact ⟨_, rfl, rfl, rfl⟩
    | audio f a _ _ => exact ⟨rfl, hflag⟩
    | green f l _ hl => exact ⟨l, hl, rfl, (led_flag (by simp) hl).trans hflag⟩
    | red l _ hl => exact ⟨l, hl, rfl, (led_flag (by simp) hl).trans hflag⟩

/-- The green threads of the whole program are a crew. -/
def greenCrew : Simulation main (HandOver.crew Led.Flag.greenStationaryFlag .greenStationaryFlag) :=
  toLed.comp led_crew St.led fun h => h.1

/-- So are the audio threads. -/
def audioCrew : Simulation main (HandOver.crew Audio.Flag.audioRunningFlag .audioRunningFlag) :=
  toAudio.comp audio_crew St.audio fun h => h.1

/-- The audio thread whose section begins. -/
def plays (s : St) : Ev → Option Audio.Flag
  | .audioThread f => Turns.enters s.audio (.run f)
  | _ => none

theorem plays_turn (s : St) (e : Ev) : plays s e = (audioCrew.lab s e).bind HandOver.acquirer? := by
  cases e with
  | core e =>
    show none = ((audioEv s (.core e)).bind (Turns.label Audio.team s.audio)).bind HandOver.acquirer?
    simp only [audioEv]
    cases robot.step s.core e <;> rfl
  | audioThread f => exact Turns.enters_eq Audio.team s.audio (.run f)
  | _ => rfl

/-! ## The lights and the motors -/

/-- The green thread whose section begins. -/
def enters (s : St) : Ev → Option Led.Flag
  | .greenThread f => Turns.enters s.led.green (.run f)
  | _ => none

/-- Whose turns the green threads take along a schedule. -/
def greenTurns (s : St) (fs : List Ev) : List Led.Flag := main.log enters s fs

section Lights

variable {es fs : List Ev} {s t : St} {b : Bool}

theorem enters_led {a : Led.St} {e : Ev} (hrel : toLed.rel s a) : enters s e = (ledEv s e).bind fun d =>
    match d with
    | .green g => Turns.enters a.green g
    | .red => none := by
  obtain ⟨rfl, _⟩ := hrel
  cases e with
  | core e =>
    simp only [enters, ledEv]
    cases robot.step s.core e <;> rfl
  | _ => rfl

theorem enters_turn (s : St) (e : Ev) : enters s e = (greenCrew.lab s e).bind HandOver.acquirer? := by
  cases e with
  | core e =>
    show none = ((ledEv s (.core e)).bind (Led.label s.led)).bind HandOver.acquirer?
    simp only [ledEv]
    cases robot.step s.core e <;> rfl
  | greenThread f => exact Turns.enters_eq Led.team s.led.green (.run f)
  | _ => rfl

theorem greenTurns_eq : greenTurns s fs = HandOver.turns (main.log greenCrew.lab s fs) := by
  have henters : enters = fun s e => (greenCrew.lab s e).bind HandOver.acquirer? := funext fun s => funext (enters_turn s)
  rw [greenTurns, henters]
  exact Machine.log_bind

theorem sections_eq (hs : main.Run es s) (h : main.execFrom s fs = some t) :
    Led.sections (main.log ledEv main.init (es ++ fs)) = main.log enters main.init es ++ greenTurns s fs := by
  have hrun : main.Run (es ++ fs) t := hs.append h
  rw [greenTurns, ← Machine.log_append enters hs]
  exact (toLed.log_eq (fun _ _ _ hrel => enters_led hrel) toLed.init hrun).symm

theorem getLast_of_tail {α : Type} {l : List α} {m : α} (hlen : 2 ≤ l.length) (h : ∀ i ∈ l.tail, i = m) :
    l.getLast? = some m := by
  match l, hlen with
  | x :: y :: l, _ =>
    rw [List.getLast?_cons_cons, List.getLast?_eq_some_getLast (List.cons_ne_nil y l)]
    exact congrArg some (h _ (List.getLast_mem _))

/-- Once `isMoving` has stood still for two turns, the last turn is the one it names. -/
theorem last_turn (hs : main.Reach s) (h : main.execFrom s fs = some t)
    (hb : ∀ u ∈ main.trail s fs, u.core.globals.isMoving = b) (hturns : 2 ≤ (greenTurns s fs).length) :
    (greenTurns s fs).getLast? = some (Led.team.wants b) := by
  refine getLast_of_tail hturns ?_
  rw [greenTurns_eq]
  refine HandOver.built_turns greenCrew hs h ?_
  intro u hu d hrel
  obtain ⟨⟨_, hflag⟩, rfl⟩ := hrel
  show Led.team.wants u.led.green.flag = _
  rw [hflag, hb u hu]

/-- Then, between turns, the LEDs say what `isMoving` says. -/
theorem lights_settle (hs : main.Run es s) (h : main.execFrom s fs = some t)
    (hb : ∀ u ∈ main.trail s fs, u.core.globals.isMoving = b) (hturns : 2 ≤ (greenTurns s fs).length)
    (hidle : ∀ f, t.led.green.busy f = 0) :
    (lit t.led = GREEN_PINS ↔ b = false) ∧ ((∃ p ∈ GREEN_PINS, lit t.led = [p]) ↔ b = true) := by
  have hrun : main.Run (es ++ fs) t := hs.append h
  obtain ⟨a, ha, rfl, _⟩ := toLed.exec toLed.init hrun
  have hlast : (Led.sections (main.log ledEv main.init (es ++ fs))).getLast? = some (Led.team.wants b) := by
    rw [sections_eq hs h, List.getLast?_append, last_turn ⟨es, hs⟩ h hb hturns]
    rfl
  obtain ⟨-, hall, hone⟩ := Led.idle_lit ha hidle
  change lit t.led = GREEN_PINS ↔ (Led.sections (main.log ledEv main.init (es ++ fs))).getLast? = _ at hall
  change (∃ p ∈ GREEN_PINS, lit t.led = [p]) ↔ (Led.sections (main.log ledEv main.init (es ++ fs))).getLast? = _ at hone
  rw [hlast] at hall hone
  refine ⟨hall.trans ?_, hone.trans ?_⟩
  · cases b <;> decide
  · cases b <;> decide

theorem lights_tell (hs : main.Run es s) (h : main.execFrom s fs = some t)
    (hb : ∀ u ∈ main.trail s fs, u.core.globals.isMoving = b) (hturns : 2 ≤ (greenTurns s fs).length)
    (hidle : ∀ f, t.led.green.busy f = 0) (hrest : AtRest t.core) :
    (lit t.led = GREEN_PINS ↔ ¬ t.core.regs.leftDriven ∧ ¬ t.core.regs.rightDriven) ∧
    ((∃ p ∈ GREEN_PINS, lit t.led = [p]) ↔ t.core.regs.leftDriven ∧ t.core.regs.rightDriven) := by
  have hrun : main.Run (es ++ fs) t := hs.append h
  obtain ⟨c, hc, rfl⟩ := toRobot.exec toRobot.init hrun
  obtain ⟨hall, hone⟩ := lights_settle hs h hb hturns hidle
  obtain ⟨hon, hoff⟩ := (hrest.driven hc).moving
  have hmoving : t.core.globals.isMoving = b := hb t (Machine.end_mem_trail h)
  cases b with
  | true =>
    obtain ⟨hl, hr⟩ := hon hmoving
    exact ⟨hall.trans (iff_of_false (by decide) fun hn => hn.1 hl), hone.trans (iff_of_true rfl ⟨hl, hr⟩)⟩
  | false =>
    obtain ⟨hl, hr⟩ := hoff hmoving
    exact ⟨hall.trans (iff_of_true rfl ⟨hl, hr⟩), hone.trans (iff_of_false (by decide) fun hd => hl hd.1)⟩

/-- The stationary thread's turn and the moving thread's first. -/
def twoTurns : List Ev :=
  List.flatten [List.replicate 5 (.greenThread .greenStationaryFlag), List.replicate 5 (.greenThread .greenMovingFlag)]

/-- The motors are set to full duty ahead; two turns later one green LED is lit. -/
theorem lights_tell_forward :
    let s : St := (main.execFrom main.init (forwardRun.map .core)).get rfl
    let t : St := (main.execFrom s twoTurns).get rfl
    (∃ p ∈ GREEN_PINS, lit t.led = [p]) ↔ t.core.regs.leftDriven ∧ t.core.regs.rightDriven := by
  intro s t
  have hs : main.Run (forwardRun.map .core) s := (Option.some_get _).symm
  have h : main.execFrom s twoTurns = some t := (Option.some_get _).symm
  have hb : ∀ u ∈ main.trail s twoTurns, u.core.globals.isMoving = true := by decide +kernel
  have hidle : ∀ f, t.led.green.busy f = 0 := by
    intro f
    cases f <;> rfl
  exact (lights_tell hs h hb (by decide +kernel) hidle ⟨rfl, rfl, rfl, rfl⟩).2

end Lights

end RobotCar.Receiver.Main
