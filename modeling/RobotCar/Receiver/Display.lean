/-
  RobotCar.Receiver.Display — what the green LEDs show (`Receiver.Led`), whichever way and
  however often `isMoving` changes. The red thread writes the same latch, outside the
  green pins; seen through the mask of the green pins (`led_view`) the green threads are a
  team that has the port to itself.

  - `shown`: the pattern of a list of sections is that of its last one; of the moving
    thread's sections the `k`-th shows `GREEN_LEDS[k]`, counted round.
  - `settled`: with no store of a section left, the latch shows that pattern.
  - `green_keeps_red`, `red_keeps_green`: neither side touches the other's pins.
-/

import RobotCar.Lib.Sections
import RobotCar.Receiver.Pairs

namespace RobotCar.Receiver.Led

open RobotCar.Lib
open Turns (Upkeep)

/-! ## The green pins -/

def GREEN_PINS : List Nat := [4, 5, 6, 10, 11, 12, 13, 16]

def GREEN : BitVec 32 := MASK 4 ||| MASK 5 ||| MASK 6 ||| MASK 10 ||| MASK 11 ||| MASK 12 ||| MASK 13 ||| MASK 16

/-- The green pins that are set. -/
def pins (latch : BitVec 32) : List Nat := GREEN_PINS.filter latch.getLsbD

def lit (s : St) : List Nat := pins s.green.device

theorem pins_mask (latch : BitVec 32) : pins (latch &&& GREEN) = pins latch := by
  have hgreen : ∀ p ∈ GREEN_PINS, GREEN.getLsbD p = true := by decide
  refine List.filter_congr ?_
  intro p hp
  rw [BitVec.getLsbD_and, hgreen p hp, Bool.and_true]

/-- A store, as far as the green pins go. -/
def putGreen (d : BitVec 32) : Stmt → BitVec 32
  | .PSOR m => d ||| (m &&& GREEN)
  | w => put d w

theorem put_view (d : BitVec 32) (w : Stmt) : putGreen (d &&& GREEN) w = put d w &&& GREEN := by
  cases w with
  | PSOR m => exact (BitVec.and_or_distrib_right ..).symm
  | PCOR m =>
    show d &&& GREEN &&& ~~~m = d &&& ~~~m &&& GREEN
    rw [BitVec.and_assoc, BitVec.and_comm GREEN, BitVec.and_assoc]
  | osDelay ms => rfl

/-- The green threads with the green pins. -/
def greens : Turns.Team Flag Stmt (BitVec 32) := team.view (· &&& GREEN) putGreen

theorem loops_pos (f : Flag) : 0 < (greens.routine f).loops := by
  cases f <;> decide

/-! ## The red thread leaves them alone -/

theorem red_store {w : Stmt} (h : w ∈ redMovingThread) (d : BitVec 32) : put d w &&& GREEN = d &&& GREEN := by
  simp only [redMovingThread, List.mem_cons, List.not_mem_nil, or_false] at h
  have hmask : ~~~(MASK 7) &&& GREEN = GREEN ∧ MASK 7 &&& GREEN = 0#32 := by decide
  rcases h with h | h | h | h
  · rw [h, put, BitVec.and_assoc, hmask.1]
  · rw [h, put]
  · rw [h, put, BitVec.and_or_distrib_right, hmask.2, BitVec.or_zero]
  · rw [h, put]

def led_view : Simulation led (greens.machine false) where
  rel s a := s.green.view (· &&& GREEN) = a ∧ s.red <:+ redMovingThread
  lab _ e :=
    match e with
    | .green g => some g
    | .red => none
  init := ⟨rfl, List.suffix_refl _⟩
  step := by
    intro s a e t hrel h
    obtain ⟨rfl, hred⟩ := hrel
    cases e with
    | green g =>
      obtain ⟨u, hu, rfl⟩ := Option.map_eq_some_iff.mp h
      refine ⟨u.view (· &&& GREEN), ?_, rfl, hred⟩
      have hview := Turns.view_step (T := team) put_view s.green g
      rw [hu] at hview
      exact hview
    | red =>
      simp only [led, step] at h
      split at h
      · rename_i w ws hw
        cases h
        rw [hw] at hred
        refine ⟨?_, (List.suffix_cons w ws).trans hred⟩
        exact congrArg s.green.setDevice (red_store (hred.subset (.head _)) s.green.device)
      · cases h
        exact ⟨rfl, List.suffix_refl _⟩

/-- The green threads' part of a schedule. -/
def greenEvs (es : List Ev) : List (Turns.Ev Flag) := led.log led_view.lab led.init es

/-- Whose critical sections began, in order. -/
def sections (es : List Ev) : List Flag :=
  led.log (fun s e =>
    match e with
    | .green g => Turns.enters s.green g
    | .red => none) led.init es

section Runs

variable {es : List Ev} {s t : St}

theorem view_run (h : led.Run es s) :
    (greens.machine false).Run (greenEvs es) (s.green.view (· &&& GREEN)) ∧ s.red <:+ redMovingThread := by
  obtain ⟨_, hrun, rfl, hred⟩ := led_view.exec led_view.init h
  exact ⟨hrun, hred⟩

theorem sections_view (h : led.Run es s) : sections es = Turns.sections greens false (greenEvs es) := by
  refine led_view.log_eq ?_ led_view.init h
  intro s a e hrel
  obtain ⟨rfl, _⟩ := hrel
  cases e <;> rfl

end Runs

/-! ## The pattern of the last section -/

def shown (is : List Flag) : BitVec 32 :=
  match is.getLast? with
  | none => 0
  | some .greenStationaryFlag => GREEN
  | some .greenMovingFlag => GREEN_LEDS.getD ((is.count .greenMovingFlag - 1) % GREEN_LEDS.length) 0

/-- The patterns light green pins only. -/
theorem shown_green (is : List Flag) : shown is &&& GREEN = shown is := by
  have hleds : ∀ i < GREEN_LEDS.length, GREEN_LEDS.getD i 0 &&& GREEN = GREEN_LEDS.getD i 0 := by decide
  unfold shown
  split
  · decide
  · decide
  · exact hleds _ (Nat.mod_lt _ (by decide))

/-- `GreenOff` and the store after it, from one pattern to another. -/
theorem off_then (is : List Flag) (m : BitVec 32) (hm : m &&& GREEN = m) :
    putGreen (putGreen (shown is) GreenOff) (.PSOR m) = m := by
  have hoff : shown is &&& ~~~GREEN = 0#32 := by
    rw [← shown_green is, BitVec.and_assoc]
    have : GREEN &&& ~~~GREEN = 0#32 := by decide
    rw [this, BitVec.and_zero]
  show (shown is &&& ~~~GREEN) ||| (m &&& GREEN) = m
  rw [hoff, hm, BitVec.zero_or]

theorem turn_shows (is : List Flag) (f : Flag) :
    Stores.after putGreen (shown is) ((greens.routine f).turn (is.count f)) = shown (is ++ [f]) := by
  have hnext : shown (is ++ [f]) &&& GREEN = shown (is ++ [f]) := shown_green _
  cases f with
  | greenMovingFlag =>
    have hshown : shown (is ++ [.greenMovingFlag]) =
        GREEN_LEDS.getD (is.count .greenMovingFlag % GREEN_LEDS.length) 0 := by
      simp [shown]
    rw [hshown] at hnext ⊢
    exact off_then is _ hnext
  | greenStationaryFlag =>
    have hshown : shown (is ++ [.greenStationaryFlag]) = GREEN := by
      simp [shown]
    rw [hshown] at hnext ⊢
    exact off_then is _ hnext

def display : Upkeep greens where
  holds is d := d = shown is
  start := rfl
  turn is f d h := by
    cases h
    exact turn_shows is f
  rest f w hw d := by
    cases f with
    | greenMovingFlag =>
      cases List.mem_singleton.mp hw
      rfl
    | greenStationaryFlag => cases hw

/-- The pins a display shows whose last section was `last`'s. -/
def Legal (last : Option Flag) (ps : List Nat) : Prop :=
  match last with
  | none => ps = []
  | some .greenStationaryFlag => ps = GREEN_PINS
  | some .greenMovingFlag => ∃ p ∈ GREEN_PINS, ps = [p]

theorem shown_legal (is : List Flag) : Legal is.getLast? (pins (shown is)) := by
  have hnone : pins 0 = [] := by decide
  have hall : pins GREEN = GREEN_PINS := by decide
  have hleds : ∀ i < GREEN_LEDS.length, ∃ p ∈ GREEN_PINS, pins (GREEN_LEDS.getD i 0) = [p] := by decide
  unfold shown
  split
  · rename_i hlast
    rw [hlast]
    exact hnone
  · rename_i hlast
    rw [hlast]
    exact hall
  · rename_i hlast
    rw [hlast]
    exact hleds _ (Nat.mod_lt _ (by decide))

/-- No two of the three are the same pins. -/
theorem Legal.tells {last : Option Flag} {ps : List Nat} (h : Legal last ps) :
    (ps = [] ↔ last = none) ∧ (ps = GREEN_PINS ↔ last = some .greenStationaryFlag) ∧
    ((∃ p ∈ GREEN_PINS, ps = [p]) ↔ last = some .greenMovingFlag) := by
  have hsome : GREEN_PINS ≠ [] := by decide
  have hone : ∀ p, [p] ≠ GREEN_PINS := fun p hp => absurd (congrArg List.length hp) (by simp [GREEN_PINS])
  cases last with
  | none =>
    cases h
    simp [hsome.symm]
  | some f =>
    cases f with
    | greenStationaryFlag =>
      cases h
      simp [hsome, (hone _).symm]
    | greenMovingFlag =>
      obtain ⟨p, hp, rfl⟩ := h
      simp [hp, hone]

section Runs

variable {es : List Ev} {s t : St}

/-- With no store of a section left, the green pins show the last section's pattern. -/
theorem settled (h : led.Run es s) (hleft : ∀ f, (s.green.thread f).pc.left = []) :
    s.green.device &&& GREEN = shown (sections es) := by
  rw [sections_view h]
  exact display.settled loops_pos (view_run h).1 hleft

theorem idle_lit (h : led.Run es s) (hidle : ∀ f, s.green.busy f = 0) :
    (lit s = [] ↔ sections es = []) ∧
    (lit s = GREEN_PINS ↔ (sections es).getLast? = some .greenStationaryFlag) ∧
    ((∃ p ∈ GREEN_PINS, lit s = [p]) ↔ (sections es).getLast? = some .greenMovingFlag) := by
  have hlegal := shown_legal (sections es)
  rw [← settled h fun f => Turns.left_of_idle (hidle f), pins_mask] at hlegal
  obtain ⟨hnone, hall, hone⟩ := hlegal.tells
  exact ⟨hnone.trans List.getLast?_eq_none_iff, hall, hone⟩

/-- About to hand on, the moving thread has lit the next LED round, alone. -/
theorem chase (h : led.Run es s) {j : Flag} {k : Nat} (hpc : (s.green.thread .greenMovingFlag).pc = .release j)
    (hk : (sections es).count .greenMovingFlag = k + 1) :
    s.green.device &&& GREEN = GREEN_LEDS.getD (k % GREEN_LEDS.length) 0 := by
  have hbusy : s.green.busy .greenMovingFlag = 1 := by
    simp [Turns.busy_eq, hpc, Turns.Pc.phase, HandOver.Phase.busy]
  have hleft : ∀ f, (s.green.thread f).pc.left = [] := by
    intro f
    cases f with
    | greenMovingFlag => rw [hpc]; rfl
    | greenStationaryFlag =>
      refine Turns.left_of_idle (Nat.eq_zero_of_not_pos ?_)
      intro hpos
      cases (led_token ⟨es, h⟩).exclusive _ _ (Turns.busy_one hpos) hbusy
  obtain ⟨js, d, hjs, _, _, _⟩ := display.at_point (i := .greenMovingFlag) loops_pos (view_run h).1 hbusy
  have hlast : (sections es).getLast? = some .greenMovingFlag := by
    rw [sections_view h, hjs, List.getLast?_concat]
  rw [settled h hleft, shown, hlast, hk, Nat.add_sub_cancel]

/-! ## Neither side touches the other's pins -/

theorem green_store {f : Flag} {w : Stmt} {k : Nat} (h : w ∈ (greens.routine f).turn k ∨ w ∈ (greens.routine f).rest)
    (d : BitVec 32) : (put d w).getLsbD 7 = d.getLsbD 7 := by
  have hgreen : GREEN.getLsbD 7 = false := by decide
  have hleds : ∀ i < GREEN_LEDS.length, (GREEN_LEDS.getD i 0).getLsbD 7 = false := by decide
  have hoff : (put d GreenOff).getLsbD 7 = d.getLsbD 7 := by
    show (d &&& ~~~GREEN).getLsbD 7 = _
    rw [BitVec.getLsbD_and, BitVec.getLsbD_not, hgreen]
    exact Bool.and_true _
  have hon : ∀ m : BitVec 32, m.getLsbD 7 = false → (put d (.PSOR m)).getLsbD 7 = d.getLsbD 7 := by
    intro m hm
    show (d ||| m).getLsbD 7 = _
    rw [BitVec.getLsbD_or, hm, Bool.or_false]
  cases f with
  | greenMovingFlag =>
    rcases h with h | h
    · rcases List.mem_cons.mp h with h | h
      · rw [h, hoff]
      · rw [List.mem_singleton.mp h]
        exact hon _ (hleds _ (Nat.mod_lt _ (by decide)))
    · rw [List.mem_singleton.mp h]
      rfl
  | greenStationaryFlag =>
    rcases h with h | h
    · rcases List.mem_cons.mp h with h | h
      · rw [h, hoff]
      · rw [List.mem_singleton.mp h]
        exact hon _ hgreen
    · cases h

theorem green_keeps_red (h : led.Run es s) {g : Turns.Ev Flag} (hg : led.step s (.green g) = some t) :
    t.green.device.getLsbD 7 = s.green.device.getLsbD 7 := by
  obtain ⟨u, hu, rfl⟩ := Option.map_eq_some_iff.mp hg
  cases g with
  | setFlag b =>
    cases hu
    rfl
  | run f =>
    have hp : Turns.Progress (greens.routine f) _ (s.green.thread f) := Turns.progress loops_pos (view_run h).1 f
    cases Turns.run_cases hu with
    | work w ws hpc =>
      simp only [Turns.Progress, hpc] at hp
      obtain ⟨k, _, _, hws⟩ := hp
      exact green_store (.inl (hws.subset (.head _))) s.green.device
    | rest w ws hpc =>
      simp only [Turns.Progress, hpc] at hp
      obtain ⟨_, _, _, hws⟩ := hp
      exact green_store (k := 0) (.inr (hws.subset (.head _))) s.green.device
    | acquire => rfl
    | test => rfl
    | release => rfl
    | loop => rfl

theorem red_keeps_green (h : led.Run es s) (hr : led.step s .red = some t) : lit t = lit s := by
  have hred := (view_run h).2
  simp only [led, step] at hr
  split at hr
  · rename_i w ws hw
    cases hr
    rw [hw] at hred
    have hstore := red_store (hred.subset (.head _)) s.green.device
    exact (pins_mask _).symm.trans ((congrArg pins hstore).trans (pins_mask _))
  · cases hr
    rfl

theorem display_legal (h : led.Run es s) :
    ((∀ f, s.green.busy f = 0) →
      (lit s = [] ↔ sections es = []) ∧
      (lit s = GREEN_PINS ↔ (sections es).getLast? = some .greenStationaryFlag) ∧
      ((∃ p ∈ GREEN_PINS, lit s = [p]) ↔ (sections es).getLast? = some .greenMovingFlag)) ∧
    (∀ j k, (s.green.thread .greenMovingFlag).pc = .release j → (sections es).count .greenMovingFlag = k + 1 →
      s.green.device &&& GREEN = GREEN_LEDS.getD (k % GREEN_LEDS.length) 0) ∧
    (∀ g t, led.step s (.green g) = some t → t.green.device.getLsbD 7 = s.green.device.getLsbD 7) ∧
    ∀ t, led.step s .red = some t → lit t = lit s :=
  ⟨idle_lit h, fun _ _ => chase h, fun _ _ => green_keeps_red h, fun _ => red_keeps_green h⟩

/-- The stationary thread has lit all eight and handed over; the chase begins at pin 4. -/
theorem display_legal_chase :
    let es : List Ev := List.flatten [List.replicate 3 (.green (.run .greenStationaryFlag)), [.red, .green (.setFlag true)],
      List.replicate 2 (.green (.run .greenStationaryFlag)), List.replicate 4 (.green (.run .greenMovingFlag))]
    ((led.execFrom led.init es).get rfl).green.device &&& GREEN = GREEN_LEDS.getD 0 0 := by
  intro es
  exact (display_legal (Option.some_get _).symm).2.1 .greenMovingFlag 0 rfl rfl

end Runs

end RobotCar.Receiver.Led
