/-
  RobotCar.Link.Silence — the whole system (`Link.System`) while the controller says nothing:
  the sketch's calls, the wire and the robot go on, and no Bluetooth callback runs.

  - `catches_up`: with Square released the wire and the core threads run down. However the
    rest is scheduled, their steps are bounded by what is on the wire and what is half done,
    and with none left the wire is empty and the robot at rest.
  - `wheels_settle`: if `isConnected()` is true, once the sketch has made a whole call in the
    silence and all is at rest, the motor registers are what the last report the sketch was
    handed asks for, with Square released; with Square pressed `isComplete` is set.
-/

import RobotCar.Link.Rest

namespace RobotCar.Link.System

open RobotCar.Lib
open Sender (Sample TPacket sendPacket makeMovementPacket makeAudioPacket controlFunction)
open Pad (sample reading)
open Receiver (Wheels AtRest Booted booted threads)

/-! ## What is left to do -/

/-- The system's own moves: a delivery, or a step of a core thread. -/
def own : Ev → Bool
  | .deliver => true
  | .robot (.core e) => threads e
  | _ => false

def isPad : Ev → Bool
  | .pad _ => true
  | _ => false

/-- Whether a call that sees `x` writes. -/
def wants (q : TPacket) (x : Sample) : Nat := (controlFunction q x 0).2.isSome.toNat

/-- The writes left while the library shows `x`: that of a call under way, and that of the next. -/
def writesLeft (q : TPacket) (x : Sample) : Option Call → Nat
  | none => wants q x
  | some p => (p.atOnce x).2.isSome.toNat + wants (p.atOnce x).1 x

/-- A delivery may call for a pass of both threads. -/
def left (s : St) : Nat :=
  20 * (writesLeft s.prevPacket (sample s.pad) s.loop + s.line.length) + Receiver.cost s.robot.core

/-- No audio command is due, whose field D is anyone's guess. -/
def NoSquare (x : Sample) : Prop := x.isConnected = true → x.Square = false

section Left

variable {q : TPacket} {x : Sample} {D : BitVec 1}

theorem packet_noSquare (hx : NoSquare x) : packet x D = packet x 0 := by
  unfold packet
  by_cases hc : x.isConnected = true
  · rw [if_pos hc, if_pos hc, hx hc]
    rfl
  · rw [if_neg hc, if_neg hc]

theorem controlFunction_noSquare (hx : NoSquare x) : controlFunction q x D = controlFunction q x 0 := by
  rw [controlFunction_eq, controlFunction_eq, packet_noSquare hx]

/-- A call that sees `x` leaves the next one nothing to write. -/
theorem wants_next (hx : NoSquare x) : wants (controlFunction q x D).1 x = 0 := by
  rw [wants, controlFunction_eq, controlFunction_eq, packet_noSquare (D := D) hx]
  cases packet x 0 <;> simp

theorem writesLeft_call (hx : NoSquare x) :
    writesLeft q x (some (Sender.Loop.controlFunction q D)) = writesLeft q x none := by
  simp only [writesLeft, Sender.controlFunction_atOnce, wants_next hx, Nat.add_zero]
  rw [wants, controlFunction_noSquare hx]

theorem writesLeft_le (call : Option Call) : writesLeft q x call ≤ 2 := by
  have hle (b : Bool) : b.toNat ≤ 1 := b.toNat_le
  cases call with
  | none => exact Nat.le_succ_of_le (hle _)
  | some p => exact Nat.add_le_add (hle _) (hle _)

/-- A byte costs the robot at most a pass of both threads. -/
theorem byte_cost (c : Receiver.St) (D : BitVec 8) : Receiver.cost (Receiver.UART2_IRQHandler c (some D)) ≤ Receiver.cost c + 19 := by
  have hflag : Receiver.serialFlagCost (Receiver.osSemaphoreRelease c.serialFlag) ≤ Receiver.serialFlagCost c.serialFlag + 19 := by
    cases c.serialFlag with
    | none => exact Nat.le_add_right _ _
    | some f =>
      rw [Receiver.osSemaphoreRelease_some]
      exact Nat.le_add_left _ _
  simp only [Receiver.cost, Receiver.UART2_IRQHandler]
  omega

end Left

section Silence

variable {es fs : List Ev} {s t : St} {e : Ev}

theorem left_down (he : own e = true) (h : Step s e t) : left t < left s := by
  cases h with
  | deliver D line r hline hr =>
    obtain ⟨c, hc, rfl⟩ := Receiver.Main.core_cases hr
    cases hc
    have hcost := byte_cost s.robot.core D
    simp only [left, hline, List.length_cons, Receiver.Main.St.share]
    simp only [Receiver.UART2_IRQHandler] at hcost
    omega
  | robot e r hb hr =>
    cases Receiver.Main.step_cases hr with
    | core e c hc =>
      have hcost := Receiver.step_cost (Receiver.step_cases hc) he
      simp only [left, Receiver.Main.St.share]
      omega
    | _ => cases he
  | _ => cases he

theorem left_stay (hx : NoSquare (sample s.pad)) (he : isPad e = false) (hown : own e = false) (h : Step s e t) :
    left t ≤ left s := by
  cases h with
  | pad e => cases he
  | call D hl =>
    simp only [left, hl, writesLeft_call hx]
    exact Nat.le_refl _
  | look D k hl =>
    simp only [left, hl]
    exact Nat.le_refl _
  | returns D prevPacket data hl =>
    have hdata : data.toList.length = data.isSome.toNat := by cases data <;> rfl
    simp only [left, hl, writesLeft, Prog.atOnce, List.length_append, hdata]
    omega
  | deliver D line r hline hr => cases hown
  | robot e r hb hr =>
    cases Receiver.Main.step_cases hr with
    | core e c hc =>
      cases Receiver.step_cases hc with
      | byte D => cases hb
      | noByte => exact Nat.le_refl _
      | _ => cases hown
    | _ => exact Nat.le_refl _

/-! ## It is done -/

/-- Without the controller, the wire and the core threads run down. -/
def silent : Ranking system where
  moves := own
  idle e := !isPad e && !own e
  inv s := Booted s.robot.core ∧ NoSquare (sample s.pad)
  rank := left
  keep := by
    intro s e t hi he h
    obtain ⟨hb, hx⟩ := hi
    cases step_cases h with
    | pad e => rcases he with he | he <;> cases he
    | call D _ => exact ⟨hb, hx⟩
    | look D k _ => exact ⟨hb, hx⟩
    | returns D prevPacket data _ => exact ⟨hb, hx⟩
    | deliver D line r _ hr =>
      obtain ⟨c, hc, rfl⟩ := Receiver.Main.core_cases hr
      exact ⟨Receiver.step_booted hc hb, hx⟩
    | robot e r _ hr =>
      refine ⟨?_, hx⟩
      cases Receiver.Main.step_cases hr with
      | core e c hc => exact Receiver.step_booted (Receiver.step_cases hc) hb
      | audio f a _ _ => exact hb
      | green f l _ _ => exact hb
      | red l _ _ => exact hb
  down _ he h := left_down he (step_cases h)
  stay := by
    intro s e t hi he h
    simp only [Bool.and_eq_true, Bool.not_eq_true'] at he
    exact left_stay hi.2 he.1 he.2 (step_cases h)

theorem still_line (hb : Booted s.robot.core) (h : silent.Still s) : s.line = [] ∧ AtRest s.robot.core := by
  constructor
  · have hdeliver : step s .deliver = none := h .deliver rfl
    cases hline : s.line with
    | nil => rfl
    | cons D line =>
      simp only [step, hline] at hdeliver
      cases hdeliver
  · refine Receiver.still_rest hb ?_
    intro e he
    have hcore : step s (.robot (.core e)) = none := h (.robot (.core e)) he
    have hb : bringsByte (.core e) = false := by
      cases e with
      | irq D => cases he
      | _ => rfl
    simpa [step, hb, Receiver.Main.main, Receiver.Main.step] using hcore

theorem catches_up (hs : system.Run es s) (hx : NoSquare (sample s.pad)) (h : system.execFrom s fs = some t)
    (hpad : ∀ e, .pad e ∉ fs) :
    fs.countP own ≤ 20 * (s.line.length + 2) + 58 ∧
    ((∀ e, own e = true → system.step t e = none) → t.line = [] ∧ AtRest t.robot.core) ∧
    ∃ gs u, (∀ e ∈ gs, own e = true) ∧ system.execFrom t gs = some u ∧ u.line = [] ∧ AtRest u.robot.core := by
  have hcore : Receiver.robot.Reach s.robot.core := ⟨_, core_run hs⟩
  have hsilent : ∀ e ∈ fs, silent.moves e = true ∨ silent.idle e = true := by
    intro e he
    cases hown : own e with
    | true => exact .inl hown
    | false =>
      refine .inr ?_
      cases e with
      | pad e => exact absurd he (hpad e)
      | _ => simp [silent, isPad, hown]
  have hi : silent.inv s := ⟨booted hcore, hx⟩
  have hbound := silent.bounded hi h hsilent
  have hcost := Receiver.cost_le hcore
  have hwrites := writesLeft_le (q := s.prevPacket) (x := sample s.pad) s.loop
  have hleft : left s ≤ 20 * (s.line.length + 2) + 58 := by
    unfold left
    omega
  have ht : silent.inv t := silent.kept hi h hsilent
  refine ⟨?_, still_line ht.1, ?_⟩
  · exact Nat.le_trans (Nat.le_of_add_right_le hbound) hleft
  · obtain ⟨gs, u, hgs, hu, hstill⟩ := silent.runs_down ht
    have hu' := silent.kept ht hu fun e he => .inl (hgs e he)
    exact ⟨gs, u, hgs, hu, still_line hu'.1 hstill⟩

theorem no_pad_answered : ∀ e, .pad e ∉ answered := by simp [answered]

theorem catches_up_ahead : answered.countP own ≤ 98 := by
  have hs : system.Run ahead ((system.execFrom system.init ahead).get rfl) := (Option.some_get _).symm
  exact (catches_up hs (fun _ => rfl) (Option.some_get (h := rfl)).symm no_pad_answered).1

/-! ## The sketch in the silence -/

theorem silent_pad (h : system.execFrom s fs = some t) (hpad : ∀ e, .pad e ∉ fs) : t.pad = s.pad := by
  refine Machine.exec_induction (P := fun fs t => (∀ e, .pad e ∉ fs) → t.pad = s.pad) (fun _ => rfl) ?_ h hpad
  intro fs u e v _ ih he hpad
  have hu := ih fun e he => hpad e (List.mem_append_left _ he)
  cases step_cases he with
  | pad e => exact absurd (List.mem_append_right fs (.head _)) (hpad e)
  | _ => exact hu

/-- The packet remembered is one a call at `x` makes. -/
def Made (x : Sample) (q : TPacket) : Prop := x.isConnected = true → ∃ D, packet x D = some q

theorem made_call {x : Sample} {q : TPacket} {D : BitVec 1} : Made x (controlFunction q x D).1 := by
  intro hc
  rw [controlFunction_eq]
  exact ⟨D, by simp [packet, hc]⟩

/-- What a silence keeps of the sketch. -/
structure Quiet (s : St) (fs : List Ev) (t : St) : Prop where
  saw : Saw (· = sample s.pad) t.prevPacket t.loop
  made : (∃ D, .loop D ∈ fs) → t.loop = none → Made (sample s.pad) t.prevPacket

theorem quiet_run (hcall : s.loop = none) (hpad : ∀ e, .pad e ∉ fs) (h : system.execFrom s fs = some t) :
    Quiet s fs t := by
  have hstart : Saw (· = sample s.pad) s.prevPacket s.loop := by
    rw [hcall]
    exact saw_none
  refine Machine.exec_induction (P := fun fs t => (∀ e, .pad e ∉ fs) → Quiet s fs t)
    (fun _ => ⟨hstart, fun h => absurd h.choose_spec List.not_mem_nil⟩) ?_ h hpad
  intro fs u e v hu ih he hpad
  have hbefore : ∀ e, .pad e ∉ fs := fun e he => hpad e (List.mem_append_left _ he)
  obtain ⟨hsaw, hmade⟩ := ih hbefore
  -- a step of neither the sketch nor the library
  have hother {D : BitVec 1} (hne : ∀ D, e ≠ .loop D) (hD : .loop D ∈ fs ++ [e]) : .loop D ∈ fs := by
    rcases List.mem_append.mp hD with hD | hD
    · exact hD
    · exact absurd (List.mem_singleton.mp hD).symm (hne D)
  cases step_cases he with
  | pad e => exact absurd (List.mem_append_right fs (.head _)) (hpad e)
  | call D _ => exact ⟨saw_call, nofun⟩
  | look D k hl =>
    rw [hl] at hsaw
    refine ⟨hsaw.look (congrArg sample (silent_pad hu hbefore)), ?_⟩
    intro _ hnone
    cases hnone
  | returns D prevPacket data hl =>
    rw [hl] at hsaw
    obtain ⟨D', seen, hsees, hx⟩ := hsaw.ret
    refine ⟨saw_none, ?_⟩
    intro _ _
    rw [show prevPacket = (controlFunction u.prevPacket (sample s.pad) D').1 from congrArg Prod.fst (Sender.call_still hsees hx)]
    exact made_call
  | deliver D line r _ _ => exact ⟨hsaw, fun hD hnone => hmade (hD.imp fun _ => hother nofun) hnone⟩
  | robot e r _ _ => exact ⟨hsaw, fun hD hnone => hmade (hD.imp fun _ => hother nofun) hnone⟩

/-! ## Where the wheels settle -/

/-- A silence of the library from a moment at which no call is under way, in which the sketch
    has made a whole call and all has come to rest. -/
structure Silence (es : List Ev) (s : St) (fs : List Ev) (t : St) : Prop where
  run : system.Run es s
  exec : system.execFrom s fs = some t
  quiet : ∀ e, .pad e ∉ fs
  before : s.loop = none
  called : ∃ D, .loop D ∈ fs
  after : t.loop = none
  line : t.line = []
  rest : AtRest t.robot.core

theorem Silence.ends (h : Silence es s fs t) : system.Run (es ++ fs) t := h.run.append h.exec

/-- The packet remembered is the one the last report makes. -/
theorem Silence.made (h : Silence es s fs t) (hconn : s.pad.is_active = true) :
    ∃ D, (if squareOf (lastReport es) then makeAudioPacket D else makeMovementPacket (sample s.pad)) = t.prevPacket := by
  obtain ⟨D, hmade⟩ := (quiet_run h.before h.quiet h.exec).made h.called h.after hconn
  have hshown : (sample s.pad).isConnected = true := hconn
  rw [packet, if_pos hshown, Option.some.injEq, (sample_report h.run).2] at hmade
  exact ⟨D, hmade⟩

theorem Silence.regs (h : Silence es s fs t) (hconn : s.pad.is_active = true) (hsq : squareOf (lastReport es) = false) :
    t.robot.core.regs = (askedOf (lastReport es)).regs := by
  obtain ⟨D, hmade⟩ := h.made hconn
  rw [hsq] at hmade
  rw [rest_drives h.ends h.line h.rest hmade.symm, (sample_report h.run).1]

theorem wheels_settle (h : Silence es s fs t) (hconn : s.pad.is_active = true) :
    (squareOf (lastReport es) = false → t.robot.core.regs = (askedOf (lastReport es)).regs) ∧
    (squareOf (lastReport es) = true → t.robot.core.globals.isComplete = true) := by
  refine ⟨h.regs hconn, ?_⟩
  intro hsq
  obtain ⟨D, hmade⟩ := h.made hconn
  rw [hsq] at hmade
  exact rest_complete h.ends h.line h.rest hmade.symm

theorem silence_ahead : Silence ahead ((system.execFrom system.init ahead).get rfl) answered
    ((system.execFrom system.init (ahead ++ answered)).get rfl) where
  run := (Option.some_get _).symm
  exec := (Option.some_get (h := rfl)).symm
  quiet := no_pad_answered
  before := rfl
  called := ⟨0, by simp [answered]⟩
  after := rfl
  line := rfl
  rest := ⟨rfl, rfl, rfl, rfl⟩

theorem wheels_settle_ahead : ((system.execFrom system.init (ahead ++ answered)).get rfl).robot.core.regs =
    (askedBytes fun i => if i = 14 then 0 else 0x80).regs :=
  (wheels_settle silence_ahead rfl).1 rfl

end Silence

end RobotCar.Link.System
