/-
  RobotCar.Link.Rest — the whole system (`Link.System`) with the robot at rest: nothing on the
  wire, both threads of the robot waiting.

  - `rest_decoded`: the robot has acted on the packet the sketch remembers.
  - `keeps_driving`: losing the connection stops nothing. From a moment at which no call is
    under way, and while `isConnected()` is false, a robot at rest keeps its globals and its
    motor registers. A call that has passed its `isConnected()` would still write.
-/

import RobotCar.Link.System

namespace RobotCar.Link.System

open RobotCar.Lib
open Sender (Sample TPacket initPacket sendPacket makeMovementPacket makeAudioPacket controlFunction transmit)
open Pad (sample)
open Receiver (robot decode AtRest)

/-! ## The newest byte -/

/-- The newest byte written is the packet remembered. -/
theorem transmit_last (q : TPacket) (calls : List (Sample × BitVec 1)) :
    ((transmit q calls).filterMap id).getLast?.getD (sendPacket q) = sendPacket (remembered q calls) := by
  induction calls generalizing q with
  | nil => rfl
  | cons c calls ih =>
    obtain ⟨x, D⟩ := c
    have hnext := ih (controlFunction q x D).1
    simp only [transmit, remembered, List.foldl_cons] at hnext ⊢
    rw [← remembered] at hnext ⊢
    rw [← hnext, controlFunction_eq]
    by_cases hp : (packet x D).getD q = q
    · simp [hp]
    · simp [hp, List.getLast?_cons]

section Rest

variable {es fs : List Ev} {s t : St} {e : Ev}

theorem newest_sent (h : system.Run es s) : (sent es).getLast?.getD 0 = sendPacket s.prevPacket := by
  obtain ⟨calls, hret, hprev, -⟩ := sender_inv h
  rw [sent_returned, hret, hprev]
  exact transmit_last initPacket calls

/-! ## The robot at rest -/

theorem received_eq {cs : List Receiver.Ev} {c : Receiver.St} (h : robot.Run cs c) :
    c.received_byte = (Receiver.arrivals cs).getLast?.getD 0 := by
  refine view_latest Receiver.St.received_byte ?_ h
  intro s e t he
  cases Receiver.step_cases he <;> rfl

theorem decodeCalls_last {cs : List Receiver.Ev} {c : Receiver.St} (h : robot.Run cs c) (hrest : AtRest c) :
    ∃ g, c.globals = decode g c.received_byte := by
  obtain ⟨hcall, hidle, -⟩ := hrest.idle
  have hlast := Receiver.last_decodeCall h hrest.serialFlag hcall
  obtain ⟨bs, hbs⟩ := List.getLast?_eq_some_iff.mp hlast
  refine ⟨bs.foldl decode .init, ?_⟩
  rw [Receiver.globals_eq h hidle, hbs, List.foldl_append]
  rfl

/-- With the wire empty, the robot at rest has acted on the packet the sketch remembers. -/
theorem rest_decoded (h : system.Run es s) (hline : s.line = []) (hrest : AtRest s.robot.core) :
    ∃ g, s.robot.core.globals = decode g (sendPacket s.prevPacket) := by
  have hcore := core_run h
  have hsent := sent_eq h
  rw [hline, List.append_nil] at hsent
  have hbyte : s.robot.core.received_byte = sendPacket s.prevPacket := by
    rw [received_eq hcore, hsent, newest_sent h]
  rw [← hbyte]
  exact decodeCalls_last hcore hrest

theorem rest_drives (h : system.Run es s) (hline : s.line = []) (hrest : AtRest s.robot.core) {x : Sample}
    (hx : s.prevPacket = makeMovementPacket x) : s.robot.core.regs = (asked x).regs := by
  obtain ⟨g, hg⟩ := rest_decoded h hline hrest
  rw [hrest.regs (core_run h), hg, hx, ← drive_eq x g .zero]
  rfl

theorem rest_complete (h : system.Run es s) (hline : s.line = []) (hrest : AtRest s.robot.core) {D : BitVec 1}
    (hD : s.prevPacket = makeAudioPacket D) : s.robot.core.globals.isComplete = true := by
  obtain ⟨g, hg⟩ := rest_decoded h hline hrest
  have haudio : s.robot.core.globals = act g (makeAudioPacket D) := by rw [hg, hD]; rfl
  rw [haudio, act_audio]

/-! ## Nothing to say -/

variable {K : Sample → Prop}

/-- A call that sees such samples only writes nothing and remembers what it did before. -/
def Mute (q : TPacket) (K : Sample → Prop) : Prop :=
  ∀ D seen out, (Sender.Loop.controlFunction q D).Sees seen out → (∀ x ∈ seen, K x) → out = (q, none)

/-- The system at rest since `s`, but for calls that have seen such samples. -/
structure Undisturbed (K : Sample → Prop) (s t : St) : Prop where
  prevPacket : t.prevPacket = s.prevPacket
  line : t.line = []
  core : Receiver.Kept s.robot.core t.robot.core
  call : Saw K s.prevPacket t.loop

theorem undisturbed_step {u : St} (hm : Mute s.prevPacket K) (hi : Undisturbed K s u) (hx : K (sample u.pad))
    (he : system.step u e = some t) : Undisturbed K s t := by
  obtain ⟨hprev, hline, hcore, hcall⟩ := hi
  cases step_cases he with
  | pad e => exact ⟨hprev, hline, hcore, hcall⟩
  | call D _ =>
    refine ⟨hprev, hline, hcore, ?_⟩
    rw [← hprev]
    exact saw_call
  | look D k hl =>
    rw [hl] at hcall
    exact ⟨hprev, hline, hcore, hcall.look hx⟩
  | returns D prevPacket data hl =>
    rw [hl] at hcall
    obtain ⟨D', seen, hsees, hseen⟩ := hcall.ret
    obtain ⟨rfl, rfl⟩ := Prod.mk.inj (hm D' seen _ hsees hseen)
    exact ⟨rfl, by simp [hline], hcore, saw_none⟩
  | deliver D line r hbyte _ =>
    rw [hline] at hbyte
    cases hbyte
  | robot e r hb hr =>
    refine ⟨hprev, hline, ?_, hcall⟩
    cases Receiver.Main.step_cases hr with
    | core e c hc =>
      have hstep := hcore.rest.step (Receiver.step_cases hc) fun D h => by simp [h, bringsByte] at hb
      exact ⟨hstep.rest, hstep.globals.trans hcore.globals, hstep.regs.trans hcore.regs⟩
    | audio f a _ _ => exact hcore
    | green f l _ _ => exact hcore
    | red l _ _ => exact hcore

theorem undisturbed_run (hm : Mute s.prevPacket K) (hcall : s.loop = none) (hline : s.line = [])
    (hrest : AtRest s.robot.core) (h : system.execFrom s fs = some t)
    (hx : ∀ u ∈ system.trail s fs, K (sample u.pad)) : Undisturbed K s t := by
  have hstart : Undisturbed K s s := by
    refine ⟨rfl, hline, ⟨hrest, rfl, rfl⟩, ?_⟩
    rw [hcall]
    exact saw_none
  refine Machine.exec_induction (P := fun fs t => (∀ u ∈ system.trail s fs, K (sample u.pad)) → Undisturbed K s t)
    (fun _ => hstart) ?_ h hx
  intro fs u e v hu ih he hx
  rw [Machine.trail_snoc hu he] at hx
  have hlast : K (sample u.pad) := hx u (List.mem_append_left _ (Machine.end_mem_trail hu))
  exact undisturbed_step hm (ih fun w hw => hx w (List.mem_append_left _ hw)) hlast he

/-! ## The connection is lost -/

theorem mute_lost (q : TPacket) : Mute q fun x => x.isConnected = false := by
  intro D seen out h hseen
  obtain ⟨x, hsettled, hout⟩ := Sender.call_settles h
  obtain ⟨y, hy, hconn⟩ := hsettled.isConnected
  rw [hout, controlFunction_eq, packet, hconn, hseen y hy]
  simp

theorem keeps_driving (hcall : s.loop = none) (hline : s.line = []) (hrest : AtRest s.robot.core)
    (h : system.execFrom s fs = some t) (hlost : ∀ u ∈ system.trail s fs, u.pad.is_active = false) :
    t.line = [] ∧ AtRest t.robot.core ∧ t.robot.core.globals = s.robot.core.globals ∧
      t.robot.core.regs = s.robot.core.regs := by
  obtain ⟨-, hline', hcore, -⟩ := undisturbed_run (mute_lost _) hcall hline hrest h hlost
  exact ⟨hline', hcore.rest, hcore.globals, hcore.regs⟩

/-- The left stick is pushed forward, twice. -/
def ahead : List Ev :=
  [.pad (.data_ind 0x41 ⟨79, ⟨7, fun i => if i = 14 then 0 else 0x80⟩⟩),
    .pad (.data_ind 0x41 ⟨79, ⟨8, fun i => if i = 14 then 0 else 0x80⟩⟩)]

/-- One call, its byte delivered, and the robot started and run to rest. -/
def answered : List Ev :=
  List.flatten [List.replicate 10 (.loop 0), [.deliver], Receiver.lastSteps.map fun e => .robot (.core e)]

/-- The robot goes on ahead when the connection is lost. -/
theorem keeps_driving_ahead :
    let s : St := (system.execFrom system.init (ahead ++ answered ++ [.pad (.disconnect_ind 0x41 true)])).get (by decide +kernel)
    let fs : List Ev := List.flatten [List.replicate 5 (.loop 0), [.robot (.core (.irq none)), .robot .redMovingThread]]
    ((system.execFrom s fs).get (by decide +kernel)).robot.core.regs = s.robot.core.regs := by
  intro s fs
  have hcall : s.loop = none := Option.isNone_iff_eq_none.mp (by decide +kernel)
  have hrest : AtRest s.robot.core := ⟨by decide +kernel, by decide +kernel, by decide +kernel, by decide +kernel⟩
  have hruns : (system.execFrom s fs).isSome = true := by decide +kernel
  exact (keeps_driving hcall (by decide +kernel) hrest (Option.some_get hruns).symm (by decide +kernel)).2.2.2

end Rest

end RobotCar.Link.System
