/-
  RobotCar.Link.System — everything at once: the controller library and the sketch on the
  ESP32, the wire, and the whole program of the robot, in any interleaving. `loop()` calls
  `controlFunction` over and over; each look at `PS4` is a step, and the Bluetooth callbacks
  run between any two. The wire delivers what was written, in order, at any time later: each
  delivery is one interrupt of the robot, and the robot gets bytes from nowhere else. The
  robot may be reset, booting or running when the first byte comes.

  - `toPad`, `toMain`: the parts, each simulated by its own machine.
  - `sent_eq`: what was delivered and what is on the wire are what was written.
  - `sender_atomic`: the calls that return in a run write what `transmit` writes for one
    settled sample a call (`Sender.Loop`), settled from what the library showed between the
    step that started the call and its return.
-/

import RobotCar.Link.Reports
import RobotCar.Link.Session
import RobotCar.Pad.Connection
import RobotCar.Receiver.Main
import RobotCar.Sender.Loop
import RobotCar.Sender.Unassigned

namespace RobotCar.Link.System

open RobotCar.Lib
open Sender (Sample TPacket initPacket sendPacket makeMovementPacket makeAudioPacket checkPacket_iff controlFunction transmit)
open Pad (pad sample reading)
open Receiver (robot Wheels)
open Receiver.Main (main)

/-! ## The machine -/

/-- A call of `controlFunction` part of the way through. -/
abbrev Call := Prog Sample (TPacket × Option (BitVec 8))

structure St where
  pad : Pad.St
  prevPacket : TPacket
  loop : Option Call
  /-- Written to Serial2 and not delivered yet. -/
  line : List (BitVec 8)
  robot : Receiver.Main.St

inductive Ev where
  /-- A callback of the Bluetooth stack, or a call the sketch makes of the library. -/
  | pad (e : Pad.Ev)
  /-- The sketch's next step; a call starts with the value D happens to hold. -/
  | loop (D : BitVec 1)
  | deliver
  | robot (e : Receiver.Main.Ev)

def loop (s : St) (D : BitVec 1) : St :=
  match s.loop with
  | none => { s with loop := some (Sender.Loop.controlFunction s.prevPacket D) }
  | some (.look k) => { s with loop := some (k (sample s.pad)) }
  | some (.ret (prevPacket, data)) =>
    { s with prevPacket := prevPacket, line := s.line ++ data.toList, loop := none }

/-- An interrupt that brings a byte is a delivery. -/
def bringsByte : Receiver.Main.Ev → Bool
  | .core (.irq (some _)) => true
  | _ => false

def step (s : St) : Ev → Option St
  | .pad e => some { s with pad := (Pad.react s.pad e).1 }
  | .loop D => some (loop s D)
  | .deliver =>
    match s.line with
    | D :: line => (main.step s.robot (.core (.irq (some D)))).map fun r => { s with line := line, robot := r }
    | [] => none
  | .robot e => if bringsByte e then none else (main.step s.robot e).map fun r => { s with robot := r }

def system : Machine St Ev := ⟨⟨pad.init, initPacket, none, [], main.init⟩, step⟩

inductive Step (s : St) : Ev → St → Prop
  | pad (e : Pad.Ev) : Step s (.pad e) { s with pad := (Pad.react s.pad e).1 }
  | call (D : BitVec 1) : s.loop = none →
      Step s (.loop D) { s with loop := some (Sender.Loop.controlFunction s.prevPacket D) }
  | look (D : BitVec 1) (k : Sample → Call) : s.loop = some (.look k) →
      Step s (.loop D) { s with loop := some (k (sample s.pad)) }
  | returns (D : BitVec 1) (prevPacket : TPacket) (data : Option (BitVec 8)) : s.loop = some (.ret (prevPacket, data)) →
      Step s (.loop D) { s with prevPacket := prevPacket, line := s.line ++ data.toList, loop := none }
  | deliver (D : BitVec 8) (line : List (BitVec 8)) (r : Receiver.Main.St) : s.line = D :: line →
      main.step s.robot (.core (.irq (some D))) = some r → Step s .deliver { s with line := line, robot := r }
  | robot (e : Receiver.Main.Ev) (r : Receiver.Main.St) : bringsByte e = false → main.step s.robot e = some r →
      Step s (.robot e) { s with robot := r }

theorem step_cases {s t : St} {e : Ev} (h : step s e = some t) : Step s e t := by
  cases e with
  | pad e =>
    cases h
    exact .pad e
  | loop D =>
    simp only [step, loop, Option.some.injEq] at h
    split at h
    · rename_i hl
      subst h
      exact .call D hl
    · rename_i k hl
      subst h
      exact .look D k hl
    · rename_i prevPacket data hl
      subst h
      exact .returns D prevPacket data hl
  | deliver =>
    simp only [step] at h
    split at h
    · rename_i D line hline
      obtain ⟨r, hr, rfl⟩ := Option.map_eq_some_iff.mp h
      exact .deliver D line r hline hr
    · cases h
  | robot e =>
    simp only [step] at h
    split at h
    · cases h
    · rename_i hb
      obtain ⟨r, hr, rfl⟩ := Option.map_eq_some_iff.mp h
      exact .robot e r (by simpa using hb) hr

/-! ## Its parts -/

def toPad : Simulation system pad where
  rel s a := s.pad = a
  lab _ e :=
    match e with
    | .pad e => some e
    | _ => none
  init := rfl
  step := by
    intro s a e t hrel h
    subst hrel
    cases step_cases h with
    | pad e => exact ⟨_, rfl, rfl⟩
    | _ => rfl

def toMain : Simulation system main where
  rel s a := s.robot = a
  lab s e :=
    match e with
    | .deliver => s.line.head?.map fun D => .core (.irq (some D))
    | .robot e => some e
    | _ => none
  init := rfl
  step := by
    intro s a e t hrel h
    subst hrel
    cases step_cases h with
    | deliver D line r hline hr =>
      simp only [hline, List.head?_cons, Option.map_some]
      exact ⟨r, hr, rfl⟩
    | robot e r _ hr => exact ⟨r, hr, rfl⟩
    | _ => rfl

def toCore : Simulation system robot := toMain.comp Receiver.Main.toRobot St.robot fun h => h

/-- The events of the library in a run. -/
def padEvs (es : List Ev) : List Pad.Ev := system.log toPad.lab system.init es

/-- What a run is to the interrupt, `serialThread` and `motorThread`. -/
def coreEvs (es : List Ev) : List Receiver.Ev := system.log toCore.lab system.init es

/-- What a step writes to Serial2. -/
def writes (s : St) : Ev → Option (BitVec 8)
  | .loop _ =>
    match s.loop with
    | some (.ret (_, data)) => data
    | _ => none
  | _ => none

/-- The bytes written in a run. -/
def sent (es : List Ev) : List (BitVec 8) := system.log writes system.init es

section Run

variable {es : List Ev} {s t : St} {e : Ev}

theorem pad_run (h : system.Run es s) : pad.Run (padEvs es) s.pad := by
  obtain ⟨_, hrun, rfl⟩ := toPad.exec toPad.init h
  exact hrun

theorem core_run (h : system.Run es s) : robot.Run (coreEvs es) s.robot.core := by
  obtain ⟨_, hrun, -, rfl⟩ := toCore.exec toCore.init h
  exact hrun

theorem coreEvs_snoc (h : system.Run es s) (he : system.step s e = some t) :
    coreEvs (es ++ [e]) = coreEvs es ++ (toCore.lab s e).toList := Machine.log_snoc _ h he

theorem sent_snoc (h : system.Run es s) (he : system.step s e = some t) :
    sent (es ++ [e]) = sent es ++ (writes s e).toList := Machine.log_snoc _ h he

/-! ## The reports the sketch is handed -/

def reports (es : List Ev) : List Pad.Packet := Gate.passed (Pad.gates (padEvs es))

def lastReport (es : List Ev) : Option Pad.Packet := (reports es).getLast?

/-- What a report asks of the wheels; a sketch that was handed none sees the sticks centred. -/
def askedOf : Option Pad.Packet → Wheels
  | some packet => askedBytes packet.byte
  | none => ⟨0, 0⟩

/-- What it says of Square. -/
def squareOf : Option Pad.Packet → Bool
  | some packet => Pad.masked (packet.byte Pad.packet_index_button_standard) Pad.button_mask_square
  | none => false

theorem data_eq (h : system.Run es s) : s.pad.PS4.data = ((lastReport es).map reading).getD .zero := by
  obtain ⟨a, ha, hshow⟩ := Pad.gates_run (pad_run h)
  rw [hshow.data, Gate.held_eq ha]
  rfl

theorem sample_report (h : system.Run es s) :
    asked (sample s.pad) = askedOf (lastReport es) ∧ (sample s.pad).Square = squareOf (lastReport es) := by
  rw [sample_eq, data_eq h]
  cases lastReport es with
  | none =>
    refine ⟨?_, rfl⟩
    cases s.pad.is_active <;> decide
  | some packet => exact ⟨asked_reading packet _, rfl⟩

theorem padEvs_snoc (h : system.Run es s) (he : system.step s e = some t) :
    padEvs (es ++ [e]) = padEvs es ++ (toPad.lab s e).toList := Machine.log_snoc _ h he

theorem reports_mono (h : system.Run es s) (he : system.step s e = some t) : reports es ⊆ reports (es ++ [e]) := by
  intro p hp
  rw [reports] at hp ⊢
  rw [padEvs_snoc h he]
  cases toPad.lab s e with
  | none => simpa using hp
  | some d =>
    rw [Option.toList_some, Pad.gates_snoc (pad_run h)]
    cases Pad.gateEv s.pad d with
    | none => simpa using hp
    | some g =>
      rw [Option.toList_some, Gate.passed_snoc]
      exact List.mem_append_left _ hp

/-! ## The wire -/

theorem arrivals_snoc {cs : List Receiver.Ev} {c : Option Receiver.Ev} :
    Receiver.arrivals (cs ++ c.toList) = Receiver.arrivals cs ++ Receiver.arrivals c.toList := List.filterMap_append

/-- Only a delivery brings a byte. -/
theorem brings_none {e : Receiver.Main.Ev} (h : bringsByte e = false) (r : Receiver.Main.St) :
    Receiver.arrivals ((Receiver.Main.toRobot.lab r e).toList) = [] := by
  cases e with
  | core e =>
    cases e with
    | irq D =>
      cases D with
      | none => rfl
      | some D => cases h
    | _ => rfl
  | _ => rfl

theorem sent_eq (h : system.Run es s) : Receiver.arrivals (coreEvs es) ++ s.line = sent es := by
  refine Machine.run_induction (P := fun es s => Receiver.arrivals (coreEvs es) ++ s.line = sent es) rfl ?_ h
  intro es s e t hrun ih he
  rw [coreEvs_snoc hrun he, arrivals_snoc, sent_snoc hrun he, ← ih]
  cases step_cases he with
  | pad e => simp [toCore, Simulation.comp, toMain, writes, Receiver.arrivals]
  | call D hl => simp [toCore, Simulation.comp, toMain, writes, hl, Receiver.arrivals]
  | look D k hl => simp [toCore, Simulation.comp, toMain, writes, hl, Receiver.arrivals]
  | returns D prevPacket data hl => simp [toCore, Simulation.comp, toMain, writes, hl, Receiver.arrivals]
  | deliver D line r hline _ =>
    simp [toCore, Simulation.comp, toMain, Receiver.Main.toRobot, writes, hline, Receiver.arrivals]
  | robot e r hb _ =>
    have hnone : Receiver.arrivals (toCore.lab s (.robot e)).toList = [] := brings_none hb s.robot
    rw [hnone]
    simp [writes]

/-! ## The sender, a call at a time -/

theorem controlFunction_eq (q : TPacket) (x : Sample) (D : BitVec 1) : controlFunction q x D =
    let p := (packet x D).getD q
    (p, if p = q then none else some (sendPacket p)) := by
  unfold controlFunction packet
  cases x.isConnected with
  | false => simp
  | true =>
    simp only [if_true, Option.getD_some]
    generalize (if x.Square = true then makeAudioPacket D else makeMovementPacket x) = p
    by_cases hp : p = q
    · rw [checkPacket_iff.mpr hp, if_pos hp, hp]
      rfl
    · have hk : Sender.checkPacket q p = false := by
        rw [Bool.eq_false_iff]
        exact fun h => hp (checkPacket_iff.mp h)
      rw [hk, if_neg hp]
      rfl

/-- `prevPacket` after a list of calls. -/
def remembered (prevPacket : TPacket) (calls : List (Sample × BitVec 1)) : TPacket :=
  calls.foldl (fun p c => (controlFunction p c.1 c.2).1) prevPacket

theorem transmit_snoc {prevPacket : TPacket} {calls : List (Sample × BitVec 1)} {c : Sample × BitVec 1} :
    transmit prevPacket (calls ++ [c]) =
      transmit prevPacket calls ++ [(controlFunction (remembered prevPacket calls) c.1 c.2).2] := by
  induction calls generalizing prevPacket with
  | nil => rfl
  | cons a calls ih =>
    simp only [List.cons_append, transmit, ih]
    rfl

/-! ## Calls under way -/

/-- What is left of a call that has seen samples in `K` only. -/
def Seen (K : Sample → Prop) (prevPacket : TPacket) (D : BitVec 1) (p : Call) : Prop :=
  ∃ seen, (Sender.Loop.controlFunction prevPacket D).After seen p ∧ ∀ x ∈ seen, K x

/-- A call under way began with this `prevPacket`, and all it has seen is in `K`. -/
def Saw (K : Sample → Prop) (prevPacket : TPacket) (call : Option Call) : Prop :=
  ∀ p, call = some p → ∃ D, Seen K prevPacket D p

section Saw

variable {K : Sample → Prop} {prevPacket : TPacket} {D : BitVec 1} {p : Call} {k : Sample → Call} {x : Sample}
  {out : TPacket × Option (BitVec 8)}

theorem seen_call : Seen K prevPacket D (Sender.Loop.controlFunction prevPacket D) :=
  ⟨[], Prog.after_nil, fun _ hx => absurd hx List.not_mem_nil⟩

theorem Seen.look (h : Seen K prevPacket D (.look k)) (hx : K x) : Seen K prevPacket D (k x) := by
  obtain ⟨seen, hafter, hseen⟩ := h
  refine ⟨seen ++ [x], hafter.look x, ?_⟩
  intro y hy
  rcases List.mem_append.mp hy with hy | hy
  · exact hseen y hy
  · rw [List.mem_singleton.mp hy]
    exact hx

theorem Seen.ret (h : Seen K prevPacket D (.ret out)) :
    ∃ seen, (Sender.Loop.controlFunction prevPacket D).Sees seen out ∧ ∀ x ∈ seen, K x := by
  obtain ⟨seen, hafter, hseen⟩ := h
  exact ⟨seen, hafter.ret, hseen⟩

theorem Seen.mono {K' : Sample → Prop} (h : Seen K prevPacket D p) (hK : ∀ x, K x → K' x) : Seen K' prevPacket D p := by
  obtain ⟨seen, hafter, hseen⟩ := h
  exact ⟨seen, hafter, fun x hx => hK x (hseen x hx)⟩

theorem saw_none : Saw K prevPacket none := by
  intro p hp
  cases hp

theorem saw_call : Saw K prevPacket (some (Sender.Loop.controlFunction prevPacket D)) := by
  intro p hp
  cases hp
  exact ⟨D, seen_call⟩

theorem Saw.look (h : Saw K prevPacket (some (.look k))) (hx : K x) : Saw K prevPacket (some (k x)) := by
  intro p hp
  cases hp
  obtain ⟨D, hseen⟩ := h _ rfl
  exact ⟨D, hseen.look hx⟩

theorem Saw.ret (h : Saw K prevPacket (some (.ret out))) :
    ∃ D seen, (Sender.Loop.controlFunction prevPacket D).Sees seen out ∧ ∀ x ∈ seen, K x := by
  obtain ⟨D, hseen⟩ := h _ rfl
  exact ⟨D, hseen.ret⟩

end Saw

/-! ## The calls of a run, one after the other -/

/-- What the call that returns in a step has written. -/
def returns (s : St) : Ev → Option (Option (BitVec 8))
  | .loop _ =>
    match s.loop with
    | some (.ret (_, data)) => some data
    | _ => none
  | _ => none

/-- What each call that returned in a run has written, if anything. -/
def returned (es : List Ev) : List (Option (BitVec 8)) := system.log returns system.init es

theorem writes_eq (s : St) (e : Ev) : writes s e = (returns s e).bind id := by
  cases e with
  | loop D =>
    simp only [writes, returns]
    split <;> rfl
  | _ => rfl

theorem sent_returned (es : List Ev) : sent es = (returned es).filterMap id := by
  have hwrites : writes = fun s e => (returns s e).bind id := funext fun s => funext (writes_eq s)
  rw [sent, hwrites]
  exact Machine.log_bind

theorem returned_snoc (h : system.Run es s) (he : system.step s e = some t) :
    returned (es ++ [e]) = returned es ++ (returns s e).toList := Machine.log_snoc _ h he

/-- The library showed this sample at some time in `win`, after `es`. -/
def Looked (es win : List Ev) (x : Sample) : Prop := ∃ w u, w <+: win ∧ system.Run (es ++ w) u ∧ x = sample u.pad

theorem Looked.mono {win win' : List Ev} {x : Sample} (h : Looked es win x) (hpre : win <+: win') : Looked es win' x := by
  obtain ⟨w, u, hw, hrun, hx⟩ := h
  exact ⟨w, u, hw.trans hpre, hrun, hx⟩

theorem Looked.earlier {pre win : List Ev} {x : Sample} (h : Looked (es ++ pre) win x) : Looked es (pre ++ win) x := by
  obtain ⟨w, u, hw, hrun, hx⟩ := h
  rw [List.append_assoc] at hrun
  exact ⟨pre ++ w, u, (List.prefix_append_right_inj pre).mpr hw, hrun, hx⟩

/-- A whole call: it starts after `es`, nothing returns in `win`, and the sketch's next step
    returns `out`. -/
structure Span (es win : List Ev) (D : BitVec 1) (out : TPacket × Option (BitVec 8)) : Prop where
  starts : ∃ s, system.Run es s ∧ s.loop = none
  alone : returned (es ++ .loop D :: win) = returned es
  ends : ∃ s, system.Run (es ++ .loop D :: win) s ∧ s.loop = some (.ret out)

/-- Calls of a run, in order, the next not before the one before has returned. Each returns
    what `controlFunction` makes of one sample, settled from those the library showed
    between the step that started it and the one it returned in. -/
inductive Calls : List Ev → List (Sample × BitVec 1) → Prop
  | start : Calls [] []
  | other {es : List Ev} {calls : List (Sample × BitVec 1)} (e : Ev) : Calls es calls → Calls (es ++ [e]) calls
  | call {es win : List Ev} {calls : List (Sample × BitVec 1)} {D D' : BitVec 1} {x : Sample} {seen : List Sample} :
      Calls es calls → Span es win D (controlFunction (remembered initPacket calls) x D) → Sender.Settled seen x →
      (∀ y ∈ seen, Looked (es ++ [.loop D]) win y) →
      Calls (es ++ .loop D :: win ++ [.loop D']) (calls ++ [(x, D)])

/-- The same, with the call under way at its end, if one is. -/
inductive Under (calls : List (Sample × BitVec 1)) (prevPacket : TPacket) : List Ev → Option Call → Prop
  | idle {es : List Ev} : Calls es calls → Under calls prevPacket es none
  | calling {es win : List Ev} {s : St} {D : BitVec 1} {p : Call} : Calls es calls → system.Run es s → s.loop = none →
      returned es = transmit initPacket calls → Seen (Looked (es ++ [.loop D]) win) prevPacket D p →
      Under calls prevPacket (es ++ .loop D :: win) (some p)

section Calls

variable {calls : List (Sample × BitVec 1)} {prevPacket : TPacket} {call : Option Call}

theorem Calls.others (h : Calls es calls) (fs : List Ev) : Calls (es ++ fs) calls := by
  induction fs generalizing es with
  | nil =>
    rw [List.append_nil]
    exact h
  | cons e fs ih =>
    have hnext := ih (h.other e)
    rwa [List.append_assoc] at hnext

theorem Calls.looked (h : Calls es calls) : ∀ c ∈ calls, ∃ seen, Sender.Settled seen c.1 ∧ ∀ x ∈ seen, Looked [] es x := by
  induction h with
  | start => exact nofun
  | other e _ ih =>
    intro c hc
    obtain ⟨seen, hsettled, hx⟩ := ih c hc
    exact ⟨seen, hsettled, fun x hmem => (hx x hmem).mono (List.prefix_append _ _)⟩
  | @call es win calls D D' x seen _ _ hsettled hlooked ih =>
    intro c hc
    rcases List.mem_append.mp hc with hc | hc
    · obtain ⟨seen, hsettled, hx⟩ := ih c hc
      refine ⟨seen, hsettled, ?_⟩
      intro y hy
      rw [List.append_assoc]
      exact (hx y hy).mono (List.prefix_append _ _)
    · rw [List.mem_singleton.mp hc]
      refine ⟨seen, hsettled, ?_⟩
      intro y hy
      have hearlier : Looked [] ((es ++ [.loop D]) ++ win) y := Looked.earlier (hlooked y hy)
      rw [List.append_assoc] at hearlier
      exact hearlier.mono (List.prefix_append _ _)

theorem Under.made (h : Under calls prevPacket es call) : Calls es calls := by
  cases h with
  | idle h => exact h
  | calling h _ _ _ _ => exact h.others _

theorem Under.other (h : Under calls prevPacket es call) (e : Ev) : Under calls prevPacket (es ++ [e]) call := by
  cases h with
  | idle h => exact .idle (h.other e)
  | calling h hrun hnone hret hseen =>
    rw [List.append_assoc, List.cons_append]
    exact .calling h hrun hnone hret (hseen.mono fun x hx => hx.mono (List.prefix_append _ _))

/-- A call that looks sees what the library shows then. -/
theorem Under.look {k : Sample → Call} (h : Under calls prevPacket es (some (.look k))) (hrun : system.Run es s)
    (e : Ev) : Under calls prevPacket (es ++ [e]) (some (k (sample s.pad))) := by
  cases h with
  | @calling es win _ D _ h hs hnone hret hseen =>
    have hlooked : Looked (es ++ [.loop D]) win (sample s.pad) := by
      refine ⟨win, s, List.prefix_refl win, ?_, rfl⟩
      rwa [List.append_assoc]
    have hcall : Under calls prevPacket (es ++ .loop D :: win) (some (k (sample s.pad))) :=
      .calling h hs hnone hret (hseen.look hlooked)
    exact hcall.other e

/-- A call that returns has done what one at a settled sample does. -/
theorem Under.ret {out : TPacket × Option (BitVec 8)} (h : Under calls prevPacket es (some (.ret out)))
    (hrun : system.Run es s) (hl : s.loop = some (.ret out)) (hprev : prevPacket = remembered initPacket calls)
    (hret : returned es = transmit initPacket calls) (D' : BitVec 1) :
    ∃ c, out = controlFunction prevPacket c.1 c.2 ∧ Calls (es ++ [.loop D']) (calls ++ [c]) := by
  cases h with
  | @calling es win _ D _ h hs hnone hbefore hseen =>
    obtain ⟨seen, hsees, hlooked⟩ := hseen.ret
    obtain ⟨x, hsettled, hout⟩ := Sender.call_settles hsees
    refine ⟨(x, D), hout, .call h ⟨⟨_, hs, hnone⟩, hret.trans hbefore.symm, s, hrun, ?_⟩ hsettled hlooked⟩
    rw [← hprev, ← hout]
    exact hl

end Calls

theorem sender_inv (h : system.Run es s) : ∃ calls, returned es = transmit initPacket calls ∧
    s.prevPacket = remembered initPacket calls ∧ Under calls s.prevPacket es s.loop := by
  refine Machine.run_induction (P := fun es s => ∃ calls, returned es = transmit initPacket calls ∧
    s.prevPacket = remembered initPacket calls ∧ Under calls s.prevPacket es s.loop) ⟨[], rfl, rfl, .idle .start⟩ ?_ h
  intro es s e t hrun hi he
  obtain ⟨calls, hret, hprev, hunder⟩ := hi
  have hkeep : returns s e = none → returned (es ++ [e]) = transmit initPacket calls := by
    intro hnone
    rw [returned_snoc hrun he, hnone, hret]
    exact List.append_nil _
  cases step_cases he with
  | pad e => exact ⟨calls, hkeep rfl, hprev, hunder.other _⟩
  | deliver D line r _ _ => exact ⟨calls, hkeep rfl, hprev, hunder.other _⟩
  | robot e r _ _ => exact ⟨calls, hkeep rfl, hprev, hunder.other _⟩
  | call D hl => exact ⟨calls, hkeep (by simp only [returns, hl]), hprev, .calling hunder.made hrun hl hret seen_call⟩
  | look D k hl =>
    rw [hl] at hunder
    exact ⟨calls, hkeep (by simp only [returns, hl]), hprev, hunder.look hrun _⟩
  | returns D prevPacket data hl =>
    rw [hl] at hunder
    have hnext : returned (es ++ [.loop D]) = returned es ++ [data] := by
      rw [returned_snoc hrun he]
      simp only [returns, hl, Option.toList_some]
    obtain ⟨c, hout, hcalls⟩ := hunder.ret hrun hl hprev hret D
    rw [hprev] at hout
    refine ⟨calls ++ [c], ?_, ?_, .idle hcalls⟩
    · rw [hnext, hret, transmit_snoc, ← hout]
    · rw [remembered, List.foldl_append, ← remembered]
      exact congrArg Prod.fst hout

/-- What was delivered and what is on the wire are what the calls that returned have written,
    and those did what calls of `controlFunction` at one sample each do, one after the other. -/
theorem sender_atomic (h : system.Run es s) :
    Receiver.arrivals (coreEvs es) ++ s.line = (returned es).filterMap id ∧
    ∃ calls, Calls es calls ∧ returned es = transmit initPacket calls ∧ s.prevPacket = remembered initPacket calls := by
  obtain ⟨calls, hret, hprev, hunder⟩ := sender_inv h
  refine ⟨?_, calls, hunder.made, hret, hprev⟩
  rw [sent_eq h, sent_returned]

/-- The controller's first two reports and a whole call after them. -/
def firstCall : List Ev :=
  .pad (.data_ind 0x41 ⟨79, ⟨7, fun _ => 0⟩⟩) :: .pad (.data_ind 0x41 ⟨79, ⟨8, fun _ => 0⟩⟩) :: List.replicate 12 (.loop 0)

theorem sender_atomic_first : ∃ calls, Calls firstCall calls ∧ returned firstCall = transmit initPacket calls := by
  have h : system.Run firstCall ((system.execFrom system.init firstCall).get rfl) := (Option.some_get _).symm
  obtain ⟨calls, hcalls, hret, -⟩ := (sender_atomic h).2
  exact ⟨calls, hcalls, hret⟩

end Run

end RobotCar.Link.System
