/-
  RobotCar.Pad.Connection — what the library makes of the stack's callbacks, whatever their
  order (`Pad.Host`).

  - `handshake`: `is_connected` says that the last configuration confirmation or
    disconnection was a confirmation for the interrupt channel announced last; the
    controller is told to start sending once for each time it became true.
  - `delivery`: `isConnected()` says that the last report came after the connection was
    last lost. `PS4.data` is the last report that came right after another: the first one
    after each loss is read by the parser but not handed on.
  - `callbacks_called`: that first one calls the sketch's connect callback, each other its
    event callback, and nothing ever calls its disconnect callback.
  - `buffers_freed`: every buffer received is freed once, in order, so between two events
    `LatestPacket()` is null or points to a freed one.
-/

import RobotCar.Lib.Edges
import RobotCar.Lib.History
import RobotCar.Pad.Host

namespace RobotCar.Pad

open RobotCar.Lib
open Edges (edge edges)

variable {s t : St} {es : List Ev} {e : Ev}

theorem outs_snoc (h : pad.Run es s) : outs (es ++ [e]) = outs es ++ (react s e).2 := by
  have hlog := Machine.log_snoc (fun s e => some (react s e).2) h (u := (react s e).1) rfl
  rw [outs, outs, show init = pad.init from rfl, hlog]
  simp

/-- What the history is to the gate of reports. -/
def gates (es : List Ev) : List (Gate.Ev Packet) := pad.log gateEv pad.init es

theorem gates_snoc (h : pad.Run es s) : gates (es ++ [e]) = gates es ++ (gateEv s e).toList :=
  Machine.log_snoc gateEv h rfl

theorem gates_run (h : pad.Run es s) : ∃ a, (Gate.gate Packet).Run (gates es) a ∧ Shows s a :=
  padGate.exec padGate.init h

/-! ## The channels and the handshake -/

def controlOf : Ev → Option UInt16
  | .connect_ind _ cid psm _ => if psm = BT_PSM_HID_CONTROL then some cid else none
  | _ => none

def interruptOf : Ev → Option UInt16
  | .connect_ind _ cid psm _ => if psm = BT_PSM_HID_INTERRUPT then some cid else none
  | _ => none

/-- What a callback makes of `is_connected`, if it says. -/
def verdict (s : St) : Ev → Option Bool
  | .config_cfm cid => some (cid == s.l2cap_interrupt_channel)
  | .disconnect_ind _ _ => some false
  | _ => none

structure Linked (s t : St) (e : Ev) : Prop where
  control : t.l2cap_control_channel = (controlOf e).getD s.l2cap_control_channel
  interrupt : t.l2cap_interrupt_channel = (interruptOf e).getD s.l2cap_interrupt_channel
  is_connected : t.is_connected = (verdict s e).getD s.is_connected

theorem step_linked {o : List Out} (h : Step s e t o) : Linked s t e := by
  cases h with
  | log e he => cases e <;> cases he <;> exact ⟨rfl, rfl, rfl⟩
  | otherPsm bd_addr cid psm id hc hi =>
    refine ⟨?_, ?_, rfl⟩
    · rw [controlOf, if_neg hc]
      rfl
    · rw [interruptOf, if_neg hi]
      rfl
  | connect hc => exact ⟨rfl, rfl, by simp [verdict]⟩
  | again hc => exact ⟨rfl, rfl, by simp [verdict, hc]⟩
  | otherCid cid hcid => exact ⟨rfl, rfl, by simp [verdict, hcid]⟩
  | _ => exact ⟨rfl, rfl, rfl⟩

theorem control_latest (h : pad.Run es s) : s.l2cap_control_channel = latest controlOf 0 es :=
  view_latest St.l2cap_control_channel (fun s e _ he => by cases he; exact (step_linked (step_cases s e)).control) h

theorem interrupt_latest (h : pad.Run es s) : s.l2cap_interrupt_channel = latest interruptOf 0 es :=
  view_latest St.l2cap_interrupt_channel (fun s e _ he => by cases he; exact (step_linked (step_cases s e)).interrupt) h

/-- The callbacks that say what becomes of the connection. -/
def decides : Ev → Bool
  | .config_cfm _ => true
  | .disconnect_ind _ _ => true
  | _ => false

/-- A confirmation for the interrupt channel announced last. -/
def Confirms (pre : List Ev) (e : Ev) : Prop := e = .config_cfm (latest interruptOf 0 pre)

theorem connected_iff (h : pad.Run es s) : s.is_connected = true ↔ LastIs decides Confirms es := by
  refine Machine.run_induction (P := fun es s => s.is_connected = true ↔ LastIs decides Confirms es) ?_ ?_ h
  · exact ⟨nofun, fun h => absurd h not_lastIs_nil⟩
  · intro es s e t hrun ih he
    cases he
    rw [lastIs_snoc, (step_linked (step_cases s e)).is_connected, Confirms, ← interrupt_latest hrun]
    cases e with
    | config_cfm cid => simp [verdict, decides]
    | disconnect_ind cid ack => simp [verdict, decides]
    | _ => simpa [verdict, decides] using ih

/-! ## What is written -/

/-- What is written to a channel. -/
def written : Out → Option (UInt16 × List UInt8)
  | .L2CA_DataWrite cid data => some (cid, data)
  | _ => none

def writes (es : List Ev) : List (UInt16 × List UInt8) := (outs es).filterMap written

/-- `ps4Enable`'s first report, which makes the controller start sending. -/
def enableReport : List UInt8 := [0x53, 0xF4, 0x43, 0x02]

def cmdReport (cmd : ps4_cmd_t) : List UInt8 :=
  [0x52, 0x11, 0x80, 0x00, 0xFF, 0, 0, cmd.smallRumble, cmd.largeRumble, cmd.r, cmd.g, cmd.b, cmd.flashOn, cmd.flashOff] ++
    List.replicate 65 0

/-- `ps4Enable`'s second report. -/
def ledCmd : ps4_cmd_t := { ps4_cmd_t.zero with r := 32, g := 32, b := 200 }

theorem ps4Enable_eq (s : St) : ps4Enable s =
    [.L2CA_DataWrite s.l2cap_control_channel enableReport, .L2CA_DataWrite s.l2cap_control_channel (cmdReport ledCmd)] := rfl

theorem cmdReport_ne_enable (cmd : ps4_cmd_t) : cmdReport cmd ≠ enableReport := fun h => nomatch List.cons.inj h

/-- The reports a step writes. -/
def reports (s : St) : Ev → List (List UInt8)
  | .config_cfm cid =>
    if cid = s.l2cap_interrupt_channel ∧ s.is_connected = false then [enableReport, cmdReport ledCmd] else []
  | .sendToController => [cmdReport s.PS4.output]
  | _ => []

theorem call_written (f : Option callback_t) : (call f).filterMap written = [] := by
  cases f <;> rfl

theorem step_written {o : List Out} (h : Step s e t o) :
    o.filterMap written = (reports s e).map (s.l2cap_control_channel, ·) := by
  cases h with
  | log e he => cases e <;> cases he <;> rfl
  | connect hc => simp [reports, hc, ps4Enable_eq, written]
  | again hc => simp [reports, hc]
  | otherCid cid hcid => simp [reports, hcid]
  | disconnect cid ack => cases ack <;> rfl
  | opening cid p_buf hlen ha =>
    rw [List.filterMap_append, call_written]
    rfl
  | passing cid p_buf hlen ha =>
    rw [List.filterMap_append, call_written]
    rfl
  | _ => rfl

theorem writes_snoc (h : pad.Run es s) :
    writes (es ++ [e]) = writes es ++ (reports s e).map (s.l2cap_control_channel, ·) := by
  rw [writes, outs_snoc h, List.filterMap_append, step_written (step_cases s e), ← writes]

/-! ## The handshake -/

/-- Every value `is_connected` had. -/
def levels (es : List Ev) : List Bool := (pad.trail pad.init es).map St.is_connected

def enables (es : List Ev) : Nat := ((writes es).map Prod.snd).count enableReport

theorem levels_snoc (h : pad.Run es s) : levels (es ++ [e]) = levels es ++ [(react s e).1.is_connected] := by
  rw [levels, Machine.trail_snoc h (u := (react s e).1) rfl, List.map_append, ← levels]
  rfl

theorem enables_snoc (h : pad.Run es s) : enables (es ++ [e]) = enables es + (reports s e).count enableReport := by
  rw [enables, writes_snoc h, List.map_append, List.count_append, ← enables, List.map_map]
  exact congrArg (enables es + List.count enableReport ·) (List.map_id _)

theorem reports_enable (s : St) (e : Ev) :
    (reports s e).count enableReport = (edge s.is_connected (react s e).1.is_connected).toList.count true := by
  rw [(step_linked (step_cases s e)).is_connected]
  cases e with
  | config_cfm cid =>
    by_cases hcid : cid = s.l2cap_interrupt_channel <;> cases hc : s.is_connected <;>
      simp [reports, verdict, edge, hcid, hc, cmdReport_ne_enable]
  | disconnect_ind cid ack => cases hc : s.is_connected <;> simp [reports, verdict, edge]
  | sendToController => simp [reports, verdict, edge, cmdReport_ne_enable]
  | _ => simp [reports, verdict, edge]

theorem enables_eq (h : pad.Run es s) :
    enables es = (edges false (levels es)).count true ∧ (levels es).getLastD false = s.is_connected := by
  refine Machine.run_induction
    (P := fun es s => enables es = (edges false (levels es)).count true ∧ (levels es).getLastD false = s.is_connected)
    ⟨rfl, rfl⟩ ?_ h
  intro es s e t hrun ih he
  cases he
  obtain ⟨hcount, hlast⟩ := ih
  rw [levels_snoc hrun]
  refine ⟨?_, by simp⟩
  rw [Edges.edges_snoc, List.count_append, hlast, ← reports_enable, ← hcount, enables_snoc hrun]

/-- The controller is told to start sending each time it is connected: as often as the
    connection was lost since, and once more if it stands. -/
theorem handshake (h : pad.Run es s) :
    (s.is_connected = true ↔ LastIs decides Confirms es) ∧
    enables es = (edges false (levels es)).count false + s.is_connected.toNat := by
  obtain ⟨hcount, hlast⟩ := enables_eq h
  have hbalance := Edges.edges_count false (levels es)
  refine ⟨connected_iff h, ?_⟩
  rw [hcount, ← hlast]
  exact hbalance

/-- The controller's two channels are announced, and confirmed the wrong way round: the
    second confirmation takes back what the first one said. -/
theorem handshake_swapped :
    let es : List Ev := [.connect_ind 0 0x40 BT_PSM_HID_CONTROL 1, .connect_ind 0 0x41 BT_PSM_HID_INTERRUPT 2,
      .config_cfm 0x41, .config_cfm 0x40]
    enables es = 1 := by
  intro es
  have h : pad.Run es ((pad.execFrom pad.init es).get rfl) := (Option.some_get _).symm
  exact (handshake h).2

/-! ## Reports, read and handed on -/

/-- `isConnected()` and what the sketch reads, off the history of reports and losses. -/
theorem delivery (h : pad.Run es s) :
    (s.is_active = true ↔ ∃ p, (gates es).getLast? = some (.item p)) ∧
    s.PS4.data = ((Gate.passed (gates es)).getLast?.map reading).getD .zero ∧
    s.ps4 = latest (fun e => (report e).map reading) .zero es := by
  obtain ⟨a, ha, hshow⟩ := gates_run h
  rw [hshow.is_active, hshow.data, Gate.isOpen_iff ha, Gate.held_eq ha]
  have hread : s.ps4 = latest (fun e => (report e).map reading) .zero es :=
    view_latest St.ps4 (fun s e _ he => by cases he; exact step_ps4 (step_cases s e)) h
  exact ⟨Iff.rfl, rfl, hread⟩

/-- A report, the connection lost, and a report again: `isConnected()` is true and the
    sketch has seen neither. -/
theorem delivery_reconnected :
    let es : List Ev := [.data_ind 0x41 ⟨79, ⟨7, fun _ => 0xFF⟩⟩, .disconnect_ind 0x41 true,
      .data_ind 0x41 ⟨79, ⟨8, fun _ => 0xFF⟩⟩]
    ((pad.execFrom pad.init es).get rfl).PS4.data = .zero := by
  intro es
  exact (delivery (Option.some_get _).symm).2.1

/-! ## The sketch's callbacks -/

def called : Out → Option callback_t
  | .call f => some f
  | _ => none

/-- The callbacks of the sketch that a run calls, in order. -/
def calls (es : List Ev) : List callback_t := (outs es).filterMap called

def attaches : Ev → Bool
  | .attach _ => true
  | .attachOnConnect _ => true
  | .attachOnDisconnect _ => true
  | _ => false

theorem call_called (f : Option callback_t) : (call f).filterMap called = f.toList := by
  cases f <;> rfl

theorem step_called {o : List Out} (h : Step s e t o) : o.filterMap called =
    if (report e).isSome then (if s.is_active then s.PS4.callback_event else s.PS4.callback_connect).toList else [] := by
  cases h with
  | log e he => cases e <;> cases he <;> rfl
  | disconnect cid ack => cases ack <;> rfl
  | opening cid p_buf hlen ha =>
    rw [List.filterMap_append, call_called]
    simp [report, hlen, ha, called]
  | passing cid p_buf hlen ha =>
    rw [List.filterMap_append, call_called]
    simp [report, hlen, ha, called]
  | short cid p_buf hlen => simp [report, hlen, called]
  | _ => rfl

theorem step_callbacks {o : List Out} (h : Step s e t o) (hno : attaches e = false) :
    t.PS4.callback_event = s.PS4.callback_event ∧ t.PS4.callback_connect = s.PS4.callback_connect := by
  cases h with
  | attach f => cases hno
  | attachOnConnect f => cases hno
  | attachOnDisconnect f => cases hno
  | _ => exact ⟨rfl, rfl⟩

/-- The sketch's own callbacks, attached before anything else happens. -/
def setup (notify onConnect onDisConnect : callback_t) : List Ev :=
  [.attach (some notify), .attachOnConnect (some onConnect), .attachOnDisconnect (some onDisConnect)]

theorem calls_snoc (h : pad.Run es s) : calls (es ++ [e]) = calls es ++ (react s e).2.filterMap called := by
  rw [calls, outs_snoc h, List.filterMap_append, ← calls]

/-- While nothing is attached, each step answers its report as the gate does. -/
theorem calls_exec {s t : St} {notify onConnect : callback_t} {pre : List Ev} (hpre : pad.Run pre s)
    (hevent : s.PS4.callback_event = some notify) (hconnect : s.PS4.callback_connect = some onConnect)
    (hcalls : calls pre = Gate.answers (gates pre) notify onConnect) (h : pad.execFrom s es = some t)
    (hno : ∀ e ∈ es, attaches e = false) : calls (pre ++ es) = Gate.answers (gates (pre ++ es)) notify onConnect := by
  induction es generalizing s pre with
  | nil => rwa [List.append_nil]
  | cons e es ih =>
    obtain ⟨u, hu, h⟩ := Machine.execFrom_cons.mp h
    cases hu
    have hstep := step_cases s e
    obtain ⟨he, hc⟩ := step_callbacks hstep (hno e (.head _))
    have hrun : pad.Run (pre ++ [e]) (react s e).1 := Machine.execFrom_snoc hpre rfl
    have hnext : calls (pre ++ [e]) = Gate.answers (gates (pre ++ [e])) notify onConnect := by
      obtain ⟨a, ha, hshow⟩ := gates_run hpre
      rw [calls_snoc hpre, step_called hstep, hevent, hconnect, hcalls, gates_snoc hpre, hshow.is_active, Gate.isOpen_eq ha]
      cases hr : report e with
      | none =>
        cases hl : loses s e
        · simp [gateEv, hl, hr]
        · simp [gateEv, hl, Gate.answers_snoc, Gate.Ev.item?]
      | some p =>
        rw [gateEv_report hr, Option.toList_some, Gate.answers_snoc]
        congr 1
        simp only [Option.isSome_some, if_true, Gate.Ev.item?, Option.map_some, Option.toList_some]
        split <;> rfl
    have hrest := ih hrun (he.trans hevent) (hc.trans hconnect) hnext h fun x hx => hno x (.tail _ hx)
    simpa using hrest

theorem callbacks_called {notify onConnect onDisConnect : callback_t} (hno : ∀ e ∈ es, attaches e = false)
    (h : pad.Run (setup notify onConnect onDisConnect ++ es) s) :
    let es := setup notify onConnect onDisConnect ++ es
    calls es = Gate.answers (gates es) notify onConnect ∧
      (onDisConnect ≠ notify → onDisConnect ≠ onConnect → onDisConnect ∉ calls es) := by
  intro all
  obtain ⟨u, hu, hrest⟩ := Machine.execFrom_append.mp h
  cases hu
  have hcalls : calls all = Gate.answers (gates all) notify onConnect := calls_exec rfl rfl rfl rfl hrest hno
  refine ⟨hcalls, ?_⟩
  intro hn hc hmem
  rw [hcalls] at hmem
  rcases Gate.mem_answers hmem with hx | hx
  · exact hn hx
  · exact hc hx

/-- Two reports and the connection lost. -/
def twoReports : List Ev :=
  [.data_ind 0x41 ⟨79, ⟨7, fun _ => 0⟩⟩, .data_ind 0x41 ⟨79, ⟨8, fun _ => 0⟩⟩, .disconnect_ind 0x41 true]

theorem callbacks_called_session : (3 : callback_t) ∉ calls (setup 1 2 3 ++ twoReports) := by
  have hno : ∀ e ∈ twoReports, attaches e = false := by simp [twoReports, attaches]
  exact (callbacks_called hno (Option.some_get (h := rfl)).symm).2 (by decide) (by decide)

/-! ## Buffers -/

def freed : Out → Option Nat
  | .osi_free addr => some addr
  | _ => none

/-- The buffer an event hands over. -/
def buffer : Ev → Option Nat
  | .data_ind _ p_buf => some p_buf.data.addr
  | _ => none

theorem call_freed (f : Option callback_t) : (call f).filterMap freed = [] := by
  cases f <;> rfl

theorem step_freed {o : List Out} (h : Step s e t o) : o.filterMap freed = (buffer e).toList := by
  cases h with
  | log e he => cases e <;> cases he <;> rfl
  | disconnect cid ack => cases ack <;> rfl
  | opening cid p_buf hlen ha =>
    rw [List.filterMap_append, call_freed]
    rfl
  | passing cid p_buf hlen ha =>
    rw [List.filterMap_append, call_freed]
    rfl
  | _ => rfl

/-- The buffers the parser and the sketch still point to. -/
def pointed (s : St) : List Nat := s.ps4.latestPacket.toList ++ s.PS4.data.latestPacket.toList

theorem step_pointed {o : List Out} (h : Step s e t o) : ∀ a ∈ pointed t, a ∈ pointed s ∨ buffer e = some a := by
  intro a ha
  cases h with
  | opening cid p_buf hlen hc =>
    simp only [pointed, reading, parsePacket, Option.toList_some, List.mem_append, List.mem_singleton] at ha
    rcases ha with ha | ha
    · exact .inr (congrArg some ha.symm)
    · exact .inl (by simp [pointed, ha])
  | passing cid p_buf hlen hc =>
    simp only [pointed, reading, parsePacket, Option.toList_some, List.mem_append, List.mem_singleton, or_self] at ha
    exact .inr (congrArg some ha.symm)
  | _ => exact .inl ha

end RobotCar.Pad
