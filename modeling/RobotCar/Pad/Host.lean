/-
  RobotCar.Pad.Host — the controller library on the ESP32, as a machine: the L2CAP
  callbacks (ps4_l2cap.c), the connection state (ps4.c) and the object `PS4` that the sketch
  reads (PS4Controller.cpp). It begins where `PS4.begin()` has returned true: the object's
  callbacks are registered and the services listen.

  One event is one callback of the Bluetooth stack or one call the sketch makes, from entry
  to exit. What a step hands to the stack, to the heap and to the sketch's own callbacks is
  its list of `Out`. The callbacks that only log do nothing here. Allocating a send buffer
  succeeds, and the stack's answer to a write is only logged.

  - `gateEv`: what an event is to `isConnected()`. A report opens it or passes; losing the
    connection shuts it.
  - `padGate`: the library is simulated by `Lib.Gate`: `isConnected()` is whether the gate
    is open, and `PS4.data` is the reading of the last report to pass.
-/

import RobotCar.Lib.Gate
import RobotCar.Pad.Report
import RobotCar.Sender.Packet

namespace RobotCar.Pad

open RobotCar.Lib

/-! ## ps4_int.h, bt_types.h, l2cdefs.h -/

abbrev hid_cmd_code_set_report : UInt8 := 0x50
abbrev hid_cmd_code_type_output : UInt8 := 0x02
abbrev hid_cmd_code_type_feature : UInt8 := 0x03
abbrev hid_cmd_identifier_ps4_enable : UInt8 := 0xF4
abbrev hid_cmd_identifier_ps4_control : UInt8 := 0x11

abbrev PS4_SEND_BUFFER_SIZE : Nat := 77

abbrev ps4_control_packet_index_small_rumble : Nat := 5
abbrev ps4_control_packet_index_large_rumble : Nat := 6
abbrev ps4_control_packet_index_red : Nat := 7
abbrev ps4_control_packet_index_green : Nat := 8
abbrev ps4_control_packet_index_blue : Nat := 9
abbrev ps4_control_packet_index_flash_on_time : Nat := 10
abbrev ps4_control_packet_index_flash_off_time : Nat := 11

abbrev BT_PSM_HID_CONTROL : UInt16 := 0x0011
abbrev BT_PSM_HID_INTERRUPT : UInt16 := 0x0013

abbrev L2CAP_CONN_OK : UInt16 := 0
abbrev L2CAP_CONN_PENDING : UInt16 := 1
abbrev L2CAP_CFG_OK : UInt16 := 0

@[ext] structure ps4_cmd_t where
  smallRumble : UInt8
  largeRumble : UInt8
  r : UInt8
  g : UInt8
  b : UInt8
  flashOn : UInt8
  flashOff : UInt8
  deriving DecidableEq, Repr

structure hid_cmd_t where
  code : UInt8
  identifier : UInt8
  /-- The bytes of the array that are assigned. -/
  data : List UInt8

/-- A received buffer: its payload's length, and the memory from `data` on. -/
structure BT_HDR where
  length : UInt16
  data : Packet

/-- A function of the sketch. -/
abbrev callback_t := Nat

structure PS4Controller where
  data : ps4_t
  event : ps4_event_t
  output : ps4_cmd_t
  callback_event : Option callback_t
  callback_connect : Option callback_t
  callback_disconnect : Option callback_t

/-! ## State, events and what a step hands out -/

structure St where
  is_connected : Bool
  l2cap_control_channel : UInt16
  l2cap_interrupt_channel : UInt16
  is_active : Bool
  /-- The parser's own copy of the last report. -/
  ps4 : ps4_t
  PS4 : PS4Controller

def ps4_cmd_t.zero : ps4_cmd_t := ⟨0, 0, 0, 0, 0, 0, 0⟩

def init : St := ⟨false, 0, 0, false, .zero, ⟨.zero, .zero, .zero, none, none, none⟩⟩

inductive Ev where
  | connect_ind (bd_addr : BitVec 48) (l2cap_cid psm : UInt16) (l2cap_id : UInt8)
  | connect_cfm (l2cap_cid result : UInt16)
  | config_ind (l2cap_cid : UInt16)
  | config_cfm (l2cap_cid : UInt16)
  | disconnect_ind (l2cap_cid : UInt16) (ack_needed : Bool)
  | disconnect_cfm (l2cap_cid result : UInt16)
  | data_ind (l2cap_cid : UInt16) (p_buf : BT_HDR)
  | congest (cid : UInt16) (congested : Bool)
  | setLed (r g b : UInt8)
  | setRumble (small large : UInt8)
  | setFlashRate (onTime offTime : UInt8)
  | sendToController
  | attach (callback : Option callback_t)
  | attachOnConnect (callback : Option callback_t)
  | attachOnDisconnect (callback : Option callback_t)

inductive Out where
  | L2CA_CONNECT_RSP (bd_addr : BitVec 48) (id : UInt8) (cid result : UInt16)
  | L2CA_CONFIG_REQ (cid : UInt16)
  | L2CA_ConfigRsp (cid result : UInt16)
  | L2CA_DisconnectRsp (cid : UInt16)
  | L2CA_DataWrite (cid : UInt16) (data : List UInt8)
  | osi_free (addr : Nat)
  | call (callback : callback_t)
  deriving DecidableEq

/-! ## ps4.c -/

/-- The buffer holds the command's two header bytes and `len` of its data. -/
def ps4_l2cap_send_hid (s : St) (hid_cmd : hid_cmd_t) (len : Nat) : Out :=
  .L2CA_DataWrite s.l2cap_control_channel ((hid_cmd.code :: hid_cmd.identifier :: hid_cmd.data).take (len + 2))

def ps4Cmd (s : St) (cmd : ps4_cmd_t) : Out :=
  let data : List UInt8 := [0x80, 0x00, 0xFF] ++ List.replicate (PS4_SEND_BUFFER_SIZE - 3) 0
  let length := data.length
  let data := data.set ps4_control_packet_index_small_rumble cmd.smallRumble
  let data := data.set ps4_control_packet_index_large_rumble cmd.largeRumble
  let data := data.set ps4_control_packet_index_red cmd.r
  let data := data.set ps4_control_packet_index_green cmd.g
  let data := data.set ps4_control_packet_index_blue cmd.b
  let data := data.set ps4_control_packet_index_flash_on_time cmd.flashOn
  let data := data.set ps4_control_packet_index_flash_off_time cmd.flashOff
  ps4_l2cap_send_hid s
    ⟨hid_cmd_code_set_report ||| hid_cmd_code_type_output, hid_cmd_identifier_ps4_control, data⟩ length

def ps4SetLed (s : St) (r g b : UInt8) : Out := ps4Cmd s { ps4_cmd_t.zero with r := r, g := g, b := b }

def ps4SetOutput (s : St) (prevCommand : ps4_cmd_t) : Out := ps4Cmd s prevCommand

def hid_cmd_payload_ps4_enable : List UInt8 := [0x43, 0x02]

def ps4Enable (s : St) : List Out :=
  let length := hid_cmd_payload_ps4_enable.length
  let hidCommand : hid_cmd_t :=
    ⟨hid_cmd_code_set_report ||| hid_cmd_code_type_feature, hid_cmd_identifier_ps4_enable, hid_cmd_payload_ps4_enable⟩
  [ps4_l2cap_send_hid s hidCommand length, ps4SetLed s 32 32 200]

def ps4ConnectEvent (s : St) (is_connected : Bool) : St × List Out :=
  if is_connected then (s, ps4Enable s) else ({ s with is_active := false }, [])

def call (callback : Option callback_t) : List Out := callback.toList.map .call

/-! ## PS4Controller.cpp -/

namespace PS4Controller

variable (This : PS4Controller)

def event_callback (data : ps4_t) (event : ps4_event_t) : PS4Controller × List Out :=
  ({ This with data := data, event := event }, call This.callback_event)

def connection_callback (isConnected : Bool) : List Out :=
  if isConnected then call This.callback_connect else call This.callback_disconnect

def Square : Bool := This.data.button.square
def R1 : Bool := This.data.button.r1
def R2Value : UInt8 := This.data.analog.button.r2
def LStickY : Int8 := -This.data.analog.stick.ly
def RStickX : Int8 := This.data.analog.stick.rx
def RStickY : Int8 := -This.data.analog.stick.ry

end PS4Controller

def ps4PacketEvent (s : St) (ps4 : ps4_t) (event : ps4_event_t) : St × List Out :=
  if s.is_active then
    let (PS4, out) := s.PS4.event_callback ps4 event
    ({ s with PS4 := PS4 }, out)
  else
    let is_active := true
    ({ s with is_active := is_active }, s.PS4.connection_callback is_active)

/-! ## ps4_l2cap.c -/

def ps4_l2cap_connect_ind_cback (s : St) (bd_addr : BitVec 48) (l2cap_cid psm : UInt16) (l2cap_id : UInt8) :
    St × List Out :=
  let out := [Out.L2CA_CONNECT_RSP bd_addr l2cap_id l2cap_cid L2CAP_CONN_PENDING,
    .L2CA_CONNECT_RSP bd_addr l2cap_id l2cap_cid L2CAP_CONN_OK, .L2CA_CONFIG_REQ l2cap_cid]
  if psm = BT_PSM_HID_CONTROL then ({ s with l2cap_control_channel := l2cap_cid }, out)
  else if psm = BT_PSM_HID_INTERRUPT then ({ s with l2cap_interrupt_channel := l2cap_cid }, out)
  else (s, out)

def ps4_l2cap_config_cfm_cback (s : St) (l2cap_cid : UInt16) : St × List Out :=
  let prev_is_connected := s.is_connected
  let s := { s with is_connected := l2cap_cid == s.l2cap_interrupt_channel }
  if prev_is_connected ≠ s.is_connected then ps4ConnectEvent s s.is_connected else (s, [])

def ps4_l2cap_config_ind_cback (s : St) (l2cap_cid : UInt16) : St × List Out :=
  (s, [.L2CA_ConfigRsp l2cap_cid L2CAP_CFG_OK])

def ps4_l2cap_disconnect_ind_cback (s : St) (l2cap_cid : UInt16) (ack_needed : Bool) : St × List Out :=
  let s := { s with is_connected := false }
  let out := if ack_needed then [Out.L2CA_DisconnectRsp l2cap_cid] else []
  let (s, out') := ps4ConnectEvent s s.is_connected
  (s, out ++ out')

def ps4_l2cap_data_ind_cback (s : St) (p_buf : BT_HDR) : St × List Out :=
  let (s, out) :=
    if p_buf.length > 2 then
      let (ps4, ps4Event) := parsePacket s.ps4 p_buf.data
      ps4PacketEvent { s with ps4 := ps4 } ps4 ps4Event
    else (s, [])
  (s, out ++ [.osi_free p_buf.data.addr])

def react (s : St) : Ev → St × List Out
  | .connect_ind bd_addr cid psm id => ps4_l2cap_connect_ind_cback s bd_addr cid psm id
  | .connect_cfm _ _ => (s, [])
  | .config_ind cid => ps4_l2cap_config_ind_cback s cid
  | .config_cfm cid => ps4_l2cap_config_cfm_cback s cid
  | .disconnect_ind cid ack => ps4_l2cap_disconnect_ind_cback s cid ack
  | .disconnect_cfm _ _ => (s, [])
  | .data_ind _ p_buf => ps4_l2cap_data_ind_cback s p_buf
  | .congest _ _ => (s, [])
  | .setLed r g b => ({ s with PS4.output.r := r, PS4.output.g := g, PS4.output.b := b }, [])
  | .setRumble small large => ({ s with PS4.output.smallRumble := small, PS4.output.largeRumble := large }, [])
  | .setFlashRate onTime offTime => ({ s with PS4.output.flashOn := onTime, PS4.output.flashOff := offTime }, [])
  | .sendToController => (s, [ps4SetOutput s s.PS4.output])
  | .attach f => ({ s with PS4.callback_event := f }, [])
  | .attachOnConnect f => ({ s with PS4.callback_connect := f }, [])
  | .attachOnDisconnect f => ({ s with PS4.callback_disconnect := f }, [])

def pad : Machine St Ev := ⟨init, fun s e => some (react s e).1⟩

/-- What a run hands out, in order. -/
def outs (es : List Ev) : List Out := (pad.log (fun s e => some (react s e).2) init es).flatten

/-- What `controlFunction` reads when it is called. -/
def sample (s : St) : Sender.Sample where
  isConnected := s.is_active
  LStickY := s.PS4.LStickY
  RStickX := s.PS4.RStickX
  RStickY := s.PS4.RStickY
  R2Value := s.PS4.R2Value
  R1 := s.PS4.R1
  Square := s.PS4.Square

/-! ## What a step can do -/

/-- The callbacks that only log. -/
def logsOnly : Ev → Bool
  | .connect_cfm _ _ => true
  | .disconnect_cfm _ _ => true
  | .congest _ _ => true
  | _ => false

def accept (bd_addr : BitVec 48) (id : UInt8) (cid : UInt16) : List Out :=
  [.L2CA_CONNECT_RSP bd_addr id cid L2CAP_CONN_PENDING, .L2CA_CONNECT_RSP bd_addr id cid L2CAP_CONN_OK,
    .L2CA_CONFIG_REQ cid]

inductive Step (s : St) : Ev → St → List Out → Prop
  | log (e : Ev) : logsOnly e = true → Step s e s []
  | control (bd_addr : BitVec 48) (cid : UInt16) (id : UInt8) :
      Step s (.connect_ind bd_addr cid BT_PSM_HID_CONTROL id) { s with l2cap_control_channel := cid }
        (accept bd_addr id cid)
  | interrupt (bd_addr : BitVec 48) (cid : UInt16) (id : UInt8) :
      Step s (.connect_ind bd_addr cid BT_PSM_HID_INTERRUPT id) { s with l2cap_interrupt_channel := cid }
        (accept bd_addr id cid)
  | otherPsm (bd_addr : BitVec 48) (cid psm : UInt16) (id : UInt8) : psm ≠ BT_PSM_HID_CONTROL →
      psm ≠ BT_PSM_HID_INTERRUPT → Step s (.connect_ind bd_addr cid psm id) s (accept bd_addr id cid)
  | configRsp (cid : UInt16) : Step s (.config_ind cid) s [.L2CA_ConfigRsp cid L2CAP_CFG_OK]
  | connect : s.is_connected = false →
      Step s (.config_cfm s.l2cap_interrupt_channel) { s with is_connected := true } (ps4Enable s)
  | again : s.is_connected = true → Step s (.config_cfm s.l2cap_interrupt_channel) s []
  | otherCid (cid : UInt16) : cid ≠ s.l2cap_interrupt_channel →
      Step s (.config_cfm cid) { s with is_connected := false, is_active := s.is_active && !s.is_connected } []
  | disconnect (cid : UInt16) (ack : Bool) :
      Step s (.disconnect_ind cid ack) { s with is_connected := false, is_active := false }
        (if ack then [.L2CA_DisconnectRsp cid] else [])
  /-- The first report since the connection was lost. -/
  | opening (cid : UInt16) (p_buf : BT_HDR) : p_buf.length > 2 → s.is_active = false →
      Step s (.data_ind cid p_buf) { s with ps4 := reading p_buf.data, is_active := true }
        (call s.PS4.callback_connect ++ [.osi_free p_buf.data.addr])
  | passing (cid : UInt16) (p_buf : BT_HDR) : p_buf.length > 2 → s.is_active = true →
      Step s (.data_ind cid p_buf)
        { s with
          ps4 := reading p_buf.data
          PS4.data := reading p_buf.data
          PS4.event := parseEvent s.ps4 (reading p_buf.data) }
        (call s.PS4.callback_event ++ [.osi_free p_buf.data.addr])
  | short (cid : UInt16) (p_buf : BT_HDR) : ¬ p_buf.length > 2 →
      Step s (.data_ind cid p_buf) s [.osi_free p_buf.data.addr]
  | setLed (r g b : UInt8) :
      Step s (.setLed r g b) { s with PS4.output.r := r, PS4.output.g := g, PS4.output.b := b } []
  | setRumble (small large : UInt8) : Step s (.setRumble small large)
      { s with PS4.output.smallRumble := small, PS4.output.largeRumble := large } []
  | setFlashRate (onTime offTime : UInt8) : Step s (.setFlashRate onTime offTime)
      { s with PS4.output.flashOn := onTime, PS4.output.flashOff := offTime } []
  | send : Step s .sendToController s [ps4Cmd s s.PS4.output]
  | attach (f : Option callback_t) : Step s (.attach f) { s with PS4.callback_event := f } []
  | attachOnConnect (f : Option callback_t) : Step s (.attachOnConnect f) { s with PS4.callback_connect := f } []
  | attachOnDisconnect (f : Option callback_t) :
      Step s (.attachOnDisconnect f) { s with PS4.callback_disconnect := f } []

theorem config_cfm_step (s : St) (cid : UInt16) :
    Step s (.config_cfm cid) (ps4_l2cap_config_cfm_cback s cid).1 (ps4_l2cap_config_cfm_cback s cid).2 := by
  obtain ⟨conn, control, interrupt, active, ps4, PS4⟩ := s
  simp only [ps4_l2cap_config_cfm_cback, ps4ConnectEvent]
  by_cases hcid : cid = interrupt
  · subst hcid
    rw [beq_self_eq_true]
    cases conn with
    | false => exact .connect rfl
    | true => exact .again rfl
  · have hother := Step.otherCid (s := ⟨conn, control, interrupt, active, ps4, PS4⟩) cid hcid
    rw [beq_false_of_ne hcid]
    cases conn with
    | false => simpa using hother
    | true => simpa using hother

theorem data_ind_step (s : St) (cid : UInt16) (p_buf : BT_HDR) :
    Step s (.data_ind cid p_buf) (ps4_l2cap_data_ind_cback s p_buf).1 (ps4_l2cap_data_ind_cback s p_buf).2 := by
  obtain ⟨conn, control, interrupt, active, ps4, PS4⟩ := s
  simp only [ps4_l2cap_data_ind_cback]
  split
  · rename_i hlen
    cases active with
    | false => exact .opening cid p_buf hlen rfl
    | true => exact .passing cid p_buf hlen rfl
  · rename_i hlen
    exact .short cid p_buf hlen

theorem step_cases (s : St) (e : Ev) : Step s e (react s e).1 (react s e).2 := by
  cases e with
  | connect_ind bd_addr cid psm id =>
    simp only [react, ps4_l2cap_connect_ind_cback]
    by_cases hc : psm = BT_PSM_HID_CONTROL
    · subst hc
      exact .control bd_addr cid id
    · rw [if_neg hc]
      by_cases hi : psm = BT_PSM_HID_INTERRUPT
      · subst hi
        exact .interrupt bd_addr cid id
      · rw [if_neg hi]
        exact .otherPsm bd_addr cid psm id hc hi
  | connect_cfm cid result => exact .log _ rfl
  | config_ind cid => exact .configRsp cid
  | config_cfm cid => exact config_cfm_step s cid
  | disconnect_ind cid ack =>
    simpa [react, ps4_l2cap_disconnect_ind_cback, ps4ConnectEvent] using Step.disconnect (s := s) cid ack
  | disconnect_cfm cid result => exact .log _ rfl
  | data_ind cid p_buf => exact data_ind_step s cid p_buf
  | congest cid congested => exact .log _ rfl
  | setLed r g b => exact .setLed r g b
  | setRumble small large => exact .setRumble small large
  | setFlashRate onTime offTime => exact .setFlashRate onTime offTime
  | sendToController => exact .send
  | attach f => exact .attach f
  | attachOnConnect f => exact .attachOnConnect f
  | attachOnDisconnect f => exact .attachOnDisconnect f

/-! ## The gate -/

/-- The report an event brings. -/
def report : Ev → Option Packet
  | .data_ind _ p_buf => if p_buf.length > 2 then some p_buf.data else none
  | _ => none

/-- The event ends the connection, as far as `is_active` goes. -/
def loses (s : St) : Ev → Bool
  | .disconnect_ind _ _ => true
  | .config_cfm cid => s.is_connected && cid != s.l2cap_interrupt_channel
  | _ => false

/-- What an event is to the gate of reports. -/
def gateEv (s : St) (e : Ev) : Option (Gate.Ev Packet) :=
  if loses s e then some .shut else (report e).map .item

section Step

variable {s t : St} {e : Ev} {o : List Out}

theorem loses_report {p : Packet} (h : report e = some p) : loses s e = false := by
  cases e with
  | data_ind cid p_buf => rfl
  | _ => cases h

theorem gateEv_report {p : Packet} (h : report e = some p) : gateEv s e = some (.item p) := by
  rw [gateEv, loses_report h, h]
  rfl

theorem step_active (h : Step s e t o) :
    t.is_active = if loses s e then false else (report e).isSome || s.is_active := by
  cases h with
  | log e he => cases e <;> cases he <;> rfl
  | connect hc => simp [loses, report]
  | again hc => simp [loses, report]
  | otherCid cid hcid =>
    have hother : (cid != s.l2cap_interrupt_channel) = true := bne_iff_ne.mpr hcid
    rw [loses, hother, Bool.and_true]
    cases s.is_connected <;> simp [report]
  | opening cid p_buf hlen ha => simp [loses, report, hlen]
  | passing cid p_buf hlen ha => simp [loses, report, hlen, ha]
  | short cid p_buf hlen => simp [loses, report, hlen]
  | _ => rfl

theorem step_data (h : Step s e t o) :
    t.PS4.data = (if s.is_active then (report e).map reading else none).getD s.PS4.data := by
  cases h with
  | log e he => cases e <;> cases he <;> simp [report]
  | opening cid p_buf hlen ha => simp [ha]
  | passing cid p_buf hlen ha => simp [ha, report, hlen]
  | short cid p_buf hlen => simp [report, hlen]
  | _ => simp [report]

theorem step_ps4 (h : Step s e t o) : t.ps4 = ((report e).map reading).getD s.ps4 := by
  cases h with
  | log e he => cases e <;> cases he <;> rfl
  | opening cid p_buf hlen ha => simp [report, hlen]
  | passing cid p_buf hlen ha => simp [report, hlen]
  | short cid p_buf hlen => simp [report, hlen]
  | _ => rfl

end Step

structure Shows (s : St) (a : Gate.St Packet) : Prop where
  is_active : s.is_active = a.isOpen
  data : s.PS4.data = (a.held.map reading).getD .zero

def padGate : Simulation pad (Gate.gate Packet) where
  rel := Shows
  lab := gateEv
  init := ⟨rfl, rfl⟩
  step := by
    intro s a e t h ht
    cases ht
    obtain ⟨hactive, hdata⟩ := h
    have hstep := step_cases s e
    have ha := step_active hstep
    have hd := step_data hstep
    cases hr : report e with
    | some p =>
      have hl : loses s e = false := loses_report hr
      rw [gateEv_report hr]
      refine ⟨_, rfl, ?_⟩
      rw [hactive] at hd
      cases ho : a.isOpen with
      | false => exact ⟨by simp [ha, hl, hr, Gate.step, ho], by simp [hd, ho, hdata, Gate.step]⟩
      | true => exact ⟨by simp [ha, hl, hr, Gate.step, ho], by simp [hd, ho, hr, Gate.step]⟩
    | none =>
      have hsame : (react s e).1.PS4.data = s.PS4.data := by simp [hd, hr]
      cases hl : loses s e with
      | false =>
        simp only [gateEv, hl, hr, Option.map_none, Bool.false_eq_true, if_false]
        exact ⟨by simp [ha, hl, hr, hactive], hsame.trans hdata⟩
      | true =>
        simp only [gateEv, hl, if_true]
        exact ⟨_, rfl, by simp [ha, hl, Gate.step], hsame.trans hdata⟩

end RobotCar.Pad
