/-
  RobotCar.Pad.Report — the controller library's parser (ps4_parser.c): one HID report
  becomes the controller's sticks, triggers, buttons, sensors and status, and the buttons
  that changed since the report before it.

  A packet is the memory its pointer points to, read at fixed offsets; the parser has no
  length to check them against. One-bit fields are booleans. `analog_move` is the sticks'
  part of the source's field: its triggers' part is never assigned.

  - `axis_ne_min`: an axis is its byte less 128, but for the zero byte, which reads as one
    step less far; so -128 is never read, and an axis can be negated.
  - `parseEvent_down`, `parseEvent_up`: button by button, a press and a release.
-/

namespace RobotCar.Pad

/-! ## ps4.h -/

structure ps4_analog_stick_t where
  lx : Int8
  ly : Int8
  rx : Int8
  ry : Int8
  deriving DecidableEq, Repr

structure ps4_analog_button_t where
  l2 : UInt8
  r2 : UInt8
  deriving DecidableEq, Repr

structure ps4_analog_t where
  stick : ps4_analog_stick_t
  button : ps4_analog_button_t
  deriving DecidableEq, Repr

structure ps4_button_t where
  right : Bool
  down : Bool
  up : Bool
  left : Bool
  square : Bool
  cross : Bool
  circle : Bool
  triangle : Bool
  upright : Bool
  downright : Bool
  upleft : Bool
  downleft : Bool
  l1 : Bool
  r1 : Bool
  l2 : Bool
  r2 : Bool
  share : Bool
  options : Bool
  l3 : Bool
  r3 : Bool
  ps : Bool
  touchpad : Bool
  deriving DecidableEq, Repr

structure ps4_status_t where
  battery : UInt8
  charging : Bool
  audio : Bool
  mic : Bool
  deriving DecidableEq, Repr

structure ps4_sensor_gyroscope_t where
  x : Int16
  y : Int16
  z : Int16
  deriving DecidableEq, Repr

structure ps4_sensor_accelerometer_t where
  x : Int16
  y : Int16
  z : Int16
  deriving DecidableEq, Repr

structure ps4_sensor_t where
  accelerometer : ps4_sensor_accelerometer_t
  gyroscope : ps4_sensor_gyroscope_t
  deriving DecidableEq, Repr

structure ps4_event_t where
  button_down : ps4_button_t
  button_up : ps4_button_t
  analog_move : ps4_analog_stick_t
  deriving DecidableEq, Repr

structure ps4_t where
  analog : ps4_analog_t
  button : ps4_button_t
  status : ps4_status_t
  sensor : ps4_sensor_t
  /-- A buffer's address; null before the first report. -/
  latestPacket : Option Nat
  deriving DecidableEq, Repr

/-- What a `uint8_t*` points to. -/
structure Packet where
  addr : Nat
  byte : Nat → UInt8

/-! ## Statics start as zeros -/

def ps4_button_t.zero : ps4_button_t :=
  ⟨false, false, false, false, false, false, false, false, false, false, false, false, false, false, false, false,
    false, false, false, false, false, false⟩

def ps4_event_t.zero : ps4_event_t := ⟨.zero, .zero, ⟨0, 0, 0, 0⟩⟩

def ps4_t.zero : ps4_t where
  analog := ⟨⟨0, 0, 0, 0⟩, ⟨0, 0⟩⟩
  button := .zero
  status := ⟨0, false, false, false⟩
  sensor := ⟨⟨0, 0, 0⟩, ⟨0, 0, 0⟩⟩
  latestPacket := none

/-! ## `ps4_packet_index` -/

abbrev packet_index_analog_stick_lx : Nat := 13
abbrev packet_index_analog_stick_ly : Nat := 14
abbrev packet_index_analog_stick_rx : Nat := 15
abbrev packet_index_analog_stick_ry : Nat := 16
abbrev packet_index_button_standard : Nat := 17
abbrev packet_index_button_extra : Nat := 18
abbrev packet_index_button_ps : Nat := 19
abbrev packet_index_analog_l2 : Nat := 20
abbrev packet_index_analog_r2 : Nat := 21
abbrev packet_index_sensor_gyroscope_x : Nat := 25
abbrev packet_index_sensor_gyroscope_y : Nat := 27
abbrev packet_index_sensor_gyroscope_z : Nat := 29
abbrev packet_index_sensor_accelerometer_x : Nat := 31
abbrev packet_index_sensor_accelerometer_y : Nat := 33
abbrev packet_index_sensor_accelerometer_z : Nat := 35
abbrev packet_index_status : Nat := 42

/-! ## `ps4_button_mask`, `ps4_status_mask` -/

abbrev button_mask_up : UInt8 := 0
abbrev button_mask_right : UInt8 := 0b00000010
abbrev button_mask_down : UInt8 := 0b00000100
abbrev button_mask_left : UInt8 := 0b00000110
abbrev button_mask_upright : UInt8 := 0b00000001
abbrev button_mask_downright : UInt8 := 0b00000011
abbrev button_mask_upleft : UInt8 := 0b00000111
abbrev button_mask_downleft : UInt8 := 0b00000101
abbrev button_mask_direction : UInt8 := 0b00001111
abbrev button_mask_square : UInt8 := 0b00010000
abbrev button_mask_cross : UInt8 := 0b00100000
abbrev button_mask_circle : UInt8 := 0b01000000
abbrev button_mask_triangle : UInt8 := 0b10000000
abbrev button_mask_l1 : UInt8 := 0b00000001
abbrev button_mask_r1 : UInt8 := 0b00000010
abbrev button_mask_l2 : UInt8 := 0b00000100
abbrev button_mask_r2 : UInt8 := 0b00001000
abbrev button_mask_share : UInt8 := 0b00010000
abbrev button_mask_options : UInt8 := 0b00100000
abbrev button_mask_l3 : UInt8 := 0b01000000
abbrev button_mask_r3 : UInt8 := 0b10000000
abbrev button_mask_ps : UInt8 := 0b01
abbrev button_mask_touchpad : UInt8 := 0b10

abbrev ps4_status_mask_battery : UInt8 := 0b00001111
abbrev ps4_status_mask_charging : UInt8 := 0b00010000
abbrev ps4_status_mask_audio : UInt8 := 0b00100000
abbrev ps4_status_mask_mic : UInt8 := 0b01000000

/-! ## The parser -/

/-- `(data & mask) ? true : false`. -/
def masked (data mask : UInt8) : Bool := data &&& mask != 0

/-- One stick axis: `minJ` for a zero byte, else the sum with `offset` stored in an `int8_t`. -/
def axis (b : UInt8) : Int8 :=
  let offset : Int := 128
  let minJ : Int8 := -127
  if b = 0 then minJ else Int8.ofInt (b.toNat + offset)

section Parse

variable (packet : Packet)

def parsePacketAnalogStick : ps4_analog_stick_t where
  lx := axis (packet.byte packet_index_analog_stick_lx)
  ly := axis (packet.byte packet_index_analog_stick_ly)
  rx := axis (packet.byte packet_index_analog_stick_rx)
  ry := axis (packet.byte packet_index_analog_stick_ry)

def parsePacketAnalogButton : ps4_analog_button_t where
  l2 := packet.byte packet_index_analog_l2
  r2 := packet.byte packet_index_analog_r2

def parsePacketButtons : ps4_button_t :=
  let frontBtnData := packet.byte packet_index_button_standard
  let extraBtnData := packet.byte packet_index_button_extra
  let psBtnData := packet.byte packet_index_button_ps
  let directionBtnsOnly := button_mask_direction &&& frontBtnData
  { up := directionBtnsOnly == button_mask_up
    right := directionBtnsOnly == button_mask_right
    down := directionBtnsOnly == button_mask_down
    left := directionBtnsOnly == button_mask_left
    upright := directionBtnsOnly == button_mask_upright
    upleft := directionBtnsOnly == button_mask_upleft
    downright := directionBtnsOnly == button_mask_downright
    downleft := directionBtnsOnly == button_mask_downleft
    triangle := masked frontBtnData button_mask_triangle
    circle := masked frontBtnData button_mask_circle
    cross := masked frontBtnData button_mask_cross
    square := masked frontBtnData button_mask_square
    l1 := masked extraBtnData button_mask_l1
    r1 := masked extraBtnData button_mask_r1
    l2 := masked extraBtnData button_mask_l2
    r2 := masked extraBtnData button_mask_r2
    share := masked extraBtnData button_mask_share
    options := masked extraBtnData button_mask_options
    l3 := masked extraBtnData button_mask_l3
    r3 := masked extraBtnData button_mask_r3
    ps := masked psBtnData button_mask_ps
    touchpad := masked psBtnData button_mask_touchpad }

def parsePacketStatus : ps4_status_t where
  battery := packet.byte packet_index_status &&& ps4_status_mask_battery
  charging := masked (packet.byte packet_index_status) ps4_status_mask_charging
  audio := masked (packet.byte packet_index_status) ps4_status_mask_audio
  mic := masked (packet.byte packet_index_status) ps4_status_mask_mic

/-- `(packet[i + 1] << 8) + packet[i]`, stored in an `int16_t`. -/
def word (i : Nat) : Int16 := Int16.ofInt ((packet.byte (i + 1)).toNat <<< 8 + (packet.byte i).toNat : Nat)

def parsePacketSensor : ps4_sensor_t where
  gyroscope :=
    { x := word packet packet_index_sensor_gyroscope_x
      y := word packet packet_index_sensor_gyroscope_y
      z := word packet packet_index_sensor_gyroscope_z }
  accelerometer :=
    { x := word packet packet_index_sensor_accelerometer_x
      y := word packet packet_index_sensor_accelerometer_y
      z := word packet packet_index_sensor_accelerometer_z }

end Parse

/-- Two sets of buttons, button by button. -/
def ps4_button_t.zip (f : Bool → Bool → Bool) (p c : ps4_button_t) : ps4_button_t where
  right := f p.right c.right
  down := f p.down c.down
  up := f p.up c.up
  left := f p.left c.left
  square := f p.square c.square
  cross := f p.cross c.cross
  circle := f p.circle c.circle
  triangle := f p.triangle c.triangle
  upright := f p.upright c.upright
  downright := f p.downright c.downright
  upleft := f p.upleft c.upleft
  downleft := f p.downleft c.downleft
  l1 := f p.l1 c.l1
  r1 := f p.r1 c.r1
  l2 := f p.l2 c.l2
  r2 := f p.r2 c.r2
  share := f p.share c.share
  options := f p.options c.options
  l3 := f p.l3 c.l3
  r3 := f p.r3 c.r3
  ps := f p.ps c.ps
  touchpad := f p.touchpad c.touchpad

/-- A comparison's value, stored in an `int8_t`. -/
def moved (v : Int8) : Int8 := if v ≠ 0 then 1 else 0

def parseEvent (prev cur : ps4_t) : ps4_event_t where
  button_down := prev.button.zip (fun p c => !p && c) cur.button
  button_up := prev.button.zip (fun p c => p && !c) cur.button
  analog_move :=
    { lx := moved cur.analog.stick.lx
      ly := moved cur.analog.stick.ly
      rx := moved cur.analog.stick.rx
      ry := moved cur.analog.stick.ry }

/-- The parser's `ps4` after a packet, and what goes to `ps4PacketEvent` with it. -/
def parsePacket (ps4 : ps4_t) (packet : Packet) : ps4_t × ps4_event_t :=
  let prev_ps4 := ps4
  let ps4 : ps4_t :=
    { button := parsePacketButtons packet
      analog := ⟨parsePacketAnalogStick packet, parsePacketAnalogButton packet⟩
      sensor := parsePacketSensor packet
      status := parsePacketStatus packet
      latestPacket := some packet.addr }
  (ps4, parseEvent prev_ps4 ps4)

/-- What a packet says, whatever came before it. -/
def reading (packet : Packet) : ps4_t := (parsePacket .zero packet).1

/-! ## Bytes one by one -/

theorem all_bytes {P : UInt8 → Prop} (h : ∀ b : BitVec 8, P (UInt8.ofBitVec b)) (b : UInt8) : P b := h b.toBitVec

theorem axis_ne_min (b : UInt8) : axis b ≠ -128 := all_bytes (P := fun b => axis b ≠ -128) (by decide) b

/-! ## Buttons one by one -/

inductive Button where
  | right
  | down
  | up
  | left
  | square
  | cross
  | circle
  | triangle
  | upright
  | downright
  | upleft
  | downleft
  | l1
  | r1
  | l2
  | r2
  | share
  | options
  | l3
  | r3
  | ps
  | touchpad
  deriving DecidableEq, Repr

def ps4_button_t.get (b : ps4_button_t) : Button → Bool
  | .right => b.right
  | .down => b.down
  | .up => b.up
  | .left => b.left
  | .square => b.square
  | .cross => b.cross
  | .circle => b.circle
  | .triangle => b.triangle
  | .upright => b.upright
  | .downright => b.downright
  | .upleft => b.upleft
  | .downleft => b.downleft
  | .l1 => b.l1
  | .r1 => b.r1
  | .l2 => b.l2
  | .r2 => b.r2
  | .share => b.share
  | .options => b.options
  | .l3 => b.l3
  | .r3 => b.r3
  | .ps => b.ps
  | .touchpad => b.touchpad

theorem zip_get (f : Bool → Bool → Bool) (p c : ps4_button_t) (k : Button) :
    (p.zip f c).get k = f (p.get k) (c.get k) := by
  cases k <;> rfl

theorem parseEvent_down (prev cur : ps4_t) (k : Button) :
    (parseEvent prev cur).button_down.get k = (!prev.button.get k && cur.button.get k) := zip_get _ _ _ k

theorem parseEvent_up (prev cur : ps4_t) (k : Button) :
    (parseEvent prev cur).button_up.get k = (prev.button.get k && !cur.button.get k) := zip_get _ _ _ k

end RobotCar.Pad
