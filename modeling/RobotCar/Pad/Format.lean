/-
  RobotCar.Pad.Format — what a HID report can say, and what of its bytes the parser reads.
  `encode` writes a report that says a given thing.

  - `reading_wellFormed`: no stick axis at -128, at most one of the eight directions, a
    battery level below 16.
  - `reading_encode`: whatever meets that, some report says.
  - `encode_reading`: of a report's bytes the parser keeps `canon`: a zero stick byte is
    one, any direction code from 8 on is none, and the spare bits are lost.
  `report_format` puts the three together.
-/

import RobotCar.Pad.Report

namespace RobotCar.Pad

/-! ## What a report can say -/

/-- The direction buttons, clockwise. -/
def ps4_button_t.directions (b : ps4_button_t) : List Bool :=
  [b.up, b.upright, b.right, b.downright, b.down, b.downleft, b.left, b.upleft]

structure WellFormed (d : ps4_t) : Prop where
  lx : d.analog.stick.lx ≠ -128
  ly : d.analog.stick.ly ≠ -128
  rx : d.analog.stick.rx ≠ -128
  ry : d.analog.stick.ry ≠ -128
  direction : d.button.directions.count true ≤ 1
  battery : d.status.battery < 16

theorem directions_count (packet : Packet) : (parsePacketButtons packet).directions.count true ≤ 1 := by
  simp only [parsePacketButtons, ps4_button_t.directions]
  generalize packet.byte packet_index_button_standard = b
  revert b
  exact all_bytes (by decide)

theorem reading_wellFormed (packet : Packet) : WellFormed (reading packet) where
  lx := axis_ne_min _
  ly := axis_ne_min _
  rx := axis_ne_min _
  ry := axis_ne_min _
  direction := directions_count packet
  battery := all_bytes (P := fun b => b &&& ps4_status_mask_battery < 16) (by decide) _

/-! ## A report that says it -/

def axisByte (v : Int8) : UInt8 := UInt8.ofBitVec (v.toBitVec + 128)

def lowByte (v : Int16) : UInt8 := UInt8.ofBitVec (v.toBitVec.setWidth 8)

def highByte (v : Int16) : UInt8 := UInt8.ofBitVec ((v.toBitVec >>> 8).setWidth 8)

def bit (b : Bool) (mask : UInt8) : UInt8 := if b then mask else 0

/-- The direction code of eight buttons, 8 for none. -/
def directionCode : List Bool → UInt8
  | [] => 0
  | true :: _ => 0
  | false :: bs => directionCode bs + 1

def frontByte (b : ps4_button_t) : UInt8 :=
  directionCode b.directions ||| bit b.square button_mask_square ||| bit b.cross button_mask_cross |||
    bit b.circle button_mask_circle ||| bit b.triangle button_mask_triangle

def extraByte (b : ps4_button_t) : UInt8 :=
  bit b.l1 button_mask_l1 ||| bit b.r1 button_mask_r1 ||| bit b.l2 button_mask_l2 ||| bit b.r2 button_mask_r2 |||
    bit b.share button_mask_share ||| bit b.options button_mask_options ||| bit b.l3 button_mask_l3 |||
    bit b.r3 button_mask_r3

def psByte (b : ps4_button_t) : UInt8 := bit b.ps button_mask_ps ||| bit b.touchpad button_mask_touchpad

def statusByte (s : ps4_status_t) : UInt8 :=
  s.battery ||| bit s.charging ps4_status_mask_charging ||| bit s.audio ps4_status_mask_audio |||
    bit s.mic ps4_status_mask_mic

def encode (d : ps4_t) : Nat → UInt8
  | 13 => axisByte d.analog.stick.lx
  | 14 => axisByte d.analog.stick.ly
  | 15 => axisByte d.analog.stick.rx
  | 16 => axisByte d.analog.stick.ry
  | 17 => frontByte d.button
  | 18 => extraByte d.button
  | 19 => psByte d.button
  | 20 => d.analog.button.l2
  | 21 => d.analog.button.r2
  | 25 => lowByte d.sensor.gyroscope.x
  | 26 => highByte d.sensor.gyroscope.x
  | 27 => lowByte d.sensor.gyroscope.y
  | 28 => highByte d.sensor.gyroscope.y
  | 29 => lowByte d.sensor.gyroscope.z
  | 30 => highByte d.sensor.gyroscope.z
  | 31 => lowByte d.sensor.accelerometer.x
  | 32 => highByte d.sensor.accelerometer.x
  | 33 => lowByte d.sensor.accelerometer.y
  | 34 => highByte d.sensor.accelerometer.y
  | 35 => lowByte d.sensor.accelerometer.z
  | 36 => highByte d.sensor.accelerometer.z
  | 42 => statusByte d.status
  | _ => 0

/-! ## Reading it back -/

theorem axis_axisByte {v : Int8} (h : v ≠ -128) : axis (axisByte v) = v := by
  have hall : ∀ x : BitVec 8, Int8.ofBitVec x ≠ -128 → axis (axisByte (Int8.ofBitVec x)) = Int8.ofBitVec x := by decide
  exact hall v.toBitVec h

theorem word_toNat (packet : Packet) (i : Nat) :
    (word packet i).toBitVec.toNat = (packet.byte (i + 1)).toNat * 256 + (packet.byte i).toNat := by
  have hlo := (packet.byte i).toNat_lt
  have hhi := (packet.byte (i + 1)).toNat_lt
  rw [word, Nat.shiftLeft_eq, Int16.ofInt_eq_ofNat, Int16.toBitVec_ofNat', BitVec.toNat_ofNat]
  omega

theorem word_bytes {packet : Packet} {i : Nat} {v : Int16} (hlo : packet.byte i = lowByte v)
    (hhi : packet.byte (i + 1) = highByte v) : word packet i = v := by
  have hv := v.toBitVec.isLt
  apply Int16.toBitVec_inj.mp
  apply BitVec.eq_of_toNat_eq
  rw [word_toNat, hlo, hhi, lowByte, highByte]
  simp only [UInt8.toNat_ofBitVec, BitVec.toNat_setWidth, BitVec.toNat_ushiftRight, Nat.shiftRight_eq_div_pow]
  omega

/-- Eight buttons, at most one of them down, from their code. -/
theorem directionCode_spec : ∀ u ur r dr d dl l ul : Bool,
    let c := directionCode [u, ur, r, dr, d, dl, l, ul]
    c < 9 ∧ ([u, ur, r, dr, d, dl, l, ul].count true ≤ 1 →
      (c == button_mask_up) = u ∧ (c == button_mask_upright) = ur ∧ (c == button_mask_right) = r ∧
      (c == button_mask_downright) = dr ∧ (c == button_mask_down) = d ∧ (c == button_mask_downleft) = dl ∧
      (c == button_mask_left) = l ∧ (c == button_mask_upleft) = ul) := by
  decide

/-- The front byte's low half is the code, its high half four buttons. -/
theorem front_spec : ∀ c : UInt8, c < 9 → ∀ s x o t : Bool,
    let b := c ||| bit s button_mask_square ||| bit x button_mask_cross ||| bit o button_mask_circle |||
      bit t button_mask_triangle
    button_mask_direction &&& b = c ∧ masked b button_mask_square = s ∧ masked b button_mask_cross = x ∧
      masked b button_mask_circle = o ∧ masked b button_mask_triangle = t :=
  all_bytes (by decide +kernel)

theorem extra_spec : ∀ l1 r1 l2 r2 sh op l3 r3 : Bool,
    let b := bit l1 button_mask_l1 ||| bit r1 button_mask_r1 ||| bit l2 button_mask_l2 ||| bit r2 button_mask_r2 |||
      bit sh button_mask_share ||| bit op button_mask_options ||| bit l3 button_mask_l3 ||| bit r3 button_mask_r3
    masked b button_mask_l1 = l1 ∧ masked b button_mask_r1 = r1 ∧ masked b button_mask_l2 = l2 ∧
      masked b button_mask_r2 = r2 ∧ masked b button_mask_share = sh ∧ masked b button_mask_options = op ∧
      masked b button_mask_l3 = l3 ∧ masked b button_mask_r3 = r3 := by
  decide +kernel

theorem ps_spec : ∀ ps touchpad : Bool,
    let b := bit ps button_mask_ps ||| bit touchpad button_mask_touchpad
    masked b button_mask_ps = ps ∧ masked b button_mask_touchpad = touchpad := by
  decide

theorem status_spec : ∀ v : UInt8, v < 16 → ∀ c a m : Bool,
    let b := v ||| bit c ps4_status_mask_charging ||| bit a ps4_status_mask_audio ||| bit m ps4_status_mask_mic
    b &&& ps4_status_mask_battery = v ∧ masked b ps4_status_mask_charging = c ∧
      masked b ps4_status_mask_audio = a ∧ masked b ps4_status_mask_mic = m :=
  all_bytes (by decide +kernel)

theorem buttons_encode (addr : Nat) {d : ps4_t} (h : d.button.directions.count true ≤ 1) :
    parsePacketButtons ⟨addr, encode d⟩ = d.button := by
  obtain ⟨⟨stick, analog⟩, b, status, sensor, latest⟩ := d
  obtain ⟨right, down, up, left, square, cross, circle, triangle, upright, downright, upleft, downleft, l1, r1, l2, r2,
    share, options, l3, r3, ps, touchpad⟩ := b
  obtain ⟨hcode, hdir⟩ := directionCode_spec up upright right downright down downleft left upleft
  obtain ⟨h1, h2, h3, h4, h5, h6, h7, h8⟩ := hdir h
  obtain ⟨hd, hs, hx, ho, ht⟩ := front_spec _ hcode square cross circle triangle
  obtain ⟨e1, e2, e3, e4, e5, e6, e7, e8⟩ := extra_spec l1 r1 l2 r2 share options l3 r3
  obtain ⟨p1, p2⟩ := ps_spec ps touchpad
  simp only [parsePacketButtons, encode, frontByte, extraByte, psByte, ps4_button_t.directions, hd, hs, hx, ho, ht,
    h1, h2, h3, h4, h5, h6, h7, h8, e1, e2, e3, e4, e5, e6, e7, e8, p1, p2]

theorem reading_encode (addr : Nat) {d : ps4_t} (h : WellFormed d) :
    reading ⟨addr, encode d⟩ = { d with latestPacket := some addr } := by
  have hbutton := buttons_encode addr h.direction
  have hstick : parsePacketAnalogStick ⟨addr, encode d⟩ = d.analog.stick := by
    simp only [parsePacketAnalogStick, encode, axis_axisByte h.lx, axis_axisByte h.ly, axis_axisByte h.rx,
      axis_axisByte h.ry]
  have hsensor : parsePacketSensor ⟨addr, encode d⟩ = d.sensor := by
    have gx : word ⟨addr, encode d⟩ packet_index_sensor_gyroscope_x = d.sensor.gyroscope.x := word_bytes rfl rfl
    have gy : word ⟨addr, encode d⟩ packet_index_sensor_gyroscope_y = d.sensor.gyroscope.y := word_bytes rfl rfl
    have gz : word ⟨addr, encode d⟩ packet_index_sensor_gyroscope_z = d.sensor.gyroscope.z := word_bytes rfl rfl
    have ax : word ⟨addr, encode d⟩ packet_index_sensor_accelerometer_x = d.sensor.accelerometer.x := word_bytes rfl rfl
    have ay : word ⟨addr, encode d⟩ packet_index_sensor_accelerometer_y = d.sensor.accelerometer.y := word_bytes rfl rfl
    have az : word ⟨addr, encode d⟩ packet_index_sensor_accelerometer_z = d.sensor.accelerometer.z := word_bytes rfl rfl
    simp only [parsePacketSensor, gx, gy, gz, ax, ay, az]
  have hstatus : parsePacketStatus ⟨addr, encode d⟩ = d.status := by
    obtain ⟨hb, hc, ha, hm⟩ := status_spec d.status.battery h.battery d.status.charging d.status.audio d.status.mic
    simp only [parsePacketStatus, encode, statusByte, hb, hc, ha, hm]
  simp only [reading, parsePacket, hbutton, hstick, hsensor, hstatus, parsePacketAnalogButton, encode]

/-! ## What the parser keeps of the bytes -/

theorem lowByte_word (packet : Packet) (i : Nat) : lowByte (word packet i) = packet.byte i := by
  have hlo := (packet.byte i).toNat_lt
  apply UInt8.toNat_inj.mp
  rw [lowByte, UInt8.toNat_ofBitVec, BitVec.toNat_setWidth, word_toNat]
  omega

theorem highByte_word (packet : Packet) (i : Nat) : highByte (word packet i) = packet.byte (i + 1) := by
  have hlo := (packet.byte i).toNat_lt
  have hhi := (packet.byte (i + 1)).toNat_lt
  apply UInt8.toNat_inj.mp
  rw [highByte, UInt8.toNat_ofBitVec, BitVec.toNat_setWidth, BitVec.toNat_ushiftRight, word_toNat,
    Nat.shiftRight_eq_div_pow]
  omega

/-- The direction code kept of a front byte. -/
def directionHalf (b : UInt8) : UInt8 := if b &&& 0x0F < 8 then b &&& 0x0F else 8

/-- What the parser keeps of a report's bytes. -/
def canon (byte : Nat → UInt8) (i : Nat) : UInt8 :=
  if 13 ≤ i ∧ i ≤ 16 then if byte i = 0 then 1 else byte i
  else if i = 17 then byte i &&& 0xF0 ||| directionHalf (byte i)
  else if i = 19 then byte i &&& 0x03
  else if i = 42 then byte i &&& 0x7F
  else if i = 18 ∨ i = 20 ∨ i = 21 ∨ 25 ≤ i ∧ i ≤ 36 then byte i
  else 0

theorem axisByte_axis (b : UInt8) : axisByte (axis b) = if b = 0 then 1 else b :=
  all_bytes (P := fun b => axisByte (axis b) = if b = 0 then 1 else b) (by decide) b

theorem front_buttons (packet : Packet) : frontByte (parsePacketButtons packet) =
    packet.byte packet_index_button_standard &&& 0xF0 ||| directionHalf (packet.byte packet_index_button_standard) := by
  simp only [frontByte, parsePacketButtons, ps4_button_t.directions]
  generalize packet.byte packet_index_button_standard = b
  revert b
  exact all_bytes (by decide +kernel)

theorem extra_buttons (packet : Packet) : extraByte (parsePacketButtons packet) = packet.byte packet_index_button_extra := by
  simp only [extraByte, parsePacketButtons]
  generalize packet.byte packet_index_button_extra = b
  revert b
  exact all_bytes (by decide +kernel)

theorem ps_buttons (packet : Packet) : psByte (parsePacketButtons packet) = packet.byte packet_index_button_ps &&& 0x03 := by
  simp only [psByte, parsePacketButtons]
  generalize packet.byte packet_index_button_ps = b
  revert b
  exact all_bytes (by decide)

theorem status_reading (packet : Packet) : statusByte (parsePacketStatus packet) = packet.byte packet_index_status &&& 0x7F := by
  simp only [statusByte, parsePacketStatus]
  generalize packet.byte packet_index_status = b
  revert b
  exact all_bytes (by decide +kernel)

theorem encode_reading (packet : Packet) : encode (reading packet) = canon packet.byte := by
  funext i
  unfold encode
  split
  case h_5 => exact front_buttons packet
  case h_6 => exact extra_buttons packet
  case h_7 => exact ps_buttons packet
  case h_22 => exact status_reading packet
  case h_23 =>
    -- an offset the parser does not read
    simp only [imp_false] at *
    unfold canon
    repeat rw [if_neg (by omega)]
  any_goals exact axisByte_axis _
  any_goals exact lowByte_word packet _
  any_goals exact highByte_word packet _
  all_goals rfl

/-- The readings are the well-formed ones, and two reports read alike exactly when their
    kept bytes agree. -/
theorem report_format (addr : Nat) :
    (∀ d, (∃ byte, reading ⟨addr, byte⟩ = d) ↔ WellFormed d ∧ d.latestPacket = some addr) ∧
    (∀ byte, encode (reading ⟨addr, byte⟩) = canon byte) ∧
    ∀ byte byte', reading ⟨addr, byte⟩ = reading ⟨addr, byte'⟩ ↔ canon byte = canon byte' := by
  refine ⟨?_, fun byte => encode_reading ⟨addr, byte⟩, ?_⟩
  · intro d
    constructor
    · intro h
      obtain ⟨byte, rfl⟩ := h
      exact ⟨reading_wellFormed _, rfl⟩
    · intro h
      obtain ⟨hwf, haddr⟩ := h
      refine ⟨encode d, ?_⟩
      rw [reading_encode addr hwf, ← haddr]
  · intro byte byte'
    constructor
    · intro h
      have henc := congrArg encode h
      rwa [encode_reading, encode_reading] at henc
    · intro h
      -- each reading is what its own encoding says
      have hback : ∀ f, reading ⟨addr, canon f⟩ = reading ⟨addr, f⟩ := by
        intro f
        have hf := reading_encode addr (reading_wellFormed ⟨addr, f⟩)
        rwa [encode_reading] at hf
      rw [← hback byte, ← hback byte', h]

end RobotCar.Pad
