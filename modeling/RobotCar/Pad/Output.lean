/-
  RobotCar.Pad.Output — what the library tells the controller: rumble, light bar and flash
  rate. The setters only change `PS4.output`; `sendToController` sends all of it, and
  connecting sends a light-bar command of its own and leaves `PS4.output` alone.

  - `heard_cmdReport`: a command can be read back from the report that carries it.
  - `writes_accounted`: every report written is on the control channel announced last, and
    is either what the setters last asked for or the start of a connection; one for each
    `sendToController`, two for each time `is_connected` goes up.
-/

import RobotCar.Pad.Connection

namespace RobotCar.Pad

open RobotCar.Lib
open Edges (edges)

/-- The command a report carries. -/
def heard : List UInt8 → Option ps4_cmd_t
  | 0x52 :: 0x11 :: 0x80 :: 0x00 :: 0xFF :: _ :: _ :: small :: large :: r :: g :: b :: on :: off :: _ =>
    some ⟨small, large, r, g, b, on, off⟩
  | _ => none

theorem heard_cmdReport (cmd : ps4_cmd_t) : heard (cmdReport cmd) = some cmd := rfl

/-! ## What the setters last asked for -/

def ledOf : Ev → Option (UInt8 × UInt8 × UInt8)
  | .setLed r g b => some (r, g, b)
  | _ => none

def rumbleOf : Ev → Option (UInt8 × UInt8)
  | .setRumble small large => some (small, large)
  | _ => none

def flashOf : Ev → Option (UInt8 × UInt8)
  | .setFlashRate onTime offTime => some (onTime, offTime)
  | _ => none

def requested (es : List Ev) : ps4_cmd_t where
  smallRumble := (latest rumbleOf (0, 0) es).1
  largeRumble := (latest rumbleOf (0, 0) es).2
  r := (latest ledOf (0, 0, 0) es).1
  g := (latest ledOf (0, 0, 0) es).2.1
  b := (latest ledOf (0, 0, 0) es).2.2
  flashOn := (latest flashOf (0, 0) es).1
  flashOff := (latest flashOf (0, 0) es).2

structure Sets (c d : ps4_cmd_t) (e : Ev) : Prop where
  led : (d.r, d.g, d.b) = (ledOf e).getD (c.r, c.g, c.b)
  rumble : (d.smallRumble, d.largeRumble) = (rumbleOf e).getD (c.smallRumble, c.largeRumble)
  flash : (d.flashOn, d.flashOff) = (flashOf e).getD (c.flashOn, c.flashOff)

section Runs

variable {s t : St} {es : List Ev} {e : Ev} {o : List Out}

theorem step_sets (h : Step s e t o) : Sets s.PS4.output t.PS4.output e := by
  cases h with
  | log e he => cases e <;> cases he <;> exact ⟨rfl, rfl, rfl⟩
  | _ => exact ⟨rfl, rfl, rfl⟩

theorem output_eq (h : pad.Run es s) : s.PS4.output = requested es := by
  have hled := view_latest (fun s : St => (s.PS4.output.r, s.PS4.output.g, s.PS4.output.b))
    (fun s e _ he => by cases he; exact (step_sets (step_cases s e)).led) h
  have hrumble := view_latest (fun s : St => (s.PS4.output.smallRumble, s.PS4.output.largeRumble))
    (fun s e _ he => by cases he; exact (step_sets (step_cases s e)).rumble) h
  have hflash := view_latest (fun s : St => (s.PS4.output.flashOn, s.PS4.output.flashOff))
    (fun s e _ he => by cases he; exact (step_sets (step_cases s e)).flash) h
  simp only [Prod.ext_iff] at hled hrumble hflash
  obtain ⟨hr, hg, hb⟩ := hled
  obtain ⟨hsmall, hlarge⟩ := hrumble
  obtain ⟨hon, hoff⟩ := hflash
  exact ps4_cmd_t.ext hsmall hlarge hr hg hb hon hoff

/-! ## Every report accounted for -/

/-- A report written at `e`, after `pre`: what was asked for, or the start of a connection. -/
def Explains (pre : List Ev) (e : Ev) (report : List UInt8) : Prop :=
  e = .sendToController ∧ heard report = some (requested pre) ∨
    Confirms pre e ∧ ¬ LastIs decides Confirms pre ∧ (report = enableReport ∨ heard report = some ledCmd)

theorem reports_explained (h : pad.Run es s) : ∀ r ∈ reports s e, Explains es e r := by
  intro r hr
  cases e with
  | config_cfm cid =>
    simp only [reports] at hr
    split at hr
    · rename_i hstart
      obtain ⟨hcid, hoff⟩ := hstart
      have hlost : ¬ LastIs decides Confirms es := by
        intro hlast
        rw [(connected_iff h).mpr hlast] at hoff
        cases hoff
      refine .inr ⟨?_, hlost, ?_⟩
      · rw [Confirms, hcid, interrupt_latest h]
      · rcases List.mem_cons.mp hr with hr | hr
        · exact .inl hr
        · rw [List.mem_singleton.mp hr]
          exact .inr (heard_cmdReport _)
    · cases hr
  | sendToController =>
    rw [List.mem_singleton.mp hr, output_eq h]
    exact .inl ⟨rfl, heard_cmdReport _⟩
  | _ => cases hr

def isSend : Ev → Bool
  | .sendToController => true
  | _ => false

theorem reports_length (s : St) (e : Ev) :
    (reports s e).length = (if isSend e then 1 else 0) + 2 * (reports s e).count enableReport := by
  cases e with
  | config_cfm cid =>
    simp only [reports]
    split <;> simp [isSend, cmdReport_ne_enable]
  | sendToController => simp [reports, isSend, cmdReport_ne_enable]
  | _ => rfl

theorem writes_explained (h : pad.Run es s) :
    ∀ w ∈ writes es, ∃ pre e post, es = pre ++ e :: post ∧ w.1 = latest controlOf 0 pre ∧ Explains pre e w.2 := by
  refine Machine.run_induction (P := fun es _ =>
    ∀ w ∈ writes es, ∃ pre e post, es = pre ++ e :: post ∧ w.1 = latest controlOf 0 pre ∧ Explains pre e w.2)
    (fun _ hw => absurd hw List.not_mem_nil) ?_ h
  intro es s e t hrun ih he w hw
  rw [writes_snoc hrun] at hw
  rcases List.mem_append.mp hw with hw | hw
  · obtain ⟨pre, x, post, rfl, hchan, hwhy⟩ := ih w hw
    exact ⟨pre, x, post ++ [e], by simp, hchan, hwhy⟩
  · obtain ⟨r, hr, rfl⟩ := List.mem_map.mp hw
    exact ⟨es, e, [], rfl, control_latest hrun, reports_explained hrun r hr⟩

theorem writes_length (h : pad.Run es s) : (writes es).length = es.countP isSend + 2 * enables es := by
  refine Machine.run_induction (P := fun es _ => (writes es).length = es.countP isSend + 2 * enables es) rfl ?_ h
  intro es s e t hrun ih he
  rw [writes_snoc hrun, enables_snoc hrun, List.length_append, ih, List.length_map, reports_length, List.countP_append,
    List.countP_singleton]
  omega

/-- A connection is a rise of `is_connected`. -/
theorem writes_accounted (h : pad.Run es s) :
    (∀ w ∈ writes es, ∃ pre e post, es = pre ++ e :: post ∧ w.1 = latest controlOf 0 pre ∧ Explains pre e w.2) ∧
    (writes es).length = es.countP isSend + 2 * (edges false (levels es)).count true := by
  refine ⟨writes_explained h, ?_⟩
  rw [← (enables_eq h).1]
  exact writes_length h

/-- A connection made, a colour set, sent twice, and the connection lost and made again. -/
theorem writes_accounted_colour :
    let es : List Ev := [.connect_ind 0 0x40 BT_PSM_HID_CONTROL 1, .connect_ind 0 0x41 BT_PSM_HID_INTERRUPT 2,
      .config_cfm 0x40, .config_cfm 0x41, .setLed 255 0 0, .sendToController, .sendToController,
      .disconnect_ind 0x41 true, .config_cfm 0x41]
    (writes es).length = es.countP isSend + 2 * (edges false (levels es)).count true := by
  intro es
  have h : pad.Run es ((pad.execFrom pad.init es).get rfl) := (Option.some_get _).symm
  exact (writes_accounted h).2

end Runs

end RobotCar.Pad
