/-
  RobotCar.Pad.Events — the presses and releases the sketch is told of (`PS4.event`), over
  one connection: from a state that is not connected, until the connection is lost.

  The parser compares each report with the one before it, but the report that opens the
  connection is not handed on, nor is what changed in it.

  - `session_events`: after the opening report, each button's presses and releases
    alternate, begin with a change from what that report said, and end with what the last
    report says; so a button held when the connection opens is not reported as pressed
    before it has been reported as released.
-/

import RobotCar.Lib.Edges
import RobotCar.Pad.Host

namespace RobotCar.Pad

open RobotCar.Lib
open Edges (edge edges)

/-- What a step hands on of a report's changes. -/
def handed (s : St) (e : Ev) : Option ps4_event_t :=
  if s.is_active then (report e).map fun p => parseEvent s.ps4 (reading p) else none

/-- The presses (`true`) and releases of a button, in order. -/
def changes (k : Button) (evs : List ps4_event_t) : List Bool :=
  evs.flatMap fun ev =>
    (if ev.button_down.get k then [true] else []) ++ (if ev.button_up.get k then [false] else [])

/-- Whether a report says the button is down. -/
def down (k : Button) (p : Packet) : Bool := (reading p).button.get k

section Step

variable {s t : St} {e : Ev} {o : List Out}

theorem step_event (h : Step s e t o) : t.PS4.event = (handed s e).getD s.PS4.event := by
  cases h with
  | log e he => cases e <;> cases he <;> simp [handed, report]
  | opening cid p_buf hlen ha => simp [handed, ha]
  | passing cid p_buf hlen ha => simp [handed, ha, report, hlen]
  | short cid p_buf hlen => simp [handed, report, hlen]
  | _ => simp [handed, report]

end Step

theorem changes_cons (k : Button) (ev : ps4_event_t) (evs : List ps4_event_t) :
    changes k (ev :: evs) = changes k [ev] ++ changes k evs := by
  simp [changes]

theorem changes_parseEvent (k : Button) (prev cur : ps4_t) :
    changes k [parseEvent prev cur] = (edge (prev.button.get k) (cur.button.get k)).toList := by
  simp only [changes, List.flatMap_singleton, parseEvent_down, parseEvent_up]
  cases prev.button.get k <;> cases cur.button.get k <;> rfl

section Session

variable {s t : St} {fs : List Ev} {k : Button}

/-- `PS4.event` is what was handed on last. -/
theorem event_latest (h : pad.execFrom s fs = some t) :
    t.PS4.event = (pad.log handed s fs).getLast?.getD s.PS4.event := by
  refine Machine.exec_induction (P := fun fs t => t.PS4.event = (pad.log handed s fs).getLast?.getD s.PS4.event) rfl ?_ h
  intro fs u e v hu ih he
  have hstep := step_event (step_cases u e)
  cases he
  rw [Machine.log_snoc handed hu rfl, List.getLast?_append, hstep, ih]
  cases handed u e <;> rfl

/-- Once connected, and while it lasts. -/
theorem open_events (ha : s.is_active = true) (h : pad.execFrom s fs = some t)
    (hkeep : ∀ x ∈ pad.log gateEv s fs, x.item?.isSome) :
    changes k (pad.log handed s fs) =
      edges (s.ps4.button.get k) ((Gate.items (pad.log gateEv s fs)).map (down k)) := by
  induction fs generalizing s with
  | nil => rfl
  | cons e fs ih =>
    obtain ⟨u, hu, h⟩ := Machine.execFrom_cons.mp h
    cases hu
    have hactive := step_active (step_cases s e)
    have hps4 := step_ps4 (step_cases s e)
    have hhanded : pad.log handed s (e :: fs) = (handed s e).toList ++ pad.log handed (react s e).1 fs := rfl
    have hgate : pad.log gateEv s (e :: fs) = (gateEv s e).toList ++ pad.log gateEv (react s e).1 fs := rfl
    rw [hgate] at hkeep ⊢
    rw [hhanded, handed, ha, if_pos rfl]
    cases hr : report e with
    | some p =>
      rw [loses_report hr, hr] at hactive
      rw [hr] at hps4
      have hrest := ih hactive h fun x hx => hkeep x (List.mem_append_right _ hx)
      rw [hps4] at hrest
      rw [gateEv_report hr, Option.map_some, Option.toList_some, Option.toList_some, List.singleton_append, changes_cons,
        changes_parseEvent, hrest]
      rfl
    | none =>
      cases hl : loses s e with
      | true =>
        have hshut := hkeep .shut (List.mem_append_left _ (by simp [gateEv, hl]))
        cases hshut
      | false =>
        rw [hl, hr] at hactive
        rw [hr] at hps4
        have hrest := ih (hactive.trans ha) h fun x hx => hkeep x (List.mem_append_right _ hx)
        rw [hps4] at hrest
        simpa [gateEv, hl, hr] using hrest

/-- From a state that is not connected, the same holds after the first report. -/
theorem opening_events {r : Packet} {rs : List Packet} (ha : s.is_active = false) (h : pad.execFrom s fs = some t)
    (hkeep : ∀ x ∈ pad.log gateEv s fs, x.item?.isSome) (hr : Gate.items (pad.log gateEv s fs) = r :: rs) :
    changes k (pad.log handed s fs) = edges (down k r) (rs.map (down k)) := by
  induction fs generalizing s with
  | nil => cases hr
  | cons e fs ih =>
    obtain ⟨u, hu, h⟩ := Machine.execFrom_cons.mp h
    cases hu
    have hactive := step_active (step_cases s e)
    have hps4 := step_ps4 (step_cases s e)
    have hhanded : pad.log handed s (e :: fs) = (handed s e).toList ++ pad.log handed (react s e).1 fs := rfl
    have hgate : pad.log gateEv s (e :: fs) = (gateEv s e).toList ++ pad.log gateEv (react s e).1 fs := rfl
    rw [hgate] at hkeep hr
    rw [hhanded, handed, ha, if_neg (by simp)]
    cases hp : report e with
    | some p =>
      rw [loses_report hp, hp] at hactive
      rw [hp] at hps4
      rw [gateEv_report hp] at hr
      obtain ⟨rfl, rfl⟩ := List.cons.inj hr
      have hrest := open_events (k := k) hactive h fun x hx => hkeep x (List.mem_append_right _ hx)
      rw [hps4] at hrest
      exact hrest
    | none =>
      cases hl : loses s e with
      | true =>
        have hshut := hkeep .shut (List.mem_append_left _ (by simp [gateEv, hl]))
        cases hshut
      | false =>
        rw [hl, hp] at hactive
        refine ih (hactive.trans ha) h (fun x hx => hkeep x (List.mem_append_right _ hx)) ?_
        simpa [gateEv, hl, hp] using hr

theorem session_events {r : Packet} {rs : List Packet} (ha : s.is_active = false) (h : pad.execFrom s fs = some t)
    (hkeep : ∀ x ∈ pad.log gateEv s fs, x.item?.isSome) (hr : Gate.items (pad.log gateEv s fs) = r :: rs) (k : Button) :
    let seen := changes k (pad.log handed s fs)
    t.PS4.event = (pad.log handed s fs).getLast?.getD s.PS4.event ∧
    (down k r :: seen).IsChain (· ≠ ·) ∧
    (down k r :: seen).getLast? = (down k r :: rs.map (down k)).getLast? ∧
    seen.count true + (down k r).toNat = seen.count false + ((rs.map (down k)).getLastD (down k r)).toNat := by
  intro seen
  have hseen : seen = edges (down k r) (rs.map (down k)) := opening_events ha h hkeep hr
  rw [hseen]
  exact ⟨event_latest h, Edges.edges_chain, Edges.edges_last, Edges.edges_count _ _⟩

/-- Square is held from before the controller connects and let go once: one release, and no
    press before it. -/
theorem session_events_held :
    let report : Ev := .data_ind 0x41 ⟨79, ⟨7, fun i => if i = 17 then 0x18 else 0x80⟩⟩
    let released : Ev := .data_ind 0x41 ⟨79, ⟨8, fun i => if i = 17 then 0x08 else 0x80⟩⟩
    (down .square ⟨7, fun i => if i = 17 then 0x18 else 0x80⟩ ::
      changes .square (pad.log handed init [report, report, released])).IsChain (· ≠ ·) := by
  intro report released
  exact (session_events rfl rfl (by decide) rfl .square).2.1

end Session

end RobotCar.Pad
