/-
  RobotCar.Link.Refinement — the whole system (`Link.System`) against the session
  (`Link.Session`), where each call of `controlFunction` sees one sample and the robot
  decodes what it writes before the next. At rest the system is where a session is: of the
  calls the sketch made, each at a settled sample, or where bytes were overwritten in
  `received_byte`, of those calls without some of the bytes, the newest never among them.

  The two differ in `speed` while the robot brakes, which nothing reads: `shown` leaves it out.

  - `session_eq`: a session is its calls' bytes decoded one after the other.
  - `refines_session`: the refinement, with the motor registers it entails.
-/

import RobotCar.Link.Rest

namespace RobotCar.Link.System

open RobotCar.Lib
open Sender (Sample TPacket initPacket sendPacket controlFunction transmit)
open Receiver (robot decode fields brake Globals AtRest decodeCalls keptBytes lostBytes)

/-! ## What shows of the globals -/

/-- All that the threads make use of: while the robot brakes its `speed` is not read. -/
def shown (g : Globals) : (Int × BitVec 8 × Bool × Bool) × Int := (g.command, if g.state = brake then 0 else g.speed)

section Shown

variable {g h : Globals}

theorem decode_shown (e : shown g = shown h) (b : BitVec 8) : shown (decode g b) = shown (decode h b) := by
  obtain ⟨hcommand, hspeed⟩ := Prod.mk.inj e
  obtain ⟨hstate, hrest⟩ := Prod.mk.inj hcommand
  obtain ⟨hfactor, hrest⟩ := Prod.mk.inj hrest
  obtain ⟨hmoving, hcomplete⟩ := Prod.mk.inj hrest
  by_cases h0 : (fields b).OP = 0b00
  · simp [Receiver.decode_movement h0, shown, Globals.command, hcomplete]
  by_cases h2 : (fields b).OP = 0b10
  · simp only [Receiver.decode_audio h2, shown, Globals.command, hcomplete, hfactor, hmoving]
    rw [hspeed, hstate]
  · rw [Receiver.decode_other h0 h2, Receiver.decode_other h0 h2]
    exact e

theorem motors_shown (e : shown g = shown h) : g.motors = h.motors := by
  obtain ⟨hcommand, hspeed⟩ := Prod.mk.inj e
  obtain ⟨hstate, hrest⟩ := Prod.mk.inj hcommand
  obtain ⟨hfactor, -⟩ := Prod.mk.inj hrest
  simp only [Globals.motors, hfactor]
  by_cases hb : h.state = brake
  · have hg : g.state = brake := hstate.trans hb
    rw [Receiver.motorControl_eq, Receiver.motorControl_eq, hg, hb, Receiver.wheels_brake, Receiver.wheels_brake]
  · have hg : g.state ≠ brake := fun hg => hb (hstate.symm.trans hg)
    rw [if_neg hg, if_neg hb] at hspeed
    rw [hspeed, show g.state = h.state from hstate]

end Shown

/-! ## A session's bytes -/

/-- The bytes that calls write, from the first one on. -/
def written (calls : List (Sample × BitVec 1)) : List (BitVec 8) := (transmit initPacket calls).filterMap id

theorem session_eq (q : TPacket) (g : Globals) (calls : List (Sample × BitVec 1)) :
    session ⟨q, g⟩ calls = ⟨remembered q calls, ((transmit q calls).filterMap id).foldl decode g⟩ := by
  induction calls generalizing q g with
  | nil => rfl
  | cons c calls ih =>
    have hcall : call ⟨q, g⟩ c.1 c.2 =
        ⟨(controlFunction q c.1 c.2).1, (controlFunction q c.1 c.2).2.toList.foldl decode g⟩ := by
      unfold call
      split <;> rename_i hc <;> rw [hc] <;> rfl
    show session (call ⟨q, g⟩ c.1 c.2) calls = _
    rw [hcall, ih]
    simp only [transmit, remembered, List.foldl_cons]
    cases (controlFunction q c.1 c.2).2 <;> rfl

section Refinement

variable {es : List Ev} {s : St}

/-! ## The bytes taken -/

theorem kept_shown {cs : List Receiver.Ev} {c : Receiver.St} (h : robot.Run cs c) (hrest : AtRest c) :
    shown c.globals = shown ((keptBytes cs).foldl decode .init) := by
  rw [Receiver.globals_eq h hrest.idle.2.1]
  exact Mail.takes_fold (Receiver.mail_inv h).genuine (fun _ _ b e => decode_shown e b)
    (fun g b => congrArg shown (Receiver.decode_twice g b)) (by decide)

theorem refines_session (h : system.Run es s) (hline : s.line = []) (hrest : AtRest s.robot.core) :
    ∃ calls, Calls es calls ∧ returned es = transmit initPacket calls ∧
      s.prevPacket = (session start calls).last ∧
      (∃ heard : List (BitVec 8), heard.Sublist (written calls) ∧ heard.getLast? = (written calls).getLast? ∧
        shown s.robot.core.globals = shown (heard.foldl decode .init) ∧
        s.robot.core.regs = (heard.foldl decode .init).motors) ∧
      (lostBytes (coreEvs es) = [] →
        shown s.robot.core.globals = shown (session start calls).far ∧
        s.robot.core.regs = (session start calls).far.motors) := by
  have hcore := core_run h
  obtain ⟨calls, hret, hprev, hunder⟩ := sender_inv h
  obtain ⟨hcall, hidle, -⟩ := hrest.idle
  have harrived : Mail.puts (Receiver.mails (coreEvs es)) = written calls := by
    have heq := sent_eq h
    rw [hline, List.append_nil] at heq
    rw [Receiver.puts_mails hcore, heq, sent_returned, hret]
    rfl
  have hwait : (Mail.ledger (Receiver.mails (coreEvs es))).waiting.toList = [] := by
    rw [(Receiver.none_waiting hcore hrest.serialFlag hcall).2]
    rfl
  have hg := (Receiver.mail_inv hcore).genuine
  have hsub := Mail.kept_sublist hg
  have hlast := Mail.last_kept hg
  have hkept := Mail.kept_eq_puts hg
  rw [hwait, List.append_nil, harrived] at hsub hlast hkept
  have hshown := kept_shown hcore hrest
  have hregs : s.robot.core.regs = ((keptBytes (coreEvs es)).foldl decode .init).motors := by
    rw [hrest.regs hcore, motors_shown hshown]
  refine ⟨calls, hunder.made, hret, ?_, ⟨keptBytes (coreEvs es), hsub, hlast, hshown, hregs⟩, ?_⟩
  · rw [start, session_eq]
    exact hprev
  · intro hlost
    have hfar : (session start calls).far = (keptBytes (coreEvs es)).foldl decode .init := by
      rw [start, session_eq]
      exact congrArg (List.foldl decode _) (hkept hlost).symm
    rw [hfar]
    exact ⟨hshown, hregs⟩

/-- One call, one byte, and the wheels are where the session of that call puts them. -/
theorem refines_session_ahead :
    let s : St := (system.execFrom system.init (ahead ++ answered)).get rfl
    ∃ calls, s.robot.core.regs = (session start calls).far.motors := by
  intro s
  have h : system.Run (ahead ++ answered) s := (Option.some_get _).symm
  obtain ⟨calls, -, -, -, -, hexact⟩ := refines_session h rfl ⟨rfl, rfl, rfl, rfl⟩
  exact ⟨calls, (hexact (by decide +kernel)).2⟩

end Refinement

end RobotCar.Link.System
