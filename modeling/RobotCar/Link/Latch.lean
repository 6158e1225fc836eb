/-
  RobotCar.Link.Latch — `isComplete` in the whole system (`Link.System`). The robot would
  clear it at an audio packet with field B set, but the sketch makes none: once Square has
  been seen it is set for good.

  - `complete_asked`: it is set only if a report the sketch was handed says Square is pressed.
  - `tune_for_good`: set, it stays set, and after the turn in hand the buzzer plays
    `stopAudioThread`'s tune only.
-/

import RobotCar.Link.System

namespace RobotCar.Link.System

open RobotCar.Lib
open Sender (Sample TPacket sendPacket makeMovementPacket makeAudioPacket transmit)
open Receiver (robot arrivals Store decodeStores fields)

/-! ## The stores a run makes -/

section Stores

variable {P : Store → Prop} {c d : Receiver.St} {e : Receiver.Ev} {cs : List Receiver.Ev}

/-- Every store in hand, or to come from the byte received, is one of `P`. -/
structure Only (P : Store → Prop) (c : Receiver.St) : Prop where
  byte : ∀ w ∈ decodeStores c.received_byte, P w
  rest : ∀ b ws, c.serial = .decode b ws → ∀ w ∈ ws, P w

theorem only_step (hi : Only P c) (h : Receiver.Step c e d) (hb : ∀ D, e = .irq (some D) → ∀ w ∈ decodeStores D, P w) :
    Only P d := by
  obtain ⟨hbyte, hrest⟩ := hi
  cases h with
  | byte D => exact ⟨hb D rfl, hrest⟩
  | serialCall hpc =>
    refine ⟨hbyte, ?_⟩
    intro b ws hd
    cases hd
    exact hbyte
  | store b w ws hpc =>
    refine ⟨hbyte, ?_⟩
    intro b' ws' hd v hv
    cases hd
    exact hrest b _ hpc v (.tail _ hv)
  | serialAcquire _ _ => exact ⟨hbyte, nofun⟩
  | notify b _ => exact ⟨hbyte, nofun⟩
  | serialWake _ => exact ⟨hbyte, nofun⟩
  | _ => exact ⟨hbyte, hrest⟩

/-- A step that changes the globals makes one such store. -/
theorem Only.globals (hi : Only P c) (h : Receiver.Step c e d) :
    d.globals = c.globals ∨ ∃ w, P w ∧ d.globals = c.globals.put w := by
  cases h with
  | store b w ws hpc => exact .inr ⟨w, hi.rest b _ hpc w (.head _), rfl⟩
  | _ => exact .inl rfl

theorem only_run (h : robot.Run cs c) (h0 : ∀ w ∈ decodeStores 0, P w)
    (hall : ∀ D ∈ arrivals cs, ∀ w ∈ decodeStores D, P w) : Only P c := by
  refine Machine.run_induction
    (P := fun cs c => (∀ D ∈ arrivals cs, ∀ w ∈ decodeStores D, P w) → Only P c) ?_ ?_ h hall
  · refine fun _ => ⟨h0, ?_⟩
    intro b ws hd
    cases hd
  · intro cs c e d _ ih he hall
    have hsplit : arrivals (cs ++ [e]) = arrivals cs ++ arrivals [e] := List.filterMap_append
    rw [hsplit] at hall
    refine only_step (ih fun D hD => hall D (List.mem_append_left _ hD)) (Receiver.step_cases he) ?_
    intro D hD
    subst hD
    exact hall D (List.mem_append_right _ (.head _))

/-- What such stores keep of the globals holds throughout. -/
theorem only_globals {I : Receiver.Globals → Prop} (h : robot.Run cs c) (h0 : ∀ w ∈ decodeStores 0, P w)
    (hall : ∀ D ∈ arrivals cs, ∀ w ∈ decodeStores D, P w) (hinit : I .init) (hput : ∀ g w, P w → I g → I (g.put w)) :
    I c.globals := by
  refine Machine.run_induction
    (P := fun cs c => (∀ D ∈ arrivals cs, ∀ w ∈ decodeStores D, P w) → I c.globals) (fun _ => hinit) ?_ h hall
  intro cs c e d hrun ih he hall
  have hsplit : arrivals (cs ++ [e]) = arrivals cs ++ arrivals [e] := List.filterMap_append
  rw [hsplit] at hall
  have hbefore : ∀ D ∈ arrivals cs, ∀ w ∈ decodeStores D, P w := fun D hD => hall D (List.mem_append_left _ hD)
  rcases (only_run hrun h0 hbefore).globals (Receiver.step_cases he) with hg | ⟨w, hw, hg⟩
  · rw [hg]
    exact ih hbefore
  · rw [hg]
    exact hput _ w hw (ih hbefore)

end Stores

/-! ## What the sketch's bytes store -/

theorem movement_stores (x : Sample) (v : Bool) : .isComplete v ∉ decodeStores (sendPacket (makeMovementPacket x)) := by
  have hstores : ∀ b : BitVec 8, (fields b).OP = 0 → ∀ v, .isComplete v ∉ decodeStores b := by decide +kernel
  refine hstores _ ?_ v
  rw [fields_sendPacket]
  exact Sender.makeMovementPacket_OP x

theorem audio_stores (D : BitVec 1) : decodeStores (sendPacket (makeAudioPacket D)) = [.isComplete true] := by
  revert D
  decide

/-- What is written is some call's packet. -/
theorem transmit_packet {q : TPacket} {calls : List (Sample × BitVec 1)} {D : BitVec 8}
    (h : some D ∈ transmit q calls) : ∃ c ∈ calls, ∃ p, packet c.1 c.2 = some p ∧ D = sendPacket p := by
  induction calls generalizing q with
  | nil => cases h
  | cons c calls ih =>
    rcases List.mem_cons.mp h with h | h
    · refine ⟨c, .head _, ?_⟩
      rw [controlFunction_eq] at h
      cases hp : packet c.1 c.2 with
      | none => simp [hp] at h
      | some p =>
        refine ⟨p, rfl, ?_⟩
        simp only [hp, Option.getD_some] at h
        split at h <;> cases h
        rfl
    · obtain ⟨d, hd, hp⟩ := ih h
      exact ⟨d, .tail _ hd, hp⟩

section Latch

variable {es fs : List Ev} {s t : St} {e : Ev}

/-- What is sent is the packet of a sample the library had shown. -/
theorem sent_packet (h : system.Run es s) {D : BitVec 8} (hD : D ∈ sent es) :
    ∃ x d p seen, Sender.Settled seen x ∧ (∀ y ∈ seen, Looked [] es y) ∧ packet x d = some p ∧ D = sendPacket p := by
  obtain ⟨calls, hret, -, hunder⟩ := sender_inv h
  rw [sent_returned, hret, List.mem_filterMap] at hD
  obtain ⟨_, hmem, rfl⟩ := hD
  obtain ⟨c, hc, p, hp, rfl⟩ := transmit_packet hmem
  obtain ⟨seen, hseen, hlooked⟩ := hunder.made.looked c hc
  exact ⟨c.1, c.2, p, seen, hseen, hlooked, hp, rfl⟩

theorem arrived_sent (h : system.Run es s) {D : BitVec 8} (hD : D ∈ arrivals (coreEvs es)) : D ∈ sent es := by
  rw [← sent_eq h]
  exact List.mem_append_left _ hD

/-! ## Set only when asked -/

theorem reports_prefix (hs : system.Run es s) (h : system.execFrom s fs = some t) : reports es ⊆ reports (es ++ fs) := by
  refine Machine.exec_induction (P := fun fs _ => reports es ⊆ reports (es ++ fs)) ?_ ?_ h
  · rw [List.append_nil]
    exact List.Subset.refl _
  · intro fs u e v hu ih he
    have hnext := reports_mono (hs.append hu) he
    rw [List.append_assoc] at hnext
    exact List.Subset.trans ih hnext

/-- The library showed Square pressed only once a report handed on said so. -/
theorem looked_square (h : system.Run es s) {x : Sample} (hx : Looked [] es x) (hsq : x.Square = true) :
    ∃ p ∈ reports es, squareOf (some p) = true := by
  obtain ⟨ds, u, ⟨fs, rfl⟩, hu, rfl⟩ := hx
  obtain ⟨v, hv, hfs⟩ := Machine.execFrom_append.mp h
  cases hu.symm.trans hv
  rw [(sample_report hv).2] at hsq
  cases hlast : lastReport ds with
  | none =>
    rw [hlast] at hsq
    cases hsq
  | some p =>
    rw [hlast] at hsq
    exact ⟨p, reports_prefix hv hfs (List.mem_of_getLast? hlast), hsq⟩

theorem complete_asked (h : system.Run es s) (hon : s.robot.core.globals.isComplete = true) :
    ∃ p ∈ reports es, squareOf (some p) = true := by
  by_contra hno
  have hsent : ∀ D ∈ arrivals (coreEvs es), ∀ w ∈ decodeStores D, w ≠ .isComplete true := by
    intro D hD w hw hset
    obtain ⟨x, d, p, seen, hseen, hlooked, hp, rfl⟩ := sent_packet h (arrived_sent h hD)
    obtain ⟨y, hy, hsq⟩ := hseen.Square
    have hup : x.Square = false := by
      rw [hsq, Bool.eq_false_iff]
      exact fun hy' => hno (looked_square h (hlooked y hy) hy')
    subst hset
    unfold packet at hp
    split at hp
    · rw [hup] at hp
      cases hp
      exact movement_stores x true hw
    · cases hp
  have hoff : s.robot.core.globals.isComplete = false := by
    refine only_globals (I := fun g => g.isComplete = false) (core_run h) (by decide) hsent rfl ?_
    intro g w hw hg
    cases w with
    | isComplete v =>
      cases v with
      | true => exact absurd rfl hw
      | false => rfl
    | _ => exact hg
  rw [hoff] at hon
  cases hon

/-- Square is reported twice, and the robot decodes the byte of the call after. -/
def square : List Ev :=
  List.flatten [[.pad (.data_ind 0x41 ⟨79, ⟨7, fun i => if i = 17 then 0x18 else 0x80⟩⟩),
    .pad (.data_ind 0x41 ⟨79, ⟨8, fun i => if i = 17 then 0x18 else 0x80⟩⟩)],
    List.replicate 4 (.loop 0), [.deliver, .robot (.core .Init_RTOX)], List.replicate 3 (.robot (.core .serialThread))]

theorem complete_asked_square : ∃ p ∈ reports square, squareOf (some p) = true :=
  complete_asked (s := (system.execFrom system.init square).get (by decide +kernel)) (Option.some_get _).symm (by decide +kernel)

/-! ## Never cleared -/

/-- No byte of the sketch clears `isComplete`. -/
theorem never_clears (h : system.Run es s) : Only (· ≠ .isComplete false) s.robot.core := by
  refine only_run (core_run h) (by decide) ?_
  intro D hD w hw hclear
  obtain ⟨x, d, p, -, -, -, hp, rfl⟩ := sent_packet h (arrived_sent h hD)
  subst hclear
  unfold packet at hp
  split at hp
  · cases hp
    split at hw
    · rw [audio_stores] at hw
      cases List.mem_singleton.mp hw
    · exact movement_stores x false hw
  · cases hp

theorem put_complete {g : Receiver.Globals} {w : Store} (hw : w ≠ .isComplete false) (hon : g.isComplete = true) :
    (g.put w).isComplete = true := by
  cases w with
  | isComplete v =>
    cases v with
    | true => rfl
    | false => exact absurd rfl hw
  | _ => exact hon

theorem latched_step (hs : system.Run es s) (he : system.step s e = some t)
    (hon : s.robot.core.globals.isComplete = true) : t.robot.core.globals.isComplete = true := by
  have hcore {e : Receiver.Ev} {c : Receiver.St} (hc : Receiver.Step s.robot.core e c) : c.globals.isComplete = true := by
    rcases (never_clears hs).globals hc with hg | ⟨w, hw, hg⟩
    · rw [hg]
      exact hon
    · rw [hg]
      exact put_complete hw hon
  cases step_cases he with
  | deliver D line r _ hr =>
    obtain ⟨c, hc, rfl⟩ := Receiver.Main.core_cases hr
    exact hcore hc
  | robot e r _ hr =>
    cases Receiver.Main.step_cases hr with
    | core e c hc => exact hcore (Receiver.step_cases hc)
    | _ => exact hon
  | _ => exact hon

theorem latched (hs : system.Run es s) (h : system.execFrom s fs = some t)
    (hon : s.robot.core.globals.isComplete = true) : t.robot.core.globals.isComplete = true := by
  refine Machine.exec_induction (P := fun _ t => t.robot.core.globals.isComplete = true) hon ?_ h
  intro gs u e v hu hon he
  exact latched_step (hs.append hu) he hon

/-! ## The tune -/

def audioCrew : Simulation system (HandOver.crew Receiver.Audio.Flag.audioRunningFlag .audioRunningFlag) :=
  toMain.comp Receiver.Main.audioCrew St.robot fun h => h

/-- The audio thread whose section begins. -/
def plays (s : St) : Ev → Option Receiver.Audio.Flag
  | .robot e => Receiver.Main.plays s.robot e
  | _ => none

/-- Whose turns the audio threads take along a schedule. -/
def tuneTurns (s : St) (fs : List Ev) : List Receiver.Audio.Flag := system.log plays s fs

theorem plays_turn (s : St) (e : Ev) : plays s e = (audioCrew.lab s e).bind HandOver.acquirer? := by
  cases e with
  | deliver =>
    show none = ((s.line.head?.map fun D => Receiver.Main.Ev.core (.irq (some D))).bind
      (Receiver.Main.audioCrew.lab s.robot)).bind HandOver.acquirer?
    cases s.line with
    | nil => rfl
    | cons D line => exact Receiver.Main.plays_turn s.robot (.core (.irq (some D)))
  | robot e => exact Receiver.Main.plays_turn s.robot e
  | _ => rfl

theorem tuneTurns_eq : tuneTurns s fs = HandOver.turns (system.log audioCrew.lab s fs) := by
  have hplays : plays = fun s e => (audioCrew.lab s e).bind HandOver.acquirer? := funext fun s => funext (plays_turn s)
  rw [tuneTurns, hplays]
  exact Machine.log_bind

theorem tune_for_good (hs : system.Run es s) (hon : s.robot.core.globals.isComplete = true)
    (h : system.execFrom s fs = some t) :
    (∀ u ∈ system.trail s fs, u.robot.core.globals.isComplete = true) ∧
    ∀ f ∈ (tuneTurns s fs).tail, f = .audioEndFlag := by
  have hall : ∀ u ∈ system.trail s fs, u.robot.core.globals.isComplete = true := by
    intro u hu
    obtain ⟨gs, -, hgs⟩ := Machine.exec_of_mem_trail hu
    exact latched hs hgs hon
  refine ⟨hall, ?_⟩
  rw [tuneTurns_eq]
  refine HandOver.built_turns audioCrew ⟨es, hs⟩ h ?_
  intro u hu d hrel
  obtain ⟨-, ⟨_, hflag⟩, rfl⟩ := hrel
  show Receiver.Audio.team.wants u.robot.audio.flag = _
  rw [hflag, hall u hu]
  rfl

/-- The running tune's first note, and the other tune's first two. -/
theorem tune_for_good_square :
    let s : St := (system.execFrom system.init square).get (by decide +kernel)
    let fs : List Ev := List.flatten [List.replicate 7 (.robot (.audioThread .audioRunningFlag)),
      List.replicate 10 (.robot (.audioThread .audioEndFlag))]
    ∀ f ∈ (tuneTurns s fs).tail, f = .audioEndFlag := by
  intro s fs
  have hruns : (system.execFrom s fs).isSome = true := by decide +kernel
  exact (tune_for_good (Option.some_get _).symm (by decide +kernel) (Option.some_get hruns).symm).2

end Latch

end RobotCar.Link.System
