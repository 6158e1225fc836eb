/-
  RobotCar.Link.Session — a whole session: samples fed one per call to `controlFunction`,
  every byte it writes decoded by the robot before the next call. Each call comes with the
  value the unassigned field D of an audio packet happens to hold.

  The session is an instance of `Lib.Repeats` (`call_eq_say`): the message is the packet,
  acting on it is decoding its byte.

  - `stop_wins`: after a connected sample with Square released and R1 pressed or the
    sticks centred, the robot brakes, whatever came before; a sample with Square pressed
    is an audio command and leaves the movement globals as they were.
  - `square_outranks_stop`: so with Square pressed too, R1 does not stop a moving robot.
  - `suppression_invisible`: the robot cannot tell that repeated packets are not sent.
-/

import RobotCar.Lib.Repeats
import RobotCar.Link.Drive

namespace RobotCar.Link

open RobotCar.Lib RobotCar.Sender RobotCar.Receiver

/-- `prevPacket` at the sender, the globals at the robot. -/
abbrev Session := Repeats.Link Sender.TPacket Globals

/-- One call of `controlFunction`, and the robot's decoding of what it writes. -/
def call (l : Session) (s : Sample) (D : BitVec 1) : Session :=
  match controlFunction l.last s D with
  | (prevPacket, some data) => ⟨prevPacket, decode l.far data⟩
  | (prevPacket, none) => ⟨prevPacket, l.far⟩

def act (g : Globals) (p : Sender.TPacket) : Globals := decode g (sendPacket p)

/-- The packet a connected call makes. -/
def packet (s : Sample) (D : BitVec 1) : Option Sender.TPacket :=
  if s.isConnected then some (if s.Square then makeAudioPacket D else makeMovementPacket s) else none

theorem call_eq_say (l : Session) (s : Sample) (D : BitVec 1) : call l s D = Repeats.say act l (packet s D) := by
  unfold call controlFunction packet
  by_cases hc : s.isConnected = true
  · simp only [hc, if_true, Repeats.say]
    generalize (if s.Square = true then makeAudioPacket D else makeMovementPacket s) = p
    by_cases he : p = l.last
    · rw [if_pos he, checkPacket_iff.mpr he]
      rfl
    · have hk : checkPacket l.last p = false := by
        cases h : checkPacket l.last p
        · rfl
        · exact absurd (checkPacket_iff.mp h) he
      rw [if_neg he, hk]
      rfl
  · simp only [hc]
    rfl

/-! ## What the robot makes of each packet -/

theorem act_audio (g : Globals) (D : BitVec 1) : act g (makeAudioPacket D) = { g with isComplete := true } := by
  have hOP : (fields (sendPacket (makeAudioPacket D))).OP = 0b10 := by
    rw [fields_sendPacket]
    rfl
  rw [act, decode_audio hOP, fields_sendPacket]
  rfl

theorem act_stop (g : Globals) : act g initPacket =
    { isComplete := g.isComplete, isMoving := false, state := brake, speed := 100, turnFactor := 0 } := by
  have hOP : (fields (sendPacket initPacket)).OP = 0b00 := by decide
  rw [act, decode_movement hOP]
  rfl

theorem act_movement_isComplete (g : Globals) (s : Sample) : (act g (makeMovementPacket s)).isComplete = g.isComplete := by
  have hOP : (fields (sendPacket (makeMovementPacket s))).OP = 0b00 := by
    rw [fields_sendPacket]
    exact makeMovementPacket_OP s
  rw [act, decode_movement hOP]

theorem act_twice (g : Globals) (p : Sender.TPacket) : act (act g p) p = act g p := decode_twice _ _

/-! ## Stop commands -/

/-- The globals that drive the robot. -/
def movement (g : Globals) : Int × Int × BitVec 8 × Bool := (g.state, g.speed, g.turnFactor, g.isMoving)

def Braking (g : Globals) : Prop :=
  g.state = brake ∧ g.isMoving = false ∧ ∀ r, motorControl g.state g.speed g.turnFactor r = .zero

theorem braking_of_state {g : Globals} (hs : g.state = brake) (hm : g.isMoving = false) : Braking g := by
  refine ⟨hs, hm, ?_⟩
  intro r
  rw [motorControl_eq, hs, wheels_brake]
  rfl

/-- While the sender remembers the stop packet the robot is stopped. -/
def StopHeld (l : Session) : Prop := l.last = initPacket → l.far.state = brake ∧ l.far.isMoving = false

theorem call_stopHeld {l : Session} (h : StopHeld l) (s : Sample) (D : BitVec 1) : StopHeld (call l s D) := by
  rw [call_eq_say]
  cases packet s D with
  | none => exact h
  | some p =>
    simp only [Repeats.say]
    split
    · exact h
    · intro hp
      change p = initPacket at hp
      simp only [hp, act_stop, and_self]

def start : Session := ⟨initPacket, .init⟩

def session (l : Session) (history : List (Sample × BitVec 1)) : Session := history.foldl (fun l i => call l i.1 i.2) l

theorem session_stopHeld {l : Session} (h : StopHeld l) (history : List (Sample × BitVec 1)) :
    StopHeld (session l history) := by
  unfold session
  induction history generalizing l with
  | nil => exact h
  | cons i history ih => exact ih (call_stopHeld h i.1 i.2)

theorem stop_wins (history : List (Sample × BitVec 1)) (s : Sample) (D : BitVec 1) :
    (s.isConnected = true → s.Square = false → (s.R1 = true ∨ centred s) →
      Braking (call (session start history) s D).far) ∧
    (s.Square = true → movement (call (session start history) s D).far = movement (session start history).far) := by
  have hheld : StopHeld (session start history) := session_stopHeld (fun _ => ⟨rfl, rfl⟩) history
  constructor
  · intro hc hsq hstop
    rw [call_eq_say, packet, if_pos hc, if_neg (by simp [hsq]), makeMovementPacket_stop hstop]
    simp only [Repeats.say]
    split
    · rename_i he
      obtain ⟨hs, hm⟩ := hheld he.symm
      exact braking_of_state hs hm
    · rw [act_stop]
      exact braking_of_state rfl rfl
  · intro hsq
    rw [call_eq_say, packet, if_pos hsq]
    split
    · simp only [Repeats.say]
      split
      · rfl
      · rw [act_audio]
        rfl
    · rfl

/-- Full speed ahead and an audio command, then R1: the robot brakes. -/
theorem stop_wins_after_square :
    Braking (call (session start [(⟨true, 127, 0, 0, 0, false, false⟩, 0), (⟨true, 127, 0, 0, 0, false, true⟩, 1)])
      ⟨true, 127, 0, 0, 0, true, false⟩ 0).far :=
  (stop_wins [(⟨true, 127, 0, 0, 0, false, false⟩, 0), (⟨true, 127, 0, 0, 0, false, true⟩, 1)]
    ⟨true, 127, 0, 0, 0, true, false⟩ 0).1 rfl rfl (Or.inl rfl)

/-- Full speed ahead, then R1 and Square together: the robot still drives forward. -/
theorem square_outranks_stop : ¬ ∀ (history : List (Sample × BitVec 1)) (s : Sample) (D : BitVec 1),
    s.isConnected = true → (s.R1 = true ∨ centred s) → Braking (call (session start history) s D).far := by
  intro h
  obtain ⟨hs, -, -⟩ := h [(⟨true, 127, 0, 0, 0, false, false⟩, 0)] ⟨true, 127, 0, 0, 0, true, true⟩ 0 rfl (Or.inl rfl)
  revert hs
  decide

/-! ## Repeated packets -/

/-- A sender without the `checkPacket` test. -/
def sendAlways (g : Globals) (s : Sample) (D : BitVec 1) : Globals := Repeats.sayEach act g (packet s D)

/-- What D holds in an audio packet makes no difference to the robot. -/
theorem sendAlways_D (g : Globals) (s : Sample) (D D' : BitVec 1) : sendAlways g s D = sendAlways g s D' := by
  unfold sendAlways packet
  cases s.isConnected
  · rfl
  · cases s.Square
    · rfl
    · simp only [if_true, Repeats.sayEach, act_audio]

theorem sendAlways_isComplete (g : Globals) (s : Sample) (D : BitVec 1) : (sendAlways g s D).isComplete = true ↔
    g.isComplete = true ∨ (s.isConnected = true ∧ s.Square = true) := by
  unfold sendAlways packet
  cases s.isConnected
  · simp [Repeats.sayEach]
  · cases s.Square
    · simp [Repeats.sayEach, act_movement_isComplete]
    · simp [Repeats.sayEach, act_audio]

theorem sendAlways_run_isComplete (ins : List (Sample × BitVec 1)) (g : Globals) :
    (ins.foldl (fun g i => sendAlways g i.1 i.2) g).isComplete = true ↔
      g.isComplete = true ∨ ∃ i ∈ ins, i.1.isConnected = true ∧ i.1.Square = true := by
  induction ins generalizing g with
  | nil => simp
  | cons i ins ih =>
    simp only [List.foldl_cons, List.mem_cons, exists_eq_or_imp]
    rw [ih, sendAlways_isComplete, or_assoc]

theorem suppression_invisible (ins : List (Sample × BitVec 1 × BitVec 1)) :
    let robot := (ins.foldl (fun l i => call l i.1 i.2.1) ⟨initPacket, decode .init 0⟩).far
    robot = ins.foldl (fun g i => sendAlways g i.1 i.2.2) (decode .init 0) ∧
      (robot.isComplete = true ↔ ∃ i ∈ ins, i.1.isConnected = true ∧ i.1.Square = true) := by
  intro robot
  have hrobot : robot = ins.foldl (fun g i => sendAlways g i.1 i.2.2) (decode .init 0) := by
    have hsettled : Repeats.Settled act ⟨initPacket, decode .init 0⟩ := decode_twice .init 0
    have hsay := Repeats.say_eq_sayEach act_twice hsettled (ins.map fun i => packet i.1 i.2.1)
    rw [List.foldl_map, List.foldl_map] at hsay
    simp only [← call_eq_say] at hsay
    refine hsay.trans ?_
    congr 1
    funext g i
    exact sendAlways_D g i.1 i.2.1 i.2.2
  refine ⟨hrobot, ?_⟩
  have hrun := sendAlways_run_isComplete (ins.map fun i => (i.1, i.2.2)) (decode .init 0)
  rw [List.foldl_map] at hrun
  rw [hrobot, hrun, show (decode .init 0).isComplete = false by decide]
  simp only [Bool.false_eq_true, false_or, List.mem_map]
  constructor
  · intro h
    obtain ⟨_, ⟨i, hi, rfl⟩, h⟩ := h
    exact ⟨i, hi, h⟩
  · intro h
    obtain ⟨i, hi, h⟩ := h
    exact ⟨_, ⟨i, hi, rfl⟩, h⟩

end RobotCar.Link
