/-
  RobotCar.Receiver.Threads — the UART interrupt, `serialThread` and `motorThread` on one
  processor (main.c, receiveUART.h), as a machine in which any of them may move next.

  One event is one step: the interrupt handler from entry to exit (no thread runs inside
  it), one assignment of `decode`, one register write of `motorControl`, one semaphore
  call, one read of an argument of `motorControl`, in whichever order the compiler
  chose. `osDelay` may end at any time. `Init_RTOX` is one step too: an interrupt between
  two of its creations finds `serialFlag` null or full, as it does before or after. The
  threads are created after it, so they wait for the semaphores to exist; an interrupt
  before that releases a null handle.

  - `step_cases`: everything a step can do, with its guards, in one place.
  - `booted`: the semaphores exist as soon as a thread has moved.
-/

import RobotCar.Lib.Machine
import RobotCar.Lib.Semaphore
import RobotCar.Receiver.MotorControl

namespace RobotCar.Receiver

open RobotCar.Lib

/-! ## Semaphore handles -/

/-- `osSemaphoreId_t` of a binary semaphore; null until it is created. -/
abbrev Handle := Option (Semaphore 1)

def osSemaphoreRelease (f : Handle) : Handle := f.map Semaphore.release

/-- With `osWaitForever`: not enabled until there is a token. -/
def osSemaphoreAcquire (f : Handle) : Option Handle := f.bind fun s => s.acquire.map some

@[simp] theorem osSemaphoreRelease_some (s : Semaphore 1) : osSemaphoreRelease (some s) = some .full := by
  simp [osSemaphoreRelease]

theorem osSemaphoreRelease_ne_empty (f : Handle) : osSemaphoreRelease f ≠ some .empty := by
  cases f with
  | none => simp [osSemaphoreRelease]
  | some s => simp [Semaphore.full, Semaphore.empty]

theorem osSemaphoreRelease_eq_none {f : Handle} : osSemaphoreRelease f = none ↔ f = none := Option.map_eq_none_iff

theorem osSemaphoreAcquire_eq {f g : Handle} : osSemaphoreAcquire f = some g ↔ f = some .full ∧ g = some .empty := by
  cases f with
  | none => simp [osSemaphoreAcquire]
  | some s =>
    simp only [osSemaphoreAcquire, Option.bind_some, Option.map_eq_some_iff, Semaphore.acquire_binary, Option.some.injEq]
    constructor
    · intro h
      obtain ⟨t, ⟨hs, rfl⟩, rfl⟩ := h
      exact ⟨hs, rfl⟩
    · intro h
      obtain ⟨hs, rfl⟩ := h
      exact ⟨.empty, ⟨hs, rfl⟩, rfl⟩

/-! ## State and events -/

inductive SerialPc where
  | acquire
  /-- About to read `received_byte` and call `decode`. -/
  | call
  | decode (raw_data : BitVec 8) (rest : List Store)
  | delay
  deriving DecidableEq, Repr

inductive MotorPc where
  | acquire
  /-- The arguments of `motorControl` read so far. -/
  | args (state speed : Option Int) (turnFactor : Option (BitVec 8))
  | control (rest : List (Reg × Nat))
  | delay
  deriving DecidableEq, Repr

structure St where
  received : Int
  received_byte : BitVec 8
  globals : Globals
  regs : Regs
  serialFlag : Handle
  motorFlag : Handle
  serial : SerialPc
  motor : MotorPc
  deriving DecidableEq

def init : St := ⟨0, 0, .init, .zero, none, none, .acquire, .acquire⟩

inductive Arg where
  | state
  | speed
  | turnFactor
  deriving DecidableEq, Repr

inductive Ev where
  /-- The UART interrupt, with the data register's byte when one was received. -/
  | irq (D : Option (BitVec 8))
  | Init_RTOX
  | serialThread
  | motorThread
  | arg (a : Arg)
  deriving DecidableEq, Repr

/-! ## Steps -/

def UART2_IRQHandler (s : St) : Option (BitVec 8) → St
  | some D => { s with received := 1, received_byte := D, serialFlag := osSemaphoreRelease s.serialFlag }
  | none => s

def Init_RTOX (s : St) : Option St :=
  match s.serialFlag, s.motorFlag with
  | none, none => some { s with serialFlag := some .full, motorFlag := some .empty }
  | _, _ => none

def serialThread (s : St) : Option St :=
  match s.serial with
  | .acquire => (osSemaphoreAcquire s.serialFlag).map fun f => { s with serialFlag := f, serial := .call }
  | .call => some { s with serial := .decode s.received_byte (decodeStores s.received_byte) }
  | .decode raw_data (w :: rest) => some { s with globals := s.globals.put w, serial := .decode raw_data rest }
  | .decode _ [] => some { s with motorFlag := osSemaphoreRelease s.motorFlag, serial := .delay }
  | .delay => some { s with serial := .acquire }

def motorThread (s : St) : Option St :=
  match s.motor with
  | .acquire => (osSemaphoreAcquire s.motorFlag).map fun f => { s with motorFlag := f, motor := .args none none none }
  | .args (some state) (some speed) (some turnFactor) =>
    some { s with motor := .control (motorStores state speed turnFactor) }
  | .args _ _ _ => none
  | .control (w :: rest) => some { s with regs := s.regs.put w, motor := .control rest }
  | .control [] => some { s with motor := .delay }
  | .delay => some { s with motor := .acquire }

/-- `motorThread` reads one argument it has not read yet. -/
def readArg (s : St) (a : Arg) : Option St :=
  match a, s.motor with
  | .state, .args none speed turnFactor => some { s with motor := .args (some s.globals.state) speed turnFactor }
  | .speed, .args state none turnFactor => some { s with motor := .args state (some s.globals.speed) turnFactor }
  | .turnFactor, .args state speed none => some { s with motor := .args state speed (some s.globals.turnFactor) }
  | _, _ => none

def step (s : St) : Ev → Option St
  | .irq D => some (UART2_IRQHandler s D)
  | .Init_RTOX => Init_RTOX s
  | .serialThread => serialThread s
  | .motorThread => motorThread s
  | .arg a => readArg s a

def robot : Machine St Ev := ⟨init, step⟩

/-! ## What a step can do -/

inductive Step (s : St) : Ev → St → Prop
  | byte (D : BitVec 8) : Step s (.irq (some D))
      { s with received := 1, received_byte := D, serialFlag := osSemaphoreRelease s.serialFlag }
  | noByte : Step s (.irq none) s
  | boot : s.serialFlag = none → s.motorFlag = none →
      Step s .Init_RTOX { s with serialFlag := some .full, motorFlag := some .empty }
  | serialAcquire : s.serial = .acquire → s.serialFlag = some .full →
      Step s .serialThread { s with serialFlag := some .empty, serial := .call }
  | serialCall : s.serial = .call →
      Step s .serialThread { s with serial := .decode s.received_byte (decodeStores s.received_byte) }
  | store (b : BitVec 8) (w : Store) (ws : List Store) : s.serial = .decode b (w :: ws) →
      Step s .serialThread { s with globals := s.globals.put w, serial := .decode b ws }
  | notify (b : BitVec 8) : s.serial = .decode b [] →
      Step s .serialThread { s with motorFlag := osSemaphoreRelease s.motorFlag, serial := .delay }
  | serialWake : s.serial = .delay → Step s .serialThread { s with serial := .acquire }
  | motorAcquire : s.motor = .acquire → s.motorFlag = some .full →
      Step s .motorThread { s with motorFlag := some .empty, motor := .args none none none }
  | motorCall (x y : Int) (z : BitVec 8) : s.motor = .args (some x) (some y) (some z) →
      Step s .motorThread { s with motor := .control (motorStores x y z) }
  | write (w : Reg × Nat) (ws : List (Reg × Nat)) : s.motor = .control (w :: ws) →
      Step s .motorThread { s with regs := s.regs.put w, motor := .control ws }
  | motorReturn : s.motor = .control [] → Step s .motorThread { s with motor := .delay }
  | motorWake : s.motor = .delay → Step s .motorThread { s with motor := .acquire }
  | readState (y : Option Int) (z : Option (BitVec 8)) : s.motor = .args none y z →
      Step s (.arg .state) { s with motor := .args (some s.globals.state) y z }
  | readSpeed (x : Option Int) (z : Option (BitVec 8)) : s.motor = .args x none z →
      Step s (.arg .speed) { s with motor := .args x (some s.globals.speed) z }
  | readTurnFactor (x y : Option Int) : s.motor = .args x y none →
      Step s (.arg .turnFactor) { s with motor := .args x y (some s.globals.turnFactor) }

theorem serialThread_cases {s t : St} (h : serialThread s = some t) : Step s .serialThread t := by
  unfold serialThread at h
  split at h
  · rename_i hpc
    obtain ⟨f, hf, rfl⟩ := Option.map_eq_some_iff.mp h
    obtain ⟨hfull, rfl⟩ := osSemaphoreAcquire_eq.mp hf
    exact .serialAcquire hpc hfull
  · rename_i hpc
    cases h
    exact .serialCall hpc
  · rename_i b w ws hpc
    cases h
    exact .store b w ws hpc
  · rename_i b hpc
    cases h
    exact .notify b hpc
  · rename_i hpc
    cases h
    exact .serialWake hpc

theorem motorThread_cases {s t : St} (h : motorThread s = some t) : Step s .motorThread t := by
  unfold motorThread at h
  split at h
  · rename_i hpc
    obtain ⟨f, hf, rfl⟩ := Option.map_eq_some_iff.mp h
    obtain ⟨hfull, rfl⟩ := osSemaphoreAcquire_eq.mp hf
    exact .motorAcquire hpc hfull
  · rename_i x y z hpc
    cases h
    exact .motorCall x y z hpc
  · cases h
  · rename_i w ws hpc
    cases h
    exact .write w ws hpc
  · rename_i hpc
    cases h
    exact .motorReturn hpc
  · rename_i hpc
    cases h
    exact .motorWake hpc

theorem readArg_cases {s t : St} {a : Arg} (h : readArg s a = some t) : Step s (.arg a) t := by
  unfold readArg at h
  split at h
  · rename_i y z hpc
    cases h
    exact .readState y z hpc
  · rename_i x z hpc
    cases h
    exact .readSpeed x z hpc
  · rename_i x y hpc
    cases h
    exact .readTurnFactor x y hpc
  · cases h

theorem step_cases {s t : St} {e : Ev} (h : step s e = some t) : Step s e t := by
  cases e with
  | irq D =>
    cases h
    cases D with
    | none => exact .noByte
    | some D => exact .byte D
  | Init_RTOX =>
    simp only [step, Init_RTOX] at h
    split at h
    · rename_i hs hm
      cases h
      exact .boot hs hm
    · cases h
  | serialThread => exact serialThread_cases h
  | motorThread => exact motorThread_cases h
  | arg a => exact readArg_cases h

/-! ## The semaphores exist -/

structure Booted (s : St) : Prop where
  together : s.serialFlag = none ↔ s.motorFlag = none
  serial : s.serialFlag = none → s.serial = .acquire
  motor : s.motorFlag = none → s.motor = .acquire

theorem init_booted : Booted init := ⟨by decide, fun _ => rfl, fun _ => rfl⟩

theorem step_booted {s t : St} {e : Ev} (h : Step s e t) (hb : Booted s) : Booted t := by
  obtain ⟨ht, hs, hm⟩ := hb
  cases h with
  | byte D =>
    refine ⟨?_, fun hn => hs (osSemaphoreRelease_eq_none.mp hn), hm⟩
    rw [osSemaphoreRelease_eq_none]
    exact ht
  | noByte => exact ⟨ht, hs, hm⟩
  | boot _ _ => exact ⟨by simp, nofun, nofun⟩
  | serialAcquire _ hf => exact ⟨by simp [← ht, hf], nofun, hm⟩
  | serialCall hpc => exact ⟨ht, fun hn => by simp [hs hn] at hpc, hm⟩
  | store b w ws hpc => exact ⟨ht, fun hn => by simp [hs hn] at hpc, hm⟩
  | notify b hpc =>
    refine ⟨?_, fun hn => by simp [hs hn] at hpc, fun hn => hm (osSemaphoreRelease_eq_none.mp hn)⟩
    rw [osSemaphoreRelease_eq_none]
    exact ht
  | serialWake hpc => exact ⟨ht, fun _ => rfl, hm⟩
  | motorAcquire _ hf => exact ⟨by simp [ht, hf], hs, nofun⟩
  | motorCall x y z hpc => exact ⟨ht, hs, fun hn => by simp [hm hn] at hpc⟩
  | write w ws hpc => exact ⟨ht, hs, fun hn => by simp [hm hn] at hpc⟩
  | motorReturn hpc => exact ⟨ht, hs, fun hn => by simp [hm hn] at hpc⟩
  | motorWake _ => exact ⟨ht, hs, fun _ => rfl⟩
  | readState y z hpc => exact ⟨ht, hs, fun hn => by simp [hm hn] at hpc⟩
  | readSpeed x z hpc => exact ⟨ht, hs, fun hn => by simp [hm hn] at hpc⟩
  | readTurnFactor x y hpc => exact ⟨ht, hs, fun hn => by simp [hm hn] at hpc⟩

theorem booted {s : St} (h : robot.Reach s) : Booted s :=
  Machine.invariant init_booted (fun _ _ _ hb he => step_booted (step_cases he) hb) h

/-- Once `serialThread` has moved its release of `motorFlag` leaves a token. -/
theorem Booted.notify_full {s : St} (h : Booted s) {b : BitVec 8} {ws : List Store} (hpc : s.serial = .decode b ws) :
    osSemaphoreRelease s.motorFlag = some .full := by
  cases hf : s.motorFlag with
  | none =>
    have := h.serial (h.together.mpr hf)
    simp [this] at hpc
  | some f => simp

end RobotCar.Receiver
