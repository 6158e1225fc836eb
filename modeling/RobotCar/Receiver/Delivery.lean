/-
  RobotCar.Receiver.Delivery — what becomes of the bytes that arrive. `received_byte` is a
  mailbox with one slot (`Lib.Mailbox`): the interrupt puts a byte, `serialThread` takes
  it when it calls `decode`. `serialFlag` says that there is something to take, not how
  much: a release finds it full as long as the last byte was not taken.

  - `mail_inv`: the globals are the fold of `decode` over the bytes taken, and a byte
    that waits keeps `serialFlag` up or `serialThread` about to read.
  - `decoded_once`: when `serialThread` has caught up, each byte that was taken before
    the next one arrived has been decoded once, in order of arrival, the newest byte
    among them; the decode of the initial zero byte left no trace.
  - `byte_overwritten`: a byte that arrives during `osDelay` and is followed by another
    is never decoded.
-/

import RobotCar.Lib.Mailbox
import RobotCar.Receiver.Threads

namespace RobotCar.Receiver

open RobotCar.Lib
open RobotCar.Lib.Mail (Genuine ledger puts takes slot)

def mail (s : St) : Ev → Option (Mail (BitVec 8))
  | .irq (some D) => some (.put D)
  | .serialThread =>
    match s.serial with
    | .call => some (.take s.received_byte)
    | _ => none
  | _ => none

def mails (es : List Ev) : List (Mail (BitVec 8)) := robot.log mail robot.init es

/-- The bytes received, in order of arrival. -/
def arrivals (es : List Ev) : List (BitVec 8) :=
  es.filterMap fun
    | .irq D => D
    | _ => none

/-- The arguments `decode` was called with. -/
def decodeCalls (es : List Ev) : List (BitVec 8) := takes (mails es)

/-- The bytes taken before the next one arrived. -/
def keptBytes (es : List Ev) : List (BitVec 8) := (ledger (mails es)).kept

/-- The bytes that were overwritten first. -/
def lostBytes (es : List Ev) : List (BitVec 8) := (ledger (mails es)).lost

/-! ## Steps of the mailbox -/

section Silent

variable {s : St}

theorem mail_serial (h : s.serial ≠ .call) : mail s .serialThread = none := by
  simp only [mail]

theorem mail_call (h : s.serial = .call) : mail s .serialThread = some (.take s.received_byte) := by
  simp only [mail, h]

end Silent

theorem puts_mails {s : St} {es : List Ev} (h : robot.Run es s) : puts (mails es) = arrivals es := by
  apply Machine.run_induction (P := fun es _ => puts (mails es) = arrivals es) rfl _ h
  intro es t e u ht ih he
  unfold mails arrivals at ih ⊢
  rw [Machine.log_snoc mail ht he, List.filterMap_append]
  cases step_cases he with
  | byte D =>
    rw [show (mail t (.irq (some D))).toList = [.put D] from rfl, Mail.puts_put, ih]
    rfl
  | serialCall hpc =>
    rw [mail_call hpc, Option.toList_some, Mail.puts_take, ih]
    simp
  | serialAcquire hpc _ => simpa [mail_serial, hpc] using ih
  | store b w ws hpc => simpa [mail_serial, hpc] using ih
  | notify b hpc => simpa [mail_serial, hpc] using ih
  | serialWake hpc => simpa [mail_serial, hpc] using ih
  | _ => simpa [mail] using ih

/-! ## The invariant -/

/-- The stores of the running `decode` still to come. -/
def SerialPc.rest : SerialPc → List Store
  | .decode _ ws => ws
  | _ => []

/-- The globals once the running `decode` is done. -/
def St.decoded (s : St) : Globals := Stores.after Globals.put s.globals s.serial.rest

/-- `serialThread` will read `received_byte` before it waits. -/
def St.due (s : St) : Prop := s.serialFlag ≠ some .empty ∨ s.serial = .call

structure MailInv (ms : List (Mail (BitVec 8))) (s : St) : Prop where
  genuine : Genuine 0 ms
  slot : slot 0 ms = s.received_byte
  decoded : s.decoded = (takes ms).foldl decode .init
  /-- Nothing taken yet, or a byte waiting. -/
  due : takes ms = [] ∨ (ledger ms).waiting ≠ none → s.due

section Inv

variable {ms : List (Mail (BitVec 8))} {s t : St} {e : Ev}

theorem init_mail_inv : MailInv [] robot.init := ⟨.nil, rfl, rfl, fun _ => Or.inl (by decide)⟩

/-- A step that neither puts nor takes. -/
theorem MailInv.silent (hi : MailInv ms s) (hm : mail s e = none) (hb : t.received_byte = s.received_byte)
    (hd : t.decoded = s.decoded) (hw : s.due → t.due) : MailInv (ms ++ (mail s e).toList) t := by
  rw [hm, Option.toList_none, List.append_nil]
  exact ⟨hi.genuine, hi.slot.trans hb.symm, hd.trans hi.decoded, fun h => hw (hi.due h)⟩

theorem MailInv.put (hi : MailInv ms s) (b : BitVec 8) (hb : t.received_byte = b) (hd : t.decoded = s.decoded)
    (hw : t.due) : MailInv (ms ++ [.put b]) t := by
  refine ⟨hi.genuine.put b, ?_, ?_, fun _ => hw⟩
  · rw [Mail.slot_put, hb]
  · rw [Mail.takes_put, hd, hi.decoded]

theorem MailInv.take (hi : MailInv ms s) (hb : t.received_byte = s.received_byte)
    (hd : t.decoded = decode s.decoded s.received_byte) : MailInv (ms ++ [.take s.received_byte]) t := by
  refine ⟨?_, ?_, ?_, ?_⟩
  · rw [← hi.slot]
    exact hi.genuine.take
  · rw [Mail.slot_take, hb, hi.slot]
  · rw [Mail.takes_take, List.foldl_append, hd, hi.decoded]
    rfl
  · intro h
    simp at h

theorem step_mail_inv (hi : MailInv ms s) (h : Step s e t) : MailInv (ms ++ (mail s e).toList) t := by
  cases h with
  | byte D => exact hi.put D rfl rfl (Or.inl (osSemaphoreRelease_ne_empty _))
  | serialCall hpc =>
    rw [mail_call hpc]
    refine hi.take rfl ?_
    simp only [St.decoded, hpc, SerialPc.rest, Stores.after_nil]
    rfl
  | serialAcquire hpc _ =>
    exact hi.silent (mail_serial (by simp [hpc])) rfl (by simp [St.decoded, hpc, SerialPc.rest]) fun _ => Or.inr rfl
  | store b w ws hpc =>
    refine hi.silent (mail_serial (by simp [hpc])) rfl (by simp [St.decoded, hpc, SerialPc.rest]) fun hw => Or.inl ?_
    simpa [St.due, hpc] using hw
  | notify b hpc =>
    refine hi.silent (mail_serial (by simp [hpc])) rfl (by simp [St.decoded, hpc, SerialPc.rest]) fun hw => Or.inl ?_
    simpa [St.due, hpc] using hw
  | serialWake hpc =>
    refine hi.silent (mail_serial (by simp [hpc])) rfl (by simp [St.decoded, hpc, SerialPc.rest]) fun hw => Or.inl ?_
    simpa [St.due, hpc] using hw
  | boot _ _ => exact hi.silent rfl rfl rfl fun _ => Or.inl (by simp [Semaphore.full, Semaphore.empty])
  | _ =>
    -- the interrupt without a byte, and `motorThread`
    exact hi.silent rfl rfl rfl id

end Inv

theorem mail_inv {s : St} {es : List Ev} (h : robot.Run es s) : MailInv (mails es) s := by
  apply Machine.run_induction (P := fun es s => MailInv (mails es) s) init_mail_inv _ h
  intro es t e u ht hi he
  rw [mails, Machine.log_snoc mail ht he]
  exact step_mail_inv hi (step_cases he)

/-! ## What has been decoded -/

/-- Not between its acquire and the end of `decode`. -/
def SerialPc.idle : SerialPc → Bool
  | .call => false
  | .decode _ (_ :: _) => false
  | _ => true

section Caught

variable {s : St} {es : List Ev}

/-- With `serialFlag` down and nobody about to read, nothing waits. -/
theorem none_waiting (h : robot.Run es s) (hf : s.serialFlag = some .empty) (hpc : s.serial ≠ .call) :
    decodeCalls es ≠ [] ∧ (ledger (mails es)).waiting = none := by
  have hdue : ¬ s.due := by
    simp [St.due, hf, hpc]
  constructor
  · intro ht
    exact hdue ((mail_inv h).due (Or.inl ht))
  · by_contra hw
    exact hdue ((mail_inv h).due (Or.inr hw))

/-- Then the last byte decoded is the one `received_byte` holds. -/
theorem last_decodeCall (h : robot.Run es s) (hf : s.serialFlag = some .empty) (hpc : s.serial ≠ .call) :
    (decodeCalls es).getLast? = some s.received_byte := by
  obtain ⟨ht, hw⟩ := none_waiting h hf hpc
  have hi := mail_inv h
  rw [← hi.slot]
  exact Mail.last_take hi.genuine hw ht

theorem globals_eq (h : robot.Run es s) (hpc : s.serial.idle = true) :
    s.globals = (decodeCalls es).foldl decode .init := by
  have hd := (mail_inv h).decoded
  unfold St.decoded at hd
  have hrest : s.serial.rest = [] := by
    cases hs : s.serial with
    | decode b ws =>
      cases ws with
      | nil => rfl
      | cons w ws => simp [hs, SerialPc.idle] at hpc
    | _ => rfl
  rwa [hrest, Stores.after_nil] at hd

theorem decoded_once (h : robot.Run es s) (hf : s.serialFlag = some .empty) (hpc : s.serial.idle = true) :
    s.globals.command = ((keptBytes es).foldl decode .init).command ∧
      (keptBytes es).Sublist (arrivals es) ∧
      (keptBytes es).getLast? = (arrivals es).getLast? ∧
      (arrivals es).length = (keptBytes es).length + (lostBytes es).length ∧
      (lostBytes es = [] → keptBytes es = arrivals es) := by
  have hcall : s.serial ≠ .call := by
    intro hs
    simp [hs, SerialPc.idle] at hpc
  obtain ⟨-, hw⟩ := none_waiting h hf hcall
  have hg := (mail_inv h).genuine
  have hput := puts_mails h
  have hsub := Mail.kept_sublist hg
  have hlast := Mail.last_kept hg
  have hlen := Mail.puts_length hg
  have hall := Mail.kept_eq_puts hg
  simp only [hw, hput, Option.toList_none, List.append_nil, List.length_nil, Nat.add_zero] at hsub hlast hlen hall
  refine ⟨?_, hsub, hlast, hlen, hall⟩
  rw [globals_eq h hpc]
  exact Mail.takes_fold hg (fun g g' b e => decode_command e b)
    (fun g b => congrArg Globals.command (decode_twice g b)) decode_startup

end Caught

/-! ## Two bytes during one pause -/

/-- Started, `serialThread` decodes the zero byte and pauses; two bytes arrive, and it
    wakes, decodes what `received_byte` holds and pauses again. -/
def pauseRun (D D' : BitVec 8) : List Ev :=
  List.flatten [[.Init_RTOX], List.replicate 7 .serialThread, [.irq (some D), .irq (some D')], List.replicate 8 .serialThread]

/-- An audio byte overwritten by a movement byte: what is left is the movement byte's decode. -/
theorem decoded_once_pause :
    (⟨false, true, forward, 100, 0⟩ : Globals).command = ([0x20].foldl decode .init).command := by
  have h : robot.Run (pauseRun 0x90 0x20)
    ⟨1, 0x20, ⟨false, true, forward, 100, 0⟩, .zero, some .empty, some .full, .delay, .acquire⟩ := rfl
  exact (decoded_once h rfl rfl).1

/-- The sender's audio packet, then its stop packet: `isComplete` is never set. -/
theorem byte_overwritten : ¬ ∀ (es : List Ev) (s : St), robot.Run es s → s.serialFlag = some .empty →
    s.serial.idle = true → s.globals.command = ((arrivals es).foldl decode .init).command := by
  intro h
  have := h (pauseRun 0x90 0x00)
    ⟨1, 0x00, ⟨false, false, 8, 100, 0⟩, .zero, some .empty, some .full, .delay, .acquire⟩ rfl rfl rfl
  revert this
  decide

end RobotCar.Receiver
