/-
  RobotCar.Queue.Runs — any sequence of calls of `Q_Enqueue`, `Q_Dequeue` and `fetchData` on
  a queue that `Q_Init` has set up, whatever its buffer held before.

  `fifo` is what the queue is for: a list of at most `QUEUE_SIZE` bytes. While no
  `fetchData` finds the queue empty the two go together (`runs_hold`), so:
  - `queue_refines_fifo`: without `fetchData` every boolean and every byte returned is
    the list's, and the bytes dequeued and the bytes stored are the bytes accepted.
  - `wellFormed_iff`: with `fetchData` the queue stays well formed exactly as long as no
    `fetchData` is called on an empty queue; that one sets `count` to 255
    (`fetch_empty_wraps`).
-/

import RobotCar.Lib.Machine
import RobotCar.Queue.Fetch

namespace RobotCar.Queue

open RobotCar.Lib

inductive Call where
  | Q_Enqueue (data : BitVec 8)
  | Q_Dequeue
  | fetchData
  deriving DecidableEq, Repr

/-- What a call hands back. -/
inductive Ret where
  | enqueued (ok : Bool)
  /-- The byte, when `Q_Dequeue` returned true. -/
  | dequeued (data : Option (BitVec 8))
  | fetched (p : TPacket)
  deriving DecidableEq, Repr

/-- The queue, and the byte the caller's pointer points to. -/
structure Sys where
  q : Queue_t
  data : BitVec 8
  deriving DecidableEq

def call (s : Sys) : Call → Sys
  | .Q_Enqueue data => { s with q := (Q_Enqueue s.q data).2 }
  | .Q_Dequeue => ⟨(Q_Dequeue s.q s.data).2.1, (Q_Dequeue s.q s.data).2.2⟩
  | .fetchData => { s with q := (fetchData s.q).1 }

def ret (s : Sys) : Call → Ret
  | .Q_Enqueue data => .enqueued (Q_Enqueue s.q data).1
  | .Q_Dequeue => .dequeued (if (Q_Dequeue s.q s.data).1 then some (Q_Dequeue s.q s.data).2.2 else none)
  | .fetchData => .fetched (fetchData s.q).2

def queue (s₀ : Sys) : Machine Sys Call := ⟨⟨Q_Init s₀.q, s₀.data⟩, fun s c => some (call s c)⟩

/-- Each call with what it returned. -/
def history (s₀ : Sys) (cs : List Call) : List (Call × Ret) :=
  (queue s₀).log (fun s c => some (c, ret s c)) (queue s₀).init cs

/-! ## The list -/

/-- A list of at most `QUEUE_SIZE` bytes, the oldest first; from none nothing is fetched. -/
def fifo : Machine (List (BitVec 8)) Call where
  init := []
  step xs
    | .Q_Enqueue data => some (Ring.push QUEUE_SIZE xs data).2
    | .Q_Dequeue => some (Ring.pop xs).2
    | .fetchData =>
      match xs with
      | [] => none
      | _ :: xs => some xs

def fifoRet (xs : List (BitVec 8)) : Call → Option Ret
  | .Q_Enqueue data => some (.enqueued (Ring.push QUEUE_SIZE xs data).1)
  | .Q_Dequeue => some (.dequeued (Ring.pop xs).1)
  | .fetchData => xs.head?.map fun b => .fetched (unpack b)

def fifoHistory (cs : List Call) : List (Call × Ret) :=
  fifo.log (fun xs c => (fifoRet xs c).map fun r => (c, r)) fifo.init cs

/-! ## Bytes in and out -/

def acceptedBy : Call × Ret → Option (BitVec 8)
  | (.Q_Enqueue data, .enqueued true) => some data
  | _ => none

def dequeuedBy : Call × Ret → Option (BitVec 8)
  | (_, .dequeued data) => data
  | _ => none

def fetchedBy : Call × Ret → Option TPacket
  | (_, .fetched p) => some p
  | _ => none

def accepted (h : List (Call × Ret)) : List (BitVec 8) := h.filterMap acceptedBy

def dequeued (h : List (Call × Ret)) : List (BitVec 8) := h.filterMap dequeuedBy

/-- The packets `fetchData` handed out. -/
def fetched (h : List (Call × Ret)) : List TPacket := h.filterMap fetchedBy

section Snoc

variable (h : List (Call × Ret)) (x : Call × Ret)

@[simp] theorem accepted_snoc : accepted (h ++ [x]) = accepted h ++ (acceptedBy x).toList := by
  rw [accepted, List.filterMap_append]
  cases hx : acceptedBy x <;> simp [accepted, hx]

@[simp] theorem dequeued_snoc : dequeued (h ++ [x]) = dequeued h ++ (dequeuedBy x).toList := by
  rw [dequeued, List.filterMap_append]
  cases hx : dequeuedBy x <;> simp [dequeued, hx]

@[simp] theorem fetched_snoc : fetched (h ++ [x]) = fetched h ++ (fetchedBy x).toList := by
  rw [fetched, List.filterMap_append]
  cases hx : fetchedBy x <;> simp [fetched, hx]

end Snoc

/-! ## One call -/

theorem call_holds {s : Sys} {xs : List (BitVec 8)} (h : Holds s.q xs) {c : Call}
    (hg : c = .fetchData → Q_Empty s.q = false) :
    ∃ ys, fifo.step xs c = some ys ∧ Holds (call s c).q ys ∧ fifoRet xs c = some (ret s c) := by
  cases c with
  | Q_Enqueue data =>
    obtain ⟨hok, hq⟩ := enqueue_holds h data
    exact ⟨_, rfl, hq, congrArg (fun ok => some (Ret.enqueued ok)) hok.symm⟩
  | Q_Dequeue =>
    cases xs with
    | nil =>
      have hd := dequeue_empty h s.data
      refine ⟨[], rfl, ?_, ?_⟩
      · simp only [call, hd]
        exact h
      · simp only [ret, hd]
        rfl
    | cons b xs =>
      obtain ⟨hok, hb, hq⟩ := dequeue_holds h s.data
      refine ⟨xs, rfl, hq, ?_⟩
      simp only [ret, hok, hb]
      rfl
  | fetchData =>
    have hne := hg rfl
    cases xs with
    | nil =>
      rw [h.empty] at hne
      cases hne
    | cons b xs =>
      obtain ⟨-, hb, hq⟩ := dequeue_holds h s.data
      refine ⟨xs, rfl, ?_, ?_⟩
      · show Holds (fetchData s.q).1 xs
        rw [fetchData_queue hne s.data]
        exact hq
      · simp only [ret, fetchData_packet hne s.data, hb]
        rfl

/-! ## Runs -/

/-- No `fetchData` is called on an empty queue. -/
def Guarded (s₀ : Sys) (cs : List Call) : Prop :=
  ∀ pre s, pre ++ [.fetchData] <+: cs → (queue s₀).Run pre s → Q_Empty s.q = false

section Runs

variable {s₀ s : Sys} {cs : List Call} {xs : List (BitVec 8)}

theorem Guarded.of_prefix {pre : List Call} (h : Guarded s₀ cs) (hp : pre <+: cs) : Guarded s₀ pre :=
  fun p t ht => h p t (ht.trans hp)

theorem runs_hold (h : (queue s₀).Run cs s) (hg : Guarded s₀ cs) :
    ∃ xs, fifo.Run cs xs ∧ Holds s.q xs ∧ history s₀ cs = fifoHistory cs := by
  revert hg
  apply Machine.run_induction
    (P := fun cs s => Guarded s₀ cs → ∃ xs, fifo.Run cs xs ∧ Holds s.q xs ∧ history s₀ cs = fifoHistory cs) _ _ h
  · intro _
    exact ⟨[], rfl, init_holds s₀.q, rfl⟩
  · intro cs s c t hrun ih hc hg
    cases hc
    obtain ⟨xs, hxs, hq, hhist⟩ := ih (hg.of_prefix (List.prefix_append cs [c]))
    have hguard : c = .fetchData → Q_Empty s.q = false := by
      intro he
      subst he
      exact hg cs s (List.prefix_refl _) hrun
    obtain ⟨ys, hys, hq', hret⟩ := call_holds hq hguard
    refine ⟨ys, Machine.execFrom_snoc hxs hys, hq', ?_⟩
    unfold history fifoHistory at hhist ⊢
    rw [Machine.log_snoc _ hrun rfl, Machine.log_snoc _ hxs hys, hhist, hret]
    rfl

/-- Every byte accepted was handed out or is in the list, in that order. -/
def Books (h : List (Call × Ret)) (xs : List (BitVec 8)) : Prop :=
  (accepted h).length = (dequeued h).length + (fetched h).length + xs.length ∧
    (fetched h = [] → dequeued h ++ xs = accepted h)

theorem step_books {hist : List (Call × Ret)} {ys : List (BitVec 8)} {c : Call} {r : Ret} (hc : fifo.step xs c = some ys)
    (hr : fifoRet xs c = some r) (hb : Books hist xs) : Books (hist ++ [(c, r)]) ys := by
  obtain ⟨hlen, hbytes⟩ := hb
  unfold Books
  simp only [accepted_snoc, dequeued_snoc, fetched_snoc, List.length_append]
  cases c with
  | Q_Enqueue data =>
    simp only [fifo, Option.some.injEq] at hc
    simp only [fifoRet, Option.some.injEq] at hr
    subst hr
    subst hc
    unfold Ring.push
    split
    · simp only [acceptedBy, dequeuedBy, fetchedBy, Option.toList_some, Option.toList_none, List.length_append,
        List.length_singleton, List.length_nil, List.append_nil, ← List.append_assoc]
      exact ⟨by omega, fun h0 => by rw [hbytes h0]⟩
    · simp only [acceptedBy, dequeuedBy, fetchedBy, Option.toList_none, List.length_nil, List.append_nil]
      exact ⟨by omega, hbytes⟩
  | Q_Dequeue =>
    cases hc
    cases hr
    cases xs with
    | nil => simpa [Ring.pop, acceptedBy, dequeuedBy, fetchedBy] using And.intro hlen hbytes
    | cons b xs =>
      simp only [Ring.pop, acceptedBy, dequeuedBy, fetchedBy, Option.toList_some, Option.toList_none, List.length_cons,
        List.length_nil, List.append_nil, List.append_assoc, List.singleton_append] at hlen ⊢
      exact ⟨by omega, hbytes⟩
  | fetchData =>
    cases xs with
    | nil => cases hc
    | cons b xs =>
      cases hc
      cases hr
      simp only [acceptedBy, dequeuedBy, fetchedBy, Option.toList_some, Option.toList_none, List.length_cons,
        List.length_nil, List.append_nil] at hlen ⊢
      exact ⟨by omega, fun h0 => absurd h0 (by simp)⟩

theorem fifo_books (h : fifo.Run cs xs) : Books (fifoHistory cs) xs := by
  apply Machine.run_induction (P := fun cs xs => Books (fifoHistory cs) xs) _ _ h
  · exact ⟨rfl, fun _ => rfl⟩
  · intro cs xs c ys hrun ih hc
    have hr : ∃ r, fifoRet xs c = some r := by
      cases c with
      | Q_Enqueue data => exact ⟨_, rfl⟩
      | Q_Dequeue => exact ⟨_, rfl⟩
      | fetchData =>
        cases xs with
        | nil => cases hc
        | cons b xs => exact ⟨_, rfl⟩
    obtain ⟨r, hr⟩ := hr
    unfold fifoHistory at ih ⊢
    rw [Machine.log_snoc _ hrun hc, hr]
    exact step_books hc hr ih

/-! ## Without `fetchData` the queue is the list -/

theorem guarded_of_not_mem (hf : .fetchData ∉ cs) : Guarded s₀ cs := by
  intro pre _ hp _
  exact absurd (hp.subset (List.mem_append_right pre (.head _))) hf

theorem fetched_nil (h : (queue s₀).Run cs s) (hf : .fetchData ∉ cs) : fetched (history s₀ cs) = [] := by
  revert hf
  apply Machine.run_induction (P := fun cs _ => .fetchData ∉ cs → fetched (history s₀ cs) = []) (fun _ => rfl) _ h
  intro cs s c t hrun ih hc hf
  simp only [List.mem_append, List.mem_singleton, not_or] at hf
  unfold history at ih ⊢
  rw [Machine.log_snoc _ hrun hc, Option.toList_some, fetched_snoc, ih hf.1]
  cases c with
  | Q_Enqueue data => rfl
  | Q_Dequeue => rfl
  | fetchData => exact absurd rfl hf.2

theorem queue_refines_fifo (h : (queue s₀).Run cs s) (hf : .fetchData ∉ cs) :
    (∃ xs, fifo.Run cs xs ∧ history s₀ cs = fifoHistory cs ∧ stored s.q = xs ∧ xs.length ≤ QUEUE_SIZE) ∧
      dequeued (history s₀ cs) ++ stored s.q = accepted (history s₀ cs) ∧
      (∀ data, (Q_Enqueue s.q data).1 = false → (Q_Enqueue s.q data).2 = s.q) ∧
      ((Q_Dequeue s.q s.data).1 = false → (Q_Dequeue s.q s.data).2 = (s.q, s.data)) := by
  obtain ⟨xs, hxs, hq, hhist⟩ := runs_hold h (guarded_of_not_mem hf)
  have hstored : stored s.q = xs := hq.live_eq
  refine ⟨⟨xs, hxs, hhist, hstored, ?_⟩, ?_, ?_, ?_⟩
  · rw [← hq.count_eq]
    exact hq.count_le
  · have hnone := fetched_nil h hf
    rw [hhist] at hnone ⊢
    rw [hstored]
    exact (fifo_books hxs).2 hnone
  · intro data hfull
    unfold Q_Enqueue at hfull ⊢
    split at hfull
    · rename_i hc
      rw [if_pos hc]
    · cases hfull
  · intro hempty
    unfold Q_Dequeue at hempty ⊢
    split at hempty
    · rename_i hc
      rw [if_pos hc]
    · cases hempty

/-- Set up over junk: a byte through the queue, a dequeue that finds it empty, one more byte. -/
theorem queue_refines_fifo_junk :
    let s₀ : Sys := ⟨⟨Vector.replicate 16 0xAA, 5, 9, 200⟩, 0⟩
    let cs : List Call := [.Q_Enqueue 1, .Q_Dequeue, .Q_Dequeue, .Q_Enqueue 7]
    dequeued (history s₀ cs) ++ [7] = accepted (history s₀ cs) := by
  intro s₀ cs
  have h : (queue s₀).Run cs ⟨⟨(Vector.replicate 16 0xAA).set 0 1 |>.set 1 7, 1, 2, 1⟩, 1⟩ := by decide
  exact (queue_refines_fifo h (by decide)).2.1

/-! ## With `fetchData` -/

/-- What the queue should be after `cs`: indices and count in range and consistent, the
    count what went in less what came out, every answer and both tests those of the list. -/
structure WellFormed (s₀ : Sys) (cs : List Call) (s : Sys) : Prop where
  head_lt : s.q.head.toNat < QUEUE_SIZE
  tail_lt : s.q.tail.toNat < QUEUE_SIZE
  count_le : s.q.count.toNat ≤ QUEUE_SIZE
  tail_eq : s.q.tail.toNat = (s.q.head.toNat + s.q.count.toNat) % QUEUE_SIZE
  balance : (s.q.count.toNat : Int) = (accepted (history s₀ cs)).length -
    ((dequeued (history s₀ cs)).length + (fetched (history s₀ cs)).length)
  answers : ∃ xs, fifo.Run cs xs ∧ history s₀ cs = fifoHistory cs ∧ Q_Full s.q = decide (xs.length = QUEUE_SIZE) ∧
    Q_Empty s.q = xs.isEmpty

theorem wellFormed_of_guarded (h : (queue s₀).Run cs s) (hg : Guarded s₀ cs) : WellFormed s₀ cs s := by
  obtain ⟨xs, hxs, hq, hhist⟩ := runs_hold h hg
  have hbooks := (fifo_books hxs).1
  refine ⟨hq.head_lt, hq.tail_lt, hq.count_le, hq.tail_eq, ?_, ⟨xs, hxs, hhist, hq.full, hq.empty⟩⟩
  rw [hq.count_eq, hhist, hbooks]
  omega

theorem fetch_empty_wraps {q : Queue_t} (h : Q_Empty q = true) : (fetchData q).1.count.toNat = 255 := by
  have hcount : q.count.toNat = 0 := eq_of_beq h
  show (q.count - 1).toNat = 255
  rw [BitVec.toNat_sub, hcount]
  rfl

/-- The queue is well formed after every call exactly when no `fetchData` is called on an
    empty queue. -/
theorem wellFormed_iff (s₀ : Sys) (cs : List Call) :
    (∀ pre s, pre <+: cs → (queue s₀).Run pre s → WellFormed s₀ pre s) ↔
      ∀ pre s, pre ++ [.fetchData] <+: cs → (queue s₀).Run pre s → Q_Empty s.q = false := by
  constructor
  · intro h pre s hp hrun
    have hfetch := (h _ _ hp (Machine.execFrom_snoc hrun rfl)).count_le
    cases hempty : Q_Empty s.q with
    | false => rfl
    | true =>
      have hwrap : (call s .fetchData).q.count.toNat = 255 := fetch_empty_wraps hempty
      rw [hwrap] at hfetch
      exact absurd hfetch (by decide)
  · intro hg pre s hp hrun
    exact wellFormed_of_guarded hrun (Guarded.of_prefix hg hp)

/-- One `fetchData` on the empty queue: the queue then counts 255 bytes. -/
theorem fetch_on_empty : ¬ ∀ (s₀ : Sys) (cs : List Call) (s : Sys), (queue s₀).Run cs s → WellFormed s₀ cs s := by
  intro h
  have := (h ⟨⟨Vector.replicate 16 0, 0, 0, 0⟩, 0⟩ [.fetchData] ⟨⟨Vector.replicate 16 0, 1, 0, 255⟩, 0⟩ (by decide)).count_le
  revert this
  decide

/-! ## The lowest bit -/

/-- The byte 1, enqueued and fetched: the packet is that of the byte 0. -/
theorem fetch_drops_lowest_bit : ¬ ∀ (s₀ : Sys) (cs : List Call) (s : Sys), (queue s₀).Run cs s → .fetchData ∉ cs →
    Q_Empty s.q = false → (fetchData s.q).1 = (Q_Dequeue s.q s.data).2.1 ∧
      (fetchData s.q).2.value = (Q_Dequeue s.q s.data).2.2.toNat := by
  intro h
  have := (h ⟨⟨Vector.replicate 16 0, 0, 0, 0⟩, 0⟩ [.Q_Enqueue 1] ⟨⟨(Vector.replicate 16 0).set 0 1, 0, 1, 1⟩, 0⟩
    (by decide) (by decide) rfl).2
  revert this
  decide

end Runs

end RobotCar.Queue
