/-
  RobotCar.Lib.Turns — a team of endless threads over one device, each waiting on its own
  binary semaphore. A pass of a thread's loop acquires the semaphore, makes the stores of
  its `work`, looks at a shared flag, releases the semaphore the flag names, makes the
  stores of its `rest` and counts its loop index on. Every one of these is a step of its
  own, and the flag may change between any two.

  That all threads of a team read the flag the same way, and that one semaphore is
  created with a token and the others with none, are fields of `Team`. A team is then
  a crew of `Lib.HandOver` (`crewOf`), whatever the threads do with the device, and has
  one token (`oneToken_of_rep`).
-/

import Mathlib.Logic.Function.Basic
import RobotCar.Lib.HandOver

namespace RobotCar.Lib.Turns

variable {ι α δ : Type} [DecidableEq ι]

/-! ## Threads -/

/-- What one thread does in a pass of its loop. -/
structure Routine (ι α : Type) where
  /-- The bound of the loop index. -/
  loops : Nat
  work : Nat → List α
  next : Bool → ι
  rest : List α

inductive Pc (ι α : Type) where
  | acquire
  | work (ws : List α)
  | release (j : ι)
  | rest (ws : List α)

structure Thread (ι α : Type) where
  i : Nat
  pc : Pc ι α

structure Team (ι α δ : Type) [DecidableEq ι] where
  put : δ → α → δ
  routine : ι → Routine ι α
  sem : ι → Semaphore 1
  device : δ
  wants : Bool → ι
  next_eq : ∀ i b, (routine i).next b = wants b
  start : ι
  sem_eq : ∀ i, sem i = if i = start then .full else .empty

structure St (ι α δ : Type) where
  flag : Bool
  sem : ι → Semaphore 1
  thread : ι → Thread ι α
  device : δ

inductive Ev (ι : Type) where
  | run (i : ι)
  | setFlag (b : Bool)
  deriving DecidableEq

namespace St

def goto (s : St ι α δ) (i : ι) (pc : Pc ι α) : St ι α δ :=
  { s with thread := Function.update s.thread i { s.thread i with pc := pc } }

/-- Back to the top of the loop, with the index at `n`. -/
def again (s : St ι α δ) (i : ι) (n : Nat) : St ι α δ := { s with thread := Function.update s.thread i ⟨n, .acquire⟩ }

def setSem (s : St ι α δ) (j : ι) (f : Semaphore 1) : St ι α δ := { s with sem := Function.update s.sem j f }

def setDevice (s : St ι α δ) (d : δ) : St ι α δ := { s with device := d }

end St

namespace Team

variable (T : Team ι α δ)

def run (s : St ι α δ) (i : ι) : Option (St ι α δ) :=
  match (s.thread i).pc with
  | .acquire => (s.sem i).acquire.map fun f => (s.setSem i f).goto i (.work ((T.routine i).work (s.thread i).i))
  | .work (w :: ws) => some ((s.setDevice (T.put s.device w)).goto i (.work ws))
  | .work [] => some (s.goto i (.release ((T.routine i).next s.flag)))
  | .release j => some ((s.setSem j (s.sem j).release).goto i (.rest (T.routine i).rest))
  | .rest (w :: ws) => some ((s.setDevice (T.put s.device w)).goto i (.rest ws))
  | .rest [] =>
    let n := (s.thread i).i + 1
    some (s.again i (if n < (T.routine i).loops then n else 0))

def step (s : St ι α δ) : Ev ι → Option (St ι α δ)
  | .run i => T.run s i
  | .setFlag b => some { s with flag := b }

def init (flag : Bool) : St ι α δ := ⟨flag, T.sem, fun _ => ⟨0, .acquire⟩, T.device⟩

def machine (flag : Bool) : Machine (St ι α δ) (Ev ι) := ⟨T.init flag, T.step⟩

end Team

/-- What thread `i` can do next. -/
inductive Move (T : Team ι α δ) (s : St ι α δ) (i : ι) : St ι α δ → Prop
  | acquire : (s.thread i).pc = .acquire → s.sem i = .full →
      Move T s i ((s.setSem i .empty).goto i (.work ((T.routine i).work (s.thread i).i)))
  | work (w : α) (ws : List α) : (s.thread i).pc = .work (w :: ws) →
      Move T s i ((s.setDevice (T.put s.device w)).goto i (.work ws))
  | test : (s.thread i).pc = .work [] → Move T s i (s.goto i (.release (T.wants s.flag)))
  | release (j : ι) : (s.thread i).pc = .release j →
      Move T s i ((s.setSem j .full).goto i (.rest (T.routine i).rest))
  | rest (w : α) (ws : List α) : (s.thread i).pc = .rest (w :: ws) →
      Move T s i ((s.setDevice (T.put s.device w)).goto i (.rest ws))
  | loop : (s.thread i).pc = .rest [] →
      Move T s i (s.again i (if (s.thread i).i + 1 < (T.routine i).loops then (s.thread i).i + 1 else 0))

theorem run_cases {T : Team ι α δ} {s t : St ι α δ} {i : ι} (h : T.run s i = some t) : Move T s i t := by
  unfold Team.run at h
  split at h
  · rename_i hpc
    obtain ⟨f, hf, rfl⟩ := Option.map_eq_some_iff.mp h
    obtain ⟨hfull, rfl⟩ := Semaphore.acquire_binary.mp hf
    exact .acquire hpc hfull
  · rename_i w ws hpc
    cases h
    exact .work w ws hpc
  · rename_i hpc
    cases h
    rw [T.next_eq]
    exact .test hpc
  · rename_i j hpc
    cases h
    rw [Semaphore.release_binary]
    exact .release j hpc
  · rename_i w ws hpc
    cases h
    exact .rest w ws hpc
  · rename_i hpc
    cases h
    exact .loop hpc

theorem run_flag {T : Team ι α δ} {s t : St ι α δ} {i : ι} (h : T.run s i = some t) : t.flag = s.flag := by
  cases run_cases h <;> rfl

/-! ## A team is a crew -/

def Pc.phase : Pc ι α → HandOver.Phase ι
  | .work _ => .inside
  | .release j => .chosen j
  | _ => .out

def St.phase (s : St ι α δ) : ι → HandOver.Phase ι := (fun x : Thread ι α => x.pc.phase) ∘ s.thread

def St.crew (T : Team ι α δ) (s : St ι α δ) : HandOver.Crew ι := ⟨s.sem, s.phase, T.wants s.flag⟩

/-- The crew's step, if any, that a step of the team is. -/
def label (T : Team ι α δ) (s : St ι α δ) : Ev ι → Option (HandOver.Ev ι)
  | .run i =>
    match (s.thread i).pc with
    | .acquire => some (.acquire i)
    | .work [] => some (.test i)
    | .release _ => some (.release i)
    | _ => none
  | .setFlag b => some (.setMode (T.wants b))

section Crew

variable (T : Team ι α δ) (s : St ι α δ) (i : ι)

theorem phase_goto (pc : Pc ι α) : (s.goto i pc).phase = Function.update s.phase i pc.phase :=
  Function.comp_update _ _ _ _

theorem crew_goto (pc : Pc ι α) :
    (s.goto i pc).crew T = { s.crew T with phase := Function.update s.phase i pc.phase } :=
  congrArg (HandOver.Crew.mk _ · _) (phase_goto s i pc)

@[simp] theorem crew_setSem (j : ι) (f : Semaphore 1) :
    (s.setSem j f).crew T = { s.crew T with sem := Function.update s.sem j f } := rfl

@[simp] theorem crew_setDevice (d : δ) : (s.setDevice d).crew T = s.crew T := rfl

variable {T s i}

/-- A move within a phase. -/
theorem crew_stay {pc : Pc ι α} (h : (s.thread i).pc.phase = pc.phase) : (s.goto i pc).crew T = s.crew T := by
  rw [crew_goto, ← h]
  exact congrArg (HandOver.Crew.mk _ · _) (Function.update_eq_self i s.phase)

theorem crew_again {n : Nat} (h : (s.thread i).pc.phase = .out) : (s.again i n).crew T = s.crew T := by
  have hset : (s.again i n).phase = Function.update s.phase i .out := Function.comp_update _ _ _ _
  rw [← h] at hset
  exact congrArg (HandOver.Crew.mk _ · _) (hset.trans (Function.update_eq_self i s.phase))

end Crew

theorem crew_step {T : Team ι α δ} {s t : St ι α δ} {e : Ev ι} (h : T.step s e = some t) :
    match label T s e with
    | some d => (s.crew T).step d = some (t.crew T)
    | none => t.crew T = s.crew T := by
  cases e with
  | setFlag b =>
    cases h
    rfl
  | run i =>
    have hphase : (s.crew T).phase i = (s.thread i).pc.phase := rfl
    cases run_cases h with
    | acquire hpc hfull =>
      have hacq : ((s.crew T).sem i).acquire = some .empty := Semaphore.acquire_binary.mpr ⟨hfull, rfl⟩
      rw [hpc] at hphase
      simp only [label, hpc, HandOver.Crew.step, hphase, Pc.phase, hacq, crew_goto]
      rfl
    | work w ws hpc =>
      have hstay := congrArg Pc.phase hpc
      simp only [label, hpc]
      exact crew_stay (s := s.setDevice (T.put s.device w)) hstay
    | test hpc =>
      rw [hpc] at hphase
      simp only [label, hpc, HandOver.Crew.step, hphase, Pc.phase, crew_goto]
      rfl
    | release j hpc =>
      rw [hpc] at hphase
      simp only [label, hpc, HandOver.Crew.step, hphase, Pc.phase, Semaphore.release_binary, crew_goto]
      rfl
    | rest w ws hpc =>
      have hstay := congrArg Pc.phase hpc
      simp only [label, hpc]
      exact crew_stay (s := s.setDevice (T.put s.device w)) hstay
    | loop hpc =>
      simp only [label, hpc]
      exact crew_again (congrArg Pc.phase hpc)

/-- A team is simulated by the crew of its semaphores. -/
def crewOf (T : Team ι α δ) (flag : Bool) : Simulation (T.machine flag) (HandOver.crew T.start (T.wants flag)) where
  rel s c := s.crew T = c
  lab := label T
  init := congrArg (HandOver.Crew.mk · _ _) (funext T.sem_eq)
  step := by
    intro s c e t hc h
    subst hc
    have hs := crew_step h
    split <;> rename_i hl <;> simp only [hl] at hs
    · exact ⟨_, hs, rfl⟩
    · exact hs

/-! ## The token -/

/-- One for a thread between its acquire and its release. -/
def St.busy (s : St ι α δ) (i : ι) : Nat := (s.phase i).busy

structure OneToken [Fintype ι] (s : St ι α δ) : Prop where
  one : ∑ i, ((s.sem i).count + s.busy i) = 1
  exclusive : ∀ i j, s.busy i = 1 → s.busy j = 1 → i = j
  /-- A release never meets a full semaphore. -/
  no_drop : ∀ i j, (s.thread i).pc = .release j → (s.sem j).count = 0
  live : ∃ i, s.busy i = 1 ∨ (s.sem i).count = 1

theorem oneToken_of_rep [Fintype ι] {T : Team ι α δ} {s : St ι α δ} {a : HandOver.Token ι}
    (h : HandOver.Rep (s.crew T) a) : OneToken s where
  one := h.one_token
  exclusive i j hi hj := h.exclusive (HandOver.Phase.busy_eq_one.mp hi) (HandOver.Phase.busy_eq_one.mp hj)
  no_drop i j hpc := h.empty_of_busy (i := i) (by simp [St.crew, St.phase, hpc, Pc.phase]) j
  live := by
    obtain ⟨i, hi⟩ := h.never_stuck
    exact ⟨i, hi.imp_left HandOver.Phase.busy_eq_one.mpr⟩

end RobotCar.Lib.Turns
