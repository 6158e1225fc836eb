/-
  RobotCar.Lib.Sections — what a team of `Lib.Turns` does to its device over a run. A
  section is the work between an acquire and the release that follows it; `sections` is
  whose sections began, in order, read off the run.

  - `progress`: a thread's loop index counts its own sections, modulo its bound, whoever
    had a turn in between; what it has still to do is a tail of what it set out to do.
  - `made_eq`: the stores a thread has made in its sections, with those left of the section
    it is in, are the works of its turns in order. None is skipped, none repeated.
  - `Upkeep`: an assertion about the sections so far and the device that a whole section
    carries on. It holds whenever no store of a section is left (`Upkeep.settled`); in a
    section the device is at a point of its stores from where it held (`Upkeep.at_point`).
  - `view_step`: a team seen through a function of its device is a team.
-/

import Mathlib.Data.List.Basic
import RobotCar.Lib.Stores
import RobotCar.Lib.Turns

namespace RobotCar.Lib.Turns

open Stores (after after_nil after_cons)

variable {ι α δ : Type}

/-! ## The history of a run -/

/-- The thread whose section begins. -/
def enters (s : St ι α δ) : Ev ι → Option ι
  | .run i =>
    match (s.thread i).pc with
    | .acquire => some i
    | _ => none
  | .setFlag _ => none

/-- A section begins as the crew's thread takes its token. -/
theorem enters_eq [DecidableEq ι] (T : Team ι α δ) (s : St ι α δ) (e : Ev ι) :
    enters s e = (label T s e).bind HandOver.acquirer? := by
  cases e with
  | setFlag b => rfl
  | run i =>
    simp only [enters, label]
    cases (s.thread i).pc with
    | work ws => cases ws <;> rfl
    | _ => rfl

/-- The work of a thread's turn `n`, counted from 0. -/
def Routine.turn (r : Routine ι α) (n : Nat) : List α := r.work (n % r.loops)

/-- What is left of the section a thread is in. -/
def Pc.left : Pc ι α → List α
  | .work ws => ws
  | _ => []

theorem busy_eq {s : St ι α δ} {i : ι} : s.busy i = (s.thread i).pc.phase.busy := rfl

theorem busy_one {s : St ι α δ} {i : ι} (h : 0 < s.busy i) : s.busy i = 1 := by
  rw [busy_eq] at h ⊢
  cases hp : (s.thread i).pc.phase with
  | out => simp [hp, HandOver.Phase.busy] at h
  | inside => rfl
  | chosen j => rfl

theorem left_of_idle {s : St ι α δ} {i : ι} (h : s.busy i = 0) : (s.thread i).pc.left = [] := by
  rw [busy_eq] at h
  cases hpc : (s.thread i).pc with
  | work ws => simp [hpc, Pc.phase, HandOver.Phase.busy] at h
  | acquire => rfl
  | release j => rfl
  | rest ws => rfl

variable [DecidableEq ι]

/-- The store thread `i` makes in its section. -/
def makes (i : ι) (s : St ι α δ) : Ev ι → Option α
  | .run j =>
    match (s.thread j).pc with
    | .work (w :: _) => if j = i then some w else none
    | _ => none
  | .setFlag _ => none

section History

variable (T : Team ι α δ) (flag : Bool) (es : List (Ev ι))

def sections : List ι := (T.machine flag).log enters (T.init flag) es

def made (i : ι) : List α := (T.machine flag).log (makes i) (T.init flag) es

end History

section Snoc

variable {T : Team ι α δ} {flag : Bool} {s t : St ι α δ} {es : List (Ev ι)} {e : Ev ι}

theorem sections_snoc (h : (T.machine flag).Run es s) (he : T.step s e = some t) :
    sections T flag (es ++ [e]) = sections T flag es ++ (enters s e).toList := Machine.log_snoc enters h he

theorem made_snoc {i : ι} (h : (T.machine flag).Run es s) (he : T.step s e = some t) :
    made T flag (es ++ [e]) i = made T flag es i ++ (makes i s e).toList := Machine.log_snoc (makes i) h he

end Snoc

/-! ## Threads of a state -/

section Parts

variable {s : St ι α δ} {i j : ι} {pc : Pc ι α} {n : Nat}

@[simp] theorem goto_same : (s.goto i pc).thread i = { s.thread i with pc := pc } := Function.update_self ..

@[simp] theorem goto_other (h : j ≠ i) : (s.goto i pc).thread j = s.thread j := Function.update_of_ne h ..

@[simp] theorem again_same : (s.again i n).thread i = ⟨n, .acquire⟩ := Function.update_self ..

@[simp] theorem again_other (h : j ≠ i) : (s.again i n).thread j = s.thread j := Function.update_of_ne h ..

@[simp] theorem goto_device : (s.goto i pc).device = s.device := rfl

@[simp] theorem again_device : (s.again i n).device = s.device := rfl

omit [DecidableEq ι] in
@[simp] theorem setDevice_thread (d : δ) : (s.setDevice d).thread = s.thread := rfl

omit [DecidableEq ι] in
@[simp] theorem setDevice_device (d : δ) : (s.setDevice d).device = d := rfl

@[simp] theorem setSem_thread (f : Semaphore 1) : (s.setSem j f).thread = s.thread := rfl

@[simp] theorem setSem_device (f : Semaphore 1) : (s.setSem j f).device = s.device := rfl

end Parts

/-- A step of one thread leaves the others where they are. -/
theorem run_other {T : Team ι α δ} {s t : St ι α δ} {i j : ι} (h : T.run s i = some t) (hj : j ≠ i) :
    t.thread j = s.thread j := by
  cases run_cases h <;> simp [hj]

/-! ## Where a thread is in its turns -/

/-- A thread that has begun `n` sections. -/
def Progress (r : Routine ι α) (n : Nat) (x : Thread ι α) : Prop :=
  match x.pc with
  | .acquire => x.i = n % r.loops
  | .work ws => ∃ k, n = k + 1 ∧ x.i = k % r.loops ∧ ws <:+ r.turn k
  | .release _ => ∃ k, n = k + 1 ∧ x.i = k % r.loops
  | .rest ws => ∃ k, n = k + 1 ∧ x.i = k % r.loops ∧ ws <:+ r.rest

theorem next_index {k l : Nat} (hl : 0 < l) : (if k % l + 1 < l then k % l + 1 else 0) = (k + 1) % l := by
  have hk := Nat.mod_lt k hl
  rw [Nat.add_mod k 1 l]
  split
  · rename_i h
    rw [Nat.mod_eq_of_lt (show 1 < l by omega), Nat.mod_eq_of_lt h]
  · rename_i h
    have hlast : k % l + 1 = l := by omega
    rcases Nat.eq_or_lt_of_le (show 1 ≤ l from hl) with h1 | h1
    · subst h1
      simp [Nat.mod_one]
    · rw [Nat.mod_eq_of_lt h1, hlast, Nat.mod_self]

section Runs

variable {T : Team ι α δ} {flag : Bool} {s t : St ι α δ} {es : List (Ev ι)} {i : ι}

theorem progress_move (hl : 0 < (T.routine i).loops) {n : Nat} (hp : Progress (T.routine i) n (s.thread i))
    (h : T.run s i = some t) : Progress (T.routine i) (n + (enters s (.run i)).toList.length) (t.thread i) := by
  cases run_cases h with
  | acquire hpc hfull =>
    simp only [Progress, hpc] at hp
    simp only [enters, hpc, goto_same, setSem_thread, Progress]
    exact ⟨n, rfl, hp, by rw [hp, Routine.turn]⟩
  | work w ws hpc =>
    simp only [Progress, hpc] at hp
    obtain ⟨k, hn, hi, hws⟩ := hp
    simp only [enters, hpc, goto_same, setDevice_thread, Progress]
    exact ⟨k, hn, hi, (List.suffix_cons w ws).trans hws⟩
  | test hpc =>
    simp only [Progress, hpc] at hp
    obtain ⟨k, hn, hi, _⟩ := hp
    simp only [enters, hpc, goto_same, Progress]
    exact ⟨k, hn, hi⟩
  | release j hpc =>
    simp only [Progress, hpc] at hp
    obtain ⟨k, hn, hi⟩ := hp
    simp only [enters, hpc, goto_same, setSem_thread, Progress]
    exact ⟨k, hn, hi, List.suffix_refl _⟩
  | rest w ws hpc =>
    simp only [Progress, hpc] at hp
    obtain ⟨k, hn, hi, hws⟩ := hp
    simp only [enters, hpc, goto_same, setDevice_thread, Progress]
    exact ⟨k, hn, hi, (List.suffix_cons w ws).trans hws⟩
  | loop hpc =>
    simp only [Progress, hpc] at hp
    obtain ⟨k, hn, hi, _⟩ := hp
    subst hn
    simp only [enters, hpc, again_same, Progress, hi]
    exact next_index hl

omit [DecidableEq ι] in
theorem enters_run {i j : ι} (h : i ∈ enters s (.run j)) : i = j := by
  simp only [enters] at h
  split at h
  · exact (Option.some.inj h).symm
  · cases h

/-- Of the sections begun by a step of thread `j`, another thread has none. -/
theorem count_enters_other {j : ι} (hj : i ≠ j) : (enters s (.run j)).toList.count i = 0 :=
  List.count_eq_zero.mpr fun h => hj (enters_run (Option.mem_toList.mp h))

theorem count_enters_self : (enters s (.run i)).toList.count i = (enters s (.run i)).toList.length := by
  refine List.count_eq_length.mpr ?_
  intro j hj
  exact (enters_run (Option.mem_toList.mp hj)).symm

theorem progress (hl : ∀ i, 0 < (T.routine i).loops) (h : (T.machine flag).Run es s) (i : ι) :
    Progress (T.routine i) ((sections T flag es).count i) (s.thread i) := by
  refine Machine.run_induction (P := fun es s => Progress (T.routine i) ((sections T flag es).count i) (s.thread i))
    ?_ ?_ h
  · exact (Nat.zero_mod _).symm
  · intro es s e t hrun hp he
    rw [sections_snoc hrun he, List.count_append]
    cases e with
    | setFlag b =>
      cases he
      exact hp
    | run j =>
      by_cases hj : i = j
      · subst hj
        rw [count_enters_self]
        exact progress_move (hl i) hp he
      · rw [count_enters_other hj, run_other he hj]
        exact hp

omit [DecidableEq ι] in
theorem progress_busy {r : Routine ι α} {n : Nat} {x : Thread ι α} (h : Progress r n x) (hx : x.pc.phase.busy = 1) :
    ∃ k, n = k + 1 ∧ x.i = k % r.loops := by
  unfold Progress at h
  split at h
  · rename_i hpc
    simp [hpc, Pc.phase, HandOver.Phase.busy] at hx
  · obtain ⟨k, hn, hi, _⟩ := h
    exact ⟨k, hn, hi⟩
  · exact h
  · rename_i hpc
    simp [hpc, Pc.phase, HandOver.Phase.busy] at hx

/-! ## No turn skipped, none repeated -/

theorem makes_other {j : ι} (hj : j ≠ i) : makes i s (.run j) = none := by
  simp only [makes]
  split
  · rw [if_neg hj]
  · rfl

/-- What a thread has made and what it has left, it got from the sections it began. -/
theorem left_move {n : Nat} (hp : Progress (T.routine i) n (s.thread i)) (h : T.run s i = some t) :
    (makes i s (.run i)).toList ++ (t.thread i).pc.left =
      (s.thread i).pc.left ++ ((enters s (.run i)).toList.flatMap fun _ => (T.routine i).turn n) := by
  cases run_cases h with
  | acquire hpc hfull =>
    simp only [Progress, hpc] at hp
    simp [makes, enters, hpc, Pc.left, Routine.turn, hp]
  | work w ws hpc => simp [makes, enters, hpc, Pc.left]
  | test hpc => simp [makes, enters, hpc, Pc.left]
  | release j hpc => simp [makes, enters, hpc, Pc.left]
  | rest w ws hpc => simp [makes, enters, hpc, Pc.left]
  | loop hpc => simp [makes, enters, hpc, Pc.left]

theorem made_eq (hl : ∀ i, 0 < (T.routine i).loops) (h : (T.machine flag).Run es s) (i : ι) :
    made T flag es i ++ (s.thread i).pc.left =
      (List.range ((sections T flag es).count i)).flatMap (T.routine i).turn := by
  refine Machine.run_induction (P := fun es s => made T flag es i ++ (s.thread i).pc.left =
    (List.range ((sections T flag es).count i)).flatMap (T.routine i).turn) rfl ?_ h
  intro es s e t hrun hmade he
  rw [sections_snoc hrun he, made_snoc hrun he, List.count_append]
  cases e with
  | setFlag b =>
    cases he
    simpa [makes, enters] using hmade
  | run j =>
    by_cases hj : i = j
    · subst hj
      rw [count_enters_self, List.append_assoc, left_move (progress hl hrun i) he, ← List.append_assoc, hmade]
      cases enters s (.run i) with
      | none => simp
      | some k => simp [List.range_succ]
    · rw [count_enters_other hj, run_other he hj, makes_other (Ne.symm hj)]
      simpa using hmade

/-- The first terms of a sequence are those of any longer stretch of it. -/
theorem prefix_of_range {β : Type} {g : Nat → β} {xs ys : List β} {n : Nat} (h : xs ++ ys = (List.range n).map g) :
    xs = (List.range xs.length).map g := by
  have hlen := congrArg List.length h
  have htake := congrArg (List.take xs.length) h
  simp only [List.length_append, List.length_map, List.length_range] at hlen
  rw [List.take_left, ← List.map_take, List.take_range, Nat.min_eq_left (by omega)] at htake
  exact htake

/-! ## One section at a time -/

theorem busy_exclusive (h : (T.machine flag).Reach s) {j : ι} (hi : s.busy i = 1) (hj : s.busy j = 1) : i = j := by
  obtain ⟨_, a, rfl, ha⟩ := HandOver.reach_crew (crewOf T flag) h
  exact ha.exclusive (HandOver.Phase.busy_eq_one.mp hi) (HandOver.Phase.busy_eq_one.mp hj)

/-- A thread that can take its semaphore finds nobody inside. -/
theorem idle_of_full (h : (T.machine flag).Reach s) (hi : s.sem i = .full) (j : ι) : s.busy j = 0 := by
  obtain ⟨_, a, rfl, ha⟩ := HandOver.reach_crew (crewOf T flag) h
  by_contra hj
  have hne : s.phase j ≠ .out := by
    intro hout
    simp [St.busy, hout, HandOver.Phase.busy] at hj
  have hempty : (s.sem i).count = 0 := ha.empty_of_busy hne i
  simp [hi, Semaphore.full] at hempty

end Runs

/-- An assertion about the sections so far and the device, which every turn of every thread
    carries from one section to the next; the stores outside a section do nothing. -/
structure Upkeep (T : Team ι α δ) where
  holds : List ι → δ → Prop
  start : holds [] T.device
  turn : ∀ is i d, holds is d → holds (is ++ [i]) (after T.put d ((T.routine i).turn (is.count i)))
  rest : ∀ i, ∀ w ∈ (T.routine i).rest, ∀ d, T.put d w = d

namespace Upkeep

variable {T : Team ι α δ} (U : Upkeep T) {flag : Bool} {s t : St ι α δ} {es : List (Ev ι)} {i : ι}

/-- Thread `i` is some first stores into the last of the sections `is`. -/
def Inside (is : List ι) (s : St ι α δ) (i : ι) : Prop :=
  ∃ js d vs, is = js ++ [i] ∧ U.holds js d ∧ vs ++ (s.thread i).pc.left = (T.routine i).turn (js.count i) ∧
    s.device = after T.put d vs

structure Kept (is : List ι) (s : St ι α δ) : Prop where
  idle : (∀ i, s.busy i = 0) → U.holds is s.device
  inside : ∀ i, s.busy i = 1 → U.Inside is s i

variable {U} {is : List ι}

/-- A section with no store left has carried the assertion on. -/
theorem Inside.closed (h : U.Inside is s i) (hleft : (s.thread i).pc.left = []) : U.holds is s.device := by
  obtain ⟨js, d, vs, rfl, hd, hvs, hdev⟩ := h
  rw [hleft, List.append_nil] at hvs
  rw [hdev, hvs]
  exact U.turn js i d hd

/-- A step that neither enters, leaves nor stores. -/
theorem Kept.congr (h : U.Kept is s) (hbusy : ∀ i, t.busy i = s.busy i)
    (hleft : ∀ i, (t.thread i).pc.left = (s.thread i).pc.left) (hdev : t.device = s.device) : U.Kept is t where
  idle hi := by
    rw [hdev]
    exact h.idle fun i => (hbusy i).symm.trans (hi i)
  inside i hi := by
    obtain ⟨js, d, vs, his, hd, hvs, hs⟩ := h.inside i ((hbusy i).symm.trans hi)
    exact ⟨js, d, vs, his, hd, by rw [hleft, hvs], hdev.trans hs⟩

theorem kept_enter {i : ι} (h : U.Kept is s) (hidle : ∀ i, s.busy i = 0)
    (hone : ∀ j, t.busy j = 1 → j = i) (hbusy : t.busy i = 1)
    (hleft : (t.thread i).pc.left = (T.routine i).turn (is.count i)) (hdev : t.device = s.device) :
    U.Kept (is ++ [i]) t where
  idle hi := by simp [hi i] at hbusy
  inside j hj := by
    have := hone j hj
    subst this
    exact ⟨is, s.device, [], rfl, h.idle hidle, hleft, hdev⟩

theorem kept_store {i : ι} {w : α} (h : U.Kept is s) (hone : ∀ j, t.busy j = 1 → j = i) (hs : s.busy i = 1)
    (ht : t.busy i = 1) (hleft : (s.thread i).pc.left = w :: (t.thread i).pc.left)
    (hdev : t.device = T.put s.device w) : U.Kept is t where
  idle hi := by simp [hi i] at ht
  inside j hj := by
    have := hone j hj
    subst this
    obtain ⟨js, d, vs, his, hd, hvs, hafter⟩ := h.inside j hs
    refine ⟨js, d, vs ++ [w], his, hd, ?_, ?_⟩
    · rw [← hvs, hleft, List.append_assoc, List.singleton_append]
    · rw [hdev, hafter]
      simp [after]

theorem kept_leave {i : ι} (h : U.Kept is s) (hs : s.busy i = 1) (hleft : (s.thread i).pc.left = [])
    (hout : ∀ j, t.busy j = 0) (hdev : t.device = s.device) : U.Kept is t where
  idle _ := by
    rw [hdev]
    exact (h.inside i hs).closed hleft
  inside j hj := by simp [hout j] at hj

/-- A step of thread `i` that makes no store and stays inside or outside. -/
theorem kept_stay {i : ι} (h : U.Kept is s) (hr : T.run s i = some t) (hbusy : t.busy i = s.busy i)
    (hleft : (t.thread i).pc.left = (s.thread i).pc.left) (hdev : t.device = s.device) : U.Kept is t := by
  have hall : ∀ j, t.busy j = s.busy j ∧ (t.thread j).pc.left = (s.thread j).pc.left := by
    intro j
    by_cases hj : j = i
    · subst hj
      exact ⟨hbusy, hleft⟩
    · simp only [busy_eq, run_other hr hj, and_self]
  exact h.congr (fun j => (hall j).1) (fun j => (hall j).2) hdev

theorem kept_move {i : ι} (hl : ∀ i, 0 < (T.routine i).loops) (hrun : (T.machine flag).Run es s)
    (h : U.Kept (sections T flag es) s) (hr : T.run s i = some t) :
    U.Kept (sections T flag es ++ (enters s (.run i)).toList) t := by
  have hstep : (T.machine flag).step s (.run i) = some t := hr
  have hs : (T.machine flag).Reach s := ⟨es, hrun⟩
  have ht : (T.machine flag).Reach t := ⟨es ++ [.run i], Machine.execFrom_snoc hrun hstep⟩
  have hp := progress hl hrun i
  have hone : t.busy i = 1 → ∀ j, t.busy j = 1 → j = i := fun hi j hj => busy_exclusive ht hj hi
  have hmove := run_cases hr
  cases hmove with
  | acquire hpc hfull =>
    have hin : ((s.setSem i .empty).goto i (.work ((T.routine i).work (s.thread i).i))).busy i = 1 := by
      simp [busy_eq, Pc.phase, HandOver.Phase.busy]
    simp only [Progress, hpc] at hp
    simp only [enters, hpc]
    exact kept_enter h (idle_of_full hs hfull) (hone hin) hin (by simp [Pc.left, Routine.turn, hp]) rfl
  | work w ws hpc =>
    have hbefore : s.busy i = 1 := by simp [busy_eq, hpc, Pc.phase, HandOver.Phase.busy]
    have hin : ((s.setDevice (T.put s.device w)).goto i (.work ws)).busy i = 1 := by
      simp [busy_eq, Pc.phase, HandOver.Phase.busy]
    simp only [enters, hpc, Option.toList_none, List.append_nil]
    exact kept_store h (hone hin) hbefore hin (by simp [Pc.left, hpc]) rfl
  | test hpc =>
    simp only [enters, hpc, Option.toList_none, List.append_nil]
    exact kept_stay h hr (by simp [busy_eq, hpc, Pc.phase, HandOver.Phase.busy]) (by simp [hpc, Pc.left]) rfl
  | release k hpc =>
    have hbefore : s.busy i = 1 := by simp [busy_eq, hpc, Pc.phase, HandOver.Phase.busy]
    simp only [enters, hpc, Option.toList_none, List.append_nil]
    refine kept_leave h hbefore (by simp [Pc.left, hpc]) ?_ rfl
    intro j
    by_cases hj : j = i
    · simp [hj, busy_eq, Pc.phase, HandOver.Phase.busy]
    · rw [busy_eq, run_other hr hj]
      exact Nat.eq_zero_of_not_pos fun hpos => hj (busy_exclusive hs (busy_one hpos) hbefore)
  | rest w ws hpc =>
    simp only [Progress, hpc] at hp
    obtain ⟨_, _, _, hws⟩ := hp
    simp only [enters, hpc, Option.toList_none, List.append_nil]
    refine kept_stay h hr (by simp [busy_eq, hpc, Pc.phase]) (by simp [hpc, Pc.left]) ?_
    exact U.rest i w (hws.subset (.head _)) s.device
  | loop hpc =>
    simp only [enters, hpc, Option.toList_none, List.append_nil]
    exact kept_stay h hr (by simp [busy_eq, hpc, Pc.phase]) (by simp [hpc, Pc.left]) rfl

theorem kept (hl : ∀ i, 0 < (T.routine i).loops) (h : (T.machine flag).Run es s) : U.Kept (sections T flag es) s := by
  refine Machine.run_induction (P := fun es s => U.Kept (sections T flag es) s) ?_ ?_ h
  · exact ⟨fun _ => U.start, fun _ hi => by cases hi⟩
  · intro es s e t hrun hkept he
    rw [sections_snoc hrun he]
    cases e with
    | setFlag b =>
      cases he
      simpa [enters] using hkept.congr (t := { s with flag := b }) (fun _ => rfl) (fun _ => rfl) rfl
    | run i => exact kept_move hl hrun hkept he

/-- Inside a section the device is at one of the section's points. -/
theorem at_point (hl : ∀ i, 0 < (T.routine i).loops) (h : (T.machine flag).Run es s) (hi : s.busy i = 1) :
    ∃ js d, sections T flag es = js ++ [i] ∧ U.holds js d ∧ (s.thread i).i = js.count i % (T.routine i).loops ∧
      s.device ∈ Stores.points T.put d ((T.routine i).turn (js.count i)) := by
  have hkept : U.Kept (sections T flag es) s := kept hl h
  obtain ⟨js, d, vs, his, hd, hvs, hdev⟩ := hkept.inside i hi
  obtain ⟨k, hn, hk⟩ := progress_busy (progress hl h i) hi
  rw [his, List.count_append, List.count_singleton_self] at hn
  have hjs : k = js.count i := by omega
  subst hjs
  refine ⟨js, d, his, hd, hk, ?_⟩
  rw [hdev, ← hvs]
  exact Stores.after_mem_points

/-- With no store of a section left, the assertion holds. -/
theorem settled (hl : ∀ i, 0 < (T.routine i).loops) (h : (T.machine flag).Run es s)
    (hleft : ∀ i, (s.thread i).pc.left = []) : U.holds (sections T flag es) s.device := by
  have hkept : U.Kept (sections T flag es) s := kept hl h
  by_cases hbusy : ∃ i, s.busy i = 1
  · obtain ⟨i, hi⟩ := hbusy
    exact (hkept.inside i hi).closed (hleft i)
  · refine hkept.idle fun i => Nat.eq_zero_of_not_pos fun hpos => hbusy ⟨i, busy_one hpos⟩

end Upkeep

/-! ## A view of the device -/

section View

variable {δ' : Type} (T : Team ι α δ) (f : δ → δ') (put' : δ' → α → δ')

def Team.view : Team ι α δ' := { T with put := put', device := f T.device }

omit [DecidableEq ι] in
def St.view (s : St ι α δ) : St ι α δ' := { s with device := f s.device }

variable {T f put'}

theorem view_step (hput : ∀ d w, put' (f d) w = f (T.put d w)) (s : St ι α δ) (e : Ev ι) :
    (T.view f put').step (s.view f) e = (T.step s e).map (St.view f) := by
  cases e with
  | setFlag b => rfl
  | run i =>
    simp only [Team.step, Team.run]
    have hpc : ((s.view f).thread i).pc = (s.thread i).pc := rfl
    rw [hpc]
    cases (s.thread i).pc with
    | acquire =>
      show Option.map _ (s.sem i).acquire = (Option.map _ (s.sem i).acquire).map _
      cases (s.sem i).acquire with
      | none => rfl
      | some k => rfl
    | work ws =>
      cases ws with
      | nil => rfl
      | cons w ws => exact congrArg (fun d => some ((St.setDevice (s.view f) d).goto i (.work ws))) (hput s.device w)
    | release j => rfl
    | rest ws =>
      cases ws with
      | nil => rfl
      | cons w ws => exact congrArg (fun d => some ((St.setDevice (s.view f) d).goto i (.rest ws))) (hput s.device w)

end View

end RobotCar.Lib.Turns
