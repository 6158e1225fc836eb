/-
  RobotCar.Lib.HandOver — threads that take turns by handing one token round. Thread `i`
  waits on its own binary semaphore, works, looks at a shared mode and releases the
  semaphore of the thread the mode names; looking and releasing are two steps, and the
  mode may change at any time.

  `Token` is what the scheme is for: one token, at one place. `Crew` is how it is built,
  from semaphores and program counters. `crewToken` simulates the crew by the token, so
  in every reachable state of the crew, and of any system simulated by one:
  - `Rep.one_token`: the semaphores' counts and the threads between acquire and release
    add up to one;
  - `Rep.exclusive`, `Rep.empty_of_busy`, `Rep.never_stuck`: two threads never work at
    once, a release never meets a full semaphore, and some thread holds the token or can
    take it.
  While the mode stays at `m`, the threads other than `m` take the token at most once
  between them (`stale_le_one`, `acquires_le_one`), and every turn but the first is `m`'s
  (`turns_settle`).
-/

import Mathlib.Algebra.BigOperators.Group.Finset.Piecewise
import RobotCar.Lib.Machine
import RobotCar.Lib.Semaphore

namespace RobotCar.Lib.HandOver

variable {ι : Type} [DecidableEq ι]

inductive Ev (ι : Type) where
  | acquire (i : ι)
  | test (i : ι)
  | release (i : ι)
  | setMode (m : ι)
  deriving DecidableEq

/-! ## One token -/

inductive Place (ι : Type) where
  /-- In the semaphore of `i`. -/
  | free (i : ι)
  | held (i : ι)
  /-- With `i`, which has looked at the mode and will release the semaphore of `j`. -/
  | going (i j : ι)

structure Token (ι : Type) where
  place : Place ι
  mode : ι

def Token.step (a : Token ι) : Ev ι → Option (Token ι)
  | .acquire i =>
    match a.place with
    | .free j => if j = i then some { a with place := .held i } else none
    | _ => none
  | .test i =>
    match a.place with
    | .held j => if j = i then some { a with place := .going i a.mode } else none
    | _ => none
  | .release i =>
    match a.place with
    | .going j k => if j = i then some { a with place := .free k } else none
    | _ => none
  | .setMode m => some { a with mode := m }

def token (start mode : ι) : Machine (Token ι) (Ev ι) := ⟨⟨.free start, mode⟩, Token.step⟩

/-! ## The crew -/

inductive Phase (ι : Type) where
  | out
  | inside
  | chosen (next : ι)
  deriving DecidableEq

/-- One for a thread between its acquire and its release. -/
def Phase.busy : Phase ι → Nat
  | .out => 0
  | _ => 1

omit [DecidableEq ι] in
theorem Phase.busy_eq_one {p : Phase ι} : p.busy = 1 ↔ p ≠ .out := by
  cases p <;> simp [busy]

structure Crew (ι : Type) where
  sem : ι → Semaphore 1
  phase : ι → Phase ι
  mode : ι

def Crew.step (s : Crew ι) : Ev ι → Option (Crew ι)
  | .acquire i =>
    match s.phase i, (s.sem i).acquire with
    | .out, some f => some { s with sem := Function.update s.sem i f, phase := Function.update s.phase i .inside }
    | _, _ => none
  | .test i =>
    match s.phase i with
    | .inside => some { s with phase := Function.update s.phase i (.chosen s.mode) }
    | _ => none
  | .release i =>
    match s.phase i with
    | .chosen j =>
      some { s with sem := Function.update s.sem j (s.sem j).release, phase := Function.update s.phase i .out }
    | _ => none
  | .setMode m => some { s with mode := m }

/-- The semaphore of `start` is created with one token, the others with none. -/
def crew (start mode : ι) : Machine (Crew ι) (Ev ι) where
  init := ⟨fun i => if i = start then .full else .empty, fun _ => .out, mode⟩
  step := Crew.step

/-! ## The crew keeps one token -/

def Place.count : Place ι → ι → Nat
  | .free j, i => if j = i then 1 else 0
  | _, _ => 0

def Place.phase : Place ι → ι → Phase ι
  | .free _, _ => .out
  | .held j, i => if j = i then .inside else .out
  | .going j k, i => if j = i then .chosen k else .out

/-- The thread whose semaphore or hands the token is in. -/
def Place.owner : Place ι → ι
  | .free i => i
  | .held i => i
  | .going i _ => i

structure Rep (s : Crew ι) (a : Token ι) : Prop where
  count : ∀ i, (s.sem i).count = a.place.count i
  phase : ∀ i, s.phase i = a.place.phase i
  mode : s.mode = a.mode

theorem rep_step {s t : Crew ι} {a : Token ι} {e : Ev ι} (h : Rep s a) (hs : s.step e = some t) :
    ∃ b, a.step e = some b ∧ Rep t b := by
  cases e with
  | acquire i =>
    simp only [Crew.step] at hs
    split at hs
    · rename_i f _ hf
      cases hs
      obtain ⟨hfull, hempty⟩ := Semaphore.acquire_binary.mp hf
      have h1 : (s.sem i).count = 1 := congrArg Semaphore.count hfull
      have h0 : f.count = 0 := congrArg Semaphore.count hempty
      cases hp : a.place with
      | free j =>
        have hc := h.count i
        simp only [hp, Place.count, h1] at hc
        have hj : j = i := by
          by_contra hne
          simp [hne] at hc
        subst hj
        refine ⟨{ a with place := .held j }, by simp [Token.step, hp], ⟨?_, ?_, h.mode⟩⟩
        · intro k
          by_cases hk : k = j
          · simp [hk, h0, Place.count]
          · simpa [hk, hp, Place.count, Ne.symm hk] using h.count k
        · intro k
          by_cases hk : k = j
          · simp [hk, Place.phase]
          · simpa [hk, hp, Place.phase, Ne.symm hk] using h.phase k
      | held j => simp [h.count i, hp, Place.count] at h1
      | going j k => simp [h.count i, hp, Place.count] at h1
    · cases hs
  | test i =>
    simp only [Crew.step] at hs
    split at hs
    · rename_i hi
      cases hs
      have hj := (h.phase i).symm.trans hi
      cases hp : a.place with
      | held j =>
        simp only [hp, Place.phase, ite_eq_left_iff, reduceCtorEq, imp_false, not_not] at hj
        subst hj
        refine ⟨{ a with place := .going j a.mode }, by simp [Token.step, hp], ⟨?_, ?_, h.mode⟩⟩
        · intro k
          simpa [hp, Place.count] using h.count k
        · intro k
          by_cases hk : k = j
          · simp [hk, Place.phase, h.mode]
          · simpa [hk, hp, Place.phase, Ne.symm hk] using h.phase k
      | free j => simp [hp, Place.phase] at hj
      | going j k =>
        simp only [hp, Place.phase] at hj
        split at hj <;> cases hj
    · cases hs
  | release i =>
    simp only [Crew.step] at hs
    split at hs
    · rename_i k hi
      cases hs
      have hj := (h.phase i).symm.trans hi
      cases hp : a.place with
      | going j l =>
        simp only [hp, Place.phase] at hj
        split at hj
        · rename_i hji
          cases hj
          subst hji
          refine ⟨{ a with place := .free k }, by simp [Token.step, hp], ⟨?_, ?_, h.mode⟩⟩
          · intro n
            by_cases hn : n = k
            · simp [hn, Place.count, Semaphore.full]
            · simpa [hn, hp, Place.count, Ne.symm hn] using h.count n
          · intro n
            by_cases hn : n = j
            · simp [hn, Place.phase]
            · simpa [hn, hp, Place.phase, Ne.symm hn] using h.phase n
        · cases hj
      | free j => simp [hp, Place.phase] at hj
      | held j =>
        simp only [hp, Place.phase] at hj
        split at hj <;> cases hj
    · cases hs
  | setMode m =>
    cases hs
    exact ⟨{ a with mode := m }, rfl, ⟨h.count, h.phase, rfl⟩⟩

def crewToken (start mode : ι) : Simulation (crew start mode) (token start mode) where
  rel := Rep
  lab _ e := some e
  init := by
    refine ⟨?_, fun _ => rfl, rfl⟩
    intro i
    by_cases h : i = start
    · simp [crew, token, Place.count, h, Semaphore.full]
    · simp [crew, token, Place.count, h, Ne.symm h, Semaphore.empty]
  step h hs := rep_step h hs

theorem reach_rep {start mode : ι} {s : Crew ι} (h : (crew start mode).Reach s) : ∃ a, Rep s a := by
  obtain ⟨a, _, ha⟩ := (crewToken start mode).reach h
  exact ⟨a, ha⟩

section Reachable

variable {s : Crew ι} {a : Token ι}

theorem Rep.share (h : Rep s a) (i : ι) : (s.sem i).count + (s.phase i).busy = if a.place.owner = i then 1 else 0 := by
  rw [h.count, h.phase]
  cases a.place with
  | free j => by_cases hj : j = i <;> simp [Place.count, Place.phase, Place.owner, Phase.busy, hj]
  | held j => by_cases hj : j = i <;> simp [Place.count, Place.phase, Place.owner, Phase.busy, hj]
  | going j k => by_cases hj : j = i <;> simp [Place.count, Place.phase, Place.owner, Phase.busy, hj]

theorem Rep.one_token [Fintype ι] (h : Rep s a) : ∑ i, ((s.sem i).count + (s.phase i).busy) = 1 := by
  rw [Finset.sum_congr rfl fun i _ => h.share i, Finset.sum_ite_eq Finset.univ a.place.owner fun _ => 1]
  simp

theorem Rep.owner_of_busy (h : Rep s a) {i : ι} (hi : s.phase i ≠ .out) : a.place.owner = i := by
  have hs := h.share i
  by_contra hne
  rw [if_neg hne] at hs
  cases hp : s.phase i with
  | out => exact hi hp
  | inside => simp [hp, Phase.busy] at hs
  | chosen j => simp [hp, Phase.busy] at hs

theorem Rep.exclusive (h : Rep s a) {i j : ι} (hi : s.phase i ≠ .out) (hj : s.phase j ≠ .out) : i = j :=
  (h.owner_of_busy hi).symm.trans (h.owner_of_busy hj)

/-- While any thread is between its acquire and its release every semaphore is empty. -/
theorem Rep.empty_of_busy (h : Rep s a) {i : ι} (hi : s.phase i ≠ .out) (j : ι) : (s.sem j).count = 0 := by
  rw [h.count j]
  rw [h.phase i] at hi
  cases hp : a.place with
  | free k => simp [hp, Place.phase] at hi
  | held k => rfl
  | going k l => rfl

theorem Rep.never_stuck (h : Rep s a) : ∃ i, s.phase i ≠ .out ∨ (s.sem i).count = 1 := by
  refine ⟨a.place.owner, ?_⟩
  have hs := h.share a.place.owner
  rw [if_pos rfl] at hs
  cases hp : s.phase a.place.owner with
  | out =>
    simp only [hp, Phase.busy] at hs
    exact Or.inr (by omega)
  | inside => exact Or.inl (by simp)
  | chosen j => exact Or.inl (by simp)

end Reachable

/-! ## Stale turns -/

/-- Taking the token as a thread other than the one the mode names. -/
def stale (m : ι) : Ev ι → Bool
  | .acquire i => decide (i ≠ m)
  | _ => false

/-- The stale turns still to come while the mode stays at `m`. -/
def Place.due (m : ι) : Place ι → Nat
  | .free i => if i = m then 0 else 1
  | .held _ => 0
  | .going _ j => if j = m then 0 else 1

theorem due_step {m : ι} {a b : Token ι} {e : Ev ι} (hm : a.mode = m) (he : ∀ j, e = .setMode j → j = m)
    (h : a.step e = some b) : b.mode = m ∧ (if stale m e then 1 else 0) + b.place.due m ≤ a.place.due m := by
  cases e with
  | acquire i =>
    simp only [Token.step] at h
    split at h
    · rename_i j hp
      split at h
      · rename_i hj
        cases h
        subst hj
        refine ⟨hm, ?_⟩
        by_cases hjm : j = m <;> simp [stale, Place.due, hp, hjm]
      · cases h
    · cases h
  | test i =>
    simp only [Token.step] at h
    split at h
    · split at h
      · cases h
        exact ⟨hm, by simp [stale, Place.due, hm]⟩
      · cases h
    · cases h
  | release i =>
    simp only [Token.step] at h
    split at h
    · rename_i j k hp
      split at h
      · cases h
        exact ⟨hm, by simp [stale, Place.due, hp]⟩
      · cases h
    · cases h
  | setMode j =>
    cases h
    exact ⟨he j rfl, by simp [stale]⟩

theorem due_run {m start mode : ι} {a b : Token ι} {es : List (Ev ι)} (hm : a.mode = m)
    (he : ∀ j, .setMode j ∈ es → j = m) (h : (token start mode).execFrom a es = some b) :
    es.countP (stale m) + b.place.due m ≤ a.place.due m := by
  induction es generalizing a with
  | nil =>
    cases h
    simp
  | cons e es ih =>
    obtain ⟨c, hc, h⟩ := Machine.execFrom_cons.mp h
    obtain ⟨hcm, hle⟩ := due_step hm (fun j hj => he j (hj ▸ .head _)) hc
    have := ih hcm (fun j hj => he j (.tail _ hj)) h
    rw [List.countP_cons]
    omega

/-- In a run of the crew that starts where the token is represented, while the mode stays
    at `m` the other threads take the token at most once between them. -/
theorem stale_le_one {m start mode : ι} {s t : Crew ι} {a : Token ι} {es : List (Ev ι)} (hr : Rep s a) (hm : s.mode = m)
    (he : ∀ j, .setMode j ∈ es → j = m) (h : (crew start mode).execFrom s es = some t) :
    es.countP (stale m) ≤ 1 := by
  obtain ⟨b, hb, _⟩ := (crewToken start mode).exec hr h
  have hl : (crew start mode).log (crewToken start mode).lab s es = es := Machine.log_all h
  rw [hl] at hb
  have := due_run (hr.mode.symm.trans hm) he hb
  have hle : a.place.due m ≤ 1 := by
    cases a.place <;> simp only [Place.due] <;> (try split) <;> omega
  omega

/-! ## Turns -/

def acquirer? : Ev ι → Option ι
  | .acquire i => some i
  | _ => none

/-- Who took the token, in order. -/
def turns (es : List (Ev ι)) : List ι := es.filterMap acquirer?

omit [DecidableEq ι] in
theorem mem_turns {es : List (Ev ι)} {i : ι} : i ∈ turns es ↔ .acquire i ∈ es := by
  unfold turns
  rw [List.mem_filterMap]
  constructor
  · intro h
    obtain ⟨e, he, hi⟩ := h
    cases e <;> cases hi
    exact he
  · intro h
    exact ⟨_, h, rfl⟩

/-- With no stale turn to come, every turn is `m`'s. -/
theorem turns_of_due {m start mode : ι} {a b : Token ι} {es : List (Ev ι)} (hm : a.mode = m)
    (he : ∀ j, .setMode j ∈ es → j = m) (hd : a.place.due m = 0) (h : (token start mode).execFrom a es = some b) :
    ∀ i ∈ turns es, i = m := by
  have hrun := due_run hm he h
  have hnone : es.countP (stale m) = 0 := by omega
  intro i hi
  have hstale := List.countP_eq_zero.mp hnone _ (mem_turns.mp hi)
  simpa [stale] using hstale

theorem turns_settle {m start mode : ι} {a b : Token ι} {es : List (Ev ι)} (hm : a.mode = m)
    (he : ∀ j, .setMode j ∈ es → j = m) (h : (token start mode).execFrom a es = some b) :
    ∀ i ∈ (turns es).tail, i = m := by
  induction es generalizing a with
  | nil => exact fun i hi => absurd hi List.not_mem_nil
  | cons e es ih =>
    obtain ⟨c, hc, hes⟩ := Machine.execFrom_cons.mp h
    have hrest : ∀ j, .setMode j ∈ es → j = m := fun j hj => he j (.tail _ hj)
    obtain ⟨hcm, _⟩ := due_step hm (fun j hj => he j (hj ▸ .head _)) hc
    cases e with
    | acquire i =>
      -- held, the token goes where the mode says
      refine turns_of_due hcm hrest ?_ hes
      simp only [token, Token.step] at hc
      split at hc
      · split at hc <;> cases hc
        rfl
      · cases hc
    | test i => exact ih hcm hrest hes
    | release i => exact ih hcm hrest hes
    | setMode j => exact ih hcm hrest hes

/-! ## Systems built as a crew -/

section Built

variable {σ ε : Type} {M : Machine σ ε} {start mode : ι} (R : Simulation M (crew start mode)) {s t : σ} {es : List ε}

theorem reach_crew (h : M.Reach s) : ∃ c a, R.rel s c ∧ Rep c a := by
  obtain ⟨c, hc, hrel⟩ := R.reach h
  obtain ⟨a, ha⟩ := reach_rep hc
  exact ⟨c, a, hrel, ha⟩

/-- Where every state of a schedule has the mode at `m`, no other mode is set on the way. -/
theorem modes_log {c : Crew ι} {m : ι} (hr : R.rel s c) (h : M.execFrom s es = some t)
    (hm : ∀ u ∈ M.trail s es, ∀ d, R.rel u d → d.mode = m) : ∀ j, .setMode j ∈ M.log R.lab s es → j = m := by
  intro j hj
  induction es generalizing s c with
  | nil => cases hj
  | cons e es ih =>
    obtain ⟨u, hu, h⟩ := Machine.execFrom_cons.mp h
    simp only [Machine.trail, hu] at hm
    simp only [Machine.log, hu, List.mem_append, Option.mem_toList] at hj
    have hstep := R.step hr hu
    cases hl : R.lab s e with
    | none =>
      simp only [hl] at hstep hj
      rcases hj with hj | hj
      · cases hj
      · exact ih hstep h (fun v hv => hm v (.tail _ hv)) hj
    | some d =>
      simp only [hl] at hstep hj
      obtain ⟨c', hc', hr'⟩ := hstep
      rcases hj with hj | hj
      · cases hj
        cases hc'
        exact hm u (.tail _ Machine.start_mem_trail) _ hr'
      · exact ih hr' h (fun v hv => hm v (.tail _ hv)) hj

theorem acquires_le_one {m i : ι} (hi : i ≠ m) (hs : M.Reach s) (h : M.execFrom s es = some t)
    (hm : ∀ u ∈ M.trail s es, ∀ d, R.rel u d → d.mode = m) : (M.log R.lab s es).count (.acquire i) ≤ 1 := by
  obtain ⟨c, a, hr, ha⟩ := reach_crew R hs
  obtain ⟨d, hd, _⟩ := R.exec hr h
  have hmode : c.mode = m := hm s Machine.start_mem_trail c hr
  have hle := stale_le_one ha hmode (modes_log R hr h hm) hd
  refine Nat.le_trans (List.countP_mono_left ?_) hle
  intro e _ he
  rw [eq_of_beq he]
  simp [stale, hi]

/-- While the mode stays at `m`, every turn but the first is `m`'s. -/
theorem built_turns {m : ι} (hs : M.Reach s) (h : M.execFrom s es = some t)
    (hm : ∀ u ∈ M.trail s es, ∀ d, R.rel u d → d.mode = m) : ∀ i ∈ (turns (M.log R.lab s es)).tail, i = m := by
  obtain ⟨c, a, hr, ha⟩ := reach_crew R hs
  obtain ⟨d, hd, _⟩ := R.exec hr h
  have hmode : c.mode = m := hm s Machine.start_mem_trail c hr
  obtain ⟨b, hb, _⟩ := (crewToken start mode).exec ha hd
  have hall : (crew start mode).log (crewToken start mode).lab c (M.log R.lab s es) = M.log R.lab s es := Machine.log_all hd
  rw [hall] at hb
  exact turns_settle (ha.mode.symm.trans hmode) (modes_log R hr h hm) hb

end Built

end RobotCar.Lib.HandOver
