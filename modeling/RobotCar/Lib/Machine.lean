/-
  RobotCar.Lib.Machine — step machines that run: a start state and, for each event, a
  partial step. A schedule is a list of events; an event that is not enabled ends it.

  - `execFrom` runs a schedule, `trail` is every state it visits, `log` what an
    observer of (state, event) pairs notes on the way.
  - `run_induction` / `invariant`: what one step preserves, every run preserves.
  - `Simulation`: a relation to a second system that each step keeps, taking the step
    `lab` names there or none; a run is then matched by the run of its own log
    (`Simulation.exec`), state by state (`Simulation.trail`). Simulations compose
    (`Simulation.comp`).
-/

namespace RobotCar.Lib

structure Machine (σ ε : Type) where
  init : σ
  step : σ → ε → Option σ

namespace Machine

variable {σ ε τ δ ω : Type} (M : Machine σ ε)

def execFrom : σ → List ε → Option σ
  | s, [] => some s
  | s, e :: es =>
    match M.step s e with
    | some t => execFrom t es
    | none => none

/-- Every state a schedule visits, the one it starts in included. -/
def trail : σ → List ε → List σ
  | s, [] => [s]
  | s, e :: es =>
    match M.step s e with
    | some t => s :: trail t es
    | none => [s]

/-- What `obs` notes of the steps a schedule takes. -/
def log (obs : σ → ε → Option ω) : σ → List ε → List ω
  | _, [] => []
  | s, e :: es =>
    match M.step s e with
    | some t => (obs s e).toList ++ log obs t es
    | none => []

def Run (es : List ε) (s : σ) : Prop := M.execFrom M.init es = some s

instance [DecidableEq σ] (es : List ε) (s : σ) : Decidable (M.Run es s) := inferInstanceAs (Decidable (_ = _))

def Reach (s : σ) : Prop := ∃ es, M.Run es s

variable {M} {s t u : σ} {e : ε} {es fs : List ε}

/-! ## Schedules end to end -/

@[simp] theorem execFrom_nil : M.execFrom s [] = some s := rfl

theorem execFrom_cons : M.execFrom s (e :: es) = some t ↔ ∃ u, M.step s e = some u ∧ M.execFrom u es = some t := by
  simp only [execFrom]
  cases M.step s e with
  | none => simp
  | some v => simp

theorem execFrom_append : M.execFrom s (es ++ fs) = some t ↔ ∃ u, M.execFrom s es = some u ∧ M.execFrom u fs = some t := by
  induction es generalizing s with
  | nil => simp
  | cons e es ih =>
    simp only [List.cons_append, execFrom_cons, ih]
    constructor
    · intro h
      obtain ⟨v, hv, u, hu, ht⟩ := h
      exact ⟨u, ⟨v, hv, hu⟩, ht⟩
    · intro h
      obtain ⟨u, ⟨v, hv, hu⟩, ht⟩ := h
      exact ⟨v, hv, u, hu, ht⟩

theorem execFrom_snoc (h : M.execFrom s es = some t) (he : M.step t e = some u) : M.execFrom s (es ++ [e]) = some u :=
  execFrom_append.mpr ⟨t, h, execFrom_cons.mpr ⟨u, he, rfl⟩⟩

theorem Run.append (hs : M.Run es s) (h : M.execFrom s fs = some t) : M.Run (es ++ fs) t :=
  execFrom_append.mpr ⟨s, hs, h⟩

theorem trail_snoc (h : M.execFrom s es = some t) (he : M.step t e = some u) :
    M.trail s (es ++ [e]) = M.trail s es ++ [u] := by
  induction es generalizing s with
  | nil =>
    cases h
    simp [trail, he]
  | cons a es ih =>
    obtain ⟨v, hv, hr⟩ := execFrom_cons.mp h
    simp [trail, hv, ih hr]

theorem log_snoc (obs : σ → ε → Option ω) (h : M.execFrom s es = some t) (he : M.step t e = some u) :
    M.log obs s (es ++ [e]) = M.log obs s es ++ (obs t e).toList := by
  induction es generalizing s with
  | nil =>
    cases h
    simp [log, he]
  | cons a es ih =>
    obtain ⟨v, hv, hr⟩ := execFrom_cons.mp h
    simp [log, hv, ih hr]

theorem log_append (obs : σ → ε → Option ω) (h : M.execFrom s es = some t) :
    M.log obs s (es ++ fs) = M.log obs s es ++ M.log obs t fs := by
  induction es generalizing s with
  | nil =>
    cases h
    rfl
  | cons a es ih =>
    obtain ⟨v, hv, hr⟩ := execFrom_cons.mp h
    simp [log, hv, ih hr]

/-- An observer of what another one notes. -/
theorem log_bind {obs : σ → ε → Option ω} {g : ω → Option τ} :
    M.log (fun s e => (obs s e).bind g) s es = (M.log obs s es).filterMap g := by
  induction es generalizing s with
  | nil => rfl
  | cons e es ih =>
    simp only [log]
    cases M.step s e with
    | none => rfl
    | some t =>
      simp only [ih, List.filterMap_append]
      cases obs s e <;> rfl

/-- An observer that notes every event writes the schedule down. -/
theorem log_all (h : M.execFrom s es = some t) : M.log (fun _ e => some e) s es = es := by
  induction es generalizing s with
  | nil => rfl
  | cons e es ih =>
    obtain ⟨v, hv, hr⟩ := execFrom_cons.mp h
    simp [log, hv, ih hr]

theorem start_mem_trail : s ∈ M.trail s es := by
  cases es with
  | nil => simp [trail]
  | cons e es =>
    simp only [trail]
    split <;> simp

theorem end_mem_trail (h : M.execFrom s es = some t) : t ∈ M.trail s es := by
  induction es generalizing s with
  | nil =>
    cases h
    exact start_mem_trail
  | cons e es ih =>
    obtain ⟨u, hu, ht⟩ := execFrom_cons.mp h
    simp only [trail, hu]
    exact .tail _ (ih ht)

/-- Every state on the way is reached by the first part of the schedule. -/
theorem exec_of_mem_trail (h : u ∈ M.trail s es) : ∃ fs, fs <+: es ∧ M.execFrom s fs = some u := by
  induction es generalizing s with
  | nil =>
    cases List.mem_singleton.mp h
    exact ⟨[], List.nil_prefix, rfl⟩
  | cons e es ih =>
    simp only [trail] at h
    split at h
    · rename_i v hv
      rcases List.mem_cons.mp h with rfl | h
      · exact ⟨[], List.nil_prefix, rfl⟩
      · obtain ⟨fs, hpre, hfs⟩ := ih h
        exact ⟨e :: fs, List.cons_prefix_cons.mpr ⟨rfl, hpre⟩, execFrom_cons.mpr ⟨v, hv, hfs⟩⟩
    · cases List.mem_singleton.mp h
      exact ⟨[], List.nil_prefix, rfl⟩

/-! ## Invariants -/

/-- A fact about the schedule so far and the state it led to, by its last step. -/
theorem exec_induction {P : List ε → σ → Prop} (h0 : P [] s)
    (hs : ∀ es t e u, M.execFrom s es = some t → P es t → M.step t e = some u → P (es ++ [e]) u)
    (h : M.execFrom s es = some t) : P es t := by
  suffices ∀ fs pre v, M.execFrom s pre = some v → P pre v → M.execFrom v fs = some t → P (pre ++ fs) t from
    this es [] s rfl h0 h
  intro fs
  induction fs with
  | nil =>
    intro pre v _ hp ht
    cases ht
    simpa using hp
  | cons e fs ih =>
    intro pre v hv hp ht
    obtain ⟨w, hw, ht⟩ := execFrom_cons.mp ht
    simpa using ih (pre ++ [e]) w (execFrom_snoc hv hw) (hs pre v e w hv hp hw) ht

/-- What a schedule keeps of which an observer notes nothing. -/
theorem exec_quiet {P : σ → Prop} {obs : σ → ε → Option ω}
    (hs : ∀ s e t, e ∈ es → obs s e = none → P s → M.step s e = some t → P t)
    (h : M.execFrom s es = some t) (hquiet : M.log obs s es = []) (h0 : P s) : P t := by
  induction es generalizing s with
  | nil =>
    cases h
    exact h0
  | cons e es ih =>
    obtain ⟨u, hu, h⟩ := execFrom_cons.mp h
    simp only [log, hu, List.append_eq_nil_iff, Option.toList_eq_nil_iff] at hquiet
    have hnext : P u := hs s e u (.head _) hquiet.1 h0 hu
    exact ih (fun s e t he => hs s e t (.tail _ he)) h hquiet.2 hnext

theorem run_induction {P : List ε → σ → Prop} (h0 : P [] M.init)
    (hs : ∀ es t e u, M.Run es t → P es t → M.step t e = some u → P (es ++ [e]) u) (h : M.Run es s) : P es s :=
  exec_induction h0 hs h

theorem invariant {I : σ → Prop} (h0 : I M.init) (hs : ∀ s e t, I s → M.step s e = some t → I t) (h : M.Reach s) :
    I s := by
  obtain ⟨es, h⟩ := h
  exact run_induction (P := fun _ s => I s) h0 (fun _ t e u _ hi he => hs t e u hi he) h

end Machine

/-! ## Simulation -/

/-- A relation from `M` to `A` kept by every step of `M`: `A` takes the step `lab` names
    or, where it names none, stays. -/
structure Simulation {σ ε τ δ : Type} (M : Machine σ ε) (A : Machine τ δ) where
  rel : σ → τ → Prop
  lab : σ → ε → Option δ
  init : rel M.init A.init
  step : ∀ {s a e t}, rel s a → M.step s e = some t →
    match lab s e with
    | some d => ∃ b, A.step a d = some b ∧ rel t b
    | none => rel t a

namespace Simulation

open Machine

variable {σ ε τ δ : Type} {M : Machine σ ε} {A : Machine τ δ} (R : Simulation M A) {s t : σ} {a : τ} {es : List ε}

theorem exec (hr : R.rel s a) (h : M.execFrom s es = some t) :
    ∃ b, A.execFrom a (M.log R.lab s es) = some b ∧ R.rel t b := by
  induction es generalizing s a with
  | nil =>
    cases h
    exact ⟨a, rfl, hr⟩
  | cons e es ih =>
    obtain ⟨u, hu, ht⟩ := execFrom_cons.mp h
    have hs := R.step hr hu
    simp only [log, hu]
    cases hl : R.lab s e with
    | none =>
      simp only [hl] at hs
      simpa using ih hs ht
    | some d =>
      simp only [hl] at hs
      obtain ⟨c, hc, hrc⟩ := hs
      obtain ⟨b, hb, hrb⟩ := ih hrc ht
      exact ⟨b, execFrom_cons.mpr ⟨c, hc, hb⟩, hrb⟩

/-- Every state the matching run visits is that of one on the way. -/
theorem trail (hr : R.rel s a) (h : M.execFrom s es = some t) {b : τ} (hb : b ∈ A.trail a (M.log R.lab s es)) :
    ∃ u ∈ M.trail s es, R.rel u b := by
  induction es generalizing s a with
  | nil =>
    cases List.mem_singleton.mp hb
    exact ⟨s, start_mem_trail, hr⟩
  | cons e es ih =>
    obtain ⟨u, hu, ht⟩ := execFrom_cons.mp h
    have hs := R.step hr hu
    simp only [log, hu] at hb
    simp only [Machine.trail, hu]
    cases hl : R.lab s e with
    | none =>
      simp only [hl, Option.toList_none, List.nil_append] at hs hb
      obtain ⟨v, hv, hrel⟩ := ih hs ht hb
      exact ⟨v, .tail _ hv, hrel⟩
    | some d =>
      simp only [hl, Option.toList_some, List.singleton_append] at hs hb
      obtain ⟨c, hc, hrc⟩ := hs
      simp only [Machine.trail, hc] at hb
      rcases List.mem_cons.mp hb with rfl | hb
      · exact ⟨s, .head _, hr⟩
      · obtain ⟨v, hv, hrel⟩ := ih hrc ht hb
        exact ⟨v, .tail _ hv, hrel⟩

/-- What an observer notes who sees the steps of `M` only through `A`. -/
theorem log_eq {ω : Type} {obs : σ → ε → Option ω} {obs' : τ → δ → Option ω}
    (hobs : ∀ s a e, R.rel s a → obs s e = (R.lab s e).bind (obs' a)) (hr : R.rel s a)
    (h : M.execFrom s es = some t) : M.log obs s es = A.log obs' a (M.log R.lab s es) := by
  induction es generalizing s a with
  | nil => rfl
  | cons e es ih =>
    obtain ⟨u, hu, ht⟩ := execFrom_cons.mp h
    have hs := R.step hr hu
    simp only [log, hu, hobs s a e hr]
    cases hl : R.lab s e with
    | none =>
      simp only [hl] at hs
      simpa using ih hs ht
    | some d =>
      simp only [hl] at hs
      obtain ⟨c, hc, hrc⟩ := hs
      simp [log, hc, ih hrc ht]

theorem reach (h : M.Reach s) : ∃ a, A.Reach a ∧ R.rel s a := by
  obtain ⟨es, h⟩ := h
  obtain ⟨a, ha, hr⟩ := R.exec R.init h
  exact ⟨a, ⟨_, ha⟩, hr⟩

/-- One simulation after another, where the first finds the state of `A` in that of `M`. -/
def comp {υ ζ : Type} {B : Machine υ ζ} (R : Simulation M A) (Q : Simulation A B) (part : σ → τ)
    (hpart : ∀ {s a}, R.rel s a → part s = a) : Simulation M B where
  rel s b := R.rel s (part s) ∧ Q.rel (part s) b
  lab s e := (R.lab s e).bind (Q.lab (part s))
  init := by
    have hinit := hpart R.init
    rw [hinit]
    exact ⟨R.init, Q.init⟩
  step := by
    intro s b e t hrel h
    obtain ⟨hr, hq⟩ := hrel
    have hs := R.step hr h
    cases hl : R.lab s e with
    | none =>
      simp only [hl] at hs
      have ht := hpart hs
      simp only [Option.bind_none]
      exact ⟨ht ▸ hs, ht ▸ hq⟩
    | some d =>
      simp only [hl] at hs
      obtain ⟨c, hc, hs⟩ := hs
      cases hpart hs
      have hstep := Q.step hq hc
      simp only [Option.bind_some]
      cases hk : Q.lab (part s) d with
      | none =>
        simp only [hk] at hstep
        exact ⟨hs, hstep⟩
      | some k =>
        simp only [hk] at hstep
        obtain ⟨b', hb, hq'⟩ := hstep
        exact ⟨b', hb, hs, hq'⟩

end Simulation

end RobotCar.Lib
