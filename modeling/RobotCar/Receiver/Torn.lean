/-
  RobotCar.Receiver.Torn — the triples (state, speed, turnFactor) `motorThread` passes to
  `motorControl`. `motorFlag` says that there is a new command; nothing keeps
  `serialThread` from decoding the next one while `motorThread` reads.

  - `torn_triple`: so a triple can be a mixture of two commands.
  - `triple_completed`: it is a `decode`'s own when there is a moment in between the first
    read and the last at which no `decode` has made but a part of its assignments to the
    three, and none is made to one already read before that moment, nor to one still to be
    read after it. And a mixture is never the last triple: a token waits in `motorFlag`, or
    `serialThread` is inside `decode` and will release one.
-/

import RobotCar.Receiver.Motors

namespace RobotCar.Receiver

open RobotCar.Lib

/-- At the end of a `decode`. -/
def SerialPc.returned : SerialPc → Bool
  | .decode _ [] => true
  | _ => false

/-- Between two assignments of a `decode`. -/
def SerialPc.halfDone : SerialPc → Bool
  | .decode _ [] => false
  | .decode b ws => decide (ws ≠ decodeStores b)
  | _ => false

/-- `state`, `speed` or `turnFactor`. -/
def Store.ofTriple : Store → Bool
  | .state _ => true
  | .speed _ => true
  | .turnFactor _ => true
  | _ => false

/-- With a part of its assignments made and one to the triple still to come. -/
def SerialPc.torn : SerialPc → Bool
  | .decode b ws => decide (ws ≠ decodeStores b) && ws.any Store.ofTriple
  | _ => false

/-- The triple held when some `decode` of the run had just ended. -/
def Completed (es : List Ev) (t : Int × Int × BitVec 8) : Prop :=
  ∃ u ∈ robot.trail robot.init es, u.serial.returned = true ∧ u.globals.triple = t

instance (es : List Ev) (t : Int × Int × BitVec 8) : Decidable (Completed es t) :=
  inferInstanceAs (Decidable (∃ _ ∈ _, _ ∧ _))

/-- The triple of a `decode` that has ended, or of the one under way, which has assigned all
    three. -/
def Whole (es : List Ev) (s : St) (t : Int × Int × BitVec 8) : Prop :=
  Completed es t ∨ (s.serial.halfDone = true ∧ s.serial.torn = false ∧ s.globals.triple = t)

/-- The assignments `decode` makes. -/
def storeMade (s : St) : Ev → Option Store
  | .serialThread =>
    match s.serial with
    | .decode _ (w :: _) => some w
    | _ => none
  | _ => none

def MotorPc.hasRead : MotorPc → Store → Bool
  | .args x _ _, .state _ => x.isSome
  | .args _ y _, .speed _ => y.isSome
  | .args _ _ z, .turnFactor _ => z.isSome
  | _, _ => false

def MotorPc.willRead : MotorPc → Store → Bool
  | .args x _ _, .state _ => x.isNone
  | .args _ y _, .speed _ => y.isNone
  | .args _ _ z, .turnFactor _ => z.isNone
  | _, _ => false

/-- An assignment to an argument of `motorControl` that has been read. -/
def outdates (s : St) (e : Ev) : Option Store := (storeMade s e).filter s.motor.hasRead

/-- An assignment to an argument of `motorControl` that is still to be read. -/
def overtakes (s : St) (e : Ev) : Option Store := (storeMade s e).filter s.motor.willRead

/-! ## Completed triples -/

section Completed

variable {es : List Ev} {s u : St} {e : Ev} {t : Int × Int × BitVec 8}

theorem completed_end (h : robot.Run es s) (hr : s.serial.returned = true) : Completed es s.globals.triple :=
  ⟨s, Machine.end_mem_trail h, hr, rfl⟩

theorem completed_snoc (h : robot.Run es s) (he : robot.step s e = some u) :
    Completed (es ++ [e]) t ↔ Completed es t ∨ (u.serial.returned = true ∧ u.globals.triple = t) := by
  unfold Completed
  rw [Machine.trail_snoc h he]
  simp only [List.mem_append, List.mem_singleton, or_and_right, exists_or, exists_eq_left]

end Completed

/-! ## Invariants -/

section Run

variable {es : List Ev} {s : St}

/-- What is left of a `decode` is the end of it. -/
theorem rest_suffix (h : robot.Reach s) : ∀ b ws, s.serial = .decode b ws → ws <:+ decodeStores b := by
  apply Machine.invariant (I := fun s => ∀ b ws, s.serial = .decode b ws → ws <:+ decodeStores b) _ _ h
  · intro b ws hpc
    cases hpc
  · intro s e t hi he b ws hpc
    cases step_cases he with
    | serialAcquire _ _ => cases hpc
    | serialCall _ =>
      cases hpc
      exact List.suffix_refl _
    | store _ w _ hpc' =>
      cases hpc
      exact (List.suffix_cons w ws).trans (hi _ _ hpc')
    | notify _ _ => cases hpc
    | serialWake _ => cases hpc
    | _ => exact hi b ws hpc

/-- `motorThread` is never ahead of the first `decode`. -/
theorem motor_started (h : robot.Run es s) : s.motorFlag = some .full ∨ s.motor ≠ .acquire → ∃ t, Completed es t := by
  apply Machine.run_induction
    (P := fun es s => s.motorFlag = some .full ∨ s.motor ≠ .acquire → ∃ t, Completed es t) _ _ h
  · intro h
    rcases h with h | h
    · cases h
    · exact absurd rfl h
  · intro es s e u hr ih he hm
    suffices ∃ t, Completed es t by
      obtain ⟨t, ht⟩ := this
      exact ⟨t, (completed_snoc hr he).mpr (Or.inl ht)⟩
    cases step_cases he with
    | notify b hpc => exact ⟨_, completed_end hr (by rw [hpc]; rfl)⟩
    | boot _ _ =>
      apply ih
      rcases hm with hm | hm
      · simp [Semaphore.full, Semaphore.empty] at hm
      · exact Or.inr hm
    | motorAcquire _ hf => exact ih (Or.inl hf)
    | motorCall x y z hpc => exact ih (Or.inr (by simp [hpc]))
    | write w ws hpc => exact ih (Or.inr (by simp [hpc]))
    | motorReturn hpc => exact ih (Or.inr (by simp [hpc]))
    | motorWake hpc => exact ih (Or.inr (by simp [hpc]))
    | readState y z hpc => exact ih (Or.inr (by simp [hpc]))
    | readSpeed x z hpc => exact ih (Or.inr (by simp [hpc]))
    | readTurnFactor x y hpc => exact ih (Or.inr (by simp [hpc]))
    | _ => exact ih hm

/-- An assignment after which others are left has not left the whole `decode`. -/
theorem made_part (h : robot.Reach s) {b : BitVec 8} {w v : Store} {ws : List Store}
    (hpc : s.serial = .decode b (w :: v :: ws)) : v :: ws ≠ decodeStores b := by
  intro heq
  have hlen := (rest_suffix h b _ hpc).length_le
  rw [← heq] at hlen
  simp at hlen

/-- After the first `decode`, and unless one is half done, the globals are those of a
    completed one. -/
theorem globals_completed (h : robot.Run es s) :
    s.serial.halfDone = false → (∃ t, Completed es t) → Completed es s.globals.triple := by
  apply Machine.run_induction
    (P := fun es s => s.serial.halfDone = false → (∃ t, Completed es t) → Completed es s.globals.triple) _ _ h
  · intro _ h
    obtain ⟨t, u, hu, hr, -⟩ := h
    cases List.mem_singleton.mp hu
    cases hr
  · intro es s e u hrun ih he hh hc
    rw [completed_snoc hrun he]
    obtain ⟨t, hnew⟩ := hc
    rcases (completed_snoc hrun he).mp hnew with hc | ⟨hr, -⟩
    · cases step_cases he with
      | serialAcquire hpc _ => exact Or.inl (ih (by rw [hpc]; rfl) ⟨t, hc⟩)
      | serialCall hpc => exact Or.inl (ih (by rw [hpc]; rfl) ⟨t, hc⟩)
      | notify b hpc => exact Or.inl (ih (by rw [hpc]; rfl) ⟨t, hc⟩)
      | serialWake hpc => exact Or.inl (ih (by rw [hpc]; rfl) ⟨t, hc⟩)
      | store b w ws hpc =>
        cases ws with
        | nil => exact Or.inr ⟨rfl, rfl⟩
        | cons v ws => exact absurd (by simpa [SerialPc.halfDone] using hh) (made_part ⟨es, hrun⟩ hpc)
      | _ => exact Or.inl (ih hh ⟨t, hc⟩)
    · exact Or.inr ⟨hr, rfl⟩

end Run

/-! ## Whole triples -/

section Whole

variable {es fs : List Ev} {s u : St} {e : Ev} {t : Int × Int × BitVec 8}

/-- Unless a `decode` is torn the globals hold a whole one's triple. -/
theorem globals_whole (h : robot.Run es s) (ht : s.serial.torn = false) (hc : ∃ t, Completed es t) :
    Whole es s s.globals.triple := by
  cases hh : s.serial.halfDone with
  | true => exact .inr ⟨hh, ht, rfl⟩
  | false => exact .inl (globals_completed h hh hc)

theorem put_triple {g : Globals} {w : Store} (hw : w.ofTriple = false) : (g.put w).triple = g.triple := by
  cases w <;> first | rfl | cases hw

theorem whole_step (h : robot.Run es s) (he : robot.step s e = some u) (hw : Whole es s t) : Whole (es ++ [e]) u t := by
  rcases hw with hc | ⟨hh, ht, rfl⟩
  · exact .inl ((completed_snoc h he).mpr (.inl hc))
  cases step_cases he with
  | store b w ws hpc =>
    rw [hpc] at ht hh
    have hpart : w :: ws ≠ decodeStores b := by simpa [SerialPc.halfDone] using hh
    have hothers : ∀ v ∈ w :: ws, v.ofTriple = false := by simpa [SerialPc.torn, hpart] using ht
    have hput : (s.globals.put w).triple = s.globals.triple := put_triple (hothers w (.head _))
    cases ws with
    | nil => exact .inl ((completed_snoc h he).mpr (.inr ⟨rfl, hput⟩))
    | cons v ws =>
      refine .inr ⟨?_, ?_, hput⟩
      · simpa [SerialPc.halfDone] using made_part ⟨es, h⟩ hpc
      · have hnone : (v :: ws).any Store.ofTriple = false := by
          rw [List.any_eq_false]
          intro x hx
          rw [hothers x (.tail _ hx)]
          exact Bool.false_ne_true
        simp only [SerialPc.torn, hnone, Bool.and_false]
  -- here no assignment has been made
  | serialAcquire hpc _ | serialCall hpc | notify _ hpc | serialWake hpc =>
    rw [hpc] at hh
    cases hh
  | _ => exact .inr ⟨hh, ht, rfl⟩

theorem whole_run (h : robot.Run es s) (hfs : robot.execFrom s fs = some u) (hw : Whole es s t) : Whole (es ++ fs) u t := by
  refine Machine.exec_induction (P := fun fs u => Whole (es ++ fs) u t) ?_ ?_ hfs
  · rw [List.append_nil]
    exact hw
  · intro gs v e w hv ih he
    rw [← List.append_assoc]
    exact whole_step (h.append hv) he ih

end Whole

/-! ## Reading around one moment -/

/-- Every argument read so far is that of `g`. -/
def MotorPc.Reads (g : Globals) : MotorPc → Prop
  | .args x y z => g.Gives x y z
  | _ => False

/-- Every argument read so far is that of `g`, and those to be read are so in `h`. -/
def MotorPc.Keeps (g h : Globals) : MotorPc → Prop
  | .args x y z => x.getD h.state = g.state ∧ y.getD h.speed = g.speed ∧ z.getD h.turnFactor = g.turnFactor
  | _ => False

section Moment

variable {s t : St} {e : Ev} {fs : List Ev} {g : Globals}

theorem reads_put {pc : MotorPc} {w : Store} (hw : pc.hasRead w = false) (hr : pc.Reads g) : pc.Reads (g.put w) := by
  cases pc with
  | args x y z =>
    obtain ⟨hx, hy, hz⟩ := hr
    cases w with
    | state v =>
      cases x with
      | none => exact ⟨nofun, hy, hz⟩
      | some x => cases hw
    | speed v =>
      cases y with
      | none => exact ⟨hx, nofun, hz⟩
      | some y => cases hw
    | turnFactor v =>
      cases z with
      | none => exact ⟨hx, hy, nofun⟩
      | some z => cases hw
    | _ => exact ⟨hx, hy, hz⟩
  | _ => cases hr

theorem keeps_put {pc : MotorPc} {w : Store} {h : Globals} (hw : pc.willRead w = false) (hk : pc.Keeps g h) :
    pc.Keeps g (h.put w) := by
  cases pc with
  | args x y z =>
    obtain ⟨hx, hy, hz⟩ := hk
    cases w with
    | state v =>
      cases x with
      | none => cases hw
      | some x => exact ⟨hx, hy, hz⟩
    | speed v =>
      cases y with
      | none => cases hw
      | some y => exact ⟨hx, hy, hz⟩
    | turnFactor v =>
      cases z with
      | none => cases hw
      | some z => exact ⟨hx, hy, hz⟩
    | _ => exact ⟨hx, hy, hz⟩
  | _ => cases hk

theorem keeps_reads {pc : MotorPc} (hr : pc.Reads g) : pc.Keeps g g := by
  cases pc with
  | args x y z =>
    obtain ⟨hx, hy, hz⟩ := hr
    refine ⟨?_, ?_, ?_⟩
    · cases x with
      | none => rfl
      | some x => exact hx x rfl
    · cases y with
      | none => rfl
      | some y => exact hy y rfl
    · cases z with
      | none => rfl
      | some z => exact hz z rfl
  | _ => cases hr

theorem reads_start (hs : s.motor = .args none none none) : s.motor.Reads s.globals := by
  rw [hs]
  exact gives_none

theorem reads_started {pc : MotorPc} (h : pc.Reads g) : pc ≠ .acquire := by
  intro hpc
  rw [hpc] at h
  exact h

theorem keeps_all {pc : MotorPc} {h : Globals} {x y : Int} {z : BitVec 8} (hk : pc.Keeps g h)
    (hpc : pc = .args (some x) (some y) (some z)) : g.triple = (x, y, z) := by
  rw [hpc] at hk
  obtain ⟨rfl, rfl, rfl⟩ := hk
  rfl

theorem reads_step (h : Step s e t) (he : e ≠ .motorThread) (hst : outdates s e = none) (hr : s.motor.Reads s.globals) :
    t.motor.Reads t.globals := by
  cases h with
  | store b w ws hpc =>
    refine reads_put ?_ hr
    simpa [outdates, storeMade, hpc, Option.filter_eq_none_iff] using hst
  | readState y z hpc =>
    rw [hpc] at hr
    exact hr.state
  | readSpeed x z hpc =>
    rw [hpc] at hr
    exact hr.speed
  | readTurnFactor x y hpc =>
    rw [hpc] at hr
    exact hr.turnFactor
  | motorAcquire | motorCall | write | motorReturn | motorWake => exact absurd rfl he
  | _ => exact hr

theorem keeps_step (h : Step s e t) (he : e ≠ .motorThread) (hst : overtakes s e = none)
    (hk : s.motor.Keeps g s.globals) : t.motor.Keeps g t.globals := by
  cases h with
  | store b w ws hpc =>
    refine keeps_put ?_ hk
    simpa [overtakes, storeMade, hpc, Option.filter_eq_none_iff] using hst
  | readState _ _ hpc | readSpeed _ _ hpc | readTurnFactor _ _ hpc =>
    rw [hpc] at hk
    exact hk
  | motorAcquire | motorCall | write | motorReturn | motorWake => exact absurd rfl he
  | _ => exact hk

theorem reads_run (h : robot.execFrom s fs = some t) (hfs : .motorThread ∉ fs) (hst : robot.log outdates s fs = [])
    (hr : s.motor.Reads s.globals) : t.motor.Reads t.globals := by
  refine Machine.exec_quiet (P := fun s => s.motor.Reads s.globals) ?_ h hst hr
  intro s e t he hst hr hstep
  exact reads_step (step_cases hstep) (fun heq => hfs (heq ▸ he)) hst hr

theorem keeps_run (h : robot.execFrom s fs = some t) (hfs : .motorThread ∉ fs) (hst : robot.log overtakes s fs = [])
    (hk : s.motor.Keeps g s.globals) : t.motor.Keeps g t.globals := by
  refine Machine.exec_quiet (P := fun s => s.motor.Keeps g s.globals) ?_ h hst hk
  intro s e t he hst hk hstep
  exact keeps_step (step_cases hstep) (fun heq => hfs (heq ▸ he)) hst hk

end Moment

/-! ## What `motorControl` is called with -/

/-- The startup pass up to `motorThread`'s acquire. -/
def startRun : List Ev := List.flatten [[.Init_RTOX], List.replicate 7 .serialThread, [.motorThread]]

/-- `motorThread` reads around the decode of an audio byte. -/
def audioReads : List Ev :=
  List.flatten [[.arg .state, .irq (some 0x90)], List.replicate 4 .serialThread, [.arg .speed, .arg .turnFactor]]

/-- `motorThread` reads `state`, then "forward, boosted" is decoded, then it reads the rest:
    it brakes at the new command's speed. -/
def tornRun : List Ev :=
  List.flatten [startRun, [.arg .state, .irq (some 0x28)], List.replicate 7 .serialThread, [.arg .speed, .arg .turnFactor]]

end RobotCar.Receiver
