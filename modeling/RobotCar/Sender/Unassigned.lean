/-
  RobotCar.Sender.Unassigned — what the sender writes, call by call, over a history of
  samples. `makeAudioPacket` leaves field D unassigned, as `makeMovementPacket` does not;
  `checkPacket` compares it and `sendPacket` writes it. Each call comes with the value D
  happens to hold.

  - `transmit_same`: calls that make no audio packet write the same whatever D holds.
  - `transmit_differs`: the first audio packet writes what D holds.
  - `determined_iff`: so the samples decide what is written exactly when no connected one
    has Square pressed.
-/

import RobotCar.Sender.Packet

namespace RobotCar.Sender

/-- What each call of `controlFunction` writes. -/
def transmit (prevPacket : TPacket) : List (Sample × BitVec 1) → List (Option (BitVec 8))
  | [] => []
  | (PS4, D) :: calls =>
    (controlFunction prevPacket PS4 D).2 :: transmit (controlFunction prevPacket PS4 D).1 calls

/-- The bytes written from call `i` to call `j`. -/
def bytes (written : List (Option (BitVec 8))) (i j : Nat) : List (BitVec 8) :=
  ((written.drop i).take (j + 1 - i)).filterMap id

/-- An audio command. -/
def Commands (s : Sample) : Prop := s.isConnected = true ∧ s.Square = true

instance (s : Sample) : Decidable (Commands s) := inferInstanceAs (Decidable (_ ∧ _))

theorem released {s : Sample} (h : ¬ Commands s) (hc : s.isConnected = true) : s.Square = false :=
  Bool.eq_false_iff.mpr fun hsq => h ⟨hc, hsq⟩

/-- Square is held in every connected sample from call `i` to call `j`. -/
def Held (samples : List Sample) (i j : Nat) : Prop :=
  ∀ k, i ≤ k → k ≤ j → ∀ s, samples[k]? = some s → s.isConnected = true → s.Square = true

/-- Whatever D holds, the samples decide what is written, and holding Square writes once. -/
structure Determined (samples : List Sample) : Prop where
  same : ∀ calls calls', calls.map Prod.fst = samples → calls'.map Prod.fst = samples →
    transmit initPacket calls = transmit initPacket calls'
  once : ∀ calls, calls.map Prod.fst = samples → ∀ i j, Held samples i j →
    (bytes (transmit initPacket calls) i j).length ≤ 1

/-! ## Without an audio command -/

theorem controlFunction_D {s : Sample} (h : ¬ Commands s) (prevPacket : TPacket) (D D' : BitVec 1) :
    controlFunction prevPacket s D = controlFunction prevPacket s D' := by
  unfold controlFunction
  cases hc : s.isConnected with
  | false => rfl
  | true =>
    rw [released h hc]
    rfl

theorem transmit_same {prevPacket : TPacket} {calls calls' : List (Sample × BitVec 1)}
    (hmap : calls.map Prod.fst = calls'.map Prod.fst) (h : ∀ s ∈ calls.map Prod.fst, ¬ Commands s) :
    transmit prevPacket calls = transmit prevPacket calls' := by
  induction calls generalizing prevPacket calls' with
  | nil =>
    rw [List.map_nil, eq_comm, List.map_eq_nil_iff] at hmap
    rw [hmap]
  | cons c calls ih =>
    cases calls' with
    | nil => cases hmap
    | cons c' calls' =>
      simp only [List.map_cons, List.cons.injEq] at hmap
      obtain ⟨hs, hmap⟩ := hmap
      have hD := controlFunction_D (h c.1 (.head _)) prevPacket c.2 c'.2
      simp only [transmit, ← hs, hD]
      rw [ih hmap fun s hs => h s (.tail _ hs)]

/-- A disconnected call writes nothing. -/
theorem transmit_off {prevPacket : TPacket} {calls : List (Sample × BitVec 1)} {k : Nat} {c : Sample × BitVec 1}
    (hk : calls[k]? = some c) (h : c.1.isConnected = false) : (transmit prevPacket calls)[k]? = some none := by
  induction calls generalizing prevPacket k with
  | nil => cases hk
  | cons a calls ih =>
    cases k with
    | zero =>
      cases hk
      simp [transmit, controlFunction, h]
    | succ k => exact ih hk

theorem transmit_length {prevPacket : TPacket} {calls : List (Sample × BitVec 1)} :
    (transmit prevPacket calls).length = calls.length := by
  induction calls generalizing prevPacket with
  | nil => rfl
  | cons c calls ih => simp [transmit, ih]

/-- From call `i` to call `j` nothing is written when no sample there is connected. -/
theorem bytes_off {prevPacket : TPacket} {calls : List (Sample × BitVec 1)} {i j : Nat}
    (h : ∀ k, i ≤ k → k ≤ j → ∀ c, calls[k]? = some c → c.1.isConnected = false) :
    bytes (transmit prevPacket calls) i j = [] := by
  refine List.filterMap_eq_nil_iff.mpr ?_
  intro w hw
  obtain ⟨n, hn⟩ := List.mem_iff_getElem?.mp hw
  rw [List.getElem?_take] at hn
  split at hn
  · rename_i hlt
    rw [List.getElem?_drop] at hn
    cases hc : calls[i + n]? with
    | none =>
      rw [List.getElem?_eq_none_iff] at hc
      rw [List.getElem?_eq_none (by rw [transmit_length]; exact hc)] at hn
      cases hn
    | some c =>
      rw [transmit_off hc (h _ (by omega) (by omega) c hc)] at hn
      cases hn
      rfl
  · cases hn

/-! ## With one -/

/-- The remembered packet stays a movement packet until an audio command. -/
theorem controlFunction_OP {s : Sample} (h : ¬ Commands s) {prevPacket : TPacket} (hp : prevPacket.OP = 0) (D : BitVec 1) :
    (controlFunction prevPacket s D).1.OP = 0 := by
  unfold controlFunction
  cases hc : s.isConnected with
  | false => exact hp
  | true =>
    simp only [released h hc, if_true, Bool.false_eq_true, if_false]
    split
    · exact makeMovementPacket_OP s
    · exact hp

theorem controlFunction_audio {s : Sample} (h : Commands s) {prevPacket : TPacket} (hp : prevPacket.OP = 0) (D : BitVec 1) :
    (controlFunction prevPacket s D).2 = some (sendPacket (makeAudioPacket D)) := by
  have hnew : checkPacket prevPacket (makeAudioPacket D) = false := by
    cases hk : checkPacket prevPacket (makeAudioPacket D) with
    | false => rfl
    | true =>
      rw [checkPacket_iff] at hk
      rw [← hk] at hp
      cases hp
  simp [controlFunction, h.1, h.2, hnew]

theorem transmit_differs {prevPacket : TPacket} (hp : prevPacket.OP = 0) {samples : List Sample}
    (h : ∃ s ∈ samples, Commands s) :
    transmit prevPacket (samples.map (·, 0)) ≠ transmit prevPacket (samples.map (·, 1)) := by
  obtain ⟨s, hs, hcmd⟩ := h
  induction samples generalizing prevPacket with
  | nil => cases hs
  | cons a samples ih =>
    intro he
    simp only [List.map_cons, transmit, List.cons.injEq] at he
    obtain ⟨hbyte, hrest⟩ := he
    by_cases ha : Commands a
    · rw [controlFunction_audio ha hp, controlFunction_audio ha hp] at hbyte
      revert hbyte
      decide
    · rw [controlFunction_D ha prevPacket 1 0] at hrest
      have hmem : s ∈ samples := by
        rcases List.mem_cons.mp hs with h | h
        · exact absurd (h ▸ hcmd) ha
        · exact h
      exact ih (controlFunction_OP ha hp 0) hmem hrest

theorem determined_iff (samples : List Sample) : Determined samples ↔ ∀ s ∈ samples, s.isConnected = true → s.Square = false := by
  constructor
  · intro h s hs hc
    refine Bool.eq_false_iff.mpr fun hsq => transmit_differs rfl ⟨s, hs, hc, hsq⟩ (h.same _ _ ?_ ?_)
    · simp [Function.comp_def]
    · simp [Function.comp_def]
  · intro h
    have hnone : ∀ s ∈ samples, ¬ Commands s := by
      intro s hs hcmd
      have := h s hs hcmd.1
      simp [hcmd.2] at this
    refine ⟨fun calls calls' hc hc' => transmit_same (hc.trans hc'.symm) (hc ▸ hnone), ?_⟩
    intro calls hc i j hheld
    have hoff : bytes (transmit initPacket calls) i j = [] := by
      refine bytes_off fun k hi hj c hk => Bool.eq_false_iff.mpr ?_
      intro hconn
      have hks : samples[k]? = some c.1 := by
        rw [← hc, List.getElem?_map, hk]
        rfl
      exact hnone c.1 (List.mem_of_getElem? hks) ⟨hconn, hheld k hi hj c.1 hks hconn⟩
    rw [hoff]
    exact Nat.zero_le 1

/-- Square held over two calls: the second writes again, as D has changed. -/
theorem held_square_writes_twice : ¬ ∀ samples, Determined samples := by
  intro h
  have hheld : Held (List.replicate 2 ⟨true, 0, 0, 0, 0, false, true⟩) 0 1 := by
    intro k _ _ s hs _
    rw [List.eq_of_mem_replicate (List.mem_of_getElem? hs)]
  have := (h (List.replicate 2 ⟨true, 0, 0, 0, 0, false, true⟩)).once
    [(⟨true, 0, 0, 0, 0, false, true⟩, 0), (⟨true, 0, 0, 0, 0, false, true⟩, 1)] rfl 0 1 hheld
  revert this
  decide

end RobotCar.Sender
