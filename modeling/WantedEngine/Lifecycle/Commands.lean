import WantedEngine.Lifecycle.Slots
/-!
# What the control commands do

A start takes a slot and consumes the reservation of its name, a delete frees the first slot and the
reservation of its name, and `create` and a config write change the reservation table only.
-/
namespace WantedEngine.Lifecycle

open Option

/-- Whether a start gets past every check to the supervisor lookup: the reservation names an
image, the image loads and passes the gate, and a slot is free. -/
def launches (env : Env) (name : Bytes) (image : Option Bytes) (s : State) : Bool :=
  let pend := pendingFind name s
  let configured := ((pend.bind fun i => reservationAt i s).map (·.configured)).getD true
  !(pend.isSome && !configured && image = none) && env.malloc && env.load = none &&
    env.gate = none && s.n < s.slots.length && s.slots.any (fun slot => slot.wapp = none)

/-- Whether a delete gets past every check to the supervisor lookup: the name fits and its
slot is terminal. -/
def releases (name : Bytes) (s : State) : Bool :=
  name ≠ [] && name.length < wappMaxNameLen && lookupState name s &&
    ((namedSlot name s.slots).bind fun i => s.slots[i]?).any fun slot =>
      slot.status = .exited || slot.status = .failure

/-- Whether a delete frees a reservation alone. -/
def unreserves (name : Bytes) (s : State) : Bool :=
  name ≠ [] && name.length < wappMaxNameLen && !lookupState name s && (pendingFind name s).isSome

def Reserved (name : Bytes) (s : State) : Prop :=
  ∃ table, s.pending = some table ∧ ∃ r ∈ table, r.map (·.name) = some name

/-- The reservation table changes and reserves no name but one that was not reserved before. -/
structure Reserves (name : Bytes) (s after : State) : Prop where
  same : ∃ pending, after = { s with pending }
  names : ∀ other, Reserved other after → other = name ∨ Reserved other s

variable {name : Bytes} {s after : State} {i : Nat}

/-- Nothing done. -/
lemma Reserves.refl : Reserves name s s := ⟨⟨s.pending, rfl⟩, fun _ => Or.inr⟩

lemma Reserves.set (reserves : Reserves name s after) {reservation : Option Reservation}
    (known : ∀ other, reservation.map (·.name) = some other → other = name ∨ Reserved other after) :
    Reserves name s (setPending i reservation after) := by
  obtain ⟨_, rfl⟩ := reserves.same
  refine ⟨⟨_, rfl⟩, ?_⟩
  rintro other ⟨_, isTable, r, mem, isName⟩
  obtain ⟨old, isOld, rfl⟩ := map_eq_some_iff.mp isTable
  rcases List.mem_or_eq_of_mem_set mem with before | rfl
  · exact reserves.names _ ⟨old, isOld, r, before, isName⟩
  · exact (known other isName).elim Or.inl (reserves.names _)

variable (env : Env)

lemma pendingSlot_reserves (pos name : Bytes) (s : State) :
    Reserves name s (pendingSlot env pos s).2 := by
  unfold pendingSlot
  split
  · exact .refl
  split
  · exact .refl
  split
  · exact .refl
  refine ⟨⟨_, rfl⟩, ?_⟩
  rintro _ ⟨_, isTable, _, mem, isName⟩
  cases isTable
  rw [List.eq_of_mem_replicate mem] at isName
  cases isName

variable (name : Bytes)

lemma createWapp_reserves (s : State) : Reserves name s (createWapp env name s).2 := by
  have placed := pendingSlot_reserves env name name s
  unfold createWapp
  split
  · exact .refl
  split
  · rename_i out
    rw [out] at placed
    exact placed
  · rename_i out
    rw [out] at placed
    split
    · exact placed.set fun other isName => Or.inl (some.inj isName).symm
    · exact placed

lemma wappConfigWrite_reserves (parsed : Rc Unit) (s : State) :
    Reserves (name.take (wappMaxNameLen - 1)) s (wappConfigWrite env name parsed s).2 := by
  have placed := pendingSlot_reserves env name (name.take (wappMaxNameLen - 1)) s
  unfold wappConfigWrite
  split
  · rename_i out
    rw [out] at placed
    exact placed
  rename_i out
  rw [out] at placed
  cases parsed with
  | error e =>
    dsimp only
    split
    · rename_i r here
      obtain ⟨table, isTable, isHere⟩ := bind_eq_some_iff.mp (join_eq_some_iff.mp here)
      exact placed.set fun other isName =>
        Or.inr ⟨table, isTable, some r, List.mem_of_getElem? isHere, isName⟩
    · exact placed
  | ok _ => exact placed.set fun other isName => Or.inl (Option.some.inj isName).symm

def clearReservation (pend : Option Nat) (s : State) : State :=
  { s with pending := pend.elim s.pending fun i => s.pending.map fun table => table.set i none }

lemma clearReservation_reserves (pend : Option Nat) (name : Bytes) (s : State) :
    Reserves name s (clearReservation pend s) := by
  cases pend with
  | none => exact .refl
  | some i => exact Reserves.refl.set (i := i) nofun

lemma startWapp_cases (image : Option Bytes) (s : State) :
    (∃ i, freeSlot ⟨s.nextId, name.take (wappMaxNameLen - 1)⟩ s.slots = some i ∧
      (s.slots.any (fun slot => slot.wapp = none) = true → launches env name image s = true) ∧
      startWapp env name image s = (.ok (), clearReservation (pendingFind name s)
        (takeSlot env ⟨s.nextId, name.take (wappMaxNameLen - 1)⟩ i
          { s with nextId := s.nextId + 1 }))) ∨
    (launches env name image s = false ∧ ∃ e nextId, s.nextId ≤ nextId ∧
      startWapp env name image s = (.error e, { s with nextId })) := by
  unfold startWapp launches
  dsimp only
  generalize Option.getD (Option.map _ _) true = configured
  split
  · rename_i refused
    exact .inr ⟨by simp [refused], _, _, Nat.le_refl _, rfl⟩
  rename_i reserved
  split
  · rename_i refused
    exact .inr ⟨by simp [refused], _, _, Nat.le_refl _, rfl⟩
  rename_i allocated
  cases loaded : env.load with
  | some e => exact .inr ⟨by simp, _, _, Nat.le_succ _, rfl⟩
  | none =>
    cases gated : env.gate with
    | some e => exact .inr ⟨by simp, _, _, Nat.le_succ _, rfl⟩
    | none =>
      unfold platformWappStart
      by_cases full : s.n ≥ s.slots.length
      · rw [if_pos full]
        exact .inr ⟨by simp [Nat.not_lt.mpr full], _, _, Nat.le_succ _, rfl⟩
      rw [if_neg full]
      cases found : freeSlot ⟨s.nextId, name.take (wappMaxNameLen - 1)⟩ s.slots with
      | none =>
        have vacant : s.slots.any (fun slot => slot.wapp = none) = false := by
          rw [List.any_eq_false]
          intro slot mem
          have taken := List.findIdx?_eq_none_iff.mp found slot mem
          simp only [Bool.or_eq_false_iff] at taken
          simp [taken.1]
        exact .inr ⟨by simp [vacant], _, _, Nat.le_succ _, rfl⟩
      | some i =>
        refine .inl ⟨i, rfl, fun vacant => ?_, by cases pendingFind name s <;> rfl⟩
        simp only [vacant, Bool.and_eq_true, decide_eq_true_eq, and_true]
        refine ⟨⟨?_, by simpa using allocated⟩, by omega⟩
        rw [Bool.not_eq_true', ← Bool.not_eq_true]
        exact fun refused => reserved (by simpa [and_assoc] using refused)

/-- A delete frees the first slot and the reservation of its name, or the reservation alone, or is
refused. -/
lemma deleteWapp_cases (s : State) :
    (releases name s = true ∧ ∃ i slot, namedSlot name s.slots = some i ∧ s.slots[i]? = some slot ∧
      (slot.status = .exited ∨ slot.status = .failure) ∧
      deleteWapp env name s = (.ok (), clearReservation (pendingFind name s)
        { (wantedGetCurrentSupervisor env.images s).2 with
          slots := (wantedGetCurrentSupervisor env.images s).2.slots.set i emptySlot })) ∨
    (releases name s = false ∧ unreserves name s = true ∧
      deleteWapp env name s = (.ok (), clearReservation (pendingFind name s) s)) ∨
    (releases name s = false ∧ unreserves name s = false ∧
      ∃ e, deleteWapp env name s = (.error e, s)) := by
  unfold deleteWapp releases unreserves
  by_cases bad : name = [] ∨ name.length ≥ wappMaxNameLen
  · rw [if_pos bad]
    refine .inr (.inr ⟨?_, ?_, _, rfl⟩)
    · rcases bad with rfl | long
      · rfl
      · simp [Nat.not_lt.mpr long]
    · rcases bad with rfl | long
      · rfl
      · simp [Nat.not_lt.mpr long]
  obtain ⟨nonempty, fits⟩ : name ≠ [] ∧ name.length < wappMaxNameLen := by simpa [not_or] using bad
  rw [if_neg bad]
  simp only [nonempty, fits, ne_eq]
  cases live : lookupState name s with
  | false =>
    cases pend : pendingFind name s with
    | none => exact .inr (.inr ⟨rfl, rfl, _, rfl⟩)
    | some i => exact .inr (.inl ⟨rfl, rfl, rfl⟩)
  | true =>
    simp only [not_true_eq_false, false_and, if_false, if_true]
    unfold platformWappRelease
    cases found : namedSlot name s.slots with
    | none => exact .inr (.inr ⟨rfl, rfl, _, rfl⟩)
    | some i =>
      dsimp only
      rw [bind_some]
      cases here : s.slots[i]? with
      | none => exact .inr (.inr ⟨rfl, rfl, _, rfl⟩)
      | some slot =>
        dsimp only
        by_cases terminal : slot.status = .exited ∨ slot.status = .failure
        · rw [if_neg fun busy => terminal.elim busy.1 busy.2]
          refine .inl ⟨by simpa using terminal, i, slot, rfl, here, terminal, ?_⟩
          cases pendingFind name s <;> rfl
        · rw [if_pos (not_or.mp terminal)]
          exact .inr (.inr ⟨by simpa using terminal, rfl, _, rfl⟩)

end WantedEngine.Lifecycle
