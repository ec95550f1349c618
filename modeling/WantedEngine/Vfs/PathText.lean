import WantedEngine.Foundation.Separated
import WantedEngine.Vfs.PlatformDriver
/-!
# Paths as texts

An absolute path as a text and the location it leads to. A location of proper names has one text
without detours (`renderPath`); a path that is not that text is longer than it.
-/
namespace WantedEngine.Vfs

open Foundation Foundation.Separated List Move

lemma slash_not_mem_component (path : Bytes) : ∀ component ∈ path.splitOn slash, slash ∉ component := by
  induction path with
  | nil => simp
  | cons byte rest ih =>
    intro component mem
    rw [List.splitOn, splitOnP_cons_eq_if_modifyHead] at mem
    split at mem
    · rcases mem_cons.mp mem with rfl | later
      · simp
      · exact ih component later
    rename_i other
    cases split : rest.splitOn slash with
    | nil =>
      rw [List.splitOn] at split
      simp [split] at mem
    | cons first later =>
      rw [List.splitOn] at split
      rw [split, modifyHead_cons, mem_cons] at mem
      rcases mem with rfl | mem
      · have free := ih first (by rw [List.splitOn, split]; simp)
        simp only [beq_iff_eq] at other
        simp [free, Ne.symm other]
      · exact ih component (by rw [List.splitOn, split]; simp [mem])

/-- A name a path can enter: not empty, no slash, neither `.` nor `..`. -/
def ProperName (name : Bytes) : Prop :=
  name ≠ [] ∧ slash ∉ name ∧ name ≠ ascii "." ∧ name ≠ ascii ".."

instance (name : Bytes) : Decidable (ProperName name) :=
  inferInstanceAs (Decidable (_ ∧ _ ∧ _ ∧ _))

/-- A proper name is the component that enters it. -/
lemma componentMove_of_proper {name : Bytes} (proper : ProperName name) :
    componentMove name = .down name := by
  obtain ⟨nonempty, -, notDot, notDotDot⟩ := proper
  simp [componentMove, nonempty, notDot, notDotDot]

variable {location : List Bytes}

lemma walk_proper (start : ∀ name ∈ location, ProperName name)
    (components : List Bytes) (free : ∀ component ∈ components, slash ∉ component) :
    ∀ name ∈ walk location (components.map componentMove), ProperName name := by
  induction components generalizing location with
  | nil => exact start
  | cons component rest ih =>
    refine ih ?_ (fun other mem => free other (mem_cons_of_mem _ mem))
    intro name mem
    unfold componentMove at mem
    split at mem
    · exact start name mem
    rename_i notStay
    split at mem
    · exact start name (mem_of_mem_dropLast mem)
    rename_i notUp
    obtain ⟨nonempty, notDot⟩ := not_or.mp notStay
    rcases mem_append.mp mem with earlier | entered
    · exact start name earlier
    · rw [mem_singleton.mp entered]
      exact ⟨nonempty, free component mem_cons_self, notDot, notUp⟩

def renderPath (location : List Bytes) : Bytes := slash :: [slash].intercalate location

lemma hostLocation_renderPath (proper : ∀ name ∈ location, ProperName name) :
    hostLocation (renderPath location) = location := by
  have entered := map_congr_left fun name mem => componentMove_of_proper (proper name mem)
  unfold hostLocation moves renderPath
  rw [List.splitOn, splitOnP_cons_eq_if_modifyHead, if_pos (by simp), ← List.splitOn]
  cases location with
  | nil => simp [componentMove, apply]
  | cons first rest =>
    rw [splitOn_intercalate _ (fun name mem => (proper name mem).2.1) (by simp), map_cons, entered]
    simp only [componentMove, true_or, if_true, walk_cons, apply]
    rw [walk_map_down, nil_append]

lemma renderPath_eq (location : List Bytes) :
    renderPath location = if location = [] then [slash] else led slash location := by
  split
  · rename_i root
    rw [root]
    rfl
  · rename_i named
    exact (led_eq_intercalate slash named).symm

lemma exists_components {path : Bytes} (absolute : isAbsolute path) :
    ∃ components, path.splitOn slash = [] :: components ∧ components ≠ [] ∧
      path = led slash components := by
  cases path with
  | nil => cases absolute
  | cons byte rest =>
    obtain rfl : byte = slash := by simpa [isAbsolute] using absolute
    have split : (slash :: rest).splitOn slash = [] :: rest.splitOn slash := by
      rw [List.splitOn, splitOnP_cons_eq_if_modifyHead, if_pos (by simp), ← List.splitOn]
    have some_ : rest.splitOn slash ≠ [] := by
      exact splitOnP_ne_nil _ _
    refine ⟨rest.splitOn slash, split, some_, ?_⟩
    rw [led_eq_intercalate slash some_, intercalate_splitOn]

lemma led_dropLast_length (location : List Bytes) :
    (led slash location.dropLast).length ≤ (led slash location).length := by
  cases location.eq_nil_or_concat with
  | inl root =>
    rw [root]
    exact le_rfl
  | inr named =>
    obtain ⟨_, _, same⟩ := named
    rw [same, concat_eq_append, dropLast_concat, led_append, length_append]
    exact Nat.le_add_right _ _

lemma led_apply_length (component : Bytes) (location : List Bytes) :
    (led slash ((componentMove component).apply location)).length <
        (led slash location).length + (led slash [component]).length ∨
      (componentMove component).apply location = location ++ [component] := by
  have positive : 0 < (led slash [component]).length := by
    exact Nat.succ_pos _
  rw [componentMove]
  split
  · left
    rw [apply]
    omega
  split
  · left
    have shorter := led_dropLast_length location
    rw [apply]
    omega
  · right
    rfl

/-- A walk along components takes no more text than the components, and all of it only when every
component is entered. -/
lemma led_walk_length (components location : List Bytes) :
    (led slash (Move.walk location (components.map componentMove))).length <
        (led slash location).length + (led slash components).length ∨
      Move.walk location (components.map componentMove) = location ++ components := by
  induction components generalizing location with
  | nil =>
    right
    rw [append_nil]
    rfl
  | cons component rest ih =>
    have split : (led slash (component :: rest)).length =
        (led slash [component]).length + (led slash rest).length := by
      rw [← length_append, ← led_append]
      rfl
    rw [map_cons, walk_cons]
    have later := ih ((componentMove component).apply location)
    have longest : (led slash ((componentMove component).apply location ++ rest)).length =
        (led slash ((componentMove component).apply location)).length + (led slash rest).length := by
      rw [led_append, length_append]
    cases led_apply_length component location with
    | inl shorter =>
      obtain less | all := later
      · omega
      · rw [all]
        omega
    | inr entered =>
      rw [entered] at later ⊢
      have joined : (led slash (location ++ [component])).length =
          (led slash location).length + (led slash [component]).length := by
        rw [led_append, length_append]
      obtain less | all := later
      · left
        omega
      right
      rw [all, append_assoc]
      rfl

lemma hostLocation_proper (path : Bytes) : ∀ name ∈ hostLocation path, ProperName name :=
  walk_proper (fun _ mem => by cases mem) _ (slash_not_mem_component path)

/-- A path without detours: the text of the location it leads to. -/
def NormalPath (path : Bytes) : Prop := renderPath (hostLocation path) = path

instance (path : Bytes) : Decidable (NormalPath path) :=
  inferInstanceAs (Decidable (renderPath (hostLocation path) = path))

/-- An absolute path with a detour is longer than the text of its location. -/
lemma renderPath_length {path : Bytes} (absolute : isAbsolute path) :
    (renderPath (hostLocation path)).length < path.length ∨ NormalPath path := by
  obtain ⟨components, split, _, same⟩ := exists_components absolute
  have location : hostLocation path = walk [] (components.map componentMove) := by
    rw [hostLocation, moves, split]
    rfl
  have walked := led_walk_length components []
  rw [← location, led_nil, length_nil, Nat.zero_add, ← same] at walked
  by_cases root : hostLocation path = []
  · -- the root's text is one slash, and a longer path to it has a detour
    have text : renderPath (hostLocation path) = [slash] := by rw [renderPath_eq, if_pos root]
    cases path with
    | nil => cases absolute
    | cons byte rest =>
      cases rest with
      | nil =>
        right
        obtain rfl : byte = slash := by simpa [isAbsolute] using absolute
        exact text
      | cons next rest =>
        rw [text]
        simp
  · have text : renderPath (hostLocation path) = led slash (hostLocation path) := by
      rw [renderPath_eq, if_neg root]
    obtain less | all := walked
    · left
      rw [text]
      exact less
    · right
      rw [NormalPath, text, all]
      exact same.symm

end WantedEngine.Vfs
