import Mathlib.Data.List.DropRight
import Mathlib.Data.List.Infix
import WantedEngine.Errno
/-!
# The overlay of a launch config

`WantedMergeConfigOverlay` (`wanted-vfs-api.c`) adds the addresses of an overlay document to the
sockets of a launch config. The document is checked line by line before any line is applied, but a
line can still fail when it is applied: its socket finds no slot, or its value is too long. The other
sections of the config are not in the model.
-/
namespace WantedEngine.Lifecycle

open List

/-- The sizes of `wapp_config_t` and of a path. -/
structure ConfigSizes where
  maxDriversCnt : Nat
  nameLen : Nat
  optionsSize : Nat
  maxPathLen : Nat

/-- `wapp_driver_t`. -/
structure SocketEntry where
  name : Bytes
  path : Bytes
  options : Bytes
  deriving DecidableEq

/-- The sockets of `wapp_config_t`: an array of which a number of entries are in use. -/
@[ext] structure Sockets (sizes : ConfigSizes) where
  sockets : List SocketEntry
  socketsCnt : Nat
  length_sockets : sockets.length = sizes.maxDriversCnt

variable {sizes : ConfigSizes}

/-- `overlayKeyKnown`, by `kOverlayKeys`. -/
def overlayKeyKnown (key : Bytes) : Bool := key ∈ [ascii "manager", ascii "registry"]

/-- `hasScheme`. -/
def hasScheme (val : Bytes) : Bool := ascii "://" <:+: val.take 8

/-- `overlayLine`: the key and the value, without the blanks at its end. -/
def overlayLine (line : Bytes) : Option (Bytes × Bytes) :=
  let key := line.takeWhile (· ≠ 61)
  let val := (line.drop (key.length + 1)).rdropWhile fun byte => byte = 32 || byte = 9
  if 61 ∈ line ∧ key ≠ [] ∧ val ≠ [] ∧ overlayKeyKnown key then some (key, val) else none

variable (cfg : Sockets sizes)

/-- The names of the sockets in use. -/
def Sockets.names : List Bytes :=
  (cfg.sockets.take cfg.socketsCnt).map (·.name)

/-- The options of the socket of a value. -/
def socketOptions (val : Bytes) : Bytes := (if hasScheme val then [] else ascii "tcp://") ++ val

/-- A line has a place in the fields of a socket. -/
def lineFits (sizes : ConfigSizes) (line : Bytes × Bytes) : Bool :=
  line.1.length < sizes.nameLen && (socketOptions line.2).length < sizes.optionsSize

/-- The config with the first spare socket set. -/
def Sockets.setSpare (socket : SocketEntry) (count : Nat) : Sockets sizes where
  sockets := cfg.sockets.set cfg.socketsCnt socket
  socketsCnt := count
  length_sockets := length_set.trans cfg.length_sockets

/-- One line of the second pass. The spare socket is cleared before the sizes are checked. -/
def applyLine (line : Bytes × Bytes) : Rc Unit × Sockets sizes :=
  if line.1 ∈ cfg.names then (.ok (), cfg)
  else if sizes.maxDriversCnt ≤ cfg.socketsCnt then (.error .enospc, cfg)
  else if lineFits sizes line then
    (.ok (), cfg.setSpare ⟨line.1, [], socketOptions line.2⟩ (cfg.socketsCnt + 1))
  else (.error .einval, cfg.setSpare ⟨[], [], []⟩ cfg.socketsCnt)

/-- The second pass. -/
def applyLines (cfg : Sockets sizes) : List (Bytes × Bytes) → Rc Unit × Sockets sizes
  | [] => (.ok (), cfg)
  | line :: rest =>
    match applyLine cfg line with
    | (.ok (), cfg) => applyLines cfg rest
    | failed => failed

/-- The lines of a document, if each passes `overlayLine`: the first pass. -/
def overlayLines (body : Bytes) : Option (List (Bytes × Bytes)) :=
  (((cString body).splitOn 10).filter (· ≠ [])).mapM overlayLine

/-- `WantedMergeConfigOverlay`, over what `PlatformReadSmallFile` answers. -/
def wantedMergeConfigOverlay (dir : Bytes) (file : Rc Bytes) : Rc Unit × Sockets sizes :=
  if dir = [] then (.error .einval, cfg)
  else if sizes.maxPathLen ≤ (dir ++ ascii "/overlay").length then (.error .enametoolong, cfg)
  else
    match file with
    | .error e => (if e = .enoent then .ok () else .error e, cfg)
    | .ok body =>
      match overlayLines body with
      | none => (.error .einval, cfg)
      | some lines => applyLines cfg lines

/-- A merge that fails leaves the config, and one that succeeds leaves the sockets that there were
and changes nothing when it is made again. -/
def MergesWhole (dir : Bytes) (file : Rc Bytes) : Prop :=
  match wantedMergeConfigOverlay cfg dir file with
  | (.error _, after) => after = cfg
  | (.ok (), after) => cfg.socketsCnt ≤ after.socketsCnt ∧
      after.sockets.take cfg.socketsCnt = cfg.sockets.take cfg.socketsCnt ∧
      wantedMergeConfigOverlay after dir file = (.ok (), after)

/-- The lines that name a new socket: the first one of each key that is no socket yet. -/
def freshLines : List Bytes → List (Bytes × Bytes) → List (Bytes × Bytes)
  | _, [] => []
  | names, line :: rest =>
    if line.1 ∈ names then freshLines names rest
    else line :: freshLines (names ++ [line.1]) rest

/-- There is room for all the new sockets. -/
def Sockets.Room (new : List (Bytes × Bytes)) : Prop :=
  new.length ≤ sizes.maxDriversCnt - cfg.socketsCnt ∧ ∀ line ∈ new, lineFits sizes line = true

/-- Already the first new socket fails without a trace: there is no slot for it, or it is too long
and the slot was clear. -/
def Sockets.Full (new : List (Bytes × Bytes)) : Prop :=
  sizes.maxDriversCnt ≤ cfg.socketsCnt ∨
    cfg.sockets[cfg.socketsCnt]? = some ⟨[], [], []⟩ ∧
      ∃ line ∈ new.head?, lineFits sizes line = false

variable {cfg}

lemma Sockets.names_setSpare (room : cfg.socketsCnt < sizes.maxDriversCnt) (socket : SocketEntry) :
    (cfg.setSpare socket (cfg.socketsCnt + 1)).names = cfg.names ++ [socket.name] := by
  have bound : cfg.socketsCnt < (cfg.sockets.set cfg.socketsCnt socket).length := by
    rw [length_set, cfg.length_sockets]
    exact room
  unfold names setSpare
  rw [take_succ_eq_append_getElem bound, take_set_of_le (Nat.le_refl _), getElem_set_self, map_append]
  rfl

lemma applyLines_cases (cfg : Sockets sizes) (lines : List (Bytes × Bytes)) :
    cfg.socketsCnt ≤ (applyLines cfg lines).2.socketsCnt ∧
    ((applyLines cfg lines).1 = .ok () ∧ cfg.Room (freshLines cfg.names lines) ∧
        (applyLines cfg lines).2.sockets.take cfg.socketsCnt = cfg.sockets.take cfg.socketsCnt ∧
        (∀ name ∈ cfg.names, name ∈ (applyLines cfg lines).2.names) ∧
        (∀ line ∈ lines, line.1 ∈ (applyLines cfg lines).2.names) ∨
      (∃ e, (applyLines cfg lines).1 = .error e) ∧ ¬ cfg.Room (freshLines cfg.names lines) ∧
        ((applyLines cfg lines).2 = cfg ↔ cfg.Full (freshLines cfg.names lines))) := by
  induction lines generalizing cfg with
  | nil =>
    exact ⟨Nat.le_refl _, .inl ⟨rfl, ⟨Nat.zero_le _, nofun⟩, rfl, fun _ => id, nofun⟩⟩
  | cons line rest ih =>
    unfold applyLines applyLine freshLines
    split_ifs with known full fits
    · obtain ⟨grows, done | failed⟩ := ih cfg
      · obtain ⟨ok, room, same, stay, all⟩ := done
        exact ⟨grows, .inl ⟨ok, room, same, stay, forall_mem_cons.mpr ⟨stay _ known, all⟩⟩⟩
      · exact ⟨grows, .inr failed⟩
    · refine ⟨Nat.le_refl _, .inr ⟨⟨_, rfl⟩, fun room => ?_, iff_of_true rfl (.inl full)⟩⟩
      have length := room.1
      rw [length_cons] at length
      omega
    · have free := Nat.lt_of_not_le full
      have names := Sockets.names_setSpare free ⟨line.1, [], socketOptions line.2⟩
      obtain ⟨grows, cases_⟩ := ih (cfg.setSpare ⟨line.1, [], socketOptions line.2⟩ _)
      rw [names] at cases_
      have more : cfg.socketsCnt + 1 ≤ _ := grows
      refine ⟨Nat.le_of_succ_le more, ?_⟩
      have rooms : ∀ new, cfg.Room (line :: new) ↔
          (cfg.setSpare ⟨line.1, [], socketOptions line.2⟩ (cfg.socketsCnt + 1)).Room new := by
        intro new
        have length : new.length + 1 ≤ sizes.maxDriversCnt - cfg.socketsCnt ↔
            new.length ≤ sizes.maxDriversCnt - (cfg.socketsCnt + 1) := by omega
        simp [Sockets.Room, Sockets.setSpare, fits, length]
      rw [rooms]
      rcases cases_ with ⟨ok, room, same, stay, all⟩ | ⟨failed, noRoom, -⟩
      · refine .inl ⟨ok, room, ?_, fun name mem => stay name (by simp [mem]), ?_⟩
        · have shorter := congrArg (List.take cfg.socketsCnt) same
          simpa [Sockets.setSpare, take_take, take_set_of_le] using shorter
        · exact forall_mem_cons.mpr ⟨stay _ (by simp), all⟩
      refine .inr ⟨failed, noRoom, iff_of_false ?_ ?_⟩
      · intro same
        rw [same] at more
        omega
      · rintro (full' | ⟨-, _, isFirst, misfit⟩)
        · exact full full'
        cases isFirst
        rw [fits] at misfit
        cases misfit
    · have misfit := Bool.not_eq_true _ ▸ fits
      have bound : cfg.socketsCnt < cfg.sockets.length := by
        rw [cfg.length_sockets]
        exact Nat.lt_of_not_le full
      refine ⟨Nat.le_refl _, .inr ⟨⟨_, rfl⟩, fun room => fits (room.2 _ mem_cons_self), ?_⟩⟩
      have clear : cfg.sockets.set cfg.socketsCnt ⟨[], [], []⟩ = cfg.sockets ↔
          cfg.sockets[cfg.socketsCnt]? = some ⟨[], [], []⟩ := by
        constructor
        · intro same
          rw [← getElem?_set_self bound, same]
        intro isClear
        obtain ⟨_, value⟩ := List.getElem?_eq_some_iff.mp isClear
        rw [← value, set_getElem_self]
      simp [Sockets.ext_iff, Sockets.setSpare, Sockets.Full, clear, full, misfit]

lemma applyLines_known {lines : List (Bytes × Bytes)}
    (known : ∀ line ∈ lines, line.1 ∈ cfg.names) : applyLines cfg lines = (.ok (), cfg) := by
  induction lines with
  | nil => rfl
  | cons line rest ih =>
    rw [applyLines, applyLine, if_pos (known line mem_cons_self)]
    exact ih fun other mem => known other (mem_cons_of_mem _ mem)

/-- For all limits, a merge is whole iff it comes to no document or to a line that is
refused as such, or there is room for all the new sockets, or none for the first of them. -/
theorem merges_whole_iff (cfg : Sockets sizes) (dir : Bytes) (file : Rc Bytes) :
    MergesWhole cfg dir file ↔ dir = [] ∨ sizes.maxPathLen ≤ (dir ++ ascii "/overlay").length ∨
      ∀ lines, file.toOption.bind overlayLines = some lines →
        cfg.Room (freshLines cfg.names lines) ∨ cfg.Full (freshLines cfg.names lines) := by
  unfold MergesWhole wantedMergeConfigOverlay
  split_ifs with empty long
  · exact iff_of_true rfl (.inl empty)
  · exact iff_of_true rfl (.inr (.inl long))
  simp only [empty, long, false_or]
  cases file with
  | error e =>
    refine iff_of_true ?_ nofun
    by_cases absent : e = .enoent <;> simp [absent]
  | ok body =>
    simp only [Except.toOption, Option.bind_some]
    cases overlayLines body with
    | none => exact iff_of_true rfl nofun
    | some lines =>
      simp only [Option.some.injEq, forall_eq']
      obtain ⟨grows, out⟩ := applyLines_cases cfg lines
      generalize made : applyLines cfg lines = result at *
      obtain ⟨_, _⟩ := result
      rcases out with ⟨rfl, room, same, -, known⟩ | ⟨⟨e, rfl⟩, noRoom, unchanged⟩
      · exact iff_of_true ⟨grows, same, applyLines_known known⟩ (.inl room)
      · exact unchanged.trans ⟨.inr, fun either => either.resolve_left noRoom⟩

/-- Two addresses are new and one slot is left: the merge fails and has added the first. -/
theorem failed_merge_adds_socket :
    let sizes : ConfigSizes := ⟨1, 32, 64, 64⟩
    let cfg : Sockets sizes := ⟨[⟨[], [], []⟩], 0, rfl⟩
    let merge := wantedMergeConfigOverlay cfg (ascii "/cfg") (.ok (ascii "manager=a:1\nregistry=b:2\n"))
    succeeded merge.1 = false ∧
      merge.2.sockets = [⟨ascii "manager", [], ascii "tcp://a:1"⟩] ∧ merge.2.socketsCnt = 1 := by
  decide +kernel

end WantedEngine.Lifecycle
