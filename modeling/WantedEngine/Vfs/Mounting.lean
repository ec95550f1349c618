import WantedEngine.Vfs.Handles
import WantedEngine.Vfs.PathText
import Mathlib.Data.List.MinMax
/-!
# Routing to mounted drivers

Which driver `VfsOpen` of a path reaches, over the mount tables that `VfsMountDriver` can build.
`VfsMountDriver` takes a mount path as it is, `VfsOpen` normalises the path it opens: a mount path
with a detour (a trailing or doubled slash, a `.` or `..`) is one that no opened path matches.

`cwk_path_normalize` is code outside the repository; the law it is used under is
`NormalizesAbsolute`.
-/
namespace WantedEngine.Vfs

open Foundation Foundation.Separated Foundation.Slots List

/-- `cwk_path_normalize` of an absolute path is the text of the location it leads to, a trailing
slash of the path kept. -/
def NormalizesAbsolute (normalize : Bytes → Bytes) : Prop :=
  ∀ path, isAbsolute path → normalize path = renderPath (hostLocation path) ∨
    (hostLocation path ≠ [] ∧ normalize path = renderPath (hostLocation path) ++ [slash])

/-! ### The mount table -/

/-- The first four mounts are the fixed ones, every other is a driver's below the root, and no
mount path is there twice. -/
structure MountsSound (v : VfsState) : Prop where
  fixed : vfsInit.mounts <+: v.mounts
  drivers : ∀ mount ∈ v.mounts, mount ∈ vfsInit.mounts ∨
    ∃ key, mount.type = .driver key ∧ isAbsolute mount.mountPath ∧
      1 < mount.mountPath.length ∧ mount.mountPath.length < vfsMountPathLen
  distinct : (v.mounts.map (·.mountPath)).Nodup

/-- What `VfsMountDriver` does to the mount table. -/
lemma MountsSound.mountDriver {v : VfsState} (sound : MountsSound v) (mountPath : Bytes) :
    MountsSound (vfsMountDriver v mountPath).2 := by
  rw [vfsMountDriver]
  split
  · exact ⟨sound.fixed, sound.drivers, sound.distinct⟩
  rename_i below
  split
  · exact ⟨sound.fixed, sound.drivers, sound.distinct⟩
  rename_i unused
  split
  · exact ⟨sound.fixed, sound.drivers, sound.distinct⟩
  split
  · exact ⟨sound.fixed, sound.drivers, sound.distinct⟩
  rename_i short
  have absolute : isAbsolute mountPath := by
    by_contra relative
    exact below (.inl relative)
  have long : 1 < mountPath.length := by
    have notZero : mountPath.length ≠ 0 := by
      intro zero
      rw [length_eq_zero_iff.mp zero] at absolute
      cases absolute
    omega
  refine ⟨sound.fixed.trans (prefix_append _ _), ?_, ?_⟩
  · exact forall_mem_append.mpr ⟨sound.drivers, forall_mem_singleton.mpr
      (.inr ⟨v.drivers, rfl, absolute, long, Nat.lt_of_not_le short⟩)⟩
  rw [map_append, map_singleton, ← concat_eq_append]
  refine Nodup.concat (fun mem => unused ?_) sound.distinct
  obtain ⟨mount, listed, same⟩ := mem_map.mp mem
  exact any_eq_true.mpr ⟨mount, listed, decide_eq_true same⟩

variable (env : Backends)
include env

variable (v : VfsState)

lemma mounts_openRule : OpenRule env (fun during _ => during.mounts = v.mounts)
      (fun out => out.2.mounts = v.mounts) where
  tick same := same
  asked same _ _ _ := same
  opened same driver := by
    rw [← same, openHandle]
    cases env.opens _ <;> rfl
  failed same _ := same
  closed := by
    intro during handle same e
    rw [← same]
    cases handle <;> rfl
  claimed := by
    intro during handle same slot live shared
    rw [← same, claim]
    cases findFirstClosedFd during.ctx with
    | error e => cases handle <;> rfl
    | ok fd => rfl

lemma vfsClose_mounts (fd : Int) : (vfsClose env v fd).2.mounts = v.mounts := by
  obtain kept | kept | ⟨open_, -, given, -⟩ := vfsClose_cases env v fd
  · rw [kept]
  · rw [kept]
    rfl
  · rw [given, giveUpSlot]
    cases open_.handle <;> rfl

lemma serveVfs_mounts (req : VfsRequest) (other : ∀ mountPath, req ≠ .mountDriver mountPath) :
    (serveVfs env v req).2.mounts = v.mounts := by
  cases req with
  | mountDriver mountPath => exact absurd rfl (other mountPath)
  | registerDev name =>
    simp only [serveVfs, devFsRegister]
    cases registerNode env v.devfs name v.drivers <;> rfl
  | registerNet name =>
    simp only [serveVfs, netFsRegister]
    cases registerNode env v.netfs name v.drivers <;> rfl
  | register stream =>
    simp only [serveVfs, vfsRegister]
    split <;> rfl
  | bindPlatform path platform rootPath hostFd readonly =>
    simp only [serveVfs, vfsBindPlatformFd]
    cases findFirstClosedFd v.ctx <;> rfl
  | attachTarfs => rfl
  | open_ path flags => exact (mounts_openRule env v).vfsOpen rfl path flags
  | openAt fd path flags => exact (mounts_openRule env v).vfsOpenAtFd rfl fd path flags
  | close fd => exact vfsClose_mounts env v fd
  | renumber source target =>
    exact vfsRenumber_keeps (·.mounts = v.mounts) rfl (vfsClose_mounts env v target)
      fun _ _ same => same
  | statAt fd path =>
    exact (mounts_openRule env v).vfsStatAt rfl (·.mounts = v.mounts) id rfl
      (fun after fd => (vfsClose_mounts env after fd).trans) fd path
  | sockAccept fd flags => exact (mounts_openRule env v).vfsSockAccept rfl fd flags

lemma mountsSound_exec (reqs : List VfsRequest) : MountsSound ((vfsMachine env).exec vfsInit reqs) := by
  refine (vfsMachine env).exec_invariant_of_step MountsSound ?_ ?_ reqs
  · intro v req sound
    by_cases mounting : ∃ mountPath, req = .mountDriver mountPath
    · obtain ⟨mountPath, rfl⟩ := mounting
      exact sound.mountDriver mountPath
    have same := serveVfs_mounts env v req (not_exists.mp mounting)
    rw [Machine.next, show (vfsMachine env).step v req = serveVfs env v req from rfl]
    exact ⟨by rw [same]; exact sound.fixed, by rw [same]; exact sound.drivers,
      by rw [same]; exact sound.distinct⟩
  · exact ⟨prefix_refl _, fun mount mem => Or.inl mem, by decide⟩

omit env

/-! ### The longest mount -/

/-- The mount that is found is the first of the longest that cover the path. -/
lemma longestMatch_eq (path : Bytes) (mounts : List Mount) (best : Option Mount) :
    longestMatch path mounts best =
      (mounts.filter fun mount => mount.covers path ∧ 0 < mount.mountPath.length).foldl
        (argAux fun b c => c.mountPath.length < b.mountPath.length) best := by
  induction mounts generalizing best with
  | nil => cases best <;> rfl
  | cons first rest ih =>
    rw [longestMatch, ih, ih]
    by_cases shown : first.covers path ∧ 0 < first.mountPath.length
    · rw [filter_cons, if_pos (decide_eq_true shown)]
      cases best with
      | none => exact if_pos shown
      | some held =>
        simp only [shown.1, true_and, Option.map_some, Option.getD_some, foldl_cons, argAux]
        split_ifs <;> rfl
    · rw [filter_cons, if_neg fun better => shown ⟨better.1, Nat.zero_lt_of_lt better.2⟩,
        if_neg fun isShown => shown (of_decide_eq_true isShown)]

variable {mount : Mount} {mounts : List Mount} {longest : Mount} {suffix : Bytes}

lemma longestMatch_isSome {path : Bytes} (mem : mount ∈ mounts)
    (covers : mount.covers path) (positive : 0 < mount.mountPath.length) :
    ∃ longest, longestMatch path mounts none = some longest := by
  refine Option.ne_none_iff_exists'.mp fun none_ => ?_
  rw [longestMatch_eq, foldl_argAux_eq_none, filter_eq_nil_iff] at none_
  exact none_.1 mount mem (decide_eq_true ⟨covers, positive⟩)

lemma longestMatch_spec {path : Bytes} (found : longestMatch path mounts none = some longest) :
    longest ∈ mounts ∧ longest.covers path ∧ ∀ mount ∈ mounts, mount.covers path →
      mount.mountPath.length ≤ longest.mountPath.length := by
  rw [longestMatch_eq] at found
  change longest ∈ argmax (fun mount => mount.mountPath.length) _ at found
  obtain ⟨mem, shown⟩ := mem_filter.mp (argmax_mem found)
  refine ⟨mem, (of_decide_eq_true shown).1, fun mount isMount covers => ?_⟩
  by_cases positive : 0 < mount.mountPath.length
  · refine @le_of_mem_argmax _ _ _ (fun mount => mount.mountPath.length) _ mount longest ?_ found
    exact mem_filter.mpr ⟨isMount, decide_eq_true ⟨covers, positive⟩⟩
  · omega

/-- The mount path that `routeMatch` chooses for a path. -/
def chosen (v : VfsState) (path : Bytes) : Option Bytes :=
  (longestMatch path v.mounts none).map (·.mountPath)

section

variable {v other : VfsState} {path : Bytes}

/-- The root is the only mount path of one byte. -/
lemma MountsSound.root_or_long (sound : MountsSound v) (mem : mount ∈ v.mounts)
    : mount.mountPath = [slash] ∨ 1 < mount.mountPath.length := by
  have fixed : ∀ mount ∈ vfsInit.mounts,
      mount.mountPath = [slash] ∨ 1 < mount.mountPath.length := by decide
  obtain old | ⟨_, -, -, long, -⟩ := sound.drivers mount mem
  · exact fixed mount old
  · exact .inr long

lemma MountsSound.positive (sound : MountsSound v) (mem : mount ∈ v.mounts)
    : 0 < mount.mountPath.length := by
  obtain root | long := sound.root_or_long mem
  · rw [root]
    decide
  · omega

lemma covers_iff (long : 1 < mount.mountPath.length) :
    mount.covers path ↔ ∃ rest, path = mount.mountPath ++ rest ∧ Border slash rest := by
  have notOne : mount.mountPath.length ≠ 1 := by omega
  rw [Mount.covers, if_neg notOne]
  simp only [decide_eq_true_eq, isPrefixOf_iff_prefix]
  constructor
  · rintro ⟨⟨rest, rfl⟩, border⟩
    refine ⟨rest, rfl, ?_⟩
    rw [drop_left, length_append] at border
    obtain starts | ends := border
    · exact .inr starts
    · exact .inl (length_eq_zero_iff.mp (by omega))
  · rintro ⟨rest, rfl, border⟩
    refine ⟨prefix_append _ _, ?_⟩
    rw [drop_left, length_append]
    obtain ends | starts := border
    · exact .inr (by rw [ends]; rfl)
    · exact .inl starts

lemma mountPath_unique (sound : MountsSound v) (otherSound : MountsSound other)
    {mount second : Mount} (mem : mount ∈ v.mounts) (otherMember : second ∈ other.mounts)
    (covers : mount.covers path) (otherCovers : second.covers path)
    (same : mount.mountPath.length = second.mountPath.length) :
    mount.mountPath = second.mountPath := by
  obtain root | long := sound.root_or_long mem
  · obtain otherRoot | otherLong := otherSound.root_or_long otherMember
    · rw [root, otherRoot]
    rw [root] at same
    rw [← same] at otherLong
    cases otherLong with | step impossible => cases impossible
  · obtain ⟨_, split, -⟩ := (covers_iff long).mp covers
    obtain ⟨_, otherSplit, -⟩ := (covers_iff (by omega)).mp otherCovers
    exact append_inj_left (split.symm.trans otherSplit) same

lemma chosen_of_some (sound : MountsSound v) (otherSound : MountsSound other)
    (same : ∀ mountPath, mountPath ∈ v.mounts.map (·.mountPath) ↔
      mountPath ∈ other.mounts.map (·.mountPath))
    (found : longestMatch path v.mounts none = some mount) :
    chosen other path = some mount.mountPath := by
  obtain ⟨mem, covers, most⟩ := longestMatch_spec found
  obtain ⟨twin, twinMember, twinPath⟩ :=
    mem_map.mp ((same mount.mountPath).mp (mem_map_of_mem mem))
  have twinCovers : twin.covers path := by
    rw [Mount.covers, twinPath]
    exact covers
  obtain ⟨longest, otherFound⟩ :=
    longestMatch_isSome twinMember twinCovers (otherSound.positive twinMember)
  obtain ⟨otherMember, otherCovers, otherMost⟩ := longestMatch_spec otherFound
  -- the longest mount of the other table is in this table too
  obtain ⟨back, backMember, backPath⟩ :=
    mem_map.mp ((same longest.mountPath).mpr (mem_map_of_mem otherMember))
  have backCovers : back.covers path := by
    rw [Mount.covers, backPath]
    exact otherCovers
  have longer := otherMost twin twinMember twinCovers
  have bound := most back backMember backCovers
  rw [twinPath] at longer
  rw [backPath] at bound
  have equal := mountPath_unique sound otherSound mem otherMember covers otherCovers (by omega)
  rw [chosen, otherFound, equal]
  rfl

lemma chosen_congr (sound : MountsSound v) (otherSound : MountsSound other)
    (same : ∀ mountPath, mountPath ∈ v.mounts.map (·.mountPath) ↔
      mountPath ∈ other.mounts.map (·.mountPath)) (path : Bytes) :
    chosen v path = chosen other path := by
  cases found : longestMatch path v.mounts none with
  | some mount =>
    rw [chosen_of_some sound otherSound same found, chosen, found]
    rfl
  | none =>
    cases otherFound : longestMatch path other.mounts none with
    | none => rw [chosen, chosen, found, otherFound]
    | some mount =>
      have back := chosen_of_some otherSound sound (fun p => (same p).symm) otherFound
      rw [chosen, found] at back
      cases back

end

/-! ### What an open asks -/

include env

lemma log_openRule (log : List DriverEvent) :
    OpenRule env (fun during _ => log <+: during.log) (fun out => log <+: out.2.log) where
  tick grown := grown
  asked grown _ _ _ := grown.trans (prefix_append _ _)
  opened := by
    intro during grown driver
    rw [openHandle]
    cases env.opens during.calls with
    | error e => exact grown
    | ok drvFd => exact grown.trans (prefix_append _ _)
  failed grown _ := grown
  closed := by
    intro during handle grown e
    cases handle with
    | none => exact grown
    | some handle => exact grown.trans (prefix_append _ _)
  claimed := by
    intro during handle grown slot live shared
    rw [claim]
    cases findFirstClosedFd during.ctx with
    | ok fd => exact grown
    | error e =>
      cases handle with
      | none => exact grown
      | some handle => exact grown.trans (prefix_append _ _)

lemma openNode_log (driver : Nat) (path : Bytes) (flags : Oflags) (needsMemory : Bool)
    (type : FdType) (slotFlags : Oflags) (slotPath : Bytes) :
    ∃ rest, (openNode env v driver path flags needsMemory (.other type slotFlags slotPath)
      nofun).2.log = v.log ++ .asked driver path flags :: rest := by
  obtain ⟨rest, same⟩ := (log_openRule env (v.log ++ [.asked driver path flags])).openAsked
    (prefix_refl _) needsMemory type slotFlags slotPath
  refine ⟨rest, ?_⟩
  rw [← same, append_assoc]
  rfl

lemma claim_log (slot : FdSlot) (live : slot ≠ .closed) :
    (claim env v slot live none).2.log = v.log := by
  rw [claim]
  cases findFirstClosedFd v.ctx <;> rfl

omit env

lemma devfsResolve_mem {nodes : List (Bytes × Nat)} {driver : Nat}
    {below : Option Bytes} (found : devfsResolve nodes suffix = some (driver, below)) :
    driver ∈ nodes.map (·.2) := by
  rw [devfsResolve] at found
  split at found
  · rename_i exact_
    cases found
    exact mem_map_of_mem (mem_of_find?_eq_some exact_)
  · split at found
    · rename_i above
      cases found
      exact mem_map_of_mem (mem_of_find?_eq_some above)
    · cases found

/-- What an open of a normalised path asks first, if anything: the driver of the mount that is
chosen, or a node of `/dev` or `/net`. -/
lemma routeOpenFd_log (env : Backends) (v : VfsState) (path : Bytes) (flags : Oflags) :
    (routeOpenFd env v path flags).2.log = v.log ∨
      ∃ driver asked rest,
        (routeOpenFd env v path flags).2.log = v.log ++ .asked driver asked flags :: rest ∧
        ((∃ suffix, routeMatch v.ctx path = .ok (.driver driver, suffix)) ∨
          driver ∈ v.devfs.map (·.2) ∨ driver ∈ v.netfs.map (·.2)) := by
  rw [routeOpenFd]
  cases routed : routeMatch v.ctx path with
  | error e => exact .inl rfl
  | ok found =>
    obtain ⟨type, suffix⟩ := found
    cases type with
    | tarfs =>
      left
      dsimp only
      split_ifs
      all_goals first | rfl | exact claim_log env v _ _
    | proc =>
      left
      dsimp only
      cases env.answer .proc suffix (.open_ flags) with
      | error e => rfl
      | ok value => exact claim_log env v _ _
    | driver key =>
      right
      obtain ⟨rest, log⟩ := openNode_log env v key (if suffix = [] then rootOf env key else suffix)
        flags false (.mounted (.driver key)) flags (storedPath path)
      exact ⟨key, _, rest, log, Or.inl ⟨suffix, rfl⟩⟩
    | dev =>
      dsimp only
      rw [devFsOpen]
      split
      · left
        split
        · exact claim_log env v.tick _ _
        · rfl
      cases resolved : devfsResolve v.devfs suffix with
      | none => exact .inl rfl
      | some node =>
        right
        obtain ⟨rest, log⟩ := openNode_log env v node.1 (node.2.getD (rootOf env node.1)) flags
          true (.mounted .dev) flags (storedPath path)
        exact ⟨node.1, _, rest, log, Or.inr (.inl (devfsResolve_mem resolved))⟩
    | net =>
      dsimp only
      rw [netFsOpen]
      split
      · left
        split
        · exact claim_log env v.tick _ _
        · rfl
      cases resolved : v.netfs.find? (·.1 = suffix) with
      | none => exact .inl rfl
      | some node =>
        right
        obtain ⟨rest, log⟩ := openNode_log env v node.2 [] flags true (.mounted .net) flags
          (storedPath path)
        have mem : node.2 ∈ v.netfs.map (·.2) :=
          mem_map_of_mem (mem_of_find?_eq_some resolved)
        exact ⟨node.2, _, rest, log, Or.inr (.inr mem)⟩

/-! ### Routing -/

def AtOrBelow (mountPath path : Bytes) : Prop := hostLocation mountPath <+: hostLocation path

/-- The path below a mount path: the names that are left, with slashes in between. -/
def remainder (mountPath path : Bytes) : Bytes :=
  [slash].intercalate ((hostLocation path).drop (hostLocation mountPath).length)

/-- `VfsOpen` asks the driver of a mount first, for what is left of the path, and for its root when
nothing is left. -/
def Reaches (env : Backends) (v : VfsState) (path : Bytes) (flags : Oflags) (mount : Mount) : Prop :=
  ∃ key rest, mount.type = .driver key ∧ (vfsOpen env v path flags).2.log = v.log ++
    .asked key (if remainder mount.mountPath path = [] then rootOf env key
      else remainder mount.mountPath path) flags :: rest

def DriverAbove (v : VfsState) (path : Bytes) (mount : Mount) : Prop :=
  mount ∈ v.mounts ∧ (∃ key, mount.type = .driver key) ∧ AtOrBelow mount.mountPath path

/-- `VfsOpen` of a path at or below the mount path of a driver reaches the driver with the longest
such mount path. -/
def RoutesToLongest (env : Backends) (v : VfsState) : Prop :=
  ∀ path flags, isAbsolute path → succeeded (vfsResolvePath env.toSubsystems v.ctx (-1) path) →
    ∀ mount, DriverAbove v path mount →
      ∃ longest, DriverAbove v path longest ∧
        (∀ other, DriverAbove v path other →
          other.mountPath.length ≤ longest.mountPath.length) ∧
        Reaches env v path flags longest

section

variable {env : Backends} {v : VfsState} {path : Bytes}

/-- The text of a location ends with a slash only at the root. -/
lemma renderPath_getLast {location : List Bytes} (proper : ∀ name ∈ location, ProperName name)
    (named : location ≠ []) : (renderPath location).getLast? ≠ some slash := by
  intro ends
  cases location.eq_nil_or_concat with
  | inl root => exact named root
  | inr last =>
    obtain ⟨parent, name, same⟩ := last
    have mem : name ∈ location := by
      rw [same, concat_eq_append]
      exact mem_append_right _ (mem_singleton_self name)
    obtain ⟨nonempty, free, -⟩ := proper name mem
    have text : renderPath location = (led slash parent ++ [slash]) ++ name := by
      rw [renderPath_eq, same, concat_eq_append, led_append]
      simp
    rw [text, getLast?_append_of_ne_nil _ nonempty] at ends
    exact free (mem_of_getLast? ends)

lemma vfsResolvePath_absolute (normalizes : NormalizesAbsolute env.normalize)
    (absolute : isAbsolute path) {normal : Bytes}
    (resolved : vfsResolvePath env.toSubsystems v.ctx (-1) path = .ok normal) :
    normal = renderPath (hostLocation path) := by
  rw [vfsResolvePath] at resolved
  simp only [if_pos absolute] at resolved
  split at resolved
  · cases resolved
  rcases normalizes path absolute with same | ⟨_, same⟩
  · rw [same] at resolved
    split at resolved
    · rename_i ends
      exfalso
      by_cases root : hostLocation path = []
      · rw [root] at ends
        exact absurd ends.1 (by decide)
      · exact renderPath_getLast (hostLocation_proper path) root ends.2
    · exact (Except.ok.inj resolved).symm
  · rw [same] at resolved
    split at resolved
    · rw [dropLast_concat] at resolved
      exact (Except.ok.inj resolved).symm
    rename_i ends
    exfalso
    apply ends
    refine ⟨?_, by simp⟩
    simp [renderPath]

lemma vfsResolvePath_short (normalizes : NormalizesAbsolute env.normalize)
    (absolute : isAbsolute path) (short : path.length < vfsMountPathLen) :
    succeeded (vfsResolvePath env.toSubsystems v.ctx (-1) path) := by
  have length : (renderPath (hostLocation path)).length ≤ path.length := by
    obtain shorter | normal := renderPath_length absolute
    · omega
    · rw [normal]
  have bound : (env.normalize path).length < vfsFdPathLen := by
    have sizes : vfsMountPathLen = 64 ∧ vfsFdPathLen = 128 := ⟨rfl, rfl⟩
    rcases normalizes path absolute with same | ⟨-, same⟩
    · rw [same]
      omega
    · rw [same, length_append, length_singleton]
      omega
  rw [vfsResolvePath]
  simp only [if_pos absolute, if_neg (Nat.not_le_of_lt bound)]
  split <;> rfl

lemma led_of_normal {text : Bytes} (long : 1 < text.length) (normal : NormalPath text) :
    hostLocation text ≠ [] ∧ led slash (hostLocation text) = text := by
  have named : hostLocation text ≠ [] := by
    intro root
    rw [NormalPath, root] at normal
    rw [← normal] at long
    exact absurd long (by decide)
  refine ⟨named, ?_⟩
  rw [NormalPath, renderPath_eq, if_neg named] at normal
  exact normal

variable {mount : Mount} {key : Nat}

/-- A mount path without detours that is not the root's covers the text of a location iff
the location is the mount path's or below it. -/
lemma covers_renderPath_iff (long : 1 < mount.mountPath.length)
    (normal : NormalPath mount.mountPath) (path : Bytes) :
    mount.covers (renderPath (hostLocation path)) ↔ AtOrBelow mount.mountPath path := by
  obtain ⟨_, text⟩ := led_of_normal long normal
  have free : ∀ path, ∀ name ∈ hostLocation path, slash ∉ name := fun path name mem =>
    (hostLocation_proper path name mem).2.1
  rw [covers_iff long, AtOrBelow, ← led_border_iff slash (free _) (free _), text]
  by_cases root : hostLocation path = []
  · -- the text of the root is shorter than the mount path
    rw [renderPath_eq, if_pos root, root, led_nil]
    constructor
    · rintro ⟨rest, same, -⟩
      have lengths := congrArg List.length same
      rw [length_append, length_singleton] at lengths
      omega
    · rintro ⟨rest, same, -⟩
      have lengths := congrArg List.length same
      rw [length_append, length_nil] at lengths
      omega
  · rw [renderPath_eq, if_neg root]

lemma fixed_not_driver (fixed : mount ∈ vfsInit.mounts) (key : Nat) : mount.type ≠ .driver key := by
  have types : ∀ mount ∈ vfsInit.mounts, mount.type ∈ [.tarfs, .dev, .net, .proc] := by decide
  intro driver
  have impossible := types mount fixed
  rw [driver] at impossible
  simp at impossible

lemma MountsSound.driver_long (sound : MountsSound v) (mem : mount ∈ v.mounts)
    (driver : mount.type = .driver key) :
    isAbsolute mount.mountPath ∧ 1 < mount.mountPath.length ∧
      mount.mountPath.length < vfsMountPathLen := by
  obtain fixed | ⟨-, -, absolute, long, short⟩ := sound.drivers mount mem
  · exact absurd driver (fixed_not_driver fixed key)
  · exact ⟨absolute, long, short⟩

lemma MountsSound.longest_driver (sound : MountsSound v)
    (above : DriverAbove v path mount) (normal : NormalPath mount.mountPath)
    (mem : longest ∈ v.mounts) (covers : longest.covers (renderPath (hostLocation path)))
    (longer : mount.mountPath.length ≤ longest.mountPath.length) :
    ∃ key, longest.type = .driver key := by
  obtain ⟨mounted, ⟨key, driver⟩, below⟩ := above
  have long := (sound.driver_long mounted driver).2.1
  obtain fixed | ⟨key, is, -⟩ := sound.drivers longest mem
  · exfalso
    -- a fixed mount other than the root's has one name, which both mount paths start with
    have facts : ∀ fixed ∈ vfsInit.mounts, 1 < fixed.mountPath.length →
        NormalPath fixed.mountPath ∧ (hostLocation fixed.mountPath).length = 1 := by decide
    obtain ⟨fixedNormal, _⟩ := facts longest fixed (by omega)
    have fixedBelow := (covers_renderPath_iff (by omega) fixedNormal path).mp covers
    obtain ⟨named, text⟩ := led_of_normal long normal
    have fixedText := (led_of_normal (by omega) fixedNormal).2
    have positive := length_pos_iff.mpr named
    obtain ⟨rest, split⟩ := prefix_of_prefix_length_le fixedBelow below (by omega)
    have lengths : mount.mountPath.length = longest.mountPath.length + (led slash rest).length := by
      rw [← text, ← split, led_append, length_append, fixedText]
    have covered := (covers_renderPath_iff long normal path).mpr below
    have same := mountPath_unique sound sound mounted mem covered covers (by omega)
    rw [← inj_on_of_nodup_map sound.distinct mounted mem same] at fixed
    exact fixed_not_driver fixed key driver
  · exact ⟨key, is⟩

lemma remainder_eq {mountPath : Bytes} (long : 1 < mountPath.length)
    (normal : NormalPath mountPath) (below : AtOrBelow mountPath path) :
    (let suffix := (renderPath (hostLocation path)).drop mountPath.length
    if suffix.head? = some slash then suffix.tail else suffix) = remainder mountPath path := by
  obtain ⟨named, text⟩ := led_of_normal long normal
  obtain ⟨rest, split⟩ := below
  have pathNamed : hostLocation path ≠ [] := by
    intro root
    rw [root] at split
    exact named (append_eq_nil_iff.mp split).1
  have suffix : (renderPath (hostLocation path)).drop mountPath.length = led slash rest := by
    rw [renderPath_eq, if_neg pathNamed, ← split, led_append, text, drop_left]
  rw [suffix, remainder, ← split, drop_left]
  cases rest with
  | nil => rfl
  | cons name names =>
    rw [led_eq_intercalate slash (by simp)]
    simp

lemma routesToLongest_of_normal (normalizes : NormalizesAbsolute env.normalize) (sound : MountsSound v)
    (normal : ∀ mount ∈ v.mounts, ∀ key, mount.type = .driver key → NormalPath mount.mountPath) :
    RoutesToLongest env v := by
  intro path flags absolute resolves mount above
  have covering : ∀ other, DriverAbove v path other →
      other.covers (renderPath (hostLocation path)) := by
    rintro other ⟨mem, ⟨key, driver⟩, below⟩
    have long := (sound.driver_long mem driver).2.1
    exact (covers_renderPath_iff long (normal other mem key driver) path).mpr below
  obtain ⟨longest, found⟩ :=
    longestMatch_isSome above.1 (covering mount above) (sound.positive above.1)
  obtain ⟨mem, covers, most⟩ := longestMatch_spec found
  obtain ⟨mountKey, mountDriver⟩ := above.2.1
  obtain ⟨key, driver⟩ := sound.longest_driver above (normal mount above.1 mountKey mountDriver)
    mem covers (most mount above.1 (covering mount above))
  have long := (sound.driver_long mem driver).2.1
  have longestNormal := normal longest mem key driver
  have below := (covers_renderPath_iff long longestNormal path).mp covers
  refine ⟨longest, ⟨mem, ⟨key, driver⟩, below⟩, ?_, ?_⟩
  · exact fun other otherAbove => most other otherAbove.1 (covering other otherAbove)
  -- the open asks the driver that was found
  cases resolved : vfsResolvePath env.toSubsystems v.ctx (-1) path with
  | error e =>
    rw [resolved] at resolves
    cases resolves
  | ok text =>
    obtain rfl := vfsResolvePath_absolute normalizes absolute resolved
    have some_ : path ≠ [] := by
      rintro rfl
      cases absolute
    have routed : routeMatch v.ctx (renderPath (hostLocation path)) =
        .ok (.driver key, remainder longest.mountPath path) := by
      rw [routeMatch, show v.ctx.mounts = v.mounts from rfl, found]
      simp only [driver]
      rw [← remainder_eq long longestNormal below]
    obtain ⟨rest, log⟩ := openNode_log env v key
      (if remainder longest.mountPath path = [] then rootOf env key
        else remainder longest.mountPath path) flags false (.mounted (.driver key)) flags
      (storedPath (renderPath (hostLocation path)))
    refine ⟨key, rest, driver, ?_⟩
    rw [vfsOpen, if_neg some_, openThroughMounts, resolved]
    simp only [routeOpenFd, routed]
    exact log

variable (balanced : Balanced v [])
include balanced

lemma Balanced.owned_once (key : Nat) : (ownedDrivers v).count key ≤ 1 := by
  have taken := balanced.owned.taken key
  have single := balanced.owned.single key
  omega

lemma Balanced.mountDriver_unique {other : Mount} (mem : mount ∈ v.mounts)
    (otherMember : other ∈ v.mounts) (driver : mount.type = .driver key)
    (otherDriver : other.type = .driver key) : mount = other := by
  have once : (v.mounts.flatMap fun mount => mount.driverKey.toList).count key ≤ 1 := by
    have bound := balanced.owned_once key
    simp only [ownedDrivers, mountDrivers, filterMap_eq_flatMap_toList, count_append] at bound
    omega
  have key_ : ∀ mount : Mount, mount.type = .driver key → key ∈ mount.driverKey.toList := by
    intro mount is
    rw [Mount.driverKey, is]
    exact mem_singleton_self key
  obtain ⟨pos, within, here⟩ := mem_iff_getElem.mp mem
  obtain ⟨otherPlace, otherWithin, there⟩ := mem_iff_getElem.mp otherMember
  have same : pos = otherPlace := by
    apply slot_unique (fun mount => mount.driverKey.toList) v.mounts ⟨[], .tarfs⟩ rfl once
    · rw [getD_eq_getElem _ _ within, here]
      exact key_ mount driver
    · rw [getD_eq_getElem _ _ otherWithin, there]
      exact key_ other otherDriver
  subst same
  exact here.symm.trans there

lemma Balanced.mountDriver_not_node (mem : mount ∈ v.mounts)
    (driver : mount.type = .driver key) : key ∉ v.devfs.map (·.2) ∧ key ∉ v.netfs.map (·.2) := by
  have bound := balanced.owned_once key
  have mounted : key ∈ mountDrivers v := by
    apply mem_filterMap.mpr
    refine ⟨mount, mem, ?_⟩
    rw [Mount.driverKey, driver]
  have positive := count_pos_iff.mpr mounted
  simp only [ownedDrivers, count_append] at bound
  refine ⟨?_, ?_⟩
  · intro node
    have second := count_pos_iff.mpr node
    omega
  · intro node
    have second := count_pos_iff.mpr node
    omega

omit balanced

lemma routeMatch_ok {type : MountType} (routed : routeMatch v.ctx path = .ok (type, suffix)) :
    ∃ best, longestMatch path v.mounts none = some best ∧ best.type = type := by
  rw [routeMatch, show v.ctx.mounts = v.mounts from rfl] at routed
  cases found : longestMatch path v.mounts none with
  | none =>
    rw [found] at routed
    cases routed
  | some best =>
    rw [found] at routed
    exact ⟨best, rfl, (Prod.mk.inj (Except.ok.inj routed)).1⟩

lemma normal_of_routesToLongest (normalizes : NormalizesAbsolute env.normalize)
    (sound : MountsSound v) (balanced : Balanced v []) (routes : RoutesToLongest env v)
    (mem : mount ∈ v.mounts) (driver : mount.type = .driver key) :
    NormalPath mount.mountPath := by
  obtain ⟨absolute, long, short⟩ := sound.driver_long mem driver
  have above : DriverAbove v mount.mountPath mount :=
    ⟨mem, ⟨key, driver⟩, prefix_refl _⟩
  have resolves : succeeded (vfsResolvePath env.toSubsystems v.ctx (-1) mount.mountPath) :=
    vfsResolvePath_short normalizes absolute short
  obtain ⟨longest, longestAbove, longer, reaches⟩ :=
    routes mount.mountPath 0 absolute resolves mount above
  obtain ⟨found, rest, longestDriver, log⟩ := reaches
  have some_ : mount.mountPath ≠ [] := by
    intro empty
    rw [empty] at long
    cases long
  cases resolved : vfsResolvePath env.toSubsystems v.ctx (-1) mount.mountPath with
  | error e =>
    rw [resolved] at resolves
    cases resolves
  | ok text =>
    obtain rfl := vfsResolvePath_absolute normalizes absolute resolved
    rw [vfsOpen, if_neg some_, openThroughMounts, resolved] at log
    obtain unchanged | ⟨asked, path, _, logged, source⟩ :=
      routeOpenFd_log env v (renderPath (hostLocation mount.mountPath)) 0
    · rw [unchanged] at log
      exact absurd (self_eq_append_right.mp log) (by simp)
    · have first := append_cancel_left (logged.symm.trans log)
      obtain rfl : asked = found := by
        have same := (List.cons.inj first).1
        exact (DriverEvent.asked.inj same).1
      obtain ⟨notDev, notNet⟩ := balanced.mountDriver_not_node longestAbove.1 longestDriver
      obtain ⟨_, routed⟩ | dev | net := source
      · obtain ⟨_, best_, type⟩ := routeMatch_ok routed
        obtain ⟨listed, covers, -⟩ := longestMatch_spec best_
        obtain rfl := balanced.mountDriver_unique longestAbove.1 listed longestDriver type
        obtain ⟨_, text, -⟩ := (covers_iff (sound.driver_long listed type).2.1).mp covers
        have fits := congrArg List.length text
        rw [length_append] at fits
        have bound := longer mount above
        obtain shorter | normal := renderPath_length absolute
        · omega
        · exact normal
      · exact absurd dev notDev
      · exact absurd net notNet

end

/-- In every run, which mount path is chosen for a path depends on the mount paths there are and
not on the order of mounting, and opens of the paths at or below drivers' mount paths reach the
driver with the longest one, with the rest of the path, iff no driver's mount path has a
detour. -/
theorem mounted_drivers_reached_iff (env : Backends)
    (normalizes : NormalizesAbsolute env.normalize) (reqs : List VfsRequest) :
    let v := (vfsMachine env).exec vfsInit reqs
    (∀ others, let other := (vfsMachine env).exec vfsInit others
      (v.mounts.map (·.mountPath)).Perm (other.mounts.map (·.mountPath)) →
        ∀ path, chosen v path = chosen other path) ∧
    (RoutesToLongest env v ↔
      ∀ mount ∈ v.mounts, ∀ key, mount.type = .driver key → NormalPath mount.mountPath) := by
  intro v
  have sound := mountsSound_exec env reqs
  have balanced := balanced_exec env reqs
  refine ⟨?_, ?_, ?_⟩
  · intro others other permuted path
    exact chosen_congr sound (mountsSound_exec env others) (fun _ => permuted.mem_iff) path
  · intro routes mount mem key driver
    exact normal_of_routesToLongest normalizes sound balanced routes mem driver
  · intro normal
    exact routesToLongest_of_normal normalizes sound normal

/-- Drivers that open and close everything, under a path normalisation without trailing
slashes. -/
def normalizingBackends : Backends :=
  { plainBackends with normalize := fun path => renderPath (hostLocation path) }

/-- Two nested mounts are routed to the longer one, in either order of mounting. -/
theorem nested_mounts_reached : NormalizesAbsolute normalizingBackends.normalize ∧
    RoutesToLongest normalizingBackends ((vfsMachine normalizingBackends).exec vfsInit
      [.mountDriver (ascii "/etc"), .mountDriver (ascii "/etc/config")]) ∧
    ∀ path, chosen ((vfsMachine normalizingBackends).exec vfsInit
        [.mountDriver (ascii "/etc"), .mountDriver (ascii "/etc/config")]) path =
      chosen ((vfsMachine normalizingBackends).exec vfsInit
        [.mountDriver (ascii "/etc/config"), .mountDriver (ascii "/etc")]) path := by
  have normalizes : NormalizesAbsolute normalizingBackends.normalize :=
    fun path _ => Or.inl rfl
  have reached := mounted_drivers_reached_iff normalizingBackends normalizes
    [.mountDriver (ascii "/etc"), .mountDriver (ascii "/etc/config")]
  refine ⟨normalizes, reached.2.mpr ?_, ?_⟩
  · have normal : ∀ mount ∈ ((vfsMachine normalizingBackends).exec vfsInit
        [.mountDriver (ascii "/etc"), .mountDriver (ascii "/etc/config")]).mounts,
        NormalPath mount.mountPath := by decide +kernel
    intro mount mem key _
    exact normal mount mem
  · exact reached.1 [.mountDriver (ascii "/etc/config"), .mountDriver (ascii "/etc")]
      (by decide +kernel)

/-- A driver mounted at `/data/`. -/
def trailingMount : VfsState :=
  (vfsMachine normalizingBackends).exec vfsInit [.mountDriver (ascii "/data/")]

/-- Opening `/data/` or `/data/x` asks no driver, although one is mounted there. -/
theorem trailing_mount_missed : (vfsMountDriver vfsInit (ascii "/data/")).1 = .ok 0 ∧
      (vfsOpen normalizingBackends trailingMount (ascii "/data/") 0).2.log = trailingMount.log ∧
      (vfsOpen normalizingBackends trailingMount (ascii "/data/x") 0).2.log = trailingMount.log ∧
      ¬ RoutesToLongest normalizingBackends trailingMount := by
  refine ⟨by decide +kernel, by decide +kernel, by decide +kernel, ?_⟩
  intro routes
  have mounted : ⟨ascii "/data/", .driver 0⟩ ∈ trailingMount.mounts := by decide +kernel
  have normal := normal_of_routesToLongest (fun path _ => Or.inl rfl) (mountsSound_exec _ _)
      (balanced_exec _ _) routes mounted rfl
  exact absurd normal (by decide +kernel)

end WantedEngine.Vfs
