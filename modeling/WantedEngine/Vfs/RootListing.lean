import WantedEngine.Vfs.Descriptors
import WantedEngine.Vfs.Listing
import WantedEngine.Vfs.TarLookup
import Mathlib.Data.List.TakeWhile
/-!
# Listing the root to its end

The root lists what the TarFS has at its top and then the first components of the mounts. A guest
follows `d_next` from page to page until a page is empty. `VfsReadDir` goes on to the mounts when
the TarFS leaves a byte of the buffer, which it takes as the end of the TarFS; but the listing of
the TarFS also stops at an entry that does not fit. Where a mount fits behind it, the guest resumes
among the mounts, and the rest of the TarFS is lost. And nothing compares the names of the TarFS
with one another or with those of the mounts.
-/
namespace WantedEngine.Vfs

open Foundation Packing List Candidate

/-! ### What the root should list -/

/-- The first component of an entry's path. -/
def TarEntry.topName (entry : TarEntry) : Bytes := entry.path.takeWhile (· ≠ slash)

/-- A file of the TarFS at its top, or below a directory there, by the name at the top. -/
def TarEntry.IsTop (name : Bytes) (entry : TarEntry) : Prop :=
  entry.isMarker = false ∧ entry.path ≠ [] ∧ entry.topName = name

/-- A mount adds a component to a directory. -/
def Mount.Adds (base name : Bytes) (mount : Mount) : Prop :=
  ∃ last, mountChild base mount = some (name, last)

/-- The names at the top of the TarFS and the first components of the mounts. -/
def RootName (index : List TarEntry) (mounts : List Mount) (name : Bytes) : Prop :=
  (∃ entry ∈ index, entry.IsTop name) ∨ ∃ mount ∈ mounts, mount.Adds [] name

def rootTar (index : List TarEntry) : List Candidate := tarCandidates index [] (index.length + 1) 0

def rootMounts (mounts : List Mount) : List Candidate := mountCandidates mounts [] 0 mounts

def rootRemaining (index : List TarEntry) (mounts : List Mount) (cookie : Nat) : Remaining Candidate :=
  if mountPhaseBit ≤ cookie then
    ([], mountCandidates mounts [] (cookie % mountPhaseBit) (mounts.drop (cookie % mountPhaseBit)))
  else (tarCandidates index [] (index.length + 1) (tarStart index [] cookie), rootMounts mounts)

/-- A guest that reads the root: `VfsReadDir` at a cookie, and on from the `d_next` of the last
entry. -/
def rootPager (filetypeOf : Nat → Filetype) (index : List TarEntry) (mounts : List Mount) :
    Pager Nat Dirent where
  page cookie bufLen :=
    match readRoot filetypeOf index mounts cookie bufLen with
    | .ok listed => listed.dirents
    | .error _ => []
  resume cookie bufLen :=
    match readRoot filetypeOf index mounts cookie bufLen with
    | .ok listed => (listed.dirents.getLast?.map Dirent.next).getD cookie
    | .error _ => cookie

/-- Each buffer is large enough for the next entry. -/
def RootAdequate (filetypeOf : Nat → Filetype) (index : List TarEntry) (mounts : List Mount)
    (sizes : Stream' Nat) : Prop :=
  ∀ call entry,
    (upcoming Candidate.shown (rootRemaining index mounts
      ((rootPager filetypeOf index mounts).at_ 0 sizes call))).head? = some entry →
    entry.size ≤ sizes.get call

/-- The guest comes to an empty page, and until then gets every name exactly once. -/
def ListsRoot (filetypeOf : Nat → Filetype) (index : List TarEntry) (mounts : List Mount)
    (sizes : Stream' Nat) : Prop :=
  ∃ dirents, (rootPager filetypeOf index mounts).Obtains 0 sizes dirents ∧
    (dirents.map Dirent.name).Nodup ∧
    ∀ name, name ∈ dirents.map Dirent.name ↔ RootName index mounts name

/-! ### Where a guest resumes -/

/-- Every entry takes room. -/
lemma Candidate.size_pos (candidate : Candidate) : 0 < candidate.size :=
  Nat.lt_of_lt_of_le (by decide) (Nat.le_add_right direntSize _)

section Resumes

variable {listed : Listed}

lemma Listed.Resumes.cases {left : Option (List Candidate)}
    {belongs : Nat → List Candidate → Prop} (resumes : listed.Resumes left belongs) :
    listed.dirents.getLast? = none ∧ left = none ∨
      ∃ last rest, listed.dirents.getLast? = some last ∧ left = some rest ∧ belongs last.next rest := by
  unfold Listed.Resumes at resumes
  split at resumes
  · rename_i none_
    exact .inl ⟨none_, rfl⟩
  · rename_i last rest isLast
    exact .inr ⟨last, rest, isLast, rfl, resumes⟩
  · exact resumes.elim

variable {filetypeOf : Nat → Filetype} {index : List TarEntry} {mounts : List Mount}
  {cookie bufLen : Nat}

/-- The cookies that a guest comes to. -/
def RootCookie (index : List TarEntry) (cookie : Nat) : Prop :=
  cookie ≤ index.length ∨ mountPhaseBit ≤ cookie

variable (filetypeOf mounts) in
/-- At such a cookie a listing of the root is not refused. -/
lemma readRoot_ok (ordered : RootCookie index cookie) (bufLen : Nat) :
    ∃ listed, readRoot filetypeOf index mounts cookie bufLen = .ok listed := by
  unfold readRoot
  split
  · exact ⟨_, rfl⟩
  rename_i early
  have inside := Nat.not_lt.mpr (ordered.resolve_right early)
  have listed : ∃ listed, readDirLocked index [] cookie bufLen = .ok listed := by
    unfold readDirLocked
    split
    · exact ⟨_, rfl⟩
    · exact ⟨_, rfl⟩
  obtain ⟨_, isFirst⟩ := listed
  rw [isFirst]
  dsimp only
  split
  · exact ⟨_, rfl⟩
  · exact ⟨_, rfl⟩

lemma rootRemaining_mount (few : mounts.length ≤ vfsMaxMounts) {pos : Nat}
    (inside : pos ≤ mounts.length) :
    rootRemaining index mounts (mountPhaseBit + pos) =
      ([], mountCandidates mounts [] pos (mounts.drop pos)) := by
  have small : pos < mountPhaseBit :=
    Nat.lt_of_le_of_lt (inside.trans few) (by decide)
  rw [rootRemaining, if_pos (Nat.le_add_right _ _), Nat.add_mod_left, Nat.mod_eq_of_lt small]

lemma rootRemaining_tar (short : index.length < 2 ^ 16) {pos : Nat} (some : 0 < pos)
    (inside : pos ≤ index.length) :
    rootRemaining index mounts pos =
      (tarCandidates index [] (index.length + 1) pos, rootMounts mounts) := by
  have small : ¬ mountPhaseBit ≤ pos := by
    have big : 2 ^ 16 ≤ mountPhaseBit := by decide
    omega
  rw [rootRemaining, if_neg small, tarStart, if_neg (Nat.ne_of_gt some), Nat.mod_eq_of_lt (by omega)]

lemma readRoot_resumes (short : index.length < 2 ^ 16) (few : mounts.length ≤ vfsMaxMounts)
    (ordered : RootCookie index cookie)
    (done : readRoot filetypeOf index mounts cookie bufLen = .ok listed) :
    rootRemaining index mounts ((listed.dirents.getLast?.map Dirent.next).getD cookie) =
        Packing.resume size shown (rootRemaining index mounts cookie) bufLen ∧
      RootCookie index ((listed.dirents.getLast?.map Dirent.next).getD cookie) := by
  unfold readRoot at done
  dsimp only at done
  by_cases phase : mountPhaseBit ≤ cookie
  · rw [if_pos phase] at done
    cases done
    have remaining : rootRemaining index mounts cookie = ([], mountCandidates mounts []
        (cookie % mountPhaseBit) (mounts.drop (cookie % mountPhaseBit))) := if_pos phase
    rw [remaining, resume_second size_pos, nil_append]
    rcases (mountChildrenFrom_packs filetypeOf mounts [] (bufLen - 0) mountPhaseBit
        (cookie % mountPhaseBit) 0 _ rfl).resumes.cases with
      ⟨none_, left⟩ | ⟨last, rest, isLast, left, pos, inside, next, rfl⟩
    · rw [Nat.sub_zero] at left
      rw [mountChildren, none_, left]
      exact ⟨remaining, .inr phase⟩
    · rw [Nat.sub_zero] at left
      rw [mountChildren, isLast, left, Option.map_some, Option.getD_some, next]
      exact ⟨rootRemaining_mount few inside, .inr (Nat.le_add_right _ _)⟩
  rw [if_neg phase] at done
  cases first : readDirLocked index [] cookie bufLen with
  | error e =>
    rw [first] at done
    cases done
  | ok tar =>
    rw [first] at done
    dsimp only at done
    have remaining : rootRemaining index mounts cookie =
        (tarCandidates index [] (index.length + 1) (tarStart index [] cookie), rootMounts mounts) :=
      if_neg phase
    have used := (readDirLocked_packs first).shows.2
    have within := fill_le size shown
      (tarCandidates index [] (index.length + 1) (tarStart index [] cookie)) (Nat.zero_le bufLen)
    rw [← used] at within
    -- where the guest resumes when no mount is listed
    have inTar : rootRemaining index mounts ((tar.dirents.getLast?.map Dirent.next).getD cookie) =
          ((behind size shown bufLen 0 (tarCandidates index []
            (index.length + 1) (tarStart index [] cookie))).getD (tarCandidates index []
            (index.length + 1) (tarStart index [] cookie)), rootMounts mounts) ∧
        RootCookie index ((tar.dirents.getLast?.map Dirent.next).getD cookie) := by
      rcases (readDirLocked_packs first).resumes.cases with
        ⟨none_, left⟩ | ⟨last, rest, isLast, left, some, inside, rfl⟩
      · rw [none_, left]
        exact ⟨remaining, ordered⟩
      · rw [isLast, left]
        exact ⟨rootRemaining_tar short some inside, .inl inside⟩
    rw [remaining]
    unfold Packing.resume
    dsimp only
    rw [← used]
    by_cases filled : tar.used = bufLen
    · rw [if_pos filled] at done
      cases done
      rw [if_pos filled]
      exact inTar
    rw [if_neg filled] at done
    cases done
    rw [if_neg filled, getLast?_append]
    rcases (mountChildrenFrom_packs filetypeOf mounts [] (bufLen - tar.used) mountPhaseBit
        0 0 mounts rfl).resumes.cases with
      ⟨none_, left⟩ | ⟨last, rest, isLast, left, pos, inside, next, rfl⟩
    · rw [← behind_shift within 0, Nat.add_zero] at left
      rw [mountChildren, drop_zero, none_, rootMounts, left, Option.none_or]
      exact inTar
    · rw [← behind_shift within 0, Nat.add_zero] at left
      rw [mountChildren, drop_zero, isLast, rootMounts, left, Option.some_or,
        Option.map_some, Option.getD_some, next]
      exact ⟨rootRemaining_mount few inside, .inr (Nat.le_add_right _ _)⟩

variable (filetypeOf) in
lemma rootPager_follows (short : index.length < 2 ^ 16) (few : mounts.length ≤ vfsMaxMounts) :
    Pager.Follows (rootPager filetypeOf index mounts)
      (twoLists Candidate.size Candidate.shown) (RootCookie index)
      (rootRemaining index mounts) Dirent.candidate where
  page cookie bufLen ordered := by
    obtain ⟨listed, done⟩ := readRoot_ok filetypeOf mounts ordered bufLen
    simp only [rootPager, done]
    exact (readRoot_shows 0 done).1
  resume cookie bufLen ordered := by
    obtain ⟨listed, done⟩ := readRoot_ok filetypeOf mounts ordered bufLen
    simp only [rootPager, done]
    exact (readRoot_resumes short few ordered done).1
  keeps cookie bufLen ordered := by
    obtain ⟨listed, done⟩ := readRoot_ok filetypeOf mounts ordered bufLen
    simp only [rootPager, done]
    exact (readRoot_resumes short few ordered done).2

end Resumes

/-! ### The names that come -/

section Names

variable {index : List TarEntry} {mounts : List Mount} {name : Bytes}

lemma mountCandidates_shown (mounts : List Mount) (base : Bytes) (pos : Nat) (rest : List Mount)
    : ∀ candidate ∈ mountCandidates mounts base pos rest, candidate.shown = true := by
  induction rest generalizing pos with
  | nil => nofun
  | cons mount rest ih =>
    unfold mountCandidates
    split
    · exact ih (pos + 1)
    split
    · exact ih (pos + 1)
    · exact forall_mem_cons.mpr ⟨rfl, ih (pos + 1)⟩

variable {pos : Nat} {entry : TarEntry}

lemma Mount.adds_iff {base added : Bytes} {mount : Mount} {last : Bool}
    (child : mountChild base mount = some (added, last)) : mount.Adds base name ↔ name = added := by
  rw [Mount.Adds, child]
  constructor
  · rintro ⟨_, same⟩
    cases same
    rfl
  · rintro rfl
    exact ⟨last, rfl⟩

lemma mountRepeats_succ {base : Bytes} {mount : Mount} {rest : List Mount}
    (isRest : mounts.drop pos = mount :: rest) :
    mountRepeats mounts base (pos + 1) name = true ↔
      mountRepeats mounts base pos name = true ∨ mount.Adds base name := by
  have found : mounts[pos]? = some mount := by
    have head := congrArg head? isRest
    rw [head?_drop] at head
    exact head
  have adds : ((mountChild base mount).any fun child => decide (child.1 = name)) = true ↔
      mount.Adds base name := by
    cases child : mountChild base mount with
    | none => simp [Mount.Adds, child]
    | some component =>
      rw [Mount.adds_iff child, Option.any_some, decide_eq_true_eq, eq_comm]
  unfold mountRepeats
  rw [take_add_one, found, any_append, Bool.or_eq_true]
  exact or_congr_right (by simpa using adds)

variable (mounts) in
lemma mountCandidates_names (base : Bytes) (pos : Nat) (rest : List Mount)
    (isRest : mounts.drop pos = rest) :
    ((mountCandidates mounts base pos rest).map Candidate.name).Nodup ∧
      ∀ name, name ∈ (mountCandidates mounts base pos rest).map Candidate.name ↔
        (∃ mount ∈ rest, mount.Adds base name) ∧ ¬ mountRepeats mounts base pos name = true := by
  induction rest generalizing pos with
  | nil => exact ⟨nodup_nil, fun name => ⟨nofun, fun ⟨⟨_, mem, _⟩, _⟩ => nomatch mem⟩⟩
  | cons mount rest ih =>
    have isNext : mounts.drop (pos + 1) = rest := by
      rw [← drop_drop, isRest]
      rfl
    obtain ⟨once, members⟩ := ih (pos + 1) isNext
    have behindMount : ∀ name, name ∈
        (mountCandidates mounts base (pos + 1) rest).map Candidate.name ↔
          (∃ mount ∈ rest, mount.Adds base name) ∧ ¬ mountRepeats mounts base pos name = true ∧
            ¬ mount.Adds base name := by
      intro name
      rw [members, mountRepeats_succ isRest, not_or]
    unfold mountCandidates
    cases child : mountChild base mount with
    | none =>
      refine ⟨once, fun name => ?_⟩
      have silent : ¬ mount.Adds base name := by
        rintro ⟨last, adds⟩
        rw [child] at adds
        cases adds
      rw [behindMount, exists_mem_cons_iff]
      simp only [silent, not_false_eq_true, and_true, false_or]
    | some component =>
      obtain ⟨added, last⟩ := component
      have adds : ∀ name, mount.Adds base name ↔ name = added := fun _ => Mount.adds_iff child
      dsimp only
      split
      · rename_i repeated
        refine ⟨once, fun name => ?_⟩
        rw [behindMount, exists_mem_cons_iff, adds]
        constructor
        · rintro ⟨later, new, -⟩
          exact ⟨.inr later, new⟩
        rintro ⟨rfl | later, new⟩
        · exact absurd repeated new
        refine ⟨later, new, ?_⟩
        rintro rfl
        exact new repeated
      · rename_i new
        rw [map_cons, nodup_cons]
        refine ⟨⟨?_, once⟩, fun name => ?_⟩
        · rw [behindMount]
          rintro ⟨-, -, other⟩
          exact other ((adds added).mpr rfl)
        rw [mem_cons, behindMount, exists_mem_cons_iff, adds]
        constructor
        · rintro (rfl | ⟨later, isNew, -⟩)
          · exact ⟨.inl rfl, new⟩
          · exact ⟨.inr later, isNew⟩
        · rintro ⟨rfl | later, isNew⟩
          · exact .inl rfl
          by_cases same : name = added
          · exact .inl same
          · exact .inr ⟨later, isNew, same⟩

/-- The names that a listing of the TarFS shows at the root, from a place of the index on. -/
def topNames (index : List TarEntry) (fuel pos : Nat) : List Bytes :=
  ((tarCandidates index [] fuel pos).filter Candidate.shown).map Candidate.name

/-- A path without a slash is its own first component. -/
lemma topName_of_file (file : slash ∉ entry.path) : entry.topName = entry.path := by
  rw [TarEntry.topName, takeWhile_eq_self_iff]
  intro byte mem
  exact decide_eq_true fun same => file (same ▸ mem)

/-- An entry lies below a directory at the top iff the directory's name and a slash begin its
path. -/
lemma inSubdir_root : inSubdir [] name entry = true ↔ (name ++ [slash]) <+: entry.path := by
  rw [inSubdir, decide_eq_true_eq, length_nil, drop_zero, isPrefixOf_iff_prefix, isPrefixOf_iff_prefix]
  exact and_iff_right nil_prefix

lemma topName_begins (below : slash ∈ entry.path) : (entry.topName ++ [slash]) <+: entry.path := by
  have split : entry.path.takeWhile (· ≠ slash) ++ entry.path.dropWhile (· ≠ slash) = entry.path :=
    takeWhile_append_dropWhile
  cases rest : entry.path.dropWhile (· ≠ slash) with
  | nil =>
    rw [dropWhile_eq_nil_iff] at rest
    exact absurd rfl (of_decide_eq_true (rest slash below))
  | cons byte others =>
    have stops := head?_dropWhile_not (fun byte : UInt8 => decide (byte ≠ slash)) entry.path
    rw [rest] at stops split
    have isSlash : byte = slash := by simpa using stops
    rw [isSlash] at split
    exact ⟨others, by rw [append_assoc]; exact split⟩

lemma topName_of_begins (plain : slash ∉ name) (begins : (name ++ [slash]) <+: entry.path) :
    entry.topName = name := by
  obtain ⟨_, path⟩ := begins
  rw [TarEntry.topName, ← path, append_assoc, takeWhile_append_of_pos]
  · simp
  · intro byte mem
    exact decide_eq_true fun same => plain (same ▸ mem)

lemma slash_notMem_topName (entry : TarEntry) : slash ∉ entry.topName := by
  intro mem
  have other := mem_takeWhile_imp mem
  exact absurd rfl (of_decide_eq_true other)

variable (found : index[pos]? = some entry)
include found

variable {fuel : Nat}

lemma topNames_succ : topNames index (fuel + 1) pos =
      if entry.path = [] then topNames index fuel (pos + 1)
      else if slash ∉ entry.path then
        if entry.isMarker then topNames index fuel (pos + 1)
        else entry.path :: topNames index fuel (pos + 1)
      else
        let siblings := (index.drop (pos + 1)).takeWhile (inSubdir [] entry.topName)
        if (entry :: siblings).all (·.isMarker) then
          topNames index fuel (pos + 1 + siblings.length)
        else entry.topName :: topNames index fuel (pos + 1 + siblings.length) := by
  unfold topNames
  rw [tarCandidates, found]
  dsimp only
  have below : ¬ ¬ List.isPrefixOf [] entry.path = true := not_not_intro rfl
  have isName : entry.path.takeWhile (· ≠ slash) = entry.topName := rfl
  rw [length_nil, drop_zero, if_neg below, isName]
  split
  · rfl
  split
  · rename_i file
    split
    · rfl
    · rw [filter_cons, if_pos rfl, map_cons, topName_of_file file]
  · rw [filter_cons]
    cases (entry :: (index.drop (pos + 1)).takeWhile (inSubdir [] entry.topName)).all (·.isMarker) with
    | true => rfl
    | false => rfl

lemma drop_found : index.drop pos = entry :: index.drop (pos + 1) := by
  obtain ⟨inside, here⟩ := List.getElem?_eq_some_iff.mp found
  rw [List.drop_eq_getElem_cons inside, here]

lemma drop_siblings (test : TarEntry → Bool) :
    index.drop pos = entry :: ((index.drop (pos + 1)).takeWhile test ++
        index.drop (pos + 1 + ((index.drop (pos + 1)).takeWhile test).length)) ∧
      index.drop (pos + 1 + ((index.drop (pos + 1)).takeWhile test).length) =
        (index.drop (pos + 1)).dropWhile test := by
  have whole := prefix_iff_eq_append.mp (List.takeWhile_prefix test (l := index.drop (pos + 1)))
  rw [drop_drop] at whole
  constructor
  · rw [whole, drop_found found]
  · exact append_cancel_left (whole.trans takeWhile_append_dropWhile.symm)

omit found

lemma mem_topNames (enough : index.length < pos + fuel) :
    name ∈ topNames index fuel pos ↔ ∃ entry ∈ index.drop pos, entry.IsTop name := by
  induction fuel generalizing pos with
  | zero =>
    rw [drop_eq_nil_of_le (by omega)]
    exact ⟨fun mem => absurd mem not_mem_nil, by simp⟩
  | succ fuel ih =>
    cases found : index[pos]? with
    | none =>
      rw [drop_eq_nil_of_le (getElem?_eq_none_iff.mp found), topNames, tarCandidates, found]
      exact ⟨fun mem => absurd mem not_mem_nil, by simp⟩
    | some entry =>
      have next := drop_found found
      rw [topNames_succ found]
      split
      · rename_i empty
        rw [ih (by omega), next, exists_mem_cons_iff]
        exact (or_iff_right fun top => top.2.1 empty).symm
      rename_i nonempty
      split
      · rename_i file
        have isTop : entry.IsTop name ↔ entry.isMarker = false ∧ name = entry.path := by
          rw [TarEntry.IsTop, topName_of_file file, eq_comm (a := name)]
          exact and_congr_right fun _ => and_iff_right nonempty
        split
        · rename_i marker
          rw [ih (by omega), next, exists_mem_cons_iff, isTop, marker]
          exact (or_iff_right fun top => Bool.false_ne_true top.1.symm).symm
        · rename_i kept
          rw [mem_cons, ih (by omega), next, exists_mem_cons_iff, isTop,
            Bool.eq_false_of_not_eq_true kept]
          exact or_congr_left (and_iff_right rfl).symm
      · rename_i below
        have inside := Classical.not_not.mp below
        have siblingTop : ∀ sibling ∈ entry :: (index.drop (pos + 1)).takeWhile
            (inSubdir [] entry.topName), sibling.path ≠ [] ∧ sibling.topName = entry.topName := by
          intro sibling mem
          have begins : (entry.topName ++ [slash]) <+: sibling.path := by
            rcases mem_cons.mp mem with rfl | isSibling
            · exact topName_begins inside
            · exact inSubdir_root.mp (mem_takeWhile_imp isSibling)
          refine ⟨?_, topName_of_begins (slash_notMem_topName entry) begins⟩
          intro empty
          rw [empty] at begins
          exact absurd (prefix_nil.mp begins) (by simp)
        rw [(drop_siblings found (inSubdir [] entry.topName)).1]
        generalize (index.drop (pos + 1)).takeWhile (inSubdir [] entry.topName) = siblings
          at siblingTop ⊢
        rw [← cons_append]
        have group : (∃ sibling ∈ entry :: siblings, sibling.IsTop name) ↔
            (entry :: siblings).all (·.isMarker) = false ∧ name = entry.topName := by
          rw [all_eq_false]
          constructor
          · rintro ⟨sibling, mem, kept, -, top⟩
            refine ⟨⟨sibling, mem, ?_⟩, ?_⟩
            · rw [kept]
              exact Bool.false_ne_true
            · rw [← top, (siblingTop sibling mem).2]
          · rintro ⟨⟨sibling, mem, kept⟩, rfl⟩
            exact ⟨sibling, mem, Bool.eq_false_of_not_eq_true kept, siblingTop sibling mem⟩
        simp only [mem_append, or_and_right, exists_or]
        rw [group]
        split
        · rename_i hidden
          rw [ih (by omega), hidden]
          exact (or_iff_right fun top => Bool.false_ne_true top.1.symm).symm
        · rename_i kept
          rw [mem_cons, ih (by omega), Bool.eq_false_of_not_eq_true kept]
          exact or_congr_left (and_iff_right rfl).symm

lemma prefix_between {begins low middle high : Bytes} (lower : low ≤ middle)
    (upper : middle ≤ high) (isLow : begins <+: low) (isHigh : begins <+: high) :
    begins <+: middle := by
  induction begins generalizing low middle high with
  | nil => exact nil_prefix
  | cons byte begins ih =>
    obtain ⟨lowRest, rfl⟩ := isLow
    obtain ⟨highRest, rfl⟩ := isHigh
    cases middle with
    | nil => exact absurd (le_nil.mp lower) (cons_ne_nil _ _)
    | cons other middle =>
      rcases cons_le_cons_iff.mp lower with less | ⟨rfl, lowerRest⟩
      · rcases cons_le_cons_iff.mp upper with more | ⟨rfl, -⟩
        · exact absurd (UInt8.lt_trans less more) Std.lt_irrefl
        · exact absurd less Std.lt_irrefl
      · rcases cons_le_cons_iff.mp upper with more | ⟨-, upperRest⟩
        · exact absurd more Std.lt_irrefl
        · exact cons_prefix_cons.mpr ⟨rfl, ih lowerRest upperRest
            (prefix_append _ lowRest) (prefix_append _ highRest)⟩

lemma not_le_of_begins {path : Bytes} (begins : (name ++ [slash]) <+: path) : ¬ path ≤ name := by
  induction name generalizing path with
  | nil =>
    intro less
    rw [le_nil.mp less] at begins
    exact absurd (prefix_nil.mp begins) (by simp)
  | cons byte name ih =>
    obtain ⟨rest, rfl⟩ := begins
    intro less
    rcases cons_le_cons_iff.mp less with smaller | ⟨-, less⟩
    · exact absurd smaller Std.lt_irrefl
    · exact ih (prefix_append _ rest) less

/-- In an index in order, nothing behind the entries below a directory at the top has its name. -/
lemma not_top_behind (ordered : Ordered index) {other : TarEntry}
    (found : index[pos]? = some entry) (below : slash ∈ entry.path)
    (later : other ∈ index.drop (pos + 1 +
      ((index.drop (pos + 1)).takeWhile (inSubdir [] entry.topName)).length)) :
    other.topName ≠ entry.topName := by
  intro same
  have orderedHere : Ordered (index.drop pos) := List.Pairwise.sublist (drop_sublist _ _) ordered
  obtain ⟨whole, behindEq⟩ := drop_siblings found (inSubdir [] entry.topName)
  rw [whole] at orderedHere
  obtain ⟨above, orderedRest⟩ := pairwise_cons.mp orderedHere
  obtain ⟨-, orderedBehind, -⟩ := pairwise_append.mp orderedRest
  have entryLe : ∀ another ∈ index.drop (pos + 1 +
      ((index.drop (pos + 1)).takeWhile (inSubdir [] entry.topName)).length),
        entry.path ≤ another.path :=
    fun another mem => (above another (mem_append_right _ mem)).path_le
  by_cases file : slash ∈ other.path
  · -- the first entry behind stands between two that are below the directory
    have stops := head?_dropWhile_not (inSubdir [] entry.topName) (index.drop (pos + 1))
    rw [← behindEq] at stops
    generalize index.drop (pos + 1 +
      ((index.drop (pos + 1)).takeWhile (inSubdir [] entry.topName)).length) = behind_
      at stops later entryLe orderedBehind
    cases behind_ with
    | nil => cases later
    | cons first rest =>
      have firstLe : first.path ≤ other.path := by
        rcases List.mem_cons.mp later with rfl | isRest
        · exact List.le_refl _
        · exact ((List.pairwise_cons.mp orderedBehind).1 other isRest).path_le
      have otherBelow := topName_begins file
      rw [same] at otherBelow
      have firstBelow := prefix_between (entryLe first mem_cons_self) firstLe
        (topName_begins below) otherBelow
      rw [← inSubdir_root] at firstBelow
      exact Bool.false_ne_true (stops.symm.trans firstBelow)
  · have isName : other.path = entry.topName := by rw [← same, topName_of_file file]
    have less := entryLe other later
    rw [isName] at less
    exact not_le_of_begins (topName_begins below) less

/-- A file at the top shares its name with nothing else of the TarFS. -/
def TarEntry.Apart (file other : TarEntry) : Prop :=
  slash ∉ file.path → ∀ name, file.IsTop name → ¬ other.IsTop name

/-- In an index in order, the names that come are distinct iff no file at the top shares its
name with what comes behind it. -/
lemma topNames_nodup (ordered : Ordered index) (enough : index.length < pos + fuel) :
    (topNames index fuel pos).Nodup ↔ (index.drop pos).Pairwise TarEntry.Apart := by
  induction fuel generalizing pos with
  | zero =>
    rw [drop_eq_nil_of_le (by omega)]
    exact iff_of_true nodup_nil List.Pairwise.nil
  | succ fuel ih =>
    cases found : index[pos]? with
    | none =>
      rw [drop_eq_nil_of_le (getElem?_eq_none_iff.mp found), topNames, tarCandidates, found]
      exact iff_of_true nodup_nil List.Pairwise.nil
    | some entry =>
      rw [topNames_succ found]
      split
      · rename_i empty
        rw [ih (by omega), drop_found found, pairwise_cons]
        exact (and_iff_right fun other _ _ name top => absurd empty top.2.1).symm
      rename_i nonempty
      split
      · rename_i file
        split
        · rename_i marker
          rw [ih (by omega), drop_found found, pairwise_cons]
          refine (and_iff_right fun other _ _ name top => ?_).symm
          rw [top.1] at marker
          cases marker
        rename_i kept
        rw [nodup_cons, mem_topNames (by omega), ih (by omega), drop_found found, pairwise_cons]
        apply and_congr_left'
        constructor
        · rintro alone other mem - name ⟨-, -, rfl⟩ top
          rw [topName_of_file file] at top
          exact alone ⟨other, mem, top⟩
        · rintro apart ⟨other, mem, top⟩
          exact apart other mem file entry.path
            ⟨Bool.eq_false_of_not_eq_true kept, nonempty, topName_of_file file⟩ top
      · rename_i below
        have inside := Classical.not_not.mp below
        have alone : entry.topName ∉ topNames index fuel (pos + 1 +
            ((index.drop (pos + 1)).takeWhile (inSubdir [] entry.topName)).length) := by
          rw [mem_topNames (by omega)]
          rintro ⟨other, later, -, -, same⟩
          exact not_top_behind ordered found inside later same
        have directories : ∀ sibling ∈ entry :: (index.drop (pos + 1)).takeWhile
            (inSubdir [] entry.topName), slash ∈ sibling.path := by
          intro sibling mem
          rcases mem_cons.mp mem with rfl | isSibling
          · exact inside
          · have begins := inSubdir_root.mp (mem_takeWhile_imp isSibling)
            exact begins.subset (mem_append_right _ (mem_singleton_self _))
        rw [(drop_siblings found (inSubdir [] entry.topName)).1, ← cons_append]
        dsimp only
        generalize (index.drop (pos + 1)).takeWhile (inSubdir [] entry.topName) = siblings
          at alone directories ⊢
        have rest : ((entry :: siblings) ++ index.drop (pos + 1 + siblings.length)).Pairwise
            TarEntry.Apart ↔ (index.drop (pos + 1 + siblings.length)).Pairwise TarEntry.Apart := by
          rw [pairwise_append]
          constructor
          · exact fun all => all.2.1
          refine fun behind_ => ⟨List.Pairwise.imp_of_mem ?_ (pairwise_of_forall fun _ _ => trivial),
            behind_, ?_⟩
          · intro sibling other mem _ _ file
            exact absurd (directories sibling mem) file
          · intro sibling mem other _ file
            exact absurd (directories sibling mem) file
        rw [rest]
        split
        · exact ih (by omega)
        · rw [nodup_cons, ih (by omega)]
          exact and_iff_right alone

lemma mem_root_names :
    name ∈ (upcoming Candidate.shown (rootTar index, rootMounts mounts)).map Candidate.name ↔
      RootName index mounts name := by
  have shown := filter_eq_self.mpr (mountCandidates_shown mounts [] 0 mounts)
  have members := (mountCandidates_names mounts [] 0 mounts rfl).2 name
  have noneBefore : ¬ mountRepeats mounts [] 0 name = true := Bool.false_ne_true
  rw [upcoming, map_append, mem_append, rootMounts, shown, members, and_iff_left noneBefore]
  apply or_congr_left
  have top : name ∈ topNames index (index.length + 1) 0 ↔ _ := mem_topNames (by omega)
  exact top

lemma root_names_nodup (ordered : Ordered index) :
    ((upcoming Candidate.shown (rootTar index, rootMounts mounts)).map Candidate.name).Nodup ↔
      index.Pairwise TarEntry.Apart ∧
        ∀ entry ∈ index, ∀ mount ∈ mounts, ∀ name, entry.IsTop name → ¬ mount.Adds [] name := by
  have shown := filter_eq_self.mpr (mountCandidates_shown mounts [] 0 mounts)
  obtain ⟨once, members⟩ := mountCandidates_names mounts [] 0 mounts rfl
  have noneBefore : ∀ name, ¬ mountRepeats mounts [] 0 name = true := fun _ => Bool.false_ne_true
  have tarOnce : (topNames index (index.length + 1) 0).Nodup ↔ _ :=
    topNames_nodup ordered (by omega)
  have tarMembers : ∀ name, name ∈ topNames index (index.length + 1) 0 ↔ _ :=
    fun name => mem_topNames (by omega)
  rw [upcoming, map_append, nodup_append', rootMounts, shown]
  refine and_congr tarOnce ?_
  rw [and_iff_right once]
  constructor
  · intro apart entry isEntry mount isMount name top adds
    exact apart ((tarMembers name).mpr ⟨entry, isEntry, top⟩)
      ((members name).mpr ⟨⟨mount, isMount, adds⟩, noneBefore name⟩)
  · intro apart name isTar isMount
    obtain ⟨entry, isEntry, top⟩ := (tarMembers name).mp isTar
    obtain ⟨⟨mount, isMount, adds⟩, -⟩ := (members name).mp isMount
    exact apart entry isEntry mount isMount name top adds

end Names

/-! ### Every name exactly once -/

section Once

variable {index : List TarEntry}

lemma lowerBoundFrom_nil (fuel high : Nat) : lowerBoundFrom index [] fuel 0 high = 0 := by
  induction fuel generalizing high with
  | zero => rfl
  | succ fuel ih =>
    rw [lowerBoundFrom]
    split
    · have notLess : ¬ (index.getD (0 + (high - 0) / 2) ⟨[], .opq, 0, 0⟩).path < [] :=
        not_lt_nil _
      rw [if_neg notLess]
      exact ih _
    · rfl

lemma rootRemaining_zero (index : List TarEntry) (mounts : List Mount) :
    rootRemaining index mounts 0 = (rootTar index, rootMounts mounts) := by
  have early : ¬ mountPhaseBit ≤ 0 := by decide
  rw [rootRemaining, if_neg early, tarStart, if_pos rfl, lowerBound, lowerBoundFrom_nil]
  rfl

/-- A root of which a guest gets every name exactly once, whatever its buffers. -/
structure RootListable (index : List TarEntry) (mounts : List Mount) : Prop where
  /-- No file at the top of the TarFS shares its name with another entry. -/
  files : index.Pairwise TarEntry.Apart
  /-- No mount has the name of something at the top of the TarFS. -/
  apart : ∀ entry ∈ index, ∀ mount ∈ mounts, ∀ name, entry.IsTop name → ¬ mount.Adds [] name
  /-- No directory that holds only markers has a longer name than the entry listed next. -/
  markers : NextFits Candidate.size Candidate.shown (rootTar index)
  /-- No name of the TarFS, the first listed apart, is longer than that of the first mount. -/
  tail : SecondFits Candidate.size Candidate.shown (rootTar index) (rootMounts mounts)

/-- The buffers of a guest are large enough iff they are for the two lists that come. -/
lemma rootAdequate_iff (filetypeOf : Nat → Filetype) {mounts : List Mount}
    (short : index.length < 2 ^ 16) (few : mounts.length ≤ vfsMaxMounts) {sizes : Stream' Nat} :
    RootAdequate filetypeOf index mounts sizes ↔
      Packing.Adequate size shown (rootTar index, rootMounts mounts) sizes := by
  have follows := rootPager_follows filetypeOf short few
  have start : RootCookie index 0 := .inl (Nat.zero_le _)
  unfold RootAdequate Packing.Adequate
  simp only [follows.at_ start, rootRemaining_zero]

/-- For every content of the TarFS and all mounts: a guest that follows `d_next` with buffers large
enough for the next entry gets every name of the root exactly once, whatever its buffers, iff
the names are distinct and their lengths in order. -/
theorem root_listed_once_iff (filetypeOf : Nat → Filetype) (index : List TarEntry)
    (mounts : List Mount) (ordered : Ordered index) (short : index.length < 2 ^ 16)
    (few : mounts.length ≤ vfsMaxMounts) :
    (∀ sizes, RootAdequate filetypeOf index mounts sizes →
      ListsRoot filetypeOf index mounts sizes) ↔ RootListable index mounts := by
  have follows := rootPager_follows filetypeOf short few
  have start : RootCookie index 0 := .inl (Nat.zero_le _)
  have zero := rootRemaining_zero index mounts
  have complete : Complete size shown (rootTar index, rootMounts mounts) ↔ _ :=
    complete_iff_fits size_pos (mountCandidates_shown mounts [] 0 mounts)
  have named : ∀ dirents : List Dirent,
      dirents.map Dirent.name = (dirents.map Dirent.candidate).map Candidate.name := by
    intro dirents
    rw [map_map]
    rfl
  constructor
  · intro always
    -- buffers larger than the whole root bring every name that comes
    have once : ((upcoming shown (rootTar index, rootMounts mounts)).map Candidate.name).Nodup := by
      have roomy := Nat.lt_succ_self (((rootTar index).map size).sum +
        ((rootMounts mounts).map size).sum)
      have whole := @obtains_of_room _ _ shown _ (rootTar index, rootMounts mounts) roomy
      obtain ⟨dirents, obtained, distinct, -⟩ :=
        always _ ((rootAdequate_iff filetypeOf short few).mpr (adequate_of_room roomy))
      have shows := follows.obtains start obtained
      rw [zero] at shows
      rw [named, shows.unique whole] at distinct
      exact distinct
    have all : Complete size shown (rootTar index, rootMounts mounts) := by
      intro sizes isAdequate
      obtain ⟨dirents, obtained, distinct, members⟩ :=
        always sizes ((rootAdequate_iff filetypeOf short few).mpr isAdequate)
      have shows := follows.obtains start obtained
      rw [zero] at shows
      have part := obtains_sublist shows
      have covers := (subperm_of_subset once fun name mem =>
          (members name).mpr (mem_root_names.mp mem)).length_le
      rw [length_map, length_map] at covers
      rw [← part.eq_of_length_le (by rw [length_map]; exact covers)]
      exact shows
    obtain ⟨files, apart⟩ := (root_names_nodup ordered).mp once
    obtain ⟨markers, tail⟩ := complete.mp all
    exact ⟨files, apart, markers, tail⟩
  · rintro ⟨files, apart, markers, tail⟩ sizes isAdequate
    have whole := complete.mpr ⟨markers, tail⟩ sizes
      ((rootAdequate_iff filetypeOf short few).mp isAdequate)
    obtain ⟨dirents, obtained, shows⟩ := follows.exists_obtains whole start zero
    refine ⟨dirents, obtained, ?_, fun name => ?_⟩
    · rw [named, shows]
      exact (root_names_nodup ordered).mpr ⟨files, apart⟩
    · rw [named, shows]
      exact mem_root_names

def filesAtTop (names : List String) : List TarEntry :=
  names.map fun name => ⟨ascii name, .layer 0, 0, 0⟩

/-- The mount of `/dev`. -/
def devMount : List Mount := [⟨ascii "/dev", .dev⟩]

/-- With the files `a` and `app` and a mount `/dev`, a guest whose buffers have 52 bytes gets each
name once. -/
theorem root_listed_once_short :
    RootAdequate (fun _ => .unknown) (filesAtTop ["a", "app"]) devMount (Stream'.const 52) ∧
      ListsRoot (fun _ => .unknown) (filesAtTop ["a", "app"]) devMount (Stream'.const 52) := by
  have adequate : RootAdequate (fun _ => .unknown) (filesAtTop ["a", "app"]) devMount
      (Stream'.const 52) :=
    (rootAdequate_iff _ (by decide) (by decide)).mpr (adequate_const (by decide +kernel))
  refine ⟨adequate, (root_listed_once_iff (fun _ => .unknown) (filesAtTop ["a", "app"]) devMount
    ?_ (by decide) (by decide)).mpr ⟨?_, ?_, ?_, ?_⟩ _ adequate⟩
  · exact pairwise_pair.mpr (.inl (by decide))
  · refine pairwise_pair.mpr ?_
    rintro - name ⟨-, -, rfl⟩ ⟨-, -, same⟩
    exact absurd same (by decide)
  · rintro entry isEntry _ isMount name ⟨-, -, rfl⟩ ⟨_, adds⟩
    rw [mem_singleton.mp isMount] at adds
    have isDev : entry.topName = ascii "dev" := by
      exact (congrArg Prod.fst (Option.some.inj adds)).symm
    have none_ : ∀ entry ∈ filesAtTop ["a", "app"], entry.topName ≠ ascii "dev" := by decide
    exact none_ entry isEntry isDev
  · exact nextFits_of_shown _ (by decide +kernel)
  · have fits : ∀ next ∈ rootMounts devMount, ∀ item ∈
        ((rootTar (filesAtTop ["a", "app"])).filter shown).tail,
          item.size ≤ next.size := by decide +kernel
    exact fun next isNext item mem => fits next (mem_of_head? isNext) item mem

/-- With a file of a longer name than the mount's, the guest gets `a` and `dev`, then an empty page,
and never the other file. And where the TarFS has a directory `dev`, it gets `dev` twice. -/
theorem root_listing_loses_name :
    (RootAdequate (fun _ => .unknown) (filesAtTop ["a", "readme.txt"]) devMount (Stream'.const 52) ∧
      ¬ ListsRoot (fun _ => .unknown) (filesAtTop ["a", "readme.txt"]) devMount (Stream'.const 52)) ∧
    RootAdequate (fun _ => .unknown) (filesAtTop ["dev/x"]) devMount (Stream'.const 100) ∧
      ¬ ListsRoot (fun _ => .unknown) (filesAtTop ["dev/x"]) devMount (Stream'.const 100) := by
  refine ⟨⟨(rootAdequate_iff _ (by decide) (by decide)).mpr (adequate_const (by decide +kernel)), ?_⟩,
    (rootAdequate_iff _ (by decide) (by decide)).mpr (adequate_const (by decide +kernel)), ?_⟩
  · rintro ⟨dirents, obtained, -, members⟩
    have pages : (rootPager (fun _ => .unknown) (filesAtTop ["a", "readme.txt"]) devMount).Obtains 0
        (Stream'.const 52) _ := .more (by decide +kernel) (.done (by decide +kernel))
    rw [obtained.unique pages] at members
    have missing := (members (ascii "readme.txt")).mpr
      (.inl ⟨_, mem_cons_of_mem _ mem_cons_self, by decide, by decide, by decide⟩)
    exact absurd missing (by decide +kernel)
  · rintro ⟨dirents, obtained, distinct, -⟩
    have pages : (rootPager (fun _ => .unknown) (filesAtTop ["dev/x"]) devMount).Obtains 0
        (Stream'.const 100) _ := .more (by decide +kernel) (.done (by decide +kernel))
    rw [obtained.unique pages] at distinct
    exact absurd distinct (by decide +kernel)

end Once

end WantedEngine.Vfs
