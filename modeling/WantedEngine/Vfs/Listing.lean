import WantedEngine.Foundation.Paging
import WantedEngine.Vfs.ReadDir
import Mathlib.Data.List.Nodup
import Mathlib.Data.List.Range
/-!
# What a guest learns from a directory listing

A WASI guest knows two things after `fd_readdir`: the entries in its buffer and the bytes used.
It resumes at the `d_next` of the last entry, and takes a buffer that is not full as the end of
the directory.

`VfsFlatDirReadDir` puts a place in the buffer into `d_next`, so a guest gets the whole of such a
directory only when its first buffer takes it whole. And every listing stops at the first entry
that does not fit, so a buffer that is not full means the end only when the entries before that
one fill it or none is left.
-/
namespace WantedEngine.Vfs

open Foundation Packing List DirEntry Directory

/-! ### Listings as packings -/

/-- An entry that a listing comes to. A subdirectory of the TarFS that holds only markers is
tested for its fit but not listed. -/
structure Candidate where
  name : Bytes
  shown : Bool
  deriving DecidableEq

def Candidate.size (candidate : Candidate) : Nat := direntSize + candidate.name.length

def listCandidates (entries : List DirEntry) : List Candidate :=
  entries.map fun entry => ⟨entry.name, true⟩

/-- The components that mounts add to the directory at a path, from an index on. -/
def mountCandidates (mounts : List Mount) (base : Bytes) : Nat → List Mount → List Candidate
  | _, [] => []
  | index, mount :: rest =>
    match mountChild base mount with
    | none => mountCandidates mounts base (index + 1) rest
    | some (name, _) =>
      if mountRepeats mounts base index name then mountCandidates mounts base (index + 1) rest
      else ⟨name, true⟩ :: mountCandidates mounts base (index + 1) rest

/-- The entries of a directory of the TarFS, from a place of the index on. -/
def tarCandidates (index : List TarEntry) (dir : Bytes) : Nat → Nat → List Candidate
  | 0, _ => []
  | fuel + 1, pos =>
    match index[pos]? with
    | none => []
    | some entry =>
      if ¬ dir.isPrefixOf entry.path then []
      else
        let suffix := entry.path.drop dir.length
        let name := suffix.takeWhile (· ≠ slash)
        if suffix = [] then tarCandidates index dir fuel (pos + 1)
        else if slash ∉ suffix then
          if entry.isMarker then tarCandidates index dir fuel (pos + 1)
          else ⟨name, true⟩ :: tarCandidates index dir fuel (pos + 1)
        else
          let siblings := (index.drop (pos + 1)).takeWhile (inSubdir dir name)
          ⟨name, ¬ (entry :: siblings).all (·.isMarker)⟩ ::
            tarCandidates index dir fuel (pos + 1 + siblings.length)

/-- An entry of the buffer as a candidate. -/
def Dirent.candidate (dirent : Dirent) : Candidate := ⟨dirent.name, true⟩

/-- A listing shows what a packing of candidates shows, and uses what it uses. -/
def Listed.Shows (listed : Listed) (packed : List Candidate × Nat) : Prop :=
  listed.dirents.map Dirent.candidate = packed.1 ∧ listed.used = packed.2

variable {bufLen cookie : Nat} {listed : Listed} {used position : Nat} {rest : Listed}

variable (dirent : Dirent)

/-- An entry that is listed goes into the buffer when it fits, and ends the listing when not. -/
lemma shows_candidate {candidates : List Candidate}
    (step : rest.Shows (fill Candidate.size Candidate.shown bufLen
      (used + direntSize + dirent.name.length) candidates)) :
    (if bufLen < used + direntSize + dirent.name.length then ⟨[], position, used⟩
      else rest.cons dirent : Listed).Shows
      (fill Candidate.size Candidate.shown bufLen used (⟨dirent.name, true⟩ :: candidates)) := by
  rw [fill]
  simp only [Candidate.size, ← Nat.add_assoc]
  split
  · exact ⟨rfl, rfl⟩
  · exact ⟨congrArg (dirent.candidate :: ·) step.1, step.2⟩

/-- The `d_next` of the last entry of a listing belongs to what the packing leaves behind it. -/
def Listed.Resumes (listed : Listed) (left : Option (List Candidate))
    (belongs : Nat → List Candidate → Prop) : Prop :=
  match listed.dirents.getLast?, left with
  | none, none => True
  | some last, some rest => belongs last.next rest
  | _, _ => False

variable {belongs : Nat → List Candidate → Prop}

/-- An entry that is listed is the last one, or the listing goes on behind it. -/
lemma resumes_candidate {bufLen used position : Nat} {candidates : List Candidate}
    (here : belongs dirent.next candidates)
    (step : rest.Resumes (behind Candidate.size Candidate.shown bufLen
      (used + direntSize + dirent.name.length) candidates) belongs) :
    (if bufLen < used + direntSize + dirent.name.length then ⟨[], position, used⟩
      else rest.cons dirent : Listed).Resumes
      (behind Candidate.size Candidate.shown bufLen used (⟨dirent.name, true⟩ :: candidates))
      belongs := by
  rw [behind]
  simp only [Candidate.size, ← Nat.add_assoc]
  split
  · trivial
  unfold Listed.Resumes at step ⊢
  rw [Listed.cons, getLast?_cons]
  generalize rest.dirents.getLast? = last at step ⊢
  generalize behind Candidate.size Candidate.shown bufLen
    (used + direntSize + dirent.name.length) candidates = left at step ⊢
  cases last with
  | none =>
    cases left with
    | none => exact here
    | some rest => cases step
  | some final =>
    cases left with
    | none => cases step
    | some rest => exact step

/-- A listing packs candidates: it shows what fits, and the `d_next` of its last entry belongs to what
is left behind it. -/
structure Listed.Packs (listed : Listed) (bufLen used : Nat) (candidates : List Candidate)
    (belongs : Nat → List Candidate → Prop) : Prop where
  shows : listed.Shows (fill Candidate.size Candidate.shown bufLen used candidates)
  resumes : listed.Resumes (behind Candidate.size Candidate.shown bufLen used candidates) belongs

/-- Nothing to list. -/
lemma packs_nil (position used : Nat) :
    (⟨[], position, used⟩ : Listed).Packs bufLen used [] belongs := ⟨⟨rfl, rfl⟩, trivial⟩

lemma packs_candidate {candidates : List Candidate} (here : belongs dirent.next candidates)
    (step : rest.Packs bufLen (used + direntSize + dirent.name.length) candidates belongs) :
    (if bufLen < used + direntSize + dirent.name.length then ⟨[], position, used⟩
      else rest.cons dirent : Listed).Packs bufLen used (⟨dirent.name, true⟩ :: candidates)
      belongs :=
  ⟨shows_candidate dirent step.shows, resumes_candidate dirent here step.resumes⟩

lemma packs_hidden (name : Bytes) {candidates : List Candidate}
    (step : rest.Packs bufLen used candidates belongs) :
    (if bufLen < used + direntSize + name.length then ⟨[], position, used⟩ else rest).Packs bufLen
      used (⟨name, false⟩ :: candidates) belongs := by
  constructor
  · rw [fill]
    simp only [Candidate.size, ← Nat.add_assoc]
    split
    · exact ⟨rfl, rfl⟩
    · exact step.shows
  · rw [behind]
    simp only [Candidate.size, ← Nat.add_assoc]
    split
    · trivial
    · exact step.resumes

lemma packFrom_shows (nextOf : Nat → Nat → Nat) (bufLen index used : Nat) (entries : List DirEntry) :
    (packFrom nextOf bufLen index used entries).Shows
      (fill Candidate.size Candidate.shown bufLen used (listCandidates entries)) := by
  induction entries generalizing index used with
  | nil => exact ⟨rfl, rfl⟩
  | cons entry rest ih =>
    exact shows_candidate ⟨nextOf index _, index, entry.type, entry.name⟩ (ih (index + 1) _)

def MountsFrom (mounts : List Mount) (base : Bytes) (cookieBit next : Nat)
    (rest : List Candidate) : Prop :=
  ∃ pos ≤ mounts.length, next = cookieBit + pos ∧
    rest = mountCandidates mounts base pos (mounts.drop pos)

lemma mountChildrenFrom_packs (filetypeOf : Nat → Filetype) (mounts : List Mount) (base : Bytes)
    (space cookieBit index used : Nat) (rest : List Mount) (isRest : mounts.drop index = rest) :
    (mountChildrenFrom filetypeOf mounts base space cookieBit index used rest).Packs space used
      (mountCandidates mounts base index rest) (MountsFrom mounts base cookieBit) := by
  induction rest generalizing index used with
  | nil => exact packs_nil index used
  | cons mount rest ih =>
    have inside := Nat.not_le.mp (mt drop_eq_nil_of_le (isRest ▸ cons_ne_nil mount rest))
    have isNext : mounts.drop (index + 1) = rest := by
      rw [← drop_drop, isRest]
      rfl
    unfold mountChildrenFrom mountCandidates
    cases mountChild base mount with
    | none => exact ih (index + 1) used isNext
    | some child =>
      dsimp only
      by_cases repeated : mountRepeats mounts base index child.1
      · rw [if_pos repeated, if_pos repeated]
        exact ih (index + 1) used isNext
      rw [if_neg repeated, if_neg repeated]
      exact packs_candidate ⟨_, _, mountChildType filetypeOf mount child.2, child.1⟩
        ⟨index + 1, inside, rfl, by rw [isNext]⟩ (ih (index + 1) _ isNext)

lemma tarCandidates_fuel (index : List TarEntry) (dir : Bytes) {fuel fuel' pos : Nat}
    (enough : index.length < pos + fuel) (enough' : index.length < pos + fuel') :
    tarCandidates index dir fuel pos = tarCandidates index dir fuel' pos := by
  induction fuel generalizing fuel' pos with
  | zero =>
    have outside : index[pos]? = none := getElem?_eq_none (by omega)
    cases fuel' with
    | zero => rfl
    | succ fuel' => rw [tarCandidates, tarCandidates, outside]
  | succ fuel ih =>
    cases fuel' with
    | zero =>
      have outside : index[pos]? = none := getElem?_eq_none (by omega)
      rw [tarCandidates, tarCandidates, outside]
    | succ fuel' =>
      have step : ∀ more, tarCandidates index dir fuel (pos + 1 + more) =
          tarCandidates index dir fuel' (pos + 1 + more) :=
        fun more => ih (by omega) (by omega)
      have next := step 0
      unfold tarCandidates
      simp only [step, Nat.add_zero] at next ⊢
      rw [next]

def TarFrom (index : List TarEntry) (dir : Bytes) (next : Nat) (rest : List Candidate) : Prop :=
  0 < next ∧ next ≤ index.length ∧ rest = tarCandidates index dir (index.length + 1) next

lemma readDirFrom_packs (index : List TarEntry) (dir : Bytes) (bufLen fuel pos used : Nat)
    (enough : index.length < pos + fuel) :
    (readDirFrom index dir bufLen fuel pos used).Packs bufLen used
      (tarCandidates index dir fuel pos) (TarFrom index dir) := by
  induction fuel generalizing pos used with
  | zero => exact packs_nil pos used
  | succ fuel ih =>
    unfold readDirFrom tarCandidates
    cases found : index[pos]? with
    | none => exact packs_nil pos used
    | some entry =>
      have inside := (List.getElem?_eq_some_iff.mp found).1
      have within : ∀ more, more ≤ (index.drop (pos + 1)).length →
          TarFrom index dir (pos + 1 + more) (tarCandidates index dir fuel (pos + 1 + more)) := by
        intro more most
        rw [length_drop] at most
        exact ⟨by omega, by omega, tarCandidates_fuel index dir (by omega) (by omega)⟩
      have next := within 0 (Nat.zero_le _)
      dsimp only
      generalize (entry.path.drop dir.length).takeWhile (· ≠ slash) = name
      generalize entry.path.drop dir.length = suffix
      by_cases below : dir.isPrefixOf entry.path
      case neg =>
        rw [if_pos below, if_pos below]
        exact packs_nil pos used
      rw [if_neg (not_not_intro below), if_neg (not_not_intro below)]
      by_cases self : suffix = []
      · rw [if_pos self, if_pos self]
        exact ih (pos + 1) used (by omega)
      rw [if_neg self, if_neg self]
      by_cases file : slash ∉ suffix
      · rw [if_pos file, if_pos file]
        by_cases marker : entry.isMarker
        · rw [if_pos marker, if_pos marker]
          exact ih (pos + 1) used (by omega)
        rw [if_neg marker, if_neg marker]
        exact packs_candidate ⟨pos + 1, pos, .regularFile, name⟩ next (ih (pos + 1) _ (by omega))
      rw [if_neg file, if_neg file]
      have few := (takeWhile_sublist (inSubdir dir name) (l := index.drop (pos + 1))).length_le
      generalize (index.drop (pos + 1)).takeWhile (inSubdir dir name) = siblings at few ⊢
      cases empty : (entry :: siblings).all (·.isMarker) with
      | true => exact packs_hidden name (ih (pos + 1 + siblings.length) used (by omega))
      | false =>
        exact packs_candidate ⟨pos + 1 + siblings.length, pos, .directory, name⟩
          (within siblings.length few) (ih _ _ (by omega))

/-! ### The end of a directory -/

/-- The place of the index where a listing of the TarFS starts. -/
def tarStart (index : List TarEntry) (dir : Bytes) (cookie : Nat) : Nat :=
  if cookie = 0 then lowerBound index dir else cookie % 2 ^ 16

/-- What a listing comes to from a cookie on: for the root the entries of the TarFS and then the
mounts, for every other directory its entries. -/
def Directory.candidates (sizeBits cookie : Nat) : Directory → List Candidate × List Candidate
  | .flat entries => ([], listCandidates (entries.drop cookie))
  | .dev entries => ([], listCandidates (entries.drop (cookie % 2 ^ 8)))
  | .registryRoot => ([], listCandidates (registryRootNames.drop (cookie % 2 ^ sizeBits)))
  | .registryBlobs digests =>
    ([], listCandidates
      ((digests.map fun digest => ⟨digest, .regularFile⟩).drop (cookie % 2 ^ sizeBits)))
  | .registryImages images =>
    ([], listCandidates ((images.map fun image =>
      ⟨image.1 ++ ascii ":" ++ image.2, .regularFile⟩).drop (cookie % 2 ^ sizeBits)))
  | .wapps running created =>
    ([], listCandidates (((running ++ created.filter (· ∉ running)).map
      fun name => ⟨name, .directory⟩).drop cookie))
  | .wapp => ([], listCandidates (wappLeaves.drop cookie))
  | .mountDir _ mounts base => ([], mountCandidates mounts base cookie (mounts.drop cookie))
  | .tar index path =>
    ([], tarCandidates index path (index.length + 1) (tarStart index path cookie))
  | .root _ index mounts =>
    if mountPhaseBit ≤ cookie then
      ([], mountCandidates mounts [] (cookie % mountPhaseBit) (mounts.drop (cookie % mountPhaseBit)))
    else (tarCandidates index [] (index.length + 1) (tarStart index [] cookie),
      mountCandidates mounts [] 0 mounts)

def Directory.namesFrom (sizeBits cookie : Nat) (dir : Directory) : List Bytes :=
  (((dir.candidates sizeBits cookie).1 ++ (dir.candidates sizeBits cookie).2).filter
    Candidate.shown).map Candidate.name

/-- A listing of one phase is the packing of its entries alone. -/
lemma Listed.Shows.single {candidates : List Candidate}
    (shows : listed.Shows (fill Candidate.size Candidate.shown bufLen 0 candidates)) :
    listed.Shows (fillTwice Candidate.size Candidate.shown bufLen [] candidates) := by
  have positive : ∀ candidate ∈ candidates, 0 < candidate.size :=
    fun candidate _ => Nat.lt_of_lt_of_le (by decide) (Nat.le_add_right direntSize _)
  rw [fillTwice_nil positive]
  exact shows

variable {index : List TarEntry} {dirents : List Dirent}

lemma readDirLocked_packs {dir : Bytes} (done : readDirLocked index dir cookie bufLen = .ok listed) :
    listed.Packs bufLen 0
      (tarCandidates index dir (index.length + 1) (tarStart index dir cookie))
      (TarFrom index dir) := by
  unfold readDirLocked at done
  unfold tarStart
  split at done
  · rename_i start
    cases done
    rw [if_pos start]
    exact readDirFrom_packs _ _ _ _ _ _ (by omega)
  rename_i resumed
  split at done
  · cases done
  cases done
  rw [if_neg resumed]
  exact readDirFrom_packs _ _ _ _ _ _ (by omega)

lemma readRoot_shows {filetypeOf : Nat → Filetype} {mounts : List Mount}
    (sizeBits : Nat) (done : readRoot filetypeOf index mounts cookie bufLen = .ok listed) :
    listed.Shows (fillTwice Candidate.size Candidate.shown bufLen
      ((root filetypeOf index mounts).candidates sizeBits cookie).1
      ((root filetypeOf index mounts).candidates sizeBits cookie).2) := by
  unfold readRoot at done
  simp only [candidates]
  generalize mountPhaseBit = phaseBit at done ⊢
  split at done
  · rename_i phase
    cases done
    rw [if_pos phase]
    apply Listed.Shows.single
    have children := (mountChildrenFrom_packs filetypeOf mounts [] bufLen phaseBit
      (cookie % phaseBit) 0 _ rfl).shows
    exact ⟨children.1, (Nat.zero_add _).trans children.2⟩
  rename_i phase
  rw [if_neg phase]
  split at done
  · cases done
  rename_i first tar
  have begun := (readDirLocked_packs tar).shows
  have within := fill_le Candidate.size Candidate.shown
    (tarCandidates index [] (index.length + 1) (tarStart index [] cookie)) (Nat.zero_le bufLen)
  unfold fillTwice
  dsimp only
  rw [← begun.2] at within ⊢
  split at done
  · rename_i filled
    cases done
    rw [if_pos filled]
    exact ⟨begun.1, rfl⟩
  rename_i unfilled
  cases done
  rw [if_neg unfilled, ← begun.1]
  have children := (mountChildrenFrom_packs filetypeOf mounts [] (bufLen - first.used) phaseBit
    0 0 mounts rfl).shows
  have shift := fill_shift Candidate.size Candidate.shown within 0 (mountCandidates mounts [] 0 mounts)
  rw [Nat.add_zero] at shift
  rw [shift]
  refine ⟨?_, congrArg (first.used + ·) children.2⟩
  rw [map_append]
  exact congrArg (first.dirents.map Dirent.candidate ++ ·) children.1

lemma wasiFdReaddir_shows {sizeBits : Nat} {dir : Directory}
    {used : Nat} (done : wasiFdReaddir sizeBits dir cookie bufLen = .ok (dirents, used)) :
    (dirents.map Dirent.candidate, used) = fillTwice Candidate.size Candidate.shown bufLen
      (dir.candidates sizeBits cookie).1 (dir.candidates sizeBits cookie).2 := by
  have packed : ∀ (listed : Listed) filled, listed.dirents = dirents ∧ listed.used = used →
      listed.Shows filled → (dirents.map Dirent.candidate, used) = filled := by
    rintro listed _ ⟨rfl, rfl⟩ shows
    exact Prod.ext shows.1 shows.2
  unfold wasiFdReaddir at done
  cases dir with
  | flat | dev | registryRoot | registryBlobs | registryImages | wapps | wapp =>
    cases done
    exact packed _ _ ⟨rfl, rfl⟩ (Listed.Shows.single (packFrom_shows ..))
  | mountDir =>
    cases done
    exact packed _ _ ⟨rfl, rfl⟩ (Listed.Shows.single (mountChildrenFrom_packs _ _ _ _ _ _ _ _ rfl).shows)
  | tar index path =>
    cases listed : readDirLocked index path cookie bufLen with
    | error e => simp [listed, Except.map] at done
    | ok result =>
      simp only [listed, Except.map, Except.ok.injEq, Prod.mk.injEq] at done
      exact packed result _ done (Listed.Shows.single (readDirLocked_packs listed).shows)
  | root filetypeOf index mounts =>
    cases listed : readRoot filetypeOf index mounts cookie bufLen with
    | error e => simp [listed, Except.map] at done
    | ok result =>
      simp only [listed, Except.map, Except.ok.injEq, Prod.mk.injEq] at done
      exact packed result _ done (readRoot_shows sizeBits listed)

/-- For every kind of directory, cookie and buffer, the entries of a listing take the bytes that the call
reports, and the buffer has these. -/
theorem readdir_inside {sizeBits : Nat} {dir : Directory} {used : Nat}
    (done : wasiFdReaddir sizeBits dir cookie bufLen = .ok (dirents, used)) :
    (dirents.map fun dirent => direntSize + dirent.name.length).sum = used ∧ used ≤ bufLen := by
  have filled := fillTwice_uses (wasiFdReaddir_shows done)
  rwa [map_map] at filled

theorem readdir_inside_wapp : ∃ listed, wasiFdReaddir 32 .wapp 0 60 = .ok listed ∧ listed.2 ≤ 60 :=
  have done : wasiFdReaddir 32 .wapp 0 60 = .ok (_, _) := rfl
  ⟨_, done, (readdir_inside done).2⟩

/-- The entries in the buffer are all that the directory has from the cookie on iff they
are what the packing of both phases shows. -/
lemma names_eq_iff {candidates : List Candidate} :
    dirents.map (·.name) = (candidates.filter Candidate.shown).map Candidate.name ↔
      dirents.map Dirent.candidate = candidates.filter Candidate.shown := by
  have shown : ((candidates.filter Candidate.shown).map Candidate.name).map
      (fun name => (⟨name, true⟩ : Candidate)) = candidates.filter Candidate.shown := by
    rw [map_map]
    conv_rhs => rw [← map_id (candidates.filter Candidate.shown)]
    refine map_congr_left fun candidate mem => ?_
    have isShown := (mem_filter.mp mem).2
    cases candidate
    cases isShown
    rfl
  constructor
  · intro names
    rw [← shown, ← names, map_map]
    rfl
  · intro same
    rw [← same, map_map]
    rfl

/-- For every directory, cookie and buffer: that a buffer which is not full means the end of the
directory holds iff the sizes of the entries fill the buffer or leave nothing. For a directory of
one phase in which every entry is shown, that is when all entries from the cookie on fit together or the
sizes of the first of them add up to the buffer. -/
theorem readdir_end_iff (sizeBits : Nat) (dir : Directory) (cookie bufLen : Nat)
    (dirents : List Dirent) (used : Nat)
    (done : wasiFdReaddir sizeBits dir cookie bufLen = .ok (dirents, used)) :
    ((used < bufLen → dirents.map (·.name) = dir.namesFrom sizeBits cookie) ↔
      Settled Candidate.size Candidate.shown bufLen (dir.candidates sizeBits cookie).1
        (dir.candidates sizeBits cookie).2) ∧
    ∀ entries, dir.candidates sizeBits cookie = ([], entries) →
      (∀ entry ∈ entries, entry.shown = true) →
      ((used < bufLen → dirents.map (·.name) = dir.namesFrom sizeBits cookie) ↔
        (entries.map Candidate.size).sum ≤ bufLen ∨
          ∃ count, ((entries.take count).map Candidate.size).sum = bufLen) := by
  have packed := wasiFdReaddir_shows done
  have settled : (used < bufLen → dirents.map (·.name) = dir.namesFrom sizeBits cookie) ↔
      Settled Candidate.size Candidate.shown bufLen (dir.candidates sizeBits cookie).1
        (dir.candidates sizeBits cookie).2 := by
    rw [← exhaustive_iff_settled, ← packed, namesFrom, names_eq_iff, filter_append]
  refine ⟨settled, fun entries phase allShown => ?_⟩
  rw [settled, phase, settled_iff_sums allShown]

def sampleNodes : List DirEntry := [⟨ascii "ctl", .characterDevice⟩, ⟨ascii "data", .regularFile⟩]

def sampleDirectory : Directory := .flat sampleNodes

/-- A buffer of 55 bytes takes both nodes and is full. -/
theorem readdir_end_sample : wasiFdReaddir 32 sampleDirectory 0 55 =
      .ok ([⟨27, 0, .characterDevice, ascii "ctl"⟩, ⟨55, 1, .regularFile, ascii "data"⟩], 55) ∧
    ((listCandidates sampleNodes).map Candidate.size).sum ≤ 55 ∧
    (55 < 55 → [ascii "ctl", ascii "data"] = sampleDirectory.namesFrom 32 0) :=
  ⟨by decide, by decide, ((readdir_end_iff 32 sampleDirectory 0 55
    [⟨27, 0, .characterDevice, ascii "ctl"⟩, ⟨55, 1, .regularFile, ascii "data"⟩] 55
    (by decide)).2 (listCandidates sampleNodes) rfl (by decide)).mpr (.inl (by decide))⟩

/-- A buffer of 50 bytes gets the first node alone and is not full. -/
theorem readdir_end_early :
    ∃ dirents used, wasiFdReaddir 32 sampleDirectory 0 50 = .ok (dirents, used) ∧ used < 50 ∧
      dirents.map (·.name) ≠ sampleDirectory.namesFrom 32 0 :=
  ⟨[⟨27, 0, .characterDevice, ascii "ctl"⟩], 27, by decide, by decide, by decide⟩

/-! ### Resuming a flat directory -/

section Resuming

def DirEntry.size (entry : DirEntry) : Nat := direntSize + entry.name.length

variable (entries : List DirEntry) (sizes : Nat → Nat)

/-- The cookie of the calls of a guest that starts at 0 and resumes at the `d_next` of the last
entry it received, by the sizes of its buffers. -/
def guestCookie : Nat → Nat
  | 0 => 0
  | call + 1 =>
    match (vfsFlatDirReadDir entries (guestCookie call) (sizes call)).dirents.getLast? with
    | none => guestCookie call
    | some last => last.next

/-- The entries that a call of the guest returns. -/
def guestCall (call : Nat) : List Dirent :=
  (vfsFlatDirReadDir entries (guestCookie entries sizes call) (sizes call)).dirents

/-- Every buffer is large enough for the next entry. -/
def Adequate : Prop :=
  ∀ call entry, entries[guestCookie entries sizes call]? = some entry → entry.size ≤ sizes call

/-- The guest obtains every entry exactly once, and then an empty result. -/
def ObtainsAll : Prop :=
  ∃ calls, (∀ call < calls, guestCall entries sizes call ≠ []) ∧
    guestCall entries sizes calls = [] ∧
    (((List.range calls).flatMap (guestCall entries sizes)).map fun dirent =>
      ((⟨dirent.name, dirent.type⟩ : DirEntry), dirent.ino)).Perm entries.zipIdx

/-- In a flat directory the `d_next` of the last entry is the number of bytes used, and a call
that returns nothing uses nothing. -/
lemma packFrom_last (bufLen index used : Nat) (rest : List DirEntry) :
    match (packFrom (fun _ after => after) bufLen index used rest).dirents.getLast? with
    | none => (packFrom (fun _ after => after) bufLen index used rest).used = used
    | some last => last.next = (packFrom (fun _ after => after) bufLen index used rest).used := by
  induction rest generalizing index used with
  | nil => rfl
  | cons entry rest ih =>
    unfold packFrom
    by_cases misfit : bufLen < used + direntSize + entry.name.length
    · rw [if_pos misfit]
      rfl
    have step := ih (index + 1) (used + direntSize + entry.name.length)
    rw [if_neg misfit, Listed.cons, getLast?_cons]
    cases final : (packFrom (fun _ after => after) bufLen (index + 1)
        (used + direntSize + entry.name.length) rest).dirents.getLast? with
    | none =>
      rw [final] at step
      exact step.symm
    | some last =>
      rw [final] at step
      exact step

lemma packFrom_takes (nextOf : Nat → Nat → Nat) (bufLen index used : Nat) (rest : List DirEntry) :
    ∃ count ≤ rest.length,
      (packFrom nextOf bufLen index used rest).dirents.map
          (fun dirent => ((⟨dirent.name, dirent.type⟩ : DirEntry), dirent.ino)) =
        (rest.take count).zipIdx index ∧
      (packFrom nextOf bufLen index used rest).used = used + ((rest.take count).map size).sum ∧
      (used ≤ bufLen → used + ((rest.take count).map size).sum ≤ bufLen) ∧
      ∀ entry, rest[count]? = some entry →
        bufLen < used + ((rest.take count).map size).sum + entry.size := by
  induction rest generalizing index used with
  | nil => exact ⟨0, Nat.le_refl 0, rfl, rfl, id, nofun⟩
  | cons entry rest ih =>
    unfold packFrom
    dsimp only
    split
    · rename_i misfit
      refine ⟨0, Nat.zero_le _, rfl, rfl, id, ?_⟩
      rintro _ ⟨⟩
      simpa [size, Nat.add_assoc] using misfit
    rename_i fits
    obtain ⟨count, within, listed, total, inside, stop⟩ :=
      ih (index + 1) (used + direntSize + entry.name.length)
    have sum : used + direntSize + entry.name.length + ((rest.take count).map size).sum =
        used + (((entry :: rest).take (count + 1)).map size).sum := by
      simp only [take_succ_cons, map_cons, sum_cons, size]
      omega
    rw [sum] at total inside stop
    exact ⟨count + 1, Nat.succ_le_succ within,
      congrArg (((⟨entry.name, entry.type⟩ : DirEntry), index) :: ·) listed, total,
      fun _ => inside (Nat.not_lt.mp fits), stop⟩

lemma guestCall_takes (call : Nat) :
    let rest := entries.drop (guestCookie entries sizes call)
    ∃ count ≤ rest.length,
      (guestCall entries sizes call).map
          (fun dirent => ((⟨dirent.name, dirent.type⟩ : DirEntry), dirent.ino)) =
        (rest.take count).zipIdx (guestCookie entries sizes call) ∧
      (guestCall entries sizes call ≠ [] → guestCookie entries sizes (call + 1) =
        ((rest.take count).map size).sum) ∧
      ((rest.take count).map size).sum ≤ sizes call ∧
      ∀ entry, rest[count]? = some entry →
        sizes call < ((rest.take count).map size).sum + entry.size := by
  have final := packFrom_last (sizes call) (guestCookie entries sizes call) 0
    (entries.drop (guestCookie entries sizes call))
  obtain ⟨count, within, listed, used, inside, stop⟩ := packFrom_takes (fun _ after => after)
    (sizes call) (guestCookie entries sizes call) 0
    (entries.drop (guestCookie entries sizes call))
  rw [Nat.zero_add] at used inside
  refine ⟨count, within, listed, fun some => ?_, inside (Nat.zero_le _), ?_⟩
  · rw [guestCookie]
    unfold vfsFlatDirReadDir
    cases last : (packFrom (fun _ after => after) (sizes call) (guestCookie entries sizes call) 0
        (entries.drop (guestCookie entries sizes call))).dirents.getLast? with
    | none => exact absurd (getLast?_eq_none_iff.mp last) some
    | some dirent =>
      rw [last] at final
      exact final.trans used
  · intro entry found
    simpa using stop entry found

def totalSize (entries : List DirEntry) : Nat := (entries.map DirEntry.size).sum

variable {entries} in
/-- The nodes up to one take no more than all of them. -/
lemma sum_take_add_size_le {start count : Nat} {entry : DirEntry}
    (found : (entries.drop start)[count]? = some entry) :
    (((entries.drop start).take count).map DirEntry.size).sum + entry.size ≤ totalSize entries := by
  have upTo : (((entries.drop start).take (count + 1)).map DirEntry.size).sum =
      (((entries.drop start).take count).map DirEntry.size).sum + entry.size := by
    rw [take_add_one, found]
    simp
  rw [← upTo]
  have part : ((entries.drop start).take (count + 1)).Sublist entries :=
    (take_sublist ..).trans (drop_sublist ..)
  exact (part.map DirEntry.size).sum_le_sum fun _ _ => Nat.zero_le _

lemma guestCall_whole {call : Nat} (room : totalSize entries ≤ sizes call) :
    (guestCall entries sizes call).map
        (fun dirent => ((⟨dirent.name, dirent.type⟩ : DirEntry), dirent.ino)) =
      (entries.drop (guestCookie entries sizes call)).zipIdx (guestCookie entries sizes call) ∧
    (guestCall entries sizes call ≠ [] → guestCookie entries sizes (call + 1) =
      totalSize (entries.drop (guestCookie entries sizes call))) := by
  obtain ⟨_, within, listed, resumed, _, stop⟩ := guestCall_takes entries sizes call
  rcases Nat.lt_or_eq_of_le within with short | whole
  · have found := getElem?_eq_getElem short
    have misfit := stop _ found
    have fits := sum_take_add_size_le found
    omega
  · rw [whole, take_length] at listed resumed
    exact ⟨listed, resumed⟩

lemma length_mul_le_totalSize (entries : List DirEntry) :
    direntSize * entries.length ≤ totalSize entries := by
  induction entries with
  | nil => exact Nat.le_refl 0
  | cons entry rest ih =>
    have sum : totalSize (entry :: rest) = entry.size + totalSize rest := by
      simp [totalSize]
    rw [sum, length_cons, Nat.mul_add, size]
    omega

variable {entries} in
lemma obtainsAll_of_room (room : totalSize entries ≤ sizes 0) : ObtainsAll entries sizes := by
  obtain ⟨first, resumed⟩ := guestCall_whole entries sizes room
  rw [guestCookie, drop_zero] at first resumed
  have none : ∀ call, entries.length ≤ guestCookie entries sizes call →
      guestCall entries sizes call = [] := by
    intro call beyond
    obtain ⟨_, _, listed, _⟩ := guestCall_takes entries sizes call
    rw [drop_eq_nil_of_le beyond, take_nil] at listed
    exact map_eq_nil_iff.mp listed
  cases isEmpty : entries with
  | nil =>
    subst isEmpty
    exact ⟨0, nofun, none 0 (Nat.zero_le _), .refl _⟩
  | cons entry rest =>
    rw [← isEmpty]
    have some : guestCall entries sizes 0 ≠ [] := by
      intro empty
      rw [empty, isEmpty] at first
      cases first
    refine ⟨1, fun call early => ?_, none 1 ?_, ?_⟩
    · rw [Nat.lt_one_iff.mp early]
      exact some
    · have long := length_mul_le_totalSize entries
      rw [resumed some]
      exact Nat.le_trans (Nat.le_mul_of_pos_left _ (by decide)) long
    · rw [range_one, flatMap_singleton, first]

lemma mem_guestCall_ino {call number : Nat} (room : totalSize entries ≤ sizes call) :
    number ∈ (guestCall entries sizes call).map (·.ino) ↔
      guestCookie entries sizes call ≤ number ∧ number < entries.length := by
  have listed := congrArg (List.map Prod.snd) (guestCall_whole entries sizes room).1
  rw [map_map, zipIdx_map_snd] at listed
  have same : (guestCall entries sizes call).map (·.ino) = _ := listed
  rw [same, mem_range'_1, length_drop]
  omega

variable {entries} in
lemma guestCookie_skips {first : Nat} (start : sizes 0 = first)
    (fits : ∀ entry, entries.head? = some entry → entry.size ≤ first)
    (short : first < totalSize entries) :
    ∃ count < entries.length, (guestCall entries sizes 0).map (·.ino) = List.range count ∧
      count < guestCookie entries sizes 1 := by
  obtain ⟨count, within, listed, resumed, inside, stop⟩ := guestCall_takes entries sizes 0
  simp only [guestCookie, drop_zero, start] at within listed inside stop
  have cut : count < entries.length := by
    refine Nat.lt_of_le_of_ne within fun whole => ?_
    rw [whole, take_length] at inside
    exact absurd inside (Nat.not_le.mpr short)
  have some : 0 < count := by
    refine Nat.pos_of_ne_zero fun none => ?_
    subst none
    have found := getElem?_eq_getElem cut
    have misfit := stop _ found
    have takes := fits _ (head?_eq_getElem? ▸ found)
    simp only [take_zero, map_nil, sum_nil] at misfit
    omega
  have numbers := congrArg (List.map Prod.snd) listed
  rw [map_map, zipIdx_map_snd, length_take, Nat.min_eq_left within, ← range_eq_range'] at numbers
  refine ⟨count, cut, numbers, ?_⟩
  have nonempty : guestCall entries sizes 0 ≠ [] := by
    intro empty
    rw [empty] at numbers
    exact absurd (range_eq_nil.mp numbers.symm) (Nat.ne_of_gt some)
  have long := length_mul_le_totalSize (entries.take count)
  rw [length_take, direntSize] at long
  have resume := resumed nonempty
  simp only [guestCookie, drop_zero] at resume
  unfold totalSize at long
  rw [guestCookie, guestCookie]
  omega

variable {entries} in
/-- With a first buffer that does not take the whole directory and later ones that would, the
guest misses an entry or gets one twice. -/
lemma not_obtainsAll {first : Nat} (start : sizes 0 = first)
    (later : ∀ call, sizes (call + 1) = totalSize entries)
    (fits : ∀ entry, entries.head? = some entry → entry.size ≤ first)
    (short : first < totalSize entries) : ¬ ObtainsAll entries sizes := by
  rintro ⟨calls, nonempty, _, obtained⟩
  obtain ⟨count, inside, begun, skipped⟩ := guestCookie_skips sizes start fits short
  have room : ∀ call, totalSize entries ≤ sizes (call + 1) := fun call => (later call).ge
  have numbers : ((List.range calls).flatMap fun call =>
      (guestCall entries sizes call).map (·.ino)).Perm (List.range entries.length) := by
    have mapped := obtained.map Prod.snd
    rw [map_map, zipIdx_map_snd, ← range_eq_range', map_flatMap] at mapped
    exact mapped
  have once := numbers.nodup_iff.mpr nodup_range
  -- the entry behind the first buffer comes with a later call, which then also brings the last
  -- entry, as the second call does
  obtain ⟨call, early, found⟩ := mem_flatMap.mp (numbers.mem_iff.mpr (mem_range.mpr inside))
  match call with
  | 0 =>
    rw [begun] at found
    exact absurd (mem_range.mp found) (Nat.lt_irrefl count)
  | 1 => exact absurd ((mem_guestCall_ino entries sizes (room 0)).mp found).1 (Nat.not_le.mpr skipped)
  | call + 2 =>
    have within := mem_range.mp early
    have second : ((guestCall entries sizes 1).map (·.ino)) ≠ [] := by
      simpa using nonempty 1 (by omega)
    obtain ⟨_, brought⟩ := exists_mem_of_ne_nil _ second
    have fromSecond := (mem_guestCall_ino entries sizes (room 0)).mp brought
    have fromLater := (mem_guestCall_ino entries sizes (room (call + 1))).mp found
    have disjoint := pairwise_iff_getElem.mp (nodup_flatMap.mp once).2 1 (call + 2)
      (by simpa using by omega) (by simpa using within) (by omega)
    simp only [getElem_range] at disjoint
    refine disjoint ((mem_guestCall_ino entries sizes (room 0)).mpr (?_ : _ ≤ entries.length - 1 ∧ _))
      ((mem_guestCall_ino entries sizes (room (call + 1))).mpr ?_)
    · omega
    · omega

/-- The buffers of a guest whose later ones would take the whole directory. -/
def laterSizes (first call : Nat) : Nat := if call = 0 then first else totalSize entries

variable {entries} in
/-- Such buffers are large enough for the next entry when the first is. -/
lemma adequate_laterSizes {first : Nat}
    (fits : ∀ entry, entries.head? = some entry → entry.size ≤ first) :
    Adequate entries (laterSizes entries first) := by
  intro call entry found
  cases call with
  | zero => exact fits entry (head?_eq_getElem? ▸ found)
  | succ call =>
    exact single_le_sum (fun _ _ => Nat.zero_le _) _ (mem_map_of_mem (mem_of_getElem? found))

/-- Whether a guest obtains every entry exactly once, whatever its later buffers, is whether its
first buffer takes the whole directory. -/
theorem obtainsAll_iff (first : Nat) (fits : ∀ entry, entries.head? = some entry → entry.size ≤ first) :
    (∀ sizes : Nat → Nat, sizes 0 = first → Adequate entries sizes → ObtainsAll entries sizes) ↔
      totalSize entries ≤ first := by
  constructor
  · intro always
    by_contra short
    exact not_obtainsAll (laterSizes entries first) rfl (fun _ => rfl) fits
      (Nat.lt_of_not_le short) (always _ rfl (adequate_laterSizes fits))
  · rintro room sizes rfl _
    exact obtainsAll_of_room sizes room

end Resuming

/-- A guest whose first buffer has 55 bytes obtains both nodes. -/
theorem obtainsAll_sample : Adequate sampleNodes (laterSizes sampleNodes 55) ∧
      ObtainsAll sampleNodes (laterSizes sampleNodes 55) :=
  have adequate := adequate_laterSizes (by decide)
  ⟨adequate, (obtainsAll_iff sampleNodes 55 (by decide)).mpr (by decide) _ rfl adequate⟩

/-- A guest whose first buffer has 30 bytes obtains the first node and then an empty result. -/
theorem obtains_first_only : Adequate sampleNodes (laterSizes sampleNodes 30) ∧
      ¬ ObtainsAll sampleNodes (laterSizes sampleNodes 30) ∧
      guestCall sampleNodes (laterSizes sampleNodes 30) 0 = [⟨27, 0, .characterDevice, ascii "ctl"⟩] ∧
      guestCall sampleNodes (laterSizes sampleNodes 30) 1 = [] :=
  ⟨adequate_laterSizes (by decide), not_obtainsAll _ rfl (fun _ => rfl) (by decide) (by decide),
    by decide, by decide⟩

end WantedEngine.Vfs
