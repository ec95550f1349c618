import WantedEngine.Vfs.OpenRule
/-!
# Driver handles are closed once

What a driver hands out and what it gets back, over every run of the descriptor table. `Balanced`
is the ledger: a handle that was handed out has been closed or is held by one slot, and a driver
that was taken over is owned until the table is destroyed. A step of an operation may have one
handle in its hands, which is the ledger's `pending` part.
-/
namespace WantedEngine.Vfs

open Foundation Foundation.Slots List VfsState DriverEvent

/-! ### The ledger -/

/-- How often a driver handed a handle out. -/
def handed (handle : Handle) (log : List DriverEvent) : Nat :=
  log.count (.opened handle) + log.count (.bound handle)

/-- The slot is closed or a console stream. -/
def StreamOrClosed (fd : Option OpenFd) : Prop :=
  ∀ open_, fd = some open_ → open_.handle = none ∧ ∃ flags path, open_.slot = .other .stream flags path

/-- The account of drivers. -/
structure Owned (v : VfsState) : Prop where
  taken : ∀ d, v.log.count (.taken d) = (ownedDrivers v).count d
  /-- A driver is taken over or destroyed once. -/
  single : ∀ d, v.log.count (.taken d) + v.log.count (.destroyed d) ≤ 1
  unmade : ∀ d, v.drivers ≤ d → v.log.count (.taken d) + v.log.count (.destroyed d) = 0

/-- The ledger of handles and drivers, with the handles an operation has in its hands. -/
structure Balanced (v : VfsState) (pending : List Handle) : Prop where
  size : v.fds.length = vfsMaxFds
  console : ∀ pos < rootFd, StreamOrClosed (v.at pos)
  /-- What was handed out was closed, is in a slot or in hand. -/
  paid : ∀ h, handed h v.log =
    v.log.count (.closed h) + (handlesOf v.fds).count h + pending.count h
  once : ∀ h, handed h v.log ≤ 1
  fresh : ∀ h, v.calls ≤ h.serial → handed h v.log = 0
  owned : Owned v

/-! ### Owned drivers -/

/-- A platform driver is the driver of a slot. -/
lemma mem_platformDrivers (v : VfsState) (driver : Nat) :
    driver ∈ platformDrivers v ↔ ∃ pos, keyOf (v.at pos) = some driver := by
  rw [platformDrivers, mem_dedup]
  exact mem_filterMap_iff keyOf v.fds none rfl driver

lemma count_ownedDrivers (v : VfsState) (driver : Nat) :
    (ownedDrivers v).count driver = (if driver ∈ platformDrivers v then 1 else 0) +
      (mountDrivers v).count driver + (v.devfs.map (·.2)).count driver +
      (v.netfs.map (·.2)).count driver := by
  simp only [ownedDrivers, count_append]
  by_cases mem : driver ∈ platformDrivers v
  · have one : (platformDrivers v).count driver = 1 :=
      count_eq_one_of_mem (nodup_dedup _) mem
    rw [one, if_pos mem]
  · rw [count_eq_zero_of_not_mem mem, if_neg mem]

variable {after : VfsState} {pos : Nat} {open_ : OpenFd}

lemma at_set {v : VfsState} (fd : Option OpenFd) (within : pos < v.fds.length) (other : Nat) :
    { v with fds := v.fds.set pos fd }.at other = if pos = other then fd else v.at other :=
  getD_set v.fds pos other fd none within

variable {fd : Option OpenFd}

/-- A write keeps the platform drivers when each driver of the two slots it exchanges is the
driver of some slot before and after. -/
lemma platformDrivers_set {v : VfsState} (within : pos < v.fds.length)
    (lost : ∀ d, keyOf (v.at pos) = some d → keyOf fd = some d ∨
      ∃ other, other ≠ pos ∧ keyOf (v.at other) = some d)
    (gained : ∀ d, keyOf fd = some d → ∃ other, keyOf (v.at other) = some d) (driver : Nat) :
    driver ∈ platformDrivers { v with fds := v.fds.set pos fd } ↔
      driver ∈ platformDrivers v := by
  rw [mem_platformDrivers, mem_platformDrivers]
  constructor
  · rintro ⟨other, key⟩
    rw [at_set fd within] at key
    split at key
    · exact gained driver key
    · exact ⟨other, key⟩
  rintro ⟨other, key⟩
  by_cases same : pos = other
  · subst same
    obtain written | ⟨third, apart, kept⟩ := lost driver key
    · exact ⟨pos, by rw [at_set fd within, if_pos rfl]; exact written⟩
    · exact ⟨third, by rw [at_set fd within, if_neg (Ne.symm apart)]; exact kept⟩
  · exact ⟨other, by rw [at_set fd within, if_neg same]; exact key⟩

/-! ### The log -/

lemma count_record_ne {event other : DriverEvent} (apart : event ≠ other) (log : List DriverEvent)
    : (log ++ [event]).count other = log.count other := by
  have none_ : [event].count other = 0 :=
    count_eq_zero_of_not_mem (by simpa using apart.symm)
  rw [count_append, none_, Nat.add_zero]

lemma count_record_map {α : Type} [DecidableEq α] (event : α → DriverEvent)
    (injective : Function.Injective event) (log : List DriverEvent) (x y : α) :
    (log ++ [event x]).count (event y) = log.count (event y) + [x].count y := by
  rw [count_append]
  congr 1
  exact count_map_of_injective [x] event injective y

variable (log : List DriverEvent)

lemma handed_opened (new handle : Handle) :
    handed handle (log ++ [.opened new]) = handed handle log + [new].count handle := by
  rw [handed, count_record_map .opened (fun _ _ => opened.inj), count_record_ne (by nofun), handed]
  omega

lemma handed_bound (new handle : Handle) :
    handed handle (log ++ [.bound new]) = handed handle log + [new].count handle := by
  rw [handed, count_record_map .bound (fun _ _ => bound.inj), count_record_ne (by nofun), handed]
  omega

lemma handed_other (event : DriverEvent) (handle : Handle) (opened : event ≠ .opened handle)
    (bound : event ≠ .bound handle) :
    handed handle (log ++ [event]) = handed handle log := by
  rw [handed, count_record_ne opened, count_record_ne bound, handed]

/-! ### Steps -/

variable {v : VfsState} {pending : List Handle}

lemma Owned.record (owned : Owned v) {event : DriverEvent} (taken : ∀ d, event ≠ .taken d)
    (destroyed : ∀ d, event ≠ .destroyed d) : Owned (v.record event) where
  taken d := (count_record_ne (taken d) _).trans (owned.taken d)
  single d := by
    rw [VfsState.record, count_record_ne (taken d), count_record_ne (destroyed d)]
    exact owned.single d
  unmade d late := by
    rw [VfsState.record, count_record_ne (taken d), count_record_ne (destroyed d)]
    exact owned.unmade d late

variable (bal : Balanced v pending)
include bal

variable {handle : Option Handle} {rest : List Handle}

/-- Slots may be exchanged for what is in hand, and drivers may come and go, when no handle is
handed out or closed. -/
lemma Balanced.update (size : after.fds.length = v.fds.length)
    (console : ∀ pos < rootFd, StreamOrClosed (after.at pos)) (calls : v.calls ≤ after.calls)
    (out : ∀ h, handed h after.log = handed h v.log)
    (back : ∀ h, after.log.count (.closed h) = v.log.count (.closed h))
    (exchanged : ∀ h, (handlesOf after.fds).count h + rest.count h =
      (handlesOf v.fds).count h + pending.count h) (owned : Owned after) :
    Balanced after rest where
  size := size.trans bal.size
  console := console
  paid h := by
    have before := bal.paid h
    have exchange := exchanged h
    rw [out, back]
    omega
  once h := (out h).trans_le (bal.once h)
  fresh h late := (out h).trans (bal.fresh h (calls.trans late))
  owned := owned

lemma Balanced.driverStep (fds : after.fds = v.fds) (calls : v.calls ≤ after.calls)
    (out : ∀ h, handed h after.log = handed h v.log)
    (back : ∀ h, after.log.count (.closed h) = v.log.count (.closed h)) (owned : Owned after) :
    Balanced after pending := by
  refine bal.update (by rw [fds]) ?_ calls out back (fun h => by rw [fds]) owned
  intro pos low
  rw [VfsState.at, fds]
  exact bal.console pos low

lemma Balanced.tick : Balanced v.tick pending :=
  bal.driverStep rfl (Nat.le_succ _) (fun _ => rfl) (fun _ => rfl)
    ⟨bal.owned.taken, bal.owned.single, bal.owned.unmade⟩

lemma Balanced.asked (driver : Nat) (path : Bytes) (flags : Oflags)
    : Balanced (v.record (.asked driver path flags)) pending :=
  bal.driverStep rfl le_rfl (fun h => handed_other v.log _ h nofun nofun)
    (fun h => count_record_ne (by nofun : DriverEvent.asked driver path flags ≠ .closed h) v.log)
    (bal.owned.record nofun nofun)

omit bal

lemma Balanced.handOut (bal : Balanced v []) (event : Handle → DriverEvent)
    (handsOut : ∀ new h, handed h (v.log ++ [event new]) = handed h v.log + [new].count h)
    (closed : ∀ new h, event new ≠ .closed h) (taken : ∀ new d, event new ≠ .taken d)
    (destroyed : ∀ new d, event new ≠ .destroyed d) {new : Handle} (serial : new.serial = v.calls) :
    Balanced (v.record (event new)).tick [new] := by
  have unused := bal.fresh new serial.ge
  have counted : ∀ h, [new].count h ≠ 0 → h = new := by
    intro h some_
    exact mem_singleton.mp (count_pos_iff.mp (Nat.pos_of_ne_zero some_))
  refine Balanced.mk bal.size bal.console ?_ ?_ ?_ ?_
  · intro h
    have before := bal.paid h
    simp only [VfsState.tick, VfsState.record, handsOut, count_record_ne (closed new h)]
    rw [count_nil] at before
    omega
  · intro h
    simp only [VfsState.tick, VfsState.record, handsOut]
    by_cases none_ : [new].count h = 0
    · have := bal.once h
      omega
    · rw [counted h none_, unused]
      simp
  · intro h late
    simp only [VfsState.tick, VfsState.record] at late ⊢
    rw [handsOut, bal.fresh h (by omega)]
    by_contra some_
    have same := counted h (by omega)
    rw [same] at late
    omega
  · have owned := bal.owned.record (taken new) (destroyed new)
    exact ⟨owned.taken, owned.single, owned.unmade⟩

lemma Balanced.openHandle (bal : Balanced v []) (env : Backends) (driver : Nat) :
    Balanced (openHandle env v driver).2 (openHandle env v driver).1.toOption.toList := by
  rw [Vfs.openHandle]
  cases env.opens v.calls with
  | error e => exact bal.tick
  | ok drvFd =>
    exact bal.handOut .opened (fun new h => handed_opened v.log new h) (by simp) (by simp) (by simp) rfl

lemma Balanced.closeHandle (bal : Balanced v handle.toList)
    (env : Backends) : Balanced (closeHandle env v handle).2 [] := by
  cases handle with
  | none => exact bal
  | some handle =>
    refine Balanced.mk bal.size bal.console ?_ ?_ ?_ ?_
    · intro h
      have before := bal.paid h
      simp only [Vfs.closeHandle, VfsState.tick, VfsState.record]
      rw [handed_other v.log (.closed handle) h nofun nofun,
        count_record_map .closed (fun _ _ => closed.inj)]
      simp only [Option.toList_some, count_nil] at before ⊢
      omega
    · intro h
      exact (handed_other v.log (.closed handle) h nofun nofun).trans_le (bal.once h)
    · intro h late
      refine (handed_other v.log (.closed handle) h nofun nofun).trans (bal.fresh h ?_)
      exact Nat.le_of_succ_le late
    · have owned : Owned (v.record (.closed handle)) := bal.owned.record nofun nofun
      exact ⟨owned.taken, owned.single, owned.unmade⟩

include bal

lemma Balanced.slots {fds : List (Option OpenFd)} (size : fds.length = v.fds.length)
    (console : ∀ pos < rootFd, StreamOrClosed (fds.getD pos none))
    (exchanged : ∀ h, (handlesOf fds).count h + rest.count h =
      (handlesOf v.fds).count h + pending.count h)
    (platform : ∀ d, d ∈ platformDrivers { v with fds } ↔ d ∈ platformDrivers v) :
    Balanced { v with fds } rest := by
  have same : ∀ d, (ownedDrivers { v with fds }).count d = (ownedDrivers v).count d := fun d => by
    simp only [count_ownedDrivers, mountDrivers, platform]
  have owned : Owned { v with fds } :=
    ⟨fun d => (bal.owned.taken d).trans (same d).symm, bal.owned.single, bal.owned.unmade⟩
  exact bal.update size console le_rfl (fun _ => rfl) (fun _ => rfl) exchanged owned

lemma Balanced.set {after : List Handle} (within : pos < v.fds.length)
    (console : pos < rootFd → StreamOrClosed fd)
    (exchanged : ∀ h, (handleOf fd).count h + after.count h =
      (handleOf (v.at pos)).count h + pending.count h)
    (lost : ∀ d, keyOf (v.at pos) = some d → keyOf fd = some d ∨
      ∃ other, other ≠ pos ∧ keyOf (v.at other) = some d)
    (gained : ∀ d, keyOf fd = some d → ∃ other, keyOf (v.at other) = some d) :
    Balanced { v with fds := v.fds.set pos fd } after := by
  apply bal.slots
  · exact length_set
  · intro other low
    rw [getD_set _ _ _ _ _ within]
    split
    · rename_i same
      exact console (same ▸ low)
    · exact bal.console other low
  · intro h
    have counted := count_flatMap_set handleOf v.fds pos fd none within h
    have exchange := exchanged h
    simp only [VfsState.at, handlesOf] at exchange counted ⊢
    omega
  · exact platformDrivers_set within lost gained

omit bal

lemma findFirstClosedFd_spec {fd : Nat} (found : findFirstClosedFd v.ctx = .ok fd) :
    rootFd ≤ fd ∧ fd < v.fds.length ∧ v.at fd = none := by
  rw [findFirstClosedFd] at found
  cases index : (v.ctx.fds.drop rootFd).findIdx? (· = .closed) with
  | none => rw [index] at found; cases found
  | some pos =>
    rw [index] at found
    obtain rfl : rootFd + pos = fd := Except.ok.inj found
    obtain ⟨within, closed, -⟩ := findIdx?_eq_some_iff_getElem.mp index
    have inside : rootFd + pos < v.fds.length := by
      simp only [ctx, length_drop, length_map] at within
      omega
    refine ⟨Nat.le_add_right _ _, inside, ?_⟩
    simp only [ctx, getElem_drop, getElem_map, decide_eq_true_eq] at closed
    rw [VfsState.at, getD_eq_getElem _ _ inside]
    cases slot : v.fds[rootFd + pos] with
    | none => rfl
    | some open_ =>
      rw [slot] at closed
      exact absurd closed open_.live

lemma Balanced.claim (bal : Balanced v handle.toList)
    (env : Backends) (slot : FdSlot) (live : slot ≠ .closed) (shared : Shares v slot) :
    Balanced (claim env v slot live handle).2 [] := by
  rw [Vfs.claim]
  cases found : findFirstClosedFd v.ctx with
  | error e => exact bal.closeHandle env
  | ok fd =>
    obtain ⟨_, within, closed⟩ := findFirstClosedFd_spec found
    apply (bal.set within _ _ _ _).tick
    · intro low
      omega
    · intro h
      rw [closed]
      simp [handleOf]
    · intro d key
      rw [closed] at key
      cases key
    intro d key
    cases slot with
    | closed => cases key
    | other type flags path => cases key
    | platform driver drvFd flags path =>
      obtain rfl : driver.key = d := Option.some.inj key
      exact shared _ _ _ _ rfl

variable (env : Backends)

lemma balanced_openRule :
    OpenRule env (fun v handle => Balanced v handle.toList) (fun outcome => Balanced outcome.2 []) where
  tick bal := bal.tick
  asked bal driver path flags := bal.asked driver path flags
  opened bal driver := bal.openHandle env driver
  failed bal _ := bal
  closed bal _ := bal.closeHandle env
  claimed bal slot live shared := bal.claim env slot live shared

/-! ### Closing and moving -/

lemma sharesDriver_iff (v : VfsState) (fd key : Nat) :
    sharesDriver v fd key ↔ ∃ other, other ≠ fd ∧ keyOf (v.at other) = some key := by
  rw [sharesDriver, any_eq_true]
  constructor
  · rintro ⟨⟨other, pos⟩, mem, test⟩
    obtain ⟨within, slot⟩ := mem_zipIdx' mem
    simp only [decide_eq_true_eq] at test
    refine ⟨pos, test.1, ?_⟩
    rw [VfsState.at, getD_eq_getElem _ _ within, ← slot]
    exact test.2
  rintro ⟨other, apart, shared⟩
  have within : other < v.fds.length := by
    apply getD_ne v.fds other none
    intro closed
    rw [VfsState.at, closed] at shared
    cases shared
  have listed := mk_mem_zipIdx_iff_getElem?.mpr (getElem?_eq_getElem within)
  refine ⟨_, listed, ?_⟩
  rw [VfsState.at, getD_eq_getElem _ _ within] at shared
  exact decide_eq_true ⟨apart, shared⟩

/-- What `VfsClose` does: it leaves the table, or it gives the slot up, and then its platform driver
has another slot. -/
lemma vfsClose_cases (v : VfsState) (fd : Int) :
    (vfsClose env v fd).2 = v ∨ (vfsClose env v fd).2 = v.tick ∨
      ∃ open_, v.open? fd = some open_ ∧ vfsClose env v fd = giveUpSlot env v fd.toNat open_ ∧
        ∀ key, open_.platformKey = some key → sharesDriver v fd.toNat key := by
  rw [vfsClose]
  cases found : v.open? fd with
  | none => exact .inl rfl
  | some open_ =>
    obtain ⟨slot, _, _, live⟩ := open_
    cases slot with
    | closed => exact absurd rfl live
    | platform driver drvFd flags path =>
      by_cases shares : sharesDriver v fd.toNat driver.key
      · refine .inr (.inr ⟨_, rfl, if_pos shares, ?_⟩)
        intro key same
        obtain rfl : driver.key = key := Option.some.inj same
        exact shares
      · left
        simp only [if_neg shares]
    | other type flags path =>
      cases type with
      | stream => exact .inr (.inl rfl)
      | mountdir | mounted type => exact .inr (.inr ⟨_, rfl, rfl, nofun⟩)

lemma Balanced.giveUp (bal : Balanced v []) (env : Backends) (slot : some open_ = v.at pos)
    (shared : ∀ key, open_.platformKey = some key → sharesDriver v pos key) :
    Balanced (giveUpSlot env v pos open_).2 [] := by
  have within := place_within slot
  have cleared : Balanced { v with fds := v.fds.set pos none } open_.handle.toList := by
    apply bal.set within
    · intro _ fd none_
      cases none_
    · intro h
      rw [← slot]
      simp [handleOf]
    · intro d key
      rw [← slot] at key
      exact .inr ((sharesDriver_iff v _ _).mp (shared d key))
    · intro d key
      cases key
  have commutes : (giveUpSlot env v pos open_).2 =
      (Vfs.closeHandle env { v with fds := v.fds.set pos none } open_.handle).2 := by
    rw [giveUpSlot]
    cases open_.handle <;> rfl
  rw [commutes]
  exact cleared.closeHandle env

lemma Balanced.close (bal : Balanced v []) (env : Backends) (fd : Int) :
    Balanced (vfsClose env v fd).2 [] := by
  obtain kept | kept | ⟨_, found, given, shared⟩ := vfsClose_cases env v fd
  · rw [kept]
    exact bal
  · rw [kept]
    exact bal.tick
  · rw [given]
    exact bal.giveUp env (open?_eq_some found).2 shared

lemma vfsClose_given {fd : Int} (found : v.open? fd = some open_) (stream : ¬ isStream v fd)
    (lone : ¬ isPlatformPreopen v fd) :
    vfsClose env v fd = giveUpSlot env v fd.toNat open_ := by
  rw [isStream, found] at stream
  rw [isPlatformPreopen, found] at lone
  rw [vfsClose, found]
  obtain ⟨slot, _, _, live⟩ := open_
  cases slot with
  | closed => exact absurd rfl live
  | platform driver drvFd flags path => exact if_pos (by simpa using lone)
  | other type flags path =>
    cases type with
    | stream => exact absurd rfl stream
    | mountdir => rfl
    | mounted type => rfl

lemma Balanced.behindConsole (bal : Balanced v pending) {fd : Int}
    (found : v.open? fd = some open_) (stream : ¬ isStream v fd) : rootFd ≤ fd.toNat := by
  by_contra low
  obtain ⟨-, _, _, slot⟩ :=
    bal.console _ (Nat.lt_of_not_le low) open_ (open?_eq_some found).2.symm
  rw [isStream, found] at stream
  obtain ⟨_, _, _, _⟩ := open_
  subst slot
  exact stream rfl

lemma Balanced.move (bal : Balanced v []) {source target : Nat}
    (slot : some open_ = v.at source) (closed : v.at target = none) (sourceHigh : rootFd ≤ source)
    (targetHigh : rootFd ≤ target) (targetWithin : target < v.fds.length) :
    Balanced { v with fds := (v.fds.set target (some open_)).set source none } [] := by
  have sourceWithin := place_within slot
  -- the two slots are exchanged
  have swapped := set_set_perm targetWithin sourceWithin
  rw [← getD_eq_getElem _ none, ← getD_eq_getElem _ none, ← VfsState.at, ← VfsState.at, ← slot,
    closed] at swapped
  apply bal.slots
  · exact swapped.length_eq
  · intro pos low
    rw [getD_set _ _ _ _ _ (by rwa [length_set]), getD_set _ _ _ _ _ targetWithin,
      if_neg (by omega), if_neg (by omega)]
    exact bal.console pos low
  · intro h
    exact congrArg (· + count h []) ((swapped.flatMap_right handleOf).count_eq h)
  · intro d
    rw [platformDrivers, mem_dedup, platformDrivers, mem_dedup]
    exact (swapped.filterMap keyOf).mem_iff

lemma giveUpSlot_fds (v : VfsState) (pos : Nat) (open_ : OpenFd) :
    (giveUpSlot env v pos open_).2.fds = v.fds.set pos none := by
  rw [giveUpSlot]
  cases open_.handle <;> rfl

lemma giveUpSlot_at (slot : some open_ = v.at pos) (other : Nat) :
    (giveUpSlot env v pos open_).2.at other = if pos = other then none else v.at other := by
  rw [VfsState.at, giveUpSlot_fds, getD_set _ _ _ _ _ (place_within slot), VfsState.at]

/-- `VfsClose` touches no other slot. -/
lemma vfsClose_at (v : VfsState) {fd : Int} (apart : fd.toNat ≠ pos) :
    (vfsClose env v fd).2.at pos = v.at pos := by
  obtain kept | kept | ⟨_, found, given, -⟩ := vfsClose_cases env v fd
  · rw [kept]
  · rw [kept]
    rfl
  · rw [given, giveUpSlot_at env (open?_eq_some found).2, if_neg apart]

/-- `VfsRenumber` of two open descriptors that can be moved gives the target up and then moves the
source. -/
lemma vfsRenumber_moved {source target : Int} {victim : OpenFd} (sourceOpen : v.open? source = some open_)
    (targetOpen : v.open? target = some victim) (apart : source ≠ target)
    (moves : ¬ (isStream v source ∨ isStream v target ∨ isPlatformPreopen v source ∨
      isPlatformPreopen v target)) :
    vfsRenumber env v source target =
      ((giveUpSlot env v target.toNat victim).1.map fun _ => 0,
        if succeeded (giveUpSlot env v target.toNat victim).1 then
          { (giveUpSlot env v target.toNat victim).2 with
            fds := ((giveUpSlot env v target.toNat victim).2.fds.set target.toNat (some open_)).set
              source.toNat none }
        else (giveUpSlot env v target.toNat victim).2) := by
  rw [vfsRenumber, sourceOpen, targetOpen]
  simp only [not_or] at moves
  dsimp only
  rw [if_neg apart, if_neg (by simp [moves]), vfsClose_given env targetOpen moves.2.1 moves.2.2.2]
  rcases giveUpSlot env v target.toNat victim with ⟨_ | _, _⟩
  · rfl
  · rfl

/-- What `VfsRenumber` does: it leaves the table, or it gives the target up and then moves the
source. -/
lemma vfsRenumber_cases (v : VfsState) (source target : Int) : (vfsRenumber env v source target).2 = v ∨
      ∃ open_ victim, v.open? source = some open_ ∧ v.open? target = some victim ∧
        source ≠ target ∧ ¬ (isStream v source ∨ isStream v target ∨ isPlatformPreopen v source ∨
          isPlatformPreopen v target) := by
  rw [vfsRenumber]
  cases sourceOpen : v.open? source with
  | none => exact .inl rfl
  | some open_ =>
    cases targetOpen : v.open? target with
    | none => exact .inl rfl
    | some victim =>
      dsimp only
      split
      · exact .inl rfl
      rename_i apart
      split
      · exact .inl rfl
      · exact .inr ⟨open_, victim, rfl, rfl, apart, ‹_›⟩

lemma Balanced.renumber (bal : Balanced v []) (env : Backends) (source target : Int) :
    Balanced (vfsRenumber env v source target).2 [] := by
  obtain same | ⟨_, _, sourceOpen, targetOpen, apart, moves⟩ := vfsRenumber_cases env v source target
  · rw [same]
    exact bal
  rw [vfsRenumber_moved env sourceOpen targetOpen apart moves]
  simp only [not_or] at moves
  obtain ⟨sourceStream, targetStream, -, targetLone⟩ := moves
  have afterClose := bal.close env target
  rw [vfsClose_given env targetOpen targetStream targetLone] at afterClose
  obtain ⟨sourceSign, sourceSlot⟩ := open?_eq_some sourceOpen
  obtain ⟨targetSign, targetSlot⟩ := open?_eq_some targetOpen
  have slots := giveUpSlot_at env targetSlot
  split
  · refine afterClose.move ?_ ?_ (bal.behindConsole sourceOpen sourceStream)
      (bal.behindConsole targetOpen targetStream) ?_
    · rw [slots, if_neg (by omega)]
      exact sourceSlot
    · rw [slots, if_pos rfl]
    · rw [afterClose.size, ← bal.size]
      exact place_within targetSlot
  · exact afterClose

lemma Balanced.statAt (bal : Balanced v []) (env : Backends) (fd : Int) (path : Bytes) :
    Balanced (vfsStatAt env v fd path).2 [] :=
  (balanced_openRule env).vfsStatAt bal (Balanced · []) id bal
    (fun _ fd kept => kept.close env fd) fd path

/-! ### Drivers -/

lemma Owned.not_owned (owned : Owned v) : v.drivers ∉ ownedDrivers v := by
  intro mem
  have := owned.unmade v.drivers le_rfl
  have := owned.taken v.drivers
  have := count_pos_iff.mpr mem
  omega

lemma Owned.born (owned : Owned v) (drivers : after.drivers = v.drivers + 1)
    (taken : ∀ d, after.log.count (.taken d) = (ownedDrivers after).count d)
    (once : ∀ d, after.log.count (.taken d) + after.log.count (.destroyed d) =
      v.log.count (.taken d) + v.log.count (.destroyed d) + [v.drivers].count d) :
    Owned after where
  taken := taken
  single d := by
    have before := owned.single d
    have more := once d
    by_cases new : d = v.drivers
    · have unused := owned.unmade d new.ge
      have one : [v.drivers].count d = 1 := by rw [new]; simp
      omega
    · have none_ : [v.drivers].count d = 0 := count_eq_zero_of_not_mem (by simpa using new)
      omega
  unmade d late := by
    have unused := owned.unmade d (by omega)
    have more := once d
    have none_ : [v.drivers].count d = 0 :=
      count_eq_zero_of_not_mem (by rw [mem_singleton]; omega)
    omega

lemma Owned.take (owned : Owned v) (drivers : after.drivers = v.drivers + 1)
    (log : after.log = v.log ++ [.taken v.drivers])
    (more : ∀ d, (ownedDrivers after).count d = (ownedDrivers v).count d + [v.drivers].count d) :
    Owned after := by
  have counted : ∀ d, after.log.count (.taken d) = v.log.count (.taken d) + [v.drivers].count d := by
    intro d
    rw [log, count_record_map .taken (fun _ _ => taken.inj)]
  apply owned.born drivers
  · intro d
    rw [counted, more, owned.taken]
  intro d
  rw [counted, log, count_record_ne (by nofun)]
  omega

include bal

lemma Balanced.refused : Balanced { v with drivers := v.drivers + 1 } pending :=
  bal.driverStep rfl le_rfl (fun _ => rfl) (fun _ => rfl)
    ⟨bal.owned.taken, bal.owned.single,
      fun d late => bal.owned.unmade d (Nat.le_of_succ_le late)⟩

lemma Balanced.take (fds : after.fds = v.fds) (calls : after.calls = v.calls)
    (drivers : after.drivers = v.drivers + 1) (log : after.log = v.log ++ [.taken v.drivers])
    (more : ∀ d, (ownedDrivers after).count d = (ownedDrivers v).count d + [v.drivers].count d) :
    Balanced after pending := by
  apply bal.driverStep fds calls.ge
  · intro h
    rw [log]
    exact handed_other v.log (.taken v.drivers) h nofun nofun
  · intro h
    rw [log, count_record_ne (by nofun : taken v.drivers ≠ .closed h)]
  · exact bal.owned.take drivers log more

omit bal

lemma Balanced.mountDriver (bal : Balanced v []) (mountPath : Bytes) :
    Balanced (vfsMountDriver v mountPath).2 [] := by
  rw [vfsMountDriver]
  split_ifs
  · exact bal.refused
  · exact bal.refused
  · exact bal.refused
  · exact bal.refused
  refine bal.take rfl rfl rfl rfl ?_
  simp only [ownedDrivers, platformDrivers, mountDrivers, record, filterMap_append,
    count_append, filterMap_cons, filterMap_nil, Mount.driverKey]
  omega

lemma registerNode_ok {env : Backends} {nodes after : List (Bytes × Nat)} {name : Bytes}
    {driver : Nat} (registered : registerNode env nodes name driver = .ok after) :
    after = nodes ++ [(name, driver)] := by
  rw [registerNode] at registered
  split_ifs at registered
  exact (Except.ok.inj registered).symm

lemma Balanced.registerDev (bal : Balanced v []) (env : Backends) (name : Bytes) :
    Balanced (devFsRegister env v name).2 [] := by
  rw [devFsRegister]
  cases registered : registerNode env v.devfs name v.drivers with
  | error e => exact bal.refused
  | ok nodes =>
    rw [registerNode_ok registered]
    refine bal.take rfl rfl rfl rfl ?_
    simp only [ownedDrivers, platformDrivers, mountDrivers, record, map_append,
      count_append, map_cons, map_nil]
    omega

lemma Balanced.registerNet (bal : Balanced v []) (env : Backends) (name : Bytes) :
    Balanced (netFsRegister env v name).2 [] := by
  rw [netFsRegister]
  cases registered : registerNode env v.netfs name v.drivers with
  | error e => exact bal.refused
  | ok nodes =>
    rw [registerNode_ok registered]
    refine bal.take rfl rfl rfl rfl ?_
    simp only [ownedDrivers, platformDrivers, mountDrivers, record, map_append,
      count_append, map_cons, map_nil]
    omega

lemma StreamOrClosed.idle (idle : StreamOrClosed fd) : handleOf fd = [] ∧ keyOf fd = none := by
  cases fd with
  | none => exact ⟨rfl, rfl⟩
  | some open_ =>
    obtain ⟨handle, _, _, slot⟩ := idle open_ rfl
    constructor
    · rw [handleOf, Option.bind_some, handle, Option.toList_none]
    · rw [keyOf, Option.bind_some, OpenFd.platformKey, slot]

lemma Balanced.discard (bal : Balanced v pending) :
    Balanced ({ v with drivers := v.drivers + 1 }.record (.destroyed v.drivers)) pending := by
  have born : Owned ({ v with drivers := v.drivers + 1 }.record (.destroyed v.drivers)) := by
    apply bal.owned.born rfl
    · intro d
      simp only [record]
      rw [count_record_ne (by nofun : destroyed v.drivers ≠ .taken d)]
      exact bal.owned.taken d
    · intro d
      simp only [record]
      rw [count_record_ne (by nofun : destroyed v.drivers ≠ .taken d),
        count_record_map .destroyed (fun _ _ => destroyed.inj)]
      omega
  refine bal.driverStep rfl le_rfl ?_ ?_ born
  · intro h
    exact handed_other v.log (.destroyed v.drivers) h nofun nofun
  · intro h
    exact count_record_ne (by nofun : destroyed v.drivers ≠ .closed h) v.log

lemma Balanced.register (bal : Balanced v []) (stream : Nat) :
    Balanced (vfsRegister v stream).2 [] := by
  rw [vfsRegister]
  by_cases outside : rootFd ≤ stream
  · rw [if_pos outside]
    exact bal.discard.tick
  rw [if_neg outside]
  have made : Balanced { v with drivers := v.drivers + 1, calls := v.calls + 1 } [] :=
    bal.refused.tick
  have low := Nat.lt_of_not_le outside
  have within : stream < v.fds.length := by
    rw [bal.size]
    exact low.trans (by decide)
  have idle := (made.console stream low).idle
  apply made.set within
  · intro _ open_ same
    obtain rfl := Option.some.inj same
    exact ⟨rfl, _, _, rfl⟩
  · intro h
    rw [idle.1]
    rfl
  · intro d key
    rw [idle.2] at key
    cases key
  · intro d key
    cases key

lemma count_platformDrivers_bind (within : pos < v.fds.length) (closed : v.at pos = none)
    (fds : after.fds = v.fds.set pos (some open_)) {key : Nat}
    (bound : open_.platformKey = some key) (new : key ∉ platformDrivers v) (driver : Nat) :
    (platformDrivers after).count driver = (platformDrivers v).count driver + [key].count driver := by
  have moved : ∀ other, after.at other = if pos = other then some open_ else v.at other := by
    intro other
    rw [VfsState.at, fds, getD_set _ _ _ _ _ within, VfsState.at]
  have members : driver ∈ platformDrivers after ↔ driver ∈ key :: platformDrivers v := by
    rw [mem_cons, mem_platformDrivers, mem_platformDrivers]
    constructor
    · rintro ⟨other, found⟩
      rw [moved] at found
      split at found
      · exact .inl (Option.some.inj (found.symm.trans bound))
      · exact .inr ⟨other, found⟩
    rintro (rfl | ⟨other, found⟩)
    · exact ⟨pos, by rw [moved, if_pos rfl]; exact bound⟩
    have apart : pos ≠ other := by
      rintro rfl
      rw [closed] at found
      cases found
    exact ⟨other, by rwa [moved, if_neg apart]⟩
  have nodup := nodup_cons.mpr ⟨new, nodup_dedup _⟩
  have nodupAfter : (platformDrivers after).Nodup := nodup_dedup _
  have counted : (key :: platformDrivers v).count driver =
      (platformDrivers v).count driver + [key].count driver := by
    rw [← singleton_append, count_append, Nat.add_comm]
  rw [← counted, nodupAfter.count, nodup.count]
  simp only [members]

lemma count_ownedDrivers_bind {driver more : Nat}
    (platform : (platformDrivers after).count driver = (platformDrivers v).count driver + more)
    (mounts : after.mounts = v.mounts) (devfs : after.devfs = v.devfs)
    (netfs : after.netfs = v.netfs) :
    (ownedDrivers after).count driver = (ownedDrivers v).count driver + more := by
  simp only [ownedDrivers, mountDrivers, count_append, mounts, devfs, netfs]
  omega

lemma Balanced.bindSlot (bal : Balanced v []) {handle : Handle} (high : rootFd ≤ pos)
    (within : pos < v.fds.length) (closed : v.at pos = none) (held : open_.handle = some handle)
    (key : open_.platformKey = some v.drivers) (serial : handle.serial = v.calls)
    (fds : after.fds = v.fds.set pos (some open_)) (drivers : after.drivers = v.drivers + 1)
    (calls : after.calls = v.calls + 1)
    (log : after.log = v.log ++ [.taken v.drivers] ++ [.bound handle])
    (mounts : after.mounts = v.mounts) (devfs : after.devfs = v.devfs)
    (netfs : after.netfs = v.netfs) : Balanced after [] := by
  have inHand :=
    bal.handOut .bound (fun new h => handed_bound v.log new h) (by simp) (by simp) (by simp) serial
  have quiet : ∀ event : DriverEvent, (∀ d, event ≠ .taken d) →
      after.log.count event = List.count event (v.log ++ [.bound handle]) := by
    intro event untaken
    rw [log, count_append, count_record_ne (untaken v.drivers).symm, count_append]
  have takes : ∀ d, after.log.count (.taken d) = v.log.count (.taken d) + [v.drivers].count d := by
    intro d
    rw [log, count_record_ne (by simp : bound handle ≠ .taken d),
      count_record_map .taken (fun _ _ => taken.inj)]
  have owned : Owned after := by
    apply bal.owned.born drivers
    · intro d
      have unowned := fun mem => bal.owned.not_owned
        (mem_append_left _ (mem_append_left _ (mem_append_left _ mem)))
      have platform := count_platformDrivers_bind within closed fds key unowned d
      rw [count_ownedDrivers_bind platform mounts devfs netfs, ← bal.owned.taken]
      exact takes d
    · intro d
      rw [takes, quiet (.destroyed d) (by simp),
        count_record_ne (by simp : bound handle ≠ .destroyed d)]
      omega
  refine inHand.update ?_ ?_ calls.ge ?_ ?_ ?_ owned
  · rw [fds]
    exact length_set
  · intro other low
    rw [VfsState.at, fds, getD_set _ _ _ _ _ within, if_neg (by omega)]
    exact bal.console other low
  · intro h
    rw [handed, quiet (.opened h) (by simp), quiet (.bound h) (by simp)]
    rfl
  · intro h
    exact quiet (.closed h) (by simp)
  intro h
  have written := count_flatMap_set handleOf v.fds pos (some open_) none within h
  have new : handleOf (some open_) = [handle] := by
    rw [handleOf, Option.bind_some, held, Option.toList_some]
  have old : handleOf (v.fds.getD pos none) = [] := by
    rw [← VfsState.at, closed]
    rfl
  rw [new, old] at written
  rw [fds]
  exact written

lemma Balanced.bindPlatform (bal : Balanced v []) (path : Bytes) (platform : Platform)
    (rootPath : Bytes) (hostFd : Int) (readonly : Bool) :
    Balanced (vfsBindPlatformFd v path platform rootPath hostFd readonly).2 [] := by
  rw [vfsBindPlatformFd]
  cases found : findFirstClosedFd v.ctx with
  | error e => exact bal.refused
  | ok fd =>
    obtain ⟨high, within, closed⟩ := findFirstClosedFd_spec found
    exact bal.bindSlot high within closed rfl rfl rfl rfl rfl rfl rfl rfl rfl rfl

/-! ### Whole runs -/

lemma balanced_init : Balanced vfsInit [] where
  size := by decide
  console := by
    intro pos low open_ found
    have closed : ∀ pos < rootFd, vfsInit.at pos = none := by decide
    rw [closed pos low] at found
    cases found
  paid h := by
    rfl
  once h := Nat.zero_le 1
  fresh h _ := rfl
  owned := {
    taken := by
      intro d
      rfl
    single := fun _ => Nat.zero_le 1
    unmade := fun _ _ => rfl }

lemma balanced_serve (v : VfsState) (req : VfsRequest) (bal : Balanced v [])
    : Balanced ((vfsMachine env).next v req) [] := by
  cases req with
  | mountDriver mountPath => exact bal.mountDriver mountPath
  | registerDev name => exact bal.registerDev env name
  | registerNet name => exact bal.registerNet env name
  | register stream => exact bal.register stream
  | bindPlatform path platform rootPath hostFd readonly =>
    exact bal.bindPlatform path platform rootPath hostFd readonly
  | attachTarfs =>
    refine bal.driverStep rfl le_rfl (fun _ => rfl) (fun _ => rfl) ?_
    exact ⟨bal.owned.taken, bal.owned.single, bal.owned.unmade⟩
  | open_ path flags => exact (balanced_openRule env).vfsOpen bal path flags
  | openAt fd path flags => exact (balanced_openRule env).vfsOpenAtFd bal fd path flags
  | close fd => exact bal.close env fd
  | renumber source target => exact bal.renumber env source target
  | statAt fd path => exact bal.statAt env fd path
  | sockAccept fd flags => exact (balanced_openRule env).vfsSockAccept bal fd flags

lemma balanced_exec (reqs : List VfsRequest) : Balanced ((vfsMachine env).exec vfsInit reqs) [] :=
  (vfsMachine env).exec_invariant_of_step (Balanced · []) (balanced_serve env) balanced_init reqs

lemma vfsDestroy_closes (v : VfsState) (handle : Handle) : (vfsDestroy v).log.count (.closed handle) =
      v.log.count (.closed handle) + (handlesOf v.fds).count handle := by
  have closes : ∀ handles : List Handle,
      (handles.map closed).count (.closed handle) = handles.count handle := by
    intro handles
    exact count_map_of_injective handles closed (fun _ _ => closed.inj) handle
  have destroys : ((ownedDrivers v).map destroyed).count (.closed handle) = 0 := by
    apply count_eq_zero_of_not_mem
    simp
  have parts : ((v.fds.filter fun fd => (keyOf fd).isSome) ++
      v.fds.filter fun fd => !(keyOf fd).isSome).Perm v.fds := filter_append_perm _ _
  have counted := (parts.flatMap_right handleOf).count_eq handle
  rw [flatMap_append, count_append] at counted
  simp only [vfsDestroy, count_append, closes, handlesOf]
  omega

lemma vfsDestroy_destroys (v : VfsState) (driver : Nat) : (vfsDestroy v).log.count (.destroyed driver) =
      v.log.count (.destroyed driver) + (ownedDrivers v).count driver := by
  have closes : ∀ handles : List Handle, (handles.map closed).count (.destroyed driver) = 0 := by
    intro handles
    apply count_eq_zero_of_not_mem
    simp
  have destroys : ((ownedDrivers v).map destroyed).count (.destroyed driver) =
      (ownedDrivers v).count driver :=
    count_map_of_injective _ destroyed (fun _ _ => destroyed.inj) _
  simp only [vfsDestroy, count_append, closes, destroys, Nat.add_zero]

/-- In every run, each handle a driver handed out is closed exactly once by the end of
`VfsDestroy`, no two open descriptors hold the same handle, and each driver that was mounted,
registered as a node or bound with a host directory is destroyed exactly once. -/
theorem handles_closed_once (env : Backends) (reqs : List VfsRequest) :
    let v := (vfsMachine env).exec vfsInit reqs
    (∀ h, 0 < handed h v.log → (vfsDestroy v).log.count (.closed h) = 1) ∧
      (∀ fd other open_ shared h, v.open? fd = some open_ → v.open? other = some shared →
        open_.handle = some h → shared.handle = some h → fd = other) ∧
      ∀ d, .taken d ∈ v.log → (vfsDestroy v).log.count (.destroyed d) = 1 := by
  intro v
  have bal : Balanced v [] := balanced_exec env reqs
  refine ⟨?_, ?_, ?_⟩
  · intro h out
    have paid := bal.paid h
    have once := bal.once h
    have closes := vfsDestroy_closes v h
    rw [count_nil] at paid
    omega
  · intro fd other open_ shared h found there held heldThere
    obtain ⟨_, slot⟩ := open?_eq_some found
    obtain ⟨_, slotThere⟩ := open?_eq_some there
    have once : (handlesOf v.fds).count h ≤ 1 := by
      have paid := bal.paid h
      have once := bal.once h
      omega
    have here : h ∈ handleOf (v.at fd.toNat) := by
      rw [← slot]
      simp [handleOf, held]
    have elsewhere : h ∈ handleOf (v.at other.toNat) := by
      rw [← slotThere]
      simp [handleOf, heldThere]
    have same := slot_unique handleOf v.fds none rfl once here elsewhere
    omega
  · intro d taken
    have more := vfsDestroy_destroys v d
    have one := bal.owned.single d
    have owned := bal.owned.taken d
    have positive := count_pos_iff.mpr taken
    omega

/-! ### Moving a descriptor -/

/-- What a caller of `fd_renumber` relies on: an error leaves both descriptors; a success gives the
target what the source named, closes the source, and closes what the target named once. -/
def Renumbers (v : VfsState) (source target : Int) (outcome : Rc Int × VfsState) : Prop :=
  if succeeded outcome.1 then
    outcome.2.open? target = v.open? source ∧ outcome.2.open? source = none ∧
      outcome.2.log = v.log ++ (handleOf (v.open? target)).map .closed
  else outcome.2.open? source = v.open? source ∧ outcome.2.open? target = v.open? target

/-- What a move needs of two open descriptors: they differ, and where none of them is a stream or a
preopen of the platform, the target has no handle or the driver's `Close` of it succeeds. -/
def Movable (env : Backends) (v : VfsState) (source target : Int) : Prop :=
  ∀ open_ victim, v.open? source = some open_ → v.open? target = some victim →
    source ≠ target ∧ (isStream v source ∨ isStream v target ∨ isPlatformPreopen v source ∨
      isPlatformPreopen v target ∨ victim.handle = none ∨ succeeded (env.closes v.calls))

/-- `VfsRenumber` does, for every table and every pair of descriptors, iff the move has what it
needs. -/
theorem renumber_moves_iff (env : Backends) (v : VfsState) (source target : Int) :
    Renumbers v source target (vfsRenumber env v source target) ↔ Movable env v source target := by
  cases sourceOpen : v.open? source with
  | none => simp [Renumbers, Movable, vfsRenumber, sourceOpen]
  | some open_ =>
  cases targetOpen : v.open? target with
  | none => simp [Renumbers, Movable, vfsRenumber, sourceOpen, targetOpen]
  | some victim =>
  by_cases apart : source = target
  · subst apart
    simp [Renumbers, Movable, vfsRenumber, sourceOpen]
  by_cases refused : isStream v source ∨ isStream v target ∨ isPlatformPreopen v source ∨
      isPlatformPreopen v target
  · have enotsup : vfsRenumber env v source target = (.error .enotsup, v) := by
      simp only [vfsRenumber, sourceOpen, targetOpen, if_neg apart, if_pos refused]
    rw [enotsup]
    refine iff_of_true ⟨rfl, rfl⟩ fun _ _ _ _ => ⟨apart, ?_⟩
    rcases refused with kind | kind | kind | kind <;> simp [kind]
  obtain ⟨sourceSign, sourceSlot⟩ := open?_eq_some sourceOpen
  obtain ⟨targetSign, targetSlot⟩ := open?_eq_some targetOpen
  have targetWithin := place_within targetSlot
  have sourceWithin : source.toNat < (v.fds.set target.toNat (some open_)).length := by
    rw [length_set]
    exact place_within sourceSlot
  have needs : Movable env v source target ↔ victim.handle = none ∨ succeeded (env.closes v.calls) := by
    simp only [not_or] at refused
    simp [Movable, sourceOpen, targetOpen, apart, refused]
  have moved := vfsRenumber_moved env sourceOpen targetOpen apart refused
  have slots := giveUpSlot_fds env v target.toNat victim
  have closes : succeeded (giveUpSlot env v target.toNat victim).1 ↔
      victim.handle = none ∨ succeeded (env.closes v.calls) := by
    rw [giveUpSlot]
    cases victim.handle <;> simp [closeHandle]
  have log : (giveUpSlot env v target.toNat victim).2.log =
      v.log ++ victim.handle.toList.map DriverEvent.closed := by
    rw [giveUpSlot]
    cases victim.handle with
    | none => exact (append_nil _).symm
    | some handle => rfl
  rw [needs, ← closes, moved, Renumbers, succeeded_map, sourceOpen, targetOpen]
  generalize giveUpSlot env v target.toNat victim = closed at slots log
  by_cases done : succeeded closed.1
  · rw [if_pos done, if_pos done]
    refine iff_of_true ?_ done
    simp only [VfsState.open?, if_pos sourceSign, if_pos targetSign, slots, set_set]
    rw [getD_set _ _ _ _ _ sourceWithin, if_neg (by omega), getD_set _ _ _ _ _ targetWithin, if_pos rfl,
      getD_set _ _ _ _ _ sourceWithin, if_pos rfl]
    exact ⟨rfl, rfl, log⟩
  · -- the failed close has freed the target
    rw [if_neg done, if_neg done]
    refine iff_of_false (fun kept => ?_) done
    have freed := kept.2
    rw [VfsState.open?, if_pos targetSign, slots, getD_set _ _ _ _ _ targetWithin, if_pos rfl] at freed
    cases freed

/-- Drivers that open and close everything, and a TarFS with every path. -/
def plainBackends : Backends where
  normalize := id
  answer := fun _ _ _ => .ok 0
  tarfsHas := fun _ => true
  opens := fun _ => .ok 7
  closes := fun _ => .ok 0
  allocates := fun _ => true
  directory := fun _ => true
  maxDriversCnt := 4

/-- Two files of a mounted driver. -/
def twoFiles : VfsState :=
  (vfsMachine plainBackends).exec vfsInit
    [.mountDriver (ascii "/d"), .open_ (ascii "/d/a") 0, .open_ (ascii "/d/b") 0]

theorem renumber_moves_file : succeeded (vfsRenumber plainBackends twoFiles 3 4).1 ∧
      Renumbers twoFiles 3 4 (vfsRenumber plainBackends twoFiles 3 4) :=
  ⟨by decide +kernel, (renumber_moves_iff plainBackends twoFiles 3 4).mpr fun _ _ _ _ =>
    ⟨by decide, .inr (.inr (.inr (.inr (.inr rfl))))⟩⟩

/-- The driver's `Close` of the second file fails: the error leaves its descriptor closed. -/
theorem failed_close_unbinds :
    let outcome := vfsRenumber { plainBackends with closes := fun _ => .error .eio } twoFiles 3 4
    outcome.1 = .error .eio ∧ outcome.2.open? 4 = none ∧ ¬ Renumbers twoFiles 3 4 outcome := by
  have closed : (vfsRenumber { plainBackends with closes := fun _ => .error .eio }
      twoFiles 3 4).2.open? 4 = none := by decide +kernel
  refine ⟨by decide +kernel, closed, ?_⟩
  intro renumbers
  exact absurd renumbers.2 (by decide +kernel)

end WantedEngine.Vfs
