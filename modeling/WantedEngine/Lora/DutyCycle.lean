import WantedEngine.Foundation.SlidingWindow
import WantedEngine.Lora.Device
import Mathlib.Algebra.BigOperators.Ring.List
import Mathlib.Algebra.Ring.Nat
import Mathlib.Data.List.GetD
import Mathlib.Data.List.TakeWhile
/-!
# The duty cycle over every hour

Whatever settings a wapp writes and whatever it sends, the exact time on air of the frames charged
to a band stays within the band's share of every hour, as long as the clock does not go back and
the time on air of each frame, rounded up to milliseconds, fits the 32 bits that
`LoraTimeOnAirUs` and `frameAirMs` compute with. A longer frame is charged what is left of its time
on air modulo 2^32.
-/
namespace WantedEngine.Lora

open Foundation SlidingWindow List TxRecord

/-! ### One account -/

/-- The records of an account without the expired ones. -/
def unexpired (records : List TxRecord) (now : Nat) : List TxRecord :=
  records.dropWhile fun record => record.endMs + hourMs ≤ now

/-- The records of a full account with the two oldest merged into the later one. -/
def merged (records : List TxRecord) : List TxRecord :=
  if records.length = accountLen then
    (records.modify 1 fun second =>
      { second with airMs := (second.airMs + (records.headD ⟨0, 0⟩).airMs) % 2 ^ 32 }).drop 1
  else records

/-- The loop leaves the records that are not expired. -/
lemma contents_expireFrom (now count : Nat) (account : Account) (all : account.len = count) :
    (expireFrom now count account).contents = unexpired account.contents now := by
  induction count generalizing account with
  | zero =>
    have none_ := eq_nil_of_length_eq_zero (account.length_contents.trans all)
    rw [expireFrom, none_]
    rfl
  | succ count ih =>
    have first : account.contents = oldest account :: (account.read 1).2.contents :=
      account.contents_cons (by omega) _
    rw [expireFrom, first, unexpired, dropWhile_cons]
    split
    · rename_i expired
      rw [if_pos (decide_eq_true expired)]
      exact ih _ (by dsimp only [Ring.read]; omega)
    · rename_i fresh
      rw [if_neg (by simpa using fresh), first]

/-- The ring that `accountCharge` leaves holds the records, merged where they are full, and then the new
one. -/
lemma contents_charge (account : Account) (now air : Nat) :
    (accountCharge account now air).contents = merged account.contents ++ [⟨now, air⟩] := by
  have count := account.length_contents
  have most := account.len_le
  rw [accountCharge, mergeOldest]
  split
  · rename_i full
    have first : oldest account = account.contents.headD ⟨0, 0⟩ := by
      rw [account.contents_cons (by rw [full]; decide) ⟨0, 0⟩]
      rfl
    have free : ((account.modify 1 fun second => { second with
        airMs := (second.airMs + (oldest account).airMs) % 2 ^ 32 }).read 1).2.len < accountLen := by
      dsimp only [Ring.read, Ring.modify]
      rw [full]
      decide
    rw [Ring.contents_write_one free, Ring.contents_read, Ring.contents_modify (by decide), merged, if_pos (count.trans full), first]
  · rename_i free
    rw [Ring.contents_write_one (by omega), merged, if_neg (count ▸ free)]

/-- What an account counts for a record, in microseconds. -/
def TxRecord.airUs (record : TxRecord) : Nat := 1000 * record.airMs

/-- An account that stands for what was charged to its band, at a time that no record is behind. -/
structure AccountSound (budget now : Nat) (account : List TxRecord) (history : List Sent) : Prop where
  /-- The account counts at least what was charged. -/
  covers : Covers TxRecord.endMs TxRecord.airUs Sent.atMs Sent.airUs hourMs now account history
  used : accountUsed account ≤ budget
  sorted : account.Pairwise fun first second => first.endMs ≤ second.endMs
  past : ∀ record ∈ account, record.endMs ≤ now
  hours : WithinBudget Sent.atMs Sent.airUs hourMs (1000 * budget) history

section Account

variable {budget now later air : Nat} {account : List TxRecord} {history : List Sent}

/-- An empty account of a band that was not used. -/
lemma accountSound_nil : AccountSound budget now [] [] :=
  ⟨fun _ _ => Nat.le_refl _, Nat.zero_le _, List.Pairwise.nil, nofun, fun _ => Nat.zero_le _⟩

variable (sound : AccountSound budget now account history)
include sound

lemma AccountSound.mono (order : now ≤ later) : AccountSound budget later account history where
  covers := sound.covers.mono order
  used := sound.used
  sorted := sound.sorted
  past record mem := (sound.past record mem).trans order
  hours := sound.hours

/-- What is expired may go. -/
lemma AccountSound.expire : AccountSound budget now (unexpired account now) history := by
  have kept : (unexpired account now).Sublist account := dropWhile_sublist _
  refine ⟨?_, ?_, sound.sorted.sublist kept,
    fun record mem => sound.past record (kept.subset mem), sound.hours⟩
  · have covers := sound.covers
    rw [← takeWhile_append_dropWhile (l := account)
      (p := fun record : TxRecord => record.endMs + hourMs ≤ now)] at covers
    refine covers.forget fun record mem => ?_
    have old := mem_takeWhile_imp mem
    exact of_decide_eq_true old
  · have less := (kept.map airMs).sum_le_sum fun _ _ => Nat.zero_le _
    exact less.trans sound.used

omit sound

lemma unexpired_recent (sorted : account.Pairwise fun first second =>
    first.endMs ≤ second.endMs) :
    ∀ record ∈ unexpired account now, now < record.endMs + hourMs := by
  have stops := head?_dropWhile_not (fun record : TxRecord =>
    decide (record.endMs + hourMs ≤ now)) account
  have keptSorted := sorted.sublist (dropWhile_sublist fun record : TxRecord =>
    decide (record.endMs + hourMs ≤ now))
  intro record mem
  unfold unexpired at mem
  generalize account.dropWhile (fun record : TxRecord =>
    decide (record.endMs + hourMs ≤ now)) = kept at stops keptSorted mem
  cases kept with
  | nil => cases mem
  | cons head rest =>
    have recent := Nat.not_le.mp (of_decide_eq_false stops)
    rcases mem_cons.mp mem with rfl | isRest
    · exact recent
    · have order := (pairwise_cons.mp keptSorted).1 record isRest
      omega

lemma waitFrom_eq_zero {used : Nat} (none_ : waitFrom budget air now used account = 0)
    (recent : ∀ record ∈ account, now < record.endMs + hourMs)
    (counted : used ≤ accountUsed account) (fits : air ≤ budget) : used + air ≤ budget := by
  induction account generalizing used with
  | nil =>
    have zero := Nat.le_zero.mp counted
    omega
  | cons record rest ih =>
    obtain ⟨_, recentRest⟩ := forall_mem_cons.mp recent
    unfold waitFrom at none_
    split at none_
    · assumption
    split at none_
    · omega
    rename_i stillLarge
    have counted' : used - record.airMs ≤ accountUsed rest := by
      rw [accountUsed, map_cons, sum_cons] at counted
      unfold accountUsed
      omega
    exact absurd (ih none_ recentRest counted') stillLarge

include sound

lemma accountWait_eq_zero (none_ : accountWait (unexpired account now) budget air now = 0) :
    accountUsed (unexpired account now) + air ≤ budget := by
  unfold accountWait at none_
  split at none_
  · cases none_
  rename_i fits
  exact waitFrom_eq_zero none_ (unexpired_recent sound.sorted) (Nat.le_refl _) (Nat.not_lt.mp fits)

/-- A merge loses no air time. -/
lemma AccountSound.merges (small : budget < 2 ^ 32) : AccountSound budget now (merged account) history ∧
      accountUsed (merged account) = accountUsed account := by
  match account with
  | [] => exact ⟨sound, rfl⟩
  | [record] => exact ⟨sound, rfl⟩
  | first :: second :: rest =>
    rw [merged]
    split
    · rw [modify_succ_cons, modify_zero_cons, drop_succ_cons, drop_zero, headD_cons]
      obtain ⟨firstLe, sortedRest⟩ := pairwise_cons.mp sound.sorted
      obtain ⟨secondLe, sortedLast⟩ := pairwise_cons.mp sortedRest
      have total : accountUsed (first :: second :: rest) =
          first.airMs + (second.airMs + accountUsed rest) := by
        simp only [accountUsed, map_cons, sum_cons]
      have whole : (second.airMs + first.airMs) % 2 ^ 32 = second.airMs + first.airMs := by
        have used := sound.used
        apply Nat.mod_eq_of_lt
        omega
      rw [whole]
      have total' : accountUsed (⟨second.endMs, second.airMs + first.airMs⟩ :: rest) =
          accountUsed (first :: second :: rest) := by
        simp only [accountUsed, map_cons, sum_cons]
        omega
      refine ⟨⟨?_, ?_, ?_, ?_, sound.hours⟩, total'⟩
      · exact sound.covers.merge (firstLe second mem_cons_self) rfl (Nat.mul_add ..)
      · rw [total']
        exact sound.used
      · exact pairwise_cons.mpr ⟨secondLe, sortedLast⟩
      · exact forall_mem_cons.mpr (forall_mem_cons.mp (forall_mem_cons.mp sound.past).2)
    · exact ⟨sound, rfl⟩

/-- A charge within the budget keeps every hour within it. -/
lemma AccountSound.charge (small : budget < 2 ^ 32) (order : now ≤ later)
    (fits : accountUsed account + air ≤ budget) (pos : Nat) {airUs : Nat}
    (enough : airUs ≤ 1000 * air) :
    AccountSound budget later (merged account ++ [⟨later, air⟩])
      (history ++ [⟨pos, later, airUs⟩]) := by
  obtain ⟨whole, same⟩ := sound.merges small
  have counted : ((merged account).map TxRecord.airUs).sum = 1000 * accountUsed account := by
    rw [← same]
    exact sum_map_mul_left (merged account) airMs 1000
  refine ⟨(whole.covers.mono order).charge rfl enough, ?_, ?_, ?_, ?_⟩
  · rw [accountUsed, map_append, sum_append, ← accountUsed, same]
    simpa using fits
  · refine pairwise_append.mpr ⟨whole.sorted, pairwise_singleton _ _, ?_⟩
    intro record mem last isLast
    rw [mem_singleton.mp isLast]
    exact (whole.past record mem).trans order
  · exact forall_mem_append.mpr ⟨fun record old => (whole.past record old).trans order,
      forall_mem_singleton.mpr le_rfl⟩
  · refine within_charge_le whole.covers sound.hours order ?_
    rw [counted]
    show 1000 * accountUsed account + airUs ≤ 1000 * budget
    omega

end Account

/-! ### All accounts of a radio -/

def chargedTo (pos : Nat) (sent : List Sent) : List Sent := sent.filter (·.band = pos)

/-- A radio whose accounts stand for what was charged, at a time that no record is behind. -/
structure RadioSound (now : Nat) (d : Device) : Prop where
  duty : ∀ band ∈ d.bands, band.dutyPermille ≤ 1000
  accounts : d.accounts.length = d.bands.length
  account : ∀ pos band, d.bands[pos]? = some band →
    AccountSound (bandBudgetMs band) now (d.accounts.getD pos noRecords).contents (chargedTo pos d.sent)

/-- Two radios with the same accounts at the same reading of the clock. -/
structure SameLedger (d after : Device) : Prop where
  bands : after.bands = d.bands
  accounts : after.accounts = d.accounts
  readings : after.readings = d.readings
  sent : after.sent = d.sent

section Radio

variable {b : Backing} {d mid after : Device} {now later : Nat}

/-- A radio has its own accounts. -/
lemma SameLedger.refl (d : Device) : SameLedger d d := ⟨rfl, rfl, rfl, rfl⟩

lemma SameLedger.called (same : SameLedger d after) : SameLedger d after.called :=
  ⟨same.bands, same.accounts, same.readings, same.sent⟩

lemma SameLedger.trans (first : SameLedger d mid) (second : SameLedger mid after) :
    SameLedger d after :=
  ⟨second.bands.trans first.bands, second.accounts.trans first.accounts,
    second.readings.trans first.readings, second.sent.trans first.sent⟩

variable (sound : RadioSound now d)
include sound

lemma RadioSound.of_same (same : SameLedger d after) : RadioSound now after := by
  refine ⟨?_, ?_, ?_⟩
  · rw [same.bands]
    exact sound.duty
  · rw [same.bands, same.accounts]
    exact sound.accounts
  · rw [same.bands, same.accounts, same.sent]
    exact sound.account

lemma RadioSound.mono (order : now ≤ later) : RadioSound later d :=
  ⟨sound.duty, sound.accounts, fun pos band found => (sound.account pos band found).mono order⟩

lemma RadioSound.budget_lt {pos : Nat} {band : Band} (found : d.bands[pos]? = some band)
    : bandBudgetMs band < 2 ^ 32 := by
  have duty := sound.duty band (mem_of_getElem? found)
  unfold bandBudgetMs hourMs
  omega

lemma RadioSound.set {pos : Nat} {band : Band} (found : d.bands[pos]? = some band)
    {account : Account} {sent : List Sent} {readings : Nat} (order : now ≤ later)
    (one : AccountSound (bandBudgetMs band) later account.contents (chargedTo pos sent))
    (others : ∀ other, other ≠ pos → chargedTo other sent = chargedTo other d.sent) :
    RadioSound later { d with accounts := d.accounts.set pos account, readings, sent } := by
  have inside : pos < d.accounts.length := by
    rw [sound.accounts]
    exact (List.getElem?_eq_some_iff.mp found).1
  refine ⟨sound.duty, ?_, ?_⟩
  · show (d.accounts.set pos account).length = d.bands.length
    rw [length_set, sound.accounts]
  intro other otherBand isOther
  rw [getD_eq_getElem?_getD]
  by_cases same : other = pos
  · subst same
    have sameBand : otherBand = band := by
      have isOther' := isOther
      rw [found] at isOther'
      exact (Option.some.inj isOther').symm
    rw [getElem?_set_self inside, sameBand]
    exact one
  · rw [getElem?_set_ne (Ne.symm same), others other same]
    exact (sound.account other otherBand isOther).mono order

omit sound

/-- The wait drops what is expired, and a frame that need not wait fits the budget. -/
lemma waitOf_sound (sound : RadioSound (b.nowMs d.readings) d) {pos : Nat} {band : Band}
    (found : d.bands[pos]? = some band) (len : Nat) :
    RadioSound (b.nowMs d.readings) (waitOf b d pos band len).2 ∧
      ((waitOf b d pos band len).1 = 0 →
        accountUsed ((waitOf b d pos band len).2.accounts.getD pos noRecords).contents +
          frameAirMs d.params len ≤ bandBudgetMs band) := by
  have account := sound.account pos band found
  have inside : pos < d.accounts.length := by
    rw [sound.accounts]
    exact (List.getElem?_eq_some_iff.mp found).1
  have contents := contents_expireFrom (b.nowMs d.readings) _ (d.accounts.getD pos noRecords) rfl
  refine ⟨sound.set found (Nat.le_refl _) (contents ▸ account.expire) fun _ _ => rfl, fun none_ => ?_⟩
  dsimp only [waitOf, accountExpire] at none_
  rw [contents] at none_
  have fits := accountWait_eq_zero account none_
  show accountUsed ((d.accounts.set pos _).getD pos noRecords).contents + _ ≤ _
  rw [getD_eq_getElem?_getD, getElem?_set_self inside]
  exact contents ▸ fits

lemma timeOnAirUs_le {p : Params} {len : Nat} (fits : timeOnAirUs p len + 999 < 2 ^ 32) :
    timeOnAirUs p len ≤ 1000 * frameAirMs p len := by
  unfold frameAirMs loraTimeOnAirUs
  omega

/-- A frame that fits the budget is charged with at least its exact time on air. -/
lemma charge_sound (sound : RadioSound now d) (order : now ≤ b.nowMs d.readings) {pos : Nat}
    {band : Band} (found : d.bands[pos]? = some band) {len : Nat}
    (fits : accountUsed (d.accounts.getD pos noRecords).contents + frameAirMs d.params len ≤ bandBudgetMs band)
    (small : timeOnAirUs d.params len + 999 < 2 ^ 32) :
    RadioSound (b.nowMs d.readings) (charge b d pos len) := by
  have account := sound.account pos band found
  refine sound.set found order ?_ ?_
  · have charged := account.charge (sound.budget_lt found) order fits pos (timeOnAirUs_le small)
    rw [← contents_charge] at charged
    simpa [chargedTo] using charged
  · intro other differs
    simp [chargedTo, Ne.symm differs]

/-! ### What a request does to the accounts -/

variable (b)

lemma claim_same (d : Device) : SameLedger d (claim b d).2 := by
  unfold claim
  split
  · exact .refl d
  split
  · exact (SameLedger.refl d).called
  · exact ⟨rfl, rfl, rfl, rfl⟩

lemma release_same (d : Device) : SameLedger d (release d).2 := by
  unfold release
  split
  · exact ⟨rfl, rfl, rfl, rfl⟩
  · exact .refl d

lemma configure_same (d : Device) (params : Params) (cad : Bool) :
    SameLedger d (configure b d params cad).2 := by
  unfold configure
  dsimp only
  split
  · exact ⟨rfl, rfl, rfl, rfl⟩
  · exact (SameLedger.refl d).called

lemma ctlSet_same (d : Device) (words : List Bytes) : SameLedger d (ctlSet b d words).2 := by
  unfold ctlSet
  split
  · exact .refl d
  split
  · exact .refl d
  split
  · exact .refl d
  dsimp only
  split
  · split
    · exact (SameLedger.refl d).called
    have configured : ∀ params cad, SameLedger d (configure b d.called params cad).2 :=
      fun params cad => (SameLedger.refl d).called.trans (configure_same b d.called params cad)
    split
    · exact (configured _ _).trans ⟨rfl, rfl, rfl, rfl⟩
    · exact (configured _ _).called
  · exact configure_same b d _ _

lemma writeCtl_same (d : Device) (buf : Bytes) : SameLedger d (writeCtl b d buf).2 := by
  unfold writeCtl
  split
  · exact .refl d
  dsimp only
  generalize cString (if buf.getLast? = some 10 then buf.dropLast else buf) = line
  split
  · exact .refl d
  split
  · exact .refl d
  split
  · exact .refl d
  split
  · exact ctlSet_same b d _
  split
  · split
    · exact .refl d
    split
    · exact (SameLedger.refl d).called
    · exact ⟨rfl, rfl, rfl, rfl⟩
  split
  · split
    · exact (SameLedger.refl d).called
    · exact ⟨rfl, rfl, rfl, rfl⟩
  · exact .refl d

lemma transmit_cases (d : Device) (send : Nat → Bytes → Int) (before : RadioState) (pos : Nat)
    (payload : Bytes) :
    SameLedger d (transmit b d send before pos payload).2 ∨
      SameLedger (charge b d.called pos payload.length) (transmit b d send before pos payload).2 := by
  unfold transmit
  dsimp only
  -- Only a packet that was sent is charged, whether or not the radio receives again.
  by_cases charged : send d.calls payload = 0
  · rw [if_pos charged]
    refine .inr ?_
    split_ifs <;> exact ⟨rfl, rfl, rfl, rfl⟩
  · rw [if_neg charged]
    refine .inl ?_
    split_ifs <;> exact ⟨rfl, rfl, rfl, rfl⟩

lemma listen_cases (d : Device) (send : Nat → Bytes → Int) (before : RadioState) (pos : Nat)
    (payload : Bytes) :
    SameLedger d (listen b d send before pos payload).2 ∨
      ∃ mid, SameLedger d mid ∧ mid.params = d.params ∧
        SameLedger (charge b mid pos payload.length) (listen b d send before pos payload).2 := by
  have sends : ∀ mid : Device, SameLedger d mid → mid.params = d.params →
      SameLedger d (transmit b mid send before pos payload).2 ∨
        ∃ other, SameLedger d other ∧ other.params = d.params ∧
          SameLedger (charge b other pos payload.length)
            (transmit b mid send before pos payload).2 := by
    intro mid same params
    rcases transmit_cases b mid send before pos payload with left | charged
    · exact .inl (same.trans left)
    · exact .inr ⟨mid.called, same.called, params, charged⟩
  unfold listen
  split
  · dsimp only
    split
    · left
      show SameLedger d (if before = .rx then d.called.called else d.called)
      split
      · exact (SameLedger.refl d).called.called
      · exact (SameLedger.refl d).called
    · exact sends _ ⟨rfl, rfl, rfl, rfl⟩ rfl
  · exact sends _ ⟨rfl, rfl, rfl, rfl⟩ rfl

lemma sendReady_cases (waited : Nat × Device) (send : Nat → Bytes → Int) (pos : Nat) (payload : Bytes) :
    SameLedger waited.2 (sendReady b waited send pos payload).2 ∨
      waited.1 = 0 ∧ ∃ mid, SameLedger waited.2 mid ∧ mid.params = waited.2.params ∧
        SameLedger (charge b mid pos payload.length) (sendReady b waited send pos payload).2 := by
  unfold sendReady
  dsimp only
  split
  · exact .inl (.refl _)
  rename_i ready
  have none_ := Nat.le_zero.mp (Nat.not_lt.mp ready)
  split
  · split
    · exact .inl (SameLedger.refl _).called
    rcases listen_cases b waited.2.called send .rx pos payload with
      left | ⟨mid, same, kept, charged⟩
    · exact .inl ((SameLedger.refl _).called.trans left)
    · exact .inr ⟨none_, mid, (SameLedger.refl _).called.trans same, kept, charged⟩
  · rcases listen_cases b waited.2 send waited.2.state pos payload with
      left | ⟨mid, same, kept, charged⟩
    · exact .inl left
    · exact .inr ⟨none_, mid, same, kept, charged⟩

/-- The clock does not go back. -/
def Backing.Forward (b : Backing) : Prop := ∀ first second, first ≤ second → b.nowMs first ≤ b.nowMs second

/-- A frame that a radio can be asked to send, with a payload and a channel that are not refused before,
has a time on air that fits 32 bits when it is rounded up to milliseconds. -/
def FitsWord (d : Device) : Request → Prop
  | .tx payload => payload ≠ [] → payload.length ≤ 255 → b.transmit.isSome = true → d.configured = true →
    (bandFor d.bands d.params.freqHz d.params.bwHz).isSome = true →
    timeOnAirUs d.params payload.length + 999 < 2 ^ 32
  | .claim | .release | .ctl _ | .status => True

instance (d : Device) (req : Request) : Decidable (FitsWord b d req) := by
  cases req <;> (unfold FitsWord; infer_instance)

variable {b} {bands : List Band}

/-- The band that a channel lies in is one of the board's. -/
lemma bandFor_found {freq bw pos : Nat} (found : bandFor bands freq bw = some pos) :
    bands[pos]? = some (bands.getD pos ⟨0, 0, 0, 0⟩) := by
  have inside := (findIdx?_eq_some_iff_getElem.mp found).1
  rw [getD_eq_getElem _ _ inside, getElem?_eq_getElem inside]

/-- A write to `tx` keeps the accounts. -/
lemma writeTx_sound (forward : b.Forward) (sound : RadioSound (b.nowMs d.readings) d)
    {payload : Bytes} (fits : FitsWord b d (.tx payload)) :
    RadioSound (b.nowMs (writeTx b d payload).2.readings) (writeTx b d payload).2 := by
  unfold writeTx
  split
  · exact sound
  rename_i full
  split
  · exact sound
  rename_i short
  split
  · exact sound
  rename_i send sends
  split
  · exact sound
  rename_i configured
  split
  · exact sound
  rename_i pos found
  have small := fits full (Nat.le_of_not_lt short) (Option.isSome_of_eq_some sends)
    (Classical.not_not.mp configured) (Option.isSome_of_eq_some found)
  have noted : RadioSound (b.nowMs d.readings) { d with lastLen := payload.length } :=
    sound.of_same ⟨rfl, rfl, rfl, rfl⟩
  obtain ⟨waitedSound, waitedFits⟩ := @waitOf_sound b { d with lastLen := payload.length }
    noted pos _ (bandFor_found found) payload.length
  have readings : (waitOf b { d with lastLen := payload.length } pos
      (d.bands.getD pos ⟨0, 0, 0, 0⟩) payload.length).2.readings = d.readings + 1 := rfl
  have cases_ := sendReady_cases b (waitOf b { d with lastLen := payload.length } pos
    (d.bands.getD pos ⟨0, 0, 0, 0⟩) payload.length) send pos payload
  rcases cases_ with same | ⟨none_, mid, same, kept, charged⟩
  · rw [same.readings]
    exact (waitedSound.of_same same).mono (forward _ _ (Nat.le_succ _))
  have midFound : mid.bands[pos]? = some (d.bands.getD pos ⟨0, 0, 0, 0⟩) := by
    rw [same.bands]
    exact bandFor_found found
  have midReadings := same.readings.trans readings
  have midFits : accountUsed (mid.accounts.getD pos noRecords).contents + frameAirMs mid.params payload.length ≤
      bandBudgetMs (d.bands.getD pos ⟨0, 0, 0, 0⟩) := by
    rw [same.accounts, kept]
    exact waitedFits none_
  have midSmall : timeOnAirUs mid.params payload.length + 999 < 2 ^ 32 := by
    rw [kept]
    exact small
  have order : b.nowMs d.readings ≤ b.nowMs mid.readings := by
    rw [midReadings]
    exact forward _ _ (Nat.le_succ _)
  have chargedSound := charge_sound (waitedSound.of_same same) order midFound midFits midSmall
  rw [charged.readings]
  exact (chargedSound.of_same charged).mono (forward _ _ (Nat.le_succ _))

lemma readyMs_sound (forward : b.Forward) (sound : RadioSound (b.nowMs d.readings) d) :
    RadioSound (b.nowMs (readyMs b d).2.readings) (readyMs b d).2 := by
  unfold readyMs
  split
  · exact sound
  split
  · exact sound
  · rename_i found
    exact (waitOf_sound sound (bandFor_found found) d.lastLen).1.mono (forward _ _ (Nat.le_succ _))

/-- Every request keeps the accounts. -/
lemma radio_sound (forward : b.Forward) (sound : RadioSound (b.nowMs d.readings) d)
    {req : Request} (fits : FitsWord b d req) :
    RadioSound (b.nowMs ((radio b).next d req).readings) ((radio b).next d req) := by
  have left : ∀ after, SameLedger d after → RadioSound (b.nowMs after.readings) after := by
    intro after same
    rw [same.readings]
    exact sound.of_same same
  cases req with
  | claim => exact left _ (claim_same b d)
  | release => exact left _ (release_same d)
  | ctl buf => exact left _ (writeCtl_same b d buf)
  | tx payload => exact writeTx_sound forward sound fits
  | status => exact readyMs_sound forward sound

lemma registered_sound (registered : loraDeviceRegister bands = .ok d)
    (now : Nat) : RadioSound now d := by
  unfold loraDeviceRegister at registered
  split at registered
  · cases registered
  rename_i accepted
  cases registered
  push Not at accepted
  refine ⟨fun band mem => (accepted.2 band mem).2, length_map _, ?_⟩
  intro pos band found
  have none_ : (bands.map fun _ => noRecords).getD pos noRecords = noRecords := by
    rw [getD_eq_getElem?_getD, getElem?_map]
    cases bands[pos]? with
    | none => rfl
    | some _ => rfl
  rw [none_]
  exact accountSound_nil

/-! ### Every hour -/

/-- In every hour, the exact time on air of what was charged to each band is within its budget. -/
def DutyKept (d : Device) : Prop :=
  ∀ pos band, d.bands[pos]? = some band →
    WithinBudget Sent.atMs Sent.airUs hourMs (1000 * bandBudgetMs band) (chargedTo pos d.sent)

/-- For every radio that a board registers, every clock that does not go back and every sequence of
requests whose frames fit 32 bits: no band is on air for more than its share of any hour. -/
theorem duty_kept (b : Backing) (forward : b.Forward) (bands : List Band) (d : Device)
    (registered : loraDeviceRegister bands = .ok d) (reqs : List Request)
    (fits : (radio b).Obeys (FitsWord b) d reqs) : DutyKept ((radio b).exec d reqs) := by
  have sound := (radio b).exec_invariant (fun d => RadioSound (b.nowMs d.readings) d)
    (fun d req sound fits => radio_sound forward sound fits)
    (registered_sound registered _) fits
  exact fun pos band found => (sound.account pos band found).hours

end Radio

def sampleBands : List Band := [⟨868000000, 868600000, 14, 10⟩]

def sampleBacking : Backing where
  configure _ _ := 0
  start _ := 0
  stop _ := 0
  transmit := some fun _ _ => 0
  channelActive := none
  clock _ := some 0

def sampleRadio : Device where
  bands := sampleBands
  accounts := [noRecords]
  owned := false
  state := .sleep
  configured := false
  cad := false
  params := ⟨0, 0, 0, 0, 0, 0, 0⟩
  lastLen := 255
  calls := 0
  readings := 0
  sent := []

def sendByte (settings : String) : List Request := [.claim, .ctl (ascii settings), .tx [7]]

/-- With common settings the frame is charged 26 milliseconds. -/
theorem duty_kept_common :
    DutyKept ((radio sampleBacking).exec sampleRadio (sendByte "set freq=868300000 sf=7 bw=125")) ∧
    ((radio sampleBacking).exec sampleRadio (sendByte "set freq=868300000 sf=7 bw=125")).accounts.map
      Ring.contents = [[⟨0, 26⟩]] :=
  ⟨duty_kept sampleBacking (fun _ _ _ => Nat.le_refl _) sampleBands sampleRadio (by decide)
    (sendByte "set freq=868300000 sf=7 bw=125") (by decide +kernel), by decide +kernel⟩

/-- With a long preamble the frame takes 4296 seconds on air, of the 36 that the band may be on air
in an hour, and is charged 1065 milliseconds. -/
theorem duty_exceeded : ((radio sampleBacking).exec sampleRadio
      (sendByte "set freq=868300000 sf=12 bw=62.5 preamble=65535")).sent = [⟨0, 0, 4296032256⟩] ∧
    ((radio sampleBacking).exec sampleRadio
      (sendByte "set freq=868300000 sf=12 bw=62.5 preamble=65535")).accounts.map Ring.contents =
      [[⟨0, 1065⟩]] ∧
    ¬ DutyKept ((radio sampleBacking).exec sampleRadio
      (sendByte "set freq=868300000 sf=12 bw=62.5 preamble=65535")) := by
  refine ⟨by decide +kernel, by decide +kernel, fun kept => ?_⟩
  have hour := kept 0 ⟨868000000, 868600000, 14, 10⟩ (by decide +kernel) 0
  exact absurd hour (by decide +kernel)

end WantedEngine.Lora
