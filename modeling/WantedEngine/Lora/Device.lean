import WantedEngine.Errno
import WantedEngine.Foundation.Machine
import WantedEngine.Foundation.Ring
/-!
# LoRa radios

The radio behind `/dev/lora/<name>/{ctl,tx,status}`, from `src/vfs/vfs-lora.c`: the modem settings
that a `set` applies, the bands the board declares, and the duty-cycle account of each band. The
account is a ring of the last transmissions; a full one merges its two oldest.

The board's backing is outside the source: its answers come from `Backing` by the number of the
call, and the clock's by the number of the reading. The received frames are not modelled. `sent`
lists every transmission that was charged, with its exact time on air; no function reads it.
-/
namespace WantedEngine.Lora

open Foundation

/-! ### Time on air -/

/-- `lora_params_t`. -/
structure Params where
  freqHz : Nat
  bwHz : Nat
  /-- `sf`, the spreading factor. -/
  sf : Nat
  /-- `cr`, the denominator of the coding rate. -/
  cr : Nat
  sync : Nat
  powerDbm : Int
  /-- `preamble`, in symbols. -/
  preamble : Nat
  deriving DecidableEq

/-- `symbolUs`: the time of a symbol in microseconds. -/
def symbolUs (p : Params) : Nat := if p.bwHz = 0 then 0 else 1000000 * 2 ^ p.sf / p.bwHz

def loraLowDataRate (p : Params) : Bool := 16000 ≤ symbolUs p

/-- The symbols of a frame in quarters: the preamble, 4.25 (6.25 at SF5 and SF6), the block of the
header, and the coded payload in blocks of `cr` symbols. -/
def symbolsX4 (p : Params) (len : Nat) : Nat :=
  let low : Bool := p.sf = 5 ∨ p.sf = 6
  let coeff1x4 := if low then 25 else 17
  let coeff2 := if low then 0 else 8
  let divisor := 4 * (if loraLowDataRate p then p.sf - 2 else p.sf)
  let bits := 8 * len + 16 + coeff2 + 20 - 4 * p.sf
  let coded := (bits + divisor - 1) / divisor
  (p.preamble + 8) * 4 + coeff1x4 + coded * p.cr * 4

/-- The time on air of a frame in microseconds, by the formula of the data sheets. -/
def timeOnAirUs (p : Params) (len : Nat) : Nat := symbolUs p * symbolsX4 p len / 4

/-- `LoraTimeOnAirUs`, which returns 32 bits of it. -/
def loraTimeOnAirUs (p : Params) (len : Nat) : Nat := timeOnAirUs p len % 2 ^ 32

/-- `frameAirMs`: milliseconds, rounded up in 32 bits. -/
def frameAirMs (p : Params) (len : Nat) : Nat := (loraTimeOnAirUs p len + 999) % 2 ^ 32 / 1000

/-! ### Bands and accounts -/

/-- `lora_band_t`. -/
structure Band where
  loHz : Nat
  hiHz : Nat
  maxDbm : Int
  /-- `duty_permille`, the share of an hour on air, in thousandths. -/
  dutyPermille : Nat
  deriving DecidableEq

/-- `lora_tx_record_t`. -/
structure TxRecord where
  endMs : Nat
  airMs : Nat
  deriving DecidableEq

/-- `LORA_HOUR_MS`. -/
def hourMs : Nat := 3600000

/-- `LORA_ACCOUNT_LEN`. -/
def accountLen : Nat := 32

/-- `lora_account_t`. -/
abbrev Account := Ring TxRecord accountLen

def noRecords : Account := .empty ⟨0, 0⟩ (by decide)

/-- The record at the head. -/
def oldest (account : Account) : TxRecord := account.buf.getD account.rpos ⟨0, 0⟩

/-- The loop of `accountExpire` over so many records. -/
def expireFrom (now : Nat) : Nat → Account → Account
  | 0, account => account
  | count + 1, account =>
    if (oldest account).endMs + hourMs ≤ now then expireFrom now count (account.read 1).2 else account

def accountExpire (account : Account) (now : Nat) : Account := expireFrom now account.len account

def accountUsed (records : List TxRecord) : Nat := (records.map TxRecord.airMs).sum

/-- The loop of `accountWait` over the records, oldest first. -/
def waitFrom (budget air now : Nat) : Nat → List TxRecord → Nat
  | _, [] => 0
  | used, record :: rest =>
    if used + air ≤ budget then 0
    else if used - record.airMs + air ≤ budget then record.endMs + hourMs - now
    else waitFrom budget air now (used - record.airMs) rest

/-- `accountWait` on the records that are not expired: the milliseconds until a frame fits, 0 when it
fits now. -/
def accountWait (records : List TxRecord) (budget air now : Nat) : Nat :=
  if budget < air then 2 ^ 64 - 1 else waitFrom budget air now (accountUsed records) records

/-- The room that `accountCharge` makes: a full account merges its two oldest records into the later
one. -/
def mergeOldest (account : Account) : Account :=
  if account.len = accountLen then
    ((account.modify 1 fun second =>
      { second with airMs := (second.airMs + (oldest account).airMs) % 2 ^ 32 }).read 1).2
  else account

def accountCharge (account : Account) (now air : Nat) : Account :=
  (mergeOldest account).write [⟨now, air⟩]

def bandBudgetMs (band : Band) : Nat := hourMs * band.dutyPermille / 1000

/-! ### The device -/

/-- `lora_state_t`. -/
inductive RadioState where
  | sleep | standby | rx | tx
  deriving DecidableEq

/-- A transmission that was charged. -/
structure Sent where
  band : Nat
  /-- The time of the charge, in milliseconds. -/
  atMs : Nat
  /-- The exact time on air, in microseconds. -/
  airUs : Nat
  deriving DecidableEq

/-- `lora_device_t`, as far as sending uses it. -/
structure Device where
  bands : List Band
  accounts : List Account
  /-- Whether the driver instance holds the radio. -/
  owned : Bool
  state : RadioState
  configured : Bool
  cad : Bool
  params : Params
  lastLen : Nat
  /-- The calls of the backing so far. -/
  calls : Nat
  /-- The readings of the clock so far. -/
  readings : Nat
  /-- The transmissions that were charged, oldest first. -/
  sent : List Sent
  deriving DecidableEq

/-- `lora_ops_t` and the clock, by the number of the call. -/
structure Backing where
  configure : Nat → Params → Int
  start : Nat → Int
  stop : Nat → Int
  /-- `transmit`, if the radio can. -/
  transmit : Option (Nat → Bytes → Int)
  /-- `channel_active` with what it detects, if the radio can. -/
  channelActive : Option (Nat → Int × Bool)
  /-- `PlatformClockGetTime` of the monotonic clock, in nanoseconds. -/
  clock : Nat → Option UInt64

/-- `nowMs` at a reading. -/
def Backing.nowMs (b : Backing) (reading : Nat) : Nat :=
  match b.clock reading with
  | none => 0
  | some ns => ns.toNat / 1000000

/-- `LoraDeviceRegister`, as far as sending uses it. -/
def loraDeviceRegister (bands : List Band) : Rc Device :=
  if 8 < bands.length ∨ ∃ band ∈ bands, band.hiHz ≤ band.loHz ∨ 1000 < band.dutyPermille then
    .error .einval
  else .ok
    { bands, accounts := bands.map fun _ => noRecords, owned := false, state := .sleep
      configured := false, cad := false, params := ⟨0, 0, 0, 0, 0, 0, 0⟩, lastLen := 255
      calls := 0, readings := 0, sent := [] }

/-- `bandFor`: the first band that holds the whole channel. -/
def bandFor (bands : List Band) (freq bw : Nat) : Option Nat :=
  bands.findIdx? fun band =>
    bw / 2 ≤ freq ∧ band.loHz ≤ freq - bw / 2 ∧ freq + bw / 2 ≤ band.hiHz

variable (b : Backing)

variable (d : Device)

/-- One more call of the backing. -/
def Device.called : Device := { d with calls := d.calls + 1 }

/-- `claim`: the first claim wakes the chip into standby. -/
def claim : Rc Nat × Device :=
  if d.owned then (.ok 0, d)
  else if b.stop d.calls < 0 then (.error .eio, d.called)
  else (.ok 0, { d.called with owned := true, state := .standby })

/-- `release` by the owner's last descriptor: the chip sleeps, and its settings are forgotten. -/
def release : Rc Nat × Device :=
  if d.owned then
    (.ok 0, { d.called with owned := false, state := .sleep, configured := false, cad := false })
  else (.ok 0, d)

/-! ### ctl -/

def parseDigits : Nat → Bytes → Option Nat
  | value, [] => some value
  | value, byte :: rest =>
    if byte < 48 ∨ 57 < byte then none
    else
      let value := value * 10 + (byte.toNat - 48)
      if 2 ^ 32 - 1 < value then none else parseDigits value rest

def parseU32 (text : Bytes) : Option Nat := if text = [] then none else parseDigits 0 text

def parseI32 (text : Bytes) : Option Int :=
  let neg : Bool := text.head? = some 45
  (parseU32 (if neg then text.tail else text)).bind fun value =>
    if 2 ^ 31 - 1 < value then none else some (if neg then -value else value)

/-- The loop of `parseKhz`: the digits so far, and how many of them are decimals. -/
def khzFrom : Nat → Option Nat → Bytes → Option (Nat × Option Nat)
  | value, decimals, [] => some (value, decimals)
  | value, decimals, byte :: rest =>
    if byte = 46 ∧ decimals = none then khzFrom value (some 0) rest
    else if byte < 48 ∨ 57 < byte ∨ decimals.any (3 ≤ ·) then none
    else
      let value := value * 10 + (byte.toNat - 48)
      if 2 ^ 32 - 1 < value then none else khzFrom value (decimals.map (· + 1)) rest

/-- `parseKhz`: kHz with up to three decimals, in Hz. -/
def parseKhz (text : Bytes) : Option Nat :=
  if text = [] then none
  else
    (khzFrom 0 none text).bind fun (value, decimals) =>
      let hz := value * 10 ^ (3 - decimals.getD 0)
      if hz = 0 ∨ 2 ^ 32 - 1 < hz then none else some hz

def hexDigit (byte : UInt8) : Option Nat :=
  if 48 ≤ byte ∧ byte ≤ 57 then some (byte.toNat - 48)
  else if 97 ≤ byte ∧ byte ≤ 102 then some (byte.toNat - 87)
  else if 65 ≤ byte ∧ byte ≤ 70 then some (byte.toNat - 55)
  else none

/-- `parseSync`: `0x` and two hexadecimal digits. -/
def parseSync : Bytes → Option Nat
  | 48 :: mark :: digits =>
    if (mark = 120 ∨ mark = 88) ∧ digits ≠ [] ∧ digits.length ≤ 2 then
      digits.foldlM (fun value byte => (hexDigit byte).map (value * 16 + ·)) 0
    else none
  | _ => none

/-- The keys of `set`. -/
inductive Key where
  | freq | sf | bw | cr | sync | power | preamble | cad
  deriving DecidableEq

def keyOf (name : Bytes) : Option Key :=
  if name = ascii "freq" then some .freq
  else if name = ascii "sf" then some .sf
  else if name = ascii "bw" then some .bw
  else if name = ascii "cr" then some .cr
  else if name = ascii "sync" then some .sync
  else if name = ascii "power" then some .power
  else if name = ascii "preamble" then some .preamble
  else if name = ascii "cad" then some .cad
  else none

/-- What `ctlSet` has read of a command. -/
structure Settings where
  /-- The settings of the modem, the power apart. -/
  params : Params
  seen : List Key
  cad : Bool
  power : Int
  deriving DecidableEq

/-- The settings before the first key: `cr=5`, `sync=0x12` and `preamble=8`. -/
def Settings.default : Settings := ⟨⟨0, 0, 0, 5, 0x12, 0, 8⟩, [], false, 0⟩

def parseBetween (low high : Nat) (text : Bytes) : Option Nat :=
  (parseU32 text).bind fun value => if low ≤ value ∧ value ≤ high then some value else none

/-- The value of a key. -/
def Settings.apply (s : Settings) (key : Key) (text : Bytes) : Option Settings :=
  match key with
  | .freq => (parseBetween 1 (2 ^ 32 - 1) text).map fun v =>
      { s with params := { s.params with freqHz := v } }
  | .sf => (parseBetween 5 12 text).map fun v => { s with params := { s.params with sf := v } }
  | .bw => (parseKhz text).map fun v => { s with params := { s.params with bwHz := v } }
  | .cr => (parseBetween 5 8 text).map fun v => { s with params := { s.params with cr := v } }
  | .sync => (parseSync text).map fun v => { s with params := { s.params with sync := v } }
  | .power => (parseI32 text).bind fun v =>
      if -128 ≤ v ∧ v ≤ 127 then some { s with power := v } else none
  | .preamble => (parseBetween 1 (2 ^ 16 - 1) text).map fun v =>
      { s with params := { s.params with preamble := v } }
  | .cad =>
    if text = ascii "0" then some { s with cad := false }
    else if text = ascii "1" then some { s with cad := true }
    else none

/-- The loop of `ctlSet` over the tokens `<key>=<value>`, each key once. -/
def readSettings : Settings → List Bytes → Option Settings
  | s, [] => some s
  | s, token :: rest =>
    if (61 : UInt8) ∉ token then none
    else
      (keyOf (token.takeWhile (· ≠ 61))).bind fun key =>
        if key ∈ s.seen then none
        else
          ({ s with seen := key :: s.seen }.apply key ((token.dropWhile (· ≠ 61)).drop 1)).bind
            fun s => readSettings s rest

/-- The power a `set` applies: no more than the limit of the band, and the limit by default. -/
def appliedPower (s : Settings) : Int :=
  match (bandFor d.bands s.params.freqHz s.params.bwHz).bind (d.bands[·]?) with
  | some band => if .power ∈ s.seen then min s.power band.maxDbm else band.maxDbm
  | none => if .power ∈ s.seen then min s.power 127 else 0

/-- The `configure` of `ctlSet`, with the backing's answer. -/
def configure (params : Params) (cad : Bool) : Int × Device :=
  let rc := b.configure d.calls params
  (rc, if rc = 0 then { d.called with params, configured := true, cad } else d.called)

/-- `ctlSet`, with a receiving radio stopped for the change. -/
def ctlSet (tokens : List Bytes) : Rc Unit × Device :=
  match readSettings .default tokens with
  | none => (.error .einval, d)
  | some s =>
    if ¬ (.freq ∈ s.seen ∧ .sf ∈ s.seen ∧ .bw ∈ s.seen) then (.error .einval, d)
    else if s.cad ∧ b.channelActive.isNone then (.error .enotsup, d)
    else
      let params := { s.params with powerDbm := appliedPower d s }
      let answer (rc : Int) : Rc Unit :=
        if rc = -22 then .error .einval else if rc < 0 then .error .eio else .ok ()
      if d.state = .rx then
        if b.stop d.calls < 0 then (.error .eio, d.called)
        else
          let (rc, d) := configure b d.called params s.cad
          if b.start d.calls < 0 then (.error .eio, { d.called with state := .standby })
          else (answer rc, d.called)
      else
        let (rc, d) := configure b d params s.cad
        (answer rc, d)

def tokens (line : Bytes) : List Bytes := (line.splitOn 32).filter (· ≠ [])

def writeCtl (buf : Bytes) : Rc Nat × Device :=
  if buf = [] ∨ 160 ≤ buf.length then (.error .einval, d)
  else
    let line := cString (if buf.getLast? = some 10 then buf.dropLast else buf)
    if 10 ∈ line ∨ 9 ∈ line ∨ 13 ∈ line then (.error .einval, d)
    else
      let words := tokens line
      if 10 < words.length then (.error .einval, d)
      else
        match words with
        | [] => (.error .einval, d)
        | command :: rest =>
          let done (result : Rc Unit × Device) : Rc Nat × Device :=
            (result.1.map fun _ => buf.length, result.2)
          if command = ascii "set" then done (ctlSet b d rest)
          else if command = ascii "start" ∧ rest = [] then
            if ¬ d.configured then (.error .einval, d)
            else if b.start d.calls < 0 then (.error .eio, d.called)
            else done (.ok (), { d.called with state := .rx })
          else if command = ascii "stop" ∧ rest = [] then
            if b.stop d.calls < 0 then (.error .eio, d.called)
            else done (.ok (), { d.called with state := .standby })
          else (.error .einval, d)

/-! ### tx and status -/

/-- `accountWait` of a band, which drops its old records first, at a reading of the clock. -/
def waitOf (pos : Nat) (band : Band) (len : Nat) : Nat × Device :=
  let now := b.nowMs d.readings
  let account := accountExpire (d.accounts.getD pos noRecords) now
  (accountWait account.contents (bandBudgetMs band) (frameAirMs d.params len) now,
    { d with accounts := d.accounts.set pos account, readings := d.readings + 1 })

/-- `accountCharge` of a band for a frame, at a reading of the clock. -/
def charge (pos len : Nat) : Device :=
  let now := b.nowMs d.readings
  { d with
    accounts := d.accounts.set pos
      (accountCharge (d.accounts.getD pos noRecords) now (frameAirMs d.params len))
    readings := d.readings + 1
    sent := d.sent ++ [⟨pos, now, timeOnAirUs d.params len⟩] }

/-- The end of `writeTx`: `transmit`, the charge, and a receiving radio resumes. -/
def transmit (send : Nat → Bytes → Int) (before : RadioState) (pos : Nat)
    (payload : Bytes) : Rc Nat × Device :=
  let rc := send d.calls payload
  let d := d.called
  let d := { (if rc = 0 then charge b d pos payload.length else d) with state := .standby }
  let answer : Rc Nat := if rc < 0 then .error .eio else .ok payload.length
  if before = .rx then
    if b.start d.calls < 0 then (.error .eio, d.called)
    else (answer, { d.called with state := .rx })
  else (answer, d)

/-- The `channel_active` of `writeTx`: a busy channel ends the write, and a receiving radio
resumes. -/
def listen (send : Nat → Bytes → Int) (before : RadioState) (pos : Nat)
    (payload : Bytes) : Rc Nat × Device :=
  match d.cad, b.channelActive with
  | true, some detect =>
    let (rc, active) := detect d.calls
    let d := d.called
    if rc < 0 ∨ active then
      (.error (if rc < 0 then .eio else .ebusy), if before = .rx then d.called else d)
    else transmit b { d with state := .tx } send before pos payload
  | _, _ => transmit b { d with state := .tx } send before pos payload

/-- The rest of `writeTx` once the wait for the band is known: a frame that waits is refused, and a
receiving radio stops. -/
def sendReady (waited : Nat × Device) (send : Nat → Bytes → Int) (pos : Nat) (payload : Bytes) :
    Rc Nat × Device :=
  let (wait, d) := waited
  if 0 < wait then (.error .eagain, d)
  else if d.state = .rx then
    if b.stop d.calls < 0 then (.error .eio, d.called)
    else listen b d.called send .rx pos payload
  else listen b d send d.state pos payload

def writeTx (payload : Bytes) : Rc Nat × Device :=
  if payload = [] then (.error .einval, d)
  else if 255 < payload.length then (.error .emsgsize, d)
  else
    match b.transmit with
    | none => (.error .enotsup, d)
    | some send =>
      if ¬ d.configured then (.error .einval, d)
      else
        match bandFor d.bands d.params.freqHz d.params.bwHz with
        | none => (.error .eperm, d)
        | some pos =>
          sendReady b (waitOf b { d with lastLen := payload.length } pos
            (d.bands.getD pos ⟨0, 0, 0, 0⟩) payload.length) send pos payload

/-- `readyMs`, the `tx_ready_ms` of `status`. -/
def readyMs : Rc Nat × Device :=
  if ¬ d.configured then (.ok 0, d)
  else
    match bandFor d.bands d.params.freqHz d.params.bwHz with
    | none => (.ok 0, d)
    | some pos =>
      let (wait, d) := waitOf b d pos (d.bands.getD pos ⟨0, 0, 0, 0⟩) d.lastLen
      (.ok (if wait = 2 ^ 64 - 1 then hourMs else wait), d)

/-- What a wapp asks of a radio. -/
inductive Request where
  /-- The first open of `rx`, `tx` or `ctl`. -/
  | claim
  /-- The close of the last of them. -/
  | release
  /-- A write to `ctl`. -/
  | ctl (buf : Bytes)
  /-- A write to `tx`. -/
  | tx (payload : Bytes)
  /-- A read of `status`. -/
  | status
  deriving DecidableEq

def radio : Machine Device Request (Rc Nat) where
  step d req :=
    match req with
    | .claim => claim b d
    | .release => release d
    | .ctl buf => writeCtl b d buf
    | .tx payload => writeTx b d payload
    | .status => readyMs b d

end WantedEngine.Lora
