import WantedEngine.Wasi.Memory
/-!
# The scatter-gather calls

`fd_read`, `fd_write`, `fd_pread`, `fd_pwrite`, `sock_recv` and `sock_send` of `wasi-vfs.c`
take an array of iovecs in guest memory. Each checks its pointers, walks the array, hands one
buffer at a time to the virtual file system and stores the number of bytes moved. The walk
is one loop with two parameters: the direction, and whether an error after some bytes were
moved is reported as a short count (the descriptor calls) or returned (the socket calls).

The results of the virtual file system come in by their number in the call. Bytes read from
a driver are stored in guest memory before the next iovec is looked at, so a guest may aim a
buffer at the iovec array itself. Every element of the array the host reads is recorded.
-/
namespace WantedEngine.Wasi

/-- `sizeof(wasi_iovec_t)`. -/
def iovecSize : Nat := 8

/-- The answer of the virtual file system to one buffer. -/
inductive Transfer where
  | failed (e : Errno)
  /-- These bytes were moved; never more than the buffer holds. -/
  | moved (data : Bytes)
  deriving DecidableEq

/-- Which way a call moves bytes. -/
inductive Direction where
  | toGuest
  | toDriver
  deriving DecidableEq

/-- What a call has done so far. -/
structure Progress where
  memory : Memory
  moved : Nat
  /-- Buffers handed to the virtual file system. -/
  calls : Nat
  /-- The array elements accessed, newest first. -/
  accessed : List Access

/-- The loop over the iovecs, from element `i` on. -/
def vectorLoop (direction : Direction) (shortCount : Bool) (driver : Nat → Transfer) (base : Nat) :
    (left i : Nat) → Progress → Except WasiError Unit × Progress
  | 0, _, p => (.ok (), p)
  | left + 1, i, p =>
    let at_ := base + iovecSize * i
    let off := BitVec.ofNat 32 (p.memory.load at_ 4)
    let len := BitVec.ofNat 32 (p.memory.load (at_ + 4) 4)
    let p := { p with accessed := ⟨at_, iovecSize⟩ :: p.accessed }
    if len = 0 then vectorLoop direction shortCount driver base left (i + 1) p
    else
      match vaddr p.memory off len with
      | none => (.error .fault, p)
      | some addr =>
        match driver p.calls with
        | .failed e =>
          if shortCount ∧ p.moved > 0 then (.ok (), { p with calls := p.calls + 1 })
          else (.error (.vfs e), { p with calls := p.calls + 1 })
        | .moved data =>
          let data := data.take len.toNat
          let p :=
            { p with
              memory := match direction with
                | .toGuest => p.memory.write addr data
                | .toDriver => p.memory
              moved := p.moved + data.length
              calls := p.calls + 1 }
          if data.length < len.toNat then (.ok (), p)
          else vectorLoop direction shortCount driver base left (i + 1) p

/-- The arguments the six calls share, as the guest's 32-bit words. -/
structure VectorArgs where
  /-- The offset of the iovec array. -/
  iovs : BitVec 32
  iovsLen : BitVec 32
  /-- Where the number of bytes moved is stored. -/
  count : BitVec 32
  deriving DecidableEq

/-- The length `vaddr` is asked to check for an array: the product in the width of its
parameter. -/
def arrayBytes (count : BitVec 32) (elementSize : Nat) : BitVec 32 :=
  BitVec.ofNat 32 (count.toNat * elementSize)

/-- A call that failed before it touched the array. -/
def refused (m : Memory) (error : WasiError) : Except WasiError Unit × Progress :=
  (.error error, ⟨m, 0, 0, []⟩)

/-- The output flags of `sock_recv`: where they are stored and what the last receive set. -/
structure OutFlags where
  /-- The guest offset. -/
  at_ : BitVec 32
  value : BitVec 16
  deriving DecidableEq

/-- Store the output flags, if the call has them. -/
def storeFlags (flags : Option OutFlags) (m : Memory) : Memory :=
  match flags with
  | none => m
  | some out => m.write out.at_.toNat (littleEndian 2 out.value.toNat)

/-- The body of the six calls after their own argument checks. -/
def vectorCall (direction : Direction) (shortCount : Bool) (driver : Nat → Transfer)
    (flags : Option OutFlags) (args : VectorArgs) (m : Memory) :
    Except WasiError Unit × Progress :=
  let iovs := vaddr m args.iovs (arrayBytes args.iovsLen iovecSize)
  if vaddr m args.count 4 = none ∨ (flags.map fun out => vaddr m out.at_ 2) = some none then
    refused m .fault
  else if iovs = none ∧ args.iovsLen.toNat > 0 then refused m .fault
  else
    match vectorLoop direction shortCount driver (iovs.getD 0) args.iovsLen.toNat 0
        ⟨m, 0, 0, []⟩ with
    | (.error error, p) => (.error error, p)
    | (.ok (), p) =>
      let counted := p.memory.write args.count.toNat (littleEndian 4 (p.moved % 2 ^ 32))
      (.ok (), { p with memory := storeFlags flags counted })

variable (attached : Bool) (driver : Nat → Transfer) (args : VectorArgs)

/-- `wasi_fd_read`; `attached` says whether the call found its context. -/
def wasiFdRead (m : Memory) : Except WasiError Unit × Progress :=
  if ¬ attached ∨ args.iovsLen.toInt < 0 then refused m .inval
  else vectorCall .toGuest true driver none args m

def wasiFdWrite (m : Memory) : Except WasiError Unit × Progress :=
  if ¬ attached ∨ args.iovsLen.toInt < 0 then refused m .inval
  else vectorCall .toDriver true driver none args m

def wasiFdPread (offset : BitVec 64) (m : Memory) : Except WasiError Unit × Progress :=
  if ¬ attached ∨ args.iovsLen.toInt < 0 ∨ offset.toInt < 0 then refused m .inval
  else vectorCall .toGuest true driver none args m

def wasiFdPwrite (offset : BitVec 64) (m : Memory) : Except WasiError Unit × Progress :=
  if ¬ attached ∨ args.iovsLen.toInt < 0 ∨ offset.toInt < 0 then refused m .inval
  else vectorCall .toDriver true driver none args m

def wasiSockRecv (roFlags : OutFlags) (m : Memory) : Except WasiError Unit × Progress :=
  if ¬ attached ∨ args.iovsLen.toInt < 0 then refused m .inval
  else vectorCall .toGuest false driver (some roFlags) args m

def wasiSockSend (m : Memory) : Except WasiError Unit × Progress :=
  if ¬ attached ∨ args.iovsLen.toInt < 0 then refused m .inval
  else vectorCall .toDriver false driver none args m

end WantedEngine.Wasi
