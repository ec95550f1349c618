import WantedEngine.Errno
import WantedEngine.Foundation.Codec
/-!
# Guest linear memory

What the WASI layer sees of a guest: 32-bit offsets into a linear memory, checked by
`wasm_runtime_validate_app_addr` and turned into native pointers. A native pointer is kept as
its distance from the base of the linear memory, so that a pointer past the end still reads
some host byte; which accesses stay inside is a question about the addresses.
-/
namespace WantedEngine.Wasi

/-- The linear memory of a 32-bit guest and the host bytes at and after its base. -/
structure Memory where
  size : Nat
  /-- A 32-bit guest has at most `2 ^ 32` bytes. -/
  fits : size ≤ 2 ^ 32
  /-- The host bytes by their distance from the base. -/
  byte : Nat → UInt8

namespace Memory

/-- `wasm_runtime_validate_app_addr`: the range ends inside the linear memory. -/
def validate (m : Memory) (off len : Nat) : Bool := off + len ≤ m.size

/-- The little-endian number in `count` bytes at an address. -/
def load (m : Memory) (addr : Nat) : (count : Nat) → Nat
  | 0 => 0
  | count + 1 => (m.byte addr).toNat + 256 * load m (addr + 1) count

def write (m : Memory) (addr : Nat) (bytes : Bytes) : Memory :=
  { m with
    byte := fun at_ =>
      if addr ≤ at_ ∧ at_ < addr + bytes.length then bytes.getD (at_ - addr) 0 else m.byte at_ }

/-- Reading a number from memory that is zero there gives zero. -/
lemma load_zero {m : Memory} (zero : ∀ at_, m.byte at_ = 0) (addr count : Nat) :
    m.load addr count = 0 := by
  induction count generalizing addr with
  | zero => rfl
  | succ count ih => simp [load, zero, ih]

variable (m : Memory)

lemma load_lt (addr count : Nat) : m.load addr count < 256 ^ count := by
  induction count generalizing addr with
  | zero => exact Nat.one_pos
  | succ count ih =>
    have low : (m.byte addr).toNat < 256 := UInt8.toNat_lt _
    have high := ih (addr + 1)
    rw [load, Nat.pow_succ]
    omega

lemma load_write_drop (addr : Nat) (bytes : Bytes) (count skipped : Nat)
    (whole : skipped + count = bytes.length) :
    (m.write addr bytes).load (addr + skipped) count =
      Foundation.fromLittleEndian (bytes.drop skipped) := by
  induction count generalizing skipped with
  | zero =>
    have done : bytes.drop skipped = [] := List.drop_eq_nil_of_le (by omega)
    rw [done]
    rfl
  | succ count ih =>
    have inside : skipped < bytes.length := by omega
    have here : (m.write addr bytes).byte (addr + skipped) = bytes[skipped] := by
      have range : addr ≤ addr + skipped ∧ addr + skipped < addr + bytes.length := by omega
      simp only [write, if_pos range, Nat.add_sub_cancel_left]
      rw [List.getD_eq_getElem?_getD, List.getElem?_eq_getElem inside, Option.getD_some]
    have later := ih (skipped + 1) (by omega)
    rw [List.drop_eq_getElem_cons inside, Foundation.fromLittleEndian, load, here, Nat.add_assoc, later]

lemma load_write_littleEndian (addr : Nat) {count n : Nat} (fits : n < 256 ^ count) :
    (m.write addr (Foundation.littleEndian count n)).load addr count = n := by
  have whole := load_write_drop m addr (Foundation.littleEndian count n) count 0 (by simp)
  rw [Nat.add_zero, List.drop_zero, Foundation.fromLittleEndian_littleEndian fits] at whole
  exact whole

lemma load_write_apart {addr at_ count : Nat} {bytes : Bytes}
    (apart : at_ + count ≤ addr ∨ addr + bytes.length ≤ at_) :
    (m.write addr bytes).load at_ count = m.load at_ count := by
  induction count generalizing at_ with
  | zero => rfl
  | succ count ih =>
    have here : (m.write addr bytes).byte at_ = m.byte at_ := by
      have outside : ¬ (addr ≤ at_ ∧ at_ < addr + bytes.length) := by omega
      simp only [write, if_neg outside]
    rw [load, load, here, ih (by omega)]

end Memory

export Foundation (littleEndian)

/-- `vaddr`: the native pointer of a guest range, or none for offset zero and for a range that
does not validate. -/
def vaddr (m : Memory) (off len : BitVec 32) : Option Nat :=
  if off = 0 then none else if m.validate off.toNat len.toNat then some off.toNat else none

/-- The WASI errors of the modelled calls. -/
inductive WasiError where
  | inval
  | fault
  | intr
  | notcapable
  /-- `WasiErrno` of a negative result of the virtual file system. -/
  | vfs (e : Errno)
  deriving DecidableEq

/-- `WasiErrno`: the WASI number of a host error; a number it does not list is `INVAL`. -/
def wasiErrno : Errno → Nat
  | .eperm => 63 | .enoent => 44 | .esrch => 71 | .eintr => 27 | .eio => 29 | .enxio => 60
  | .e2big => 1 | .enoexec => 45 | .ebadf => 8 | .echild => 12 | .eagain => 6 | .enomem => 48
  | .eacces => 2 | .efault => 21 | .ebusy => 10 | .eexist => 20 | .exdev => 75 | .enodev => 43
  | .enotdir => 54 | .eisdir => 31 | .einval => 28 | .enfile => 41 | .emfile => 33
  | .enotty => 59 | .etxtbsy => 74 | .efbig => 22 | .enospc => 51 | .enosys => 52
  | .espipe => 70 | .erofs => 69 | .emlink => 34 | .epipe => 64 | .edom => 18 | .erange => 68
  | .enametoolong => 37 | .edestaddrreq => 17 | .econnrefused => 14 | .econnaborted => 13
  | .econnreset => 15 | .enotempty => 55 | .eloop => 32 | .eoverflow => 61 | .enolck => 46
  | .enotsup => 58 | .emsgsize => 28 | .ebadmsg => 28 | .eproto => 28 | .ealready => 28
  | .enomsg => 28 | .eilseq => 28
  | .host _ => 28

/-- One array element the host read or wrote, by its address and size. -/
structure Access where
  /-- The native address, from the base of the linear memory. -/
  addr : Nat
  size : Nat
  deriving DecidableEq

/-- The element lies wholly inside a linear memory of the given size. -/
def Access.Inside (size : Nat) (access : Access) : Prop := access.addr + access.size ≤ size

instance decidableInside (size : Nat) (access : Access) : Decidable (access.Inside size) :=
  inferInstanceAs (Decidable (_ ≤ _))

end WantedEngine.Wasi
