import Mathlib.Algebra.GroupWithZero.Nat
import Mathlib.Data.List.Basic
/-!
# Error numbers, byte strings and lengths

The engine reports failures as negative `errno` values. A fallible function of the source
becomes a function into `Rc`: a negative return `-EXYZ` is `.error .exyz` and a non-negative
return is `.ok`. Only the numbers the modelled code names are constructors;
`host` stands for any other number the host reports.
-/
namespace WantedEngine

/-- The error numbers the modelled code names. -/
inductive Errno where
  | eperm | enoent | esrch | eintr | eio | enxio | e2big | enoexec | ebadf | echild | eagain
  | enomem | eacces | efault | ebusy | eexist | exdev | enodev | enotdir | eisdir | einval
  | enfile | emfile | enotty | etxtbsy | efbig | enospc | espipe | erofs | emlink | epipe | edom
  | erange | enametoolong | enolck | enosys | enotempty | eloop | eproto | ebadmsg | eoverflow
  | emsgsize | edestaddrreq | econnaborted | econnreset | econnrefused | ealready | enotsup
  | enomsg | eilseq
  /-- A number the host reported that the modelled code does not name. -/
  | host (code : Nat)
  deriving DecidableEq

/-- What a fallible function returns. -/
abbrev Rc := Except Errno

/-- A byte string as the source passes it: a pointer and a length. -/
abbrev Bytes := List UInt8

instance : LawfulBEq Bytes := inferInstance

/-- The bytes of an ASCII literal of the source. -/
def ascii (text : String) : Bytes := text.toList.map (fun c => c.toNat.toUInt8)

/-- The bytes of a NUL-terminated string: those before the first NUL. -/
def cString (bytes : Bytes) : Bytes := bytes.takeWhile (· ≠ 0)

/-- The hexadecimal digit of a value below sixteen. -/
def hexDigit (value : Nat) : UInt8 := if value < 10 then (48 + value).toUInt8 else (87 + value).toUInt8

/-- `WAPP_MAX_NAME_LEN`: a name with its NUL. -/
def wappMaxNameLen : Nat := 15

/-- `WAPP_MAX_VERSION_LEN`: a version with its NUL. -/
def wappMaxVersionLen : Nat := 15

/-- `WAPP_MAX_IMAGE_REF_LEN`: a name, the separator and a version with its NUL. -/
def wappMaxImageRefLen : Nat := wappMaxNameLen + 1 + wappMaxVersionLen

/-- `WAPPS_LINE_MAX`: the buffer of a control line. -/
def wappsLineMax : Nat := 32

/-- `MAX_ENTRY_NAME_LEN`: the name of a node with its NUL. -/
def maxEntryNameLen : Nat := 32

/-- Whether a result is the success the source reports as a non-negative return. -/
def succeeded {α : Type} : Rc α → Bool
  | .ok _ => true
  | .error _ => false

variable {α : Type}

@[simp] lemma succeeded_ok (value : α) : succeeded (.ok value) = true := rfl

@[simp] lemma succeeded_error (e : Errno) : succeeded (.error e : Rc α) = false := rfl

/-- A result is an error iff it is no success. -/
lemma exists_error_iff {rc : Rc α} : (∃ e, rc = .error e) ↔ succeeded rc = false := by
  cases rc <;> simp

@[simp] lemma succeeded_map {α β : Type} (f : α → β) (rc : Rc α) :
    succeeded (rc.map f) = succeeded rc := by
  cases rc <;> rfl

end WantedEngine
