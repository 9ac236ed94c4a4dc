import Mathlib.Algebra.Group.Int.Defs
import Mathlib.Algebra.Group.Nat.Defs
import Mathlib.Data.List.Basic

/-! What the kernel modules share: error numbers, texts and the string helpers
whose results the code tests. -/

namespace UsbFloppy

/-- A text as the kernel and the service exchange it, without the final NUL. -/
abbrev Text := List Char

/-- With a name, so that whatever decides about texts uses the one proof. -/
scoped instance : LawfulBEq Text := inferInstance

namespace Kernel

/-- The error numbers the modelled functions return. -/
inductive Errno
  | EACCES | EBUSY | EINTR | EINVAL | EIO | EISDIR | ENODEV | ENOENT | ENOMEM | EROFS | ETOOSMALL
  deriving DecidableEq, Repr

/-- `strscpy` into a buffer of `size` bytes: the copied text and its length, or `-E2BIG`. -/
def strscpy (size : ℕ) (src : Text) : ℤ × Text :=
  if src.length < size then (src.length, src) else (-7, src.take (size - 1))

/-- A negative value stored in a `size_t`. -/
def sizeT (n : ℤ) : ℕ := (n % 2 ^ 64).toNat

/-- `kstrtobool`, which looks at the first two characters only. -/
def kstrtobool : Text → Except Errno Bool
  | c :: cs =>
    if c ∈ ['y', 'Y', 't', 'T', '1'] then .ok true
    else if c ∈ ['n', 'N', 'f', 'F', '0'] then .ok false
    else if c ∈ ['o', 'O'] then
      match cs.head? with
      | some d =>
        if d ∈ ['n', 'N'] then .ok true
        else if d ∈ ['f', 'F'] then .ok false
        else .error .EINVAL
      | none => .error .EINVAL
    else .error .EINVAL
  | [] => .error .EINVAL

end Kernel
end UsbFloppy
