import ModernCppHw.Lib.Stateful
import Mathlib.Data.List.Basic

/-! Readers of a stream of bytes. A reader that extends another settles what the other
has settled, also where more bytes follow: so a verdict on the start of a stream is
never revised. -/

set_option autoImplicit false

namespace ModernCppHw

/-- Why nothing was read: the bytes end too early, or no bytes that follow help. -/
inductive Stop where
  | incomplete
  | malformed
  deriving DecidableEq

/-- What is read, and the bytes after it. -/
abbrev Reader (Value : Type) := StateT (List UInt8) (Except Stop) Value

namespace Reader

open Stateful (bind_ok bind_error)

variable {Value Result : Type} {value : Value} {bytes rest more : List UInt8}

def stop (reason : Stop) : Reader Value := fun _ => .error reason

def byte : Reader UInt8
  | [] => .error .incomplete
  | first :: rest => .ok (first, rest)

def take (count : Nat) : Reader (List UInt8) := fun bytes =>
  if bytes.length < count then .error .incomplete
  else .ok (bytes.take count, bytes.drop count)

theorem take_append (taken : List UInt8) :
    take taken.length (taken ++ rest) = .ok (taken, rest) := by
  have enough : ¬ (taken ++ rest).length < taken.length := by
    rw [List.length_append]
    omega
  rw [take, if_neg enough, List.take_left, List.drop_left]

theorem take_append_of_length {count : Nat} (taken : List UInt8) (length : taken.length = count) :
    take count (taken ++ rest) = .ok (taken, rest) := length ▸ take_append taken

/-- What `short` settles, `long` settles in the same way, whatever bytes follow. -/
structure Extends (short long : Reader Value) : Prop where
  reads : ∀ bytes value rest, short bytes = .ok (value, rest) →
    ∀ more, long (bytes ++ more) = .ok (value, rest ++ more)
  rejects : ∀ bytes, short bytes = .error .malformed →
    ∀ more, long (bytes ++ more) = .error .malformed

namespace Extends

variable {short long : Reader Value}

theorem pure (value : Value) : Extends (Pure.pure value) (Pure.pure value) where
  reads := by
    intro bytes other rest read more
    cases read
    rfl
  rejects := by
    intro bytes stopped
    cases stopped

theorem stop (reason : Stop) :
    Extends (Reader.stop reason : Reader Value) (Reader.stop reason) where
  reads := by
    intro bytes value rest read
    cases read
  rejects := by
    intro bytes stopped more
    exact congrArg Except.error (Except.error.inj stopped)

theorem incomplete (long : Reader Value) : Extends (.stop .incomplete) long where
  reads := by
    intro bytes value rest read
    cases read
  rejects := by
    intro bytes stopped
    cases stopped

theorem byte : Extends Reader.byte Reader.byte where
  reads := by
    intro bytes value rest read more
    cases bytes with
    | nil => cases read
    | cons first following =>
        cases read
        rfl
  rejects := by
    intro bytes stopped
    cases bytes <;> cases stopped

theorem take (count : Nat) : Extends (Reader.take count) (Reader.take count) where
  reads := by
    intro bytes value rest read more
    unfold Reader.take at read ⊢
    split at read
    · cases read
    · next enough =>
        cases read
        have fits : count ≤ bytes.length := Nat.not_lt.mp enough
        rw [if_neg (by rw [List.length_append]; omega), List.take_append_of_le_length fits,
          List.drop_append_of_le_length fits]
  rejects := by
    intro bytes stopped
    unfold Reader.take at stopped
    split at stopped <;> cases stopped

theorem ite {condition : Prop} [Decidable condition] {other further : Reader Value}
    (holding : Extends short long) (failing : Extends other further) :
    Extends (if condition then short else other) (if condition then long else further) := by
  split
  · exact holding
  · exact failing

theorem bind {next later : Value → Reader Result} (extension : Extends short long)
    (each : ∀ value, Extends (next value) (later value)) :
    Extends (short >>= next) (long >>= later) where
  reads := by
    intro bytes result rest read more
    cases first : short bytes with
    | error reason =>
        rw [bind_error first] at read
        cases read
    | ok settled =>
        rw [bind_ok first] at read
        rw [bind_ok (extension.reads _ _ _ first more)]
        exact (each settled.1).reads _ _ _ read more
  rejects := by
    intro bytes stopped more
    cases first : short bytes with
    | error reason =>
        rw [bind_error first] at stopped
        cases stopped
        exact bind_error (extension.rejects _ first more)
    | ok settled =>
        rw [bind_ok first] at stopped
        rw [bind_ok (extension.reads _ _ _ first more)]
        exact (each settled.1).rejects _ stopped more

theorem map (function : Value → Result) (extension : Extends short long) :
    Extends (function <$> short) (function <$> long) :=
  extension.bind fun value => .pure (function value)

theorem times (extension : Extends short long) (count : Nat) :
    Extends (Stateful.times short count) (Stateful.times long count) := by
  induction count with
  | zero => exact .pure []
  | succ count ih => exact extension.bind fun value => ih.bind fun values => .pure (value :: values)

/-- Where all bytes are used, fewer of them are too few. -/
theorem incomplete_of_cut (extension : Extends short long)
    (read : long (bytes ++ more) = .ok (value, [])) (cut : more ≠ []) :
    short bytes = .error .incomplete := by
  cases settled : short bytes with
  | ok result =>
      have same := (extension.reads _ _ _ settled more).symm.trans read
      rw [Except.ok.injEq, Prod.mk.injEq, List.append_eq_nil_iff] at same
      exact absurd same.2.2 cut
  | error reason =>
      cases reason with
      | incomplete => rfl
      | malformed =>
          rw [extension.rejects _ settled more] at read
          cases read

end Extends

end Reader

end ModernCppHw
