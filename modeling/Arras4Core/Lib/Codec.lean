/-
  Arras4Core.Lib.Codec

  Types whose values are written to a stream and read back (`Codec`), and sequences
  of them: a record is written field by field and read field by field, and is read
  back if each of its fields is.
-/

import Arras4Core.Lib.Bytes
import Arras4Core.Lib.Stream

namespace Arras4Core.Lib

/-- How the values of a type get onto a stream and back from it.  Only those that fit
    come back as they were. -/
class Codec (ε α : Type) where
  put : α → OutProgram ε Unit
  get : InProgram ε α
  bytes : α → List UInt8
  Fits : α → Prop
  put_eval : ∀ a n, (put a).eval n = (bytes a, .ok ())
  ends_get : ∀ a n, Fits a → get.Ends n (bytes a) (.ok a)

namespace Codec

variable {ε α β : Type}

/-! ## One field after the other -/

section Sequence

variable [Codec ε α]

/-- A field is written, and what comes after it behind it. -/
theorem eval_put_bind (a : α) (f : Unit → OutProgram ε β) (n : Nat) :
    (put a >>= f : OutProgram ε β).eval n
      = (bytes ε a ++ ((f ()).eval (n + (bytes ε a).length)).1,
          ((f ()).eval (n + (bytes ε a).length)).2) :=
  OutProgram.eval_bind (put_eval a n)

/-- A field that fits is read, and what comes after it behind it. -/
theorem ends_get_bind {a : α} (ha : Fits ε a) {f : α → InProgram ε β} {n : Nat}
    {data : List UInt8} {r : Except ε β}
    (hnext : (f a).Ends (n + (bytes ε a).length) data r) :
    (get >>= f : InProgram ε β).Ends n (bytes ε a ++ data) r :=
  (ends_get a n ha).bind hnext

/-- The last field of a record. -/
theorem ends_get_pure {a : α} (ha : Fits ε a) (f : α → β) (n : Nat) :
    (get >>= fun a => pure (f a) : InProgram ε β).Ends n (bytes ε a) (.ok (f a)) := by
  have hlast : (pure (f a) : InProgram ε β).Ends (n + (bytes ε a).length) [] (.ok (f a)) :=
    InProgram.ends_pure _ _
  have hall := ends_get_bind (f := fun a => pure (f a)) ha hlast
  rwa [List.append_nil] at hall

end Sequence

/-! ## Numbers -/

/-- An unsigned number in `width` bytes, the lowest first. -/
@[reducible] def unsigned (width : Nat) (toNat : α → Nat) (ofNat : Nat → α)
    (hlt : ∀ a, toNat a < 256 ^ width) (hback : ∀ a, ofNat (toNat a) = a) : Codec ε α where
  put a := .write (leBytes width (toNat a)) (.ret ())
  get := do
    let data ← .readBlock width
    return ofNat (leNat data)
  bytes a := leBytes width (toNat a)
  Fits _ := True
  put_eval a n := by
    show (leBytes width (toNat a) ++ [], _) = _
    rw [List.append_nil]
    rfl
  ends_get a n _ := by
    refine InProgram.ends_decode (leBytes_length width (toNat a)) ?_ n
    rw [leNat_leBytes_of_lt (hlt a), hback]

instance : Codec ε UInt16 :=
  unsigned 2 UInt16.toNat UInt16.ofNat UInt16.toNat_lt fun _ => UInt16.ofNat_toNat

instance : Codec ε UInt32 :=
  unsigned 4 UInt32.toNat UInt32.ofNat UInt32.toNat_lt fun _ => UInt32.ofNat_toNat

instance : Codec ε UInt64 :=
  unsigned 8 UInt64.toNat UInt64.ofNat UInt64.toNat_lt fun _ => UInt64.ofNat_toNat

/-- A `bool` is one byte. -/
instance : Codec ε Bool :=
  unsigned 1 Bool.toNat (fun n => decide (n ≠ 0)) (fun b => by cases b <;> decide)
    fun b => by cases b <;> rfl

end Codec

end Arras4Core.Lib
