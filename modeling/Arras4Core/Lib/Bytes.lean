/-
  Arras4Core.Lib.Bytes

  Byte blocks as lists: overwriting a window of a block, cutting a list into
  consecutive pieces, and little-endian numbers of a fixed width.
-/

import Mathlib.Tactic.Ring

namespace Arras4Core.Lib

/-! ## Overwriting a window -/

section Overwrite

variable {α : Type*}

/-- `mem` with the window that starts at `off` overwritten by `data`. -/
def overwrite (mem : List α) (off : Nat) (data : List α) : List α :=
  mem.take off ++ data ++ mem.drop (off + data.length)

theorem overwrite_length {mem data : List α} {off : Nat}
    (h : off + data.length ≤ mem.length) : (overwrite mem off data).length = mem.length := by
  simp only [overwrite, List.length_append, List.length_take, List.length_drop]
  omega

/-- Up to the window's end: what was before it, then the data. -/
theorem take_overwrite_end {mem data : List α} {off : Nat}
    (h : off + data.length ≤ mem.length) :
    (overwrite mem off data).take (off + data.length) = mem.take off ++ data := by
  have hlen : (mem.take off ++ data).length = off + data.length := by
    rw [List.length_append, List.length_take]; omega
  rw [overwrite, ← hlen, List.take_left]

end Overwrite

/-! ## Consecutive pieces -/

section Pieces

variable {α : Type*}

/-- The consecutive pieces of `data` of the given sizes. -/
def pieces : List Nat → List α → List (List α)
  | [], _ => []
  | n :: ns, data => data.take n :: pieces ns (data.drop n)

end Pieces

/-! ## Little-endian numbers -/

/-- The `w` low bytes of `n`, the lowest first. -/
def leBytes : Nat → Nat → List UInt8
  | 0, _ => []
  | w + 1, n => UInt8.ofNat n :: leBytes w (n / 256)

/-- The number whose little-endian bytes are given. -/
def leNat : List UInt8 → Nat
  | [] => 0
  | b :: bs => b.toNat + 256 * leNat bs

@[simp] theorem leBytes_length (w n : Nat) : (leBytes w n).length = w := by
  induction w generalizing n with
  | zero => rfl
  | succ w ih => simp only [leBytes, List.length_cons, ih]

theorem leNat_leBytes (w n : Nat) : leNat (leBytes w n) = n % 256 ^ w := by
  induction w generalizing n with
  | zero => simp [leBytes, leNat, Nat.mod_one]
  | succ w ih =>
    have hbyte : (UInt8.ofNat n).toNat = n % 256 := by simp
    rw [leBytes, leNat, ih, hbyte, Nat.pow_succ, Nat.mul_comm (256 ^ w) 256, Nat.mod_mul]

theorem leNat_leBytes_of_lt {w n : Nat} (h : n < 256 ^ w) : leNat (leBytes w n) = n := by
  rw [leNat_leBytes, Nat.mod_eq_of_lt h]

end Arras4Core.Lib
