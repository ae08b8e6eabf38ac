/-
  Arras4Core.Lib.Format

  Formatted output of numbers: the members of an output stream that its inserters
  use, and `printf`'s `%02x`.  A field that is too short is filled up on its left,
  and an inserter takes the width with it.

  The other flags of a stream have the values of a new one: letters are lower
  case, no base is shown, and fields are filled on the left.
-/

namespace Arras4Core.Lib

structure OStream where
  base : Nat := 10
  fill : Char := ' '
  width : Nat := 0
  text : List Char := []

namespace OStream

def setBase (base : Nat) (os : OStream) : OStream := { os with base := base }
def setfill (fill : Char) (os : OStream) : OStream := { os with fill := fill }
def setw (width : Nat) (os : OStream) : OStream := { os with width := width }

/-- The inserter of a string. -/
def put (s : List Char) (os : OStream) : OStream :=
  { os with text := os.text ++ List.leftpad os.width os.fill s, width := 0 }

/-- The digits of an `int`; in a base other than ten those of the `unsigned`. -/
def digits (base : Nat) (n : Int) : List Char :=
  if base = 10 then (if n < 0 then ['-'] else []) ++ Nat.toDigits 10 n.natAbs
  else Nat.toDigits base (n % 4294967296).toNat

/-- The inserter of an `int`. -/
def putInt (n : Int) (os : OStream) : OStream := os.put (digits os.base n)

end OStream

/-- The decimal text of an integer. -/
def decimal (n : Int) : List Char :=
  (if n < 0 then ['-'] else []) ++ Nat.toDigits 10 n.natAbs

/-- `%02x` of a byte. -/
def printHex (n : Nat) : List Char := List.leftpad 2 '0' (Nat.toDigits 16 n)

theorem isDigit_of_mem_toDigits {n : Nat} {c : Char} (h : c ∈ Nat.toDigits 10 n) :
    c.isDigit = true :=
  Nat.isDigit_of_mem_toDigits (by decide) (by decide) h

/-- A numeral begins with a digit. -/
theorem toDigits_eq_cons (n : Nat) :
    ∃ c cs, Nat.toDigits 10 n = c :: cs ∧ c.isDigit = true := by
  obtain ⟨c, cs, hcs⟩ := List.exists_cons_of_ne_nil (Nat.toDigits_ne_nil (n := n) (b := 10))
  exact ⟨c, cs, hcs, isDigit_of_mem_toDigits (hcs ▸ List.mem_cons_self ..)⟩

theorem leftpad_of_length_le {α : Type} {width : Nat} {fill : α} {s : List α}
    (h : width ≤ s.length) : List.leftpad width fill s = s := by
  rw [List.leftpad, Nat.sub_eq_zero_of_le h]
  rfl

/-- A byte has two hexadecimal digits. -/
theorem printHex_of_lt {n : Nat} (h : n < 256) :
    printHex n = [Nat.digitChar (n / 16), Nat.digitChar (n % 16)] := by
  rw [printHex]
  by_cases hlt : n < 16
  · rw [Nat.toDigits_of_lt_base hlt, Nat.div_eq_of_lt hlt, Nat.mod_eq_of_lt hlt]
    rfl
  · rw [Nat.toDigits_of_base_le (by decide) (by omega),
      Nat.toDigits_of_lt_base (show n / 16 < 16 by omega)]
    rfl

/-- The inserter of a byte, in a field of two that is filled with zeros. -/
theorem putInt_setw_hex {os : OStream} {n : Nat} (hbase : os.base = 16) (hfill : os.fill = '0')
    (h : n < 256) :
    (os.setw 2).putInt n = { os with text := os.text ++ printHex n, width := 0 } := by
  have hmod : ((n : Int) % 4294967296).toNat = n := by omega
  show ({ os with text := os.text ++ List.leftpad 2 os.fill (OStream.digits os.base n),
                  width := 0 } : OStream) = _
  rw [hbase, hfill, OStream.digits, if_neg (by decide), hmod, printHex]

end Arras4Core.Lib
