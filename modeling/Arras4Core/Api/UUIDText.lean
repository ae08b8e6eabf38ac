/-
  Arras4Core.Api.UUIDText

  The texts of an id: the functions of UUID_windows.cc, which print and parse it
  by hand, and the inserter of UUID.cc.  A string is a list of characters, one for
  a byte.  An access past the end of the string, or of the bytes, would be
  `undefinedBehaviour`.

  Main results: `parse_spec`, `insert_spec`.
-/

import Arras4Core.Lib.Format
import Arras4Core.Routing.ComputationMap

namespace Arras4Core.Api

open Arras4Core.Lib

namespace UUID

/-- `count` bytes, from `mBytes[start]` on. -/
def bytes (u : UUID) (start count : Nat) : List UInt8 := (u.mBytes.toList.drop start).take count

/-- `%02x` of one byte after the other. -/
def digitsOf (bs : List UInt8) : List Char := bs.flatMap fun b => printHex b.toNat

namespace Windows

/-- The value of a digit, or 16 for an illegal character. -/
def hexDigit (ch : Char) : Nat :=
  let ch := ch.toNat
  if ch > 47 ∧ ch < 58 then ch - 48
  else if ch > 96 ∧ ch < 103 then ch - 87
  else if ch > 64 ∧ ch < 71 then ch - 55
  else 16

/-- `snprintf(buf, size, "%02x..", ..)`, as the string that is in the buffer. -/
def snprintf (size : Nat) (bytes : List UInt8) : List Char :=
  (digitsOf bytes).take (size - 1)

def toString (u : UUID) : List Char :=
  let one := snprintf 10 (u.bytes 0 4)
  let two := snprintf 6 (u.bytes 4 2)
  let three := snprintf 6 (u.bytes 6 2)
  let four := snprintf 6 (u.bytes 8 2)
  let five := snprintf 14 (u.bytes 10 6)
  one ++ '-' :: two ++ '-' :: three ++ '-' :: four ++ '-' :: five

/-- `s[sp]`. -/
def charAt (s : List Char) (sp : Nat) : Except Exception Char :=
  match s[sp]? with
  | some c => .ok c
  | none => .error .undefinedBehaviour

/-- The byte of two digits. -/
def byteOf (c1 c2 : Char) : UInt8 := UInt8.ofNat (hexDigit c1 * 16 + hexDigit c2)

/-- The loop of `parse` from `bp` and `sp` on: the bytes and the two cursors that it
    ends with. -/
def parseFrom (s : List Char) (mBytes : Vector UInt8 16) (bp sp : Nat) :
    Except Exception (Vector UInt8 16 × Nat × Nat) :=
  if h : bp < 16 ∧ sp < s.length - 1 then
    match charAt s sp with
    | .error e => .error e
    | .ok c =>
      if c = '-' then parseFrom s mBytes bp (sp + 1)
      else
        match charAt s (sp + 1) with
        | .error e => .error e
        | .ok d =>
          if hexDigit c < 16 ∧ hexDigit d < 16 then
            parseFrom s (mBytes.set bp (byteOf c d)) (bp + 1) (sp + 2)
          -- an illegal character
          else .ok (Vector.replicate 16 0, bp, sp + 2)
  else .ok (mBytes, bp, sp)
termination_by s.length - sp

def parse (u : UUID) (s : List Char) : Except Exception UUID :=
  if s = [] then .ok null
  else
    match parseFrom s u.mBytes 0 0 with
    | .ok (mBytes, bp, sp) => .ok (if bp < 16 ∨ sp < s.length then null else ⟨mBytes⟩)
    | .error e => .error e

/-! ## The texts that are accepted -/

/-- A text of bytes: two digits each, and any number of hyphens before a byte. -/
inductive Text : List Char → List UInt8 → Prop
  | nil : Text [] []
  | hyphen {s : List Char} {bs : List UInt8} : bs ≠ [] → Text s bs → Text ('-' :: s) bs
  | byte {c d : Char} {s : List Char} {bs : List UInt8} :
      hexDigit c < 16 → hexDigit d < 16 → Text s bs → Text (c :: d :: s) (byteOf c d :: bs)

/-- The text of an id: sixteen bytes, and nothing else. -/
def IsText (s : List Char) (u : UUID) : Prop := Text s u.mBytes.toList

namespace Text

theorem length_le {s : List Char} {bs : List UInt8} (h : Text s bs) :
    2 * bs.length ≤ s.length := by
  induction h with
  | nil => exact Nat.le_refl 0
  | hyphen _ _ ih =>
    rw [List.length_cons]
    omega
  | byte _ _ _ ih =>
    rw [List.length_cons, List.length_cons, List.length_cons]
    omega

theorem eq_nil {s : List Char} (h : Text s []) : s = [] := by
  cases h with
  | nil => rfl
  | hyphen hne _ => exact absurd rfl hne

theorem of_hyphen {s : List Char} {bs : List UInt8} (h : Text ('-' :: s) bs) : Text s bs := by
  cases h with
  | hyphen _ h => exact h
  | byte hc _ _ => exact absurd hc (by decide)

/-- Another character is the first digit of a byte. -/
theorem of_byte {c d : Char} {s : List Char} {bs : List UInt8} (h : Text (c :: d :: s) bs)
    (hc : c ≠ '-') :
    (hexDigit c < 16 ∧ hexDigit d < 16) ∧ ∃ bs', bs = byteOf c d :: bs' ∧ Text s bs' := by
  cases h with
  | hyphen _ _ => exact absurd rfl hc
  | byte hc hd h => exact ⟨⟨hc, hd⟩, _, rfl, h⟩

/-- A text has one value. -/
theorem unique {s : List Char} {bs bs' : List UInt8} (h : Text s bs) (h' : Text s bs') :
    bs = bs' := by
  induction h generalizing bs' with
  | nil =>
    cases h' with
    | nil => rfl
  | hyphen _ _ ih => exact ih (of_hyphen h')
  | byte hc hd _ ih =>
    obtain ⟨-, bs₁, rfl, hbs₁⟩ := of_byte h' (fun heq => absurd hc (by rw [heq]; decide))
    rw [ih hbs₁]

end Text

/-! ## The loop -/

theorem charAt_of_lt {s : List Char} {sp : Nat} (h : sp < s.length) :
    charAt s sp = .ok s[sp] := by
  rw [charAt, List.getElem?_eq_getElem h]

theorem drop_of_charAt {s : List Char} {sp : Nat} {c : Char} (h : charAt s sp = .ok c) :
    s.drop sp = c :: s.drop (sp + 1) := by
  by_cases hlt : sp < s.length
  · rw [charAt_of_lt hlt] at h
    rw [List.drop_eq_getElem_cons hlt, Except.ok.inj h]
  · rw [charAt, List.getElem?_eq_none (by omega)] at h
    cases h

/-- What the loop ends with: the bytes of the rest of the string behind the ones it had,
    if the rest is the text of just so many, and otherwise cursors that stop short. -/
structure Ends (s : List Char) (mBytes : Vector UInt8 16) (bp sp : Nat)
    (after : Vector UInt8 16 × Nat × Nat) : Prop where
  complete : ∀ bs, Text (s.drop sp) bs → bp + bs.length = 16 →
    ¬ (after.2.1 < 16 ∨ after.2.2 < s.length) ∧ after.1.toList = mBytes.toList.take bp ++ bs
  incomplete : ¬ (after.2.1 < 16 ∨ after.2.2 < s.length) →
    ∃ bs, Text (s.drop sp) bs ∧ bp + bs.length = 16

/-- A byte that is written behind the ones that are there. -/
theorem take_set_bytes (mBytes : Vector UInt8 16) {bp : Nat} (h : bp < 16) (b : UInt8) :
    (mBytes.set bp b h).toList.take (bp + 1) = mBytes.toList.take bp ++ [b] := by
  have hlen : bp < (mBytes.toList.set bp b).length := by
    rw [List.length_set, Vector.length_toList]
    exact h
  rw [Vector.toList_set, List.take_succ_eq_append_getElem hlen, List.getElem_set_self,
    List.take_set_of_le (Nat.le_refl bp)]

namespace Ends

variable {s : List Char} {mBytes : Vector UInt8 16} {bp sp : Nat}
  {after : Vector UInt8 16 × Nat × Nat}

/-- A hyphen is left out, since a byte is still to come. -/
theorem of_hyphen (hchar : charAt s sp = .ok '-') (hbp : bp < 16)
    (h : Ends s mBytes bp (sp + 1) after) : Ends s mBytes bp sp after where
  complete bs hbs := by
    rw [drop_of_charAt hchar] at hbs
    exact h.complete bs hbs.of_hyphen
  incomplete hstop := by
    obtain ⟨bs, hbs, hlen⟩ := h.incomplete hstop
    rw [drop_of_charAt hchar]
    refine ⟨bs, .hyphen (fun hnil => ?_) hbs, hlen⟩
    rw [hnil, List.length_nil] at hlen
    omega

/-- Two digits are the next byte. -/
theorem of_byte {c d : Char} (hdrop : s.drop sp = c :: d :: s.drop (sp + 2)) (hc : c ≠ '-')
    (hdigits : hexDigit c < 16 ∧ hexDigit d < 16) (hbp : bp < 16)
    (h : Ends s (mBytes.set bp (byteOf c d)) (bp + 1) (sp + 2) after) :
    Ends s mBytes bp sp after where
  complete bs hbs hlen := by
    rw [hdrop] at hbs
    obtain ⟨-, bs', rfl, hbs'⟩ := hbs.of_byte hc
    rw [List.length_cons] at hlen
    obtain ⟨hstop, hbytes⟩ := h.complete bs' hbs' (by omega)
    refine ⟨hstop, ?_⟩
    rw [hbytes, take_set_bytes, List.append_assoc]
    rfl
  incomplete hstop := by
    obtain ⟨bs, hbs, hlen⟩ := h.incomplete hstop
    rw [hdrop]
    refine ⟨_, .byte hdigits.1 hdigits.2 hbs, ?_⟩
    rw [List.length_cons]
    omega

/-- An illegal character: no text has it there, and the bytes are not complete. -/
theorem of_illegal {c d : Char} (hdrop : s.drop sp = c :: d :: s.drop (sp + 2)) (hc : c ≠ '-')
    (hdigits : ¬ (hexDigit c < 16 ∧ hexDigit d < 16)) (hbp : bp < 16) (sp' : Nat) :
    Ends s mBytes bp sp (Vector.replicate 16 0, bp, sp') where
  complete bs hbs _ := by
    rw [hdrop] at hbs
    exact absurd (hbs.of_byte hc).1 hdigits
  incomplete hstop := absurd (.inl hbp) hstop

/-- The bytes are complete, or fewer than two characters are left: what is accepted is
    the end of the string. -/
theorem of_not_lt (hbp : bp ≤ 16) (hsp : sp ≤ s.length)
    (h : ¬ (bp < 16 ∧ sp < s.length - 1)) : Ends s mBytes bp sp (mBytes, bp, sp) where
  complete bs hbs hlen := by
    have hle := hbs.length_le
    rw [List.length_drop] at hle
    have hnil : bs = [] := List.length_eq_zero_iff.mp (by omega)
    subst hnil
    have hend := List.drop_eq_nil_iff.mp hbs.eq_nil
    rw [List.length_nil] at hlen
    refine ⟨by dsimp only; omega, ?_⟩
    rw [List.append_nil, List.take_of_length_le (by rw [Vector.length_toList]; omega)]
  incomplete hstop := by
    dsimp only at hstop
    have hend : s.drop sp = [] := List.drop_eq_nil_iff.mpr (by omega)
    refine ⟨[], by rw [hend]; exact .nil, ?_⟩
    rw [List.length_nil]
    omega

end Ends

/-- The loop returns, with one case of `Ends` for each of its rounds. -/
theorem exists_parseFrom (s : List Char) (mBytes : Vector UInt8 16) (bp sp : Nat)
    (hbp : bp ≤ 16) (hsp : sp ≤ s.length) :
    ∃ after, parseFrom s mBytes bp sp = .ok after ∧ Ends s mBytes bp sp after := by
  fun_induction parseFrom s mBytes bp sp with
  | case1 mBytes bp sp h e hchar =>
    -- the guard keeps both characters inside the string
    rw [charAt_of_lt (by omega)] at hchar
    cases hchar
  | case2 mBytes bp sp h hchar ih =>
    obtain ⟨after, hafter, hends⟩ := ih hbp (by omega)
    exact ⟨after, hafter, hends.of_hyphen hchar h.1⟩
  | case3 mBytes bp sp h c hchar hhyphen e hsecond =>
    rw [charAt_of_lt (by omega)] at hsecond
    cases hsecond
  | case4 mBytes bp sp h c hchar hhyphen d hsecond hdigits ih =>
    obtain ⟨after, hafter, hends⟩ := ih (by omega) (by omega)
    have hdrop : s.drop sp = c :: d :: s.drop (sp + 2) := by
      rw [drop_of_charAt hchar, drop_of_charAt hsecond]
    exact ⟨after, hafter, hends.of_byte hdrop hhyphen hdigits h.1⟩
  | case5 mBytes bp sp h c hchar hhyphen d hsecond hdigits =>
    have hdrop : s.drop sp = c :: d :: s.drop (sp + 2) := by
      rw [drop_of_charAt hchar, drop_of_charAt hsecond]
    exact ⟨_, rfl, .of_illegal hdrop hhyphen hdigits h.1 _⟩
  | case6 mBytes bp sp h => exact ⟨_, rfl, .of_not_lt hbp hsp h⟩

/-! ## Parsing -/

/-- A string is parsed as the id it is the text of, and as the null id if it is the text
    of none, whatever the id was before.  No access is out of bounds. -/
theorem parse_cases (old : UUID) (s : List Char) :
    (∃ u, IsText s u ∧ parse old s = .ok u) ∨
    ((∀ u, ¬ IsText s u) ∧ parse old s = .ok null) := by
  rw [parse]
  by_cases hnil : s = []
  · rw [if_pos hnil]
    refine .inr ⟨fun u hu => ?_, rfl⟩
    have hle := Text.length_le hu
    rw [hnil, Vector.length_toList, List.length_nil] at hle
    omega
  · obtain ⟨⟨mBytes, bp, sp⟩, hafter, hends⟩ :=
      exists_parseFrom s old.mBytes 0 0 (by omega) (by omega)
    rw [if_neg hnil, hafter]
    dsimp only
    by_cases hstop : bp < 16 ∨ sp < s.length
    · -- the test behind the loop clears the bytes
      rw [if_pos hstop]
      refine .inr ⟨fun u hu => ?_, rfl⟩
      exact (hends.complete _ hu (by rw [Vector.length_toList])).1 hstop
    · obtain ⟨bs, hbs, hlen⟩ := hends.incomplete hstop
      obtain ⟨-, hbytes⟩ := hends.complete bs hbs hlen
      rw [if_neg hstop]
      refine .inl ⟨⟨mBytes⟩, ?_, rfl⟩
      rw [List.drop_zero] at hbs
      rw [List.take_zero, List.nil_append] at hbytes
      rw [IsText, hbytes]
      exact hbs

theorem parse_of_isText {s : List Char} {u : UUID} (h : IsText s u) (old : UUID) :
    parse old s = .ok u := by
  rcases parse_cases old s with ⟨v, hv, hparse⟩ | ⟨hnone, -⟩
  · have hbytes : v.mBytes = u.mBytes := Vector.toList_inj.mp (hv.unique h)
    rw [hparse]
    exact congrArg (fun b => Except.ok (UUID.mk b)) hbytes
  · exact absurd h (hnone u)

/-! ## The text that is written -/

theorem hexDigit_digitChar {n : Nat} (h : n < 16) : hexDigit n.digitChar = n := by
  have hall : ∀ n < 16, hexDigit (Nat.digitChar n) = n := by decide
  exact hall n h

theorem Text.printHex (b : UInt8) {s : List Char} {bs : List UInt8} (h : Text s bs) :
    Text (Lib.printHex b.toNat ++ s) (b :: bs) := by
  have hb := b.toNat_lt
  have hhigh := hexDigit_digitChar (show b.toNat / 16 < 16 by omega)
  have hlow := hexDigit_digitChar (show b.toNat % 16 < 16 by omega)
  have hbyte : byteOf (b.toNat / 16).digitChar (b.toNat % 16).digitChar = b := by
    rw [byteOf, hhigh, hlow, Nat.div_add_mod']
    exact UInt8.ofNat_toNat
  have htext := Text.byte (c := (b.toNat / 16).digitChar) (d := (b.toNat % 16).digitChar)
    (by omega) (by omega) h
  rw [hbyte] at htext
  rw [printHex_of_lt hb]
  exact htext

theorem length_digitsOf (bs : List UInt8) : (digitsOf bs).length = 2 * bs.length := by
  induction bs with
  | nil => rfl
  | cons b bs ih =>
    have hcons : digitsOf (b :: bs) = Lib.printHex b.toNat ++ digitsOf bs := rfl
    rw [hcons, List.length_append, ih, printHex_of_lt b.toNat_lt, List.length_cons,
      List.length_cons, List.length_cons, List.length_nil]
    omega

/-- A buffer that is long enough for a group. -/
theorem snprintf_eq (u : UUID) (start count : Nat) {size : Nat} (hsize : 2 * count < size) :
    snprintf size (u.bytes start count) = digitsOf (u.bytes start count) := by
  have hlen : (u.bytes start count).length ≤ count := List.length_take_le ..
  rw [snprintf, List.take_of_length_le (by rw [length_digitsOf]; omega)]

theorem Text.digitsOf (group : List UInt8) {s : List Char} {bs : List UInt8} (h : Text s bs) :
    Text (UUID.digitsOf group ++ s) (group ++ bs) := by
  induction group with
  | nil => exact h
  | cons b group ih =>
    rw [UUID.digitsOf, List.flatMap_cons, List.append_assoc]
    exact ih.printHex b

/-- A group before a hyphen. -/
theorem Text.group (group : List UInt8) {s : List Char} {bs : List UInt8} (h : Text s bs)
    (hne : bs ≠ []) : Text (UUID.digitsOf group ++ '-' :: s) (group ++ bs) :=
  (Text.hyphen hne h).digitsOf group

end Windows

/-- The groups of an id are its bytes. -/
theorem bytes_append (u : UUID) (start count : Nat) :
    u.bytes start count ++ u.mBytes.toList.drop (start + count) = u.mBytes.toList.drop start := by
  rw [bytes, ← List.drop_drop, List.take_append_drop]

theorem bytes_last (u : UUID) : u.bytes 10 6 = u.mBytes.toList.drop 10 := by
  rw [bytes, List.take_of_length_le (by rw [List.length_drop, Vector.length_toList])]

theorem bytes_ne_nil (u : UUID) {start count : Nat} (hstart : start < 16)
    (hcount : 0 < count) : u.bytes start count ≠ [] := fun hnil => by
  have hlen := congrArg List.length hnil
  rw [bytes, List.length_take, List.length_drop, Vector.length_toList, List.length_nil] at hlen
  omega

theorem bytes_groups (u : UUID) :
    u.bytes 0 4 ++ (u.bytes 4 2 ++ (u.bytes 6 2 ++ (u.bytes 8 2 ++ u.bytes 10 6)))
      = u.mBytes.toList := by
  rw [bytes_last, bytes_append u 8 2, bytes_append u 6 2, bytes_append u 4 2, bytes_append u 0 4,
    List.drop_zero]

namespace Windows

/-- The five groups, with hyphens between them. -/
theorem toString_eq (u : UUID) :
    toString u = digitsOf (u.bytes 0 4) ++ '-' :: digitsOf (u.bytes 4 2) ++
      '-' :: digitsOf (u.bytes 6 2) ++ '-' :: digitsOf (u.bytes 8 2) ++
      '-' :: digitsOf (u.bytes 10 6) := by
  rw [toString, snprintf_eq u 0 4 (by decide), snprintf_eq u 4 2 (by decide),
    snprintf_eq u 6 2 (by decide), snprintf_eq u 8 2 (by decide), snprintf_eq u 10 6 (by decide)]

theorem isText_toString (u : UUID) : IsText (toString u) u := by
  have hne : u.bytes 10 6 ≠ [] := u.bytes_ne_nil (by decide) (by decide)
  have hne₄ := List.append_ne_nil_of_right_ne_nil (u.bytes 8 2) hne
  have hne₃ := List.append_ne_nil_of_right_ne_nil (u.bytes 6 2) hne₄
  have hne₂ := List.append_ne_nil_of_right_ne_nil (u.bytes 4 2) hne₃
  have hfive : Text (digitsOf (u.bytes 10 6)) (u.bytes 10 6) := by
    have h := Text.nil.digitsOf (u.bytes 10 6)
    rwa [List.append_nil, List.append_nil] at h
  have htext := (((hfive.group _ hne).group _ hne₄).group _ hne₃).group (u.bytes 0 4) hne₂
  rw [bytes_groups] at htext
  simpa only [IsText, toString_eq, List.append_assoc, List.cons_append] using htext

/-- What is written is parsed again; a string is parsed as the id it is the text of, or as
    the null id. -/
theorem parse_spec :
    (∀ old u : UUID, parse old (toString u) = .ok u) ∧
    ∀ (old : UUID) (s : List Char),
      (∃ u, IsText s u ∧ parse old s = .ok u) ∨
      ((∀ u, ¬ IsText s u) ∧ parse old s = .ok null) :=
  ⟨fun old u => parse_of_isText (isText_toString u) old, parse_cases⟩

end Windows

/-! ## The inserter -/

/-- `setw(2) << (int)mBytes[i]`, for one byte after the other. -/
def insertBytes (bs : List UInt8) (os : OStream) : OStream :=
  bs.foldl (fun os b => (os.setw 2).putInt b.toNat) os

/-- `operator<<`. -/
def insert (u : UUID) (os : OStream) : OStream :=
  let os := (os.setBase 16).setfill '0'
  let os := (insertBytes (u.bytes 0 4) os).put ['-']
  let os := (insertBytes (u.bytes 4 2) os).put ['-']
  let os := (insertBytes (u.bytes 6 2) os).put ['-']
  let os := (insertBytes (u.bytes 8 2) os).put ['-']
  let os := insertBytes (u.bytes 10 6) os
  (os.setfill ' ').setBase 10

theorem insertBytes_eq {bs : List UInt8} (hne : bs ≠ []) {os : OStream} (hbase : os.base = 16)
    (hfill : os.fill = '0') : insertBytes bs os = ⟨16, '0', 0, os.text ++ digitsOf bs⟩ := by
  induction bs generalizing os with
  | nil => exact absurd rfl hne
  | cons b bs ih =>
    have hstep : insertBytes (b :: bs) os
        = insertBytes bs ⟨16, '0', 0, os.text ++ printHex b.toNat⟩ := by
      rw [insertBytes, List.foldl_cons, putInt_setw_hex hbase hfill b.toNat_lt, hbase, hfill]
      rfl
    -- the first byte leaves the stream as the others find it
    rw [hstep, digitsOf, List.flatMap_cons, ← List.append_assoc]
    by_cases hnil : bs = []
    · subst hnil
      exact congrArg (OStream.mk 16 '0' 0) (List.append_nil _).symm
    · exact ih hnil rfl rfl

theorem hexByte_eq (b : UInt8) : hexByte b = printHex b.toNat := by
  have hall : ∀ n < 16, Nat.digitChar n = hexDigit n := by decide
  have hb := b.toNat_lt
  rw [printHex_of_lt hb, hall _ (by omega), hall _ (by omega)]
  rfl

/-- The library's text of an id, group by group. -/
theorem toList_toString (u : UUID) :
    u.toString.toList = digitsOf (u.bytes 0 4) ++ '-' :: digitsOf (u.bytes 4 2) ++
      '-' :: digitsOf (u.bytes 6 2) ++ '-' :: digitsOf (u.bytes 8 2) ++
      '-' :: digitsOf (u.bytes 10 6) := by
  have hgroup : ∀ start count,
      (((u.mBytes.toList.map hexByte).drop start).take count).flatten
        = digitsOf (u.bytes start count) := by
    intro start count
    rw [digitsOf, bytes, ← List.map_drop, ← List.map_take, ← List.flatMap_def]
    exact congrArg (List.flatMap · _) (funext hexByte_eq)
  rw [toString, String.toList_ofList]
  dsimp only
  rw [hgroup, hgroup, hgroup, hgroup, hgroup]

theorem put_hyphen (text : List Char) :
    (OStream.mk 16 '0' 0 text).put ['-'] = ⟨16, '0', 0, text ++ ['-']⟩ := rfl

theorem insert_eq (u : UUID) (os : OStream) :
    u.insert os = ⟨10, ' ', 0, os.text ++ u.toString.toList⟩ := by
  have hfirst : u.bytes 0 4 ≠ [] := u.bytes_ne_nil (by decide) (by decide)
  have hone : insertBytes (u.bytes 0 4) ((os.setBase 16).setfill '0') = _ :=
    insertBytes_eq hfirst rfl rfl
  have hnext : ∀ start count text, start < 16 → 0 < count →
      insertBytes (u.bytes start count) ⟨16, '0', 0, text⟩
        = ⟨16, '0', 0, text ++ digitsOf (u.bytes start count)⟩ :=
    fun start count text hstart hcount =>
      insertBytes_eq (u.bytes_ne_nil hstart hcount) rfl rfl
  rw [insert, hone, put_hyphen, hnext 4 2 _ (by decide) (by decide), put_hyphen,
    hnext 6 2 _ (by decide) (by decide), put_hyphen, hnext 8 2 _ (by decide) (by decide),
    put_hyphen, hnext 10 6 _ (by decide) (by decide), toList_toString]
  refine congrArg (OStream.mk 10 ' ' 0) ?_
  show os.text ++ _ ++ _ ++ _ ++ _ ++ _ ++ _ ++ _ ++ _ ++ _ = _
  simp only [List.append_assoc, List.cons_append, List.nil_append]

namespace Windows

theorem toString_eq_toString (u : UUID) : toString u = u.toString.toList :=
  (toString_eq u).trans (toList_toString u).symm

theorem parse_toString (u old : UUID) : parse old u.toString.toList = .ok u := by
  rw [← toString_eq_toString]
  exact parse_of_isText (isText_toString u) old

/-- The parser that is written by hand, in the place of the library's. -/
def uuid_parse (s : String) : Option UUID := (parse null s.toList).toOption

theorem uuid_parse_toString (u : UUID) : uuid_parse u.toString = some u := by
  rw [uuid_parse, parse_toString]
  rfl

end Windows

/-- The inserter writes the text of an id, which both implementations parse. -/
theorem insert_spec {uuid_parse : String → Option UUID}
    (hparse : ∀ u : UUID, uuid_parse u.toString = some u) (u : UUID) (os : OStream) :
    u.insert os = ⟨10, ' ', 0, os.text ++ u.toString.toList⟩ ∧
    Windows.toString u = u.toString.toList ∧
    Routing.parseUUID uuid_parse u.toString = u ∧
    ∀ old, Windows.parse old u.toString.toList = .ok u := by
  refine ⟨insert_eq u os, Windows.toString_eq_toString u, ?_, Windows.parse_toString u⟩
  rw [Routing.parseUUID, hparse]
  rfl

theorem insert_spec_replicate :
    let u : UUID := ⟨Vector.replicate 16 171⟩
    u.insert {} = ⟨10, ' ', 0, [] ++ u.toString.toList⟩ ∧
      Windows.toString u = u.toString.toList ∧
      Routing.parseUUID Windows.uuid_parse u.toString = u ∧
      ∀ old, Windows.parse old u.toString.toList = .ok u :=
  insert_spec Windows.uuid_parse_toString ⟨Vector.replicate 16 171⟩ {}

end UUID

end Arras4Core.Api
