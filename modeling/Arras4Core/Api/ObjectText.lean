/-
  Arras4Core.Api.ObjectText

  `valueToString` of message_api/Object.cc, which prints an `api::Object` as JSON.

  A string is a list of characters.  The functions of the source go through its
  bytes: those of a character from 128 on are negative as `char`, so that they are
  no control characters, and are written as they are.
-/

import Arras4Core.Api.Object
import Arras4Core.Lib.Json
import Arras4Core.Lib.Text

namespace Arras4Core.Api

open Arras4Core.Lib
open Arras4Core.Lib.Text

/-- `if (ch > 0 && ch <= 0x1F)`. -/
def isControlCharacter (ch : Char) : Bool := 0 < ch.toNat ∧ ch.toNat ≤ 0x1F

def containsControlCharacter : List Char → Bool
  | [] => false
  | ch :: str => if isControlCharacter ch then true else containsControlCharacter str

/-- The characters that `strpbrk` looks for in `appendQuotedString`. -/
def quotedCharacters : List Char := ['"', '\\', '\x08', '\x0c', '\n', '\r', '\t']

/-- `std::hex`, `std::uppercase`, `std::setfill('0')` and `std::setw(4)`. -/
def controlCode (c : Char) : List Char :=
  List.leftpad 4 '0' ((Nat.toDigits 16 c.toNat).map Char.toUpper)

/-- The body of the loop of `appendQuotedString`. -/
def appendQuotedCharacter (c : Char) : List Char :=
  match c with
  | '"' => ['\\', '"']
  | '\\' => ['\\', '\\']
  | '\x08' => ['\\', 'b']
  | '\x0c' => ['\\', 'f']
  | '\n' => ['\\', 'n']
  | '\r' => ['\\', 'r']
  | '\t' => ['\\', 't']
  | c => if isControlCharacter c then '\\' :: 'u' :: controlCode c else [c]

/-- What `appendQuotedString` writes.  `value` is what comes before the NUL. -/
def appendQuotedString (value : List Char) : List Char :=
  if value.all (· ∉ quotedCharacters) && !containsControlCharacter value then
    '"' :: value ++ ['"']
  else '"' :: value.flatMap appendQuotedCharacter ++ ['"']

/-- `int size = value.size()`, where `size()` is an `unsigned int`. -/
def arraySize (elements : List Object) : Int := (elements.length : Int).bmod 4294967296

mutual

/-- What `appendValue` writes. -/
def appendValue (quoteStrings : Bool) : Object → List Char
  | .null => "null".toList
  | .int n => (toString n).toList
  | .real text => text.toList
  | .string s => if quoteStrings then appendQuotedString (cStr s.toList) else s.toList
  | .bool b => if b then "true".toList else "false".toList
  | .array elements => '[' :: appendElements 0 (arraySize elements) elements ++ [']']
  | .object members => '{' :: appendMembers true members ++ ['}']

/-- The loop over an array, from the element at `index` on.  `size` is at most the
    number of elements. -/
def appendElements (index size : Int) : List Object → List Char
  | [] => []
  | value :: elements =>
    if index < size then
      (if index > 0 then [','] else []) ++ appendValue true value
        ++ appendElements (index + 1) size elements
    else []

/-- The loop over the member names; `first` is `it == members.begin()`.  The names
    are the keys of a map, so `value[name]` is the value that is listed with it. -/
def appendMembers (first : Bool) : List (String × Object) → List Char
  | [] => []
  | (name, value) :: members =>
    (if first then [] else [',']) ++ appendQuotedString (cStr name.toList) ++ [':']
      ++ appendValue true value ++ appendMembers false members

end

def valueToString (o : Object) (quoteStrings : Bool) : String :=
  String.ofList (appendValue quoteStrings o)

/-! ## What JSON says of the text -/

namespace Object

/-- The values that the text of a value is decoded to. -/
def builder : Json.Builder Object where
  null := .null
  bool := .bool
  integer := .int
  real text := .real (String.ofList text)
  string s := .string (String.ofList s)
  array := .array
  object members := .object (members.map fun m => (String.ofList m.1, m.2))

/-- Null, booleans, integers, strings without NUL, and the arrays and objects of
    such values, with names without NUL. -/
inductive Printable : Object → Prop
  | null : Printable null
  | bool (b : Bool) : Printable (bool b)
  | int (n : Int) : Printable (int n)
  | string {s : String} (h : '\x00' ∉ s.toList) : Printable (string s)
  | array {elements : List Object} (h : ∀ e ∈ elements, Printable e) :
      Printable (array elements)
  | object {members : List (String × Object)} (hname : ∀ m ∈ members, '\x00' ∉ m.1.toList)
      (hvalue : ∀ m ∈ members, Printable m.2) : Printable (object members)

mutual

/-- The value that is printed: of an array, the elements that the loop reaches. -/
def printed : Object → Object
  | array elements => array (printedElements (arraySize elements).toNat elements)
  | object members => object (printedMembers members)
  | o => o

def printedElements : Nat → List Object → List Object
  | size + 1, e :: elements => printed e :: printedElements size elements
  | _, _ => []

def printedMembers : List (String × Object) → List (String × Object)
  | [] => []
  | (name, value) :: members => (name, printed value) :: printedMembers members

end

mutual

/-- The number of elements of each array is a number of type `int`. -/
def arraysFit : Object → Bool
  | array elements => elements.length < 2147483648 && elementsFit elements
  | object members => membersFit members
  | _ => true

def elementsFit : List Object → Bool
  | [] => true
  | e :: elements => e.arraysFit && elementsFit elements

def membersFit : List (String × Object) → Bool
  | [] => true
  | (_, value) :: members => value.arraysFit && membersFit members

end

end Object

/-! ## Strings -/

theorem containsControlCharacter_eq_false {str : List Char}
    (h : containsControlCharacter str = false) : ∀ c ∈ str, isControlCharacter c = false := by
  induction str with
  | nil => exact fun c hc => absurd hc (List.not_mem_nil)
  | cons ch str ih =>
    rw [containsControlCharacter] at h
    cases hch : isControlCharacter ch with
    | true =>
      rw [hch] at h
      cases h
    | false =>
      rw [hch] at h
      intro c hc
      rcases List.mem_cons.mp hc with rfl | hc
      · exact hch
      · exact ih h c hc

/-- A character without an escape sequence of its own. -/
theorem appendQuotedCharacter_of_not_mem {c : Char} (h : c ∉ quotedCharacters) :
    appendQuotedCharacter c
      = if isControlCharacter c then '\\' :: 'u' :: controlCode c else [c] := by
  have hne : ∀ d ∈ quotedCharacters, c ≠ d := by
    rintro d hd rfl
    exact h hd
  unfold appendQuotedCharacter
  split
  · exact absurd rfl (hne '"' (by decide))
  · exact absurd rfl (hne '\\' (by decide))
  · exact absurd rfl (hne '\x08' (by decide))
  · exact absurd rfl (hne '\x0c' (by decide))
  · exact absurd rfl (hne '\n' (by decide))
  · exact absurd rfl (hne '\r' (by decide))
  · exact absurd rfl (hne '\t' (by decide))
  · rfl

/-- The fast path writes what the loop would. -/
theorem appendQuotedString_eq (value : List Char) :
    appendQuotedString value = '"' :: value.flatMap appendQuotedCharacter ++ ['"'] := by
  rw [appendQuotedString]
  split
  · next h =>
    obtain ⟨hquoted, hcontrol⟩ := Bool.and_eq_true_iff.mp h
    have hplain : ∀ c ∈ value, appendQuotedCharacter c = [c] := by
      intro c hc
      have hmem : c ∉ quotedCharacters := by
        simpa using List.all_eq_true.mp hquoted c hc
      rw [appendQuotedCharacter_of_not_mem hmem,
        containsControlCharacter_eq_false (by simpa using hcontrol) c hc]
      rfl
    have hflat : value.flatMap appendQuotedCharacter = value := by
      rw [List.flatMap_congr hplain, List.flatMap_singleton']
    rw [hflat]
  · rfl

/-- Four digits, of which the last two are those of the code. -/
theorem controlCode_eq {c : Char} (h : isControlCharacter c = true) :
    controlCode c = ['0', '0', (Nat.digitChar (c.toNat / 16)).toUpper,
      (Nat.digitChar (c.toNat % 16)).toUpper] := by
  obtain ⟨-, hle⟩ : 0 < c.toNat ∧ c.toNat ≤ 0x1F := by simpa [isControlCharacter] using h
  rw [controlCode]
  by_cases hlt : c.toNat < 16
  · rw [Nat.toDigits_of_lt_base hlt, Nat.div_eq_of_lt hlt, Nat.mod_eq_of_lt hlt]
    rfl
  · rw [Nat.toDigits_of_base_le (by decide) (by omega),
      Nat.toDigits_of_lt_base (show c.toNat / 16 < 16 by omega)]
    rfl

theorem unicode_controlCode {c : Char} (h : isControlCharacter c = true) (rest : List Char) :
    Json.unicode (controlCode c ++ rest) = some (c, rest) := by
  obtain ⟨-, hle⟩ : 0 < c.toNat ∧ c.toNat ≤ 0x1F := by simpa [isControlCharacter] using h
  have hdigit : ∀ n < 16, Json.hexValue (Nat.digitChar n).toUpper = some n := by decide
  have hunit : Json.codeUnit (controlCode c ++ rest) = some (c.toNat, rest) := by
    rw [controlCode_eq h]
    simp only [List.cons_append, List.nil_append, Json.codeUnit, Option.bind_eq_bind,
      hdigit (c.toNat / 16) (by omega), hdigit (c.toNat % 16) (by omega),
      show Json.hexValue '0' = some 0 from rfl, Option.bind_some]
    congr 2
    omega
  rw [Json.unicode, hunit]
  simp only [Option.bind_eq_bind, Option.bind_some]
  rw [if_neg (by omega), if_neg (by omega), Char.ofNat_toNat]

/-- What is written for a character stands for that character. -/
theorem readsChar_appendQuotedCharacter {c : Char} (hc : c ≠ '\x00') :
    Json.ReadsChar (appendQuotedCharacter c) c := by
  by_cases hmem : c ∈ quotedCharacters
  · have hall : ∀ c ∈ quotedCharacters, ∃ letter, appendQuotedCharacter c = ['\\', letter] ∧
        ∀ rest, Json.escaped (letter :: rest) = some (c, rest) := by
      intro c hc
      simp only [quotedCharacters, List.mem_cons, List.not_mem_nil, or_false] at hc
      rcases hc with rfl | rfl | rfl | rfl | rfl | rfl | rfl <;> exact ⟨_, rfl, fun _ => rfl⟩
    obtain ⟨letter, htext, hescaped⟩ := hall c hmem
    rw [htext]
    exact .escape hescaped
  · rw [appendQuotedCharacter_of_not_mem hmem]
    cases hcontrol : isControlCharacter c with
    | true =>
      rw [if_pos rfl]
      exact .escape (unicode_controlCode hcontrol)
    | false =>
      rw [if_neg (by simp)]
      have hne : ∀ d ∈ quotedCharacters, c ≠ d := by
        rintro d hd rfl
        exact hmem hd
      have hpos : 0 < c.toNat := by
        refine Nat.pos_of_ne_zero fun hzero => hc ?_
        rw [← Char.ofNat_toNat c, hzero]
      have hlow : 0x20 ≤ c.toNat := by
        by_contra hlt
        have : isControlCharacter c = true := by
          simp only [isControlCharacter, decide_eq_true_eq]
          omega
        rw [hcontrol] at this
        cases this
      exact .plain hlow (hne '"' (by decide)) (hne '\\' (by decide))

theorem readsString_appendQuotedString {s : String} (h : '\x00' ∉ s.toList) :
    Json.ReadsString (appendQuotedString (cStr s.toList)) s.toList := by
  rw [cStr_of_not_mem h, appendQuotedString_eq]
  apply Json.ReadsString.intro
  intro c hc
  apply readsChar_appendQuotedCharacter
  rintro rfl
  exact h hc

/-! ## Arrays and objects -/

/-- The text of the items from the first on, or of those behind it. -/
def separated (first : Bool) (items : List (List Char)) : List Char :=
  if first then [','].intercalate items else items.flatMap (',' :: ·)

theorem separated_cons (first : Bool) (item : List Char) (items : List (List Char)) :
    separated first (item :: items)
      = (if first then [] else [',']) ++ item ++ separated false items := by
  have hjoin : ∀ items : List (List Char), ∀ item : List Char,
      [','].intercalate (item :: items) = item ++ items.flatMap (',' :: ·) := by
    intro items
    induction items with
    | nil =>
      intro item
      simp
    | cons other items ih =>
      intro item
      rw [List.intercalate_cons_cons, ih other, List.flatMap_cons, List.append_assoc]
      rfl
  cases first with
  | true => exact hjoin items item
  | false => rfl

theorem appendElements_eq (index n : Nat) (elements : List Object) :
    appendElements index (index + n) elements
      = separated (index = 0) ((elements.take n).map (appendValue true)) := by
  induction elements generalizing index n with
  | nil =>
    rw [List.take_nil]
    cases hfirst : decide (index = 0) <;> rfl
  | cons value elements ih =>
    cases n with
    | zero =>
      rw [appendElements, if_neg (by simp), List.take_zero]
      cases hfirst : decide (index = 0) <;> rfl
    | succ n =>
      have hlt : (index : Int) < index + (n + 1 : Nat) := by omega
      have hrest : appendElements ((index : Int) + 1) (index + (n + 1 : Nat)) elements
          = separated false ((elements.take n).map (appendValue true)) := by
        have := ih (index + 1) n
        rw [decide_eq_false (Nat.succ_ne_zero index)] at this
        rw [← this]
        congr 1
        push_cast
        omega
      rw [appendElements, if_pos hlt, hrest, List.take_succ_cons, List.map_cons, separated_cons]
      congr 2
      by_cases hzero : index = 0
      · rw [if_neg (by omega), if_pos (decide_eq_true hzero)]
      · rw [if_pos (by omega), if_neg (by simp [hzero])]

/-- The loop prints as many elements as its bound says. -/
theorem appendElements_zero (size : Int) (elements : List Object) :
    appendElements 0 size elements
      = [','].intercalate ((elements.take size.toNat).map (appendValue true)) := by
  by_cases hneg : size < 0
  · -- nothing is printed
    rw [Int.toNat_of_nonpos (by omega), List.take_zero]
    cases elements with
    | nil => rfl
    | cons value elements =>
      rw [appendElements, if_neg (by omega)]
      rfl
  · have := appendElements_eq 0 size.toNat elements
    rw [Int.toNat_of_nonneg (by omega), Int.ofNat_zero, Int.zero_add] at this
    exact this

theorem appendMembers_eq (first : Bool) (members : List (String × Object)) :
    appendMembers first members
      = separated first (members.map fun m =>
          Json.memberText (appendQuotedString (cStr m.1.toList)) (appendValue true m.2)) := by
  induction members generalizing first with
  | nil => cases first <;> rfl
  | cons member members ih =>
    obtain ⟨name, value⟩ := member
    rw [appendMembers, ih, List.map_cons, separated_cons, Json.memberText]
    simp only [List.append_assoc, List.singleton_append]

namespace Object

theorem printedElements_eq (size : Nat) (elements : List Object) :
    printedElements size elements = (elements.take size).map printed := by
  induction elements generalizing size with
  | nil => cases size <;> rfl
  | cons e elements ih =>
    cases size with
    | zero => rfl
    | succ size => rw [printedElements, ih, List.take_succ_cons, List.map_cons]

theorem printedMembers_eq (members : List (String × Object)) :
    printedMembers members = members.map fun m => (m.1, m.2.printed) := by
  induction members with
  | nil => rfl
  | cons member members ih => rw [printedMembers, ih, List.map_cons]

theorem elementsFit_iff (elements : List Object) :
    elementsFit elements = true ↔ ∀ e ∈ elements, e.arraysFit = true := by
  induction elements with
  | nil => exact iff_of_true rfl fun e he => absurd he List.not_mem_nil
  | cons e elements ih => rw [elementsFit, Bool.and_eq_true_iff, ih, List.forall_mem_cons]

theorem membersFit_iff (members : List (String × Object)) :
    membersFit members = true ↔ ∀ m ∈ members, m.2.arraysFit = true := by
  induction members with
  | nil => exact iff_of_true rfl fun m hm => absurd hm List.not_mem_nil
  | cons member members ih => rw [membersFit, Bool.and_eq_true_iff, ih, List.forall_mem_cons]

theorem builder_string (s : String) : builder.string s.toList = string s :=
  congrArg string (String.ofList_toList ..)

theorem builder_object (members : List (String × Object)) :
    builder.object (members.map fun m => (m.1.toList, m.2)) = object members := by
  refine congrArg object ?_
  rw [List.map_map]
  refine (List.map_congr_left fun m _ => ?_).trans (List.map_id members)
  exact Prod.ext (String.ofList_toList ..) rfl

theorem toList_toString (n : Int) : (toString n).toList = decimal n := by
  rw [Int.toString_eq_repr, Int.repr_eq_if, decimal]
  by_cases hneg : n < 0
  · have habs : n.natAbs = (-n).toNat := by omega
    rw [if_neg (by omega), if_pos hneg, habs]
    simp
  · have habs : n.natAbs = n.toNat := by omega
    rw [if_pos (by omega), if_neg hneg, habs]
    simp

/-- The text of a value is decoded to the value without the elements that the
    loops leave out. -/
theorem Printable.reads {o : Object} (h : Printable o) :
    Json.Reads builder (appendValue true o) o.printed := by
  induction h with
  | null => exact .null
  | bool b => exact .bool b
  | int n =>
    rw [appendValue, toList_toString]
    exact .integer n
  | @string s h =>
    have := Json.Reads.string (b := builder) (readsString_appendQuotedString h)
    rwa [builder_string] at this
  | @array elements h ih =>
    -- the elements that are printed, each with its text
    have hitems : ∀ item ∈ (elements.take (arraySize elements).toNat).map
        (fun e => (appendValue true e, e.printed)), Json.Reads builder item.1 item.2 := by
      intro item hitem
      obtain ⟨e, he, rfl⟩ := List.mem_map.mp hitem
      exact ih e (List.mem_of_mem_take he)
    have := Json.Reads.array hitems
    rw [List.map_map, List.map_map] at this
    rw [appendValue, appendElements_zero, printed, printedElements_eq]
    exact this
  | @object members hname hvalue ih =>
    have hitems : ∀ item ∈ members.map (fun m =>
        ((appendQuotedString (cStr m.1.toList), appendValue true m.2),
          (m.1.toList, m.2.printed))),
        Json.ReadsString item.1.1 item.2.1 ∧ Json.Reads builder item.1.2 item.2.2 := by
      intro item hitem
      obtain ⟨m, hm, rfl⟩ := List.mem_map.mp hitem
      exact ⟨readsString_appendQuotedString (hname m hm), ih m hm⟩
    have := Json.Reads.object (fun item hitem => (hitems item hitem).1)
      fun item hitem => (hitems item hitem).2
    rw [List.map_map, List.map_map] at this
    rw [appendValue, appendMembers_eq, printed, printedMembers_eq, ← builder_object,
      List.map_map]
    exact this

theorem Printable.decode_valueToString {o : Object} (h : Printable o) :
    Json.decode builder (valueToString o true).toList = some o.printed := by
  rw [valueToString, String.toList_ofList]
  exact h.reads.decode_eq

theorem arraySize_lt (elements : List Object) : arraySize elements < 2147483648 :=
  Int.bmod_lt (x := (elements.length : Int)) (m := 4294967296) (by decide)

theorem arraySize_of_lt {elements : List Object} (h : elements.length < 2147483648) :
    arraySize elements = elements.length := by
  apply Int.bmod_eq_of_le
  · omega
  · omega

/-- The first size that is negative as an `int`. -/
theorem arraySize_of_length_eq {elements : List Object} (h : elements.length = 2147483648) :
    arraySize elements = -2147483648 := by
  have hwrap : ((2147483648 : Nat) : Int).bmod 4294967296 = -2147483648 := by decide
  unfold arraySize
  rw [h]
  exact hwrap

/-- The loop over an array reaches every element, or not the last. -/
theorem length_le_arraySize_iff (elements : List Object) :
    elements.length ≤ (arraySize elements).toNat ↔ elements.length < 2147483648 := by
  have hbound := arraySize_lt elements
  constructor
  · -- a size that is not cut is below the bound of an `int`
    intro hle
    omega
  · intro hlt
    have hsize : (arraySize elements).toNat = elements.length := by
      rw [arraySize_of_lt hlt, Int.toNat_natCast]
    exact Nat.le_of_eq hsize.symm

theorem map_eq_self_iff {β : Type} {f : β → β} {items : List β} :
    items.map f = items ↔ ∀ item ∈ items, f item = item := by
  have h : items.map f = items.map id ↔ ∀ item ∈ items, f item = id item := List.map_inj_left
  rwa [List.map_id] at h

/-- What is printed of an array is the array itself. -/
theorem printed_array_iff (elements : List Object) :
    (array elements).printed = array elements ↔
      elements.length < 2147483648 ∧ ∀ e ∈ elements, e.printed = e := by
  rw [printed, printedElements_eq, ← length_le_arraySize_iff]
  constructor
  · intro heq
    have heq : (elements.take (arraySize elements).toNat).map printed = elements :=
      Object.array.inj heq
    have hle : elements.length ≤ (arraySize elements).toNat := by
      have := congrArg List.length heq
      rw [List.length_map, List.length_take] at this
      omega
    rw [List.take_of_length_le hle] at heq
    exact ⟨hle, map_eq_self_iff.mp heq⟩
  · rintro ⟨hle, hall⟩
    rw [List.take_of_length_le hle, map_eq_self_iff.mpr hall]

theorem printed_object_iff (members : List (String × Object)) :
    (object members).printed = object members ↔ ∀ m ∈ members, m.2.printed = m.2 := by
  rw [printed, printedMembers_eq, Object.object.injEq, map_eq_self_iff]
  exact forall₂_congr fun m _ => ⟨fun h => congrArg Prod.snd h, fun h => Prod.ext rfl h⟩

/-- A value is printed whole when each of its arrays is. -/
theorem Printable.printed_eq_iff {o : Object} (h : Printable o) :
    o.printed = o ↔ o.arraysFit = true := by
  induction h with
  | null => exact iff_of_true rfl rfl
  | bool b => exact iff_of_true rfl rfl
  | int n => exact iff_of_true rfl rfl
  | string h => exact iff_of_true rfl rfl
  | @array elements h ih =>
    rw [printed_array_iff, arraysFit, Bool.and_eq_true_iff, decide_eq_true_eq, elementsFit_iff]
    exact and_congr_right fun _ => forall₂_congr ih
  | @object members hname hvalue ih =>
    rw [printed_object_iff, arraysFit, membersFit_iff]
    exact forall₂_congr ih

/-! ## Printing and decoding -/

/-- The text of a value is JSON for that value, unless one of its arrays has more
    elements than an `int` counts. -/
theorem decode_valueToString_iff {o : Object} (h : Printable o) :
    Json.decode builder (valueToString o true).toList = some o ↔ o.arraysFit = true := by
  rw [h.decode_valueToString, Option.some.injEq, h.printed_eq_iff]

/-- A value with strings that need escapes. -/
def escapedSample : Object :=
  object [("k\"", array [null, int (-5), string "x\ny\x01"]), ("m", bool true)]

theorem decode_valueToString_sample :
    Json.decode builder (valueToString escapedSample true).toList = some escapedSample :=
  (decode_valueToString_iff (.object (by decide) (by
    intro m hm
    simp only [List.mem_cons, List.not_mem_nil, or_false] at hm
    rcases hm with rfl | rfl
    · refine .array fun e he => ?_
      simp only [List.mem_cons, List.not_mem_nil, or_false] at he
      rcases he with rfl | rfl | rfl
      · exact .null
      · exact .int _
      · exact .string (by decide)
    · exact .bool _))).mpr (by decide)

/-- The text of the array of 2^31 nulls is that of the empty array. -/
theorem decode_valueToString_replicate :
    Printable (array (List.replicate 2147483648 null)) ∧
      Json.decode builder (valueToString (array (List.replicate 2147483648 null)) true).toList
        = some (array []) ∧
      Json.decode builder (valueToString (array (List.replicate 2147483648 null)) true).toList
        ≠ some (array (List.replicate 2147483648 null)) := by
  have hprintable : Printable (array (List.replicate 2147483648 null)) := by
    refine .array fun e he => ?_
    rw [List.eq_of_mem_replicate he]
    exact .null
  have hsize := arraySize_of_length_eq (List.length_replicate (n := 2147483648) (a := null))
  have hdecode : Json.decode builder
      (valueToString (array (List.replicate 2147483648 null)) true).toList = some (array []) := by
    rw [hprintable.decode_valueToString, printed, printedElements_eq, hsize]
    rfl
  refine ⟨hprintable, hdecode, fun heq => ?_⟩
  rw [hdecode] at heq
  have hlength := congrArg List.length (Object.array.inj (Option.some.inj heq))
  rw [List.length_replicate] at hlength
  cases hlength

end Object

end Arras4Core.Api
