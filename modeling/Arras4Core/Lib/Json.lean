/-
  Arras4Core.Lib.Json

  The grammar of JSON as a reader of the value at the front of a text, and rules
  for texts that the reader takes.

  The type of the values is a parameter: a `Builder` says what each production
  makes.  Fuel bounds the nesting and the number of elements; `decode` has more of
  it than any text needs, since each value and each element takes a character.
-/

import Arras4Core.Lib.Format
import Mathlib.Data.List.Basic

namespace Arras4Core.Lib.Json

/-- What the productions of the grammar make.  `real` has the text of a number
    with a fraction or an exponent. -/
structure Builder (α : Type) where
  null : α
  bool : Bool → α
  integer : Int → α
  real : List Char → α
  string : List Char → α
  array : List α → α
  object : List (List Char × α) → α

def isSpace (c : Char) : Bool := c = ' ' || c = '\t' || c = '\n' || c = '\r'

def skip (text : List Char) : List Char := text.dropWhile isSpace

/-! ## Strings -/

def hexValue (c : Char) : Option Nat :=
  if '0' ≤ c ∧ c ≤ '9' then some (c.toNat - 48)
  else if 'a' ≤ c ∧ c ≤ 'f' then some (c.toNat - 87)
  else if 'A' ≤ c ∧ c ≤ 'F' then some (c.toNat - 55)
  else none

/-- Four hexadecimal digits. -/
def codeUnit : List Char → Option (Nat × List Char)
  | a :: b :: c :: d :: rest => do
    let a ← hexValue a
    let b ← hexValue b
    let c ← hexValue c
    let d ← hexValue d
    some (a * 4096 + b * 256 + c * 16 + d, rest)
  | _ => none

/-- What follows "\u": a code unit, or a pair of surrogates. -/
def unicode (text : List Char) : Option (Char × List Char) := do
  let (high, rest) ← codeUnit text
  if 0xD800 ≤ high ∧ high < 0xDC00 then
    match rest with
    | '\\' :: 'u' :: rest => do
      let (low, rest) ← codeUnit rest
      if 0xDC00 ≤ low ∧ low < 0xE000 then
        some (Char.ofNat (0x10000 + (high - 0xD800) * 0x400 + (low - 0xDC00)), rest)
      else none
    | _ => none
  else if 0xDC00 ≤ high ∧ high < 0xE000 then none
  else some (Char.ofNat high, rest)

/-- What follows a backslash. -/
def escaped : List Char → Option (Char × List Char)
  | '"' :: rest => some ('"', rest)
  | '\\' :: rest => some ('\\', rest)
  | '/' :: rest => some ('/', rest)
  | 'b' :: rest => some ('\x08', rest)
  | 'f' :: rest => some ('\x0c', rest)
  | 'n' :: rest => some ('\n', rest)
  | 'r' :: rest => some ('\r', rest)
  | 't' :: rest => some ('\t', rest)
  | 'u' :: rest => unicode rest
  | _ => none

/-- One character of a string.  A control character must be escaped. -/
def character : List Char → Option (Char × List Char)
  | [] => none
  | '\\' :: rest => escaped rest
  | c :: rest => if c.toNat < 0x20 then none else some (c, rest)

/-- The characters up to the closing quote. -/
def characters : Nat → List Char → Option (List Char × List Char)
  | 0, _ => none
  | _ + 1, '"' :: rest => some ([], rest)
  | fuel + 1, text => do
    let (c, rest) ← character text
    let (cs, rest) ← characters fuel rest
    some (c :: cs, rest)

/-- What follows the opening quote of a string. -/
def stringBody (text : List Char) : Option (List Char × List Char) :=
  characters (text.length + 1) text

/-! ## Numbers -/

/-- At least one digit. -/
def someDigits (text : List Char) : Option (List Char × List Char) :=
  let digits := text.takeWhile Char.isDigit
  if digits = [] then none else some (digits, text.dropWhile Char.isDigit)

def sign : List Char → List Char × List Char
  | '-' :: rest => (['-'], rest)
  | text => ([], text)

def fraction : List Char → Option (List Char × List Char)
  | '.' :: rest => do
    let (digits, rest) ← someDigits rest
    some ('.' :: digits, rest)
  | text => some ([], text)

def exponentSign : List Char → List Char × List Char
  | '+' :: rest => (['+'], rest)
  | text => sign text

def exponent : List Char → Option (List Char × List Char)
  | [] => some ([], [])
  | e :: text =>
    if e = 'e' ∨ e = 'E' then do
      let (minus, rest) := exponentSign text
      let (digits, rest) ← someDigits rest
      some (e :: minus ++ digits, rest)
    else some ([], e :: text)

section Reader

variable {α : Type} (b : Builder α)

/-- A number.  Its first digit is zero only if there is no other before the
    fraction. -/
def number (text : List Char) : Option (α × List Char) := do
  let (minus, rest) := sign text
  let (whole, rest) ← someDigits rest
  if whole.head? = some '0' ∧ whole ≠ ['0'] then none
  else do
    let (frac, rest) ← fraction rest
    let (exp, rest) ← exponent rest
    if frac = [] ∧ exp = [] then
      let n : Int := Nat.ofDigitChars 10 whole 0
      some (b.integer (if minus = [] then n else -n), rest)
    else some (b.real (minus ++ whole ++ frac ++ exp), rest)

/-- A literal name or a number. -/
def atom : List Char → Option (α × List Char)
  | 'n' :: 'u' :: 'l' :: 'l' :: rest => some (b.null, rest)
  | 't' :: 'r' :: 'u' :: 'e' :: rest => some (b.bool true, rest)
  | 'f' :: 'a' :: 'l' :: 's' :: 'e' :: rest => some (b.bool false, rest)
  | text => number b text

mutual

def value : Nat → List Char → Option (α × List Char)
  | 0, _ => none
  | fuel + 1, text =>
    match skip text with
    | '{' :: rest =>
      match skip rest with
      | '}' :: rest => some (b.object [], rest)
      | rest => do
        let (members, rest) ← members fuel rest
        some (b.object members, rest)
    | '[' :: rest =>
      match skip rest with
      | ']' :: rest => some (b.array [], rest)
      | rest => do
        let (elements, rest) ← elements fuel rest
        some (b.array elements, rest)
    | '"' :: rest => do
      let (s, rest) ← stringBody rest
      some (b.string s, rest)
    | text => atom b text

/-- The elements of an array that has some, and its closing bracket. -/
def elements : Nat → List Char → Option (List α × List Char)
  | 0, _ => none
  | fuel + 1, text => do
    let (a, rest) ← value fuel text
    match skip rest with
    | ',' :: rest => do
      let (others, rest) ← elements fuel rest
      some (a :: others, rest)
    | ']' :: rest => some ([a], rest)
    | _ => none

/-- The members of an object that has some, and its closing brace. -/
def members : Nat → List Char → Option (List (List Char × α) × List Char)
  | 0, _ => none
  | fuel + 1, text =>
    match skip text with
    | '"' :: rest => do
      let (name, rest) ← stringBody rest
      match skip rest with
      | ':' :: rest => do
        let (a, rest) ← value fuel rest
        match skip rest with
        | ',' :: rest => do
          let (others, rest) ← members fuel rest
          some ((name, a) :: others, rest)
        | '}' :: rest => some ([(name, a)], rest)
        | _ => none
      | _ => none
    | _ => none

end

/-- The value of a whole text, with white space around it. -/
def decode (text : List Char) : Option α := do
  let (a, rest) ← value b (text.length + 1) text
  if skip rest = [] then some a else none

/-! ## Texts that the reader takes -/

/-- A character that the text of a value begins with. -/
def isStart (c : Char) : Bool := c ∈ ['{', '[', '"', 'n', 't', 'f', '-'] || c.isDigit

/-- A character that may follow the last digit of a number. -/
def isEnd (c : Char) : Bool := !c.isDigit && c ≠ '.' && c ≠ 'e' && c ≠ 'E'

/-- `text` is read as the character `c`, and is no quote. -/
def ReadsChar (text : List Char) (c : Char) : Prop :=
  (∃ first others, text = first :: others ∧ first ≠ '"') ∧
    ∀ rest, character (text ++ rest) = some (c, rest)

/-- `text` is a string with its quotes, which is read as `s`. -/
def ReadsString (text s : List Char) : Prop :=
  ∃ body, text = '"' :: body ∧ ∀ rest, stringBody (body ++ rest) = some (s, rest)

/-- `text` is read as the value `a`. -/
def Reads (text : List Char) (a : α) : Prop :=
  (∃ first others, text = first :: others ∧ isStart first = true) ∧
    ∀ fuel rest, text.length < fuel → (∀ c ∈ rest.head?, isEnd c = true) →
      value b fuel (text ++ rest) = some (a, rest)

theorem skip_cons_of_not {c : Char} (h : isSpace c = false) (rest : List Char) :
    skip (c :: rest) = c :: rest := by
  rw [skip, List.dropWhile_cons_of_neg (by simp [h])]

theorem not_isSpace_of_isStart {c : Char} (h : isStart c = true) : isSpace c = false := by
  have hne : ∀ space : Char, isStart space = false → c ≠ space := by
    rintro space hspace rfl
    rw [hspace] at h
    cases h
  simp [isSpace, hne ' ' rfl, hne '\t' rfl, hne '\n' rfl, hne '\r' rfl]

variable {b}

theorem Reads.skip_append {text : List Char} {a : α} (h : Reads b text a) (rest : List Char) :
    skip (text ++ rest) = text ++ rest := by
  obtain ⟨⟨first, others, rfl, hfirst⟩, -⟩ := h
  exact skip_cons_of_not (not_isSpace_of_isStart hfirst) _

theorem Reads.length_pos {text : List Char} {a : α} (h : Reads b text a) : 0 < text.length := by
  obtain ⟨⟨first, others, rfl, -⟩, -⟩ := h
  exact Nat.succ_pos _

/-- A text that is read as a value is the text of that value. -/
theorem Reads.decode_eq {text : List Char} {a : α} (h : Reads b text a) :
    decode b text = some a := by
  have hvalue : value b (text.length + 1) text = some (a, []) := by
    have := h.2 (text.length + 1) [] (Nat.lt_succ_self _) (by simp)
    rwa [List.append_nil] at this
  rw [decode, hvalue]
  rfl

/-! ## The rules for strings -/

/-- A character that stands for itself. -/
theorem ReadsChar.plain {c : Char} (hlow : 0x20 ≤ c.toNat) (hquote : c ≠ '"')
    (hescape : c ≠ '\\') : ReadsChar [c] c := by
  refine ⟨⟨c, [], rfl, hquote⟩, fun rest => ?_⟩
  rw [List.singleton_append]
  unfold character
  split
  · next heq => cases heq
  · next heq =>
    cases heq
    exact absurd rfl hescape
  · next heq =>
    cases heq
    exact if_neg (Nat.not_lt.mpr hlow)

/-- An escape sequence. -/
theorem ReadsChar.escape {text : List Char} {c : Char}
    (h : ∀ rest, escaped (text ++ rest) = some (c, rest)) : ReadsChar ('\\' :: text) c :=
  ⟨⟨'\\', text, rfl, by decide⟩, h⟩

theorem characters_append {s : List Char} {quoted : Char → List Char}
    (h : ∀ c ∈ s, ReadsChar (quoted c) c) (rest : List Char) (fuel : Nat)
    (hfuel : (s.flatMap quoted).length < fuel) :
    characters fuel (s.flatMap quoted ++ '"' :: rest) = some (s, rest) := by
  induction s generalizing fuel with
  | nil =>
    obtain ⟨fuel, rfl⟩ := Nat.exists_eq_add_one.mpr hfuel
    rfl
  | cons c s ih =>
    obtain ⟨fuel, rfl⟩ := Nat.exists_eq_add_one.mpr (Nat.zero_lt_of_lt hfuel)
    obtain ⟨⟨first, others, htext, hne⟩, hread⟩ := h c (List.mem_cons_self ..)
    have hothers : (s.flatMap quoted).length < fuel := by
      rw [List.flatMap_cons, List.length_append, htext, List.length_cons] at hfuel
      omega
    have hstep : ∀ text, characters (fuel + 1) (first :: text) = (do
        let (c, rest) ← character (first :: text)
        let (cs, rest) ← characters fuel rest
        some (c :: cs, rest)) := by
      intro text
      rw [characters]
      rintro rest heq
      cases heq
      exact hne rfl
    have happend : (c :: s).flatMap quoted ++ '"' :: rest
        = quoted c ++ (s.flatMap quoted ++ '"' :: rest) := by
      rw [List.flatMap_cons, List.append_assoc]
    rw [happend, htext, List.cons_append, hstep, ← List.cons_append, ← htext, hread]
    show (characters fuel _ >>= _) = _
    rw [ih (fun d hd => h d (List.mem_cons_of_mem _ hd)) fuel hothers]
    rfl

/-- A string, each character of which is quoted on its own. -/
theorem ReadsString.intro {s : List Char} {quoted : Char → List Char}
    (h : ∀ c ∈ s, ReadsChar (quoted c) c) :
    ReadsString ('"' :: s.flatMap quoted ++ ['"']) s := by
  refine ⟨s.flatMap quoted ++ ['"'], rfl, fun rest => ?_⟩
  rw [stringBody, List.append_assoc, List.singleton_append]
  apply characters_append h
  rw [List.length_append]
  omega

theorem Reads.string {text s : List Char} (h : ReadsString text s) :
    Reads b text (b.string s) := by
  obtain ⟨body, rfl, hbody⟩ := h
  refine ⟨⟨'"', body, rfl, rfl⟩, fun fuel rest hfuel _ => ?_⟩
  obtain ⟨fuel, rfl⟩ := Nat.exists_eq_add_one.mpr (Nat.zero_lt_of_lt hfuel)
  show (stringBody (body ++ rest) >>= _) = _
  rw [hbody]
  rfl

/-! ## The rules for the atoms -/

/-- A text that is no string, array or object. -/
theorem Reads.atom {text : List Char} {a : α} {first : Char} {others : List Char}
    (htext : text = first :: others) (hstart : isStart first = true)
    (hfirst : first ≠ '{' ∧ first ≠ '[' ∧ first ≠ '"')
    (h : ∀ rest, (∀ c ∈ rest.head?, isEnd c = true) →
      Json.atom b (text ++ rest) = some (a, rest)) : Reads b text a := by
  subst htext
  refine ⟨⟨first, others, rfl, hstart⟩, fun fuel rest hfuel hrest => ?_⟩
  obtain ⟨fuel, rfl⟩ := Nat.exists_eq_add_one.mpr (Nat.zero_lt_of_lt hfuel)
  rw [value, List.cons_append, skip_cons_of_not (not_isSpace_of_isStart hstart)]
  split
  · next heq =>
    cases heq
    exact absurd rfl hfirst.1
  · next heq =>
    cases heq
    exact absurd rfl hfirst.2.1
  · next heq =>
    cases heq
    exact absurd rfl hfirst.2.2
  · exact h rest hrest

theorem Reads.null : Reads b "null".toList b.null :=
  .atom rfl rfl (by decide) fun _ _ => rfl

theorem Reads.bool (value : Bool) :
    Reads b (if value then "true".toList else "false".toList) (b.bool value) := by
  cases value with
  | true => exact .atom rfl rfl (by decide) fun _ _ => rfl
  | false => exact .atom rfl rfl (by decide) fun _ _ => rfl

/-! ## The rule for integers -/

theorem someDigits_append {digits rest : List Char} (hdigits : ∀ c ∈ digits, c.isDigit = true)
    (hne : digits ≠ []) (hrest : ∀ c ∈ rest.head?, c.isDigit = false) :
    someDigits (digits ++ rest) = some (digits, rest) := by
  have hstop : rest.takeWhile Char.isDigit = [] ∧ rest.dropWhile Char.isDigit = rest := by
    cases rest with
    | nil => exact ⟨rfl, rfl⟩
    | cons c rest => simp [hrest c rfl]
  rw [someDigits, List.takeWhile_append_of_pos hdigits, List.dropWhile_append_of_pos hdigits,
    hstop.1, hstop.2, List.append_nil, if_neg hne]

theorem isEnd_iff {c : Char} :
    isEnd c = true ↔ c.isDigit = false ∧ c ≠ '.' ∧ c ≠ 'e' ∧ c ≠ 'E' := by
  simp [isEnd, and_assoc]

theorem fraction_of_isEnd {rest : List Char} (h : ∀ c ∈ rest.head?, isEnd c = true) :
    fraction rest = some ([], rest) := by
  unfold fraction
  split
  · exact absurd rfl (isEnd_iff.mp (h '.' rfl)).2.1
  · rfl

theorem exponent_of_isEnd {rest : List Char} (h : ∀ c ∈ rest.head?, isEnd c = true) :
    exponent rest = some ([], rest) := by
  cases rest with
  | nil => rfl
  | cons c rest =>
    obtain ⟨-, -, hlower, hupper⟩ := isEnd_iff.mp (h c rfl)
    rw [exponent, if_neg (by simp [hlower, hupper])]

/-- Only zero is written with a leading zero. -/
theorem head?_toDigits_ne_zero {n : Nat} (hpos : 0 < n) :
    (Nat.toDigits 10 n).head? ≠ some '0' := by
  induction n using Nat.strongRecOn with
  | ind n ih =>
    by_cases hlt : n < 10
    · rw [Nat.toDigits_of_lt_base hlt, List.head?_cons]
      have hchar : ∀ k < 10, 0 < k → Nat.digitChar k ≠ '0' := by decide
      exact fun h => hchar n hlt hpos (Option.some.inj h)
    · have hdiv : 0 < n / 10 := Nat.div_pos (Nat.not_lt.mp hlt) (by decide)
      rw [Nat.toDigits_of_base_le (by decide) (Nat.not_lt.mp hlt),
        List.head?_append_of_ne_nil _ Nat.toDigits_ne_nil]
      exact ih (n / 10) (Nat.div_lt_self hpos (by decide)) hdiv

theorem toDigits_eq_zero {n : Nat} (h : (Nat.toDigits 10 n).head? = some '0') :
    Nat.toDigits 10 n = ['0'] := by
  rcases Nat.eq_zero_or_pos n with rfl | hpos
  · rfl
  · exact absurd h (head?_toDigits_ne_zero hpos)

theorem sign_decimal (n : Int) (rest : List Char) :
    sign (decimal n ++ rest)
      = (if n < 0 then ['-'] else [], Nat.toDigits 10 n.natAbs ++ rest) := by
  by_cases hneg : n < 0
  · rw [decimal, if_pos hneg]
    rfl
  · rw [decimal, if_neg hneg, List.nil_append]
    obtain ⟨c, digits, hdigits, hc⟩ := toDigits_eq_cons n.natAbs
    rw [hdigits, List.cons_append]
    unfold sign
    split
    · next heq =>
      cases heq
      cases hc
    · rfl

theorem number_decimal (n : Int) {rest : List Char} (h : ∀ c ∈ rest.head?, isEnd c = true) :
    number b (decimal n ++ rest) = some (b.integer n, rest) := by
  have hdigits : someDigits (Nat.toDigits 10 n.natAbs ++ rest)
      = some (Nat.toDigits 10 n.natAbs, rest) :=
    someDigits_append (fun _ => isDigit_of_mem_toDigits)
      Nat.toDigits_ne_nil fun c hc => (isEnd_iff.mp (h c hc)).1
  have hlead : ¬((Nat.toDigits 10 n.natAbs).head? = some '0' ∧ Nat.toDigits 10 n.natAbs ≠ ['0']) :=
    fun hzero => hzero.2 (toDigits_eq_zero hzero.1)
  have hvalue : (if (if n < 0 then ['-'] else []) = ([] : List Char)
      then (n.natAbs : Int) else -(n.natAbs : Int)) = n := by
    by_cases hneg : n < 0
    · rw [if_pos hneg, if_neg (by simp)]
      omega
    · rw [if_neg hneg, if_pos rfl]
      omega
  rw [number, sign_decimal]
  simp only [Option.bind_eq_bind, hdigits, Option.bind_some, if_neg hlead,
    fraction_of_isEnd h, exponent_of_isEnd h, and_self, if_true, Nat.ofDigitChars_ten_toDigits,
    hvalue]

theorem Reads.integer (n : Int) : Reads b (decimal n) (b.integer n) := by
  obtain ⟨first, others, htext, hfirst⟩ : ∃ first others, decimal n = first :: others ∧
      (first = '-' ∨ first.isDigit = true) := by
    by_cases hneg : n < 0
    · exact ⟨'-', Nat.toDigits 10 n.natAbs, by rw [decimal, if_pos hneg]; rfl, Or.inl rfl⟩
    · obtain ⟨c, digits, hdigits, hc⟩ := toDigits_eq_cons n.natAbs
      exact ⟨c, digits, by rw [decimal, if_neg hneg]; exact hdigits, Or.inr hc⟩
  have hne : ∀ c : Char, c ≠ '-' → c.isDigit = false → first ≠ c := by
    rintro c hminus hdigit rfl
    rcases hfirst with rfl | hfirst
    · exact hminus rfl
    · rw [hfirst] at hdigit
      cases hdigit
  refine .atom htext ?_ ⟨hne '{' (by decide) rfl, hne '[' (by decide) rfl,
    hne '"' (by decide) rfl⟩ fun rest hrest => ?_
  · rcases hfirst with rfl | hfirst
    · rfl
    · simp [isStart, hfirst]
  · -- the first character is that of no literal name
    rw [← number_decimal n hrest, htext, List.cons_append]
    unfold Json.atom
    split
    · next heq => exact absurd (List.cons.inj heq).1 (hne 'n' (by decide) rfl)
    · next heq => exact absurd (List.cons.inj heq).1 (hne 't' (by decide) rfl)
    · next heq => exact absurd (List.cons.inj heq).1 (hne 'f' (by decide) rfl)
    · rfl

/-! ## The rules for arrays and objects -/

theorem isEnd_of_mem {c : Char} (h : c ∈ [',', ']', '}']) : isEnd c = true := by
  simp only [List.mem_cons, List.not_mem_nil, or_false] at h
  rcases h with rfl | rfl | rfl <;> rfl

/-- A value in front of a separator. -/
theorem Reads.value_eq {text : List Char} {a : α} (h : Reads b text a) {fuel : Nat}
    (hfuel : text.length < fuel) {c : Char} (hc : c ∈ [',', ']', '}']) (rest : List Char) :
    value b fuel (text ++ c :: rest) = some (a, c :: rest) := by
  apply h.2 fuel (c :: rest) hfuel
  intro d hd
  cases hd
  exact isEnd_of_mem hc

theorem intercalate_map_cons_cons {β : Type} (f : β → List Char) (x y : β) (items : List β) :
    [','].intercalate ((x :: y :: items).map f)
      = f x ++ ',' :: [','].intercalate ((y :: items).map f) := by
  rw [List.map_cons, List.map_cons, List.intercalate_cons_cons, List.append_assoc]
  rfl

/-- The text of some items begins with that of the first. -/
theorem intercalate_map_cons {β : Type} (f : β → List Char) (x : β) (items : List β) :
    ∃ others, [','].intercalate ((x :: items).map f) = f x ++ others := by
  cases items with
  | nil => exact ⟨[], by simp⟩
  | cons y items => exact ⟨_, intercalate_map_cons_cons f x y items⟩

theorem elements_append {items : List (List Char × α)} (hne : items ≠ [])
    (h : ∀ item ∈ items, Reads b item.1 item.2) (rest : List Char) (fuel : Nat)
    (hfuel : ([','].intercalate (items.map Prod.fst)).length + 1 < fuel) :
    elements b fuel ([','].intercalate (items.map Prod.fst) ++ ']' :: rest)
      = some (items.map Prod.snd, rest) := by
  induction items generalizing fuel with
  | nil => exact absurd rfl hne
  | cons item items ih =>
    obtain ⟨fuel, rfl⟩ := Nat.exists_eq_add_one.mpr (Nat.zero_lt_of_lt hfuel)
    have hitem := h item (List.mem_cons_self ..)
    cases items with
    | nil =>
      have hlt : item.1.length < fuel := by
        simpa [List.intercalate_singleton] using Nat.lt_of_succ_lt_succ hfuel
      rw [List.map_cons, List.map_nil, List.intercalate_singleton, elements,
        hitem.value_eq hlt (by decide)]
      rfl
    | cons other items =>
      have hpos := hitem.length_pos
      rw [intercalate_map_cons_cons, List.length_append, List.length_cons] at hfuel
      rw [intercalate_map_cons_cons, List.append_assoc, List.cons_append, elements,
        hitem.value_eq (by omega) (by decide)]
      show (elements b fuel _ >>= _) = _
      rw [ih (by simp) (fun item hmem => h item (List.mem_cons_of_mem _ hmem)) fuel (by omega)]
      rfl

/-- An array of values. -/
theorem Reads.array {items : List (List Char × α)} (h : ∀ item ∈ items, Reads b item.1 item.2) :
    Reads b ('[' :: [','].intercalate (items.map Prod.fst) ++ [']'])
      (b.array (items.map Prod.snd)) := by
  refine ⟨⟨'[', _, rfl, rfl⟩, fun fuel rest hfuel _ => ?_⟩
  obtain ⟨fuel, rfl⟩ := Nat.exists_eq_add_one.mpr (Nat.zero_lt_of_lt hfuel)
  rw [List.append_assoc, List.cons_append, List.singleton_append, value,
    skip_cons_of_not (by decide)]
  cases items with
  | nil => rfl
  | cons item items =>
    obtain ⟨others, hothers⟩ := intercalate_map_cons Prod.fst item items
    have hitem := h item (List.mem_cons_self ..)
    have hskip : skip ([','].intercalate ((item :: items).map Prod.fst) ++ ']' :: rest)
        = [','].intercalate ((item :: items).map Prod.fst) ++ ']' :: rest := by
      rw [hothers, List.append_assoc]
      exact hitem.skip_append _
    have helements := elements_append (by simp) h rest fuel (by
      simp only [List.cons_append, List.length_cons, List.length_append, List.length_nil] at hfuel
      omega)
    obtain ⟨⟨first, tail, htext, hfirst⟩, -⟩ := hitem
    simp only [hskip]
    split
    · next heq =>
      -- a value does not begin with a bracket that closes
      rw [hothers, htext, List.cons_append, List.cons_append] at heq
      rw [(List.cons.inj heq).1] at hfirst
      cases hfirst
    · rw [helements]
      rfl

/-- A member: its name, and its value. -/
def memberText (name text : List Char) : List Char := name ++ ':' :: text

theorem length_memberText (name text : List Char) :
    (memberText name text).length = name.length + text.length + 1 := by
  rw [memberText, List.length_append, List.length_cons]
  omega

/-- The name of a member and its colon are read; its value is next. -/
theorem members_memberText {nameText name : List Char} (h : ReadsString nameText name)
    (text : List Char) (fuel : Nat) (text' : List Char) :
    members b (fuel + 1) (memberText nameText text ++ text') = (do
      let (a, rest) ← value b fuel (text ++ text')
      match skip rest with
      | ',' :: rest => do
        let (others, rest) ← members b fuel rest
        some ((name, a) :: others, rest)
      | '}' :: rest => some ([(name, a)], rest)
      | _ => none) := by
  obtain ⟨body, rfl, hread⟩ := h
  rw [memberText, List.cons_append, List.cons_append, List.append_assoc, List.cons_append,
    members, skip_cons_of_not (by decide)]
  show (stringBody _ >>= _) = _
  rw [hread]
  rfl

theorem members_append {items : List ((List Char × List Char) × List Char × α)}
    (hne : items ≠ [])
    (hname : ∀ item ∈ items, ReadsString item.1.1 item.2.1)
    (hvalue : ∀ item ∈ items, Reads b item.1.2 item.2.2) (rest : List Char) (fuel : Nat)
    (hfuel : ([','].intercalate (items.map fun item => memberText item.1.1 item.1.2)).length + 1
      < fuel) :
    members b fuel ([','].intercalate (items.map fun item => memberText item.1.1 item.1.2)
        ++ '}' :: rest) = some (items.map Prod.snd, rest) := by
  induction items generalizing fuel with
  | nil => exact absurd rfl hne
  | cons item items ih =>
    obtain ⟨fuel, rfl⟩ := Nat.exists_eq_add_one.mpr (Nat.zero_lt_of_lt hfuel)
    obtain ⟨⟨nameText, text⟩, name, a⟩ := item
    have hfirst := members_memberText (b := b) (hname _ (List.mem_cons_self ..)) text fuel
    have ha : Reads b text a := hvalue _ (List.mem_cons_self ..)
    cases items with
    | nil =>
      have hlt : text.length < fuel := by
        simp only [List.map_cons, List.map_nil, List.intercalate_singleton, length_memberText]
          at hfuel
        omega
      rw [List.map_cons, List.map_nil, List.intercalate_singleton, hfirst,
        ha.value_eq hlt (by decide)]
      rfl
    | cons other items =>
      rw [intercalate_map_cons_cons] at hfuel ⊢
      simp only [List.length_append, List.length_cons, length_memberText] at hfuel
      rw [List.append_assoc, List.cons_append, hfirst, ha.value_eq (by omega) (by decide)]
      show (members b fuel _ >>= _) = _
      rw [ih (by simp) (fun item hmem => hname item (List.mem_cons_of_mem _ hmem))
        (fun item hmem => hvalue item (List.mem_cons_of_mem _ hmem)) fuel (by omega)]
      rfl

/-- An object: its members, with their names as strings. -/
theorem Reads.object {items : List ((List Char × List Char) × List Char × α)}
    (hname : ∀ item ∈ items, ReadsString item.1.1 item.2.1)
    (hvalue : ∀ item ∈ items, Reads b item.1.2 item.2.2) :
    Reads b ('{' :: [','].intercalate (items.map fun item => memberText item.1.1 item.1.2) ++ ['}'])
      (b.object (items.map Prod.snd)) := by
  refine ⟨⟨'{', _, rfl, rfl⟩, fun fuel rest hfuel _ => ?_⟩
  obtain ⟨fuel, rfl⟩ := Nat.exists_eq_add_one.mpr (Nat.zero_lt_of_lt hfuel)
  rw [List.append_assoc, List.cons_append, List.singleton_append, value,
    skip_cons_of_not (by decide)]
  cases items with
  | nil => rfl
  | cons item items =>
    obtain ⟨others, hothers⟩ :=
      intercalate_map_cons (fun item => memberText item.1.1 item.1.2) item items
    obtain ⟨body, hbody, -⟩ := hname item (List.mem_cons_self ..)
    have hmembers := members_append (by simp) hname hvalue rest fuel (by
      simp only [List.cons_append, List.length_cons, List.length_append, List.length_nil] at hfuel
      omega)
    -- the text of the members begins with a quote
    rw [hothers, hbody, memberText, List.cons_append, List.cons_append, List.cons_append]
      at hmembers ⊢
    show (members b fuel _ >>= _) = _
    rw [hmembers]
    rfl

end Reader

end Arras4Core.Lib.Json
