/-
  Arras4Core.Lib.Shell

  The words of a shell command, by the shell's rules of quoting: blanks end a
  word, a backslash and both kinds of quotes keep the characters of a word as
  they are, `#` begins a comment where a word may begin, and `&&` is a token of
  its own.

  The other characters that have to be quoted to stand for themselves begin an
  expansion, a redirection or another command.  A text that has one of these
  outside of quotes, that ends in quotes or behind a backslash, or that has a
  zero is not a list of words.  What the shell makes of the words later (the
  patterns of file names, for instance) is not part of this.
-/

namespace Arras4Core.Lib.Shell

inductive Token
  | word (w : List Char)
  | andIf
  deriving DecidableEq

/-- What the characters before make of the next one. -/
inductive Mode
  | unquoted
  | escaped
  | single
  | double
  | doubleEscaped
  | ampersand
  | comment
  deriving DecidableEq

def singleQuote : Char := '\x27'
def doubleQuote : Char := '\x22'
def backslash : Char := '\x5c'
def backquote : Char := '\x60'

def isBlank (c : Char) : Bool := c = ' ' || c = '\t'

/-- The characters that begin something else than a word. -/
def isSpecial (c : Char) : Bool :=
  c ∈ ['|', ';', '<', '>', '(', ')', '$', backquote, '\n', '\x00']

/-- The characters that stand for themselves everywhere in a word but, for `#`, at
    its begin. -/
def isPlain (c : Char) : Bool :=
  !isSpecial c && !isBlank c && !(c ∈ ['&', singleQuote, doubleQuote, backslash])

/-- One character: a token that it ends, and the mode and the word that go on. -/
def next (mode : Mode) (word : Option (List Char)) (c : Char) :
    Option (Option Token × Mode × Option (List Char)) :=
  let w := word.getD []
  if c = '\x00' then none
  else
    match mode with
    | .unquoted =>
      if isSpecial c then none
      else if isBlank c then some (word.map .word, .unquoted, none)
      else if c = '&' then some (word.map .word, .ampersand, none)
      else if c = singleQuote then some (none, .single, some w)
      else if c = doubleQuote then some (none, .double, some w)
      else if c = backslash then some (none, .escaped, word)
      else if c = '#' ∧ word = none then some (none, .comment, none)
      else some (none, .unquoted, some (w ++ [c]))
    | .escaped =>
      -- a newline behind a backslash is no character
      if c = '\n' then some (none, .unquoted, word)
      else some (none, .unquoted, some (w ++ [c]))
    | .single =>
      if c = singleQuote then some (none, .unquoted, some w)
      else some (none, .single, some (w ++ [c]))
    | .double =>
      if c = doubleQuote then some (none, .unquoted, some w)
      else if c = backslash then some (none, .doubleEscaped, some w)
      else if c = '$' ∨ c = backquote then none
      else some (none, .double, some (w ++ [c]))
    | .doubleEscaped =>
      if c = '\n' then some (none, .double, some w)
      -- before all other characters the backslash stays
      else if c ∈ ['$', backquote, doubleQuote, backslash] then
        some (none, .double, some (w ++ [c]))
      else some (none, .double, some (w ++ [backslash, c]))
    | .ampersand => if c = '&' then some (some .andIf, .unquoted, none) else none
    | .comment => if c = '\n' then none else some (none, .comment, none)

def finish (mode : Mode) (word : Option (List Char)) : Option (List Token) :=
  match mode with
  | .unquoted => some (word.map .word).toList
  | .comment => some []
  | _ => none

def lex (mode : Mode) (word : Option (List Char)) : List Char → Option (List Token)
  | [] => finish mode word
  | c :: cs =>
    (next mode word c).bind fun (token, mode', word') =>
      (lex mode' word' cs).map (token.toList ++ ·)

/-- The tokens of a text. -/
def tokens (text : List Char) : Option (List Token) := lex .unquoted none text

/-- The text `head` has the tokens `front`, and what stands behind it is read as if
    it stood alone. -/
def Complete (head : List Char) (front : List Token) : Prop :=
  ∀ rest, tokens (head ++ rest) = (tokens rest).map (front ++ ·)

/-- A word that needs no quoting. -/
structure Plain (w : List Char) : Prop where
  ne_nil : w ≠ []
  all : ∀ c ∈ w, isPlain c = true
  head : w.head? ≠ some '#'

theorem Plain.append {u v : List Char} (hu : Plain u) (hv : ∀ c ∈ v, isPlain c = true) :
    Plain (u ++ v) := by
  refine ⟨by simp [hu.ne_nil], ?_, ?_⟩
  · intro c hc
    rcases List.mem_append.mp hc with hc | hc
    · exact hu.all c hc
    · exact hv c hc
  · obtain ⟨d, u, rfl⟩ := List.exists_cons_of_ne_nil hu.ne_nil
    exact hu.head

theorem Plain.toList_append {s t : String} (hs : Plain s.toList)
    (ht : ∀ c ∈ t.toList, isPlain c = true) : Plain (s ++ t).toList :=
  String.toList_append ▸ hs.append ht

/-! ## Plain words are read as they stand -/

theorem of_isPlain {c : Char} (h : isPlain c = true) :
    c ≠ '\x00' ∧ isSpecial c = false ∧ isBlank c = false ∧ c ≠ '&' ∧ c ≠ singleQuote ∧
      c ≠ doubleQuote ∧ c ≠ backslash := by
  simp only [isPlain, Bool.and_eq_true, Bool.not_eq_true', decide_eq_false_iff_not,
    List.mem_cons, List.not_mem_nil, or_false, not_or] at h
  obtain ⟨⟨hspecial, hblank⟩, hamp, hsingle, hdouble, hback⟩ := h
  refine ⟨?_, hspecial, hblank, hamp, hsingle, hdouble, hback⟩
  rintro rfl
  simp [isSpecial] at hspecial

theorem next_plain {c : Char} (h : isPlain c = true) {word : Option (List Char)}
    (hcomment : ¬ (c = '#' ∧ word = none)) :
    next .unquoted word c = some (none, .unquoted, some (word.getD [] ++ [c])) := by
  obtain ⟨hzero, hspecial, hblank, hamp, hsingle, hdouble, hback⟩ := of_isPlain h
  simp [next, hzero, hspecial, hblank, hamp, hsingle, hdouble, hback, hcomment]

theorem lex_append_plain {w : List Char} (h : ∀ c ∈ w, isPlain c = true) (u rest : List Char) :
    lex .unquoted (some u) (w ++ rest) = lex .unquoted (some (u ++ w)) rest := by
  induction w generalizing u with
  | nil => rw [List.nil_append, List.append_nil]
  | cons c w ih =>
    obtain ⟨hc, hw⟩ := List.forall_mem_cons.mp h
    have hnext : next .unquoted (some u) c = _ := next_plain hc (by simp)
    simp only [List.cons_append, lex, hnext, Option.bind_some, Option.getD_some, Option.toList_none,
      List.nil_append, Option.map_id', ih hw, List.append_assoc]

theorem lex_plain {w : List Char} (h : Plain w) (rest : List Char) :
    tokens (w ++ rest) = lex .unquoted (some w) rest := by
  obtain ⟨c, w, rfl⟩ := List.exists_cons_of_ne_nil h.ne_nil
  obtain ⟨hc, hw⟩ := List.forall_mem_cons.mp h.all
  have hhead : c ≠ '#' := by simpa using h.head
  have hnext : next .unquoted none c = _ := next_plain hc (by simp [hhead])
  simp only [tokens, List.cons_append, lex, hnext, Option.bind_some, Option.getD_none,
    List.nil_append, Option.toList_none, Option.map_id', lex_append_plain hw]

theorem tokens_plain {w : List Char} (h : Plain w) : tokens w = some [.word w] := by
  have hlex := lex_plain h []
  rwa [List.append_nil] at hlex

theorem next_blank (word : Option (List Char)) :
    next .unquoted word ' ' = some (word.map .word, .unquoted, none) := by
  simp [next, isSpecial, isBlank, backquote]

theorem complete_plain {w : List Char} (h : Plain w) : Complete (w ++ [' ']) [.word w] := by
  intro rest
  rw [List.append_assoc, lex_plain h, List.singleton_append]
  simp only [lex, next_blank, Option.bind_some, Option.map_some, Option.toList_some, tokens]

theorem complete_andIf : Complete ['&', '&', ' '] [.andIf] := by
  intro rest
  have hfirst : next .unquoted none '&' = some (none, .ampersand, none) := by decide
  have hsecond : next .ampersand none '&' = some (some .andIf, .unquoted, none) := by decide
  simp only [tokens, List.cons_append, List.nil_append, lex, hfirst, hsecond, next_blank,
    Option.bind_some, Option.map_map, Option.map_none, Option.toList_none, Option.toList_some]
  rfl

theorem Complete.append {head head' : List Char} {front front' : List Token}
    (h : Complete head front) (h' : Complete head' front') :
    Complete (head ++ head') (front ++ front') := by
  intro rest
  rw [List.append_assoc, h, h', Option.map_map]
  simp only [Function.comp_def, List.append_assoc]

theorem Complete.tokens_eq {head : List Char} {front : List Token} (h : Complete head front) :
    tokens head = some front := by
  have hnil := h []
  rwa [List.append_nil, show tokens [] = some [] from rfl, Option.map_some,
    List.append_nil] at hnil

theorem Complete.initial {head more : List Char} {front front' : List Token}
    (h : Complete head front) (h' : Complete (head ++ more) front') : front <+: front' := by
  have htokens := h'.tokens_eq
  rw [h more] at htokens
  obtain ⟨ts, -, rfl⟩ := Option.map_eq_some_iff.mp htokens
  exact List.prefix_append front ts

/-- The first tokens of a text are known from the text. -/
theorem Complete.unique {head₁ head₂ rest₁ rest₂ : List Char} {front₁ front₂ : List Token}
    (h₁ : Complete head₁ front₁) (h₂ : Complete head₂ front₂)
    (htext : head₁ ++ rest₁ = head₂ ++ rest₂) (hlen : front₁.length = front₂.length) :
    front₁ = front₂ := by
  rcases List.append_eq_append_iff.mp htext with ⟨more, rfl, -⟩ | ⟨more, rfl, -⟩
  · exact (h₁.initial h₂).eq_of_length hlen
  · exact ((h₂.initial h₁).eq_of_length hlen.symm).symm

/-! ## No other words are

A token is as long as its word and the blank behind it.  Quoting takes
characters that are not in the word, so only a text without any is as long as
its tokens. -/

def Token.weight : Token → Nat
  | .word w => w.length + 1
  | .andIf => 0

def weight : List Token → Nat
  | [] => 0
  | t :: ts => t.weight + weight ts

theorem weight_append (ts us : List Token) : weight (ts ++ us) = weight ts + weight us := by
  induction ts with
  | nil => rw [List.nil_append, weight, Nat.zero_add]
  | cons t ts ih =>
    rw [List.cons_append, weight, weight, ih]
    omega

/-- The weight of words is that of the text with a blank before each of them. -/
theorem weight_words (ws : List (List Char)) :
    weight (ws.map .word) = (ws.flatMap (' ' :: ·)).length := by
  induction ws with
  | nil => rfl
  | cons w ws ih =>
    rw [List.map_cons, weight, ih, List.flatMap_cons, List.length_append, List.length_cons,
      Token.weight]

/-- What the word that has begun may add to the weight. -/
def pending (mode : Mode) (word : Option (List Char)) : Nat :=
  match mode with
  | .unquoted | .escaped | .doubleEscaped => (word.getD []).length + 1
  | .single | .double => (word.getD []).length
  | .ampersand | .comment => 0

/-- Where a character without quotes goes: it has a meaning of its own, it is a blank
    or a plain one, or it quotes. -/
theorem next_unquoted {mode' : Mode} {word word' : Option (List Char)} {c : Char}
    {token : Option Token} (h : next .unquoted word c = some (token, mode', word')) :
    (isBlank c = true ∧ token = word.map .word ∧ mode' = .unquoted ∧ word' = none) ∨
    (isPlain c = true ∧ ¬ (c = '#' ∧ word = none) ∧ token = none ∧ mode' = .unquoted ∧
      word' = some (word.getD [] ++ [c])) ∨
    weight token.toList + pending mode' word' ≤ pending .unquoted word := by
  simp only [next] at h
  split at h
  · cases h
  split at h
  · cases h
  next hzero hspecial =>
  split at h
  next hblank =>
    cases h
    exact .inl ⟨hblank, rfl, rfl, rfl⟩
  next hblank =>
  right
  split at h
  · -- `&` ends the word, and has no weight
    cases h
    right
    cases word <;> simp [weight, Token.weight, pending]
  next hamp =>
  split at h
  · cases h
    right
    simp [weight, pending]
  next hsingle =>
  split at h
  · cases h
    right
    simp [weight, pending]
  next hdouble =>
  split at h
  · cases h
    right
    simp [weight, pending]
  next hback =>
  split at h
  · cases h
    right
    simp [weight, pending]
  next hcomment =>
  cases h
  left
  refine ⟨?_, hcomment, rfl, rfl, rfl⟩
  simp [isPlain, hspecial, hblank, hamp, hsingle, hdouble, hback]

theorem weight_next {mode mode' : Mode} {word word' : Option (List Char)} {c : Char}
    {token : Option Token} (h : next mode word c = some (token, mode', word')) :
    weight token.toList + pending mode' word' ≤ pending mode word + 1 := by
  cases mode with
  | unquoted =>
    rcases next_unquoted h with ⟨-, rfl, rfl, rfl⟩ | ⟨-, -, rfl, rfl, rfl⟩ | hle
    · cases word <;> simp [weight, Token.weight, pending]
    · simp [weight, pending]
    · omega
  | escaped =>
    simp only [next] at h
    split at h
    · cases h
    split at h <;> cases h <;> simp [weight, pending]
  | single =>
    simp only [next] at h
    split at h
    · cases h
    split at h <;> cases h <;> simp [weight, pending]
  | double =>
    simp only [next] at h
    split at h
    · cases h
    split at h
    · cases h
      simp [weight, pending]
    split at h
    · cases h
      simp [weight, pending]
    split at h <;> cases h
    simp [weight, pending]
  | doubleEscaped =>
    simp only [next] at h
    split at h
    · cases h
    split at h
    · cases h
      simp only [Option.toList_none, weight, pending, Option.getD_some]
      omega
    split at h <;> cases h <;> simp [weight, pending]
  | ampersand =>
    simp only [next] at h
    split at h
    · cases h
    split at h <;> cases h
    simp [weight, Token.weight, pending]
  | comment =>
    simp only [next] at h
    split at h
    · cases h
    split at h <;> cases h
    simp [weight, pending]

theorem of_lex_cons {mode : Mode} {word : Option (List Char)} {c : Char} {cs : List Char}
    {ts : List Token} (h : lex mode word (c :: cs) = some ts) :
    ∃ token mode' word' us, next mode word c = some (token, mode', word') ∧
      lex mode' word' cs = some us ∧ ts = token.toList ++ us := by
  obtain ⟨⟨token, mode', word'⟩, hnext, hrest⟩ := Option.bind_eq_some_iff.mp h
  obtain ⟨us, hus, rfl⟩ := Option.map_eq_some_iff.mp hrest
  exact ⟨token, mode', word', us, hnext, hus, rfl⟩

theorem weight_lex {mode : Mode} {word : Option (List Char)} {text : List Char} {ts : List Token}
    (h : lex mode word text = some ts) : weight ts ≤ pending mode word + text.length := by
  induction text generalizing mode word ts with
  | nil =>
    cases mode with
    | unquoted =>
      cases h
      cases word <;> simp [weight, Token.weight, pending]
    | comment =>
      cases h
      simp [weight]
    | escaped => cases h
    | single => cases h
    | double => cases h
    | doubleEscaped => cases h
    | ampersand => cases h
  | cons c cs ih =>
    obtain ⟨token, mode', word', us, hnext, hrest, rfl⟩ := of_lex_cons h
    have hstep := weight_next hnext
    have hrun := ih hrest
    rw [weight_append, List.length_cons]
    omega

/-- A text that is as long as its tokens has plain words only. -/
theorem plain_of_weight {word : Option (List Char)} {text : List Char} {ts : List Token}
    (hword : ∀ w, word = some w → Plain w) (h : lex .unquoted word text = some ts)
    (hweight : weight ts = pending .unquoted word + text.length) :
    ∀ t ∈ ts, ∃ w, t = .word w ∧ Plain w := by
  induction text generalizing word ts with
  | nil =>
    cases h
    cases word with
    | none => simp [weight, pending] at hweight
    | some w => simpa using hword w rfl
  | cons c cs ih =>
    obtain ⟨token, mode', word', us, hnext, hrest, rfl⟩ := of_lex_cons h
    rw [weight_append, List.length_cons] at hweight
    have hrun := weight_lex hrest
    rcases next_unquoted hnext with ⟨-, rfl, rfl, rfl⟩ | ⟨hc, hcomment, rfl, rfl, rfl⟩ | hle
    · cases word with
      | none =>
        -- a blank that ends no word is one too many
        simp only [Option.map_none, Option.toList_none, weight, pending, Option.getD_none,
          List.length_nil] at hweight hrun
        omega
      | some w =>
        have hus := ih (by simp) hrest (by
          simp only [Option.map_some, Option.toList_some, weight, Token.weight, pending,
            Option.getD_some, Option.getD_none, List.length_nil] at hweight ⊢
          omega)
        intro t ht
        rcases List.mem_cons.mp ht with rfl | ht
        · exact ⟨w, rfl, hword w rfl⟩
        · exact hus t ht
    · have hplain : Plain (word.getD [] ++ [c]) := by
        cases word with
        | none => exact ⟨by simp, by simpa using hc, by simpa using hcomment⟩
        | some w => exact (hword w rfl).append (by simpa using hc)
      have hus := ih (fun w hw => Option.some.inj hw ▸ hplain) hrest (by
        simp only [Option.toList_none, weight, pending, Option.getD_some, List.length_append,
          List.length_singleton] at hweight ⊢
        omega)
      simpa using hus
    · omega

/-! ## Words behind one another -/

/-- **A list of words that are written with a blank between them** is read back if and
    only if none of them needs quoting. -/
theorem tokens_words {w : List Char} {ws : List (List Char)} :
    tokens (w ++ ws.flatMap (' ' :: ·)) = some ((w :: ws).map .word) ↔ ∀ v ∈ w :: ws, Plain v := by
  constructor
  · intro h
    have hlen : weight ((w :: ws).map .word) = 1 + (w ++ ws.flatMap (' ' :: ·)).length := by
      rw [weight_words, List.flatMap_cons, List.length_append, List.length_append,
        List.length_cons]
      omega
    intro v hv
    obtain ⟨v', heq, hplain⟩ :=
      plain_of_weight (by simp) h hlen (.word v) (List.mem_map_of_mem hv)
    exact Token.word.inj heq ▸ hplain
  · intro h
    induction ws generalizing w with
    | nil => simpa using tokens_plain (h w (List.mem_cons_self ..))
    | cons v vs ih =>
      obtain ⟨hw, hvs⟩ := List.forall_mem_cons.mp h
      have hrest := complete_plain hw (v ++ vs.flatMap (' ' :: ·))
      rw [ih hvs] at hrest
      simpa using hrest

end Arras4Core.Lib.Shell
