/-
  Arras4Core.Lib.Text

  The members of `std::string` that find a character and cut a string, on a list
  of characters, one for a byte.  `std::string::npos` is `none`; it is greater
  than every position.
-/

namespace Arras4Core.Lib.Text

/-- `s.find(c, pos)`. -/
def find (s : List Char) (c : Char) (pos : Nat) : Option Nat :=
  ((s.drop pos).idxOf? c).map (pos + ·)

/-- `s.rfind(c)`. -/
def rfind (s : List Char) (c : Char) : Option Nat :=
  (s.reverse.idxOf? c).map (s.length - 1 - ·)

/-- `s.substr(pos, count)`, at a position that is not past the end. -/
def substr (s : List Char) (pos : Nat) (count : Option Nat := none) : List Char :=
  match count with
  | none => s.drop pos
  | some n => (s.drop pos).take n

/-- The string that a reader of `s.c_str()` sees. -/
def cStr (s : List Char) : List Char := s.takeWhile (· ≠ '\x00')

/-! ## Finding from the left -/

theorem idxOf?_append {c : Char} {u : List Char} (hu : c ∉ u) (t : List Char) :
    (u ++ c :: t).idxOf? c = some u.length := by
  induction u with
  | nil => simp [List.idxOf?_cons]
  | cons d u ih =>
    obtain ⟨hne, hu⟩ := List.ne_and_not_mem_of_not_mem_cons hu
    rw [List.cons_append, List.idxOf?_cons, if_neg (by simp [hne.symm]), ih hu]
    rfl

theorem find_of_not_mem {s : List Char} {c : Char} {pos : Nat} (h : c ∉ s.drop pos) :
    find s c pos = none := by
  rw [find, List.idxOf?_eq_none_iff.mpr h]
  rfl

theorem find_of_drop {s u t : List Char} {c : Char} {pos : Nat} (hs : s.drop pos = u ++ c :: t)
    (hu : c ∉ u) : find s c pos = some (pos + u.length) := by
  rw [find, hs, idxOf?_append hu]
  rfl

/-- The two outcomes of a search: the string ends, or it goes on behind `c`. -/
theorem find_cases (s : List Char) (c : Char) (pos : Nat) :
    (c ∉ s.drop pos ∧ find s c pos = none) ∨
    (∃ u t, s.drop pos = u ++ c :: t ∧ c ∉ u ∧ find s c pos = some (pos + u.length)) := by
  by_cases hmem : c ∈ s.drop pos
  · obtain ⟨u, t, hs, hu⟩ := List.eq_append_cons_of_mem hmem
    exact .inr ⟨u, t, hs, hu, find_of_drop hs hu⟩
  · exact .inl ⟨hmem, find_of_not_mem hmem⟩

theorem length_substr (s : List Char) (pos n : Nat) :
    (substr s pos n).length = min n (s.length - pos) := by
  simp [substr]

theorem not_mem_of_find {s : List Char} {c : Char} {pos : Nat} (h : find s c pos = none) :
    c ∉ s.drop pos := by
  rcases find_cases s c pos with ⟨hmem, -⟩ | ⟨u, t, -, -, hsome⟩
  · exact hmem
  · rw [hsome] at h
    cases h

/-- What stands before and behind the character that is found. -/
theorem of_find {s : List Char} {c : Char} {pos n : Nat} (h : find s c pos = some n) :
    s.drop pos = substr s pos (n - pos) ++ c :: s.drop (n + 1) ∧
    c ∉ substr s pos (n - pos) ∧ pos ≤ n := by
  rcases find_cases s c pos with ⟨-, hnone⟩ | ⟨u, t, hs, hu, hsome⟩
  · rw [hnone] at h
    cases h
  · obtain rfl : pos + u.length = n := Option.some.inj (hsome.symm.trans h)
    have htake : substr s pos (pos + u.length - pos) = u := by
      simp [substr, hs]
    have hdrop : s.drop (pos + u.length + 1) = t := by
      rw [Nat.add_assoc, ← List.drop_drop, hs]
      simp
    rw [htake, hdrop]
    exact ⟨hs, hu, Nat.le_add_right ..⟩

theorem find_lt_length {s : List Char} {c : Char} {pos n : Nat} (h : find s c pos = some n) :
    pos ≤ n ∧ n < s.length := by
  obtain ⟨hs, -, hle⟩ := of_find h
  have hlen : (s.drop pos).length = _ := congrArg List.length hs
  simp only [List.length_append, List.length_cons, length_substr, List.length_drop] at hlen
  omega

/-! ## Finding from the right -/

theorem rfind_of_not_mem {s : List Char} {c : Char} (h : c ∉ s) : rfind s c = none := by
  rw [rfind, List.idxOf?_eq_none_iff.mpr (by simpa using h)]
  rfl

/-- The last place a character stands at. -/
theorem eq_append_last {s : List Char} {c : Char} (h : c ∈ s) :
    ∃ u t, s = u ++ c :: t ∧ c ∉ t := by
  obtain ⟨t, u, hs, ht⟩ := List.eq_append_cons_of_mem (List.mem_reverse.mpr h)
  refine ⟨u.reverse, t.reverse, ?_, by simpa using ht⟩
  rw [← List.reverse_reverse s, hs]
  simp

theorem rfind_append {c : Char} (u : List Char) {t : List Char} (ht : c ∉ t) :
    rfind (u ++ c :: t) c = some u.length := by
  have hrev : (u ++ c :: t).reverse = t.reverse ++ c :: u.reverse := by simp
  have hlen : (u ++ c :: t).length - 1 - t.reverse.length = u.length := by
    simp only [List.length_append, List.length_cons, List.length_reverse]
    omega
  rw [rfind, hrev, idxOf?_append (by simpa using ht), Option.map_some, hlen]

/-! ## Lists with separators -/

theorem mem_intercalate {c separator : Char} {parts : List (List Char)}
    (h : c ∈ [separator].intercalate parts) : c = separator ∨ ∃ part ∈ parts, c ∈ part := by
  induction parts with
  | nil => cases h
  | cons part parts ih =>
    cases parts with
    | nil => exact .inr ⟨part, List.mem_cons_self .., by simpa using h⟩
    | cons next parts =>
      rw [List.intercalate_cons_cons, List.mem_append, List.mem_append, List.mem_singleton] at h
      rcases h with (hpart | hsep) | hrest
      · exact .inr ⟨part, List.mem_cons_self .., hpart⟩
      · exact .inl hsep
      · rcases ih hrest with hsep | ⟨other, hother, hc⟩
        · exact .inl hsep
        · exact .inr ⟨other, List.mem_cons_of_mem _ hother, hc⟩

/-! ## The string behind `c_str` -/

theorem cStr_append {s : List Char} (h : '\x00' ∉ s) (t : List Char) :
    cStr (s ++ t) = s ++ cStr t := by
  refine List.takeWhile_append_of_pos fun c hc => ?_
  have hne : c ≠ '\x00' := fun heq => h (heq ▸ hc)
  simpa using hne

theorem cStr_of_not_mem {s : List Char} (h : '\x00' ∉ s) : cStr s = s := by
  have happend := cStr_append h []
  rwa [List.append_nil, show cStr [] = [] from rfl, List.append_nil] at happend

/-- A zero that is written behind a string changes nothing. -/
theorem cStr_append_nul (s : List Char) : cStr (s ++ ['\x00']) = cStr s := by
  induction s with
  | nil => rfl
  | cons c s ih =>
    by_cases hc : c = '\x00'
    · simp [cStr, hc]
    · simpa [cStr, hc] using ih

end Arras4Core.Lib.Text
