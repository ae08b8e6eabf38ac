/-
  Arras4Core.Shared.ProcList

  Lists of processor ids, as "0,2,5", and sets of them, `cpu_set_t`:
  `procListToCpuSet` and `cpuSetToProcList`.

  The parser advances by the printed length of the number that `std::stoi` has read.
  With a leading zero this is less than what was read, and the parser then meets a
  digit where a comma should be.
-/

import Arras4Core.Lib.Scan
import Arras4Core.Lib.Text
import Mathlib.Data.Fintype.Card

namespace Arras4Core.Shared

open Arras4Core.Lib
open Arras4Core.Lib.Text (substr)

/-- `cpu_set_t`, with CPU_SETSIZE = 1024. -/
abbrev CpuSet := Finset (Fin 1024)

/-! ## The functions -/

/-- `std::out_of_range`, which `at` throws. -/
inductive OutOfRange
  | outOfRange
  deriving DecidableEq

/-- `s.at(pos)`. -/
def charAt (s : List Char) (pos : Nat) : Except OutOfRange Char :=
  match s[pos]? with
  | some c => .ok c
  | none => .error .outOfRange

/-- The loop of `procListToCpuSet`, at `index`.  The result is the value that is
    returned and what `cpuSet` holds then. -/
def procListFrom (procList : List Char) (requiredCount : UInt32) (index : Nat) (cpuSet : CpuSet)
    (count : UInt32) : Except OutOfRange (Bool × CpuSet) :=
  match charAt procList index with
  | .error e => .error e
  | .ok c =>
    if !c.isDigit then .ok (false, cpuSet)
    else
      match Scan.stoi (substr procList index) with
      | none => .ok (false, cpuSet)
      | some processor =>
        if hrange : processor < 0 ∨ processor ≥ 1024 then .ok (false, cpuSet)
        else
          let cpuSet := insert ⟨processor.toNat, by omega⟩ cpuSet
          let count := count + 1
          let comma := index + (Nat.toDigits 10 processor.toNat).length
          if comma = procList.length then .ok (count = requiredCount, cpuSet)
          else
            match charAt procList comma with
            | .error e => .error e
            | .ok c =>
              if c ≠ ',' then .ok (false, cpuSet)
              else if comma + 1 ≥ procList.length then .ok (false, cpuSet)
              else procListFrom procList requiredCount (comma + 1) cpuSet count
termination_by procList.length - index
decreasing_by omega

def procListToCpuSet (procList : List Char) (requiredCount : UInt32) :
    Except OutOfRange (Bool × CpuSet) :=
  if procList.length = 0 then .ok (false, ∅)
  else procListFrom procList requiredCount 0 ∅ 0

def cpuSetToProcList (cpuSet : CpuSet) : List Char :=
  (List.finRange 1024).foldl
    (fun ret i =>
      if i ∈ cpuSet then (if ret ≠ [] then ret ++ [','] else ret) ++ Nat.toDigits 10 i
      else ret)
    []

/-! ## The grammar -/

/-- The list with these entries. -/
def procListText (entries : List (Fin 1024)) : List Char :=
  [','].intercalate (entries.map fun i : Fin 1024 => Nat.toDigits 10 i)

/-- A non-empty comma-separated list of the numbers 0 to 1023 without leading zeros. -/
def IsProcList (procList : List Char) (entries : List (Fin 1024)) : Prop :=
  entries ≠ [] ∧ procList = procListText entries

/-- The parser does as it should on this list: it returns, it returns true just if the
    list is in the grammar and has `requiredCount` distinct entries, and then it has set
    these. -/
def Parses (procList : List Char) (requiredCount : UInt32) : Prop :=
  ∃ accepted cpuSet, procListToCpuSet procList requiredCount = .ok (accepted, cpuSet) ∧
    (accepted = true ↔
      ∃ entries, IsProcList procList entries ∧ entries.toFinset.card = requiredCount.toNat) ∧
    (accepted = true → ∀ entries, IsProcList procList entries → cpuSet = entries.toFinset)

/-! ## The numbers of a list -/

/-- The string is a number of the range without leading zeros, and `tail`. -/
def StartsWith (rest : List Char) (i : Fin 1024) (tail : List Char) : Prop :=
  rest = Nat.toDigits 10 i ++ tail ∧ tail.takeWhile Char.isDigit = []

theorem takeWhile_of_startsWith {rest tail : List Char} {i : Fin 1024}
    (h : StartsWith rest i tail) : rest.takeWhile Char.isDigit = Nat.toDigits 10 i := by
  rw [h.1, List.takeWhile_append_of_pos fun c hc => isDigit_of_mem_toDigits hc, h.2,
    List.append_nil]

theorem startsWith_unique {rest tail tail' : List Char} {i i' : Fin 1024}
    (h : StartsWith rest i tail) (h' : StartsWith rest i' tail') : i = i' ∧ tail = tail' := by
  have hdigits : Nat.toDigits 10 i = Nat.toDigits 10 i' := by
    rw [← takeWhile_of_startsWith h, takeWhile_of_startsWith h']
  have hi : i = i' := by
    apply Fin.ext
    rw [← Nat.ofDigitChars_ten_toDigits (n := i), hdigits, Nat.ofDigitChars_ten_toDigits]
  refine ⟨hi, List.append_cancel_left (h.1.symm.trans ?_)⟩
  rw [h'.1, hdigits]

/-- What stands behind the first entry. -/
def behind (entries : List (Fin 1024)) : List Char :=
  if entries = [] then [] else ',' :: procListText entries

theorem procListText_cons (i : Fin 1024) (entries : List (Fin 1024)) :
    procListText (i :: entries) = Nat.toDigits 10 i ++ behind entries := by
  unfold behind procListText
  cases entries with
  | nil => simp
  | cons j entries => simp

theorem startsWith_procListText (i : Fin 1024) (entries : List (Fin 1024)) :
    StartsWith (procListText (i :: entries)) i (behind entries) := by
  refine ⟨procListText_cons i entries, ?_⟩
  unfold behind
  split
  · rfl
  · exact List.takeWhile_cons_of_neg (by decide)

theorem procListText_ne_nil {entries : List (Fin 1024)} (hne : entries ≠ []) :
    procListText entries ≠ [] := by
  obtain ⟨i, entries, rfl⟩ := List.exists_cons_of_ne_nil hne
  rw [procListText_cons]
  simp

/-- A list of the grammar is read from the left. -/
theorem isProcList_iff {rest tail : List Char} {i : Fin 1024} (h : StartsWith rest i tail)
    (entries : List (Fin 1024)) :
    IsProcList rest entries ↔
      ∃ more, entries = i :: more ∧ tail = behind more := by
  constructor
  · rintro ⟨hne, rfl⟩
    obtain ⟨j, more, rfl⟩ := List.exists_cons_of_ne_nil hne
    obtain ⟨rfl, rfl⟩ := startsWith_unique h (startsWith_procListText j more)
    exact ⟨more, rfl, rfl⟩
  · rintro ⟨more, rfl, rfl⟩
    exact ⟨List.cons_ne_nil _ _, by rw [h.1, procListText_cons]⟩

theorem isProcList_iff_of_cons {rest tail : List Char} {i : Fin 1024} {c : Char}
    (h : StartsWith rest i (c :: tail)) (entries : List (Fin 1024)) :
    IsProcList rest entries ↔ ∃ more, entries = i :: more ∧ c = ',' ∧ IsProcList tail more := by
  rw [isProcList_iff h]
  constructor
  · rintro ⟨more, rfl, hbehind⟩
    unfold behind at hbehind
    split at hbehind
    · cases hbehind
    · next hne =>
      cases hbehind
      exact ⟨more, rfl, rfl, hne, rfl⟩
  · rintro ⟨more, rfl, rfl, hne, rfl⟩
    exact ⟨more, rfl, (if_neg hne).symm⟩

theorem isProcList_unique {procList : List Char} {entries entries' : List (Fin 1024)}
    (h : IsProcList procList entries) (h' : IsProcList procList entries') : entries = entries' := by
  induction entries generalizing procList entries' with
  | nil => exact absurd rfl h.1
  | cons i more ih =>
    have hstart : StartsWith procList i (behind more) := by
      rw [h.2]
      exact startsWith_procListText i more
    obtain ⟨more', rfl, hbehind⟩ := (isProcList_iff hstart entries').mp h'
    unfold behind at hbehind
    split at hbehind <;> split at hbehind
    · next hnil hnil' => rw [hnil, hnil']
    · cases hbehind
    · cases hbehind
    · next hne hne' =>
      rw [ih ⟨hne, rfl⟩ ⟨hne', (List.cons.inj hbehind).2⟩]

theorem exists_startsWith {rest : List Char} {entries : List (Fin 1024)}
    (h : IsProcList rest entries) : ∃ i tail, StartsWith rest i tail := by
  obtain ⟨hne, rfl⟩ := h
  obtain ⟨i, more, rfl⟩ := List.exists_cons_of_ne_nil hne
  exact ⟨i, _, startsWith_procListText i more⟩

/-! ## A round of the parser -/

theorem charAt_append {s u t : List Char} {c : Char} {pos : Nat}
    (h : s.drop pos = u ++ c :: t) : charAt s (pos + u.length) = .ok c := by
  have hget : s[pos + u.length]? = some c := by
    rw [← List.getElem?_drop, h]
    simp
  rw [charAt, hget]

/-- The number at the front, as `stoi` reads it. -/
theorem stoi_of_startsWith {rest tail : List Char} {i : Fin 1024} (h : StartsWith rest i tail) :
    Scan.stoi rest = some ((i : Nat) : Int) := by
  obtain ⟨c, cs, hcs, hc⟩ := toDigits_eq_cons i
  have htake := takeWhile_of_startsWith h
  have hrest : rest = c :: (cs ++ tail) := by rw [h.1, hcs, List.cons_append]
  rw [hrest] at htake ⊢
  rw [Scan.stoi_of_isDigit hc, htake, Nat.ofDigitChars_ten_toDigits, if_pos (by omega)]

/-- How a round ends, by what stands behind its number. -/
def endRound (procList : List Char) (requiredCount : UInt32) (comma : Nat) (cpuSet : CpuSet)
    (count : UInt32) : List Char → Except OutOfRange (Bool × CpuSet)
  | [] => .ok (count = requiredCount, cpuSet)
  | c :: rest =>
    if c ≠ ',' ∨ rest = [] then .ok (false, cpuSet)
    else procListFrom procList requiredCount (comma + 1) cpuSet count

/-- A round at a number: the list ends, or a comma and more follow. -/
theorem procListFrom_of_startsWith {procList tail : List Char} {i : Fin 1024} {index : Nat}
    (h : StartsWith (procList.drop index) i tail) (requiredCount : UInt32) (cpuSet : CpuSet)
    (count : UInt32) :
    procListFrom procList requiredCount index cpuSet count =
      endRound procList requiredCount (index + (Nat.toDigits 10 i).length) (insert i cpuSet)
        (count + 1) tail := by
  obtain ⟨c, cs, hcs, hc⟩ := toDigits_eq_cons i
  have hhead : charAt procList index = .ok c := by
    apply charAt_append (u := [])
    rw [h.1, hcs]
    rfl
  have hlen : procList.length - index = (Nat.toDigits 10 i).length + tail.length := by
    rw [← List.length_drop, h.1, List.length_append]
  have hpos : 0 < (Nat.toDigits 10 i).length := Nat.length_toDigits_pos
  have hstoi : Scan.stoi (substr procList index) = some ((i : Nat) : Int) := stoi_of_startsWith h
  rw [procListFrom]
  simp only [hhead, hc, hstoi, Bool.not_true, Bool.false_eq_true, if_false]
  rw [dif_neg (by omega)]
  simp only [Int.toNat_natCast, Fin.eta]
  cases tail with
  | nil =>
    rw [if_pos (by rw [List.length_nil] at hlen; omega)]
    rfl
  | cons d rest =>
    rw [List.length_cons] at hlen
    have hcomma : charAt procList (index + (Nat.toDigits 10 i).length) = .ok d :=
      charAt_append h.1
    rw [if_neg (by omega), hcomma]
    by_cases hd : d = ','
    · cases rest with
      | nil =>
        rw [List.length_nil] at hlen
        simp only [endRound, hd]
        rw [if_neg (by simp), if_pos (by omega), if_pos (by simp)]
      | cons e rest =>
        rw [List.length_cons] at hlen
        simp only [endRound, hd]
        rw [if_neg (by simp), if_neg (by omega), if_neg (by simp)]
    · simp only [endRound]
      rw [if_pos hd, if_pos (.inl hd)]

theorem takeWhile_dropWhile (p : Char → Bool) (s : List Char) :
    (s.dropWhile p).takeWhile p = [] := by
  have hhead := List.head?_dropWhile_not p s
  cases hdrop : s.dropWhile p with
  | nil => rfl
  | cons c rest =>
    rw [hdrop] at hhead
    exact List.takeWhile_cons_of_neg (by simpa using hhead)

/-- Behind the printed length of a number with leading zeros stands one of its
    digits. -/
theorem charAt_of_not_startsWith {procList digits tail : List Char} {index : Nat}
    (hdrop : procList.drop index = digits ++ tail)
    (hdigits : ∀ c ∈ digits, c.isDigit = true) (hne : digits ≠ [])
    (htail : tail.takeWhile Char.isDigit = [])
    (hrange : Nat.ofDigitChars 10 digits 0 < 1024)
    (h : ∀ i tail, ¬ StartsWith (procList.drop index) i tail) :
    ∃ d, charAt procList (index + (Nat.toDigits 10 (Nat.ofDigitChars 10 digits 0)).length) = .ok d ∧
      d.isDigit = true := by
  generalize hn : Nat.ofDigitChars 10 digits 0 = n at hrange
  have hshort : (Nat.toDigits 10 n).length < digits.length := by
    rcases Nat.lt_or_ge (Nat.toDigits 10 n).length digits.length with hlt | hge
    · exact hlt
    · -- it would be the number itself
      have hnumber := Scan.eq_toDigits_of_length hdigits hne (by rw [hn]; exact hge)
      rw [hn] at hnumber
      exact absurd ⟨by rw [hdrop, hnumber], htail⟩ (h ⟨n, hrange⟩ tail)
  refine ⟨digits[(Nat.toDigits 10 n).length], ?_, hdigits _ (List.getElem_mem _)⟩
  have hsplit : digits = digits.take (Nat.toDigits 10 n).length ++
      digits[(Nat.toDigits 10 n).length] :: digits.drop ((Nat.toDigits 10 n).length + 1) := by
    rw [List.getElem_cons_drop, List.take_append_drop]
  have hlen : (digits.take (Nat.toDigits 10 n).length).length = (Nat.toDigits 10 n).length := by
    rw [List.length_take, Nat.min_eq_left (Nat.le_of_lt hshort)]
  have hat : charAt procList (index + (digits.take (Nat.toDigits 10 n).length).length)
      = .ok digits[(Nat.toDigits 10 n).length] :=
    charAt_append (t := digits.drop ((Nat.toDigits 10 n).length + 1) ++ tail)
      (by rw [hdrop, ← List.cons_append, ← List.append_assoc, ← hsplit])
  rwa [hlen] at hat

/-- Any other round ends the loop. -/
theorem procListFrom_of_not_startsWith {procList : List Char} {index : Nat}
    (hlt : index < procList.length) (h : ∀ i tail, ¬ StartsWith (procList.drop index) i tail)
    (requiredCount : UInt32) (cpuSet : CpuSet) (count : UInt32) :
    ∃ cpuSet', procListFrom procList requiredCount index cpuSet count = .ok (false, cpuSet') := by
  obtain ⟨c, rest, hdrop⟩ : ∃ c rest, procList.drop index = c :: rest :=
    List.exists_cons_of_ne_nil (by simpa using hlt)
  have hhead : charAt procList index = .ok c := charAt_append (u := []) hdrop
  rw [procListFrom]
  simp only [hhead]
  by_cases hc : c.isDigit = true
  · have hstoi := Scan.stoi_of_isDigit hc rest
    rw [← hdrop] at hstoi
    generalize hdigits : (procList.drop index).takeWhile Char.isDigit = digits at hstoi
    by_cases hint : Nat.ofDigitChars 10 digits 0 < 2 ^ 31
    · rw [if_pos hint] at hstoi
      simp only [hc, substr, hstoi, Bool.not_true, Bool.false_eq_true, if_false]
      by_cases hrange : Nat.ofDigitChars 10 digits 0 < 1024
      · rw [dif_neg (by omega)]
        have hne : digits ≠ [] := by
          rw [← hdigits, hdrop]
          simp [hc]
        have hall : ∀ c ∈ digits, c.isDigit = true := by
          rw [← hdigits]
          exact List.all_eq_true.mp List.all_takeWhile
        have hsplit : procList.drop index
            = digits ++ (procList.drop index).dropWhile Char.isDigit := by
          rw [← hdigits, List.takeWhile_append_dropWhile]
        obtain ⟨d, hcomma, hd⟩ := charAt_of_not_startsWith hsplit hall hne
          (takeWhile_dropWhile _ _) hrange h
        have hlt : index + (Nat.toDigits 10 (Nat.ofDigitChars 10 digits 0)).length
            ≠ procList.length := by
          intro heq
          rw [heq, charAt, List.getElem?_eq_none (Nat.le_refl _)] at hcomma
          cases hcomma
        have hnotComma : d ≠ ',' := by
          rintro rfl
          cases hd
        simp only [Int.toNat_natCast]
        rw [if_neg hlt, hcomma]
        exact ⟨_, if_pos hnotComma⟩
      · rw [dif_pos (by omega)]
        exact ⟨cpuSet, rfl⟩
    · rw [if_neg hint] at hstoi
      simp [hc, substr, hstoi]
  · simp [hc]

/-! ## The loop -/

/-- On what is left of a list of the grammar the loop adds its entries to the set and to
    the count; on anything else it ends with false. -/
theorem procListFrom_spec (procList : List Char) (requiredCount : UInt32) {index : Nat}
    (hlt : index < procList.length) (cpuSet : CpuSet) (count : UInt32) :
    (∃ entries, IsProcList (procList.drop index) entries ∧
      procListFrom procList requiredCount index cpuSet count
        = .ok (decide (count + UInt32.ofNat entries.length = requiredCount),
            cpuSet ∪ entries.toFinset)) ∨
    ((∀ entries, ¬ IsProcList (procList.drop index) entries) ∧
      ∃ cpuSet',
        procListFrom procList requiredCount index cpuSet count = .ok (false, cpuSet')) := by
  induction hn : procList.length - index using Nat.strong_induction_on
    generalizing index cpuSet count with
  | _ n ih =>
    subst hn
    by_cases hstarts : ∃ i tail, StartsWith (procList.drop index) i tail
    · obtain ⟨i, tail, hstart⟩ := hstarts
      rw [procListFrom_of_startsWith hstart]
      cases tail with
      | nil =>
        refine .inl ⟨[i], (isProcList_iff hstart [i]).mpr ⟨[], rfl, rfl⟩, ?_⟩
        simp [endRound]
      | cons c rest =>
        by_cases hend : c ≠ ',' ∨ rest = []
        · refine .inr ⟨fun entries hlist => ?_, ⟨_, if_pos hend⟩⟩
          obtain ⟨more, -, hcomma, hne, htext⟩ := (isProcList_iff_of_cons hstart entries).mp hlist
          rcases hend with hc | hnil
          · exact hc hcomma
          · exact procListText_ne_nil hne (htext.symm.trans hnil)
        · obtain ⟨hc, hrest⟩ := not_or.mp hend
          rw [endRound, if_neg hend]
          generalize hnext : index + (Nat.toDigits 10 i).length + 1 = next
          have hdrop : procList.drop next = rest := by
            rw [← hnext, Nat.add_assoc, ← List.drop_drop, hstart.1]
            simp
          have hlt' : next < procList.length := by
            have hpos := List.length_pos_of_ne_nil hrest
            rw [← hdrop, List.length_drop] at hpos
            omega
          have hstep := ih (procList.length - next) (by omega) hlt' (insert i cpuSet)
            (count + 1) rfl
          rw [hdrop] at hstep
          rcases hstep with ⟨more, hmore, hresult⟩ | ⟨hnone, hresult⟩
          · refine .inl ⟨i :: more, ?_, ?_⟩
            · exact (isProcList_iff_of_cons hstart _).mpr ⟨more, rfl, not_not.mp hc, hmore⟩
            · have hcount : count + 1 + UInt32.ofNat more.length
                  = count + UInt32.ofNat (more.length + 1) := by
                rw [UInt32.ofNat_add, UInt32.add_assoc, UInt32.add_comm 1]
                rfl
              rw [hresult, hcount, List.length_cons, List.toFinset_cons, Finset.insert_union,
                Finset.union_insert]
          · refine .inr ⟨fun entries hlist => ?_, hresult⟩
            obtain ⟨more, -, -, hmore⟩ := (isProcList_iff_of_cons hstart entries).mp hlist
            exact hnone more hmore
    · refine .inr ⟨fun entries hlist => hstarts (exists_startsWith hlist), ?_⟩
      exact procListFrom_of_not_startsWith hlt (fun i tail h => hstarts ⟨i, tail, h⟩) _ _ _

/-- What the parser returns, and the set, for a list of the grammar. -/
theorem procListToCpuSet_of_isProcList {procList : List Char} {entries : List (Fin 1024)}
    (h : IsProcList procList entries) (requiredCount : UInt32) :
    procListToCpuSet procList requiredCount
      = .ok (decide (UInt32.ofNat entries.length = requiredCount), entries.toFinset) := by
  have hne : procList ≠ [] := by
    rw [h.2]
    exact procListText_ne_nil h.1
  have hlen : 0 < procList.length := List.length_pos_of_ne_nil hne
  rw [procListToCpuSet, if_neg (by omega)]
  rcases procListFrom_spec procList requiredCount hlen ∅ 0 with ⟨entries', h', hresult⟩ | ⟨hnone, -⟩
  · rw [List.drop_zero] at h'
    obtain rfl := isProcList_unique h h'
    rw [hresult, UInt32.zero_add, Finset.empty_union]
  · exact absurd h (hnone entries)

/-- Anything else is refused. -/
theorem procListToCpuSet_of_not_isProcList {procList : List Char}
    (h : ∀ entries, ¬ IsProcList procList entries) (requiredCount : UInt32) :
    ∃ cpuSet, procListToCpuSet procList requiredCount = .ok (false, cpuSet) := by
  unfold procListToCpuSet
  split
  · exact ⟨∅, rfl⟩
  · next hne =>
    rcases procListFrom_spec procList requiredCount (Nat.pos_of_ne_zero hne) ∅ 0 with
      ⟨entries, hlist, -⟩ | ⟨-, hresult⟩
    · exact absurd hlist (h entries)
    · exact hresult

/-! ## Printing -/

/-- The processors of a set in ascending order. -/
def members (cpuSet : CpuSet) : List (Fin 1024) :=
  (List.finRange 1024).filter (· ∈ cpuSet)

theorem members_toFinset (cpuSet : CpuSet) : (members cpuSet).toFinset = cpuSet := by
  ext i
  simp [members]

theorem nodup_members (cpuSet : CpuSet) : (members cpuSet).Nodup :=
  (List.nodup_finRange 1024).filter _

theorem length_members (cpuSet : CpuSet) : (members cpuSet).length = cpuSet.card := by
  rw [← List.toFinset_card_of_nodup (nodup_members cpuSet), members_toFinset]

theorem procListText_concat (entries : List (Fin 1024)) (i : Fin 1024) :
    procListText (entries ++ [i])
      = (if procListText entries ≠ [] then procListText entries ++ [','] else procListText entries)
        ++ Nat.toDigits 10 i := by
  by_cases hnil : entries = []
  · subst hnil
    simp [procListText]
  · rw [if_pos (procListText_ne_nil hnil)]
    induction entries with
    | nil => exact absurd rfl hnil
    | cons j entries ih =>
      by_cases hmore : entries = []
      · subst hmore
        simp [procListText]
      · rw [List.cons_append, procListText_cons, procListText_cons, behind, behind, if_neg hmore,
          if_neg (by simp), ih hmore]
        simp

/-- The loop writes the processors of the set one after the other. -/
theorem cpuSetToProcList_eq (cpuSet : CpuSet) :
    cpuSetToProcList cpuSet = procListText (members cpuSet) := by
  have hloop : ∀ (ids entries : List (Fin 1024)),
      ids.foldl
        (fun ret i =>
          if i ∈ cpuSet then (if ret ≠ [] then ret ++ [','] else ret) ++ Nat.toDigits 10 i
          else ret)
        (procListText entries)
        = procListText (entries ++ ids.filter (· ∈ cpuSet)) := by
    intro ids
    induction ids with
    | nil => simp
    | cons i ids ih =>
      intro entries
      rw [List.foldl_cons]
      by_cases hi : i ∈ cpuSet
      · rw [if_pos hi, ← procListText_concat, ih]
        simp [hi]
      · rw [if_neg hi, ih]
        simp [hi]
  have hall := hloop (List.finRange 1024) []
  rw [show procListText [] = [] from rfl, List.nil_append] at hall
  exact hall

/-- What is printed of a set is read as the set. -/
theorem procListToCpuSet_cpuSetToProcList {cpuSet : CpuSet} (hne : cpuSet ≠ ∅)
    (requiredCount : UInt32) :
    procListToCpuSet (cpuSetToProcList cpuSet) requiredCount
      = .ok (decide (UInt32.ofNat cpuSet.card = requiredCount), cpuSet) := by
  have hmembers : members cpuSet ≠ [] := by
    intro hnil
    rw [← members_toFinset cpuSet, hnil] at hne
    exact hne rfl
  rw [procListToCpuSet_of_isProcList ⟨hmembers, cpuSetToProcList_eq cpuSet⟩, length_members,
    members_toFinset]

/-! ## The parser and its grammar -/

theorem toNat_eq_iff {n : Nat} {k : UInt32} (h : n < 2 ^ 32) :
    UInt32.ofNat n = k ↔ n = k.toNat := by
  constructor
  · rintro rfl
    rw [UInt32.toNat_ofNat_of_lt' h]
  · rintro rfl
    exact UInt32.ofNat_toNat

/-- A list of the grammar is parsed as it should if counting its entries tells the same
    as counting its processors. -/
theorem parses_iff_of_isProcList {procList : List Char} {entries : List (Fin 1024)}
    (h : IsProcList procList entries) (requiredCount : UInt32) :
    Parses procList requiredCount ↔
      (UInt32.ofNat entries.length = requiredCount ↔
        entries.toFinset.card = requiredCount.toNat) := by
  have hresult := procListToCpuSet_of_isProcList h requiredCount
  constructor
  · rintro ⟨accepted, cpuSet, hok, haccepted, -⟩
    rw [hresult] at hok
    cases hok
    rw [decide_eq_true_eq] at haccepted
    rw [haccepted]
    constructor
    · rintro ⟨entries', h', hcard⟩
      rwa [isProcList_unique h h']
    · intro hcard
      exact ⟨entries, h, hcard⟩
  · intro hcount
    refine ⟨_, _, hresult, ?_, ?_⟩
    · rw [decide_eq_true_eq, hcount]
      constructor
      · intro hcard
        exact ⟨entries, h, hcard⟩
      · rintro ⟨entries', h', hcard⟩
        rwa [isProcList_unique h h']
    · intro _ entries' h'
      rw [isProcList_unique h h']

theorem parses_of_not_isProcList {procList : List Char}
    (h : ∀ entries, ¬ IsProcList procList entries) (requiredCount : UInt32) :
    Parses procList requiredCount := by
  obtain ⟨cpuSet, hresult⟩ := procListToCpuSet_of_not_isProcList h requiredCount
  refine ⟨false, cpuSet, hresult, ?_, ?_⟩
  · constructor
    · intro hfalse
      cases hfalse
    · rintro ⟨entries, hlist, -⟩
      exact absurd hlist (h entries)
  · intro hfalse
    cases hfalse

theorem procListToCpuSet_ok (procList : List Char) (requiredCount : UInt32) :
    ∃ result, procListToCpuSet procList requiredCount = .ok result := by
  by_cases h : ∃ entries, IsProcList procList entries
  · obtain ⟨entries, hlist⟩ := h
    exact ⟨_, procListToCpuSet_of_isProcList hlist requiredCount⟩
  · obtain ⟨cpuSet, hresult⟩ :=
      procListToCpuSet_of_not_isProcList (fun entries hlist => h ⟨entries, hlist⟩) requiredCount
    exact ⟨_, hresult⟩

/-- The list is parsed as it should exactly where counting the entries, modulo 2^32,
    tells the same as counting the processors. -/
theorem parses_iff (procList : List Char) (requiredCount : UInt32) :
    Parses procList requiredCount ↔
      ∀ entries, IsProcList procList entries →
        (UInt32.ofNat entries.length = requiredCount ↔
          entries.toFinset.card = requiredCount.toNat) := by
  by_cases h : ∃ entries, IsProcList procList entries
  · obtain ⟨entries, hlist⟩ := h
    rw [parses_iff_of_isProcList hlist]
    constructor
    · intro hcount entries' hlist'
      rwa [← isProcList_unique hlist hlist']
    · intro hcount
      exact hcount entries hlist
  · constructor
    · intro _ entries hlist
      exact absurd ⟨entries, hlist⟩ h
    · intro _
      exact parses_of_not_isProcList (fun entries hlist => h ⟨entries, hlist⟩) requiredCount

/-- The parser never reads past the end, reads what is printed of a set as the set, and
    accepts exactly its grammar but for lists in which an entry is repeated. -/
theorem procListToCpuSet_parses_iff (procList : List Char) (requiredCount : UInt32) :
    (∃ result, procListToCpuSet procList requiredCount = .ok result) ∧
    (∀ cpuSet : CpuSet, cpuSet ≠ ∅ →
      procListToCpuSet (cpuSetToProcList cpuSet) (UInt32.ofNat cpuSet.card) = .ok (true, cpuSet)) ∧
    (Parses procList requiredCount ↔
      ∀ entries, IsProcList procList entries →
        (UInt32.ofNat entries.length = requiredCount ↔
          entries.toFinset.card = requiredCount.toNat)) := by
  refine ⟨procListToCpuSet_ok procList requiredCount, ?_, parses_iff procList requiredCount⟩
  intro cpuSet hne
  rw [procListToCpuSet_cpuSetToProcList hne, decide_eq_true rfl]

/-- A list without repetitions is parsed as it should. -/
theorem parses_of_nodup {procList : List Char} {entries : List (Fin 1024)}
    (h : IsProcList procList entries) (hnodup : entries.Nodup) (requiredCount : UInt32) :
    Parses procList requiredCount := by
  have hcard : entries.toFinset.card = entries.length := List.toFinset_card_of_nodup hnodup
  have hlt : entries.length < 2 ^ 32 := by
    have := Finset.card_le_univ entries.toFinset
    rw [Fintype.card_fin] at this
    omega
  rw [parses_iff_of_isProcList h, hcard]
  exact toNat_eq_iff hlt

/-- "1,1" is taken for two processors. -/
theorem not_parses_repeated : ¬ Parses "1,1".toList 2 := by
  have hlist : IsProcList "1,1".toList [1, 1] := ⟨by decide, by decide⟩
  rw [parses_iff_of_isProcList hlist]
  decide

end Arras4Core.Shared
