/-
  Arras4Core.Execute.OomDescriptors

  Any number of calls of `ControlGroup::monitorOom` and `scanOomStatus` by
  different threads, as a transition system.  A step is one critical section of
  `mOomFdsMutex` or one call of the operating system.  A scan holds the mutex
  while it reads the files of the table one after the other; a close does not
  need it.

  Descriptors are numbered in the order in which they are opened, and a number is
  not used again: what the operating system would do with a number that was
  closed twice shows here as a second close.
-/

import Arras4Core.Lib.System
import Mathlib.Logic.Function.Basic
import Std.Data.TreeMap

namespace Arras4Core.Execute

open Arras4Core.Lib
open Std (TreeMap)

/-- Where a thread is: in `monitorOom(group, true)`, in `monitorOom(group, false)`,
    or in `scanOomStatus` with the entries that are yet to be read. -/
inductive OomPc
  | idle
  | enableGet (group : String)
  | enableOpen (group : String)
  | enableRegister (group : String) (oomFd : Nat)
  | enableAdd (group : String) (oomFd : Nat)
  | enableClose (group : String) (oomFd : Nat)
  | disableGet (group : String)
  | disableClose (group : String) (oomFd : Nat)
  | disableRemove (group : String)
  | scan (rest : List (String × Nat))
  deriving DecidableEq

/-- The descriptor that the thread has opened and that is in no table. -/
def OomPc.owned : OomPc → Option (String × Nat)
  | .enableRegister group oomFd | .enableAdd group oomFd | .enableClose group oomFd =>
    some (group, oomFd)
  | _ => none

/-- The group whose descriptor the thread closes and removes. -/
def OomPc.disables : OomPc → Option String
  | .disableClose group _ | .disableRemove group => some group
  | _ => none

/-- The table and its mutex, the threads, and what has happened: the groups the
    descriptors were opened for, the descriptors that were closed, and whether a
    scan has read one of those. -/
structure OomDescriptors (Thread : Type*) where
  mOomFds : TreeMap String Nat := ∅
  mOomFdsMutex : Option Thread := none
  pc : Thread → OomPc := fun _ => .idle
  opened : List String := []
  closed : List Nat := []
  readClosed : Bool := false

namespace OomDescriptors

variable {Thread : Type*}

/-- One step of thread `t`. -/
inductive Event (Thread : Type*)
  | enables (t : Thread) (group : String)
  | disables (t : Thread) (group : String)
  | getsOomFd (t : Thread)
  | opens (t : Thread)
  | openFails (t : Thread)
  | registers (t : Thread)
  | registerFails (t : Thread)
  | addsOomFd (t : Thread)
  | closes (t : Thread)
  | removesOomFd (t : Thread)
  | scans (t : Thread)
  | scanReads (t : Thread)
  | scanEnds (t : Thread)

section Steps

variable [DecidableEq Thread]

def goes (s : OomDescriptors Thread) (t : Thread) (p : OomPc) : OomDescriptors Thread :=
  { s with pc := Function.update s.pc t p }

def getsOomFd (s : OomDescriptors Thread) (t : Thread) : Option (OomDescriptors Thread) :=
  match s.pc t with
  | .enableGet group =>
    match s.mOomFds[group]? with
    | some _ => some (s.goes t .idle)
    | none => some (s.goes t (.enableOpen group))
  | .disableGet group =>
    match s.mOomFds[group]? with
    | some oomFd => some (s.goes t (.disableClose group oomFd))
    | none => some (s.goes t .idle)
  | _ => none

def addsOomFd (s : OomDescriptors Thread) (t : Thread) : Option (OomDescriptors Thread) :=
  match s.pc t with
  | .enableAdd group oomFd =>
    match s.mOomFds[group]? with
    | none => some ({ s with mOomFds := s.mOomFds.insert group oomFd }.goes t .idle)
    -- another thread beat us to it
    | some _ => some (s.goes t (.enableClose group oomFd))
  | _ => none

def step (s : OomDescriptors Thread) : Event Thread → Option (OomDescriptors Thread)
  | .enables t group => onlyIf (s.pc t = .idle) (s.goes t (.enableGet group))
  | .disables t group => onlyIf (s.pc t = .idle) (s.goes t (.disableGet group))
  | .getsOomFd t => if s.mOomFdsMutex = none then s.getsOomFd t else none
  | .opens t =>
    match s.pc t with
    | .enableOpen group =>
      some ({ s with opened := s.opened ++ [group] }.goes t
        (.enableRegister group s.opened.length))
    | _ => none
  | .openFails t =>
    match s.pc t with
    | .enableOpen _ => some (s.goes t .idle)
    | _ => none
  | .registers t =>
    match s.pc t with
    | .enableRegister group oomFd => some (s.goes t (.enableAdd group oomFd))
    | _ => none
  -- "cgroup.event_control" cannot be opened: the exception leaves `oomFd` open
  | .registerFails t =>
    match s.pc t with
    | .enableRegister _ _ => some (s.goes t .idle)
    | _ => none
  | .addsOomFd t => if s.mOomFdsMutex = none then s.addsOomFd t else none
  | .closes t =>
    match s.pc t with
    | .enableClose _ oomFd => some ({ s with closed := oomFd :: s.closed }.goes t .idle)
    | .disableClose group oomFd =>
      some ({ s with closed := oomFd :: s.closed }.goes t (.disableRemove group))
    | _ => none
  | .removesOomFd t =>
    match s.pc t with
    | .disableRemove group =>
      onlyIf (s.mOomFdsMutex = none) ({ s with mOomFds := s.mOomFds.erase group }.goes t .idle)
    | _ => none
  | .scans t =>
    onlyIf (s.pc t = .idle ∧ s.mOomFdsMutex = none)
      ({ s with mOomFdsMutex := some t }.goes t (.scan s.mOomFds.toList))
  | .scanReads t =>
    match s.pc t with
    | .scan (entry :: rest) =>
      some ({ s with readClosed := s.readClosed || s.closed.contains entry.2 }.goes t (.scan rest))
    | _ => none
  | .scanEnds t =>
    match s.pc t with
    | .scan [] => some ({ s with mOomFdsMutex := none }.goes t .idle)
    | _ => none

def system : System (OomDescriptors Thread) (Event Thread) where
  init s := s = {}
  step := step

end Steps

variable {s s' : OomDescriptors Thread}

/-! ## One owner -/

/-- Every descriptor is closed at most once, and exactly once when no call is in
    progress and its group is not in the table; and none is read after its close. -/
structure OneOwner (s : OomDescriptors Thread) : Prop where
  once : ∀ oomFd, s.closed.count oomFd ≤ 1
  released : (∀ t, s.pc t = .idle) → ∀ oomFd group, s.opened[oomFd]? = some group →
    s.mOomFds[group]? = none → s.closed.count oomFd = 1
  reads : s.readClosed = false

/-- Two calls that disable a group have not both found its entry, no scan reads an
    entry between its close and its removal, and a descriptor that was opened can be
    registered. -/
def Separate (s : OomDescriptors Thread) : Event Thread → Prop
  | .getsOomFd t => ∀ group, s.pc t = .disableGet group → (s.mOomFds[group]?).isSome →
    ∀ u, (s.pc u).disables ≠ some group
  | .registerFails _ => False
  | .scanReads t => ∀ entry rest, s.pc t = .scan (entry :: rest) →
    ∀ u, s.pc u ≠ .disableRemove entry.1
  | _ => True

/-- Where the descriptors are. -/
structure Invariant (s : OomDescriptors Thread) : Prop where
  once : ∀ oomFd, s.closed.count oomFd ≤ 1
  known : ∀ oomFd, oomFd ∈ s.closed → oomFd < s.opened.length
  /-- an entry of the table is open, or its removal is under way -/
  entry : ∀ group oomFd, s.mOomFds[group]? = some oomFd → s.opened[oomFd]? = some group ∧
    (oomFd ∉ s.closed ∨ ∃ t, s.pc t = .disableRemove group)
  /-- a thread that has opened a descriptor is its only owner -/
  owned : ∀ t group oomFd, (s.pc t).owned = some (group, oomFd) →
    s.opened[oomFd]? = some group ∧ oomFd ∉ s.closed ∧ s.mOomFds[group]? ≠ some oomFd
  distinct : ∀ t u group oomFd, (s.pc t).owned = some (group, oomFd) →
    (s.pc u).owned = some (group, oomFd) → t = u
  closing : ∀ t group oomFd, s.pc t = .disableClose group oomFd →
    s.mOomFds[group]? = some oomFd ∧ oomFd ∉ s.closed
  removing : ∀ t group, s.pc t = .disableRemove group →
    ∃ oomFd, s.mOomFds[group]? = some oomFd ∧ oomFd ∈ s.closed
  alone : ∀ t u group, (s.pc t).disables = some group → (s.pc u).disables = some group → t = u
  kept : ∀ oomFd group, s.opened[oomFd]? = some group → oomFd ∈ s.closed ∨
    s.mOomFds[group]? = some oomFd ∨ ∃ t, (s.pc t).owned = some (group, oomFd)
  scanning : ∀ t rest, s.pc t = .scan rest → s.mOomFdsMutex = some t ∧
    ∀ entry ∈ rest, s.mOomFds[entry.1]? = some entry.2
  reads : s.readClosed = false

theorem Invariant.oneOwner (h : s.Invariant) : s.OneOwner where
  once := h.once
  released hidle oomFd group hopened hnone := by
    rcases h.kept oomFd group hopened with hclosed | htable | ⟨t, hown⟩
    · have hle := h.once oomFd
      have hpos := List.count_pos_iff.mpr hclosed
      omega
    · cases hnone.symm.trans htable
    · rw [hidle t] at hown
      cases hown
  reads := h.reads

theorem invariant_init : (({} : OomDescriptors Thread)).Invariant where
  once oomFd := Nat.zero_le 1
  known oomFd h := by cases h
  entry group oomFd h := by
    rw [Std.TreeMap.getElem?_emptyc] at h
    cases h
  owned t group oomFd h := by cases h
  distinct t u group oomFd h := by cases h
  closing t group oomFd h := by cases h
  removing t group h := by cases h
  alone t u group h := by cases h
  kept oomFd group h := by cases h
  scanning t rest h := by cases h
  reads := rfl

/-- An entry is that of the group the descriptor was opened for. -/
theorem Invariant.entry_inj (h : s.Invariant) {group group' : String} {oomFd : Nat}
    (hopened : s.opened[oomFd]? = some group) (hentry : s.mOomFds[group']? = some oomFd) :
    group' = group :=
  Option.some.inj ((h.entry group' oomFd hentry).1.symm.trans hopened)

theorem Invariant.once_cons (h : s.Invariant) {oomFd : Nat} (hopen : oomFd ∉ s.closed)
    (oomFd' : Nat) : (oomFd :: s.closed).count oomFd' ≤ 1 := by
  have hle := h.once oomFd'
  rw [List.count_cons]
  split
  · next heq =>
    cases eq_of_beq heq
    have hzero := List.count_eq_zero.mpr hopen
    omega
  · exact hle

theorem Invariant.known_cons (h : s.Invariant) {group : String} {oomFd : Nat}
    (hopened : s.opened[oomFd]? = some group) (oomFd' : Nat)
    (hclosed : oomFd' ∈ oomFd :: s.closed) :
    oomFd' < s.opened.length := by
  rcases List.mem_cons.mp hclosed with rfl | hclosed
  · exact (List.getElem?_eq_some_iff.mp hopened).1
  · exact h.known oomFd' hclosed

/-- While nobody scans, the mutex may be in any state. -/
theorem Invariant.with_mutex (h : s.Invariant) (hscan : ∀ t rest, s.pc t ≠ .scan rest)
    (holder : Option Thread) : { s with mOomFdsMutex := holder }.Invariant :=
  { h with scanning := fun t rest ht => absurd ht (hscan t rest) }

/-- While the mutex is free nobody scans. -/
theorem Invariant.not_scan (h : s.Invariant) (hmutex : s.mOomFdsMutex = none) (t : Thread)
    (rest : List (String × Nat)) : s.pc t ≠ .scan rest := by
  intro ht
  cases hmutex.symm.trans (h.scanning t rest ht).1

/-- What a scan reads next is open, unless a removal of its entry is under way. -/
theorem Invariant.reads_open (h : s.Invariant) {t : Thread} {entry : String × Nat}
    {rest : List (String × Nat)} (ht : s.pc t = .scan (entry :: rest))
    (hremoves : ∀ u, s.pc u ≠ .disableRemove entry.1) :
    s.closed.contains entry.2 = false := by
  have hentry := (h.scanning t _ ht).2 entry (List.mem_cons_self ..)
  rw [List.contains_eq_mem, decide_eq_false_iff_not]
  rcases (h.entry entry.1 entry.2 hentry).2 with hopen | ⟨u, hu⟩
  · exact hopen
  · exact absurd hu (hremoves u)

section Kept

variable [DecidableEq Thread] {t u : Thread} {p : OomPc} {group : String} {oomFd : Nat}

theorem pc_goes (s : OomDescriptors Thread) (t u : Thread) (p : OomPc) :
    (s.goes t p).pc u = if u = t then p else s.pc u :=
  Function.update_apply s.pc t p u

theorem pc_goes_self (s : OomDescriptors Thread) (t : Thread) (p : OomPc) :
    (s.goes t p).pc t = p := by
  rw [pc_goes, if_pos rfl]

theorem pc_goes_of_ne (s : OomDescriptors Thread) {t u : Thread} (p : OomPc) (h : u ≠ t) :
    (s.goes t p).pc u = s.pc u := by
  rw [pc_goes, if_neg h]

theorem of_pc_goes {q : OomPc} (hu : (s.goes t p).pc u = q) (hp : p ≠ q) :
    u ≠ t ∧ s.pc u = q := by
  rw [pc_goes] at hu
  split at hu
  · exact absurd hu hp
  · next hne => exact ⟨hne, hu⟩

theorem of_owned_goes {own : String × Nat} (hu : ((s.goes t p).pc u).owned = some own)
    (hp : p.owned = none) : u ≠ t ∧ (s.pc u).owned = some own := by
  rw [pc_goes] at hu
  split at hu
  · cases hp.symm.trans hu
  · next hne => exact ⟨hne, hu⟩

/-- What some thread is at, one is still at when the thread that goes on was not. -/
theorem exists_pc_goes (P : OomPc → Prop) (ht : ¬ P (s.pc t)) (h : ∃ u, P (s.pc u)) :
    ∃ u, P ((s.goes t p).pc u) := by
  obtain ⟨u, hu⟩ := h
  refine ⟨u, ?_⟩
  rw [pc_goes_of_ne]
  · exact hu
  · rintro rfl
    exact ht hu

/-- A thread that disables a group disabled it before, when the thread that goes on
    disables nothing else than before. -/
theorem of_disables_goes (hu : ((s.goes t p).pc u).disables = some group)
    (hp : ∀ group, p.disables = some group → (s.pc t).disables = some group) :
    (s.pc u).disables = some group := by
  rw [pc_goes] at hu
  split at hu
  · next hut => exact hut ▸ hp group hu
  · exact hu

/-- A thread that goes on with the same descriptor and neither begins nor ends a
    removal. -/
theorem Invariant.goes (h : s.Invariant) (howned : p.owned = (s.pc t).owned)
    (hold : ∀ group, s.pc t ≠ .disableRemove group) (hnew : ∀ group, p ≠ .disableRemove group)
    (hclosing : ∀ group oomFd, p = .disableClose group oomFd →
      s.mOomFds[group]? = some oomFd ∧ oomFd ∉ s.closed ∧
        ∀ u, (s.pc u).disables ≠ some group)
    (hscanning : ∀ rest, p = .scan rest → s.mOomFdsMutex = some t ∧
      ∀ entry ∈ rest, s.mOomFds[entry.1]? = some entry.2) :
    (s.goes t p).Invariant := by
  have hownedAt : ∀ u, ((s.goes t p).pc u).owned = (s.pc u).owned := by
    intro u
    by_cases hu : u = t
    · subst hu
      rw [pc_goes_self, howned]
    · rw [pc_goes_of_ne s p hu]
  have hremoves : ∀ u group, (s.goes t p).pc u = .disableRemove group ↔
      s.pc u = .disableRemove group := by
    intro u group
    by_cases hu : u = t
    · subst hu
      rw [pc_goes_self]
      exact ⟨fun hp => absurd hp (hnew group), fun hp => absurd hp (hold group)⟩
    · rw [pc_goes_of_ne s p hu]
  -- a thread that begins to disable a group is the first
  have hfirst : ∀ u group, p.disables = some group → (s.pc u).disables ≠ some group := by
    intro u group hp
    cases p <;> cases hp
    · exact (hclosing _ _ rfl).2.2 u
    · exact absurd rfl (hnew _)
  refine ⟨h.once, h.known, ?_, ?_, ?_, ?_, ?_, ?_, ?_, ?_, h.reads⟩
  · intro group oomFd hentry
    simp only [hremoves]
    exact h.entry group oomFd hentry
  · intro u group oomFd hown
    exact h.owned u group oomFd (hownedAt u ▸ hown)
  · intro u v group oomFd hu hv
    exact h.distinct u v group oomFd (hownedAt u ▸ hu) (hownedAt v ▸ hv)
  · intro u group oomFd hu
    rw [pc_goes] at hu
    split at hu
    · exact ⟨(hclosing group oomFd hu).1, (hclosing group oomFd hu).2.1⟩
    · exact h.closing u group oomFd hu
  · intro u group hu
    exact h.removing u group ((hremoves u group).mp hu)
  · intro u v group hu hv
    rw [pc_goes] at hu hv
    split at hu <;> split at hv
    · next hut hvt => exact hut.trans hvt.symm
    · exact absurd hv (hfirst v group hu)
    · exact absurd hu (hfirst u group hv)
    · exact h.alone u v group hu hv
  · intro oomFd group hopened
    simp only [hownedAt]
    exact h.kept oomFd group hopened
  · intro u rest hu
    rw [pc_goes] at hu
    split at hu
    · next hut => exact hut ▸ hscanning rest hu
    · exact h.scanning u rest hu

/-- The descriptor that `open` returns has not been seen before. -/
theorem Invariant.opens (h : s.Invariant) (ht : s.pc t = .enableOpen group) :
    ({ s with opened := s.opened ++ [group] }.goes t
      (.enableRegister group s.opened.length)).Invariant := by
  have hnew : s.opened[s.opened.length]? = none := List.getElem?_eq_none (Nat.le_refl _)
  have hlast : (s.opened ++ [group])[s.opened.length]? = some group := by simp
  have hkeep : ∀ {oomFd : Nat} {group' : String}, s.opened[oomFd]? = some group' →
      (s.opened ++ [group])[oomFd]? = some group' := by
    intro oomFd group' hopened
    rw [List.getElem?_append_left (List.getElem?_eq_some_iff.mp hopened).1, hopened]
  refine ⟨h.once, ?_, ?_, ?_, ?_, ?_, ?_, ?_, ?_, ?_, h.reads⟩
  · intro oomFd hclosed
    have hlt := h.known oomFd hclosed
    exact Nat.lt_of_lt_of_le hlt (by simp [OomDescriptors.goes])
  · intro group' oomFd hentry
    obtain ⟨hopened, hstate⟩ := h.entry group' oomFd hentry
    refine ⟨hkeep hopened, hstate.imp_right (exists_pc_goes (· = .disableRemove group') ?_)⟩
    exact fun hremove => by cases ht.symm.trans hremove
  · intro u group' oomFd hu
    rw [pc_goes] at hu
    split at hu
    · obtain ⟨rfl, rfl⟩ := Prod.mk.inj (Option.some.inj hu)
      refine ⟨hlast, fun hclosed => Nat.lt_irrefl _ (h.known _ hclosed), fun hentry => ?_⟩
      cases hnew.symm.trans (h.entry _ _ hentry).1
    · obtain ⟨hopened, hopen, hentry⟩ := h.owned u group' oomFd hu
      exact ⟨hkeep hopened, hopen, hentry⟩
  · intro u v group' oomFd hu hv
    have hother : ∀ v, (s.pc v).owned ≠ some (group, s.opened.length) := by
      intro v hv
      cases hnew.symm.trans (h.owned v _ _ hv).1
    rw [pc_goes] at hu hv
    split at hu <;> split at hv
    · next hut hvt => exact hut.trans hvt.symm
    · exact absurd (hv.trans hu.symm) (hother v)
    · exact absurd (hu.trans hv.symm) (hother u)
    · exact h.distinct u v group' oomFd hu hv
  · intro u group' oomFd hu
    exact h.closing u group' oomFd (of_pc_goes hu nofun).2
  · intro u group' hu
    exact h.removing u group' (of_pc_goes hu nofun).2
  · intro u v group' hu hv
    exact h.alone u v group' (of_disables_goes hu nofun) (of_disables_goes hv nofun)
  · intro oomFd group' hopened
    change (s.opened ++ [group])[oomFd]? = some group' at hopened
    rcases Nat.lt_or_ge oomFd s.opened.length with hlt | hge
    · rw [List.getElem?_append_left hlt] at hopened
      refine (h.kept oomFd group' hopened).imp_right (.imp_right
        (exists_pc_goes (·.owned = some (group', oomFd)) ?_))
      rw [ht]
      exact Option.some_ne_none _ ∘ Eq.symm
    · have heq : oomFd = s.opened.length := by
        have hlt := (List.getElem?_eq_some_iff.mp hopened).1
        rw [List.length_append, List.length_singleton] at hlt
        omega
      subst heq
      cases hlast.symm.trans hopened
      refine .inr (.inr ⟨t, ?_⟩)
      rw [pc_goes_self]
      rfl
  · intro u rest hu
    exact h.scanning u rest (of_pc_goes hu nofun).2

/-- The entry of a group that has none. -/
theorem Invariant.adds (h : s.Invariant) (ht : s.pc t = .enableAdd group oomFd)
    (hmutex : s.mOomFdsMutex = none) (hnone : s.mOomFds[group]? = none) :
    ({ s with mOomFds := s.mOomFds.insert group oomFd }.goes t .idle).Invariant := by
  have hown : (s.pc t).owned = some (group, oomFd) := by rw [ht]; rfl
  obtain ⟨hopened, hopen, -⟩ := h.owned t group oomFd hown
  have hentries : ∀ group', (s.mOomFds.insert group oomFd)[group']? =
      if group' = group then some oomFd else s.mOomFds[group']? := by
    intro group'
    rw [Std.TreeMap.getElem?_insert]
    by_cases heq : group = group'
    · subst heq
      simp
    · simp [heq, Ne.symm heq]
  have hkeep : ∀ {group' : String} {oomFd' : Nat}, s.mOomFds[group']? = some oomFd' →
      (s.mOomFds.insert group oomFd)[group']? = some oomFd' := by
    intro group' oomFd' hentry
    rw [hentries, if_neg, hentry]
    rintro rfl
    cases hnone.symm.trans hentry
  refine ⟨h.once, h.known, ?_, ?_, ?_, ?_, ?_, ?_, ?_, ?_, h.reads⟩
  · intro group' oomFd' hentry
    change (s.mOomFds.insert group oomFd)[group']? = some oomFd' at hentry
    rw [hentries] at hentry
    split at hentry
    · next heq =>
      cases heq
      cases hentry
      exact ⟨hopened, .inl hopen⟩
    · obtain ⟨hopened', hstate⟩ := h.entry group' oomFd' hentry
      refine ⟨hopened', hstate.imp_right (exists_pc_goes (· = .disableRemove group') ?_)⟩
      exact fun hremove => by cases ht.symm.trans hremove
  · intro u group' oomFd' hu
    obtain ⟨hne, hu⟩ := of_owned_goes hu rfl
    obtain ⟨hopened', hopen', hentry⟩ := h.owned u group' oomFd' hu
    refine ⟨hopened', hopen', fun hadded => ?_⟩
    change (s.mOomFds.insert group oomFd)[group']? = some oomFd' at hadded
    rw [hentries] at hadded
    split at hadded
    · next heq =>
      cases heq
      cases hadded
      exact hne (h.distinct u t _ _ hu hown)
    · exact hentry hadded
  · intro u v group' oomFd' hu hv
    exact h.distinct u v group' oomFd' (of_owned_goes hu rfl).2 (of_owned_goes hv rfl).2
  · intro u group' oomFd' hu
    obtain ⟨hentry, hopen'⟩ := h.closing u group' oomFd' (of_pc_goes hu nofun).2
    exact ⟨hkeep hentry, hopen'⟩
  · intro u group' hu
    obtain ⟨oomFd', hentry, hclosed⟩ := h.removing u group' (of_pc_goes hu nofun).2
    exact ⟨oomFd', hkeep hentry, hclosed⟩
  · intro u v group' hu hv
    exact h.alone u v group' (of_disables_goes hu nofun) (of_disables_goes hv nofun)
  · intro oomFd' group' hopened'
    rcases h.kept oomFd' group' hopened' with hclosed | hentry | ⟨u, hu⟩
    · exact .inl hclosed
    · exact .inr (.inl (hkeep hentry))
    · by_cases hne : u = t
      · subst hne
        cases hown.symm.trans hu
        exact .inr (.inl ((hentries group).trans (if_pos rfl)))
      · refine .inr (.inr ⟨u, ?_⟩)
        rw [pc_goes_of_ne _ _ hne]
        exact hu
  · intro u rest hu
    exact absurd (of_pc_goes hu nofun).2 (h.not_scan hmutex u rest)

/-- The descriptor of a thread that another one beat to it. -/
theorem Invariant.closes_own (h : s.Invariant) (ht : s.pc t = .enableClose group oomFd) :
    ({ s with closed := oomFd :: s.closed }.goes t .idle).Invariant := by
  have hown : (s.pc t).owned = some (group, oomFd) := by rw [ht]; rfl
  obtain ⟨hopened, hopen, hnot⟩ := h.owned t group oomFd hown
  -- the descriptor is not the one of an entry
  have hfree : ∀ {group' : String} {oomFd' : Nat}, s.mOomFds[group']? = some oomFd' →
      oomFd' ≠ oomFd := by
    rintro group' oomFd' hentry rfl
    cases h.entry_inj hopened hentry
    exact hnot hentry
  refine ⟨h.once_cons hopen, h.known_cons hopened, ?_, ?_, ?_, ?_, ?_, ?_, ?_, ?_, h.reads⟩
  · intro group' oomFd' hentry
    obtain ⟨hopened', hstate⟩ := h.entry group' oomFd' hentry
    refine ⟨hopened', hstate.imp ?_ (exists_pc_goes (· = .disableRemove group') ?_)⟩
    · intro hopen' hclosed
      exact (List.mem_cons.mp hclosed).elim (hfree hentry) hopen'
    · exact fun hremove => by cases ht.symm.trans hremove
  · intro u group' oomFd' hu
    obtain ⟨hne, hu⟩ := of_owned_goes hu rfl
    obtain ⟨hopened', hopen', hnot'⟩ := h.owned u group' oomFd' hu
    refine ⟨hopened', fun hclosed => ?_, hnot'⟩
    rcases List.mem_cons.mp hclosed with rfl | hclosed
    · cases hopened.symm.trans hopened'
      exact hne (h.distinct u t _ _ hu hown)
    · exact hopen' hclosed
  · intro u v group' oomFd' hu hv
    exact h.distinct u v group' oomFd' (of_owned_goes hu rfl).2 (of_owned_goes hv rfl).2
  · intro u group' oomFd' hu
    obtain ⟨hentry, hopen'⟩ := h.closing u group' oomFd' (of_pc_goes hu nofun).2
    refine ⟨hentry, fun hclosed => ?_⟩
    exact (List.mem_cons.mp hclosed).elim (hfree hentry) hopen'
  · intro u group' hu
    obtain ⟨oomFd', hentry, hclosed⟩ := h.removing u group' (of_pc_goes hu nofun).2
    exact ⟨oomFd', hentry, List.mem_cons_of_mem oomFd hclosed⟩
  · intro u v group' hu hv
    exact h.alone u v group' (of_disables_goes hu nofun) (of_disables_goes hv nofun)
  · intro oomFd' group' hopened'
    rcases h.kept oomFd' group' hopened' with hclosed | hentry | ⟨u, hu⟩
    · exact .inl (List.mem_cons_of_mem oomFd hclosed)
    · exact .inr (.inl hentry)
    · by_cases hne : u = t
      · subst hne
        cases hown.symm.trans hu
        exact .inl (List.mem_cons_self ..)
      · refine .inr (.inr ⟨u, ?_⟩)
        rw [pc_goes_of_ne _ _ hne]
        exact hu
  · intro u rest hu
    exact h.scanning u rest (of_pc_goes hu nofun).2

/-- The descriptor of an entry, by the only thread that disables its group. -/
theorem Invariant.closes_entry (h : s.Invariant) (ht : s.pc t = .disableClose group oomFd) :
    ({ s with closed := oomFd :: s.closed }.goes t (.disableRemove group)).Invariant := by
  obtain ⟨hentry, hopen⟩ := h.closing t group oomFd ht
  have hopened := (h.entry group oomFd hentry).1
  have hdisables : (s.pc t).disables = some group := by rw [ht]; rfl
  have hsame : ∀ group', (OomPc.disableRemove group).disables = some group' →
      (s.pc t).disables = some group' := by
    rintro group' hgroup
    cases hgroup
    exact hdisables
  refine ⟨h.once_cons hopen, h.known_cons hopened, ?_, ?_, ?_, ?_, ?_, ?_, ?_, ?_, h.reads⟩
  · intro group' oomFd' hentry'
    obtain ⟨hopened', hstate⟩ := h.entry group' oomFd' hentry'
    refine ⟨hopened', ?_⟩
    by_cases heq : oomFd' = oomFd
    · subst heq
      cases h.entry_inj hopened hentry'
      exact .inr ⟨t, pc_goes_self _ _ _⟩
    · refine hstate.imp ?_ (exists_pc_goes (· = .disableRemove group') ?_)
      · intro hopen' hclosed
        exact (List.mem_cons.mp hclosed).elim heq hopen'
      · exact fun hremove => by cases ht.symm.trans hremove
  · intro u group' oomFd' hu
    obtain ⟨hne, hu⟩ := of_owned_goes hu rfl
    obtain ⟨hopened', hopen', hnot⟩ := h.owned u group' oomFd' hu
    refine ⟨hopened', fun hclosed => ?_, hnot⟩
    rcases List.mem_cons.mp hclosed with rfl | hclosed
    · cases hopened.symm.trans hopened'
      exact hnot hentry
    · exact hopen' hclosed
  · intro u v group' oomFd' hu hv
    exact h.distinct u v group' oomFd' (of_owned_goes hu rfl).2 (of_owned_goes hv rfl).2
  · intro u group' oomFd' hu
    obtain ⟨hne, hu⟩ := of_pc_goes hu nofun
    obtain ⟨hentry', hopen'⟩ := h.closing u group' oomFd' hu
    refine ⟨hentry', fun hclosed => ?_⟩
    rcases List.mem_cons.mp hclosed with rfl | hclosed
    · cases h.entry_inj hopened hentry'
      exact hne (h.alone u t _ (by rw [hu]; rfl) hdisables)
    · exact hopen' hclosed
  · intro u group' hu
    rw [pc_goes] at hu
    split at hu
    · cases hu
      exact ⟨oomFd, hentry, List.mem_cons_self ..⟩
    · obtain ⟨oomFd', hentry', hclosed⟩ := h.removing u group' hu
      exact ⟨oomFd', hentry', List.mem_cons_of_mem oomFd hclosed⟩
  · intro u v group' hu hv
    exact h.alone u v group' (of_disables_goes hu hsame) (of_disables_goes hv hsame)
  · intro oomFd' group' hopened'
    refine (h.kept oomFd' group' hopened').imp (List.mem_cons_of_mem oomFd) (.imp_right
      (exists_pc_goes (·.owned = some (group', oomFd')) ?_))
    rw [ht]
    exact Option.some_ne_none _ ∘ Eq.symm
  · intro u rest hu
    exact h.scanning u rest (of_pc_goes hu nofun).2

/-- The entry whose descriptor was closed. -/
theorem Invariant.removes (h : s.Invariant) (ht : s.pc t = .disableRemove group)
    (hmutex : s.mOomFdsMutex = none) :
    ({ s with mOomFds := s.mOomFds.erase group }.goes t .idle).Invariant := by
  obtain ⟨oomFd, hentry, hclosed⟩ := h.removing t group ht
  have hdisables : (s.pc t).disables = some group := by rw [ht]; rfl
  have hentries : ∀ {group' : String} {oomFd' : Nat},
      (s.mOomFds.erase group)[group']? = some oomFd' →
      group' ≠ group ∧ s.mOomFds[group']? = some oomFd' := by
    intro group' oomFd' herased
    rw [Std.TreeMap.getElem?_erase] at herased
    split at herased
    · cases herased
    · next hne => exact ⟨fun heq => hne (by simp [heq]), herased⟩
  have hkeep : ∀ {group' : String}, group' ≠ group →
      (s.mOomFds.erase group)[group']? = s.mOomFds[group']? := by
    intro group' hne
    rw [Std.TreeMap.getElem?_erase, if_neg]
    simp [Ne.symm hne]
  -- nobody else disables the group
  have hother : ∀ {u : Thread} {group' : String}, u ≠ t → (s.pc u).disables = some group' →
      group' ≠ group := by
    rintro u group' hne hu rfl
    exact hne (h.alone u t group' hu hdisables)
  refine ⟨h.once, h.known, ?_, ?_, ?_, ?_, ?_, ?_, ?_, ?_, h.reads⟩
  · intro group' oomFd' herased
    obtain ⟨hgroup, hentry'⟩ := hentries herased
    obtain ⟨hopened, hstate⟩ := h.entry group' oomFd' hentry'
    refine ⟨hopened, hstate.imp_right (exists_pc_goes (· = .disableRemove group') ?_)⟩
    intro hremove
    cases ht.symm.trans hremove
    exact hgroup rfl
  · intro u group' oomFd' hu
    obtain ⟨hopened, hopen, hnot⟩ := h.owned u group' oomFd' (of_owned_goes hu rfl).2
    exact ⟨hopened, hopen, fun herased => hnot (hentries herased).2⟩
  · intro u v group' oomFd' hu hv
    exact h.distinct u v group' oomFd' (of_owned_goes hu rfl).2 (of_owned_goes hv rfl).2
  · intro u group' oomFd' hu
    obtain ⟨hne, hu⟩ := of_pc_goes hu nofun
    obtain ⟨hentry', hopen⟩ := h.closing u group' oomFd' hu
    exact ⟨(hkeep (hother hne (by rw [hu]; rfl))).trans hentry', hopen⟩
  · intro u group' hu
    obtain ⟨hne, hu⟩ := of_pc_goes hu nofun
    obtain ⟨oomFd', hentry', hclosed'⟩ := h.removing u group' hu
    exact ⟨oomFd', (hkeep (hother hne (by rw [hu]; rfl))).trans hentry', hclosed'⟩
  · intro u v group' hu hv
    exact h.alone u v group' (of_disables_goes hu nofun) (of_disables_goes hv nofun)
  · intro oomFd' group' hopened
    rcases h.kept oomFd' group' hopened with hclosed' | hentry' | ⟨u, hu⟩
    · exact .inl hclosed'
    · by_cases heq : group' = group
      · subst heq
        cases hentry.symm.trans hentry'
        exact .inl hclosed
      · exact .inr (.inl ((hkeep heq).trans hentry'))
    · refine .inr (.inr (exists_pc_goes (·.owned = some (group', oomFd')) ?_ ⟨u, hu⟩))
      rw [ht]
      exact Option.some_ne_none _ ∘ Eq.symm
  · intro u rest hu
    exact absurd (of_pc_goes hu nofun).2 (h.not_scan hmutex u rest)

theorem Invariant.gets (h : s.Invariant)
    (hfirst : ∀ group, s.pc t = .disableGet group → (s.mOomFds[group]?).isSome →
      ∀ u, (s.pc u).disables ≠ some group)
    (hs : s.getsOomFd t = some s') : s'.Invariant := by
  unfold getsOomFd at hs
  split at hs
  · next group ht =>
    split at hs <;> cases hs
    · exact h.goes (by rw [ht]; rfl) (by rw [ht]; nofun) nofun nofun nofun
    · exact h.goes (by rw [ht]; rfl) (by rw [ht]; nofun) nofun nofun nofun
  · next group ht =>
    split at hs <;> cases hs
    · next oomFd hentry =>
      have hnobody := hfirst group ht (by rw [hentry]; rfl)
      refine h.goes (by rw [ht]; rfl) (by rw [ht]; nofun) nofun ?_ nofun
      intro group' oomFd' hp
      cases hp
      refine ⟨hentry, fun hclosed => ?_, hnobody⟩
      rcases (h.entry group oomFd hentry).2 with hopen | ⟨u, hu⟩
      · exact hopen hclosed
      · exact hnobody u (by rw [hu]; rfl)
    · exact h.goes (by rw [ht]; rfl) (by rw [ht]; nofun) nofun nofun nofun
  · cases hs

theorem Invariant.adds_or_beaten (h : s.Invariant) (hmutex : s.mOomFdsMutex = none)
    (hs : s.addsOomFd t = some s') : s'.Invariant := by
  unfold addsOomFd at hs
  split at hs
  · next group oomFd ht =>
    split at hs <;> cases hs
    · next hnone => exact h.adds ht hmutex hnone
    · exact h.goes (by rw [ht]; rfl) (by rw [ht]; nofun) nofun nofun nofun
  · cases hs

theorem Invariant.step {e : Event Thread} (h : s.Invariant) (hc : Separate s e)
    (hs : step s e = some s') : s'.Invariant := by
  cases e with
  | enables t group =>
    obtain ⟨ht, rfl⟩ := of_onlyIf hs
    exact h.goes (by rw [ht]; rfl) (by rw [ht]; nofun) nofun nofun nofun
  | disables t group =>
    obtain ⟨ht, rfl⟩ := of_onlyIf hs
    exact h.goes (by rw [ht]; rfl) (by rw [ht]; nofun) nofun nofun nofun
  | getsOomFd t =>
    simp only [OomDescriptors.step, Option.ite_none_right_eq_some] at hs
    exact h.gets hc hs.2
  | opens t =>
    simp only [OomDescriptors.step] at hs
    split at hs
    · next group ht =>
      cases hs
      exact h.opens ht
    · cases hs
  | openFails t =>
    simp only [OomDescriptors.step] at hs
    split at hs
    · next group ht =>
      cases hs
      exact h.goes (by rw [ht]; rfl) (by rw [ht]; nofun) nofun nofun nofun
    · cases hs
  | registers t =>
    simp only [OomDescriptors.step] at hs
    split at hs
    · next group oomFd ht =>
      cases hs
      exact h.goes (by rw [ht]; rfl) (by rw [ht]; nofun) nofun nofun nofun
    · cases hs
  | registerFails t => exact hc.elim
  | addsOomFd t =>
    simp only [OomDescriptors.step, Option.ite_none_right_eq_some] at hs
    exact h.adds_or_beaten hs.1 hs.2
  | closes t =>
    simp only [OomDescriptors.step] at hs
    split at hs
    · next group oomFd ht =>
      cases hs
      exact h.closes_own ht
    · next group oomFd ht =>
      cases hs
      exact h.closes_entry ht
    · cases hs
  | removesOomFd t =>
    simp only [OomDescriptors.step] at hs
    split at hs
    · next group ht =>
      obtain ⟨hmutex, rfl⟩ := of_onlyIf hs
      exact h.removes ht hmutex
    · cases hs
  | scans t =>
    obtain ⟨⟨ht, hmutex⟩, rfl⟩ := of_onlyIf hs
    have hheld := h.with_mutex (h.not_scan hmutex) (some t)
    refine hheld.goes (by rw [ht]; rfl) (by rw [ht]; nofun) nofun nofun ?_
    intro rest hrest
    cases hrest
    refine ⟨rfl, fun entry hmem => ?_⟩
    exact Std.TreeMap.mem_toList_iff_getElem?_eq_some.mp hmem
  | scanReads t =>
    simp only [OomDescriptors.step] at hs
    split at hs
    · next entry rest ht =>
      rw [h.reads_open ht (hc entry rest ht), Bool.or_false] at hs
      cases hs
      refine h.goes (by rw [ht]; rfl) (by rw [ht]; nofun) nofun nofun ?_
      intro rest' hrest
      cases hrest
      obtain ⟨hheld, hentries⟩ := h.scanning t _ ht
      exact ⟨hheld, fun entry' hmem => hentries entry' (List.mem_cons_of_mem entry hmem)⟩
    · cases hs
  | scanEnds t =>
    simp only [OomDescriptors.step] at hs
    split at hs
    · next ht =>
      cases hs
      have hidle : (s.goes t .idle).Invariant :=
        h.goes (by rw [ht]; rfl) (by rw [ht]; nofun) nofun nofun nofun
      refine hidle.with_mutex ?_ none
      intro u rest hu
      obtain ⟨hne, hu⟩ := of_pc_goes hu nofun
      have hheld := (h.scanning t [] ht).1
      exact hne (Option.some.inj ((h.scanning u rest hu).1.symm.trans hheld))
    · cases hs

/-- Every descriptor has one owner in the runs in which calls that disable a group
    do not overlap with each other or with a scan, and every descriptor that is
    opened can be registered. -/
theorem oneOwner_of_separate (h : system.ReachableWhen Separate s) : s.OneOwner := by
  refine Invariant.oneOwner (h.invariant ?_ fun _ _ _ hI hc hs => hI.step hc hs)
  rintro s rfl
  exact invariant_init

/-- The converse for a scan: the entry it reads was closed. -/
theorem Invariant.scanReads_closed (h : s.Invariant) {entry : String × Nat}
    {rest : List (String × Nat)} (ht : s.pc t = .scan (entry :: rest))
    (hu : s.pc u = .disableRemove entry.1) (hs : OomDescriptors.step s (.scanReads t) = some s') :
    ¬ s'.OneOwner := by
  have hentry := (h.scanning t _ ht).2 entry (List.mem_cons_self ..)
  obtain ⟨oomFd, hentry', hclosed⟩ := h.removing u entry.1 hu
  cases hentry.symm.trans hentry'
  simp only [OomDescriptors.step, ht] at hs
  cases hs
  intro hone
  have hread : (s.readClosed || s.closed.contains entry.2) = false := hone.reads
  rw [List.contains_eq_mem, decide_eq_true hclosed, Bool.or_true] at hread
  cases hread

end Kept

/-! ## A group that is watched, scanned and no longer watched -/

section Runs

/-- `monitorOom(group, true)` by thread `t` for a group that is not in the table. -/
def enablesNew (t : Bool) (group : String) : List (Event Bool) :=
  [.enables t group, .getsOomFd t, .opens t, .registers t, .addsOomFd t]

/-- `Separate` for two threads. -/
def separates (s : OomDescriptors Bool) : Event Bool → Bool
  | .getsOomFd t =>
    match s.pc t with
    | .disableGet group => [true, false].all fun u => (s.pc u).disables != some group
    | _ => true
  | .registerFails _ => false
  | .scanReads t =>
    match s.pc t with
    | .scan (entry :: _) => [true, false].all fun u => s.pc u != .disableRemove entry.1
    | _ => true
  | _ => true

theorem separate_of_separates {s : OomDescriptors Bool} {e : Event Bool}
    (h : separates s e = true) : Separate s e := by
  cases e with
  | getsOomFd t =>
    intro group ht _ u
    simp only [separates, ht, List.all_cons, List.all_nil, Bool.and_true, Bool.and_eq_true,
      bne_iff_ne] at h
    exact u.rec h.2 h.1
  | registerFails t => cases h
  | scanReads t =>
    intro entry rest ht u
    simp only [separates, ht, List.all_cons, List.all_nil, Bool.and_true, Bool.and_eq_true,
      bne_iff_ne] at h
    exact u.rec h.2 h.1
  | _ => trivial

/-- Two threads enable the same group; the one that comes second closes its own
    descriptor.  The first disables the group while the other scans. -/
def watched : List (Event Bool) :=
  [.enables false "/arras/comp", .getsOomFd false, .opens false] ++
    enablesNew true "/arras/comp" ++
    [.registers false, .addsOomFd false, .closes false,
      .disables true "/arras/comp", .getsOomFd true,
      .scans false, .scanReads false, .scanEnds false,
      .closes true, .removesOomFd true]

theorem oneOwner_watched : ∃ s : OomDescriptors Bool,
    s.opened.length = 2 ∧ s.closed = [1, 0] ∧ s.OneOwner := by
  obtain ⟨s, hreach, hs⟩ := System.exists_reachableWhen_of_run (M := system) (C := Separate)
    (fun s => decide (s.opened.length = 2 ∧ s.closed = [1, 0])) separates watched rfl
    (fun _ _ => separate_of_separates) (by decide +kernel)
  obtain ⟨hlen, hclosed⟩ := of_decide_eq_true hs
  exact ⟨s, hlen, hclosed, oneOwner_of_separate hreach⟩

/-- The out-of-memory monitor and the exit monitor both disable the group of a
    process that is killed for its memory. -/
theorem not_forall_oneOwner : ¬ ∀ s : OomDescriptors Bool, system.Reachable s → s.OneOwner := by
  intro hall
  obtain ⟨s, hreach, hs⟩ := System.exists_reachable_of_run (M := system)
    (fun s : OomDescriptors Bool => decide (s.closed.count 0 = 2))
    (enablesNew true "/arras/comp" ++
      [.disables true "/arras/comp", .disables false "/arras/comp",
        .getsOomFd true, .getsOomFd false, .closes true, .closes false]) rfl (by decide +kernel)
  have honce := (hall s hreach).once 0
  rw [of_decide_eq_true hs] at honce
  exact absurd honce (by decide)

end Runs

end OomDescriptors

end Arras4Core.Execute
