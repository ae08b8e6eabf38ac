/-
  Arras4Core.Execute.ContextFiles

  Any number of `ShellContext` and `RezContext` objects in one process, as a
  transition system: they are constructed, and given texts, in any order.

  A context keeps the path of its file and not the text, so the wrapped command
  reads what is in the file when it starts.  Beside each context stands the text
  it was given by a call that returned true.
-/

import Arras4Core.Execute.WrapArgs
import Arras4Core.Lib.System

namespace Arras4Core.Execute

open Arras4Core.Api (UUID)
open Arras4Core.Lib
open Arras4Core.Lib.Shell
open Arras4Core.Lib.Text

namespace Context

/-- `setScript` or `setContext`. -/
def set (uuid : Nat → UUID) (text : String) (outcome : Outcome) (c : Context) (host : Host) :
    Except String Unit × Context × Host :=
  match c with
  | .shell c =>
    let (ok, c, host) := c.setScript uuid text outcome host
    (ok, .shell c, host)
  | .rez c =>
    let (ok, c, host) := c.setContext text outcome host
    (ok, .rez c, host)

/-- The name of the file that it writes. -/
def generatedPath : Context → String
  | .shell _ => "/tmp/generated_script_" ++ ShellContext.scriptId.toString
  | .rez c => c.generatedPath

/-- The file that is opened for that name. -/
def generated (c : Context) : List Char := cStr c.generatedPath.toList

/-- All `ShellContext`s write to the same file.  Two `RezContext`s do if they have the
    same name and the same id, as they have if both ids are null. -/
def SameFile : Context → Context → Prop
  | .shell _, .shell _ => True
  | .rez c, .rez d =>
    cStr (c.mName ++ "-" ++ c.mId.toString).toList = cStr (d.mName ++ "-" ++ d.mId.toString).toList
  | _, _ => False

/-- The name of a rez 1 context, which becomes part of a shell command, needs no
    quoting. -/
def NamePlain : Context → Prop
  | .shell _ => True
  | .rez c => c.mMajorVersion = 1 → ∀ char ∈ c.mName.toList, isPlain char = true

end Context

/-- A process that is started with these arguments reads the file: bash sources it, or
    `rez-env` has its name as an argument. -/
def Reads (out : SpawnArgs) (file : List Char) : Prop :=
  (∃ cmd head rest, out.args = ["-c", cmd] ∧ cmd.toList = head ++ rest ∧
    Complete head [.word "source".toList, .word file, .andIf]) ∨
  ∃ path cmd, out.args = ["--input", path, "-c", cmd] ∧ file = cStr path.toList

structure Entry where
  context : Context
  given : Option String := none

structure ContextFiles where
  host : Host := {}
  entries : List Entry := []

namespace ContextFiles

inductive Event
  | newShell (type : ShellType) (pseudoCompiler : String) (sessionId : UUID)
  | newRez (name : String) (majorVersion : Nat) (packagesPathPrefix : String)
      (omitDefaultPackagePath : Bool) (pseudoCompiler : String) (id sessionId : UUID)
  | set (i : Nat) (text : String) (outcome : Outcome)
  | setContextFile (i : Nat) (filepath : String)

def step (uuid : Nat → UUID) (getenv : String → Option String) (s : ContextFiles) :
    Event → Option ContextFiles
  | .newShell type pseudoCompiler sessionId =>
    let (c, host) := ShellContext.new uuid type pseudoCompiler sessionId s.host
    some { host := host, entries := s.entries ++ [{ context := .shell c }] }
  | .newRez name majorVersion packagesPathPrefix omitDefaultPackagePath pseudoCompiler id
      sessionId =>
    match RezContext.new uuid getenv name majorVersion packagesPathPrefix omitDefaultPackagePath
      pseudoCompiler id sessionId s.host with
    | (.ok c, host) => some { host := host, entries := s.entries ++ [{ context := .rez c }] }
    | (.error _, host) => some { s with host := host }
  | .set i text outcome =>
    s.entries[i]?.map fun entry =>
      let (ok, c, host) := entry.context.set uuid text outcome s.host
      { host := host
        entries := s.entries.set i
          { context := c
            given :=
              match ok with
              | .ok _ => some text
              | .error _ => none } }
  | .setContextFile i filepath =>
    match s.entries[i]? with
    | some { context := .rez c, .. } =>
      some { s with entries := s.entries.set i { context := .rez (c.setContextFile filepath) } }
    | _ => none

def system (uuid : Nat → UUID) (getenv : String → Option String) : System ContextFiles Event where
  init s := s = {}
  step := step uuid getenv

variable {uuid : Nat → UUID} {getenv : String → Option String} {s s' : ContextFiles}

/-- Every wrapped command reads the text that was given to its own context. -/
def Own (getenv : String → Option String) (s : ContextFiles) : Prop :=
  ∀ (i : Nat) (entry : Entry) (text : String), s.entries[i]? = some entry →
    entry.given = some text → ∀ args, ∃ file,
      Reads (entry.context.wrap getenv args) file ∧ s.host.files file = some text

/-- No other context that has been given a text has the file that is written, the
    whole text gets there if the call returns true, and the path is one word. -/
def Separate (s : ContextFiles) : Event → Prop
  | .set i text outcome =>
    ∀ entry, s.entries[i]? = some entry →
      (outcome ≠ .notOpen → ∀ j other, j ≠ i → s.entries[j]? = some other →
        other.given ≠ none → ¬ entry.context.SameFile other.context) ∧
      (∀ kept, outcome = .good kept → text.length ≤ kept) ∧ entry.context.NamePlain
  | _ => True

/-! ## The file of a context -/

end ContextFiles

theorem Reads.unique {out : SpawnArgs} {file file' : List Char} (h : Reads out file)
    (h' : Reads out file') : file = file' := by
  rcases h with ⟨cmd, head, rest, hargs, htext, hhead⟩ | ⟨path, cmd, hargs, rfl⟩
  · rcases h' with ⟨cmd', head', rest', hargs', htext', hhead'⟩ | ⟨path', cmd', hargs', -⟩
    · rw [hargs] at hargs'
      simp only [List.cons.injEq, and_true, true_and] at hargs'
      subst hargs'
      have hfront := hhead.unique hhead' (htext.symm.trans htext') rfl
      simpa using hfront
    · rw [hargs] at hargs'
      simp at hargs'
  · rcases h' with ⟨cmd', head', rest', hargs', -, -⟩ | ⟨path', cmd', hargs', rfl⟩
    · rw [hargs] at hargs'
      simp at hargs'
    · rw [hargs] at hargs'
      simp only [List.cons.injEq, true_and] at hargs'
      rw [hargs'.1]

theorem Reads.source {out : SpawnArgs} {path rest : String}
    (hargs : out.args = ["-c", "source " ++ path ++ " && " ++ rest]) (h : Plain path.toList) :
    Reads out (cStr path.toList) := by
  have hzero : '\x00' ∉ path.toList := fun hmem => (of_isPlain (h.all _ hmem)).1 rfl
  rw [cStr_of_not_mem hzero]
  exact .inl ⟨_, _, rest.toList, hargs, String.toList_append .., Context.complete_source h⟩

namespace Context

/-- The context after a call that writes its file. -/
def written : Context → Context
  | .shell c => .shell { c with mScriptFilePath := generatedPath (.shell c) }
  | .rez c => .rez { c with mContextFilePath := generatedPath (.rez c) }

theorem generated_written (c : Context) : c.written.generated = c.generated := by
  cases c <;> rfl

/-- What both calls do: they write the file of the context. -/
theorem set_eq (uuid : Nat → UUID) (text : String) (outcome : Outcome) (c : Context)
    (host : Host) : ∃ what host₁, host₁.files = host.files ∧
      c.set uuid text outcome host
        = ((Host.write what c.generatedPath text outcome host₁).1, c.written,
          (Host.write what c.generatedPath text outcome host₁).2) := by
  cases c with
  | shell c => exact ⟨"script", (host.generate uuid).2, rfl, rfl⟩
  | rez c => exact ⟨"context", host, rfl, rfl⟩

theorem plain_generatedPath {c : RezContext} (h : ∀ char ∈ c.mName.toList, isPlain char = true) :
    Plain c.generatedPath.toList := by
  have hfirst : Plain "/tmp/generated_rezCtxt_".toList :=
    ⟨by decide, List.all_eq_true.mp (by decide), by decide⟩
  have hdash : ∀ char ∈ "-".toList, isPlain char = true := List.all_eq_true.mp (by decide)
  exact ((hfirst.toList_append h).toList_append hdash).toList_append (isPlain_uuid c.mId)

/-- A context whose file is written reads that file. -/
theorem reads_written (getenv : String → Option String) {c : Context} (h : c.NamePlain)
    (args : SpawnArgs) : Reads (c.written.wrap getenv args) c.generated := by
  cases c with
  | shell c =>
    have hargs : ((written (.shell c)).wrap getenv args).args
        = ["-c", "source " ++ generatedPath (.shell c) ++ " && " ++
            cmdstr (args.program ++ suffix (.shell c)) args.args] := rfl
    exact Reads.source hargs plain_generatedScript
  | rez c =>
    by_cases hmajor : c.mMajorVersion = 1
    · have hargs : ((written (.rez c)).wrap getenv args).args
          = ["-c", "source " ++ c.generatedPath ++ " && " ++
              cmdstr (args.program ++ suffix (.rez c)) args.args] := by
        simp only [written, wrap, RezContext.wrap, if_pos hmajor]
        rfl
      exact Reads.source hargs (plain_generatedPath (h hmajor))
    · have hargs : ((written (.rez c)).wrap getenv args).args
          = ["--input", c.generatedPath, "-c",
              cmdstr (args.program ++ suffix (.rez c)) args.args] := by
        simp only [written, wrap, RezContext.wrap, if_neg hmajor]
        rfl
      exact .inr ⟨c.generatedPath, _, hargs, rfl⟩

theorem generated_shell (c : ShellContext) : (Context.shell c).generated
    = "/tmp/generated_script_".toList ++ cStr ShellContext.scriptId.toString.toList := by
  have hzero : '\x00' ∉ "/tmp/generated_script_".toList := by decide
  rw [← cStr_append hzero, ← String.toList_append]
  rfl

theorem generated_rez (c : RezContext) : (Context.rez c).generated
    = "/tmp/generated_rezCtxt_".toList ++ cStr (c.mName ++ "-" ++ c.mId.toString).toList := by
  have hzero : '\x00' ∉ "/tmp/generated_rezCtxt_".toList := by decide
  rw [← cStr_append hzero, ← String.toList_append, ← String.append_assoc, ← String.append_assoc]
  rfl

theorem generated_eq_iff {c d : Context} : c.generated = d.generated ↔ c.SameFile d := by
  cases c with
  | shell c =>
    cases d with
    | shell d => exact ⟨fun _ => trivial, fun _ => rfl⟩
    | rez d =>
      rw [generated_shell, generated_rez]
      simp [SameFile]
  | rez c =>
    cases d with
    | shell d =>
      rw [generated_shell, generated_rez]
      simp [SameFile]
    | rez d => rw [generated_rez, generated_rez, List.append_cancel_left_eq, SameFile]

end Context

namespace ContextFiles

/-! ## Every context has its own text -/

/-- A context that has been given a text reads its file, and the text is in there. -/
def Invariant (getenv : String → Option String) (s : ContextFiles) : Prop :=
  ∀ (i : Nat) (entry : Entry) (text : String), s.entries[i]? = some entry →
    entry.given = some text →
      (∀ args, Reads (entry.context.wrap getenv args) entry.context.generated) ∧
      s.host.files entry.context.generated = some text

theorem Invariant.own (h : Invariant getenv s) : Own getenv s := by
  intro i entry text hentry hgiven args
  obtain ⟨hreads, hfile⟩ := h i entry text hentry hgiven
  exact ⟨_, hreads args, hfile⟩

/-- A context that is new has not been given a text. -/
theorem Invariant.append (h : Invariant getenv s) (c : Context) {host : Host}
    (hfiles : host.files = s.host.files) :
    Invariant getenv { host := host, entries := s.entries ++ [{ context := c }] } := by
  intro i entry text hentry hgiven
  rw [hfiles]
  simp only [List.getElem?_append] at hentry
  split at hentry
  · exact h i entry text hentry hgiven
  · obtain rfl : { context := c } = entry := by
      have hmem := List.mem_of_getElem? hentry
      exact (List.mem_singleton.mp hmem).symm
    cases hgiven

theorem Invariant.next (h : Invariant getenv s) {e : Event} (hcond : Separate s e)
    (hs : step uuid getenv s e = some s') : Invariant getenv s' := by
  cases e with
  | newShell type pseudoCompiler sessionId =>
    cases hs
    exact h.append _ (ShellContext.files_new uuid type pseudoCompiler sessionId s.host)
  | newRez name majorVersion packagesPathPrefix omitDefaultPackagePath pseudoCompiler id
      sessionId =>
    have hfiles := RezContext.files_new uuid getenv name majorVersion packagesPathPrefix
      omitDefaultPackagePath pseudoCompiler id sessionId s.host
    simp only [step] at hs
    split at hs
    · next heq =>
      rw [heq] at hfiles
      cases hs
      exact h.append _ hfiles
    · -- the constructor throws
      next heq =>
      rw [heq] at hfiles
      cases hs
      intro i entry text hentry hgiven
      rw [hfiles]
      exact h i entry text hentry hgiven
  | set i text outcome =>
    obtain ⟨entry, hentry, rfl⟩ := Option.map_eq_some_iff.mp hs
    obtain ⟨hseparate, hkept, hname⟩ := hcond entry hentry
    obtain ⟨what, host, hfiles, heq⟩ := entry.context.set_eq uuid text outcome s.host
    simp only [heq]
    intro j other text' hother hgiven
    rw [List.getElem?_set] at hother
    split at hother
    · split at hother
      case isFalse => cases hother
      next hij hlt =>
      cases hother
      -- the call has returned true, so the whole text is in the file
      cases outcome with
      | notOpen => cases hgiven
      | bad kept => cases hgiven
      | good kept =>
        obtain rfl : text = text' := Option.some.inj hgiven
        refine ⟨fun args => ?_, ?_⟩
        · rw [Context.generated_written]
          exact Context.reads_written getenv hname args
        · rw [Context.generated_written]
          exact Host.files_write_good what _ host (hkept kept rfl)
    · next hij =>
      obtain ⟨hreads, hfile⟩ := h j other text' hother hgiven
      refine ⟨hreads, ?_⟩
      rw [← hfile, ← hfiles]
      refine Host.files_write_ne what text outcome host fun hopen hsame => ?_
      have hgiven' : other.given ≠ none := by simp [hgiven]
      exact hseparate hopen j other (Ne.symm hij) hother hgiven'
        (Context.generated_eq_iff.mp hsame.symm)
  | setContextFile i filepath =>
    simp only [step] at hs
    split at hs
    case h_2 => cases hs
    cases hs
    intro j other text hother hgiven
    rw [List.getElem?_set] at hother
    split at hother
    · split at hother
      · cases hother
        cases hgiven
      · cases hother
    · exact h j other text hother hgiven

theorem invariant_of_separate (h : (system uuid getenv).ReachableWhen Separate s) :
    Invariant getenv s := by
  apply h.invariant
  · rintro s₀ rfl i entry text hentry
    cases hentry
  · intro s₁ e s₂ hI hcond hs
    exact hI.next hcond hs

/-- **A wrapped command reads the text of its own context** in every run in which no
    context writes the file of another one. -/
theorem own_of_separate (h : (system uuid getenv).ReachableWhen Separate s) : Own getenv s :=
  (invariant_of_separate h).own

/-- A shell context and a rez context. -/
theorem own_of_separate_two : ∃ s, (system (fun _ => UUID.null) fun _ => none).ReachableWhen
      Separate s ∧
    s.entries.map Entry.given = [some "script", some "context"] ∧ Own (fun _ => none) s := by
  have h₀ : (system (fun _ => UUID.null) fun _ => none).ReachableWhen Separate {} := .init rfl
  have h₁ := h₀.next (e := Event.newShell .bash "" UUID.null) trivial rfl
  have h₂ := h₁.next (e := Event.newRez "comp" 1 "" false "" UUID.null UUID.null) trivial rfl
  have h₃ := h₂.next (e := Event.set 0 "script" (.good 6)) (by
    intro entry hentry
    cases hentry
    refine ⟨fun _ j other hj hother hgiven => ?_, fun kept hkept => ?_, trivial⟩
    · -- no text has been given yet
      match j with
      | 0 => exact absurd rfl hj
      | 1 =>
        cases hother
        exact absurd rfl hgiven
      | j + 2 => cases hother
    · cases hkept
      decide) rfl
  have h₄ := h₃.next (e := Event.set 1 "context" (.good 7)) (by
    intro entry hentry
    cases hentry
    refine ⟨fun _ j other hj hother _ => ?_, fun kept hkept => ?_, fun _ => ?_⟩
    · match j with
      | 0 =>
        cases hother
        exact id
      | 1 => exact absurd rfl hj
      | j + 2 => cases hother
    · cases hkept
      decide
    · exact List.all_eq_true.mp (by decide)) rfl
  exact ⟨_, h₄, rfl, own_of_separate h₄⟩

/-- Where a context writes the file of another one, that one loses its text. -/
theorem not_own_of_sameFile (h : Invariant getenv s) {i j kept : Nat} {entry other : Entry}
    {text text' : String} (hentry : s.entries[i]? = some entry)
    (hother : s.entries[j]? = some other) (hij : i ≠ j) (hgiven : other.given = some text')
    (hsame : entry.context.SameFile other.context) (hkept : text.length ≤ kept)
    (hne : text ≠ text') (hs : step uuid getenv s (.set i text (.good kept)) = some s') :
    ¬ Own getenv s' := by
  intro hown
  obtain ⟨what, host, -, heq⟩ := entry.context.set_eq uuid text (.good kept) s.host
  simp only [step, hentry, Option.map_some, heq] at hs
  cases hs
  have hother' : ∀ e, (s.entries.set i e)[j]? = some other := by
    intro e
    rw [List.getElem?_set_ne hij]
    exact hother
  obtain ⟨file, hreads, hfile⟩ := hown j other text' (hother' _) hgiven
    { program := "", args := [] }
  obtain rfl := hreads.unique ((h j other text' hother hgiven).1 _)
  rw [← Context.generated_eq_iff.mpr hsame] at hfile
  exact hne (Option.some.inj ((Host.files_write_good what _ host hkept).symm.trans hfile))

/-- All writes succeed. -/
def Written (_ : ContextFiles) : Event → Prop
  | .set _ text outcome => ∃ kept, outcome = .good kept ∧ text.length ≤ kept
  | _ => True

/-- Ids that are different for the first 256 draws. -/
def countingUuid (n : Nat) : UUID := ⟨Vector.replicate 16 (UInt8.ofNat n)⟩

/-- The second script replaces the first one. -/
theorem not_own_of_scripts : ¬ ∀ (uuid : Nat → UUID) (getenv : String → Option String)
    (s : ContextFiles), (system uuid getenv).ReachableWhen Written s →
    (∀ m n, m < s.host.draws → n < s.host.draws → uuid m = uuid n → m = n) →
    (∀ (i j : Nat) (entry other : Entry), s.entries[i]? = some entry →
      s.entries[j]? = some other → i ≠ j → entry.given ≠ other.given) →
    Own getenv s := by
  intro hall
  have hdraws : ∀ m < 4, ∀ n < 4, countingUuid m = countingUuid n → m = n := by decide
  have h₀ : (system countingUuid fun _ => none).ReachableWhen
      (fun s e => Separate s e ∧ Written s e) {} := .init rfl
  have h₁ := h₀.next (e := Event.newShell .bash "" UUID.null) ⟨trivial, trivial⟩ rfl
  have h₂ := h₁.next (e := Event.newShell .bash "" UUID.null) ⟨trivial, trivial⟩ rfl
  have h₃ := h₂.next (e := Event.set 0 "first" (.good 5)) (by
    refine ⟨fun entry hentry => ?_, 5, rfl, by decide⟩
    cases hentry
    refine ⟨fun _ j other hj hother hgiven => ?_, fun kept hkept => ?_, trivial⟩
    · match j with
      | 0 => exact absurd rfl hj
      | 1 =>
        cases hother
        exact absurd rfl hgiven
      | j + 2 => cases hother
    · cases hkept
      decide) rfl
  have hseparate := h₃.restrict (D := Separate) fun _ _ _ hc => hc.1
  have hwritten := h₃.restrict (D := Written) fun _ _ _ hc => hc.2
  have h₄ := hwritten.next (e := Event.set 1 "second" (.good 6)) ⟨6, rfl, by decide⟩ rfl
  refine not_own_of_sameFile (invariant_of_separate hseparate) (i := 1) (j := 0) rfl rfl
    (by decide) rfl trivial (Nat.le_refl 6) (by decide) rfl (hall _ _ _ h₄ ?_ ?_)
  · intro m n hm hn heq
    exact hdraws m hm n hn heq
  · intro i j entry other hentry hother hij
    match i, j with
    | 0, 0 => exact absurd rfl hij
    | 1, 1 => exact absurd rfl hij
    | 0, 1 =>
      cases hentry
      cases hother
      show some "first" ≠ some "second"
      decide
    | 1, 0 =>
      cases hentry
      cases hother
      show some "second" ≠ some "first"
      decide
    | i + 2, _ => cases hentry
    | _, j + 2 => cases hother

end ContextFiles

end Arras4Core.Execute
