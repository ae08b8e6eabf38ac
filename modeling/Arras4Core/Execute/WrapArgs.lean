/-
  Arras4Core.Execute.WrapArgs

  A wrapped command and the arguments it was made of.  `wrap` writes the program
  and its arguments behind one another with a blank between them, and the shell
  takes them apart by its rules of quoting.
-/

import Arras4Core.Execute.ShellContext
import Arras4Core.Lib.Shell

namespace Arras4Core.Execute.Context

open Arras4Core.Api (UUID)
open Arras4Core.Lib.Shell

/-- The string that the shell is given, the last argument. -/
def command (out : SpawnArgs) : String := out.args.getLastD ""

/-- The program, with the suffix of the context, and its arguments. -/
def words (c : Context) (args : SpawnArgs) : List (List Char) :=
  (args.program ++ c.suffix).toList :: args.args.map String.toList

/-- The text before the command is complete, and behind it the shell finds the
    program and exactly the arguments. -/
def Recovers (getenv : String → Option String) (c : Context) (args : SpawnArgs) : Prop :=
  ∃ front, Complete c.head.toList front ∧
    tokens (command (c.wrap getenv args)).toList = some (front ++ (c.words args).map .word)

/-- What wrapping makes of two lists of arguments. -/
def Preserves (getenv : String → Option String) (c : Context) (args₁ args₂ : SpawnArgs) : Prop :=
  command (c.wrap getenv args₁) ≠ command (c.wrap getenv args₂) ∧
  c.Recovers getenv args₁ ∧ c.Recovers getenv args₂

/-! ## The command -/

theorem toList_cmdstr (program : String) (args : List String) :
    (cmdstr program args).toList
      = program.toList ++ (args.map String.toList).flatMap (' ' :: ·) := by
  unfold cmdstr
  induction args generalizing program with
  | nil => simp
  | cons arg args ih =>
    rw [List.foldl_cons, ih]
    simp

theorem command_wrap (getenv : String → Option String) (c : Context) (args : SpawnArgs) :
    command (c.wrap getenv args) = c.head ++ cmdstr (args.program ++ c.suffix) args.args := by
  obtain ⟨options, hargs⟩ := wrap_args getenv c args
  simp [command, hargs, List.getLastD_eq_getLast?]

theorem recovers_iff (getenv : String → Option String) (c : Context) (args : SpawnArgs) :
    c.Recovers getenv args ↔
      (∃ front, Complete c.head.toList front) ∧ ∀ w ∈ c.words args, Plain w := by
  have hcommand : (command (c.wrap getenv args)).toList = c.head.toList ++ _ :=
    (congrArg String.toList (command_wrap getenv c args)).trans String.toList_append
  rw [toList_cmdstr] at hcommand
  unfold Recovers
  rw [hcommand]
  constructor
  · rintro ⟨front, hfront, htokens⟩
    rw [hfront] at htokens
    obtain ⟨ts, hts, heq⟩ := Option.map_eq_some_iff.mp htokens
    rw [List.append_cancel_left heq] at hts
    exact ⟨⟨front, hfront⟩, tokens_words.mp hts⟩
  · rintro ⟨⟨front, hfront⟩, hplain⟩
    refine ⟨front, hfront, ?_⟩
    rw [hfront, tokens_words.mpr hplain]
    rfl

/-! ## The text before the command -/

theorem isPlain_hexDigit (n : Nat) : isPlain (UUID.hexDigit n) = true := by
  have hall : ("0123456789abcdef".toList.all isPlain) = true := by decide
  have hmem : UUID.hexDigit n ∈ "0123456789abcdef".toList := by
    rw [UUID.hexDigit, List.getD_eq_getElem?_getD]
    cases hn : "0123456789abcdef".toList[n]? with
    | none => simp
    | some c => exact List.mem_of_getElem? hn
  exact List.all_eq_true.mp hall _ hmem

/-- An id has no character that needs quoting. -/
theorem isPlain_uuid (id : UUID) : ∀ c ∈ id.toString.toList, isPlain c = true := by
  have hgroup : ∀ start count, ∀ c ∈
      (((id.mBytes.toList.map UUID.hexByte).drop start).take count).flatten,
      isPlain c = true := by
    intro start count c hc
    obtain ⟨digits, hdigits, hc⟩ := List.mem_flatten.mp hc
    obtain ⟨b, -, rfl⟩ := List.mem_map.mp (List.mem_of_mem_drop (List.mem_of_mem_take hdigits))
    rcases List.mem_cons.mp hc with rfl | hc
    · exact isPlain_hexDigit _
    · rw [List.mem_singleton.mp hc]
      exact isPlain_hexDigit _
  have hdash : isPlain '-' = true := by decide
  intro c hc
  simp only [UUID.toString, String.toList_ofList, List.mem_append, List.mem_cons] at hc
  rcases hc with (((hc | rfl | hc) | rfl | hc) | rfl | hc) | rfl | hc
  all_goals first | exact hdash | exact hgroup _ _ c hc

theorem complete_source {path : String} (h : Plain path.toList) :
    Complete ("source " ++ path ++ " && ").toList
      [.word "source".toList, .word path.toList, .andIf] := by
  have hsource : Plain "source".toList := ⟨by decide, List.all_eq_true.mp (by decide), by decide⟩
  have hcomplete := ((complete_plain hsource).append (complete_plain h)).append complete_andIf
  simpa using hcomplete

/-- The script file of a context is a word of its own. -/
theorem plain_generatedScript :
    Plain ("/tmp/generated_script_" ++ ShellContext.scriptId.toString).toList := by
  have hfirst : Plain "/tmp/generated_script_".toList :=
    ⟨by decide, List.all_eq_true.mp (by decide), by decide⟩
  exact hfirst.toList_append (isPlain_uuid _)

/-! ## The arguments -/

/-- The arguments are known from the words. -/
theorem args_inj {c : Context} {args₁ args₂ : SpawnArgs} (h : c.words args₁ = c.words args₂) :
    args₁.args = args₂.args :=
  (List.map_inj_right fun _ _ => String.toList_inj.mp).mp (List.cons.inj h).2

/-- What the shell finds is the same for the same command. -/
theorem words_inj {getenv : String → Option String} {c : Context} {args₁ args₂ : SpawnArgs}
    (h₁ : c.Recovers getenv args₁) (h₂ : c.Recovers getenv args₂)
    (heq : command (c.wrap getenv args₁) = command (c.wrap getenv args₂)) :
    c.words args₁ = c.words args₂ := by
  obtain ⟨front₁, hfront₁, htokens₁⟩ := h₁
  obtain ⟨front₂, hfront₂, htokens₂⟩ := h₂
  -- the text before the command is the same, so it has the same tokens
  have hfront : front₁ = front₂ :=
    Option.some.inj (hfront₁.tokens_eq.symm.trans hfront₂.tokens_eq)
  rw [heq, htokens₂, hfront] at htokens₁
  have hmap := List.append_cancel_left (Option.some.inj htokens₁)
  exact ((List.map_inj_right fun _ _ => Token.word.inj).mp hmap).symm

/-- **Wrapping preserves the arguments** if and only if the text before the command is
    complete and no word of the command needs quoting. -/
theorem wrap_preserves_iff (getenv : String → Option String) (c : Context)
    {args₁ args₂ : SpawnArgs} (hprogram : args₁.program = args₂.program)
    (hargs : args₁.args ≠ args₂.args) :
    c.Preserves getenv args₁ args₂ ↔
      (∃ front, Complete c.head.toList front) ∧ Plain (args₁.program ++ c.suffix).toList ∧
      ∀ arg ∈ args₁.args ++ args₂.args, Plain arg.toList := by
  have hrecovers₁ := recovers_iff getenv c args₁
  have hrecovers₂ := recovers_iff getenv c args₂
  rw [words, List.forall_mem_cons, List.forall_mem_map] at hrecovers₁ hrecovers₂
  rw [← hprogram] at hrecovers₂
  rw [List.forall_mem_append]
  constructor
  · rintro ⟨-, h₁, h₂⟩
    obtain ⟨hhead, hplain, hall₁⟩ := hrecovers₁.mp h₁
    exact ⟨hhead, hplain, hall₁, (hrecovers₂.mp h₂).2.2⟩
  · rintro ⟨hhead, hplain, hall₁, hall₂⟩
    have h₁ := hrecovers₁.mpr ⟨hhead, hplain, hall₁⟩
    have h₂ := hrecovers₂.mpr ⟨hhead, hplain, hall₂⟩
    exact ⟨fun heq => hargs (args_inj (words_inj h₁ h₂ heq)), h₁, h₂⟩

/-- The context of a script, and arguments that are options. -/
theorem wrap_preserves_iff_options :
    let c := Context.shell
      { mShellType := .bash, mPseudoCompiler := "", mSessionId := UUID.null
        mScriptFilePath := "/tmp/generated_script_" ++ ShellContext.scriptId.toString }
    c.Preserves (fun _ => none) { program := "execComp", args := ["--cores", "2"] }
      { program := "execComp", args := ["--cores", "3"] } := by
  intro c
  have hne : ["--cores", "2"] ≠ ["--cores", "3"] := by decide
  refine Iff.mpr (wrap_preserves_iff (fun _ => none) c rfl hne) ⟨?_, ?_, ?_⟩
  · exact ⟨_, complete_source plain_generatedScript⟩
  · exact ⟨by decide, List.all_eq_true.mp (by decide), by decide⟩
  · have hcores : Plain "--cores".toList := ⟨by decide, List.all_eq_true.mp (by decide), by decide⟩
    have htwo : Plain "2".toList := ⟨by decide, List.all_eq_true.mp (by decide), by decide⟩
    have hthree : Plain "3".toList := ⟨by decide, List.all_eq_true.mp (by decide), by decide⟩
    simp only [List.cons_append, List.nil_append, List.forall_mem_cons]
    exact ⟨hcores, htwo, hcores, hthree, by simp⟩

/-- One argument with a blank is wrapped as two are. -/
theorem not_preserves_of_blank :
    ¬ ∀ (getenv : String → Option String) (c : Context) (args₁ args₂ : SpawnArgs),
      args₁.program = args₂.program → args₁.args ≠ args₂.args →
      c.Preserves getenv args₁ args₂ := by
  intro hall
  have hpreserves := hall (fun _ => none)
    (.shell
      { mShellType := .bash, mPseudoCompiler := "", mSessionId := UUID.null
        mScriptFilePath := "/tmp/generated_script_" ++ ShellContext.scriptId.toString })
    { program := "execComp", args := ["/tmp/exec-my", "comp"] }
    { program := "execComp", args := ["/tmp/exec-my comp"] } rfl (by decide)
  refine hpreserves.1 ?_
  rw [command_wrap, command_wrap]
  rfl

end Arras4Core.Execute.Context
