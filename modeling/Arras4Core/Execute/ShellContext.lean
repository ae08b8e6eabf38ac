/-
  Arras4Core.Execute.ShellContext

  `ShellContext` and `RezContext`: each writes an environment script to a file of
  its own and wraps commands so that they run behind it.

  The ids that `UUID::generate` returns, the environment of the process and what
  becomes of a write are the platform's.  The session id of a context, which is
  only logged, is kept because it is what the constructors generate.  Packages are
  resolved in `PackageResolve`; `setPackages` is `setContext` of what comes out.
-/

import Arras4Core.Api.Address
import Arras4Core.Execute.SpawnArgs

namespace Arras4Core.Execute

open Arras4Core.Api (UUID)
open Arras4Core.Lib.Text

/-! ## The platform -/

structure Host where
  /-- the number of ids that have been generated -/
  draws : Nat := 0
  files : List Char → Option String := fun _ => none

/-- What becomes of a file that is written: it cannot be opened, or the first
    characters of the text get there and `out.bad()` is true or false in the end.
    A `close` that fails does not make it true. -/
inductive Outcome
  | notOpen
  | bad (kept : Nat)
  | good (kept : Nat)
  deriving DecidableEq

namespace Host

/-- `UUID::generate`, a static function that returns the id. -/
def generate (uuid : Nat → UUID) (host : Host) : UUID × Host :=
  (uuid host.draws, { host with draws := host.draws + 1 })

def store (path text : String) (kept : Nat) (host : Host) : Host :=
  { host with
    files := fun name =>
      if name = cStr path.toList then some (String.ofList (text.toList.take kept))
      else host.files name }

/-- The common part of `setScript` and `setContext`: what they return, with the
    error of a false. -/
def write (what path text : String) (outcome : Outcome) (host : Host) :
    Except String Unit × Host :=
  match outcome with
  | .notOpen => (.error ("failed to open file " ++ path ++ " for writing"), host)
  | .bad kept =>
    (.error ("failure writing " ++ what ++ " file " ++ path), host.store path text kept)
  | .good kept => (.ok (), host.store path text kept)

theorem files_write_ne (what : String) {path : String} (text : String) (outcome : Outcome)
    (host : Host) {file : List Char} (hne : outcome ≠ .notOpen → file ≠ cStr path.toList) :
    (host.write what path text outcome).2.files file = host.files file := by
  cases outcome with
  | notOpen => rfl
  | bad kept => exact if_neg (hne (by simp))
  | good kept => exact if_neg (hne (by simp))

theorem files_write_good (what path : String) {text : String} (host : Host) {kept : Nat}
    (h : text.length ≤ kept) :
    (host.write what path text (.good kept)).2.files (cStr path.toList) = some text := by
  have htake : text.toList.take kept = text.toList :=
    List.take_of_length_le (by rwa [String.length_toList])
  have hstored : (host.write what path text (.good kept)).2.files (cStr path.toList)
      = some (String.ofList (text.toList.take kept)) := if_pos rfl
  rw [hstored, htake, String.ofList_toList]

end Host

/-- The command that is run, as one string. -/
def cmdstr (program : String) (args : List String) : String :=
  args.foldl (fun cmdstr arg => cmdstr ++ " " ++ arg) program

/-! ## ShellContext -/

inductive ShellType
  | bash
  deriving DecidableEq

structure ShellContext where
  mShellType : ShellType
  mPseudoCompiler : String
  mSessionId : UUID
  mScriptFilePath : String := ""
  deriving DecidableEq

namespace ShellContext

def new (uuid : Nat → UUID) (type : ShellType) (pseudoCompiler : String) (sessionId : UUID)
    (host : Host) : ShellContext × Host :=
  let context := { mShellType := type, mPseudoCompiler := pseudoCompiler, mSessionId := sessionId }
  if sessionId.valid then (context, host)
  -- `mSessionId.generate()` drops the id that it returns
  else (context, (host.generate uuid).2)

theorem files_new (uuid : Nat → UUID) (type : ShellType) (pseudoCompiler : String)
    (sessionId : UUID) (host : Host) :
    (new uuid type pseudoCompiler sessionId host).2.files = host.files := by
  unfold new
  split <;> rfl

/-- The id that the script file is named by.  `id.generate()` drops the one that it
    returns, so it is the id of a `UUID` that has just been made. -/
def scriptId : UUID := UUID.null

def setScript (uuid : Nat → UUID) (script : String) (outcome : Outcome) (c : ShellContext)
    (host : Host) : Except String Unit × ShellContext × Host :=
  let host := (host.generate uuid).2
  let path := "/tmp/generated_script_" ++ scriptId.toString
  let (ok, host) := host.write "script" path script outcome
  (ok, { c with mScriptFilePath := path }, host)

/-- It always returns true. -/
def wrap (c : ShellContext) (args : SpawnArgs) : SpawnArgs :=
  let program :=
    args.program ++ if c.mPseudoCompiler.isEmpty then "" else "-" ++ c.mPseudoCompiler
  let bashcmd := "source " ++ c.mScriptFilePath ++ " && " ++ cmdstr program args.args
  { args with program := "/bin/bash", args := ["-c", bashcmd] }

end ShellContext

/-! ## RezContext -/

def reqVersion1 : String := "1.7.0"
def reqPackagesPath1 : String := "/rel/packages:/rel/lang/python/packages"
def defaultPseudoCompiler : String := "icc150_64"
def envReqVersion2 : String := "REZ2_DEFAULT_VERSION"
def reqPackagesPath2 : String := "/rel/rez/dwa:/rel/rez/third_party:/rel/lang/python/packages"
def basePath : String := "/bin:/usr/bin:/usr/local/bin"

structure RezContext where
  mName : String
  mId : UUID
  mSessionId : UUID
  mMajorVersion : Nat
  mVersion : String
  mPackagesPath : String
  mRezDir : String
  mBinDir : String
  mPseudoCompiler : String
  mContextFilePath : String := ""
  deriving DecidableEq

namespace RezContext

/-- The members that the constructor sets, or the `runtime_error` that it throws. -/
def init (getenv : String → Option String) (name : String) (majorVersion : Nat)
    (packagesPathPrefix : String) (omitDefaultPackagePath : Bool) (pseudoCompiler : String)
    (id sessionId : UUID) : Except String RezContext :=
  let sessionId := if sessionId.valid then sessionId else id
  let path :=
    packagesPathPrefix ++ if !omitDefaultPackagePath && !packagesPathPrefix.isEmpty then ":" else ""
  if majorVersion = 1 then
    let rezDir := "/rel/third_party/rez/" ++ reqVersion1
    .ok
      { mName := name, mId := id, mSessionId := sessionId, mMajorVersion := majorVersion
        mVersion := reqVersion1
        mPackagesPath := path ++ if omitDefaultPackagePath then "" else reqPackagesPath1
        mRezDir := rezDir, mBinDir := rezDir ++ "/bin/", mPseudoCompiler := pseudoCompiler }
  else if majorVersion = 2 then
    match getenv envReqVersion2 with
    | some version =>
      let rezDir := "/rel/third_party/rez/" ++ version
      .ok
        { mName := name, mId := id, mSessionId := sessionId, mMajorVersion := majorVersion
          mVersion := version
          mPackagesPath := path ++ if omitDefaultPackagePath then "" else reqPackagesPath2
          mRezDir := rezDir, mBinDir := rezDir ++ "/bin/rez/", mPseudoCompiler := pseudoCompiler }
    | none => .error ("Environment variable " ++ envReqVersion2 ++ " is not set")
  else .error ("Unsupported major rez version: " ++ toString majorVersion)

/-- The constructor.  `mId.generate()` drops the id that it returns, and `mId` stays
    null. -/
def new (uuid : Nat → UUID) (getenv : String → Option String) (name : String)
    (majorVersion : Nat) (packagesPathPrefix : String) (omitDefaultPackagePath : Bool)
    (pseudoCompiler : String) (id sessionId : UUID) (host : Host) :
    Except String RezContext × Host :=
  (init getenv name majorVersion packagesPathPrefix omitDefaultPackagePath pseudoCompiler id
    sessionId, if id.valid then host else (host.generate uuid).2)

theorem files_new (uuid : Nat → UUID) (getenv : String → Option String) (name : String)
    (majorVersion : Nat) (packagesPathPrefix : String) (omitDefaultPackagePath : Bool)
    (pseudoCompiler : String) (id sessionId : UUID) (host : Host) :
    (new uuid getenv name majorVersion packagesPathPrefix omitDefaultPackagePath pseudoCompiler id
      sessionId host).2.files = host.files := by
  unfold new
  split <;> rfl

/-- The file that `setContext` writes to. -/
def generatedPath (c : RezContext) : String :=
  "/tmp/generated_rezCtxt_" ++ c.mName ++ "-" ++ c.mId.toString

def setContext (context : String) (outcome : Outcome) (c : RezContext) (host : Host) :
    Except String Unit × RezContext × Host :=
  let (ok, host) := host.write "context" c.generatedPath context outcome
  (ok, { c with mContextFilePath := c.generatedPath }, host)

/-- It always returns true. -/
def setContextFile (filepath : String) (c : RezContext) : RezContext :=
  { c with mContextFilePath := filepath }

/-- rez1 requires the suffix of a pseudo compiler that is not the default. -/
def hasSuffix (c : RezContext) : Bool :=
  c.mMajorVersion = 1 && !c.mPseudoCompiler.isEmpty && !(c.mPseudoCompiler = defaultPseudoCompiler)

def getRezEnvironment (getenv : String → Option String) (c : RezContext) (e : Environment) :
    Environment :=
  let e := e.set "REZ_VERSION" c.mVersion
  let e := e.set "REZ_LOCK_PACKAGES_PATH" "1"
  let e := e.set "REZ_KEEP_TMPDIRS" "1"
  let e := e.set "REZ_PACKAGES_PATH" c.mPackagesPath
  let e := e.set "REZ_LOCAL_PACKAGES_PATH" ""
  let e := e.set "REZ_PLATFORM" "Linux"
  let e := e.set "REZ_PATH" c.mRezDir
  let e := e.set "PATH" (c.mBinDir ++ ":./:" ++ basePath)
  if c.mMajorVersion = 2 then
    let e :=
      match getenv "OS_RELEASE" with
      | some release => e.set "OS_RELEASE" release
      | none => e
    e.set "REZ_CONFIG_FILE" ("/rel/boot/rez/config/" ++ c.mVersion ++ "/config_pipex.py")
  else e

def getBashEnvironment (c : RezContext) (e : Environment) : Environment :=
  if c.hasSuffix then e.set "PSEUDO_NAME" c.mPseudoCompiler else e

/-- It always returns true. -/
def wrap (getenv : String → Option String) (c : RezContext) (args : SpawnArgs) : SpawnArgs :=
  let program := args.program ++ if c.hasSuffix then "-" ++ c.mPseudoCompiler else ""
  let cmdstr := cmdstr program args.args
  if c.mMajorVersion = 1 then
    let bashcmd := "source " ++ c.mContextFilePath ++ " && " ++ cmdstr
    { args with
      program := "/bin/bash"
      args := ["-c", bashcmd]
      environment := c.getBashEnvironment (c.getRezEnvironment getenv args.environment) }
  else
    { args with
      program := c.mBinDir ++ "rez-env"
      args := ["--input", c.mContextFilePath, "-c", cmdstr]
      environment := c.getRezEnvironment getenv args.environment }

end RezContext

/-! ## Both -/

inductive Context
  | shell (c : ShellContext)
  | rez (c : RezContext)
  deriving DecidableEq

namespace Context

def wrap (getenv : String → Option String) : Context → SpawnArgs → SpawnArgs
  | .shell c, args => c.wrap args
  | .rez c, args => c.wrap getenv args

/-- What the name of the program gets behind it. -/
def suffix : Context → String
  | .shell c => if c.mPseudoCompiler.isEmpty then "" else "-" ++ c.mPseudoCompiler
  | .rez c => if c.hasSuffix then "-" ++ c.mPseudoCompiler else ""

/-- What stands before the command: bash sources the file, `rez-env` has it as an
    argument. -/
def head : Context → String
  | .shell c => "source " ++ c.mScriptFilePath ++ " && "
  | .rez c => if c.mMajorVersion = 1 then "source " ++ c.mContextFilePath ++ " && " else ""

theorem wrap_args (getenv : String → Option String) (c : Context) (args : SpawnArgs) :
    ∃ options, (c.wrap getenv args).args
      = options ++ ["-c", c.head ++ cmdstr (args.program ++ c.suffix) args.args] := by
  cases c with
  | shell c => exact ⟨[], rfl⟩
  | rez c =>
    by_cases hmajor : c.mMajorVersion = 1
    · exact ⟨[], by simp [wrap, RezContext.wrap, head, suffix, hmajor]⟩
    · exact ⟨["--input", c.mContextFilePath],
        by simp [wrap, RezContext.wrap, head, suffix, hmajor]⟩

end Context

end Arras4Core.Execute
