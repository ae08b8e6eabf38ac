/-
  Arras4Core.Client.LocalSession

  What a local session tells its client when the computation it runs has
  terminated.
-/

import Arras4Core.Api.Address
import Arras4Core.Api.Object
import Arras4Core.Execute.Process

namespace Arras4Core.Client

open Arras4Core.Api (Address Object UUID)
open Arras4Core.Execute (ExitStatus)

namespace ProcessExitCodes

def NORMAL : Int := 0
def INVALID_CMDLINE : Int := 1
def CONFIG_FILE_LOAD_ERROR : Int := 2
def INVALID_CONFIG_DATA : Int := 9
def INITIALIZATION_FAILED : Int := 8
def COMPUTATION_LOAD_ERROR : Int := 6
def COMPUTATION_GO_TIMEOUT : Int := 7
def EXEC_ERROR : Int := 5
def EXCEPTION_CAUGHT : Int := 13
def UNSPECIFIED_ERROR : Int := 14
def DISCONNECTED : Int := 20
def INTERNAL_ERROR : Int := 21

end ProcessExitCodes

open ProcessExitCodes in
def exitCodeString (ec : Int) (expected : Bool) : String :=
  if ec = NORMAL then
    if expected then "exited normally" else "exited unexpectedly with code 0"
  else if ec = INVALID_CMDLINE then "exited due to an invalid commandline"
  else if ec = CONFIG_FILE_LOAD_ERROR then "failed to load the configuration file"
  else if ec = INVALID_CONFIG_DATA then "exited due to an invalid configuration data"
  else if ec = INITIALIZATION_FAILED then "failed to initialize properly"
  else if ec = COMPUTATION_LOAD_ERROR then "failed to load the computation dso"
  else if ec = COMPUTATION_GO_TIMEOUT then "timed out waiting for a 'go' signal"
  else if ec = EXCEPTION_CAUGHT then "threw an exception (see log for details)"
  else if ec = EXEC_ERROR then "failed to start the program (error in execv())"
  else if ec = DISCONNECTED then "was disconnected"
  else if ec = INTERNAL_ERROR then "exited due to a computation or message problem"
  else if ec = UNSPECIFIED_ERROR then "exited due to an unspecified error"
  else "exited with code " ++ toString ec

def exitStatusString (es : ExitStatus) (expected : Bool) : String :=
  match es.exitType with
  | .Exit => exitCodeString es.status expected
  | .Signal =>
    -- SIGTERM is how a session that is stopped ends
    if expected = true ∧ es.status = 15 then "exited normally"
    else "exited due to signal " ++ toString es.status
  | .Internal => ExitStatus.internalCodeString es.status

/-- The members that termination reads. -/
structure LocalSession where
  mAddress : Address
  mName : String
  mTerminationExpected : Bool := false
  /-- `mTerminateCallback` holds a function -/
  mTerminateCallback : Bool := false

namespace LocalSession

/-- The call of `mTerminateCallback` that `onTerminate` makes. -/
def onTerminate (s : LocalSession) (id sessionId : UUID) (status : ExitStatus) :
    Option (Bool × Object) :=
  if id ≠ s.mAddress.computation ∨ sessionId ≠ s.mAddress.session then none
  else if s.mTerminateCallback then
    let reason := "compExited: " ++ s.mName ++ " " ++
      exitStatusString status.convertHighExitToSignal s.mTerminationExpected
    some (s.mTerminationExpected,
      .object [("disconnectReason", .string reason), ("execStatus", .string "stopped"),
        ("execStoppedReason", .string reason)])
  else none

/-- A session with a callback calls it when its own computation terminates. -/
theorem exists_onTerminate (s : LocalSession) (h : s.mTerminateCallback = true)
    (status : ExitStatus) : ∃ data, s.onTerminate s.mAddress.computation s.mAddress.session status
      = some (s.mTerminationExpected, data) := by
  unfold onTerminate
  rw [if_neg (by simp), if_pos h]
  exact ⟨_, rfl⟩

/-- `stop` up to the call of `terminate`. -/
def stop (s : LocalSession) : LocalSession := { s with mTerminationExpected := true }

def abandon (s : LocalSession) : LocalSession := { s with mTerminateCallback := false }

end LocalSession

end Arras4Core.Client
