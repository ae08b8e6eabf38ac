/-
  Arras4Core.Client.ComputationEnvironment

  The part of `LocalSession::processComputation` that sets up the environment
  variables of a computation, before packaging is applied.

  The variables come from the definition of the computation, from the context
  its requirements name, and from the session itself, in this order.  Each is
  set with the default of `Environment::set`, which replaces what is there, so
  of the first two the context has the last word.

  Main result: `processEnvironment_iff`.
-/

import Arras4Core.Execute.Environment

namespace Arras4Core.Client

open Arras4Core.Lib
open Arras4Core.Api (Exception Object)
open Arras4Core.Execute (Environment)

def ATHENA_ENV : String := "prod"
def ATHENA_HOST : String := "localhost"
def ATHENA_PORT : String := "514"

/-- `getObject`: the member, or the empty object for one that is none. -/
def getObject (obj : Object) (key : String) : Except Exception Object := do
  let ret ← obj.get key
  return if ret.isObject then ret else .object []

/-- The environment of the context that the requirements name, if they name one. -/
def contextEnvironment (mName : String) (requirements contexts : Object) :
    Except Exception (Option Object) := do
  match ← requirements.get "context" with
  | .string ctxName =>
    if !(← contexts.isMember ctxName) then
      throw (.sessionError
        ("Context '" ++ ctxName ++ "', required by " ++ mName ++ " is missing"))
    let context ← contexts.get ctxName
    return some (← getObject context "environment")
  | _ => return none

/-- The variables that the session sets itself.  The two arguments are the values of
    `LOGNAME` and `REZ_ARRAS4_CORE_ROOT` in its own environment. -/
def setRequired (logname clientRoot : Option String) (env : Environment) : Environment :=
  let env := env.set "ARRAS_ATHENA_ENV" ATHENA_ENV
  let env := env.set "ARRAS_ATHENA_HOST" ATHENA_HOST
  let env := env.set "ARRAS_ATHENA_PORT" ATHENA_PORT
  let env := match logname with
    | some user => env.set "USER" user
    | none => env
  match clientRoot with
  | some root => env.set "ARRAS_BREAKPAD_PATH" root
  | none => env

def setFromContext : Option Object → EStateM Exception Environment PUnit
  | some ctxEnv => Environment.setFrom ctxEnv
  | none => pure ⟨⟩

/-- What `processComputation` does to the environment before packaging. -/
def processEnvironment (mName : String) (definition contexts : Object)
    (logname clientRoot : Option String) : EStateM Exception Environment PUnit := do
  let requirements ← fun env => resultOf (getObject definition "requirements") env
  let environment ← fun env => resultOf (getObject definition "environment") env
  Environment.setFrom environment
  let context ← fun env => resultOf (contextEnvironment mName requirements contexts) env
  setFromContext context
  modify (setRequired logname clientRoot)

/-! ## The two objects the variables come from -/

/-- The names that the session sets itself. -/
def requiredNames : List String :=
  ["ARRAS_ATHENA_ENV", "ARRAS_ATHENA_HOST", "ARRAS_ATHENA_PORT", "USER", "ARRAS_BREAKPAD_PATH"]

section

variable (mName : String) (definition contexts : Object)

/-- The value that the computation's own environment has for a name. -/
def computationValue (var : String) : Option String :=
  match getObject definition "environment" with
  | .ok environment => Environment.valueIn environment var
  | .error _ => none

/-- The value that the environment of the context it requires has. -/
def contextValue (var : String) : Option String :=
  match getObject definition "requirements" with
  | .ok requirements =>
    match contextEnvironment mName requirements contexts with
    | .ok (some ctxEnv) => Environment.valueIn ctxEnv var
    | _ => none
  | .error _ => none

end

theorem mMap_setRequired (logname clientRoot : Option String) (env : Environment) {var : String}
    (hvar : var ∉ requiredNames) :
    (setRequired logname clientRoot env).mMap[var]? = env.mMap[var]? := by
  simp only [requiredNames, List.mem_cons, not_or, List.not_mem_nil, not_false_eq_true,
    and_true] at hvar
  obtain ⟨henv, hhost, hport, huser, hpath⟩ := hvar
  unfold setRequired
  cases logname <;> cases clientRoot <;>
    simp only [Environment.mMap_set, if_neg (Ne.symm henv), if_neg (Ne.symm hhost),
      if_neg (Ne.symm hport), if_neg (Ne.symm huser), if_neg (Ne.symm hpath)]

/-- An environment is built when the context is there and both objects hold scalars. -/
theorem exists_processEnvironment {mName : String}
    {definition contexts requirements environment : Object}
    {context : Option Object}
    (hrequirements : getObject definition "requirements" = .ok requirements)
    (henvironment : getObject definition "environment" = .ok environment)
    (hcontext : contextEnvironment mName requirements contexts = .ok context)
    (hown : Environment.allScalar environment = true)
    (hother : ∀ ctxEnv ∈ context, Environment.allScalar ctxEnv = true)
    (logname clientRoot : Option String) :
    ∃ env, processEnvironment mName definition contexts logname clientRoot {} = .ok ⟨⟩ env := by
  obtain ⟨env, hset⟩ : ∃ env, setFromContext context (Environment.setAll environment.members {})
      = .ok ⟨⟩ env := by
    cases context with
    | none => exact ⟨_, rfl⟩
    | some ctxEnv => exact ⟨_, Environment.setFrom_ok (hother ctxEnv rfl) _⟩
  refine ⟨setRequired logname clientRoot env, ?_⟩
  unfold processEnvironment
  rw [hrequirements, henvironment]
  refine (bind_of_ok rfl).trans ((bind_of_ok rfl).trans ?_)
  refine (bind_of_ok (Environment.setFrom_ok hown {})).trans ?_
  rw [hcontext]
  exact (bind_of_ok rfl).trans (bind_of_ok hset)

/-- The environment that is built: the context's value if it has one, else the
    computation's. -/
theorem mMap_processEnvironment {mName : String} {definition contexts : Object}
    {logname clientRoot : Option String} {env : Environment}
    (hbuilt : processEnvironment mName definition contexts logname clientRoot {} = .ok ⟨⟩ env)
    {var : String} (hvar : var ∉ requiredNames) :
    env.mMap[var]? = (contextValue mName definition contexts var).or
      (computationValue definition var) := by
  obtain ⟨requirements, _, hget, hrest⟩ := of_bind_ok hbuilt
  obtain ⟨hrequirements, rfl⟩ := of_resultOf_ok hget
  obtain ⟨environment, _, hget', hrest'⟩ := of_bind_ok hrest
  obtain ⟨henvironment, rfl⟩ := of_resultOf_ok hget'
  obtain ⟨_, env₁, hfirst, hrest''⟩ := of_bind_ok hrest'
  obtain ⟨context, _, hget'', hlast⟩ := of_bind_ok hrest''
  obtain ⟨hcontext, rfl⟩ := of_resultOf_ok hget''
  obtain ⟨_, env₂, hsecond, hset⟩ := of_bind_ok hlast
  obtain rfl := (EStateM.Result.ok.inj hset).2
  have hcomputation : computationValue definition var = Environment.valueIn environment var := by
    rw [computationValue, henvironment]
  have hown : env₁.mMap[var]? = computationValue definition var := by
    rw [Environment.mMap_setFrom hfirst, Std.TreeMap.getElem?_emptyc, Option.or_none, hcomputation]
  rw [mMap_setRequired logname clientRoot env₂ hvar]
  cases context with
  | none =>
    have hother : contextValue mName definition contexts var = none := by
      simp only [contextValue, hrequirements, hcontext]
    obtain rfl := (EStateM.Result.ok.inj hsecond).2
    rw [hother, Option.none_or, hown]
  | some ctxEnv =>
    have hother : contextValue mName definition contexts var
        = Environment.valueIn ctxEnv var := by
      simp only [contextValue, hrequirements, hcontext]
    have hset : Environment.setFrom ctxEnv env₁ = .ok ⟨⟩ env₂ := hsecond
    rw [hother, Environment.mMap_setFrom hset, hown]

/-- The computation's own value has priority exactly for the names that do not have
    another value in the context. -/
theorem processEnvironment_iff {mName : String} {definition contexts : Object}
    {logname clientRoot : Option String} {env : Environment}
    (hbuilt : processEnvironment mName definition contexts logname clientRoot {} = .ok ⟨⟩ env)
    {var : String} (hvar : var ∉ requiredNames) :
    env.mMap[var]? = (computationValue definition var).or
        (contextValue mName definition contexts var) ↔
      ∀ own ∈ computationValue definition var,
        ∀ other ∈ contextValue mName definition contexts var, own = other := by
  rw [mMap_processEnvironment hbuilt hvar]
  cases computationValue definition var with
  | none => simp
  | some own =>
    cases contextValue mName definition contexts var with
    | none => simp
    | some other => simp [eq_comm]

/-- A definition that sets a variable and requires a context. -/
def exampleDefinition : Object :=
  .object [("environment", .object [("LEVEL", .string "own")]),
    ("requirements", .object [("context", .string "ctx")])]

/-- A context that sets one variable. -/
def exampleContexts (var : String) : Object :=
  .object [("ctx", .object [("environment", .object [(var, .string "context's")])])]

theorem processEnvironment_iff_other : ∃ env,
    processEnvironment "comp" exampleDefinition (exampleContexts "OTHER") none none {}
      = .ok ⟨⟩ env ∧
    (env.mMap["LEVEL"]? = (computationValue exampleDefinition "LEVEL").or
        (contextValue "comp" exampleDefinition (exampleContexts "OTHER") "LEVEL") ↔
      ∀ own ∈ computationValue exampleDefinition "LEVEL",
        ∀ other ∈ contextValue "comp" exampleDefinition (exampleContexts "OTHER") "LEVEL",
          own = other) := by
  have hbuilt : processEnvironment "comp" exampleDefinition (exampleContexts "OTHER") none none {}
      = .ok ⟨⟩ _ := rfl
  exact ⟨_, hbuilt, processEnvironment_iff hbuilt (by decide)⟩

/-- A variable that both set gets the context's value. -/
theorem not_forall_own_first :
    ¬ ∀ (mName : String) (definition contexts : Object) (logname clientRoot : Option String)
      (env : Environment) (var : String),
      processEnvironment mName definition contexts logname clientRoot {} = .ok ⟨⟩ env →
      var ∉ requiredNames →
      env.mMap[var]? = (computationValue definition var).or
        (contextValue mName definition contexts var) := by
  intro h
  have hbuilt : processEnvironment "comp" exampleDefinition (exampleContexts "LEVEL") none none {}
      = .ok ⟨⟩ _ := rfl
  have hvar : "LEVEL" ∉ requiredNames := by decide
  have hown := h "comp" exampleDefinition (exampleContexts "LEVEL") none none _ "LEVEL" hbuilt hvar
  rw [mMap_processEnvironment hbuilt hvar] at hown
  exact absurd hown (by decide)

end Arras4Core.Client
