/-
  Arras4Core.Computation.RoutingUpdate

  How `impl::CompEnvironmentImpl` takes control messages, and what an "update"
  message does to the tables of its `Addresser`.  The data of the message is
  text from outside: it is parsed, indexed several levels deep, and made into a
  computation map and the new tables.  The old tables are only replaced when the
  new ones are complete, so an exception on the way leaves them as they were;
  but the only exception that is caught is the one for text that cannot be
  parsed, and that text is then treated as if it had been.

  `Json::Reader` is the platform library's: `parse` says what becomes of a text.
-/

import Arras4Core.Routing.Addressing

namespace Arras4Core.Computation

open Arras4Core.Api
open Arras4Core.Lib
open Arras4Core.Routing

/-- What `Json::Reader::parse` comes to.  When it returns false there may be a
    part of the document in its output. -/
inductive ParseOutcome
  | parsed (value : Object)
  | refused (value : Object)
  | throws (e : Exception)

/-- Functions that may throw and may replace the tables of `mAddresser`. -/
abbrev Routed := ExceptT Exception (StateM Addressing)

/-- A function that throws or returns and leaves the tables alone. -/
def Routed.of {α : Type} (x : Except Exception α) : Routed α := ExceptT.mk (pure x)

/-- The new tables are built before the old ones are replaced. -/
def Addresser.update (sourceCompId : UUID) (compMap : ComputationMap) (aMessageFilters : Object) :
    Routed Unit := do
  let addressing ← .of (Addressing.ofFilters sourceCompId compMap aMessageFilters)
  set addressing

/-- What a control message asks the run of the computation to do. -/
inductive Signal
  | none
  | go
  | stop
  deriving DecidableEq

section CompEnvironment

variable (parse : String → ParseOutcome) (uuid_parse : String → Option UUID) (mAddress : Address)

/-- Returns false, and logs an error, when the data lacks one of its parts. -/
def setRouting (routing : Object) : Routed Bool := do
  let mapObj ← .of do (← routing.get mAddress.session.toString).get "computations"
  if mapObj.isObject then
    let computationMap ← .of (ComputationMap.ofObject uuid_parse mAddress.session mapObj)
    let filterObj ← .of (routing.get "messageFilter")
    if filterObj.isObject then
      Addresser.update mAddress.computation computationMap filterObj
      return true
    else return false
  else return false

/-- The rest of `signalUpdate`, once the data is parsed.  A document without a
    'routing' object is logged. -/
def updateFrom (dataObj : Object) : Routed Unit := do
  let routing ← .of (dataObj.get "routing")
  if routing.isObject then
    let _ ← setRouting uuid_parse mAddress routing

def signalUpdate (data : String) : Routed Unit :=
  match parse data with
  | .parsed dataObj => updateFrom uuid_parse mAddress dataObj
  -- the `ObjectFormatError` is logged, and the function goes on
  | .refused dataObj => updateFrom uuid_parse mAddress dataObj
  | .throws e => throw e

def controlMessage (command data : String) : Routed Signal :=
  if command = "go" then return .go
  else if command = "stop" then return .stop
  else if command = "abort" then return .stop
  else if command = "update" then do
    signalUpdate parse uuid_parse mAddress data
    return .none
  else return .none

/-! ## The computations and filters in the data -/

/-- The computations of the session. -/
def computationsOf (routing : Object) : Object :=
  (routing.member mAddress.session.toString).member "computations"

/-- `a` holds the tables that are built from a 'routing' object. -/
def BuiltFrom (routing : Object) (a : Addressing) : Prop :=
  ∃ compMap, ComputationMap.ofObject uuid_parse mAddress.session
      (computationsOf mAddress routing) = .ok compMap ∧
    Addressing.ofFilters mAddress.computation compMap (routing.member "messageFilter") = .ok a

/-- The data has all the parts that are needed to replace the tables. -/
def IsComplete (routing : Object) : Prop :=
  routing.isObject ∧ (computationsOf mAddress routing).isObject ∧
    (routing.member "messageFilter").isObject

/-- Every part that is there has the shape it is used with. -/
structure WellShaped (routing : Object) : Prop where
  session : (routing.member mAddress.session.toString).isObjectOrNull
  computations : (computationsOf mAddress routing).isObject →
    ∀ comp ∈ (computationsOf mAddress routing).members, ComputationMap.IsComputation comp.2
  /-- The filters of this computation name computations of the session. -/
  destinations : (computationsOf mAddress routing).isObject →
    (routing.member "messageFilter").isObject →
    ∀ name, ComputationMap.nameOf uuid_parse (computationsOf mAddress routing).members
        mAddress.computation = some name →
      ∀ dest ∈ ((routing.member "messageFilter").member name).members,
        Addressing.IsDestination (computationsOf mAddress routing).members dest

/-- A document that is an object (or null); the 'routing' object in it, if there
    is one, is well shaped. -/
def IsDocument (value : Object) : Prop :=
  value.isObjectOrNull ∧
    ((value.member "routing").isObject → WellShaped uuid_parse mAddress (value.member "routing"))

/-- The data of an "update" message.  What is left of a text that does not parse
    is not enough to replace the tables. -/
def WellFormed (data : String) : Prop :=
  match parse data with
  | .parsed value => IsDocument uuid_parse mAddress value
  | .refused value => IsDocument uuid_parse mAddress value ∧
      ¬ IsComplete mAddress (value.member "routing")
  | .throws _ => False

/-- An "update" message with this data, whatever the tables are: no exception
    leaves `controlMessage`, and the tables are those built from the 'routing'
    object of the document or the old ones. -/
def UpdatesOrRejects (data : String) : Prop :=
  ∀ old : Addressing, ∃ new,
    (controlMessage parse uuid_parse mAddress "update" data).run.run old = (.ok .none, new) ∧
    (new = old ∨ ∃ value, parse data = .parsed value ∧
      BuiltFrom uuid_parse mAddress (value.member "routing") new)

end CompEnvironment

variable {parse : String → ParseOutcome} {uuid_parse : String → Option UUID} {mAddress : Address}

/-! ## One call of `setRouting` -/

theorem Routed.of_bind_ok {α β : Type} {x : Except Exception α} {a : α} (h : x = .ok a)
    (f : α → Routed β) : Routed.of x >>= f = f a := by
  rw [h]
  rfl

/-- An exception leaves the tables as they are. -/
theorem Routed.run_of_bind {α β : Type} {x : Except Exception α} (h : ¬ Succeeds x)
    (f : α → Routed β) (old : Addressing) :
    ∃ e, (Routed.of x >>= f).run.run old = (.error e, old) := by
  cases x with
  | ok a => exact absurd ⟨a, rfl⟩ h
  | error e => exact ⟨e, rfl⟩

/-- A function that calls another one goes on from the tables that one has left. -/
theorem Routed.run_bind {α β : Type} {x : Routed α} {old new : Addressing} {a : α}
    (h : x.run.run old = (.ok a, new)) (f : α → Routed β) :
    (x >>= f).run.run old = (f a).run.run new := by
  simp only [ExceptT.run_bind, StateT.run_bind, h]
  rfl

theorem Routed.run_bind_error {α β : Type} {x : Routed α} {old new : Addressing} {e : Exception}
    (h : x.run.run old = (.error e, new)) (f : α → Routed β) :
    (x >>= f).run.run old = (.error e, new) := by
  simp only [ExceptT.run_bind, StateT.run_bind, h]
  rfl

theorem computationsOf_eq (mAddress : Address) {routing : Object} (hobj : routing.isObject)
    (hsession : (routing.member mAddress.session.toString).isObjectOrNull) :
    (do (← routing.get mAddress.session.toString).get "computations")
      = (Except.ok (computationsOf mAddress routing) : Except Exception Object) := by
  rw [Object.get_of_isObjectOrNull (Object.isObjectOrNull_of_isObject hobj)]
  exact Object.get_of_isObjectOrNull hsession "computations"

/-- What a call of `setRouting` comes to, by the parts of its data. -/
theorem setRouting_run (uuid_parse : String → Option UUID) (mAddress : Address)
    {routing : Object} (hobj : routing.isObject) (old : Addressing) :
    (WellShaped uuid_parse mAddress routing ∧ IsComplete mAddress routing ∧
      ∃ new, BuiltFrom uuid_parse mAddress routing new ∧
        (setRouting uuid_parse mAddress routing).run.run old = (.ok true, new)) ∨
    (WellShaped uuid_parse mAddress routing ∧ ¬ IsComplete mAddress routing ∧
      (setRouting uuid_parse mAddress routing).run.run old = (.ok false, old)) ∨
    (¬ WellShaped uuid_parse mAddress routing ∧
      ∃ e, (setRouting uuid_parse mAddress routing).run.run old = (.error e, old)) := by
  unfold setRouting
  by_cases hsession : (routing.member mAddress.session.toString).isObjectOrNull
  case neg =>
    refine .inr (.inr ⟨fun h => hsession h.session, Routed.run_of_bind ?_ _ old⟩)
    rw [Object.get_of_isObjectOrNull (Object.isObjectOrNull_of_isObject hobj)]
    exact fun h => hsession ((Object.succeeds_get ..).mp h)
  rw [Routed.of_bind_ok (computationsOf_eq mAddress hobj hsession)]
  by_cases hcomps : (computationsOf mAddress routing).isObject
  case neg =>
    -- no computation map: nothing else is looked at
    rw [if_neg hcomps]
    exact .inr (.inl ⟨⟨hsession, fun h => absurd h hcomps, fun h => absurd h hcomps⟩,
      fun h => hcomps h.2.1, rfl⟩)
  rw [if_pos hcomps]
  by_cases hall : ∀ comp ∈ (computationsOf mAddress routing).members,
      ComputationMap.IsComputation comp.2
  case neg =>
    refine .inr (.inr ⟨fun h => hall (h.computations hcomps), Routed.run_of_bind ?_ _ old⟩)
    exact fun h => hall ((ComputationMap.succeeds_ofObject _).mp h)
  have hmap := ComputationMap.ofObject_eq uuid_parse mAddress.session hall
  rw [Routed.of_bind_ok hmap, Routed.of_bind_ok
    (Object.get_of_isObjectOrNull (Object.isObjectOrNull_of_isObject hobj) "messageFilter")]
  by_cases hfilter : (routing.member "messageFilter").isObject
  case neg =>
    rw [if_neg hfilter]
    exact .inr (.inl ⟨⟨hsession, fun _ => hall, fun _ h => absurd h hfilter⟩,
      fun h => hfilter h.2.2, rfl⟩)
  rw [if_pos hfilter]
  have hsucceeds := Addressing.succeeds_ofFilters uuid_parse mAddress.session
    (computationsOf mAddress routing).members
    mAddress.computation hfilter
  unfold Addresser.update
  by_cases hdests : ∀ name, ComputationMap.nameOf uuid_parse
      (computationsOf mAddress routing).members mAddress.computation = some name →
      ∀ dest ∈ ((routing.member "messageFilter").member name).members,
        Addressing.IsDestination (computationsOf mAddress routing).members dest
  · obtain ⟨new, hnew⟩ := hsucceeds.mpr hdests
    rw [Routed.of_bind_ok hnew]
    exact .inl ⟨⟨hsession, fun _ => hall, fun _ _ => hdests⟩, ⟨hobj, hcomps, hfilter⟩, new,
      ⟨_, hmap, hnew⟩, rfl⟩
  · refine .inr (.inr ⟨fun h => hdests (h.destinations hcomps hfilter), ?_⟩)
    rw [bind_assoc]
    exact Routed.run_of_bind (fun h => hdests (hsucceeds.mp h)) _ old

/-! ## One "update" message -/

theorem BuiltFrom.unique {routing : Object} {a b : Addressing}
    (ha : BuiltFrom uuid_parse mAddress routing a) (hb : BuiltFrom uuid_parse mAddress routing b) :
    a = b := by
  obtain ⟨mapA, hmapA, ha⟩ := ha
  obtain ⟨mapB, hmapB, hb⟩ := hb
  cases hmapA.symm.trans hmapB
  exact Except.ok.inj (ha.symm.trans hb)

/-- What the value of the document comes to. -/
theorem updateFrom_run (uuid_parse : String → Option UUID) (mAddress : Address)
    (value : Object) (old : Addressing) :
    (IsDocument uuid_parse mAddress value ∧ IsComplete mAddress (value.member "routing") ∧
      ∃ new, BuiltFrom uuid_parse mAddress (value.member "routing") new ∧
        (updateFrom uuid_parse mAddress value).run.run old = (.ok (), new)) ∨
    (IsDocument uuid_parse mAddress value ∧ ¬ IsComplete mAddress (value.member "routing") ∧
      (updateFrom uuid_parse mAddress value).run.run old = (.ok (), old)) ∨
    (¬ IsDocument uuid_parse mAddress value ∧
      ∃ e, (updateFrom uuid_parse mAddress value).run.run old = (.error e, old)) := by
  unfold updateFrom
  by_cases hvalue : value.isObjectOrNull
  case neg =>
    refine .inr (.inr ⟨fun h => hvalue h.1, Routed.run_of_bind ?_ _ old⟩)
    exact fun h => hvalue ((Object.succeeds_get ..).mp h)
  rw [Routed.of_bind_ok (Object.get_of_isObjectOrNull hvalue "routing")]
  by_cases hobj : (value.member "routing").isObject
  case neg =>
    rw [if_neg hobj]
    exact .inr (.inl ⟨⟨hvalue, fun h => absurd h hobj⟩, fun h => hobj h.1, rfl⟩)
  rw [if_pos hobj]
  obtain ⟨hshaped, hcomplete, new, hnew, hrun⟩ | ⟨hshaped, hcomplete, hrun⟩ |
      ⟨hshaped, e, hrun⟩ := setRouting_run uuid_parse mAddress hobj old
  · refine .inl ⟨⟨hvalue, fun _ => hshaped⟩, hcomplete, new, hnew, ?_⟩
    exact Routed.run_bind hrun _
  · refine .inr (.inl ⟨⟨hvalue, fun _ => hshaped⟩, hcomplete, ?_⟩)
    exact Routed.run_bind hrun _
  · refine .inr (.inr ⟨fun h => hshaped (h.2 hobj), e, ?_⟩)
    exact Routed.run_bind_error hrun _

theorem controlMessage_update (data : String) :
    controlMessage parse uuid_parse mAddress "update" data = do
      signalUpdate parse uuid_parse mAddress data
      return .none := rfl

/-- The value that is there when the text is parsed is used, whether the text
    parses or not. -/
theorem controlMessage_update_run (uuid_parse : String → Option UUID) (mAddress : Address)
    {data : String} {value : Object}
    (h : parse data = .parsed value ∨ parse data = .refused value) (old : Addressing) :
    (IsDocument uuid_parse mAddress value ∧ IsComplete mAddress (value.member "routing") ∧
      ∃ new, BuiltFrom uuid_parse mAddress (value.member "routing") new ∧
        (controlMessage parse uuid_parse mAddress "update" data).run.run old = (.ok .none, new)) ∨
    (IsDocument uuid_parse mAddress value ∧ ¬ IsComplete mAddress (value.member "routing") ∧
      (controlMessage parse uuid_parse mAddress "update" data).run.run old = (.ok .none, old)) ∨
    (¬ IsDocument uuid_parse mAddress value ∧
      ∃ e, (controlMessage parse uuid_parse mAddress "update" data).run.run old
        = (.error e, old)) := by
  have hsignal : signalUpdate parse uuid_parse mAddress data =
      updateFrom uuid_parse mAddress value := by
    rcases h with h | h <;> simp only [signalUpdate, h]
  rw [controlMessage_update, hsignal]
  obtain ⟨hdoc, hcomplete, new, hnew, hrun⟩ | ⟨hdoc, hcomplete, hrun⟩ | ⟨hdoc, e, hrun⟩ :=
    updateFrom_run uuid_parse mAddress value old
  · exact .inl ⟨hdoc, hcomplete, new, hnew, Routed.run_bind hrun _⟩
  · exact .inr (.inl ⟨hdoc, hcomplete, Routed.run_bind hrun _⟩)
  · exact .inr (.inr ⟨hdoc, e, Routed.run_bind_error hrun _⟩)

theorem controlMessage_update_throws {data : String} {e : Exception} (h : parse data = .throws e)
    (old : Addressing) :
    (controlMessage parse uuid_parse mAddress "update" data).run.run old = (.error e, old) := by
  rw [controlMessage_update]
  apply Routed.run_bind_error
  simp only [signalUpdate, h]
  rfl

/-- When no exception leaves, the value is a document. -/
theorem UpdatesOrRejects.isDocument {data : String} {value : Object}
    (h : UpdatesOrRejects parse uuid_parse mAddress data)
    (hparse : parse data = .parsed value ∨ parse data = .refused value) :
    IsDocument uuid_parse mAddress value := by
  obtain ⟨new, hnew, -⟩ := h {}
  obtain ⟨hdoc, -⟩ | ⟨hdoc, -⟩ | ⟨-, e, hrun⟩ :=
    controlMessage_update_run uuid_parse mAddress hparse {}
  · exact hdoc
  · exact hdoc
  · cases hnew.symm.trans hrun

/-- A text that does not parse and leaves complete routing data behind replaces
    tables that are not yet those of that data. -/
theorem not_updatesOrRejects_of_isComplete {data : String} {value : Object}
    (hparse : parse data = .refused value)
    (hcomplete : IsComplete mAddress (value.member "routing")) :
    ¬ UpdatesOrRejects parse uuid_parse mAddress data := by
  intro h
  have hdoc := h.isDocument (.inr hparse)
  have hreplaces : ∀ old, ∃ new, BuiltFrom uuid_parse mAddress (value.member "routing") new ∧
      (controlMessage parse uuid_parse mAddress "update" data).run.run old = (.ok .none, new) := by
    intro old
    obtain ⟨-, -, hnew⟩ | ⟨-, hnot, -⟩ | ⟨hnot, -⟩ :=
      controlMessage_update_run uuid_parse mAddress (.inr hparse) old
    · exact hnew
    · exact absurd hcomplete hnot
    · exact absurd hdoc hnot
  obtain ⟨new, hnew, -⟩ := hreplaces {}
  let old : Addressing := { new with mDefaultAddresses := {} :: new.mDefaultAddresses }
  obtain ⟨new', hnew', hrun'⟩ := hreplaces old
  cases hnew.unique hnew'
  obtain ⟨left, hleft, hkept | ⟨parsed, hparsed, -⟩⟩ := h old
  · cases hrun'.symm.trans hleft
    have hlength := congrArg (fun a : Addressing => a.mDefaultAddresses.length) hkept
    simp [old] at hlength
  · cases hparse.symm.trans hparsed

/-- **A bad routing update is rejected without effect**, exactly for well-formed
    data. -/
theorem updatesOrRejects_iff (parse : String → ParseOutcome) (uuid_parse : String → Option UUID)
    (mAddress : Address) (data : String) :
    UpdatesOrRejects parse uuid_parse mAddress data ↔
      WellFormed parse uuid_parse mAddress data := by
  unfold WellFormed
  cases hparse : parse data with
  | throws e =>
    refine iff_of_false (fun h => ?_) id
    obtain ⟨new, hnew, -⟩ := h {}
    cases hnew.symm.trans (controlMessage_update_throws hparse {})
  | parsed value =>
    constructor
    · intro h
      exact h.isDocument (.inl hparse)
    · intro hdoc old
      obtain ⟨-, -, new, hnew, hrun⟩ | ⟨-, -, hrun⟩ | ⟨hnot, -⟩ :=
        controlMessage_update_run uuid_parse mAddress
          (.inl hparse) old
      · exact ⟨new, hrun, .inr ⟨value, hparse, hnew⟩⟩
      · exact ⟨old, hrun, .inl rfl⟩
      · exact absurd hdoc hnot
  | refused value =>
    constructor
    · intro h
      refine ⟨h.isDocument (.inr hparse), fun hcomplete => ?_⟩
      exact not_updatesOrRejects_of_isComplete hparse hcomplete h
    · rintro ⟨hdoc, hcomplete⟩ old
      obtain ⟨-, hnot, -⟩ | ⟨-, -, hrun⟩ | ⟨hnot, -⟩ :=
        controlMessage_update_run uuid_parse mAddress
          (.inr hparse) old
      · exact absurd hnot hcomplete
      · exact ⟨old, hrun, .inl rfl⟩
      · exact absurd hdoc hnot

/-- The reader's result for a text that is a number. -/
def parseFive (data : String) : ParseOutcome :=
  if data = "5" then .parsed (.int 5) else .refused .null

/-- `dataObj["routing"]` of a document that is a number is a logic error, and
    nothing catches it. -/
theorem not_forall_updatesOrRejects :
    ¬ ∀ (parse : String → ParseOutcome) (uuid_parse : String → Option UUID) (mAddress : Address)
      (data : String), UpdatesOrRejects parse uuid_parse mAddress data := by
  intro h
  obtain ⟨new, hnew, -⟩ := h parseFive (fun _ => none) {} "5" {}
  have hrun : (controlMessage parseFive (fun _ => none) {} "update" "5").run.run {}
      = (.error .jsonLogicError, {}) := rfl
  cases hnew.symm.trans hrun

end Arras4Core.Computation
