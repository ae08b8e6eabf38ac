/-
  Arras4Core.Shared.ExecutionLimits

  `ExecutionLimits`, the limits a computation runs under, and how they are saved in
  an object and restored from it.

  The cpu set is saved as one list.  It is restored through `enableAffinity`, which
  takes the processors for regular and for hyperthreads apart and checks the
  length of each list.  What is logged is left out.
-/

import Arras4Core.Api.Object
import Arras4Core.Shared.ProcList

namespace Arras4Core.Shared

open Arras4Core.Api (Exception Object)

def DEFAULT_MEM_MB : UInt32 := 2048

structure ExecutionLimits where
  mUnlimited : Bool
  mMaxMemoryMB : UInt32
  mMaxCores : UInt32
  mThreadsPerCore : UInt32
  mUseAffinity : Bool
  mCpuSet : CpuSet

namespace ExecutionLimits

/-! ## Constructors and setters

The constructors leave the cpu set as it is found in memory. -/

def ofLimits (aMaxMemoryMB aMaxCores aThreadsPerCore : UInt32) (memory : CpuSet) :
    ExecutionLimits :=
  { mUnlimited := false
    mMaxMemoryMB := aMaxMemoryMB
    mMaxCores := aMaxCores
    mThreadsPerCore := aThreadsPerCore
    mUseAffinity := false
    mCpuSet := memory }

/-- The default constructor. -/
def unlimited (memory : CpuSet) : ExecutionLimits :=
  { mUnlimited := true
    mMaxMemoryMB := DEFAULT_MEM_MB
    mMaxCores := 1
    mThreadsPerCore := 1
    mUseAffinity := false
    mCpuSet := memory }

def disableAffinity (s : ExecutionLimits) : ExecutionLimits := { s with mUseAffinity := false }

def disableHyperthreading (s : ExecutionLimits) : ExecutionLimits := { s with mThreadsPerCore := 1 }

def setUnlimited (s : ExecutionLimits) (flag : Bool) : ExecutionLimits :=
  { s with mUnlimited := flag }

def setMaxMemoryMB (s : ExecutionLimits) (v : UInt32) : ExecutionLimits :=
  { s with mMaxMemoryMB := v }

def setMaxCores (s : ExecutionLimits) (v : UInt32) : ExecutionLimits := { s with mMaxCores := v }

def setThreadsPerCore (s : ExecutionLimits) (v : UInt32) : ExecutionLimits :=
  { s with mThreadsPerCore := v }

def enableAffinity (s : ExecutionLimits) (cpus hyperthreadCpus : List Char) :
    Except OutOfRange (Bool × ExecutionLimits) :=
  match procListToCpuSet cpus s.mMaxCores with
  | .error e => .error e
  | .ok (false, _) => .ok (false, s)
  | .ok (true, cpuSet) =>
    if s.mThreadsPerCore > 1 then
      match procListToCpuSet hyperthreadCpus (s.mMaxCores * (s.mThreadsPerCore - 1)) with
      | .error e => .error e
      | .ok (false, _) => .ok (false, s)
      | .ok (true, htCpuSet) =>
        let testSet := cpuSet ∩ htCpuSet
        if testSet.card ≠ 0 then .ok (false, s)
        else .ok (true, { s with mUseAffinity := true, mCpuSet := cpuSet ∪ htCpuSet })
    else .ok (true, { s with mUseAffinity := true, mCpuSet := cpuSet })

/-! ## Saving and restoring -/

/-- What becomes of a limit that is read from `val`: a positive `int` replaces it, and
    null leaves it; `none` for anything else. -/
def readLimit (realIntegral : String → Option Int) (val : Object) (limit : UInt32) :
    Option UInt32 :=
  match (val.integral? realIntegral).filter Object.inInt with
  | some n => if n > 0 then some (UInt32.ofNat n.toNat) else none
  | none =>
    match val with
    | .null => some limit
    | _ => none

def isNull : Object → Bool
  | .null => true
  | _ => false

/-- `if (val.isString()) s = val.asString()`, with an empty string before. -/
def readString : Object → List Char
  | .string s => s.toList
  | _ => []

/-- The part of `setFromObject` that reads the affinity. -/
def setAffinityFrom (s : ExecutionLimits) (useAffinityVal cpuSetVal htCpuSetVal : Object) :
    Except OutOfRange (Bool × ExecutionLimits) :=
  match useAffinityVal with
  | .bool true =>
    -- the result of the call is not looked at
    match s.enableAffinity (readString cpuSetVal) (readString htCpuSetVal) with
    | .error e => .error e
    | .ok (_, s) => .ok (true, s)
  | .bool false => .ok (true, s.disableAffinity)
  | _ =>
    if !isNull useAffinityVal || !isNull cpuSetVal || !isNull htCpuSetVal then .ok (false, s)
    else .ok (true, s)

/-- `setFromObject`, at an object or null.  Of any other value the first access to a
    member throws, before anything is set. -/
def setFromObject (realIntegral : String → Option Int) (s : ExecutionLimits) (obj : Object) :
    Except (Exception ⊕ OutOfRange) (Bool × ExecutionLimits) :=
  if !obj.isObjectOrNull then .error (.inl .jsonLogicError)
  else
    let s := s.setUnlimited (match obj.member "unlimited" with | .bool b => b | _ => false)
    match readLimit realIntegral (obj.member "maxMemoryMB") s.mMaxMemoryMB with
    | none => .ok (false, s)
    | some v =>
      let s := s.setMaxMemoryMB v
      match readLimit realIntegral (obj.member "maxCores") s.mMaxCores with
      | none => .ok (false, s)
      | some v =>
        let s := s.setMaxCores v
        match readLimit realIntegral (obj.member "threadsPerCore") s.mThreadsPerCore with
        | none => .ok (false, s)
        | some v =>
          (setAffinityFrom (s.setThreadsPerCore v) (obj.member "useAffinity")
            (obj.member "cpuSet") (obj.member "hyperthreadCpuSet")).mapError .inr

def toObject (s : ExecutionLimits) (obj : Object) : Except Exception Object :=
  if s.mUnlimited then obj.set "unlimited" (.bool true)
  else do
    let obj ← obj.set "maxMemoryMB" (.int s.mMaxMemoryMB.toNat)
    let obj ← obj.set "maxCores" (.int s.mMaxCores.toNat)
    let obj ← obj.set "threadsPerCore" (.int s.mThreadsPerCore.toNat)
    if s.mUseAffinity then
      let obj ← obj.set "useAffinity" (.bool true)
      obj.set "cpuSet" (.string (String.ofList (cpuSetToProcList s.mCpuSet)))
    else return obj

/-! ## What they should do -/

/-- A limit that is positive and fits an `int`. -/
def PositiveInt (v : UInt32) : Prop := 0 < v ∧ v < 2147483648

/-- The values that can be made with positive limits. -/
inductive Built : ExecutionLimits → Prop
  | ofLimits {mb cores threads : UInt32} (memory : CpuSet) (hmb : PositiveInt mb)
      (hcores : PositiveInt cores) (hthreads : PositiveInt threads) :
      Built (.ofLimits mb cores threads memory)
  | unlimited (memory : CpuSet) : Built (.unlimited memory)
  | disableAffinity {s : ExecutionLimits} (h : Built s) : Built s.disableAffinity
  | disableHyperthreading {s : ExecutionLimits} (h : Built s) : Built s.disableHyperthreading
  | setUnlimited {s : ExecutionLimits} (h : Built s) (flag : Bool) : Built (s.setUnlimited flag)
  | setMaxMemoryMB {s : ExecutionLimits} {v : UInt32} (h : Built s) (hv : PositiveInt v) :
      Built (s.setMaxMemoryMB v)
  | setMaxCores {s : ExecutionLimits} {v : UInt32} (h : Built s) (hv : PositiveInt v) :
      Built (s.setMaxCores v)
  | setThreadsPerCore {s : ExecutionLimits} {v : UInt32} (h : Built s) (hv : PositiveInt v) :
      Built (s.setThreadsPerCore v)
  | enableAffinity {s s' : ExecutionLimits} {cpus hyperthreadCpus : List Char} {done : Bool}
      (h : Built s) (henable : s.enableAffinity cpus hyperthreadCpus = .ok (done, s')) : Built s'

/-- The same limits.  The cpu set counts where it is used. -/
def SameLimits (s s' : ExecutionLimits) : Prop :=
  s'.mUnlimited = s.mUnlimited ∧ s'.mMaxMemoryMB = s.mMaxMemoryMB ∧
  s'.mMaxCores = s.mMaxCores ∧ s'.mThreadsPerCore = s.mThreadsPerCore ∧
  s'.mUseAffinity = s.mUseAffinity ∧ (s.mUseAffinity = true → s'.mCpuSet = s.mCpuSet)

/-- What is saved in a new object is restored by a new `ExecutionLimits`. -/
def Restores (realIntegral : String → Option Int) (memory : CpuSet) (s : ExecutionLimits) :
    Prop :=
  ∃ obj s', s.toObject .null = .ok obj ∧
    (unlimited memory).setFromObject realIntegral obj = .ok (true, s') ∧ SameLimits s s'

/-- Where the limits survive: unlimited with the default values, or limited, and where
    affinity is used, with one thread for each core and as many cpus as cores. -/
def Restorable (s : ExecutionLimits) : Prop :=
  if s.mUnlimited then
    s.mMaxMemoryMB = DEFAULT_MEM_MB ∧ s.mMaxCores = 1 ∧ s.mThreadsPerCore = 1 ∧
      s.mUseAffinity = false
  else
    s.mUseAffinity = true → s.mThreadsPerCore = 1 ∧ s.mCpuSet.card = s.mMaxCores.toNat

/-! ## Every value that can be made -/

theorem enableAffinity_limits {s s' : ExecutionLimits} {cpus hyperthreadCpus : List Char}
    {done : Bool} (h : s.enableAffinity cpus hyperthreadCpus = .ok (done, s')) :
    s' = { s with mUseAffinity := s'.mUseAffinity, mCpuSet := s'.mCpuSet } ∧
      (done = false → s' = s) := by
  unfold enableAffinity at h
  cases hcpus : procListToCpuSet cpus s.mMaxCores with
  | error e =>
    rw [hcpus] at h
    cases h
  | ok result =>
    obtain ⟨accepted, cpuSet⟩ := result
    rw [hcpus] at h
    cases accepted with
    | false =>
      cases h
      exact ⟨rfl, fun _ => rfl⟩
    | true =>
      simp only at h
      split at h
      · split at h
        · cases h
        · cases h
          exact ⟨rfl, fun _ => rfl⟩
        · split at h
          · cases h
            exact ⟨rfl, fun _ => rfl⟩
          · cases h
            exact ⟨rfl, fun hdone => nomatch hdone⟩
      · cases h
        exact ⟨rfl, fun hdone => nomatch hdone⟩

/-- The limits that matter for saving. -/
structure LimitsPositive (s : ExecutionLimits) : Prop where
  mb : PositiveInt s.mMaxMemoryMB
  cores : PositiveInt s.mMaxCores
  threads : PositiveInt s.mThreadsPerCore

theorem positiveInt_one : PositiveInt 1 := by
  unfold PositiveInt
  decide

theorem positiveInt_default : PositiveInt DEFAULT_MEM_MB := by
  unfold PositiveInt
  decide

theorem limitsPositive_of_built {s : ExecutionLimits} (h : Built s) : LimitsPositive s := by
  induction h with
  | ofLimits memory hmb hcores hthreads => exact ⟨hmb, hcores, hthreads⟩
  | unlimited memory =>
    exact ⟨positiveInt_default, positiveInt_one, positiveInt_one⟩
  | disableAffinity h ih => exact ⟨ih.mb, ih.cores, ih.threads⟩
  | disableHyperthreading h ih => exact ⟨ih.mb, ih.cores, positiveInt_one⟩
  | setUnlimited h flag ih => exact ⟨ih.mb, ih.cores, ih.threads⟩
  | setMaxMemoryMB h hv ih => exact ⟨hv, ih.cores, ih.threads⟩
  | setMaxCores h hv ih => exact ⟨ih.mb, hv, ih.threads⟩
  | setThreadsPerCore h hv ih => exact ⟨ih.mb, ih.cores, hv⟩
  | enableAffinity h henable ih =>
    rw [(enableAffinity_limits henable).1]
    exact ⟨ih.mb, ih.cores, ih.threads⟩

/-! ## What is saved -/

theorem toObject_of_unlimited {s : ExecutionLimits} (h : s.mUnlimited = true) :
    ∃ obj, s.toObject .null = .ok obj ∧ obj.isObjectOrNull = true ∧
      ∀ name, obj.member name = if name = "unlimited" then .bool true else .null := by
  obtain ⟨obj, hset, hobj, hmember⟩ :=
    Object.set_of_isObjectOrNull (o := .null) rfl "unlimited" (.bool true)
  refine ⟨obj, ?_, hobj, hmember⟩
  rw [toObject, if_pos h, hset]

/-- The member that is written, by its name. -/
def saved (s : ExecutionLimits) (name : String) : Object :=
  if name = "cpuSet" ∧ s.mUseAffinity = true then
    .string (String.ofList (cpuSetToProcList s.mCpuSet))
  else if name = "useAffinity" ∧ s.mUseAffinity = true then .bool true
  else if name = "threadsPerCore" then .int s.mThreadsPerCore.toNat
  else if name = "maxCores" then .int s.mMaxCores.toNat
  else if name = "maxMemoryMB" then .int s.mMaxMemoryMB.toNat
  else .null

theorem toObject_of_limited {s : ExecutionLimits} (h : s.mUnlimited = false) :
    ∃ obj, s.toObject .null = .ok obj ∧ obj.isObjectOrNull = true ∧
      ∀ name, obj.member name = s.saved name := by
  obtain ⟨o₁, hset₁, ho₁, hmember₁⟩ :=
    Object.set_of_isObjectOrNull (o := .null) rfl "maxMemoryMB" (.int s.mMaxMemoryMB.toNat)
  obtain ⟨o₂, hset₂, ho₂, hmember₂⟩ :=
    Object.set_of_isObjectOrNull ho₁ "maxCores" (.int s.mMaxCores.toNat)
  obtain ⟨o₃, hset₃, ho₃, hmember₃⟩ :=
    Object.set_of_isObjectOrNull ho₂ "threadsPerCore" (.int s.mThreadsPerCore.toNat)
  obtain ⟨o₄, hset₄, ho₄, hmember₄⟩ :=
    Object.set_of_isObjectOrNull ho₃ "useAffinity" (.bool true)
  obtain ⟨o₅, hset₅, ho₅, hmember₅⟩ := Object.set_of_isObjectOrNull ho₄ "cpuSet"
    (.string (String.ofList (cpuSetToProcList s.mCpuSet)))
  cases haffinity : s.mUseAffinity with
  | true =>
    refine ⟨o₅, ?_, ho₅, fun name => ?_⟩
    · simp [toObject, h, haffinity, hset₁, hset₂, hset₃, hset₄, hset₅, bind, Except.bind]
    · rw [hmember₅, hmember₄, hmember₃, hmember₂, hmember₁, saved]
      simp only [haffinity, and_true]
      rfl
  | false =>
    refine ⟨o₃, ?_, ho₃, fun name => ?_⟩
    · simp [toObject, h, haffinity, hset₁, hset₂, hset₃, bind, Except.bind, pure, Except.pure]
    · rw [hmember₃, hmember₂, hmember₁, saved]
      simp only [haffinity, Bool.false_eq_true, and_false, if_false]
      rfl

/-! ## What is restored -/

theorem readString_null : readString .null = [] := rfl

theorem PositiveInt.toNat_pos {v : UInt32} (hv : PositiveInt v) : 0 < v.toNat := by
  simpa [UInt32.lt_iff_toNat_lt] using hv.1

theorem PositiveInt.inInt {v : UInt32} (hv : PositiveInt v) : Object.inInt v.toNat = true := by
  have hlt : v.toNat < 2147483648 := by simpa [UInt32.lt_iff_toNat_lt] using hv.2
  rw [Object.inInt, decide_eq_true_eq]
  omega

theorem readLimit_of_inInt (realIntegral : String → Option Int) {n : Int}
    (hrange : Object.inInt n = true) (limit : UInt32) :
    readLimit realIntegral (.int n) limit
      = if n > 0 then some (UInt32.ofNat n.toNat) else none := by
  have hint : ((Object.int n).integral? realIntegral).filter Object.inInt = some n := by
    rw [Object.integral?, Option.filter_some, if_pos hrange]
  unfold readLimit
  rw [hint]

theorem readLimit_int (realIntegral : String → Option Int) {v : UInt32} (hv : PositiveInt v)
    (limit : UInt32) : readLimit realIntegral (.int v.toNat) limit = some v := by
  have hpos := hv.toNat_pos
  rw [readLimit_of_inInt realIntegral hv.inInt, if_pos (by omega), Int.toNat_natCast,
    UInt32.ofNat_toNat]

theorem one_lt_iff {v : UInt32} (hv : PositiveInt v) : v > 1 ↔ v ≠ 1 := by
  have hpos := hv.toNat_pos
  rw [gt_iff_lt, UInt32.lt_iff_toNat_lt, Ne, ← UInt32.toNat_inj]
  show 1 < v.toNat ↔ ¬ v.toNat = 1
  omega

/-- The printed set is accepted if it has as many processors as there are cores. -/
theorem procListToCpuSet_saved {cores : UInt32} (hcores : PositiveInt cores) (cpuSet : CpuSet) :
    ∃ read, procListToCpuSet (cpuSetToProcList cpuSet) cores
      = .ok (decide (cpuSet.card = cores.toNat), read) ∧
      (cpuSet.card = cores.toNat → read = cpuSet) := by
  have hpos := hcores.toNat_pos
  have hcard : cpuSet.card < 2 ^ 32 := by
    have := Finset.card_le_univ cpuSet
    rw [Fintype.card_fin] at this
    omega
  by_cases hne : cpuSet = ∅
  · subst hne
    have hzero : ¬ (∅ : CpuSet).card = cores.toNat := by
      rw [Finset.card_empty]
      omega
    refine ⟨∅, ?_, fun h => absurd h hzero⟩
    have hlist : cpuSetToProcList ∅ = [] := by
      rw [cpuSetToProcList_eq]
      simp [members, procListText]
    rw [decide_eq_false hzero, hlist]
    rfl
  · refine ⟨cpuSet, ?_, fun _ => rfl⟩
    rw [procListToCpuSet_cpuSetToProcList hne]
    simp only [toNat_eq_iff hcard]

/-- Of a value with hyperthreads the list for them is missing. -/
theorem enableAffinity_saved {s : ExecutionLimits} (hs : LimitsPositive s) (cpuSet : CpuSet) :
    s.enableAffinity (cpuSetToProcList cpuSet) [] =
      if s.mThreadsPerCore = 1 ∧ cpuSet.card = s.mMaxCores.toNat then
        .ok (true, { s with mUseAffinity := true, mCpuSet := cpuSet })
      else .ok (false, s) := by
  obtain ⟨read, hread, hcpuSet⟩ := procListToCpuSet_saved hs.cores cpuSet
  have hthreads := one_lt_iff hs.threads
  unfold enableAffinity
  rw [hread]
  by_cases hcard : cpuSet.card = s.mMaxCores.toNat
  · obtain rfl := hcpuSet hcard
    by_cases hone : s.mThreadsPerCore = 1
    · simp [hcard, hone]
    · have hgt : s.mThreadsPerCore > 1 := hthreads.mpr hone
      simp [hcard, hone, hgt, procListToCpuSet]
  · simp [hcard]

/-- What a new object is when it is set from a saved limited value. -/
theorem setFromObject_of_limited (realIntegral : String → Option Int) (memory : CpuSet)
    {s : ExecutionLimits} (hs : LimitsPositive s) {obj : Object} (hobj : obj.isObjectOrNull = true)
    (hmember : ∀ name, obj.member name = s.saved name) :
    (unlimited memory).setFromObject realIntegral obj =
      (setAffinityFrom (ofLimits s.mMaxMemoryMB s.mMaxCores s.mThreadsPerCore memory)
        (s.saved "useAffinity") (s.saved "cpuSet")
        (s.saved "hyperthreadCpuSet")).mapError .inr := by
  have hunlimited : s.saved "unlimited" = .null := by simp [saved]
  have hmb : s.saved "maxMemoryMB" = .int s.mMaxMemoryMB.toNat := by simp [saved]
  have hcores : s.saved "maxCores" = .int s.mMaxCores.toNat := by simp [saved]
  have hthreads : s.saved "threadsPerCore" = .int s.mThreadsPerCore.toNat := by simp [saved]
  unfold setFromObject
  simp only [hobj, hmember, hunlimited, hmb, hcores, hthreads, readLimit_int realIntegral hs.mb,
    readLimit_int realIntegral hs.cores, readLimit_int realIntegral hs.threads]
  rfl

theorem restores_iff {realIntegral : String → Option Int} {memory : CpuSet}
    {s s' : ExecutionLimits} {obj : Object} (hto : s.toObject .null = .ok obj)
    (hfrom : (unlimited memory).setFromObject realIntegral obj = .ok (true, s')) :
    Restores realIntegral memory s ↔ SameLimits s s' := by
  constructor
  · rintro ⟨obj', s'', hto', hfrom', hsame⟩
    rw [hto] at hto'
    cases hto'
    rw [hfrom] at hfrom'
    cases hfrom'
    exact hsame
  · intro hsame
    exact ⟨obj, s', hto, hfrom, hsame⟩

/-- Of an unlimited value only that is restored. -/
theorem restores_of_unlimited (realIntegral : String → Option Int) (memory : CpuSet)
    {s : ExecutionLimits} (h : s.mUnlimited = true) :
    Restores realIntegral memory s ↔ SameLimits s (unlimited memory) := by
  obtain ⟨obj, hto, hobj, hmember⟩ := toObject_of_unlimited h
  apply restores_iff hto
  unfold setFromObject
  simp only [hobj, hmember]
  rfl

/-- The cpu set is accepted as a list for regular threads. -/
def Fits (s : ExecutionLimits) : Prop :=
  s.mThreadsPerCore = 1 ∧ s.mCpuSet.card = s.mMaxCores.toNat

/-- The value with the saved numbers. -/
def withNumbers (memory : CpuSet) (s : ExecutionLimits) : ExecutionLimits :=
  ofLimits s.mMaxMemoryMB s.mMaxCores s.mThreadsPerCore memory

theorem limitsPositive_withNumbers {s : ExecutionLimits} (hs : LimitsPositive s)
    (memory : CpuSet) : LimitsPositive (s.withNumbers memory) :=
  ⟨hs.mb, hs.cores, hs.threads⟩

theorem setFromObject_without_affinity (realIntegral : String → Option Int) (memory : CpuSet)
    {s : ExecutionLimits} (hs : LimitsPositive s) {obj : Object} (hobj : obj.isObjectOrNull = true)
    (hmember : ∀ name, obj.member name = s.saved name) (haffinity : s.mUseAffinity = false) :
    (unlimited memory).setFromObject realIntegral obj = .ok (true, s.withNumbers memory) := by
  have huse : s.saved "useAffinity" = .null := by simp [saved, haffinity]
  have hcpus : s.saved "cpuSet" = .null := by simp [saved, haffinity]
  have hht : s.saved "hyperthreadCpuSet" = .null := by simp [saved]
  rw [setFromObject_of_limited realIntegral memory hs hobj hmember, huse, hcpus, hht]
  rfl

/-- With affinity the call of `enableAffinity` decides, and its result is not looked at. -/
theorem setFromObject_with_affinity (realIntegral : String → Option Int) (memory : CpuSet)
    {s : ExecutionLimits} (hs : LimitsPositive s) {obj : Object} (hobj : obj.isObjectOrNull = true)
    (hmember : ∀ name, obj.member name = s.saved name) (haffinity : s.mUseAffinity = true) :
    (s.Fits → (unlimited memory).setFromObject realIntegral obj
      = .ok (true, { s.withNumbers memory with mUseAffinity := true, mCpuSet := s.mCpuSet })) ∧
    (¬ s.Fits → (unlimited memory).setFromObject realIntegral obj
      = .ok (true, s.withNumbers memory)) := by
  have huse : s.saved "useAffinity" = .bool true := by simp [saved, haffinity]
  have hcpus : s.saved "cpuSet" = .string (String.ofList (cpuSetToProcList s.mCpuSet)) := by
    simp [saved, haffinity]
  have hht : s.saved "hyperthreadCpuSet" = .null := by simp [saved]
  have henable := enableAffinity_saved (limitsPositive_withNumbers hs memory) s.mCpuSet
  rw [setFromObject_of_limited realIntegral memory hs hobj hmember, huse, hcpus, hht]
  unfold setAffinityFrom
  rw [readString, String.toList_ofList]
  constructor
  · intro hfits
    have hdone := henable.trans (if_pos hfits)
    simp only [withNumbers] at hdone ⊢
    rw [readString_null, hdone]
    rfl
  · intro hfits
    have hdone := henable.trans (if_neg hfits)
    simp only [withNumbers] at hdone ⊢
    rw [readString_null, hdone]
    rfl

/-- A cpu set that is not accepted is lost, and with it the affinity. -/
theorem not_restores_of_not_fits (realIntegral : String → Option Int) (memory : CpuSet)
    {s : ExecutionLimits} (hs : LimitsPositive s) (hunlimited : s.mUnlimited = false)
    (haffinity : s.mUseAffinity = true) (hfits : ¬ s.Fits) : ¬ Restores realIntegral memory s := by
  obtain ⟨obj, hto, hobj, hmember⟩ := toObject_of_limited hunlimited
  have hfrom := setFromObject_with_affinity realIntegral memory hs hobj hmember haffinity
  rw [restores_iff hto (hfrom.2 hfits)]
  rintro ⟨-, -, -, -, huse, -⟩
  exact absurd (huse.trans haffinity) Bool.false_ne_true

/-- What is saved is restored just if the value is `Restorable`. -/
theorem toObject_restores_iff (realIntegral : String → Option Int) (memory : CpuSet)
    {s : ExecutionLimits} (h : Built s) : Restores realIntegral memory s ↔ Restorable s := by
  have hs := limitsPositive_of_built h
  unfold Restorable
  cases hunlimited : s.mUnlimited with
  | true =>
    rw [restores_of_unlimited realIntegral memory hunlimited, if_pos rfl]
    unfold SameLimits
    constructor
    · rintro ⟨-, hmb, hcores, hthreads, haffinity, -⟩
      exact ⟨hmb.symm, hcores.symm, hthreads.symm, haffinity.symm⟩
    · rintro ⟨hmb, hcores, hthreads, haffinity⟩
      refine ⟨hunlimited.symm, hmb.symm, hcores.symm, hthreads.symm, haffinity.symm, ?_⟩
      rw [haffinity]
      exact fun hfalse => absurd hfalse Bool.false_ne_true
  | false =>
    obtain ⟨obj, hto, hobj, hmember⟩ := toObject_of_limited hunlimited
    rw [if_neg Bool.false_ne_true]
    cases haffinity : s.mUseAffinity with
    | false =>
      have hfrom := setFromObject_without_affinity realIntegral memory hs hobj hmember haffinity
      rw [restores_iff hto hfrom]
      refine iff_of_true ⟨hunlimited.symm, rfl, rfl, rfl, haffinity.symm, ?_⟩ ?_
      · rw [haffinity]
        exact fun hfalse => absurd hfalse Bool.false_ne_true
      · exact fun hfalse => absurd hfalse Bool.false_ne_true
    | true =>
      have hfrom := setFromObject_with_affinity realIntegral memory hs hobj hmember haffinity
      by_cases hfits : s.Fits
      · rw [restores_iff hto (hfrom.1 hfits)]
        exact iff_of_true ⟨hunlimited.symm, rfl, rfl, rfl, haffinity.symm, fun _ => rfl⟩
          fun _ => hfits
      · exact iff_of_false
          (not_restores_of_not_fits realIntegral memory hs hunlimited haffinity hfits)
          fun hall => hfits (hall rfl)

/-- Two cores with one thread each, on the cpus 0 and 1. -/
def oneThreaded : ExecutionLimits :=
  { ofLimits 1024 2 1 ∅ with mUseAffinity := true, mCpuSet := {0, 1} }

theorem built_oneThreaded : Built oneThreaded := by
  have hbase : Built (ofLimits 1024 2 1 ∅) :=
    .ofLimits ∅ (by unfold PositiveInt; decide) (by unfold PositiveInt; decide) positiveInt_one
  have hlist : IsProcList "0,1".toList [0, 1] := ⟨by decide, by decide⟩
  have hcpus : procListToCpuSet "0,1".toList 2 = .ok (true, [0, 1].toFinset) :=
    procListToCpuSet_of_isProcList hlist 2
  have henable : (ofLimits 1024 2 1 ∅).enableAffinity "0,1".toList []
      = .ok (true, oneThreaded) := by
    unfold enableAffinity
    rw [show (ofLimits 1024 2 1 ∅).mMaxCores = 2 from rfl, hcpus]
    rfl
  exact .enableAffinity hbase henable

/-- Their affinity is restored. -/
theorem toObject_restores_iff_oneThreaded :
    Restorable oneThreaded ∧
      (Restores (fun _ => none) ∅ oneThreaded ↔ Restorable oneThreaded) := by
  refine ⟨?_, toObject_restores_iff (fun _ => none) ∅ built_oneThreaded⟩
  unfold Restorable
  decide

/-- Two cores with two threads each, on the cpus 0 and 1 and the hyperthread cpus 2 and 3. -/
def hyperthreaded : ExecutionLimits :=
  { ofLimits 1024 2 2 ∅ with mUseAffinity := true, mCpuSet := {0, 1, 2, 3} }

theorem built_hyperthreaded : Built hyperthreaded := by
  have hbase : Built (ofLimits 1024 2 2 ∅) :=
    .ofLimits ∅ (by unfold PositiveInt; decide) (by unfold PositiveInt; decide)
      (by unfold PositiveInt; decide)
  have hcpusList : IsProcList "0,1".toList [0, 1] := ⟨by decide, by decide⟩
  have hhtList : IsProcList "2,3".toList [2, 3] := ⟨by decide, by decide⟩
  have hcpus : procListToCpuSet "0,1".toList 2 = .ok (true, [0, 1].toFinset) :=
    procListToCpuSet_of_isProcList hcpusList 2
  have hht : procListToCpuSet "2,3".toList 2 = .ok (true, [2, 3].toFinset) :=
    procListToCpuSet_of_isProcList hhtList 2
  have henable : (ofLimits 1024 2 2 ∅).enableAffinity "0,1".toList "2,3".toList
      = .ok (true, hyperthreaded) := by
    unfold enableAffinity
    rw [show (ofLimits 1024 2 2 ∅).mMaxCores = 2 from rfl, hcpus]
    show (if (2 : UInt32) > 1 then _ else _) = _
    rw [if_pos (by decide),
      show (2 : UInt32) * ((ofLimits 1024 2 2 ∅).mThreadsPerCore - 1) = 2 from rfl, hht]
    rfl
  exact .enableAffinity hbase henable

/-- Their affinity is lost. -/
theorem not_restores_hyperthreaded :
    Built hyperthreaded ∧ ¬ Restores (fun _ => none) ∅ hyperthreaded := by
  refine ⟨built_hyperthreaded, ?_⟩
  apply not_restores_of_not_fits _ _ (limitsPositive_of_built built_hyperthreaded) rfl rfl
  rintro ⟨hone, -⟩
  cases hone

end ExecutionLimits

end Arras4Core.Shared
