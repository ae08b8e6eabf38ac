/-
  Arras4Core.Computation.ApplyChunkingConfig

  `CompEnvironmentImpl::applyChunkingConfig`, which reads the chunking settings
  out of the configuration of a computation.

  Each of the two sizes is a number of megabytes and a number of bytes, either
  of which may be left out:

      config["chunkSizeMb"].asInt() * 1024 * 1024ull  +  config["chunkSizeBytes"].asInt()
      `------------ int -----------'                     `----------- int ------------'
      `----------- unsigned long long -------------'

  The first product is one of `int`s and can overflow.  Everything after it is
  modulo 2^64, so that a negative sum becomes a huge size.

  Main result: `applyChunkingConfig_iff`, the settings for which neither happens
  and no length of a chunk is cut off.
-/

import Arras4Core.Api.Object
import Arras4Core.Chunking.PayloadLength
import Arras4Core.Lib.Call

namespace Arras4Core.Computation

open Arras4Core.Lib
open Arras4Core.Api (Exception Object)
open Arras4Core.Chunking (ChunkingConfig KeepsLengths keepsLengths_iff)

/-- The product of two `int`s.  One outside the range of an `int` is an overflow,
    which has no defined result. -/
def mulInt (a b : Int) : Except Exception Int :=
  if Object.inInt (a * b) then .ok (a * b) else .error .undefinedBehaviour

/-- The megabytes of a size, as a number of bytes. -/
def sizeOfMb : Option Int → Except Exception UInt64
  | none => .ok 0
  | some mb => do
    let n ← Object.asInt mb
    let kb ← mulInt n 1024
    return UInt64.ofInt kb * 1024

/-- The bytes of a size are added. -/
def addBytes (size : UInt64) : Option Int → Except Exception UInt64
  | none => .ok size
  | some bytes => do
    let n ← Object.asInt bytes
    return size + UInt64.ofInt n

/-- The local variable `minChunkingSize` or `chunkSize`. -/
def readSize (realIntegral : String → Option Int) (config : Object) (nameMb nameBytes : String) :
    Except Exception UInt64 := do
  let mb ← config.get nameMb
  let size ← sizeOfMb (mb.integral? realIntegral)
  let bytes ← config.get nameBytes
  addBytes size (bytes.integral? realIntegral)

/-- `if (config["chunking"].isBool()) mChunkingConfig.enabled = ...`. -/
def setEnabled (chunking : Object) (c : ChunkingConfig) : ChunkingConfig :=
  match chunking with
  | .bool enabled => { c with enabled }
  | _ => c

/-- `if (minChunkingSize) mChunkingConfig.minChunkingSize = minChunkingSize`. -/
def setMinChunkingSize (size : UInt64) (c : ChunkingConfig) : ChunkingConfig :=
  if size = 0 then c else { c with minChunkingSize := size.toNat }

/-- `if (chunkSize) mChunkingConfig.chunkSize = chunkSize`. -/
def setChunkSize (size : UInt64) (c : ChunkingConfig) : ChunkingConfig :=
  if h : size = 0 then c
  else
    { c with
      chunkSize := size.toNat
      chunkSize_pos := Nat.pos_of_ne_zero fun hzero => h (UInt64.toNat_inj.mp hzero) }

/-- The state is `mChunkingConfig`. -/
def applyChunkingConfig (realIntegral : String → Option Int) (config : Object) :
    EStateM Exception ChunkingConfig Unit := do
  let chunking ← resultOf (config.get "chunking")
  modify (setEnabled chunking)
  let minChunkingSize ← resultOf (readSize realIntegral config "minChunkingMb" "minChunkingBytes")
  modify (setMinChunkingSize minChunkingSize)
  let chunkSize ← resultOf (readSize realIntegral config "chunkSizeMb" "chunkSizeBytes")
  modify (setChunkSize chunkSize)

/-! ## What the configuration gives for a size -/

/-- A number of megabytes and a number of bytes, where they are integers. -/
structure SizeSetting where
  mb : Option Int
  bytes : Option Int

/-- The two settings under their names. -/
def sizeSetting (realIntegral : String → Option Int) (config : Object)
    (nameMb nameBytes : String) : SizeSetting where
  mb := (config.member nameMb).integral? realIntegral
  bytes := (config.member nameBytes).integral? realIntegral

namespace SizeSetting

variable (s : SizeSetting)

/-- The size that is meant. -/
def exact : Int := s.mb.getD 0 * 1048576 + s.bytes.getD 0

/-- `asInt` accepts the settings that are there. -/
def accepted : Bool := s.mb.all Object.inInt && s.bytes.all Object.inInt

/-- The product of the megabytes and 1024 is an `int`, if it is formed. -/
def noOverflow : Bool := s.mb.all fun n => !Object.inInt n || Object.inInt (n * 1024)

/-- The computation of the size. -/
def read : Except Exception UInt64 := do
  let size ← sizeOfMb s.mb
  addBytes size s.bytes

/-- The size that is meant comes out. -/
def Fits : Prop := s.noOverflow = true ∧ (s.accepted = true → 0 ≤ s.exact)

variable {s}

theorem getD_bounds {n : Option Int} (h : n.all Object.inInt = true) :
    -2147483648 ≤ n.getD 0 ∧ n.getD 0 < 2147483648 := by
  cases n with
  | none => decide
  | some n => exact of_decide_eq_true h

theorem exact_bounds (h : s.accepted = true) :
    -4611686018427387904 < s.exact ∧ s.exact < 4611686018427387904 := by
  rw [accepted, Bool.and_eq_true] at h
  obtain ⟨hmb, hmb'⟩ := getD_bounds h.1
  obtain ⟨hbytes, hbytes'⟩ := getD_bounds h.2
  unfold exact
  omega

theorem sizeOfMb_eq (mb : Option Int) : sizeOfMb mb =
    if (mb.all fun n => !Object.inInt n || Object.inInt (n * 1024)) = true then
      if mb.all Object.inInt = true then .ok (UInt64.ofInt (mb.getD 0 * 1048576))
      else .error .jsonLogicError
    else .error .undefinedBehaviour := by
  cases mb with
  | none => rfl
  | some n =>
    -- modulo 2^64 the second product is the one of the integers
    have hmul : UInt64.ofInt (n * 1024) * 1024 = UInt64.ofInt (n * 1048576) := by
      have hlit : (1024 : UInt64) = UInt64.ofInt 1024 := rfl
      rw [hlit, ← UInt64.ofInt_mul, Int.mul_assoc]
      rfl
    rw [Option.all_some, Option.all_some, Option.getD_some, ← hmul]
    by_cases hn : Object.inInt n = true
    · have hread : sizeOfMb (some n)
          = (mulInt n 1024 >>= fun kb => pure (UInt64.ofInt kb * 1024)) := by
        rw [sizeOfMb, Object.asInt, if_pos hn]
        rfl
      rw [hread, hn, Bool.not_true, Bool.false_or, if_pos rfl]
      by_cases hkb : Object.inInt (n * 1024) = true
      · rw [mulInt, if_pos hkb, if_pos hkb]
        rfl
      · rw [mulInt, if_neg hkb, if_neg hkb]
        rfl
    · have hskipped : (!Object.inInt n || Object.inInt (n * 1024)) = true := by
        rw [Bool.eq_false_of_not_eq_true hn]
        rfl
      rw [if_pos hskipped, sizeOfMb, Object.asInt, if_neg hn, if_neg hn]
      rfl

theorem addBytes_eq (size : UInt64) (bytes : Option Int) : addBytes size bytes =
    if bytes.all Object.inInt = true then .ok (size + UInt64.ofInt (bytes.getD 0))
    else .error .jsonLogicError := by
  cases bytes with
  | none => exact congrArg Except.ok (UInt64.add_zero size).symm
  | some n =>
    rw [Option.all_some, Option.getD_some]
    by_cases hn : Object.inInt n = true
    · simp only [addBytes, Object.asInt, if_pos hn]
      rfl
    · simp only [addBytes, Object.asInt, if_neg hn]
      rfl

/-- How the computation of a size ends. -/
theorem read_eq (s : SizeSetting) : s.read =
    if s.noOverflow = true then
      if s.accepted = true then .ok (UInt64.ofInt s.exact) else .error .jsonLogicError
    else .error .undefinedBehaviour := by
  rw [read, sizeOfMb_eq]
  by_cases hover : s.noOverflow = true
  · rw [if_pos hover]
    rw [noOverflow] at hover
    rw [if_pos hover]
    by_cases hmb : s.mb.all Object.inInt = true
    · rw [if_pos hmb]
      show addBytes (UInt64.ofInt (s.mb.getD 0 * 1048576)) s.bytes = _
      rw [addBytes_eq, ← UInt64.ofInt_add]
      by_cases hbytes : s.bytes.all Object.inInt = true
      · have haccepted : s.accepted = true := Bool.and_eq_true_iff.mpr ⟨hmb, hbytes⟩
        rw [if_pos hbytes, if_pos haccepted]
        rfl
      · have haccepted : ¬ s.accepted = true := fun h => hbytes (Bool.and_eq_true_iff.mp h).2
        rw [if_neg hbytes, if_neg haccepted]
    · have haccepted : ¬ s.accepted = true := fun h => hmb (Bool.and_eq_true_iff.mp h).1
      rw [if_neg hmb, if_neg haccepted]
      rfl
  · rw [if_neg hover]
    rw [noOverflow] at hover
    rw [if_neg hover]
    rfl

/-- The size that is used in place of a default. -/
def orDefault (default : Nat) (size : UInt64) : Nat := if size = 0 then default else size.toNat

theorem toNat_ofInt (n : Int) :
    (UInt64.ofInt n).toNat = (n % 18446744073709551616).toNat := by
  have hlt : (n % 18446744073709551616).toNat < 18446744073709551616 := by omega
  exact UInt64.toNat_ofNat'.trans (Nat.mod_eq_of_lt hlt)

theorem ofInt_eq_zero (h : s.accepted = true) : UInt64.ofInt s.exact = 0 ↔ s.exact = 0 := by
  -- the sum is too small in absolute value to be another multiple of 2^64
  have hbounds := exact_bounds h
  have hnat := toNat_ofInt s.exact
  rw [← UInt64.toNat_inj, hnat]
  show (s.exact % 18446744073709551616).toNat = 0 ↔ _
  omega

/-- Of a size that is not negative the default or the exact number is used. -/
theorem orDefault_of_nonneg (h : s.accepted = true) (hnonneg : 0 ≤ s.exact) (default : Nat) :
    orDefault default (UInt64.ofInt s.exact)
      = if s.exact = 0 then default else s.exact.toNat := by
  have hbounds := exact_bounds h
  rw [orDefault]
  by_cases hzero : s.exact = 0
  · rw [if_pos ((ofInt_eq_zero h).mpr hzero), if_pos hzero]
  · rw [if_neg fun h' => hzero ((ofInt_eq_zero h).mp h'), if_neg hzero, toNat_ofInt,
      Int.emod_eq_of_lt hnonneg (by omega)]

/-- A negative size is neither. -/
theorem orDefault_of_neg (h : s.accepted = true) (hneg : s.exact < 0) {default : Nat}
    (hdefault : default < 4611686018427387904) :
    orDefault default (UInt64.ofInt s.exact) ≠ default ∧
      (orDefault default (UInt64.ofInt s.exact) : Int) ≠ s.exact := by
  -- what comes out is at least 2^64 - 2^62
  have hbounds := exact_bounds h
  have hnat := toNat_ofInt s.exact
  rw [orDefault, if_neg fun h' => by have := (ofInt_eq_zero h).mp h'; omega]
  omega

end SizeSetting

/-! ## The whole function -/

section Settings

variable (realIntegral : String → Option Int) (config : Object)

def minChunkingSetting : SizeSetting :=
  sizeSetting realIntegral config "minChunkingMb" "minChunkingBytes"

def chunkSizeSetting : SizeSetting :=
  sizeSetting realIntegral config "chunkSizeMb" "chunkSizeBytes"

/-- Chunking is turned off. -/
def chunkingOff : Bool :=
  match config.member "chunking" with
  | .bool enabled => !enabled
  | _ => false

variable {realIntegral config}

theorem readSize_eq (h : config.isObjectOrNull = true) (nameMb nameBytes : String) :
    readSize realIntegral config nameMb nameBytes
      = (sizeSetting realIntegral config nameMb nameBytes).read := by
  rw [readSize, Object.get_of_isObjectOrNull h, Object.get_of_isObjectOrNull h]
  rfl

/-- `mChunkingConfig` before the call. -/
def defaults : ChunkingConfig := {}

/-- A configuration that has no members is refused. -/
theorem applyChunkingConfig_refused (h : config.isObjectOrNull = false) (c : ChunkingConfig) :
    applyChunkingConfig realIntegral config c = .error .jsonLogicError c := by
  have hget : config.get "chunking" = .error .jsonLogicError := by
    rw [Object.get_eq, h, if_neg Bool.false_ne_true]
  rw [applyChunkingConfig, hget]
  rfl

/-- Otherwise the sizes are computed one after the other, and each is assigned
    before the next is computed. -/
theorem applyChunkingConfig_eq (h : config.isObjectOrNull = true) (c : ChunkingConfig) :
    applyChunkingConfig realIntegral config c =
      match (minChunkingSetting realIntegral config).read with
      | .error e => .error e (setEnabled (config.member "chunking") c)
      | .ok minChunkingSize =>
        match (chunkSizeSetting realIntegral config).read with
        | .error e =>
          .error e (setMinChunkingSize minChunkingSize (setEnabled (config.member "chunking") c))
        | .ok chunkSize =>
          .ok () (setChunkSize chunkSize
            (setMinChunkingSize minChunkingSize (setEnabled (config.member "chunking") c))) := by
  rw [applyChunkingConfig, Object.get_of_isObjectOrNull h, readSize_eq h, readSize_eq h]
  show (do
      let minChunkingSize ← resultOf (minChunkingSetting realIntegral config).read
      modify (setMinChunkingSize minChunkingSize)
      let chunkSize ← resultOf (chunkSizeSetting realIntegral config).read
      modify (setChunkSize chunkSize) : EStateM Exception ChunkingConfig Unit)
    (setEnabled (config.member "chunking") c) = _
  cases hmin : (minChunkingSetting realIntegral config).read with
  | error e => rfl
  | ok minChunkingSize =>
    cases hchunk : (chunkSizeSetting realIntegral config).read with
    | error e => rfl
    | ok chunkSize => rfl

/-! What each assignment changes, and what it leaves alone. -/

theorem setEnabled_eq (config : Object) :
    (setEnabled (config.member "chunking") defaults).enabled = !chunkingOff config ∧
      (setEnabled (config.member "chunking") defaults).minChunkingSize = defaults.minChunkingSize ∧
      (setEnabled (config.member "chunking") defaults).chunkSize = defaults.chunkSize := by
  unfold chunkingOff
  cases config.member "chunking" with
  | bool enabled => exact ⟨(Bool.not_not enabled).symm, rfl, rfl⟩
  | _ => exact ⟨rfl, rfl, rfl⟩

theorem setMinChunkingSize_eq (size : UInt64) (c : ChunkingConfig) :
    (setMinChunkingSize size c).enabled = c.enabled ∧
      (setMinChunkingSize size c).minChunkingSize
        = SizeSetting.orDefault c.minChunkingSize size ∧
      (setMinChunkingSize size c).chunkSize = c.chunkSize := by
  unfold setMinChunkingSize SizeSetting.orDefault
  by_cases h : size = 0
  · rw [if_pos h, if_pos h]
    exact ⟨rfl, rfl, rfl⟩
  · rw [if_neg h, if_neg h]
    exact ⟨rfl, rfl, rfl⟩

theorem setChunkSize_eq (size : UInt64) (c : ChunkingConfig) :
    (setChunkSize size c).enabled = c.enabled ∧
      (setChunkSize size c).minChunkingSize = c.minChunkingSize ∧
      (setChunkSize size c).chunkSize = SizeSetting.orDefault c.chunkSize size := by
  unfold setChunkSize SizeSetting.orDefault
  by_cases h : size = 0
  · rw [dif_pos h, if_pos h]
    exact ⟨rfl, rfl, rfl⟩
  · rw [dif_neg h, if_neg h]
    exact ⟨rfl, rfl, rfl⟩

end Settings

/-! ## Which settings are kept -/

section Kept

variable (realIntegral : String → Option Int) (config : Object)

/-- The size in use is the default or the exact number. -/
def DefaultOrExact (default : Nat) (s : SizeSetting) (size : Nat) : Prop :=
  size = default ∨ (size : Int) = s.exact

/-- What is asked of the function: every operation has a defined result, the sizes
    it leaves are the defaults or the exact numbers, and with the configuration it
    returns with no length of a chunk is cut off. -/
structure KeepsSettings : Prop where
  defined : ∀ c, applyChunkingConfig realIntegral config defaults ≠ .error .undefinedBehaviour c
  sizes : ∀ r c, applyChunkingConfig realIntegral config defaults = resultOf r c →
    DefaultOrExact defaults.minChunkingSize (minChunkingSetting realIntegral config)
        c.minChunkingSize ∧
      DefaultOrExact defaults.chunkSize (chunkSizeSetting realIntegral config)
        c.chunkSize
  lengths : ∀ c, applyChunkingConfig realIntegral config defaults = .ok () c → KeepsLengths c

/-- The condition on the settings.  The chunk size is looked at only if the first
    size could be computed. -/
structure SettingsFit : Prop where
  min : (minChunkingSetting realIntegral config).Fits
  chunk : (minChunkingSetting realIntegral config).accepted = true →
    (chunkSizeSetting realIntegral config).Fits
  length : (minChunkingSetting realIntegral config).accepted = true →
    (chunkSizeSetting realIntegral config).accepted = true → chunkingOff config = false →
    (chunkSizeSetting realIntegral config).exact < 4294967296

variable {realIntegral config}

/-- The property, read off the way the call ends. -/
theorem keepsSettings_iff_of_result {r : Except Exception Unit} {c : ChunkingConfig}
    (h : applyChunkingConfig realIntegral config defaults = resultOf r c) :
    KeepsSettings realIntegral config ↔ r ≠ .error .undefinedBehaviour ∧
      DefaultOrExact defaults.minChunkingSize
        (minChunkingSetting realIntegral config) c.minChunkingSize ∧
      DefaultOrExact defaults.chunkSize
        (chunkSizeSetting realIntegral config) c.chunkSize ∧
      (r = .ok () → KeepsLengths c) := by
  constructor
  · rintro ⟨hdefined, hsizes, hlengths⟩
    obtain ⟨hmin, hchunk⟩ := hsizes r c h
    refine ⟨?_, hmin, hchunk, ?_⟩
    · rintro rfl
      exact hdefined c h
    · rintro rfl
      exact hlengths c h
  · rintro ⟨hdefined, hmin, hchunk, hlengths⟩
    constructor
    · intro c' hc
      have hc' : applyChunkingConfig realIntegral config defaults
          = resultOf (.error .undefinedBehaviour) c' := hc
      exact hdefined (resultOf_inj (h.symm.trans hc')).1
    · intro r' c' hc
      obtain ⟨-, rfl⟩ := resultOf_inj (h.symm.trans hc)
      exact ⟨hmin, hchunk⟩
    · intro c' hc
      have hc' : applyChunkingConfig realIntegral config defaults = resultOf (.ok ()) c' := hc
      obtain ⟨hr, rfl⟩ := resultOf_inj (h.symm.trans hc')
      exact hlengths hr

namespace SizeSetting

variable {s : SizeSetting}

/-- A size that could be computed is the default or exact when it is not negative. -/
theorem defaultOrExact_iff (h : s.accepted = true) {default : Nat}
    (hdefault : default < 4611686018427387904) :
    DefaultOrExact default s (orDefault default (UInt64.ofInt s.exact)) ↔ 0 ≤ s.exact := by
  constructor
  · intro heffective
    by_contra hneg
    obtain ⟨hne, hne'⟩ := orDefault_of_neg h (Int.not_le.mp hneg) hdefault
    exact heffective.elim hne hne'
  · intro hnonneg
    rw [orDefault_of_nonneg h hnonneg]
    by_cases hzero : s.exact = 0
    · exact Or.inl (if_pos hzero)
    · refine Or.inr ?_
      rw [if_neg hzero, Int.toNat_of_nonneg hnonneg]

/-- The default chunk size fits into 32 bits. -/
theorem chunkSize_lt_iff (h : s.accepted = true) (hnonneg : 0 ≤ s.exact) :
    orDefault defaults.chunkSize (UInt64.ofInt s.exact) < 2 ^ 32 ↔ s.exact < 4294967296 := by
  have hdefault : defaults.chunkSize = 1073741824 := rfl
  rw [orDefault_of_nonneg h hnonneg, hdefault]
  by_cases hzero : s.exact = 0
  · rw [if_pos hzero]
    omega
  · rw [if_neg hzero]
    omega

/-- The three ways in which the computation of a size ends. -/
theorem read_cases (s : SizeSetting) :
    (s.read = .error .undefinedBehaviour ∧ s.noOverflow = false) ∨
    (s.read = .error .jsonLogicError ∧ s.noOverflow = true ∧ s.accepted = false) ∨
    (s.read = .ok (UInt64.ofInt s.exact) ∧ s.noOverflow = true ∧ s.accepted = true) := by
  rw [read_eq]
  cases hover : s.noOverflow with
  | false => exact Or.inl ⟨rfl, rfl⟩
  | true =>
    cases haccepted : s.accepted with
    | false => exact Or.inr (Or.inl ⟨rfl, rfl, rfl⟩)
    | true => exact Or.inr (Or.inr ⟨rfl, rfl, rfl⟩)

theorem fits_of_refused (hover : s.noOverflow = true) (haccepted : s.accepted = false) : s.Fits :=
  ⟨hover, fun h => absurd (haccepted.symm.trans h) Bool.false_ne_true⟩

theorem fits_iff_of_accepted (hover : s.noOverflow = true) (haccepted : s.accepted = true) :
    s.Fits ↔ 0 ≤ s.exact :=
  ⟨fun h => h.2 haccepted, fun h => ⟨hover, fun _ => h⟩⟩

end SizeSetting

/-- Both sizes could be computed and have been assigned. -/
theorem iff_of_both_read {c : ChunkingConfig}
    (hresult : applyChunkingConfig realIntegral config defaults = .ok () c)
    (henabled : c.enabled = !chunkingOff config)
    (hchunkSize : c.chunkSize = SizeSetting.orDefault defaults.chunkSize
      (UInt64.ofInt (chunkSizeSetting realIntegral config).exact))
    (hmin : DefaultOrExact defaults.minChunkingSize (minChunkingSetting realIntegral config)
      c.minChunkingSize ↔ (minChunkingSetting realIntegral config).Fits)
    (haccepted : (minChunkingSetting realIntegral config).accepted = true)
    (hover' : (chunkSizeSetting realIntegral config).noOverflow = true)
    (haccepted' : (chunkSizeSetting realIntegral config).accepted = true) :
    KeepsSettings realIntegral config ↔ SettingsFit realIntegral config := by
  have hchunk := (SizeSetting.defaultOrExact_iff haccepted'
    (by decide : defaults.chunkSize < 4611686018427387904)).trans
    (SizeSetting.fits_iff_of_accepted hover' haccepted').symm
  rw [← hchunkSize] at hchunk
  have hlength : (chunkSizeSetting realIntegral config).Fits →
      (c.chunkSize < 2 ^ 32 ↔ (chunkSizeSetting realIntegral config).exact < 4294967296) := by
    intro hfits
    rw [hchunkSize]
    exact SizeSetting.chunkSize_lt_iff haccepted' (hfits.2 haccepted')
  rw [keepsSettings_iff_of_result (r := .ok ()) hresult, hmin, hchunk, keepsLengths_iff, henabled]
  constructor
  · rintro ⟨-, hfits, hfits', hkeeps⟩
    refine ⟨hfits, fun _ => hfits', fun _ _ hon => ?_⟩
    refine (hlength hfits').mp ((hkeeps rfl).resolve_left ?_)
    rw [hon]
    exact Bool.noConfusion
  · intro hfit
    have hfits' := hfit.chunk haccepted
    refine ⟨?_, hfit.min, hfits', fun _ => ?_⟩
    · rintro hr
      cases hr
    · cases hoff : chunkingOff config with
      | true => exact Or.inl rfl
      | false => exact Or.inr ((hlength hfits').mpr (hfit.length haccepted haccepted' hoff))

section Ends

variable (h : config.isObjectOrNull = true)

include h

theorem iff_of_min_overflow
    (hread : (minChunkingSetting realIntegral config).read = .error .undefinedBehaviour)
    (hover : (minChunkingSetting realIntegral config).noOverflow = false) :
    KeepsSettings realIntegral config ↔ SettingsFit realIntegral config := by
  have heq : applyChunkingConfig realIntegral config defaults = _ :=
    applyChunkingConfig_eq h defaults
  rw [hread] at heq
  refine iff_of_false (fun hkeeps => hkeeps.defined _ heq) fun hfit => ?_
  exact absurd (hover.symm.trans hfit.min.1) Bool.false_ne_true

theorem iff_of_min_refused
    (hread : (minChunkingSetting realIntegral config).read = .error .jsonLogicError)
    (hover : (minChunkingSetting realIntegral config).noOverflow = true)
    (haccepted : (minChunkingSetting realIntegral config).accepted = false) :
    KeepsSettings realIntegral config ↔ SettingsFit realIntegral config := by
  have heq : applyChunkingConfig realIntegral config defaults = _ :=
    applyChunkingConfig_eq h defaults
  rw [hread] at heq
  have hresult : applyChunkingConfig realIntegral config defaults
      = resultOf (.error .jsonLogicError) (setEnabled (config.member "chunking") defaults) := heq
  obtain ⟨-, hmin, hchunk⟩ := setEnabled_eq config
  refine iff_of_true ((keepsSettings_iff_of_result hresult).mpr ?_) ?_
  · refine ⟨?_, Or.inl hmin, Or.inl hchunk, ?_⟩
    · rintro hr
      cases hr
    · rintro hr
      cases hr
  · have hnot : ¬ (minChunkingSetting realIntegral config).accepted = true := by
      rw [haccepted]
      exact Bool.false_ne_true
    exact ⟨SizeSetting.fits_of_refused hover haccepted, fun h => absurd h hnot,
      fun h => absurd h hnot⟩

/-- The first size has been assigned when the second is computed. -/
theorem iff_of_min_read
    (hread : (minChunkingSetting realIntegral config).read
      = .ok (UInt64.ofInt (minChunkingSetting realIntegral config).exact))
    (hover : (minChunkingSetting realIntegral config).noOverflow = true)
    (haccepted : (minChunkingSetting realIntegral config).accepted = true) :
    KeepsSettings realIntegral config ↔ SettingsFit realIntegral config := by
  have heq : applyChunkingConfig realIntegral config defaults = _ :=
    applyChunkingConfig_eq h defaults
  have hmin : DefaultOrExact defaults.minChunkingSize (minChunkingSetting realIntegral config)
      (SizeSetting.orDefault defaults.minChunkingSize
        (UInt64.ofInt (minChunkingSetting realIntegral config).exact))
      ↔ (minChunkingSetting realIntegral config).Fits :=
    (SizeSetting.defaultOrExact_iff haccepted (by decide)).trans
      (SizeSetting.fits_iff_of_accepted hover haccepted).symm
  rw [hread] at heq
  obtain ⟨henabled, henabledMin, henabledChunk⟩ := setEnabled_eq config
  obtain ⟨hassigned, hassignedMin, hassignedChunk⟩ := setMinChunkingSize_eq
    (UInt64.ofInt (minChunkingSetting realIntegral config).exact)
    (setEnabled (config.member "chunking") defaults)
  rw [henabled] at hassigned
  rw [henabledMin] at hassignedMin
  rw [henabledChunk] at hassignedChunk
  rw [← hassignedMin] at hmin
  rcases (chunkSizeSetting realIntegral config).read_cases with
    ⟨hread', hover'⟩ | ⟨hread', hover', haccepted'⟩ | ⟨hread', hover', haccepted'⟩
  · -- the second size overflows
    rw [hread'] at heq
    refine iff_of_false (fun hkeeps => hkeeps.defined _ heq) fun hfit => ?_
    exact absurd (hover'.symm.trans (hfit.chunk haccepted).1) Bool.false_ne_true
  · -- it is refused, and the default stays
    rw [hread'] at heq
    rw [keepsSettings_iff_of_result (r := .error .jsonLogicError) heq, hmin]
    constructor
    · rintro ⟨-, hfits, -⟩
      have hnot : ¬ (chunkSizeSetting realIntegral config).accepted = true := by
        rw [haccepted']
        exact Bool.false_ne_true
      exact ⟨hfits, fun _ => SizeSetting.fits_of_refused hover' haccepted',
        fun _ h => absurd h hnot⟩
    · intro hfit
      refine ⟨?_, hfit.min, Or.inl hassignedChunk, ?_⟩
      · rintro hr
        cases hr
      · rintro hr
        cases hr
  · -- it is assigned as well
    rw [hread'] at heq
    obtain ⟨hfinal, hfinalMin, hfinalChunk⟩ := setChunkSize_eq
      (UInt64.ofInt (chunkSizeSetting realIntegral config).exact)
      (setMinChunkingSize (UInt64.ofInt (minChunkingSetting realIntegral config).exact)
        (setEnabled (config.member "chunking") defaults))
    rw [hassigned] at hfinal
    rw [hassignedChunk] at hfinalChunk
    rw [← hfinalMin] at hmin
    exact iff_of_both_read heq hfinal hfinalChunk hmin haccepted hover' haccepted'

end Ends

/-- Without members there are no settings, and nothing is changed. -/
theorem iff_of_refused (h : config.isObjectOrNull = false) :
    KeepsSettings realIntegral config ↔ SettingsFit realIntegral config := by
  have hresult : applyChunkingConfig realIntegral config defaults
      = resultOf (.error .jsonLogicError) defaults := applyChunkingConfig_refused h defaults
  have hmember : ∀ key, config.member key = .null := by
    intro key
    cases config with
    | object members => cases h
    | _ => rfl
  have hsetting : ∀ nameMb nameBytes, sizeSetting realIntegral config nameMb nameBytes
      = ⟨none, none⟩ := by
    intro nameMb nameBytes
    rw [sizeSetting, hmember, hmember]
    rfl
  refine iff_of_true ((keepsSettings_iff_of_result hresult).mpr ?_) ?_
  · refine ⟨?_, Or.inl rfl, Or.inl rfl, ?_⟩
    · rintro hr
      cases hr
    · rintro hr
      cases hr
  · have hfits : SizeSetting.Fits ⟨none, none⟩ := ⟨rfl, fun _ => Int.le_refl 0⟩
    constructor
    · rw [minChunkingSetting, hsetting]
      exact hfits
    · intro _
      rw [chunkSizeSetting, hsetting]
      exact hfits
    · intro _ _ _
      rw [chunkSizeSetting, hsetting]
      decide

/-- The settings are kept exactly when they fit: the product of the megabytes and
    1024 is an `int`, no sum is negative, and the chunk size is below 2^32 unless
    chunking is off. -/
theorem applyChunkingConfig_iff (realIntegral : String → Option Int) (config : Object) :
    KeepsSettings realIntegral config ↔ SettingsFit realIntegral config := by
  cases hobject : config.isObjectOrNull with
  | false => exact iff_of_refused hobject
  | true =>
    rcases (minChunkingSetting realIntegral config).read_cases with
      ⟨hread, hover⟩ | ⟨hread, hover, haccepted⟩ | ⟨hread, hover, haccepted⟩
    · exact iff_of_min_overflow hobject hread hover
    · exact iff_of_min_refused hobject hread hover haccepted
    · exact iff_of_min_read hobject hread hover haccepted

/-- With chunks of 4096 MB the length of a full one is sent as zero. -/
theorem not_forall_keepsSettings :
    ¬ ∀ realIntegral config, KeepsSettings realIntegral config := by
  intro hkeeps
  let realIntegral : String → Option Int := fun _ => none
  let config : Object := .object [("chunkSizeMb", .int 4096)]
  have hiff : KeepsSettings realIntegral config ↔ SettingsFit realIntegral config :=
    iff_of_min_read rfl rfl rfl rfl
  have hfit := hiff.mp (hkeeps realIntegral config)
  exact absurd (hfit.length rfl rfl rfl) (by decide)

end Kept

end Arras4Core.Computation
