/-
  Arras4Core.Lib.Stream

  Code that is given a stream, as the tree of its calls on the stream.  What it
  does may depend on the bytes read or the number of bytes written so far, and
  it may throw at any point.

  A tree has two readings: `run` makes the calls on a concrete sink or source,
  `eval` and `ReadsExactly` speak about the bytes alone.  `run_eval` and
  `run_of_readsExactly` connect the two on a sink that appends and on a source
  that delivers consecutive bytes.

  `InCode` is code that may catch what the stream throws; `run_endsAlike`
  replaces the source it runs on by another that answers alike.  `Reading` is
  the plainest source, a list of bytes, and `Ends` says what code makes of the
  first of them.
-/

import Arras4Core.Lib.Call

namespace Arras4Core.Lib

/-- Code that writes to a stream, may ask how much has been written, and
    returns or throws. -/
inductive OutProgram (ε α : Type) where
  | ret (a : α)
  | throw (e : ε)
  | write (data : List UInt8) (next : OutProgram ε α)
  | bytesWritten (next : Nat → OutProgram ε α)

namespace OutProgram

variable {ε α β σ : Type}

def bind : OutProgram ε α → (α → OutProgram ε β) → OutProgram ε β
  | ret a, f => f a
  | throw e, _ => throw e
  | write data next, f => write data (next.bind f)
  | bytesWritten next, f => bytesWritten fun n => (next n).bind f

instance : Monad (OutProgram ε) where
  pure := ret
  bind := bind

/-- Write some blocks one after the other. -/
def writeAll : List (List UInt8) → OutProgram ε Unit
  | [] => ret ()
  | data :: rest => write data (writeAll rest)

/-- The bytes written and the way the code ends, when `n` bytes have been
    written before. -/
def eval : OutProgram ε α → Nat → List UInt8 × Except ε α
  | ret a, _ => ([], .ok a)
  | throw e, _ => ([], .error e)
  | write data next, n => (data ++ (next.eval (n + data.length)).1, (next.eval (n + data.length)).2)
  | bytesWritten next, n => (next n).eval n

/-- Make the calls on a sink with the given operations. -/
def run (writeSink : List UInt8 → σ → σ) (count : σ → Nat) : OutProgram ε α → EStateM ε σ α
  | ret a => fun s => .ok a s
  | throw e => fun s => .error e s
  | write data next => fun s => run writeSink count next (writeSink data s)
  | bytesWritten next => fun s => run writeSink count (next (count s)) s

theorem eval_writeAll (blocks : List (List UInt8)) (n : Nat) :
    (writeAll blocks : OutProgram ε Unit).eval n = (blocks.flatten, .ok ()) := by
  induction blocks generalizing n with
  | nil => rfl
  | cons data rest ih => simp only [writeAll, eval, ih, List.flatten_cons]

/-- Code that returns is followed by what comes after it. -/
theorem eval_bind {p : OutProgram ε α} {f : α → OutProgram ε β} {n : Nat} {data : List UInt8}
    {a : α} (h : p.eval n = (data, .ok a)) :
    (p >>= f).eval n
      = (data ++ ((f a).eval (n + data.length)).1, ((f a).eval (n + data.length)).2) := by
  induction p generalizing n data with
  | ret b =>
    cases h
    rfl
  | throw e => cases h
  | write block next ih =>
    obtain ⟨hdata, hend⟩ := Prod.mk.inj h
    subst hdata
    -- what comes after the block is evaluated with the block counted
    have hnext := ih (n := n + block.length) (Prod.ext rfl hend)
    rw [List.length_append, ← Nat.add_assoc, List.append_assoc]
    show (block ++ ((next >>= f).eval (n + block.length)).1,
      ((next >>= f).eval (n + block.length)).2) = _
    rw [hnext]
  | bytesWritten next ih => exact ih _ h

/-- On a sink whose writes append to `contents` while `I` holds, the calls
    append what `eval` says and end as it says. -/
theorem run_eval (writeSink : List UInt8 → σ → σ) (count : σ → Nat) (I : σ → Prop)
    (contents : σ → List UInt8)
    (hwrite : ∀ data s, I s → I (writeSink data s) ∧
      contents (writeSink data s) = contents s ++ data ∧
      count (writeSink data s) = count s + data.length)
    (p : OutProgram ε α) {s : σ} (hs : I s) :
    ∃ s', I s' ∧ contents s' = contents s ++ (p.eval (count s)).1 ∧
      run writeSink count p s = resultOf (p.eval (count s)).2 s' := by
  induction p generalizing s with
  | ret a => exact ⟨s, hs, by simp [eval], rfl⟩
  | throw e => exact ⟨s, hs, by simp [eval], rfl⟩
  | write data next ih =>
    obtain ⟨hI, hcontents, hcount⟩ := hwrite data s hs
    obtain ⟨s', hI', hcontents', hrun⟩ := ih hI
    rw [hcount] at hcontents' hrun
    refine ⟨s', hI', ?_, hrun⟩
    rw [hcontents', hcontents, eval, List.append_assoc]
  | bytesWritten next ih => exact ih (count s) hs

end OutProgram

/-! ## Reading -/

/-- Code that reads from a stream, may skip and ask how much has been read, and
    returns or throws. -/
inductive InProgram (ε α : Type) where
  | ret (a : α)
  | throw (e : ε)
  | read (length : Nat) (next : List UInt8 → InProgram ε α)
  | skip (length : Nat) (next : InProgram ε α)
  | bytesRead (next : Nat → InProgram ε α)

namespace InProgram

variable {ε α β σ : Type}

def bind : InProgram ε α → (α → InProgram ε β) → InProgram ε β
  | ret a, f => f a
  | throw e, _ => throw e
  | read length next, f => read length fun data => (next data).bind f
  | skip length next, f => skip length (next.bind f)
  | bytesRead next, f => bytesRead fun n => (next n).bind f

instance : Monad (InProgram ε) where
  pure := ret
  bind := bind

theorem bind_assoc {γ : Type} (p : InProgram ε α) (f : α → InProgram ε β)
    (g : β → InProgram ε γ) : p >>= f >>= g = p >>= fun a => f a >>= g := by
  show (p.bind f).bind g = p.bind fun a => (f a).bind g
  induction p with
  | ret a => rfl
  | throw e => rfl
  | read length next ih => exact congrArg (InProgram.read length) (funext ih)
  | skip length next ih => exact congrArg (InProgram.skip length) ih
  | bytesRead next ih => exact congrArg InProgram.bytesRead (funext ih)

/-- One block of the given length. -/
def readBlock (length : Nat) : InProgram ε (List UInt8) := read length ret

/-- Make the calls on a source with the given operations. -/
def run (readSource : Nat → EStateM ε σ (List UInt8)) (skipSource : Nat → EStateM ε σ Unit)
    (count : σ → Nat) : InProgram ε α → EStateM ε σ α
  | ret a => fun s => .ok a s
  | throw e => fun s => .error e s
  | read length next =>
    readSource length >>= fun data => run readSource skipSource count (next data)
  | skip length next =>
    skipSource length >>= fun _ => run readSource skipSource count next
  | bytesRead next => fun s => run readSource skipSource count (next (count s)) s

/-- The code consumes exactly `data`, by reads alone, and returns `r`; `n` bytes
    have been read before. -/
def ReadsExactly : InProgram ε α → Nat → List UInt8 → α → Prop
  | ret a, _, data, r => data = [] ∧ a = r
  | throw _, _, _, _ => False
  | read length next, n, data, r =>
    length ≤ data.length ∧ (next (data.take length)).ReadsExactly (n + length) (data.drop length) r
  | skip _ _, _, _, _ => False
  | bytesRead next, n, data, r => (next n).ReadsExactly n data r

/-- On a source that delivers the bytes of `contents` one after the other while
    `I` holds, code that reads exactly the contents returns its result. -/
theorem run_of_readsExactly {readSource : Nat → EStateM ε σ (List UInt8)}
    {skipSource : Nat → EStateM ε σ Unit} {count : σ → Nat} {I : σ → Prop}
    {contents : σ → List UInt8}
    (hread : ∀ length s, I s → length ≤ (contents s).length →
      ∃ s', readSource length s = .ok ((contents s).take length) s' ∧ I s' ∧
        contents s' = (contents s).drop length ∧ count s' = count s + length)
    (p : InProgram ε α) {s : σ} {r : α} (hs : I s)
    (h : p.ReadsExactly (count s) (contents s) r) :
    ∃ s', run readSource skipSource count p s = .ok r s' := by
  induction p generalizing s with
  | ret a =>
    obtain ⟨-, rfl⟩ := h
    exact ⟨s, rfl⟩
  | throw e => exact h.elim
  | read length next ih =>
    obtain ⟨hlen, hnext⟩ := h
    -- the source is where the rest of the code expects it
    obtain ⟨s₁, hread₁, hI₁, hcontents₁, hcount₁⟩ := hread length s hs hlen
    rw [← hcount₁, ← hcontents₁] at hnext
    obtain ⟨s₂, hrun⟩ := ih _ hI₁ hnext
    exact ⟨s₂, by rw [run, bind_of_ok hread₁]; exact hrun⟩
  | skip length next ih => exact h.elim
  | bytesRead next ih => exact ih _ hs h

end InProgram

/-! ## Reading and catching -/

/-- Code that reads from a stream and goes on however a call ended: what a call
    throws may be caught.  A skip returns the number of bytes skipped. -/
inductive InCode (ε α : Type) where
  | ret (a : α)
  | throw (e : ε)
  | read (length : Nat) (next : Except ε (List UInt8) → InCode ε α)
  | skip (length : Nat) (next : Except ε Nat → InCode ε α)
  | bytesRead (next : Nat → InCode ε α)

namespace InCode

variable {ε α σ τ : Type}

/-- Make the calls on a source with the given operations. -/
def run (readSource : Nat → EStateM ε σ (List UInt8)) (skipSource : Nat → EStateM ε σ Nat)
    (count : σ → Nat) : InCode ε α → EStateM ε σ α
  | ret a => fun s => .ok a s
  | throw e => fun s => .error e s
  | read length next =>
    attempt (readSource length) >>= fun r => run readSource skipSource count (next r)
  | skip length next =>
    attempt (skipSource length) >>= fun r => run readSource skipSource count (next r)
  | bytesRead next => fun s => run readSource skipSource count (next (count s)) s

/-- On two sources whose calls end alike the code ends alike, whatever it makes
    of their answers. -/
theorem run_endsAlike {R : σ → τ → Prop} {readSource : Nat → EStateM ε σ (List UInt8)}
    {skipSource : Nat → EStateM ε σ Nat} {count : σ → Nat}
    {readSource' : Nat → EStateM ε τ (List UInt8)} {skipSource' : Nat → EStateM ε τ Nat}
    {count' : τ → Nat}
    (hread : ∀ length s t, R s t → EndsAlike R (readSource length s) (readSource' length t))
    (hskip : ∀ length s t, R s t → EndsAlike R (skipSource length s) (skipSource' length t))
    (hcount : ∀ s t, R s t → count s = count' t)
    (p : InCode ε α) {s : σ} {t : τ} (h : R s t) :
    EndsAlike R (run readSource skipSource count p s) (run readSource' skipSource' count' p t) := by
  induction p generalizing s t with
  | ret a => exact .ok h
  | throw e => exact .error h
  | read length next ih => exact (hread length s t h).attempt.bind fun r _ _ h' => ih r h'
  | skip length next ih => exact (hskip length s t h).attempt.bind fun r _ _ h' => ih r h'
  | bytesRead next ih =>
    simp only [run]
    rw [hcount s t h]
    exact ih _ h

end InCode

namespace InProgram

variable {ε α β σ : Type}

/-- Code that lets everything through that the stream throws. -/
def toCode : InProgram ε α → InCode ε α
  | ret a => .ret a
  | throw e => .throw e
  | read length next => .read length fun
    | .ok data => (next data).toCode
    | .error e => .throw e
  | skip length next => .skip length fun
    | .ok _ => next.toCode
    | .error e => .throw e
  | bytesRead next => .bytesRead fun n => (next n).toCode

/-- The code goes through exactly `data`, reading it or skipping it, and then
    ends as `r` says; `n` bytes have been read before. -/
def Ends : InProgram ε α → Nat → List UInt8 → Except ε α → Prop
  | ret a, _, data, r => data = [] ∧ r = .ok a
  | throw e, _, data, r => data = [] ∧ r = .error e
  | read length next, n, data, r =>
    length ≤ data.length ∧ (next (data.take length)).Ends (n + length) (data.drop length) r
  | skip length next, n, data, r =>
    length ≤ data.length ∧ next.Ends (n + length) (data.drop length) r
  | bytesRead next, n, data, r => (next n).Ends n data r

/-! ### How code ends, call by call -/

theorem ends_pure (a : α) (n : Nat) : (pure a : InProgram ε α).Ends n [] (.ok a) := ⟨rfl, rfl⟩

theorem ends_throw (e : ε) (n : Nat) : (throw e : InProgram ε α).Ends n [] (.error e) := ⟨rfl, rfl⟩

theorem ends_bytesRead (n : Nat) : (bytesRead ret : InProgram ε Nat).Ends n [] (.ok n) := ⟨rfl, rfl⟩

theorem ends_readBlock {length : Nat} {data : List UInt8} (h : data.length = length) (n : Nat) :
    (readBlock length : InProgram ε _).Ends n data (.ok data) := by
  subst h
  exact ⟨Nat.le_refl _, List.drop_length, by rw [List.take_length]⟩

/-- One block that decodes to `a`. -/
theorem ends_decode {length : Nat} {data : List UInt8} {decode : List UInt8 → α} {a : α}
    (hlen : data.length = length) (hdecode : decode data = a) (n : Nat) :
    (readBlock length >>= fun data => pure (decode data) : InProgram ε α).Ends n data (.ok a) := by
  subst hlen
  refine ⟨Nat.le_refl _, List.drop_length, ?_⟩
  rw [List.take_length, hdecode]

theorem ends_skip {length : Nat} {data : List UInt8} (h : data.length = length) (n : Nat) :
    (skip length (ret ()) : InProgram ε Unit).Ends n data (.ok ()) := by
  subst h
  exact ⟨Nat.le_refl _, List.drop_length, rfl⟩

/-- Code that goes through `data` and then through `data'`. -/
theorem Ends.bind {p : InProgram ε α} {f : α → InProgram ε β} {n : Nat}
    {data data' : List UInt8} {a : α} {r : Except ε β} (h : p.Ends n data (.ok a))
    (hnext : (f a).Ends (n + data.length) data' r) : (p >>= f).Ends n (data ++ data') r := by
  induction p generalizing n data with
  | ret b =>
    obtain ⟨rfl, hab⟩ := h
    cases hab
    exact hnext
  | throw e => cases h.2
  | read length next ih =>
    obtain ⟨hlen, h⟩ := h
    refine ⟨by rw [List.length_append]; omega, ?_⟩
    rw [List.take_append_of_le_length hlen, List.drop_append_of_le_length hlen]
    refine ih _ h ?_
    rw [List.length_drop, show n + length + (data.length - length) = n + data.length by omega]
    exact hnext
  | skip length next ih =>
    obtain ⟨hlen, h⟩ := h
    refine ⟨by rw [List.length_append]; omega, ?_⟩
    rw [List.drop_append_of_le_length hlen]
    refine ih h ?_
    rw [List.length_drop, show n + length + (data.length - length) = n + data.length by omega]
    exact hnext
  | bytesRead next ih => exact ih _ h hnext

/-- Code that looks at the stream and takes nothing from it. -/
theorem Ends.bind_nil {p : InProgram ε α} {f : α → InProgram ε β} {n : Nat} {data : List UInt8}
    {a : α} {r : Except ε β} (h : p.Ends n [] (.ok a)) (hnext : (f a).Ends n data r) :
    (p >>= f).Ends n data r := h.bind hnext

/-- What code throws ends the code around it. -/
theorem Ends.bind_error {p : InProgram ε α} {f : α → InProgram ε β} {n : Nat}
    {data : List UInt8} {e : ε} (h : p.Ends n data (.error e)) :
    (p >>= f).Ends n data (.error e) := by
  induction p generalizing n data with
  | ret b => cases h.2
  | throw e' =>
    obtain ⟨rfl, he⟩ := h
    cases he
    exact ⟨rfl, rfl⟩
  | read length next ih => exact ⟨h.1, ih _ h.2⟩
  | skip length next ih => exact ⟨h.1, ih h.2⟩
  | bytesRead next ih => exact ih _ h

end InProgram

/-! ## A source of plain bytes -/

/-- A message being read: the number of bytes read so far, and the bytes left. -/
structure Reading where
  consumed : Nat
  remaining : List UInt8

namespace Reading

variable {ε α β : Type}

def advance (r : Reading) (length : Nat) : Reading :=
  ⟨r.consumed + min length r.remaining.length, r.remaining.drop length⟩

/-- A read that is refused when it asks for more than there is. -/
def read (beyond : ε) (length : Nat) : EStateM ε Reading (List UInt8) := fun r =>
  if length > r.remaining.length then .error beyond r
  else .ok (r.remaining.take length) (r.advance length)

/-- A skip that is refused when it asks for more than there is. -/
def skip (beyond : ε) (length : Nat) : EStateM ε Reading Nat := fun r =>
  if length > r.remaining.length then .error beyond r
  else .ok length (r.advance length)

/-- Code that goes through the first bytes ends in the same way with more bytes
    after them, and leaves these. -/
theorem run_of_ends {beyondRead beyondSkip : ε} {p : InProgram ε α} {n : Nat}
    {data : List UInt8} {r : Except ε α} (h : p.Ends n data r) (rest : List UInt8) :
    p.toCode.run (read beyondRead) (skip beyondSkip) consumed ⟨n, data ++ rest⟩
      = resultOf r ⟨n + data.length, rest⟩ := by
  induction p generalizing n data with
  | ret a =>
    obtain ⟨rfl, rfl⟩ := h
    rfl
  | throw e =>
    obtain ⟨rfl, rfl⟩ := h
    rfl
  | read length next ih =>
    obtain ⟨hlen, h⟩ := h
    have hle : length ≤ (data ++ rest).length := by rw [List.length_append]; omega
    have hread : read beyondRead length ⟨n, data ++ rest⟩
        = .ok (data.take length) ⟨n + length, data.drop length ++ rest⟩ := by
      simp only [read, advance, if_neg (Nat.not_lt.mpr hle), Nat.min_eq_left hle,
        List.take_append_of_le_length hlen, List.drop_append_of_le_length hlen]
    rw [InProgram.toCode, InCode.run, bind_of_ok (attempt_of_ok hread), ih _ h, List.length_drop,
      show n + length + (data.length - length) = n + data.length by omega]
  | skip length next ih =>
    obtain ⟨hlen, h⟩ := h
    have hle : length ≤ (data ++ rest).length := by rw [List.length_append]; omega
    have hskip : skip beyondSkip length ⟨n, data ++ rest⟩
        = .ok length ⟨n + length, data.drop length ++ rest⟩ := by
      simp only [skip, advance, if_neg (Nat.not_lt.mpr hle), Nat.min_eq_left hle,
        List.drop_append_of_le_length hlen]
    rw [InProgram.toCode, InCode.run, bind_of_ok (attempt_of_ok hskip), ih h, List.length_drop,
      show n + length + (data.length - length) = n + data.length by omega]
  | bytesRead next ih => exact ih _ h

end Reading

/-! ## Asking for more than there is

  One source refuses such a request, another answers it with what there is.
  Only code that asks for too much can tell them apart.
-/

namespace InCode

variable {ε α : Type}

/-- The code does not ask how much has been read. -/
def ReadsAndSkips : InCode ε α → Prop
  | ret _ => True
  | throw _ => True
  | read _ next => ∀ r, (next r).ReadsAndSkips
  | skip _ next => ∀ r, (next r).ReadsAndSkips
  | bytesRead _ => False

section Refused

variable (beyondRead beyondSkip : ε)

/-- How the code ends on a source that holds `data` and refuses to be asked for
    more than that. -/
def evalRefused : InCode ε α → List UInt8 → Except ε α
  | ret a, _ => .ok a
  | throw e, _ => .error e
  | read length next, data =>
    if length > data.length then (next (.error beyondRead)).evalRefused data
    else (next (.ok (data.take length))).evalRefused (data.drop length)
  | skip length next, data =>
    if length > data.length then (next (.error beyondSkip)).evalRefused data
    else (next (.ok length)).evalRefused (data.drop length)
  | bytesRead next, data => (next 0).evalRefused data

end Refused

/-- How the code ends on a source that holds `data` and clips what it is asked
    for to that. -/
def evalClipped : InCode ε α → List UInt8 → Except ε α
  | ret a, _ => .ok a
  | throw e, _ => .error e
  | read length next, data => (next (.ok (data.take length))).evalClipped (data.drop length)
  | skip length next, data => (next (.ok (min length data.length))).evalClipped (data.drop length)
  | bytesRead next, data => (next 0).evalClipped data

/-- The code comes to the same end on `data` on both sources: it asks for no more
    than there is or, the first time it does, what it goes on to do returns the
    same, or throws, whether it is refused or given what there is. -/
def Indifferent (beyondRead beyondSkip : ε) : InCode ε α → List UInt8 → Prop
  | ret _, _ => True
  | throw _, _ => True
  | read length next, data =>
    if length > data.length then
      ((next (.error beyondRead)).evalRefused beyondRead beyondSkip data).toOption
        = ((next (.ok data)).evalClipped []).toOption
    else (next (.ok (data.take length))).Indifferent beyondRead beyondSkip (data.drop length)
  | skip length next, data =>
    if length > data.length then
      ((next (.error beyondSkip)).evalRefused beyondRead beyondSkip data).toOption
        = ((next (.ok data.length)).evalClipped []).toOption
    else (next (.ok length)).Indifferent beyondRead beyondSkip (data.drop length)
  | bytesRead next, data => (next 0).Indifferent beyondRead beyondSkip data

theorem indifferent_iff (beyondRead beyondSkip : ε) (p : InCode ε α) (data : List UInt8) :
    p.Indifferent beyondRead beyondSkip data ↔
      (p.evalRefused beyondRead beyondSkip data).toOption = (p.evalClipped data).toOption := by
  induction p generalizing data with
  | ret a => exact ⟨fun _ => rfl, fun _ => trivial⟩
  | throw e => exact ⟨fun _ => rfl, fun _ => trivial⟩
  | read length next ih =>
    simp only [Indifferent, evalRefused, evalClipped]
    split
    · next h =>
      -- the two ways part here, and the clipped source has nothing left
      rw [List.take_of_length_le (Nat.le_of_lt h), List.drop_of_length_le (Nat.le_of_lt h)]
    · exact ih _ _
  | skip length next ih =>
    simp only [Indifferent, evalRefused, evalClipped]
    split
    · next h =>
      rw [Nat.min_eq_right (Nat.le_of_lt h), List.drop_of_length_le (Nat.le_of_lt h)]
    · next h =>
      rw [Nat.min_eq_left (Nat.not_lt.mp h)]
      exact ih _ _
  | bytesRead next ih => exact ih _ _

/-- `evalRefused` is what the code does to a message that is being read. -/
theorem run_evalRefused {beyondRead beyondSkip : ε} {p : InCode ε α} (hp : p.ReadsAndSkips)
    (r : Reading) :
    ∃ r', p.run (Reading.read beyondRead) (Reading.skip beyondSkip) Reading.consumed r
      = resultOf (p.evalRefused beyondRead beyondSkip r.remaining) r' := by
  induction p generalizing r with
  | ret a => exact ⟨r, rfl⟩
  | throw e => exact ⟨r, rfl⟩
  | read length next ih =>
    by_cases h : length > r.remaining.length
    · have hread : Reading.read beyondRead length r = .error beyondRead r := if_pos h
      rw [run, bind_of_ok (attempt_of_error hread), evalRefused, if_pos h]
      exact ih _ (hp _) r
    · have hread : Reading.read beyondRead length r
          = .ok (r.remaining.take length) (r.advance length) := if_neg h
      rw [run, bind_of_ok (attempt_of_ok hread), evalRefused, if_neg h]
      exact ih _ (hp _) (r.advance length)
  | skip length next ih =>
    by_cases h : length > r.remaining.length
    · have hskip : Reading.skip beyondSkip length r = .error beyondSkip r := if_pos h
      rw [run, bind_of_ok (attempt_of_error hskip), evalRefused, if_pos h]
      exact ih _ (hp _) r
    · have hskip : Reading.skip beyondSkip length r = .ok length (r.advance length) := if_neg h
      rw [run, bind_of_ok (attempt_of_ok hskip), evalRefused, if_neg h]
      exact ih _ (hp _) (r.advance length)
  | bytesRead next ih => exact hp.elim

/-- `evalClipped` is what the code does on a source that clips. -/
theorem run_evalClipped {σ : Type} {readSource : Nat → EStateM ε σ (List UInt8)}
    {skipSource : Nat → EStateM ε σ Nat} {count : σ → Nat} {contents : σ → List UInt8}
    (hread : ∀ length s, ∃ s', readSource length s = .ok ((contents s).take length) s' ∧
      contents s' = (contents s).drop length)
    (hskip : ∀ length s, ∃ s', skipSource length s = .ok (min length (contents s).length) s' ∧
      contents s' = (contents s).drop length)
    {p : InCode ε α} (hp : p.ReadsAndSkips) (s : σ) :
    ∃ s', p.run readSource skipSource count s = resultOf (p.evalClipped (contents s)) s' := by
  induction p generalizing s with
  | ret a => exact ⟨s, rfl⟩
  | throw e => exact ⟨s, rfl⟩
  | read length next ih =>
    obtain ⟨s₁, hcall, hcontents⟩ := hread length s
    rw [run, bind_of_ok (attempt_of_ok hcall), evalClipped, ← hcontents]
    exact ih _ (hp _) s₁
  | skip length next ih =>
    obtain ⟨s₁, hcall, hcontents⟩ := hskip length s
    rw [run, bind_of_ok (attempt_of_ok hcall), evalClipped, ← hcontents]
    exact ih _ (hp _) s₁
  | bytesRead next ih => exact hp.elim

end InCode

namespace InProgram

variable {ε α : Type}

/-- The code asks `data` for more than there is. -/
def AsksBeyond : InProgram ε α → List UInt8 → Prop
  | ret _, _ => False
  | throw _, _ => False
  | read length next, data =>
    length > data.length ∨ (next (data.take length)).AsksBeyond (data.drop length)
  | skip length next, data => length > data.length ∨ next.AsksBeyond (data.drop length)
  | bytesRead next, data => (next 0).AsksBeyond data

/-- Code that catches nothing comes to the same end unless it asks for more than
    there is and is content with what there is. -/
theorem indifferent_toCode_iff (beyondRead beyondSkip : ε) (p : InProgram ε α)
    (data : List UInt8) :
    p.toCode.Indifferent beyondRead beyondSkip data ↔
      (p.AsksBeyond data → ∃ e, p.toCode.evalClipped data = .error e) := by
  have hthrows : ∀ x : Except ε α, none = x.toOption ↔ ∃ e, x = .error e := by
    intro x
    cases x with
    | ok a =>
      constructor
      · intro h
        cases h
      · rintro ⟨e, h⟩
        cases h
    | error e => exact ⟨fun _ => ⟨e, rfl⟩, fun _ => rfl⟩
  induction p generalizing data with
  | ret a => exact ⟨fun _ h => h.elim, fun _ => trivial⟩
  | throw e => exact ⟨fun _ h => h.elim, fun _ => trivial⟩
  | read length next ih =>
    simp only [toCode, InCode.Indifferent, InCode.evalClipped, AsksBeyond]
    by_cases h : length > data.length
    · -- refused, the code throws what it is told
      rw [if_pos h, List.take_of_length_le (Nat.le_of_lt h),
        List.drop_of_length_le (Nat.le_of_lt h)]
      exact (hthrows _).trans ⟨fun he _ => he, fun he => he (.inl h)⟩
    · rw [if_neg h]
      refine (ih _ _).trans ?_
      exact ⟨fun hi ha => hi (ha.resolve_left h), fun hi ha => hi (.inr ha)⟩
  | skip length next ih =>
    simp only [toCode, InCode.Indifferent, InCode.evalClipped, AsksBeyond]
    by_cases h : length > data.length
    · rw [if_pos h, List.drop_of_length_le (Nat.le_of_lt h)]
      exact (hthrows _).trans ⟨fun he _ => he, fun he => he (.inl h)⟩
    · rw [if_neg h]
      refine (ih _).trans ?_
      exact ⟨fun hi ha => hi (ha.resolve_left h), fun hi ha => hi (.inr ha)⟩
  | bytesRead next ih => exact ih _ _

end InProgram

end Arras4Core.Lib
