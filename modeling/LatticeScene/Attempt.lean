/-!
# Attempts

Building a batch or staging a frame is a sequence of steps on one value, any of which may be
refused.  A refusal stops the sequence but takes nothing back: what the earlier steps changed
stays changed.  An `Attempt` is the outcome of such a sequence, the value it reached together
with the error that stopped it.

`Attempt.andThen` continues an attempt that has not been stopped, and `Attempt.each` runs one
step per entry of a list.
-/

namespace LatticeScene

/-- The value a sequence of steps has reached, and the error that stopped it, if one did. -/
structure Attempt (ε σ : Type) where
  /-- The value as the last completed change left it. -/
  state : σ
  /-- The error that stopped the sequence. -/
  error? : Option ε

namespace Attempt

variable {ε ε' σ τ α : Type}

/-- A sequence that ran to its end. -/
def done (s : σ) : Attempt ε σ := ⟨s, none⟩

/-- A sequence stopped by `e`. -/
def stopped (e : ε) (s : σ) : Attempt ε σ := ⟨s, some e⟩

/-- Continue with `next`, unless an error has stopped the sequence already. -/
def andThen (a : Attempt ε σ) (next : σ → Attempt ε σ) : Attempt ε σ :=
  match a.error? with
  | none => next a.state
  | some _ => a

/-- Run `step` for every entry in turn, stopping at the first error. -/
def each (step : σ → α → Attempt ε σ) (s : σ) : List α → Attempt ε σ
  | [] => done s
  | x :: xs => (step s x).andThen fun t => each step t xs

/-- Carry an attempt on a part over to the whole that holds the part. -/
def within (put : σ → τ) (a : Attempt ε σ) : Attempt ε τ := ⟨put a.state, a.error?⟩

/-- Report the error of an attempt as an error of a wider kind. -/
def mapError (f : ε → ε') (a : Attempt ε σ) : Attempt ε' σ := ⟨a.state, a.error?.map f⟩

/-- Forget the value of a stopped attempt. -/
def toExcept (a : Attempt ε σ) : Except ε σ :=
  match a.error? with
  | none => .ok a.state
  | some e => .error e

/-- Make an attempt of a change that takes effect only when it succeeds. -/
def ofExcept (s : σ) : Except ε σ → Attempt ε σ
  | .ok t => done t
  | .error e => stopped e s

@[simp] theorem state_done (s : σ) : (done s : Attempt ε σ).state = s := rfl

@[simp] theorem error?_done (s : σ) : (done s : Attempt ε σ).error? = none := rfl

@[simp] theorem state_stopped (e : ε) (s : σ) : (stopped e s).state = s := rfl

@[simp] theorem error?_stopped (e : ε) (s : σ) : (stopped e s).error? = some e := rfl

/-- After an attempt that is done the next one starts from its state. -/
@[simp] theorem done_andThen (s : σ) (next : σ → Attempt ε σ) :
    (done s).andThen next = next s := rfl

/-- After an attempt that stopped nothing more is attempted. -/
@[simp] theorem stopped_andThen (e : ε) (s : σ) (next : σ → Attempt ε σ) :
    (stopped e s).andThen next = stopped e s := rfl

@[simp] theorem each_nil (step : σ → α → Attempt ε σ) (s : σ) : each step s [] = done s := rfl

@[simp] theorem each_cons (step : σ → α → Attempt ε σ) (s : σ) (x : α) (xs : List α) :
    each step s (x :: xs) = (step s x).andThen fun t => each step t xs := rfl

/-- A list of steps may be run in two parts. -/
theorem each_append (step : σ → α → Attempt ε σ) (s : σ) (xs ys : List α) :
    each step s (xs ++ ys) = (each step s xs).andThen fun t => each step t ys := by
  induction xs generalizing s with
  | nil => rfl
  | cons x xs ih =>
    simp only [List.cons_append, each_cons]
    unfold andThen
    cases h : (step s x).error? with
    | none => simp only [ih]; rfl
    | some e => simp [h]

end Attempt

/-!
## Sequences that succeed

A sequence of steps that runs to its end has run each step to its end.  The lemmas here take such a
sequence apart, whether it is put together with `Attempt.andThen` or with the operations of
`Except`.
-/

section Results

variable {ε ε' α β : Type}

/-- A computation in two parts gives a result when its first part does, and the second part gives
that result from it. -/
theorem bind_eq_ok_iff {result : Except ε α} {next : α → Except ε β} {b : β} :
    result >>= next = .ok b ↔ ∃ a, result = .ok a ∧ next a = .ok b := by
  cases result with
  | ok a =>
    constructor
    · exact fun h => ⟨a, rfl, h⟩
    · rintro ⟨a', ha, h⟩
      rwa [← Except.ok.inj ha] at h
  | error e =>
    constructor
    · intro h
      exact nomatch h
    · rintro ⟨a, ha, -⟩
      exact nomatch ha

/-- A mapped result is the image of a result. -/
theorem map_eq_ok_iff {result : Except ε α} {f : α → β} {b : β} :
    result.map f = .ok b ↔ ∃ a, result = .ok a ∧ f a = b := by
  cases result with
  | ok a =>
    constructor
    · exact fun h => ⟨a, rfl, Except.ok.inj h⟩
    · rintro ⟨a', ha, h⟩
      rw [← h, ← Except.ok.inj ha]
      rfl
  | error e =>
    constructor
    · intro h
      exact nomatch h
    · rintro ⟨a, ha, -⟩
      exact nomatch ha

/-- Renaming the errors of a computation leaves its results as they are. -/
theorem mapError_eq_ok_iff {result : Except ε α} {f : ε → ε'} {a : α} :
    result.mapError f = .ok a ↔ result = .ok a := by
  cases result with
  | ok a' =>
    constructor
    · exact fun h => congrArg Except.ok (Except.ok.inj h)
    · exact fun h => congrArg (Except.mapError f) h
  | error e =>
    constructor
    · intro h
      exact nomatch h
    · intro h
      exact nomatch h

/-- The last of several steps comes after the others. -/
theorem foldlM_append_singleton {σ : Type} (step : σ → α → Except ε σ) (s : σ) (xs : List α)
    (x : α) : (xs ++ [x]).foldlM step s = xs.foldlM step s >>= fun t => step t x := by
  simp only [List.foldlM_append, List.foldlM_cons, List.foldlM_nil, bind_pure]

end Results

namespace Attempt

variable {ε σ : Type}

/-- An attempt without an error has run to its end. -/
theorem eq_done {a : Attempt ε σ} (h : a.error? = none) : a = done a.state := by
  obtain ⟨s, e?⟩ := a
  rw [show e? = none from h]
  rfl

/-- Two attempts that are done are equal when their states are. -/
theorem done_inj {s t : σ} : (done s : Attempt ε σ) = done t ↔ s = t :=
  ⟨fun h => congrArg state h, fun h => congrArg done h⟩

/-- A continued attempt runs to its end in two parts. -/
theorem andThen_eq_done_iff {a : Attempt ε σ} {next : σ → Attempt ε σ} {t : σ} :
    a.andThen next = done t ↔ ∃ s, a = done s ∧ next s = done t := by
  constructor
  · intro h
    unfold andThen at h
    cases herror : a.error? with
    | none =>
      rw [herror] at h
      exact ⟨a.state, eq_done herror, h⟩
    | some e =>
      rw [herror] at h
      rw [show a = done t from h] at herror
      exact nomatch herror
  · rintro ⟨s, rfl, hnext⟩
    exact hnext

/-- An attempt counts as a result exactly when it is done. -/
theorem toExcept_eq_ok_iff {a : Attempt ε σ} {t : σ} : a.toExcept = .ok t ↔ a = done t := by
  constructor
  · intro h
    unfold toExcept at h
    cases herror : a.error? with
    | none =>
      rw [herror] at h
      rw [eq_done herror, Except.ok.inj h]
    | some e =>
      rw [herror] at h
      exact nomatch h
  · rintro rfl
    rfl

/-- A result counts as an attempt that is done, and an error does not. -/
theorem ofExcept_eq_done_iff {s t : σ} {result : Except ε σ} :
    ofExcept s result = done t ↔ result = .ok t := by
  cases result with
  | ok u =>
    constructor
    · exact fun h => congrArg Except.ok (congrArg state h)
    · exact fun h => congrArg done (Except.ok.inj h)
  | error e =>
    constructor
    · intro h
      exact nomatch congrArg error? h
    · intro h
      exact nomatch h

end Attempt

end LatticeScene
