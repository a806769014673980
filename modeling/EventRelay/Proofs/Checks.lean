/-!
# Checks made one after the other

A check that is made first decides whether the next one is made at all: a sequence of checks
succeeds if each of them does, and fails with the first that fails. Where no check depends on what
another one has found, the faults of all of them can be listed, of which the first is reported.
-/

namespace EventRelay

/-- A sequence of checks succeeds exactly if each of them does. -/
theorem bind_eq_ok_iff {ε α β : Type} {x : Except ε α} {f : α → Except ε β} {b : β} :
    x >>= f = .ok b ↔ ∃ a, x = .ok a ∧ f a = .ok b := by
  cases x with
  | error e =>
    constructor
    · rintro ⟨⟩
    · rintro ⟨_, ⟨⟩, _⟩
  | ok a =>
    constructor
    · intro made
      exact ⟨a, rfl, made⟩
    · rintro ⟨_, ⟨⟩, made⟩
      exact made

/-- A result that is changed is there exactly if it was there before. -/
theorem map_eq_ok_iff {ε α β : Type} {x : Except ε α} {f : α → β} {b : β} :
    x.map f = .ok b ↔ ∃ a, x = .ok a ∧ f a = b := by
  cases x with
  | error e =>
    constructor
    · rintro ⟨⟩
    · rintro ⟨_, ⟨⟩, _⟩
  | ok a =>
    constructor
    · rintro ⟨⟩
      exact ⟨a, rfl, rfl⟩
    · rintro ⟨_, ⟨⟩, rfl⟩
      rfl

/-- What does not succeed fails. -/
theorem exists_error_of_ne_ok {ε α : Type} {x : Except ε α} (fails : ∀ a, x ≠ .ok a) :
    ∃ e, x = .error e := by
  cases x with
  | error e => exact ⟨e, rfl⟩
  | ok a => exact absurd rfl (fails a)

/-- A sequence of checks fails where the first of them fails, or else where the others do. -/
theorem bind_eq_error_iff {ε α β : Type} {x : Except ε α} {f : α → Except ε β} {e : ε} :
    x >>= f = .error e ↔ x = .error e ∨ ∃ a, x = .ok a ∧ f a = .error e := by
  cases x with
  | error first =>
    constructor
    · rintro ⟨⟩
      exact .inl rfl
    · rintro (⟨⟨⟩⟩ | ⟨_, ⟨⟩, _⟩)
      rfl
  | ok a =>
    constructor
    · intro fails
      exact .inr ⟨a, rfl, fails⟩
    · rintro (⟨⟨⟩⟩ | ⟨_, ⟨⟩, fails⟩)
      exact fails

/-- A check reports the first of some faults, and succeeds if there is none. -/
def Reports {ε α : Type} (x : Except ε α) (faults : List ε) : Prop :=
  ∀ e, x = .error e ↔ faults.head? = some e

/-- The fault of a check, if it has one. -/
def faultOf {ε α : Type} : Except ε α → List ε
  | .error e => [e]
  | .ok _ => []

theorem reports_faultOf {ε α : Type} (x : Except ε α) : Reports x (faultOf x) := by
  intro e
  cases x <;> simp [faultOf]

namespace Reports

variable {ε α β : Type} {x : Except ε α} {faults more : List ε}

theorem ok (a : α) : Reports (.ok a : Except ε α) [] := fun e => by simp

/-- A check succeeds exactly if there is no fault. -/
theorem exists_ok_iff (h : Reports x faults) : (∃ a, x = .ok a) ↔ faults = [] := by
  constructor
  · rintro ⟨a, rfl⟩
    cases faults with
    | nil => rfl
    | cons e rest =>
      have failed := (h e).mpr rfl
      cases failed
  · rintro rfl
    cases x with
    | error e =>
      have first := (h e).mp rfl
      cases first
    | ok a => exact ⟨a, rfl⟩

/-- The faults of a later check come after those of an earlier one. -/
theorem bind {f : α → Except ε β} (first : Reports x faults)
    (next : ∀ a, x = .ok a → Reports (f a) more) : Reports (x >>= f) (faults ++ more) := by
  intro e
  rw [bind_eq_error_iff, List.head?_append, Option.or_eq_some_iff, ← first e,
    List.head?_eq_none_iff, ← first.exists_ok_iff]
  refine or_congr_right ?_
  constructor
  · rintro ⟨a, made, fails⟩
    exact ⟨⟨a, made⟩, (next a made e).mp fails⟩
  · rintro ⟨⟨a, made⟩, fails⟩
    exact ⟨a, made, (next a made e).mpr fails⟩

/-- What is made of a result adds no fault. -/
theorem last {f : α → β} (h : Reports x faults) : Reports (x >>= fun a => pure (f a)) faults := by
  have whole := h.bind fun a _ => ok (f a)
  rwa [List.append_nil] at whole

theorem map {f : α → β} (h : Reports x faults) : Reports (x.map f) faults := by
  cases x <;> exact h.last (f := f)

/-- The items of a list are checked in their order. -/
theorem mapM {f : α → Except ε β} {g : α → List ε} (each : ∀ a, Reports (f a) (g a)) (as : List α) :
    Reports (as.mapM f) (as.flatMap g) := by
  induction as with
  | nil => exact ok []
  | cons a as ih =>
    rw [List.mapM_cons, List.flatMap_cons]
    exact (each a).bind fun _ _ => ih.last

end Reports

end EventRelay
