import Mathlib.Data.List.Forall2

/-!
Steps that may fail.

What ends well is told by what its steps give: steps in a row end well if each does
(`bind_eq_ok_iff`), and so does one step for every member of a list (`mapM_eq_ok_iff`). An error
that none of the steps ends with is not what they end with together (`bind_ne_error`,
`mapM_ne_error`).
-/

namespace ShardFleet

variable {ε α β : Type}

theorem bind_eq_ok_iff {first : Except ε α} {next : α → Except ε β} {result : β} :
    first >>= next = .ok result ↔ ∃ value, first = .ok value ∧ next value = .ok result := by
  cases first with
  | error error =>
      refine ⟨fun absurd => (nomatch absurd), ?_⟩
      rintro ⟨value, absurd, -⟩
      cases absurd
  | ok value =>
      refine ⟨fun ends => ⟨value, rfl, ends⟩, ?_⟩
      rintro ⟨_, same, ends⟩
      cases same
      exact ends

theorem bind_pure_eq_ok_iff {first : Except ε α} {f : α → β} {result : β} :
    (do return f (← first)) = .ok result ↔ ∃ value, first = .ok value ∧ result = f value := by
  rw [bind_eq_ok_iff]
  refine exists_congr fun value => and_congr_right fun _ => ?_
  exact ⟨fun same => (Except.ok.inj same).symm, fun same => congrArg Except.ok same.symm⟩

/-- What is known of the value of an attempt, if there is one, tells that the attempt ends well. -/
theorem exists_eq_ok {attempt : Except ε α} {f : α → β} {known : β}
    (value : attempt.toOption.map f = some known) :
    ∃ result, attempt = .ok result ∧ f result = known := by
  cases attempt with
  | error error => cases value
  | ok result => exact ⟨result, rfl, Option.some.inj value⟩

theorem mapM_eq_ok_iff {f : α → Except ε β} {inputs : List α} {outputs : List β} :
    inputs.mapM f = .ok outputs ↔ List.Forall₂ (fun a b => f a = .ok b) inputs outputs := by
  induction inputs generalizing outputs with
  | nil =>
      rw [List.mapM_nil, List.forall₂_nil_left_iff]
      exact ⟨fun ended => (Except.ok.inj ended).symm, fun none => congrArg Except.ok none.symm⟩
  | cons a rest ih =>
      rw [List.mapM_cons, List.forall₂_cons_left_iff, bind_eq_ok_iff]
      refine exists_congr fun b => ?_
      rw [bind_eq_ok_iff]
      simp only [ih]
      constructor
      · rintro ⟨first, others, later, ended⟩
        exact ⟨others, first, later, (Except.ok.inj ended).symm⟩
      · rintro ⟨others, first, later, rfl⟩
        exact ⟨first, others, later, rfl⟩

/-- What none of the steps ends with, steps in a row do not end with. -/
theorem bind_ne_error {first : Except ε α} {next : α → Except ε β} {error : ε}
    (here : first ≠ .error error) (onward : ∀ value, next value ≠ .error error) :
    first >>= next ≠ .error error := by
  cases first with
  | error other => exact fun off => here (congrArg _ (Except.error.inj off))
  | ok value => exact onward value

theorem mapM_ne_error {f : α → Except ε β} {error : ε} (each : ∀ a, f a ≠ .error error)
    (inputs : List α) : inputs.mapM f ≠ .error error := by
  induction inputs with
  | nil => exact nofun
  | cons a rest ih =>
      rw [List.mapM_cons]
      exact bind_ne_error (each a) fun b => bind_ne_error ih fun others => nofun

/-- Where every step ends well there is an outcome for each member. -/
theorem exists_mapM_eq_ok {f : α → Except ε β} {inputs : List α}
    (each : ∀ a ∈ inputs, ∃ b, f a = .ok b) : ∃ outputs, inputs.mapM f = .ok outputs := by
  induction inputs with
  | nil => exact ⟨[], rfl⟩
  | cons a rest ih =>
      obtain ⟨⟨b, first⟩, later⟩ := List.forall_mem_cons.mp each
      obtain ⟨others, ended⟩ := ih later
      refine ⟨b :: others, mapM_eq_ok_iff.mpr ?_⟩
      exact .cons first (mapM_eq_ok_iff.mp ended)

theorem mapM_eq_some_map {f : α → Option β} {g : α → β} {inputs : List α}
    (each : ∀ a ∈ inputs, f a = some (g a)) : inputs.mapM f = some (inputs.map g) := by
  induction inputs with
  | nil => rfl
  | cons a rest ih =>
      obtain ⟨first, later⟩ := List.forall_mem_cons.mp each
      rw [List.mapM_cons, first, ih later]
      rfl

end ShardFleet
