import SecretFill.Log
/-!
Computations that may fail. A result of two steps in a row comes from results of both of them, and
the records of the first step stand before those of the second.
-/

namespace SecretFill

theorem bind_eq_ok {ε α β : Type} {first : Except ε α} {next : α → Except ε β} {result : β}
    (ended : first >>= next = .ok result) :
    ∃ value, first = .ok value ∧ next value = .ok result := by
  cases first with
  | error error => cases ended
  | ok value => exact ⟨value, rfl, ended⟩

theorem bind_ok {ε α β : Type} (value : α) (next : α → Except ε β) :
    Except.ok value >>= next = next value := rfl

theorem map_eq_ok {ε α β : Type} {change : α → β} {outcome : Except ε α} {result : β}
    (ended : outcome.map change = .ok result) :
    ∃ value, outcome = .ok value ∧ change value = result := by
  cases outcome with
  | error error => cases ended
  | ok value => exact ⟨value, rfl, Except.ok.inj ended⟩

theorem eq_ok_of_toOption {ε α : Type} {outcome : Except ε α} {value : α}
    (ended : outcome.toOption = some value) : outcome = .ok value := by
  cases outcome with
  | error error => cases ended
  | ok result => exact congrArg Except.ok (Option.some.inj ended)

@[simp]
theorem outcome_after {ε α : Type} (records : List Log.Record) (logged : Logged ε α) :
    (logged.after records).outcome = logged.outcome := rfl

@[simp]
theorem outcome_andThen {ε α β : Type} (first : Logged ε α) (next : α → Logged ε β) :
    (first.andThen next).outcome = first.outcome >>= fun value => (next value).outcome := by
  unfold Logged.andThen
  cases first.outcome <;> rfl

theorem andThen_eq_ok {ε α β : Type} {first : Logged ε α} {next : α → Logged ε β} {result : β}
    (ended : (first.andThen next).outcome = .ok result) :
    ∃ value, first.outcome = .ok value ∧ (next value).outcome = .ok result := by
  unfold Logged.andThen at ended
  split at ended
  · next value first => exact ⟨value, first, ended⟩
  · cases ended

theorem mapError_eq_ok {ε δ α : Type} {change : ε → δ} {logged : Logged ε α} {result : α}
    (ended : (logged.mapError change).outcome = .ok result) : logged.outcome = .ok result := by
  obtain ⟨log, outcome⟩ := logged
  cases outcome with
  | error error => cases ended
  | ok value =>
      cases ended
      rfl

/-- A computation gives a result of some kind or fails in one of some ways. -/
def EndsWith {ε α : Type} (good : α → Prop) (bad : ε → Prop) : Except ε α → Prop
  | .ok value => good value
  | .error error => bad error

section EndsWith

variable {ε α β : Type} {good : α → Prop} {better : β → Prop} {bad : ε → Prop}

theorem EndsWith.bind {first : Except ε α} {next : α → Except ε β} (here : EndsWith good bad first)
    (onward : ∀ value, good value → EndsWith better bad (next value)) :
    EndsWith better bad (first >>= next) := by
  cases first with
  | error error => exact here
  | ok value => exact onward value here

theorem EndsWith.map {outcome : Except ε α} {change : α → β} (here : EndsWith good bad outcome)
    (onward : ∀ value, good value → better (change value)) :
    EndsWith better bad (outcome.map change) := by
  cases outcome with
  | error error => exact here
  | ok value => exact onward value here

theorem EndsWith.imp {good' : α → Prop} {bad' : ε → Prop} {outcome : Except ε α}
    (ends : EndsWith good bad outcome) (goodness : ∀ value, good value → good' value)
    (badness : ∀ error, bad error → bad' error) : EndsWith good' bad' outcome := by
  cases outcome with
  | error error => exact badness error ends
  | ok value => exact goodness value ends

theorem EndsWith.ite {condition : Prop} [Decidable condition] {first second : Except ε α}
    (holds : condition → EndsWith good bad first) (fails : ¬ condition → EndsWith good bad second) :
    EndsWith good bad (if condition then first else second) := by
  by_cases here : condition
  · rw [if_pos here]
    exact holds here
  · rw [if_neg here]
    exact fails here

theorem EndsWith.mapM {list : List α} {next : α → Except ε β}
    (each : ∀ element ∈ list, EndsWith better bad (next element)) :
    EndsWith (fun results => ∀ result ∈ results, better result) bad (list.mapM next) := by
  induction list with
  | nil => exact List.forall_mem_nil _
  | cons element rest ih =>
      obtain ⟨here, later⟩ := List.forall_mem_cons.mp each
      rw [List.mapM_cons]
      refine here.bind fun result holds => (ih later).bind fun others hold => ?_
      exact List.forall_mem_cons.mpr ⟨holds, hold⟩

theorem EndsWith.of_eq_error {outcome : Except ε α} {error : ε} (ends : EndsWith good bad outcome)
    (failed : outcome = .error error) : bad error := by
  rw [failed] at ends
  exact ends

theorem EndsWith.of_eq_ok {outcome : Except ε α} {value : α} (ends : EndsWith good bad outcome)
    (ended : outcome = .ok value) : good value := by
  rw [ended] at ends
  exact ends

end EndsWith

end SecretFill
