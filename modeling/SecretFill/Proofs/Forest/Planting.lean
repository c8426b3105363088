import SecretFill.Proofs.Forest.Cycle
import SecretFill.Proofs.Forest.Growth
/-!
Planting all documents of a stream. It goes through if no document leads back to itself and all keys
have a text; otherwise it fails with what stops the walk over the first document that is not so.
Where only texts are missing, that is what it says.
-/

namespace SecretFill

open SecretFill.Data SecretFill.Forest

variable {cells : Array Cell} {roots : List Value}

theorem plantAll_accepts (acyclic : ∀ root ∈ roots, ¬ Cyclic cells root)
    (named : ∀ root ∈ roots, Named cells root) (count index : Nat) (forest : Forest) :
    ∃ planted, plantAll cells count index roots forest = .ok planted := by
  induction roots generalizing index forest with
  | nil => exact ⟨_, rfl⟩
  | cons root rest ih =>
      obtain ⟨acyclicHere, acyclicLater⟩ := List.forall_mem_cons.mp acyclic
      obtain ⟨namedHere, namedLater⟩ := List.forall_mem_cons.mp named
      obtain ⟨⟨node, middle⟩, first⟩ := (plant_ok_iff cells root (Path.ofRoot index count) forest).mpr
        ⟨acyclicHere, namedHere⟩
      obtain ⟨⟨plots, last⟩, others⟩ := ih acyclicLater namedLater (index + 1) middle
      refine ⟨(⟨node, Path.ofRoot index count⟩ :: plots, last), ?_⟩
      simp only [plantAll, first, others]
      rfl

theorem plant_unnamed {root : Value} (acyclic : ¬ Cyclic cells root) (unnamed : ¬ Named cells root)
    (path : Text) (forest : Forest) : forest.plant cells root path = .error .unnamed := by
  cases result : forest.plant cells root path with
  | ok planted => exact absurd (grounded_of_plant result).2 unnamed
  | error error =>
      obtain ⟨route, stops, -⟩ := (plant_error_iff cells root path forest error).mp result
      cases error with
      | unnamed => rfl
      | cycle closing => exact absurd (cyclic_of_returns stops) acyclic

theorem plantAll_unnamed (acyclic : ∀ root ∈ roots, ¬ Cyclic cells root)
    (unnamed : ∃ root ∈ roots, ¬ Named cells root) (count index : Nat) (forest : Forest) :
    plantAll cells count index roots forest = .error .unnamedKey := by
  induction roots generalizing index forest with
  | nil =>
      obtain ⟨_, member, _⟩ := unnamed
      cases member
  | cons root rest ih =>
      obtain ⟨acyclicHere, acyclicLater⟩ := List.forall_mem_cons.mp acyclic
      by_cases named : Named cells root
      · obtain ⟨⟨node, middle⟩, first⟩ :=
          (plant_ok_iff cells root (Path.ofRoot index count) forest).mpr ⟨acyclicHere, named⟩
        have further : ∃ root ∈ rest, ¬ Named cells root := by
          obtain ⟨other, member, nameless⟩ := unnamed
          rcases List.mem_cons.mp member with rfl | later
          · exact absurd named nameless
          · exact ⟨other, later, nameless⟩
        simp only [plantAll, first, ih acyclicLater further]
        rfl
      · simp only [plantAll, plant_unnamed acyclicHere named]

/-- What stops the walk over the first of some documents that cannot be planted. `index` is the
place of the first one there is, and `count` the number of all. -/
inductive Barred (cells : Array Cell) (count : Nat) : Nat → List Value → PlantError → Prop
  | here {index : Nat} {root : Value} {rest : List Value} {error : PlantError} {route : List Nat}
      (stops : Stops cells root (Path.ofRoot index count) route error)
      (first : First cells root (Path.ofRoot index count) route) :
      Barred cells count index (root :: rest) error
  | later {index : Nat} {root : Value} {rest : List Value} {error : PlantError}
      (acyclic : ¬ Cyclic cells root) (named : Named cells root)
      (more : Barred cells count (index + 1) rest error) :
      Barred cells count index (root :: rest) error

theorem Barred.filled {count index : Nat} {error : PlantError}
    (barred : Barred cells count index roots error) : roots ≠ [] := by
  cases barred <;> exact List.cons_ne_nil _ _

def reported : PlantError → InterpolationError
  | .cycle path => .cycle path
  | .unnamed => .unnamedKey

theorem plantAll_error_iff (count index : Nat) (forest : Forest) (failure : InterpolationError) :
    plantAll cells count index roots forest = .error failure ↔
      ∃ error, Barred cells count index roots error ∧ failure = reported error := by
  -- Documents are planted in order, so only the first that is refused is reported.
  induction roots generalizing index forest with
  | nil =>
      constructor
      · intro failed
        cases failed
      · rintro ⟨_, barred, -⟩
        cases barred
  | cons root rest ih =>
      let path := Path.ofRoot index count
      have accepts := plant_ok_iff cells root path forest
      have refuses := plant_error_iff cells root path forest
      cases planted : forest.plant cells root path with
      | error error =>
          have here : plantAll cells count index (root :: rest) forest = .error (reported error) := by
            cases error <;> simp only [plantAll, planted, path, reported]
          rw [here]
          constructor
          · rintro ⟨⟩
            obtain ⟨route, stops, first⟩ := (refuses error).mp planted
            exact ⟨error, .here stops first, rfl⟩
          · rintro ⟨other, barred, rfl⟩
            cases barred with
            | here stops first =>
                cases planted.symm.trans ((refuses other).mpr ⟨_, stops, first⟩)
                rfl
            | later acyclic named _ =>
                obtain ⟨_, accepted⟩ := accepts.mpr ⟨acyclic, named⟩
                cases planted.symm.trans accepted
      | ok result =>
          obtain ⟨node, middle⟩ := result
          obtain ⟨acyclic, named⟩ := accepts.mp ⟨_, planted⟩
          -- The first document can be planted, so what stops the rest stops all of them.
          have later : plantAll cells count index (root :: rest) forest =
              plantAll cells count (index + 1) rest middle >>= fun planted =>
                .ok (⟨node, path⟩ :: planted.1, planted.2) := by
            simp only [plantAll, planted, path]
          rw [later]
          constructor
          · intro failed
            cases others : plantAll cells count (index + 1) rest middle with
            | ok planted =>
                rw [others] at failed
                cases failed
            | error error =>
                rw [others] at failed
                cases failed
                obtain ⟨reason, more, same⟩ := (ih (index + 1) middle).mp others
                exact ⟨reason, .later acyclic named more, same⟩
          · rintro ⟨other, barred, rfl⟩
            cases barred with
            | here stops first =>
                cases planted.symm.trans ((refuses other).mpr ⟨_, stops, first⟩)
            | later _ _ more =>
                rw [(ih (index + 1) middle).mpr ⟨other, more, rfl⟩]
                rfl

end SecretFill
