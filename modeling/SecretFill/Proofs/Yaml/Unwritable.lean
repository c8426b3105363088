import SecretFill.Proofs.Data.Carrying
import SecretFill.Proofs.Outcome
import SecretFill.Yaml.Writing
/-!
Documents that cannot be written. When it is for a number that writing fails, the number is an
integer with too many digits, and a document carries it.
-/

namespace SecretFill.Yaml

open SecretFill.Data SecretFill.Decimal

/-- If this error is about a number, one of the values carries an integer with too many digits. -/
def Overlong (cells : Array Cell) (values : List Value) (error : WriteError) : Prop :=
  ∀ fault, error = .number fault → fault = .tooManyDigitsWritten ∧
    ∃ value ∈ values, ∃ number, writable number = false ∧ Carries cells value (.atom (.int number))

variable {cells : Array Cell} {values : List Value} {error : WriteError}

theorem Overlong.inside {index : Nat} {cell : Cell} (overlong : Overlong cells values error)
    (found : cells[index]? = some cell) (inside : ∀ value ∈ values, value ∈ cell.values) :
    Overlong cells [.cell index] error := by
  intro fault same
  obtain ⟨digits, value, member, number, long, carries⟩ := overlong fault same
  have contains : Contains cells (.cell index) value :=
    ⟨index, cell, rfl, found, inside value member⟩
  exact ⟨digits, _, List.mem_singleton_self _, number, long, .head contains carries⟩

theorem Overlong.mono {others : List Value} (overlong : Overlong cells values error)
    (among : ∀ value ∈ values, value ∈ others) : Overlong cells others error := by
  intro fault same
  obtain ⟨digits, value, member, long⟩ := overlong fault same
  exact ⟨digits, value, among value member, long⟩

abbrev Writes {α : Type} (cells : Array Cell) (values : List Value) (outcome : Except WriteError α) :
    Prop :=
  EndsWith (fun _ => True) (Overlong cells values) outcome

theorem Writes.mono {α : Type} {outcome : Except WriteError α} {others : List Value}
    (writes : Writes cells values outcome) (among : ∀ value ∈ values, value ∈ others) :
    Writes cells others outcome :=
  writes.imp (fun _ _ => trivial) fun _ overlong => overlong.mono among

theorem atomScalar_writes (atom : Atom) : Writes cells [.atom atom] (atomScalar atom) := by
  cases atom with
  | int value =>
      cases fits : writable value with
      | true =>
          rw [atomScalar, fits]
          trivial
      | false =>
          rw [atomScalar, fits]
          rintro fault ⟨⟩
          exact ⟨rfl, _, List.mem_singleton_self _, value, fits, .refl⟩
  | _ => trivial

namespace Outline

variable {draw : Draw} {met : List Nat}

theorem drawAll_writes (each : ∀ value ∈ values, ∀ met, Writes cells [value] (draw value met)) :
    Writes cells values (drawAll draw values met) := by
  induction values generalizing met with
  | nil => trivial
  | cons value rest ih =>
      obtain ⟨here, later⟩ := List.forall_mem_cons.mp each
      refine ((here met).mono fun _ member => ?_).bind fun _ _ => ?_
      · exact List.mem_cons.mpr (.inl (List.mem_singleton.mp member))
      · exact ((ih later).mono fun _ member => List.mem_cons_of_mem _ member).bind fun _ _ => trivial

theorem drawEntries_writes {entries : List (Value × Value)}
    (each : ∀ entry ∈ entries, ∀ met, Writes cells values (draw entry.1 met) ∧
      Writes cells values (draw entry.2 met)) :
    Writes cells values (drawEntries draw entries met) := by
  induction entries generalizing met with
  | nil => trivial
  | cons entry rest ih =>
      obtain ⟨here, later⟩ := List.forall_mem_cons.mp each
      refine (here met).1.bind fun _ _ => (here _).2.bind fun _ _ => ?_
      exact (ih later).bind fun _ _ => trivial

theorem draw_writes (depth : Nat) (value : Value) (met : List Nat) :
    Writes cells [value] (Outline.draw cells depth value met) := by
  induction depth generalizing value met with
  | zero => exact fun _ same => nomatch same
  | succ depth ih =>
      cases value with
      | atom atom => exact (atomScalar_writes atom).bind fun _ _ => trivial
      | cell index =>
          unfold Outline.draw
          refine .ite (fun _ => trivial) fun _ => ?_
          have inside {cell : Cell} (found : cells[index]? = some cell) {α : Type}
              {outcome : Except WriteError α} (writes : Writes cells cell.values outcome) :
              Writes cells [.cell index] outcome :=
            writes.imp (fun _ _ => trivial) fun _ overlong =>
              overlong.inside found fun _ member => member
          dsimp only
          split
          · next items found =>
              refine (inside found ?_).bind fun _ _ => trivial
              exact drawAll_writes fun value _ met => ih value met
          · next items found =>
              refine (inside found ?_).bind fun _ _ => trivial
              exact drawAll_writes fun value _ met => ih value met
          · next entries found =>
              refine (inside found (drawEntries_writes fun entry member met => ?_)).bind
                fun _ _ => trivial
              have key : entry.1 ∈ (Cell.mapping entries).values :=
                List.mem_append_left _ (List.mem_map_of_mem member)
              have item : entry.2 ∈ (Cell.mapping entries).values :=
                List.mem_append_right _ (List.mem_map_of_mem member)
              exact ⟨(ih entry.1 met).mono (List.forall_mem_singleton.mpr key),
                (ih entry.2 met).mono (List.forall_mem_singleton.mpr item)⟩
          · next members found =>
              refine (inside found (drawEntries_writes fun entry member met => ?_)).bind
                fun _ _ => trivial
              obtain ⟨key, among, rfl⟩ := List.mem_map.mp member
              refine ⟨(ih key met).mono (List.forall_mem_singleton.mpr among), ?_⟩
              -- What stands for the value of a member is no number.
              refine (ih (.atom .null) met).imp (fun _ _ => trivial) fun _ overlong fault same => ?_
              obtain ⟨-, _, isNull, number, -, carries⟩ := overlong fault same
              cases List.mem_singleton.mp isNull
              cases carries_atom carries
          · trivial
          · trivial
          · trivial
          · exact fun _ same => nomatch same
          · exact fun _ same => nomatch same

end Outline

/-- If writing a stream fails for a number, one of its documents carries an integer with too many
digits. -/
theorem write_overlong {stream : Stream} (failed : write stream = .error error) :
    Overlong stream.cells stream.roots error := by
  have drawn : Writes stream.cells stream.roots
      (stream.roots.mapM fun root => Outline.ofDocument (stream.document root)) := by
    have each (root : Value) (member : root ∈ stream.roots) :
        Writes stream.cells stream.roots (Outline.ofDocument (stream.document root)) :=
      ((Outline.draw_writes _ root []).mono (List.forall_mem_singleton.mpr member)).map
        fun _ _ => trivial
    exact (EndsWith.mapM each).imp (fun _ _ => trivial) fun _ overlong => overlong
  have writes : Writes stream.cells stream.roots (write stream) := drawn.bind fun _ _ => trivial
  exact writes.of_eq_error failed

end SecretFill.Yaml
