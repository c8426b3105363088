import SecretFill.Json.Reading
import SecretFill.Proofs.Text.Utf8
/-!
Texts and objects of one member, read as they were written. The body of an answer is made of them.
-/

namespace SecretFill.Json

open SecretFill.Text

def Plain (text : List Code) : Prop :=
  ∀ character ∈ text, 32 ≤ character.toNat ∧ character ≠ '"' ∧ character ≠ '\\'

instance (text : List Code) : Decidable (Plain text) := List.decidableBAll _ text

def textOf (value : List Code) : List Code := Code.char '"' :: (value ++ [Code.char '"'])

def objectOf (key inner : List Code) : List Code :=
  '\x7b' :: (textOf key ++ Code.char ':' :: ' ' :: (inner ++ [Code.char '\x7d']))

/-- A value is read from a text, whatever comes behind, if there is fuel enough. -/
def Gives (least : Nat) (text : List Code) (value : Value) : Prop :=
  ∀ fuel rest, least ≤ fuel → readValue fuel (text ++ rest) = .ok (value, rest)

theorem readText_plain {text : List Code} (plain : Plain text) (rest : List Code) {fuel : Nat}
    (enough : text.length < fuel) :
    readText fuel (text ++ Code.char '"' :: rest) = some (text, rest) := by
  induction text generalizing fuel with
  | nil =>
      cases fuel with
      | zero => exact absurd enough (Nat.not_lt_zero _)
      | succ fuel => rfl
  | cons character text ih =>
      cases fuel with
      | zero => exact absurd enough (Nat.not_lt_zero _)
      | succ fuel =>
          obtain ⟨⟨visible, quote, slash⟩, later⟩ := List.forall_mem_cons.mp plain
          have shown : ¬ (character.toNat < 32 || character == '\\') = true := by
            simp [slash, Nat.not_lt.mpr visible]
          rw [List.cons_append, readText]
          · rw [if_neg shown, ih later (Nat.lt_of_succ_lt_succ enough)]
            rfl
          · exact fun same => absurd same quote
          · exact fun _ same => absurd same slash
          · exact fun _ _ same => absurd same slash

theorem readText_textOf {text : List Code} (plain : Plain text) (rest : List Code) :
    readText ((text ++ Code.char '"' :: rest).length + 1) (text ++ Code.char '"' :: rest) =
        some (text, rest) := by
  apply readText_plain plain
  rw [List.length_append]
  omega

theorem gives_text {value : List Code} (plain : Plain value) :
    Gives 1 (textOf value) (.text (Text.ofList value)) := by
  intro fuel rest enough
  obtain ⟨fuel, rfl⟩ : ∃ more, fuel = more + 1 := ⟨fuel - 1, by omega⟩
  have shape : textOf value ++ rest = Code.char '"' :: (value ++ Code.char '"' :: rest) := by
      simp [textOf]
  rw [shape, readValue, readText_textOf plain]

theorem gives_object {key inner : List Code} {least : Nat} {value : Value} (plain : Plain key)
    (opens : ∀ after, skipSpace (' ' :: (inner ++ after)) = inner ++ after)
    (gives : Gives least inner value) :
    Gives (least + 2) (objectOf key inner) (.object [(Text.ofList key, value)]) := by
  intro fuel rest enough
  obtain ⟨fuel, rfl⟩ : ∃ more, fuel = more + 2 := ⟨fuel - 2, by omega⟩
  have members : readMembers (fuel + 1) []
      ('"' :: (key ++ Code.char '"' :: ':' :: ' ' :: (inner ++ Code.char '\x7d' :: rest))) =
        .ok ([(Text.ofList key, value)], rest) := by
    have colon : skipSpace (':' :: ' ' :: (inner ++ Code.char '\x7d' :: rest)) =
        Code.char ':' :: Code.char ' ' :: (inner ++ Code.char '\x7d' :: rest) := rfl
    have brace : skipSpace ('\x7d' :: rest) = Code.char '\x7d' :: rest := rfl
    rw [readMembers, readText_textOf plain]
    simp only [colon, opens, gives fuel _ (by omega), brace]
    rfl
  have shape : objectOf key inner ++ rest =
      Code.char '\x7b' :: Code.char '"' ::
        (key ++ Code.char '"' :: ':' :: ' ' :: (inner ++ Code.char '\x7d' :: rest)) := by
    simp [objectOf, textOf]
  have quote : skipSpace ('"' ::
      (key ++ Code.char '"' :: ':' :: ' ' :: (inner ++ Code.char '\x7d' :: rest))) =
      Code.char '"' :: (key ++ Code.char '"' :: ':' :: ' ' :: (inner ++ Code.char '\x7d' :: rest)) := rfl
  rw [shape, readValue, quote]
  split
  · next same => cases same
  · rw [members]

theorem ofText_of_gives {text : List Code} {least : Nat} {value : Value}
    (gives : Gives least text value) (opens : skipSpace text = text)
    (enough : least ≤ 2 * text.length + 2) :
    ofText text = .ok value := by
  have read := gives (2 * text.length + 2) [] enough
  rw [List.append_nil] at read
  rw [ofText, opens, read]
  rfl

theorem ofBytes_objectOf (key inner : List Code) :
    ofBytes (Utf8.encode (objectOf key inner)) = ofText (objectOf key inner) := by
  have decoded : Utf.decode (Utf8.encode (objectOf key inner)) = some (objectOf key inner) := by
    have detected : Utf.detect (Utf8.encode (objectOf key inner)) =
        (.utf8, Utf8.encode (objectOf key inner)) := by
      have opens : Utf8.encode (objectOf key inner) =
          0x7B :: 0x22 :: Utf8.encode (key ++ [Code.char '"'] ++ Code.char ':' :: ' ' ::
              (inner ++ [Code.char '\x7d'])) := rfl
      rw [opens]
      rcases Utf8.encode (key ++ [Code.char '"'] ++ Code.char ':' :: ' ' ::
          (inner ++ [Code.char '\x7d'])) with
        _ | ⟨third, _ | ⟨fourth, rest⟩⟩
      · rfl
      · rfl
      · rfl
    rw [Utf.decode, detected]
    simp only [Utf8.decodeFrom_encode fun _ _ => .inr rfl]
    rfl
  rw [ofBytes, decoded]

end SecretFill.Json
