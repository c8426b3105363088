/-!
Texts. A text is a list of code points, and a code point is a character or one half of a surrogate
pair that stands alone: escapes can write halves and file names can bring them, though no encoding
of a text has them.
-/

namespace SecretFill

inductive Code
  | char (character : Char)
  | half (index : Fin 2048)
  deriving DecidableEq, Repr, Inhabited

namespace Code

def firstHalf : Nat := 0xD800

def toNat : Code → Nat
  | .char character => character.toNat
  | .half index => firstHalf + index

/-- The code point with a number; zero stands for numbers that none has. -/
def ofNat (number : Nat) : Code :=
  if inside : firstHalf ≤ number ∧ number < firstHalf + 2048 then
    .half ⟨number - firstHalf, by omega⟩
  else .char (Char.ofNat number)

theorem apart_of_char (character : Char) :
    ¬(firstHalf ≤ character.toNat ∧ character.toNat < firstHalf + 2048) := by
  have valid := character.valid
  simp only [UInt32.isValidChar, Nat.isValidChar] at valid
  simp only [firstHalf, Char.toNat]
  omega

theorem ofNat_toNat (code : Code) : ofNat code.toNat = code := by
  cases code with
  | char character => rw [toNat, ofNat, dif_neg (apart_of_char character), Char.ofNat_toNat]
  | half index =>
      have inside : firstHalf ≤ firstHalf + index ∧ firstHalf + index < firstHalf + 2048 := by omega
      simp only [toNat, ofNat, dif_pos inside, Nat.add_sub_cancel_left]

theorem toNat_inj {first second : Code} : first.toNat = second.toNat ↔ first = second := by
  constructor
  · intro same
    rw [← ofNat_toNat first, same, ofNat_toNat]
  · exact congrArg toNat

theorem toNat_lt (code : Code) : code.toNat < 0x110000 := by
  cases code with
  | char character =>
      have valid := character.valid
      simp only [UInt32.isValidChar, Nat.isValidChar] at valid
      simp only [toNat, Char.toNat]
      omega
  | half index =>
      simp only [toNat, firstHalf]
      omega

theorem toNat_ofNat {number : Nat} (small : number < 0x110000) : (ofNat number).toNat = number := by
  rw [ofNat]
  split
  · next inside =>
      simp only [toNat]
      omega
  · next apart =>
      have valid : number.isValidChar := by
        simp only [firstHalf] at apart
        simp only [Nat.isValidChar]
        omega
      rw [toNat, Char.ofNat, dif_pos valid]
      rfl

instance : LE Code := ⟨fun first second => first.toNat ≤ second.toNat⟩

theorem le_iff_toNat {first second : Code} : first ≤ second ↔ first.toNat ≤ second.toNat := Iff.rfl

instance : DecidableLE Code := fun first second =>
  inferInstanceAs (Decidable (first.toNat ≤ second.toNat))

def isHalf : Code → Bool
  | .char _ => false
  | .half _ => true

theorem isHalf_iff (code : Code) :
    code.isHalf = true ↔ 0xD800 ≤ code.toNat ∧ code.toNat < 0xE000 := by
  cases code with
  | char character =>
      have apart := apart_of_char character
      rw [firstHalf] at apart
      simp only [isHalf, toNat, Bool.false_eq_true, false_iff]
      omega
  | half index =>
      simp only [isHalf, toNat, firstHalf, true_iff]
      omega

theorem isHalf_eq_false {code : Code} (apart : code.toNat < 0xD800 ∨ 0xE000 ≤ code.toNat) :
    code.isHalf = false := by
  rw [Bool.eq_false_iff, ne_eq, isHalf_iff]
  omega

def isDigit (code : Code) : Bool := 48 ≤ code.toNat && code.toNat ≤ 57

def isUpper (code : Code) : Bool := 65 ≤ code.toNat && code.toNat ≤ 90

def isLower (code : Code) : Bool := 97 ≤ code.toNat && code.toNat ≤ 122

def isAlpha (code : Code) : Bool := code.isUpper || code.isLower

def isAlphanum (code : Code) : Bool := code.isAlpha || code.isDigit

/-- ASCII letters in capitals; all other code points as they are. -/
def toUpper (code : Code) : Code := if code.isLower then ofNat (code.toNat - 32) else code

def toLower (code : Code) : Code := if code.isUpper then ofNat (code.toNat + 32) else code

end Code

@[reducible] instance : Coe Char Code := ⟨Code.char⟩

structure Text where
  ofList ::
  toList : List Code
  deriving DecidableEq, Repr, Inhabited

@[reducible] instance : Coe String Text := ⟨fun text => ⟨text.toList.map Code.char⟩⟩

namespace Text

instance : Append Text := ⟨fun first second => ⟨first.toList ++ second.toList⟩⟩

def isEmpty (text : Text) : Bool := text.toList.isEmpty

def length (text : Text) : Nat := text.toList.length

def join (texts : List Text) : Text := ⟨texts.flatMap toList⟩

def intercalate (separator : Text) (texts : List Text) : Text :=
  ⟨separator.toList.intercalate (texts.map toList)⟩

@[simp] theorem toList_append (first second : Text) :
    (first ++ second).toList = first.toList ++ second.toList := rfl

@[simp] theorem toList_join (texts : List Text) : (join texts).toList = texts.flatMap toList := rfl

@[simp] theorem toList_intercalate (separator : Text) (texts : List Text) :
    (separator.intercalate texts).toList = separator.toList.intercalate (texts.map toList) := rfl

theorem toList_ofList (codes : List Code) : (ofList codes).toList = codes := rfl

theorem ofList_toList (text : Text) : ofList text.toList = text := rfl

theorem toList_inj {first second : Text} : first.toList = second.toList ↔ first = second := by
  constructor
  · exact congrArg ofList
  · exact congrArg toList

theorem toList_eq_nil_iff {text : Text} : text.toList = [] ↔ text = "" :=
  @toList_inj text ""

theorem isEmpty_eq_false_iff {text : Text} : text.isEmpty = false ↔ text ≠ "" := by
  rw [isEmpty, List.isEmpty_eq_false_iff, ne_eq, toList_eq_nil_iff]

theorem append_left_cancel {text first second : Text} :
    text ++ first = text ++ second ↔ first = second := by
  rw [← toList_inj, ← toList_inj, toList_append, toList_append, List.append_cancel_left_eq]

theorem append_right_cancel {text first second : Text} :
    first ++ text = second ++ text ↔ first = second := by
  rw [← toList_inj, ← toList_inj, toList_append, toList_append, List.append_cancel_right_eq]

end Text

end SecretFill
