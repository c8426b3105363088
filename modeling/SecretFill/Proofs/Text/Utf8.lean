import SecretFill.Text.Utf8
/-!
Reading inverts writing. `Spells` is the table of the sequences: which bytes spell which code
point. A writer writes the spelling of each code point, and a reader takes spellings alone. Those of
halves of surrogate pairs it may refuse; then bytes are read as a text exactly when they are what is
written for it and the text has no halves.
-/

namespace SecretFill.Text.Utf8

def Follows (byte : UInt8) : Prop := 0x80 ≤ byte.toNat ∧ byte.toNat < 0xC0

inductive Spells : Nat → List UInt8 → Prop
  | one {lead : UInt8} (short : lead.toNat < 0x80) : Spells lead.toNat [lead]
  | two {lead second : UInt8} {code : Nat} (least : 0xC2 ≤ lead.toNat) (most : lead.toNat < 0xE0)
      (follows : Follows second) (whole : code = lead.toNat % 32 * 64 + second.toNat % 64) :
      Spells code [lead, second]
  | three {lead second third : UInt8} {code : Nat} (least : 0xE0 ≤ lead.toNat)
      (most : lead.toNat < 0xF0) (follows : Follows second) (last : Follows third)
      (whole : code = lead.toNat % 16 * 4096 + second.toNat % 64 * 64 + third.toNat % 64)
      (shortest : 0x800 ≤ code) :
      Spells code [lead, second, third]
  | four {lead second third fourth : UInt8} {code : Nat} (least : 0xF0 ≤ lead.toNat)
      (most : lead.toNat < 0xF5) (follows : Follows second) (further : Follows third)
      (last : Follows fourth)
      (whole : code = lead.toNat % 8 * 262144 + second.toNat % 64 * 4096 + third.toNat % 64 * 64 +
        fourth.toNat % 64)
      (shortest : 0x10000 ≤ code) (within : code < 0x110000) :
      Spells code [lead, second, third, fourth]

theorem toNat_toUInt8 {number : Nat} (small : number < 256) : number.toUInt8.toNat = number := by
  rw [Nat.toUInt8_eq, UInt8.toNat_ofNat', Nat.mod_eq_of_lt small]

theorem toUInt8_eq {number : Nat} (byte : UInt8) (same : number = byte.toNat) :
    number.toUInt8 = byte := by
  rw [same]
  exact UInt8.ofNat_toNat

theorem follows_tail (bits : Nat) : Follows (0x80 + bits % 64).toUInt8 := by
  rw [Follows, toNat_toUInt8 (by omega)]
  omega

theorem spells_encodeCharacter (value : Code) : Spells value.toNat (encodeCharacter value) := by
  have bounds := value.toNat_lt
  unfold encodeCharacter
  -- From here on the character is a number with bounds, and its size decides.
  generalize value.toNat = code at bounds
  simp only [Nat.shiftRight_eq_div_pow]
  split
  · next short =>
      have lead : code.toUInt8.toNat = code := toNat_toUInt8 (by omega)
      have spells : Spells code.toUInt8.toNat [code.toUInt8] := .one (by omega)
      rwa [lead] at spells
  · split
    · have lead : (0xC0 + code / 64).toUInt8.toNat = 0xC0 + code / 64 := toNat_toUInt8 (by omega)
      apply Spells.two
      · omega
      · omega
      · exact follows_tail _
      · rw [lead, toNat_toUInt8 (by omega)]
        omega
    · split
      · have lead : (0xE0 + code / 4096).toUInt8.toNat = 0xE0 + code / 4096 :=
          toNat_toUInt8 (by omega)
        apply Spells.three
        · omega
        · omega
        · exact follows_tail _
        · exact follows_tail _
        · rw [lead, toNat_toUInt8 (by omega), toNat_toUInt8 (by omega)]
          omega
        · omega
      · have lead : (0xF0 + code / 262144).toUInt8.toNat = 0xF0 + code / 262144 :=
          toNat_toUInt8 (by omega)
        apply Spells.four
        · omega
        · omega
        · exact follows_tail _
        · exact follows_tail _
        · exact follows_tail _
        · rw [lead, toNat_toUInt8 (by omega), toNat_toUInt8 (by omega), toNat_toUInt8 (by omega)]
          omega
        · omega
        · omega

theorem Spells.filled {code : Nat} {bytes : List UInt8} (spells : Spells code bytes) :
    bytes ≠ [] := by
  rintro rfl
  cases spells

theorem Spells.small {code : Nat} {bytes : List UInt8} (spells : Spells code bytes) :
    code < 0x110000 := by
  cases spells <;> omega

theorem Spells.eq_encodeCharacter {value : Code} {bytes : List UInt8}
    (spells : Spells value.toNat bytes) : bytes = encodeCharacter value := by
  unfold encodeCharacter
  generalize value.toNat = code at spells
  simp only [Nat.shiftRight_eq_div_pow]
  -- The bounds of each form leave one length only, and the bytes follow from the number.
  cases spells with
  | @one lead short => rw [if_pos short, toUInt8_eq lead rfl]
  | @two lead second _ least most follows whole =>
      obtain ⟨low, high⟩ := follows
      rw [if_neg (by omega), if_pos (by omega), toUInt8_eq lead (by omega),
        toUInt8_eq second (by omega)]
  | @three lead second third _ least most follows last whole shortest =>
      obtain ⟨low, high⟩ := follows
      obtain ⟨low', high'⟩ := last
      rw [if_neg (by omega), if_neg (by omega), if_pos (by omega), toUInt8_eq lead (by omega),
        toUInt8_eq second (by omega), toUInt8_eq third (by omega)]
  | @four lead second third fourth _ least most follows further last whole shortest within =>
      obtain ⟨low, high⟩ := follows
      obtain ⟨low', high'⟩ := further
      obtain ⟨low'', high''⟩ := last
      rw [if_neg (by omega), if_neg (by omega), if_neg (by omega), toUInt8_eq lead (by omega),
        toUInt8_eq second (by omega), toUInt8_eq third (by omega), toUInt8_eq fourth (by omega)]

/-! ### One sequence -/

theorem isContinuation_iff (byte : UInt8) : isContinuation byte = true ↔ Follows byte := by
  simp [isContinuation, Follows, UInt8.le_iff_toNat_le, UInt8.lt_iff_toNat_lt]

/-- What the second byte has to keep: the spelling is shortest and within the code points. -/
structure Admitted (surrogates : Bool) (lead second : UInt8) : Prop where
  follows : Follows second
  three : lead.toNat = 0xE0 → 0xA0 ≤ second.toNat
  free : lead.toNat = 0xED → second.toNat < 0xA0 ∨ surrogates = true
  four : lead.toNat = 0xF0 → 0x90 ≤ second.toNat
  within : lead.toNat = 0xF4 → second.toNat < 0x90

theorem admits_iff (surrogates : Bool) (lead second : UInt8) :
    admits surrogates lead second = true ↔ Admitted surrogates lead second := by
  rw [admits]
  simp only [Bool.and_eq_true, Bool.not_eq_true', Bool.not_eq_false', Bool.and_eq_false_iff,
    beq_eq_false_iff_ne, decide_eq_false_iff_not, isContinuation_iff, UInt8.le_iff_toNat_le,
    UInt8.lt_iff_toNat_lt, ne_eq, ← UInt8.toNat_inj, UInt8.reduceToNat]
  constructor
  · rintro ⟨⟨⟨⟨follows, three⟩, free⟩, four⟩, within⟩
    refine ⟨follows, by omega, fun same => ?_, by omega, by omega⟩
    rcases free with (other | below) | taken
    · exact absurd same other
    · exact .inl (by omega)
    · exact .inr taken
  · rintro ⟨follows, three, free, four, within⟩
    refine ⟨⟨⟨⟨follows, by omega⟩, ?_⟩, by omega⟩, by omega⟩
    by_cases same : lead.toNat = 0xED
    · exact (free same).imp_left fun below => .inr (by omega)
    · exact .inl (.inl same)

variable {surrogates : Bool} {lead : UInt8} {value : Code}

def Taken (surrogates : Bool) (value : Code) : Prop := value.isHalf = false ∨ surrogates = true

theorem sequence_of_spells {tail : List UInt8} (spells : Spells value.toNat (lead :: tail))
    (taken : Taken surrogates value) (rest : List UInt8) :
    sequence surrogates lead (tail ++ rest) = .character value tail.length := by
  have back : Code.ofNat value.toNat = value := Code.ofNat_toNat value
  have free : (value.toNat < 0xD800 ∨ 0xE000 ≤ value.toNat) ∨ surrogates = true := by
    refine taken.imp_left fun whole => ?_
    have apart := mt (Code.isHalf_iff value).mpr (Bool.eq_false_iff.mp whole)
    omega
  unfold sequence
  simp only [UInt8.lt_iff_toNat_lt, UInt8.le_iff_toNat_le, UInt8.reduceToNat, Bool.or_eq_true,
    decide_eq_true_eq]
  generalize value.toNat = code at spells back free
  -- The bytes are bounded in each form, so the tests on the first one are arithmetic.
  cases spells with
  | one short => rw [if_pos short, back, List.length_nil]
  | @two _ second _ least most follows whole =>
      have admitted : admits surrogates lead second = true :=
        (admits_iff surrogates lead second).mpr
          ⟨follows, by omega, by omega, by omega, by omega⟩
      rw [if_neg (by omega), if_neg (by omega)]
      simp only [List.cons_append, admitted, Bool.not_true, Bool.false_eq_true, if_false,
        if_pos most]
      rw [tailBits, ← whole, back]
      rfl
  | @three _ second third _ least most follows last whole shortest =>
      obtain ⟨low, high⟩ := follows
      have admitted : admits surrogates lead second = true :=
        (admits_iff surrogates lead second).mpr
          ⟨⟨low, high⟩, by omega, fun same => free.imp_left fun _ => by omega, by omega, by omega⟩
      have continued : isContinuation third = true := (isContinuation_iff third).mpr last
      have wide : ¬ lead.toNat < 0xE0 := by omega
      rw [if_neg (by omega), if_neg (by omega)]
      simp only [List.cons_append, admitted, continued, Bool.not_true, Bool.false_eq_true, if_false,
        if_neg wide, if_pos most]
      rw [tailBits, tailBits, ← whole, back]
      rfl
  | @four _ second third fourth _ least most follows further last whole shortest within =>
      obtain ⟨low, high⟩ := follows
      have admitted : admits surrogates lead second = true :=
        (admits_iff surrogates lead second).mpr
          ⟨⟨low, high⟩, by omega, by omega, by omega, by omega⟩
      have continued : isContinuation third = true := (isContinuation_iff third).mpr further
      have ended : isContinuation fourth = true := (isContinuation_iff fourth).mpr last
      have wide : ¬ lead.toNat < 0xE0 := by omega
      have wider : ¬ lead.toNat < 0xF0 := by omega
      rw [if_neg (by omega), if_neg (by omega)]
      simp only [List.cons_append, admitted, continued, ended, Bool.not_true, Bool.false_eq_true,
        if_false, if_neg wide, if_neg wider]
      rw [tailBits, tailBits, tailBits, ← whole, back]
      rfl

theorem Spells.ofNat {code : Nat} {bytes : List UInt8} (spells : Spells code bytes) :
    Spells (Code.ofNat code).toNat bytes := by
  rwa [Code.toNat_ofNat spells.small]

theorem spells_of_sequence {following : Nat} {rest : List UInt8}
    (read : sequence false lead rest = .character value following) :
    ∃ tail after, rest = tail ++ after ∧ tail.length = following ∧
      Spells value.toNat (lead :: tail) ∧ value.isHalf = false := by
  have whole {code : Nat} {bytes : List UInt8} (spells : Spells code bytes)
      (free : code < 0xD800 ∨ 0xE000 ≤ code) :
      Spells (Code.ofNat code).toNat bytes ∧ (Code.ofNat code).isHalf = false := by
    refine ⟨spells.ofNat, Bool.eq_false_iff.mpr fun half => ?_⟩
    rw [Code.isHalf_iff, Code.toNat_ofNat spells.small] at half
    omega
  unfold sequence at read
  simp only [UInt8.lt_iff_toNat_lt, UInt8.le_iff_toNat_le, UInt8.reduceToNat, Bool.or_eq_true,
    decide_eq_true_eq, Bool.not_eq_true'] at read
  -- The reader looks at one byte more at each step, and every way out but one is a fault.
  split at read
  · next short =>
      cases read
      exact ⟨[], rest, rfl, rfl, whole (Spells.one short) (by omega)⟩
  split at read
  · cases read
  cases rest with
  | nil => cases read
  | cons second rest =>
      dsimp only at read
      split at read
      · cases read
      next admitted =>
      obtain ⟨⟨low, high⟩, three, free, four, within⟩ :=
        (admits_iff _ _ _).mp (Bool.of_not_eq_false admitted)
      split at read
      · next most =>
          cases read
          have spells : Spells _ [lead, second] := .two (by omega) most ⟨low, high⟩ rfl
          exact ⟨[second], rest, rfl, rfl, whole spells (by unfold tailBits; omega)⟩
      cases rest with
      | nil => cases read
      | cons third rest =>
          dsimp only at read
          split at read
          · cases read
          next continued =>
          have further := (isContinuation_iff third).mp (Bool.of_not_eq_false continued)
          split at read
          · next most =>
              have kept : lead.toNat = 0xED → second.toNat < 0xA0 :=
                fun same => (free same).resolve_right Bool.false_ne_true
              have spells : Spells _ [lead, second, third] :=
                .three (by omega) most ⟨low, high⟩ further rfl (by omega)
              cases read
              exact ⟨[second, third], rest, rfl, rfl, whole spells (by unfold tailBits; omega)⟩
          cases rest with
          | nil => cases read
          | cons fourth rest =>
              dsimp only at read
              split at read
              · cases read
              next ended =>
              have last := (isContinuation_iff fourth).mp (Bool.of_not_eq_false ended)
              have spells : Spells _ [lead, second, third, fourth] :=
                .four (by omega) (by omega) ⟨low, high⟩ further last rfl (by omega) (by omega)
              cases read
              exact ⟨[second, third, fourth], rest, rfl, rfl,
                whole spells (by unfold tailBits; omega)⟩

/-! ### Whole texts -/

theorem encode_cons (value : Code) (text : List Code) :
    encode (value :: text) = encodeCharacter value ++ encode text := List.flatMap_cons

theorem encode_append (first second : List Code) :
    encode (first ++ second) = encode first ++ encode second := List.flatMap_append

/-- A text without halves. -/
def Whole (text : List Code) : Prop := ∀ code ∈ text, code.isHalf = false

instance : DecidablePred Whole := fun text => inferInstanceAs (Decidable (∀ code ∈ text, _))

theorem decodeFrom_character {surrogates : Bool} {value : Code} (taken : Taken surrogates value)
    (position : Nat) (rest : List UInt8) :
    ∃ next, decodeFrom surrogates position (encodeCharacter value ++ rest) =
      (decodeFrom surrogates next rest).map (value :: ·) := by
  have spells := spells_encodeCharacter value
  cases shape : encodeCharacter value with
  | nil => exact absurd shape spells.filled
  | cons lead tail =>
      rw [shape] at spells
      rw [List.cons_append, decodeFrom, sequence_of_spells spells taken]
      refine ⟨position + 1 + tail.length, ?_⟩
      simp only [List.drop_left]
      cases decodeFrom surrogates (position + 1 + tail.length) rest <;> rfl

theorem decodeFrom_encode {text : List Code} (taken : ∀ value ∈ text, Taken surrogates value)
    (position : Nat) : decodeFrom surrogates position (encode text) = .ok text := by
  induction text generalizing position with
  | nil => rw [encode, List.flatMap_nil, decodeFrom]
  | cons value text ih =>
      obtain ⟨here, later⟩ := List.forall_mem_cons.mp taken
      obtain ⟨next, read⟩ := decodeFrom_character here position (encode text)
      rw [encode_cons, read, ih later]
      rfl

theorem encode_of_decodeFrom {position : Nat} {bytes : List UInt8} {text : List Code}
    (read : decodeFrom false position bytes = .ok text) : Whole text ∧ bytes = encode text := by
  induction text generalizing position bytes with
  | nil =>
      cases bytes with
      | nil => exact ⟨List.forall_mem_nil _, rfl⟩
      | cons lead rest =>
          rw [decodeFrom] at read
          split at read
          · cases read
          · split at read <;> cases read
  | cons value text ih =>
      cases bytes with
      | nil =>
          rw [decodeFrom] at read
          cases read
      | cons lead rest =>
          rw [decodeFrom] at read
          split at read
          · cases read
          · next first following head =>
              split at read
              · next others behind =>
                  cases read
                  obtain ⟨tail, after, rfl, rfl, spells, free⟩ := spells_of_sequence head
                  rw [List.drop_left] at behind
                  obtain ⟨whole, same⟩ := ih behind
                  refine ⟨List.forall_mem_cons.mpr ⟨free, whole⟩, ?_⟩
                  rw [encode_cons, ← spells.eq_encodeCharacter, ← same, List.cons_append]
              · cases read

/-- Bytes are read as a text exactly when they are what is written for it and it has no halves. -/
theorem decode_eq_ok_iff {bytes : List UInt8} {text : List Code} :
    decode bytes = .ok text ↔ Whole text ∧ bytes = encode text := by
  constructor
  · exact encode_of_decodeFrom
  · rintro ⟨whole, rfl⟩
    exact decodeFrom_encode (fun value member => .inl (whole value member)) 0

theorem decode_encode {text : List Code} (whole : Whole text) : decode (encode text) = .ok text :=
  decode_eq_ok_iff.mpr ⟨whole, rfl⟩

theorem refusal?_eq_none_iff {refuses : Code → Bool} {text : List Code} (position : Nat) :
    refusal? refuses position text = none ↔ ∀ code ∈ text, refuses code = false := by
  induction text generalizing position with
  | nil => simp [refusal?]
  | cons code rest ih =>
      rw [refusal?, List.forall_mem_cons]
      cases refuses code with
      | false => exact (ih (position + 1)).trans (and_iff_right rfl).symm
      | true => simp

theorem encodeStrict_eq_ok_iff {text : List Code} {bytes : List UInt8} :
    encodeStrict text = .ok bytes ↔ Whole text ∧ bytes = encode text := by
  unfold encodeStrict
  cases halves : refusal? Code.isHalf 0 text with
  | none =>
      have whole : Whole text := (refusal?_eq_none_iff 0).mp halves
      simp only [whole, true_and, Except.ok.injEq]
      exact eq_comm
  | some fault =>
      have broken : ¬ Whole text := by
        rw [Whole, ← refusal?_eq_none_iff 0, halves]
        exact Option.some_ne_none fault
      simp [broken]

end SecretFill.Text.Utf8
