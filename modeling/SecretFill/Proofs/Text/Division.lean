import SecretFill.Text.Pieces
/-!
What cutting does, said without the cutting. `Divides` tells which pieces a text has between its
separators, and a text has exactly one such division; `cutLast` finds the last place of a character.
-/

namespace SecretFill.Text

/-- A text is made of pieces with separators between them. A carriage return and the line feed after
it are one separator, so no return counts alone where a line feed follows. -/
inductive Divides (separates : Code → Bool) : List Code → List (List Code) → Prop
  | last {piece : List Code} (free : ∀ character ∈ piece, separates character = false) :
      Divides separates piece [piece]
  | pair {piece rest : List Code} {others : List (List Code)}
      (free : ∀ character ∈ piece, separates character = false) (mark : separates '\r' = true)
      (later : Divides separates rest others) :
      Divides separates (piece ++ Code.char '\r' :: '\n' :: rest) (piece :: others)
  | single {piece rest : List Code} {mark : Code} {others : List (List Code)}
      (free : ∀ character ∈ piece, separates character = false) (marks : separates mark = true)
      (alone : mark = '\r' → ∀ after, rest ≠ Code.char '\n' :: after)
      (later : Divides separates rest others) :
      Divides separates (piece ++ mark :: rest) (piece :: others)

variable {separates : Code → Bool} {text piece rest : List Code} {others : List (List Code)}

theorem Divides.extend {character : Code} (division : Divides separates text others)
    (free : separates character = false) :
    Divides separates (character :: text) (extendFirst character others) := by
  cases division with
  | last all => exact .last (List.forall_mem_cons.mpr ⟨free, all⟩)
  | pair all mark later => exact .pair (List.forall_mem_cons.mpr ⟨free, all⟩) mark later
  | single all marks alone later =>
      exact .single (List.forall_mem_cons.mpr ⟨free, all⟩) marks alone later

theorem divides_pieces (separates : Code → Bool) (text : List Code) :
    Divides separates text (pieces separates text) := by
  induction text using pieces.induct separates with
  | case1 => exact .last (List.forall_mem_nil _)
  | case2 rest marks ih =>
      rw [pieces, if_pos marks]
      exact .pair (List.forall_mem_nil _) marks ih
  | case3 rest free ih =>
      rw [pieces, if_neg free]
      exact ih.extend (Bool.of_not_eq_true free)
  | case4 character rest other marks ih =>
      rw [pieces, if_pos marks]
      · refine .single (List.forall_mem_nil _) marks ?_ ih
        rintro rfl after rfl
        exact other after rfl rfl
      · exact other
  | case5 character rest other free ih =>
      rw [pieces, if_neg free]
      · exact ih.extend (Bool.of_not_eq_true free)
      · exact other

theorem pieces_cons_free {character : Code} (free : separates character = false) :
    pieces separates (character :: text) = extendFirst character (pieces separates text) := by
  have miss : ¬ separates character = true := by simp [free]
  by_cases pair : ∃ after, character = '\r' ∧ text = Code.char '\n' :: after
  · obtain ⟨after, rfl, rfl⟩ := pair
    rw [pieces, if_neg miss]
  · rw [pieces, if_neg miss]
    rintro after rfl rfl
    exact pair ⟨after, rfl, rfl⟩

theorem pieces_cons_mark {mark : Code} (marks : separates mark = true)
    (alone : mark = '\r' → ∀ after, rest ≠ Code.char '\n' :: after) :
    pieces separates (mark :: rest) = [] :: pieces separates rest := by
  rw [pieces, if_pos marks]
  rintro after rfl rfl
  exact alone rfl after rfl

theorem pieces_append {tail : List Code}
    (free : ∀ character ∈ piece, separates character = false)
    (opens : pieces separates tail = [] :: others) :
    pieces separates (piece ++ tail) = piece :: others := by
  induction piece with
  | nil => exact opens
  | cons character piece ih =>
      obtain ⟨here, later⟩ := List.forall_mem_cons.mp free
      rw [List.cons_append, pieces_cons_free here, ih later]
      rfl

theorem pieces_of_free (free : ∀ character ∈ piece, separates character = false) :
    pieces separates piece = [piece] := by
  have whole : pieces separates (piece ++ []) = [piece] := pieces_append free rfl
  rwa [List.append_nil] at whole

/-- There is only one way to divide a text. -/
theorem Divides.eq_pieces (division : Divides separates text others) :
    others = pieces separates text := by
  induction division with
  | @last piece free => exact (pieces_of_free free).symm
  | @pair piece rest others free marks _ ih =>
      refine (pieces_append free ?_).symm
      rw [pieces, if_pos marks, ih]
  | @single piece rest mark others free marks alone _ ih =>
      refine (pieces_append free ?_).symm
      rw [pieces_cons_mark marks alone, ih]

theorem Divides.free (division : Divides separates text others) :
    ∀ piece ∈ others, ∀ character ∈ piece, separates character = false := by
  induction division with
  | last free =>
      intro piece member
      rw [List.mem_singleton.mp member]
      exact free
  | pair free _ _ ih => exact List.forall_mem_cons.mpr ⟨free, ih⟩
  | single free _ _ _ ih => exact List.forall_mem_cons.mpr ⟨free, ih⟩

theorem Divides.subset (division : Divides separates text others) :
    ∀ piece ∈ others, piece ⊆ text := by
  induction division with
  | last => exact List.forall_mem_singleton.mpr (List.Subset.refl _)
  | pair _ _ _ ih | single _ _ _ _ ih =>
      refine List.forall_mem_cons.mpr ⟨List.subset_append_left _ _, fun piece member => ?_⟩
      intro character inside
      simp [ih piece member inside]

/-! ### Pieces that are kept

Where empty pieces do not count, what is kept of a text is what is kept of its parts between any
separators, also where a return at the end of one part and a feed behind it become one separator. -/

section Kept

variable {keeps : List Code → Bool} {mark : Code} {marks : List Code}

theorem filter_empty_cons (empty : keeps [] = false) (others : List (List Code)) :
    ([] :: others).filter keeps = others.filter keeps :=
  List.filter_cons_of_neg (by simp [empty])

theorem pieces_behind_mark (empty : keeps [] = false) (feeds : separates '\n' = true)
    (separated : separates mark = true) (rest : List Code) :
    ∃ others, pieces separates (mark :: rest) = [] :: others ∧
      others.filter keeps = (pieces separates rest).filter keeps := by
  by_cases pair : ∃ after, mark = '\r' ∧ rest = Code.char '\n' :: after
  · obtain ⟨after, rfl, rfl⟩ := pair
    have one : pieces separates ('\n' :: after) = [] :: pieces separates after :=
      pieces_cons_mark feeds fun same => absurd same (by decide)
    refine ⟨pieces separates after, by rw [pieces, if_pos separated], ?_⟩
    rw [one, filter_empty_cons empty]
  · exact ⟨_, pieces_cons_mark separated fun same after next => pair ⟨after, same, next⟩, rfl⟩

theorem filter_pieces_mark (empty : keeps [] = false) (feeds : separates '\n' = true)
    (separated : separates mark = true) (rest : List Code) :
    (pieces separates (mark :: rest)).filter keeps = (pieces separates rest).filter keeps := by
  obtain ⟨others, opens, kept⟩ := pieces_behind_mark empty feeds separated rest
  rw [opens, filter_empty_cons empty, kept]

theorem filter_pieces_marks (empty : keeps [] = false) (feeds : separates '\n' = true)
    (separated : ∀ mark ∈ marks, separates mark = true) (rest : List Code) :
    (pieces separates (marks ++ rest)).filter keeps = (pieces separates rest).filter keeps := by
  induction marks with
  | nil => rfl
  | cons mark marks ih =>
      obtain ⟨here, later⟩ := List.forall_mem_cons.mp separated
      rw [List.cons_append, filter_pieces_mark empty feeds here, ih later]

theorem filter_pieces_piece (empty : keeps [] = false) (feeds : separates '\n' = true)
    (free : ∀ character ∈ piece, separates character = false) (separated : separates mark = true)
    (rest : List Code) :
    (pieces separates (piece ++ mark :: rest)).filter keeps =
      [piece].filter keeps ++ (pieces separates rest).filter keeps := by
  obtain ⟨others, opens, kept⟩ := pieces_behind_mark empty feeds separated rest
  rw [pieces_append free opens, ← kept, ← List.filter_append, List.singleton_append]

theorem filter_pieces_append (empty : keeps [] = false) (feeds : separates '\n' = true)
    (separated : separates mark = true) (first second : List Code) :
    (pieces separates (first ++ mark :: second)).filter keeps =
      (pieces separates first).filter keeps ++ (pieces separates second).filter keeps := by
  -- Only the last piece of the first text meets the separator, so the induction is on its division.
  have division := divides_pieces separates first
  generalize pieces separates first = cut at division
  induction division with
  | last free => exact filter_pieces_piece empty feeds free separated second
  | pair free marks _ ih =>
      rw [List.append_assoc, List.cons_append, List.cons_append,
        filter_pieces_piece empty feeds free marks, filter_pieces_mark empty feeds feeds, ih,
        ← List.append_assoc, ← List.filter_append, List.singleton_append]
  | single free marks _ _ ih =>
      rw [List.append_assoc, List.cons_append, filter_pieces_piece empty feeds free marks, ih,
        ← List.append_assoc, ← List.filter_append, List.singleton_append]

theorem filter_pieces_joined (empty : keeps [] = false) (feeds : separates '\n' = true)
    (filled : marks ≠ []) (separated : ∀ mark ∈ marks, separates mark = true)
    (first second : List Code) :
    (pieces separates (first ++ (marks ++ second))).filter keeps =
      (pieces separates first).filter keeps ++ (pieces separates second).filter keeps := by
  cases marks with
  | nil => exact absurd rfl filled
  | cons mark marks =>
      obtain ⟨here, later⟩ := List.forall_mem_cons.mp separated
      rw [List.cons_append, filter_pieces_append empty feeds here,
        filter_pieces_marks empty feeds later]

theorem filter_pieces_intercalate (empty : keeps [] = false) (feeds : separates '\n' = true)
    (filled : marks ≠ []) (separated : ∀ mark ∈ marks, separates mark = true)
    (texts : List (List Code)) :
    (pieces separates (marks.intercalate texts)).filter keeps =
      texts.flatMap fun text => (pieces separates text).filter keeps := by
  induction texts with
  | nil =>
      exact filter_empty_cons empty []
  | cons text rest ih =>
      by_cases last : rest = []
      · subst last
        simp
      · rw [List.intercalate_cons_of_ne_nil last, List.append_assoc,
          filter_pieces_joined empty feeds filled separated, ih, List.flatMap_cons]

end Kept

/-! ### The last place of a character -/

theorem cutLast_of_absent {mark : Code} (absent : mark ∉ text) : cutLast mark text = none := by
  induction text with
  | nil => rfl
  | cons character rest ih =>
      rw [List.mem_cons, not_or] at absent
      rw [cutLast, ih absent.2]
      exact if_neg (Ne.symm absent.1)

theorem cutLast_append {mark : Code} {after : List Code} (absent : mark ∉ after)
    (before : List Code) : cutLast mark (before ++ mark :: after) = some (before, after) := by
  induction before with
  | nil =>
      rw [List.nil_append, cutLast, cutLast_of_absent absent]
      exact if_pos rfl
  | cons character before ih => rw [List.cons_append, cutLast, ih]

theorem exists_last {mark : Code} (present : mark ∈ text) :
    ∃ before after, text = before ++ mark :: after ∧ mark ∉ after := by
  induction text with
  | nil => cases present
  | cons character rest ih =>
      by_cases later : mark ∈ rest
      · obtain ⟨before, after, rfl, absent⟩ := ih later
        exact ⟨character :: before, after, rfl, absent⟩
      · have same : mark = character := (List.mem_cons.mp present).resolve_right later
        exact ⟨[], rest, by rw [same, List.nil_append], later⟩

end SecretFill.Text
