import SecretFill.Proofs.Yaml.Outline
import SecretFill.Yaml.Reading
/-!
Texts of whole streams. Every text that the writer makes of some outlines is read to its end, as the
tokens of the outlines with the markers between them.
-/

namespace SecretFill.Yaml

open Layout Writing
open Token (Kind)

def Outline.documentKinds (marked : Bool) (outline : Outline) : List Kind :=
  (if marked then [.documentStart] else []) ++ outline.kinds outline.anchors false true

/-- A document may be ended by a marker. -/
def EndKinds (kinds : List Kind) : Prop := kinds = [] ∨ kinds = [.documentEnd]

namespace Page

/-- What is written at the start of a line, up to the end of the text, is read as some tokens. -/
structure Ends (page : Page) (kinds : List Kind) (after : Page) : Prop where
  body : ∃ body, page.Adds body after ∧ Token.Boundary body ∧ Token.Scan.Opens body ∧
    ∀ before : List Kind, (⟨body, 0, before, -1, [], true⟩ : Token.Spot).Leads
      ⟨[], 0, before ++ kinds, -1, [], true⟩

theorem kinds_alone (anchors : List Nat) (fresh : Bool) (outline : Outline) :
    outline.kinds anchors false fresh = outline.kinds anchors false true := by
  cases outline with
  | «alias» cell => rfl
  | scalar cell written => rfl
  | mapping cell tag entries => rfl
  | sequence cell items =>
      cases items with
      | nil => rfl
      | cons item rest => rfl

theorem ends_finish {page : Page} (opens : page.Opens 0) :
    ∃ kinds, EndKinds kinds ∧ page.Ends kinds (finish page) := by
  -- A page that is open at its end gets a marker, which is a line of its own.
  cases open' : page.openEnded with
  | false =>
      refine ⟨[], .inl rfl, [], ?_, .inl rfl, ?_, ?_⟩
      · rw [finish, open', if_neg Bool.false_ne_true]
        exact .refl page
      · rintro character ⟨⟩
      · intro before
        rw [List.append_nil]
        exact Token.leads_refl _
  | true =>
      have marker := @adds_indicator page ['.', '.', '.'] false (by decide)
      rw [spaceBefore, opens.spaced, if_pos rfl, List.nil_append] at marker
      obtain ⟨line, -⟩ := @newLine_breaks (page.indicator ['.', '.', '.'] true) 0 (.inl (by simp))
      refine ⟨[.documentEnd], .inr rfl, ['.', '.', '.', '\n'], ?_, .inr rfl, ?_, ?_⟩
      · rw [finish, open', if_pos rfl]
        exact marker.trans line
      · rintro character ⟨⟩
        decide
      · intro before
        exact @Token.leads_marker before true ['\n'] [] true '.' (.inr rfl) (.line 0)
          (List.cons_ne_nil _ _) (by rintro character ⟨⟩)

theorem ends_content {page middle after : Page} {kinds later : List Kind}
    (puts : page.Puts (-1) kinds middle) (ends : (middle.newLine 0).Ends later after) :
    ∃ between crossed body, Token.Scan.Gap between crossed ∧ (between ≠ [] ↔ page.spaced = false) ∧
      page.Adds (between ++ body) after ∧ Token.Scan.Opens body ∧
      ∀ before : List Kind,
        (⟨body, columnOver page.column between, before, -1, [], page.fresh || crossed⟩ :
            Token.Spot).Leads
          ⟨[], 0, before ++ (kinds ++ later), -1, [], true⟩ := by
  obtain ⟨between, crossed, core, gap, filled, starts, adds, reads⟩ := puts.core
  obtain ⟨rest, more, boundary, opens, leads⟩ := ends.body
  obtain ⟨line, -⟩ := @newLine_breaks middle 0 (.inl puts.used)
  refine ⟨between, crossed, core ++ Code.char '\n' :: rest, gap, filled, ?_, starts.opens _,
      fun before => ?_⟩
  · have together := (adds.trans line).trans more
    simpa only [List.append_assoc, List.cons_append, List.replicate_zero, List.nil_append] using
      together
  · have first := reads 0 rest opens (.inr ⟨rfl, boundary⟩) before []
    have together := first.trans (leads (before ++ kinds))
    rwa [List.append_assoc] at together

theorem opens_newLine {page : Page} (used : page.fresh = false) : (page.newLine 0).Opens 0 :=
  (@newLine_breaks page 0 (.inl used)).2

theorem opensWithMarker_dashes {rest : List Code} (apart : isGapOrEnd (rest.headD endMark) = true) :
    Token.opensWithMarker ([Code.char '-', '-', '-'] ++ rest) = true := by
  have fourth : Cursor.peekAt ⟨[Code.char '-', '-', '-'] ++ rest, ⟨0, 0, 0⟩⟩ 3 = rest.headD endMark := by
    cases rest <;> rfl
  have there : Cursor.atMarker ⟨[Code.char '-', '-', '-'] ++ rest, ⟨0, 0, 0⟩⟩ '-' = true := by
    simp only [Cursor.atMarker, fourth, apart, Bool.and_true]
    rfl
  exact Bool.or_eq_true_iff.mpr (.inl there)

theorem ends_documents {outlines : List Outline}
    (fits : ∀ outline ∈ outlines, outline.Fits outline.anchors 0) {page : Page}
    (opens : page.Opens 0) :
    ∃ ends, EndKinds ends ∧ page.Ends (outlines.flatMap (Outline.documentKinds true) ++ ends)
      (finish (outlines.foldl (writeDocument true) page)) := by
  induction outlines generalizing page with
  | nil => exact ends_finish opens
  | cons outline rest ih =>
      obtain ⟨here, later⟩ := List.forall_mem_cons.mp fits
      have marker := @adds_indicator page ['-', '-', '-'] false (by decide)
      rw [spaceBefore, opens.spaced, if_pos rfl, List.nil_append] at marker
      have column : (page.indicator ['-', '-', '-'] true).column = 3 := by
        rw [marker.column, opens.column]
        rfl
      have awaits : (page.indicator ['-', '-', '-'] true).Awaits ⟨none, false, false⟩ := by
        apply Awaits.used
        · rw [column]
          decide
        · rfl
        · simp
      have puts := puts_node outline.anchors outline here .root awaits
      rw [kinds_alone] at puts
      obtain ⟨ends, known, more⟩ := ih later (opens_newLine puts.used)
      obtain ⟨between, crossed, body, gap, filled, adds, bodyOpens, leads⟩ := ends_content puts more
      refine ⟨ends, known, [Code.char '-', '-', '-'] ++ (between ++ body), ?_, .inr ?_, ?_,
          fun before => ?_⟩
      · rw [List.foldl_cons, writeDocument, if_pos rfl, newLine_stays opens]
        exact marker.trans adds
      · exact opensWithMarker_dashes (Token.gap_ends gap (filled.mpr rfl) body)
      · rintro character ⟨⟩
        decide
      -- The marker comes first, and then what is read of the document.
      · have first := @Token.leads_marker before true between body crossed '-' (.inl rfl) gap
          (filled.mpr rfl) bodyOpens
        have second := leads (before ++ [.documentStart])
        rw [column] at second
        have fresh : ((page.indicator ['-', '-', '-'] true).fresh || crossed) = crossed := by simp
        rw [fresh] at second
        simpa [Outline.documentKinds, List.append_assoc] using first.trans second

end Page

def streamKinds (outlines : List Outline) (ends : List Kind) : List Kind :=
  .streamStart :: (outlines.flatMap (Outline.documentKinds (outlines.length != 1)) ++ ends) ++
    [.streamEnd]

theorem unacceptable?_eq_none {text : List Code}
    (acceptable : ∀ character ∈ text, isAcceptable character = true) (position : Nat) :
    unacceptable? position text = none := by
  induction text generalizing position with
  | nil => rfl
  | cons character rest ih =>
      obtain ⟨here, later⟩ := List.forall_mem_cons.mp acceptable
      rw [unacceptable?, if_pos here]
      exact ih later _

structure Scanned (text : List Code) (kinds : List Kind) : Prop where
  acceptable : unacceptable? 0 text = none
  tokens : ∃ tokens, Token.ofText text = (tokens, none) ∧ tokens.map Token.kind = kinds

theorem scanned_page {after : Page} {body : List Code} {kinds : List Kind}
    (adds : Page.blank.Adds body after) (opens : Token.Scan.Opens body)
    (leads : (⟨body, 0, [.streamStart], -1, [], true⟩ : Token.Spot).Leads
      ⟨[], 0, .streamStart :: kinds, -1, [], true⟩) :
    Scanned after.text.toList (.streamStart :: kinds ++ [.streamEnd]) := by
  have text : after.text.toList = body := by
    rw [Page.text, adds.written]
    simp [Page.blank]
  rw [text]
  constructor
  · exact unacceptable?_eq_none adds.acceptable 0
  · exact Token.ofText_of_leads opens leads

/-- What is written of some outlines is read as their tokens. -/
theorem scanned_written {outlines : List Outline}
    (fits : ∀ outline ∈ outlines, outline.Fits outline.anchors 0) :
    ∃ ends, EndKinds ends ∧
      Scanned (finish
        (outlines.foldl (writeDocument (outlines.length != 1)) Page.blank)).text.toList
        (streamKinds outlines ends) := by
  have blank : Page.blank.Opens 0 := ⟨rfl, rfl, rfl⟩
  cases marked : outlines.length != 1 with
  | true =>
      obtain ⟨ends, known, body, adds, -, opens, leads⟩ := Page.ends_documents fits blank
      refine ⟨ends, known, ?_⟩
      rw [streamKinds, marked]
      exact scanned_page adds opens (leads [.streamStart])
  | false =>
      -- A document without a marker is the only one, and begins at the start of the text.
      obtain ⟨outline, rfl⟩ : ∃ outline, outlines = [outline] := by
        apply List.length_eq_one_iff.mp
        simpa using marked
      have puts := Page.puts_node outline.anchors outline (fits outline List.mem_cons_self) .root
        (.start rfl blank)
      obtain ⟨ends, known, more⟩ := Page.ends_finish (Page.opens_newLine puts.used)
      obtain ⟨between, crossed, body, gap, filled, adds, opens, leads⟩ := Page.ends_content puts more
      refine ⟨ends, known, ?_⟩
      cases between with
      | cons first later => cases filled.mp (List.cons_ne_nil first later)
      | nil =>
          rw [streamKinds, marked]
          have scanned := scanned_page adds opens (leads [.streamStart])
          simpa [Outline.documentKinds, Page.blank, writeDocument] using scanned

end SecretFill.Yaml
