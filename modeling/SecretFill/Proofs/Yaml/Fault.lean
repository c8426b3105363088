import SecretFill.Proofs.Outcome
import SecretFill.Yaml.Node
/-!
How scanning and parsing fail. Nearly all that is wrong with the syntax of a text is reported with
the place where it was found; two faults are not, a version with too many digits and an escape for a
number beyond the code points. It is so from the words to the nodes of a document.
-/

namespace SecretFill.Yaml

open SecretFill.Decimal

/-- A failure that the syntax of a text gives rise to. -/
def Syntactic : Failure → Prop
  | .scalar (.number (.tooManyDigitsRead count)) => maxDigits < count
  | .scalar (.codePoint code) => 0x110000 ≤ code
  | .scalar _ => False
  | _ => True

abbrev Scans {α : Type} (outcome : Except Failure α) : Prop :=
  EndsWith (fun _ => True) Syntactic outcome

namespace Token

/-! ### Words -/

variable {activity reading escaping : Activity} {start : Mark} {cursor : Cursor}

theorem scans_word {ends : Code → Bool} : Scans (word activity start ends cursor) := by
  unfold word
  refine .ite (fun _ => trivial) fun _ => .ite (fun _ => trivial) fun _ => trivial

theorem scans_endOfHeader : Scans (endOfHeader activity start cursor) := by
  unfold endOfHeader
  exact .ite (fun _ => trivial) fun _ => trivial

theorem scans_versionNumber : Scans (versionNumber start cursor) := by
  unfold versionNumber
  exact .ite (fun _ => trivial) fun _ => .ite (fun long => long) fun _ => trivial

theorem scans_versionDirective : Scans (versionDirective start cursor) := by
  unfold versionDirective
  refine scans_versionNumber.bind fun major _ => .ite (fun _ => trivial) fun _ => ?_
  refine scans_versionNumber.bind fun minor _ => ?_
  exact .ite (fun _ => trivial) fun _ => trivial

theorem scans_tagHandle : Scans (tagHandle activity start cursor) := by
  unfold tagHandle
  refine .ite (fun _ => trivial) fun _ => .ite (fun _ => trivial) fun _ => ?_
  exact .ite (fun _ => trivial) fun _ => trivial

theorem scans_uriBytes (bound : List Code) : Scans (uriBytes activity start bound cursor) := by
  induction bound generalizing cursor with
  | nil => trivial
  | cons _ bound ih =>
      unfold uriBytes
      refine .ite (fun _ => trivial) fun _ => .ite (fun _ => trivial) fun _ => ?_
      refine .ite (fun _ => trivial) fun _ => ?_
      exact ih.bind fun _ _ => trivial

theorem scans_uriEscapes : Scans (uriEscapes activity start cursor) := by
  unfold uriEscapes
  refine (scans_uriBytes _).bind fun ⟨bytes, rest⟩ _ => ?_
  dsimp only
  split <;> trivial

theorem scans_uriCharacters (bound : List Code) :
    Scans (uriCharacters activity start bound cursor) := by
  induction bound generalizing cursor with
  | nil => trivial
  | cons _ bound ih =>
      unfold uriCharacters
      refine .ite (fun _ => ?_) fun _ => .ite (fun _ => ?_) fun _ => trivial
      · exact scans_uriEscapes.bind fun _ _ => ih.bind fun _ _ => trivial
      · exact ih.bind fun _ _ => trivial

theorem scans_tagUri : Scans (tagUri reading escaping start cursor) := by
  unfold tagUri
  exact (scans_uriCharacters _).bind fun _ _ => .ite (fun _ => trivial) fun _ => trivial

theorem scans_tagDirective : Scans (tagDirective start cursor) := by
  unfold tagDirective
  refine scans_tagHandle.bind fun handle _ => .ite (fun _ => trivial) fun _ => ?_
  exact scans_tagUri.bind fun uri _ => .ite (fun _ => trivial) fun _ => trivial

theorem scans_directive : Scans (directive cursor) := by
  unfold directive
  refine scans_word.bind fun name _ => .ite (fun _ => ?_) fun _ => .ite (fun _ => ?_) fun _ => ?_
  · exact scans_versionDirective.bind fun _ _ => scans_endOfHeader.bind fun _ _ => trivial
  · exact scans_tagDirective.bind fun _ _ => scans_endOfHeader.bind fun _ _ => trivial
  · exact scans_endOfHeader.bind fun _ _ => trivial

theorem scans_anchor : Scans (anchor cursor) := by
  unfold anchor
  exact scans_word.bind fun _ _ => trivial

theorem scans_tag : Scans (tag cursor) := by
  unfold tag
  have closed (handle : Option Text) (suffix : Text) (rest : Cursor) : Scans
      (if isSpaceOrEnd rest.peek then
        Except.ok ((⟨.tag handle suffix, cursor.mark, rest.mark⟩ : Token), rest)
      else .error (unexpected .tag cursor.mark .space rest)) :=
    .ite (fun _ => trivial) fun _ => trivial
  refine .ite (fun _ => ?_) fun _ => .ite (fun _ => closed _ _ _) fun _ =>
    .ite (fun _ => ?_) fun _ => ?_
  · exact scans_tagUri.bind fun _ _ => .ite (fun _ => trivial) fun _ => closed _ _ _
  · exact scans_tagHandle.bind fun _ _ => scans_tagUri.bind fun _ _ => closed _ _ _
  · exact scans_tagUri.bind fun _ _ => closed _ _ _

/-! ### Scalars -/

theorem scans_quotedBreaks (bound : List Code) : Scans (quotedBreaks start bound cursor) := by
  induction bound generalizing cursor with
  | nil => trivial
  | cons _ bound ih =>
      unfold quotedBreaks
      refine .ite (fun _ => trivial) fun _ => .ite (fun _ => ?_) fun _ => trivial
      exact ih.bind fun _ _ => trivial

theorem scans_quotedGap : Scans (quotedGap start cursor) := by
  unfold quotedGap
  refine .ite (fun _ => trivial) fun _ => .ite (fun _ => ?_) fun _ => trivial
  exact (scans_quotedBreaks _).bind fun _ _ => trivial

theorem scans_escapedCharacter (code : Nat) : Scans (escapedCharacter code) := by
  unfold escapedCharacter
  exact .ite (fun _ => trivial) fun beyond => Nat.le_of_not_lt beyond

theorem scans_escape : Scans (escape start cursor) := by
  unfold escape
  dsimp only
  split
  · trivial
  · split
    · split
      · trivial
      · exact (scans_escapedCharacter _).bind fun _ _ => trivial
    · exact .ite (fun _ => scans_quotedBreaks _) fun _ => trivial

theorem scans_quotedBody (double : Bool) (bound : List Code) :
    Scans (quotedBody double start bound cursor) := by
  induction bound generalizing cursor with
  | nil => trivial
  | cons _ bound ih =>
      unfold quotedBody
      have goOn (text : List Code) (cursor : Cursor) : Scans (do
          let body ← quotedBody double start bound cursor
          .ok (text ++ body.1, body.2)) := ih.bind fun _ _ => trivial
      refine .ite (fun _ => ?_) fun _ => .ite (fun _ => ?_) fun _ => .ite (fun _ => ?_) fun _ => ?_
      · exact scans_quotedGap.bind fun _ _ => goOn _ _
      · refine .ite (fun _ => trivial) fun _ => .ite (fun _ => ?_) fun _ => goOn _ _
        exact scans_escape.bind fun _ _ => goOn _ _
      · exact .ite (fun _ => goOn _ _) fun _ => trivial
      · exact goOn _ _

theorem scans_quoted (double : Bool) : Scans (quoted double cursor) := by
  unfold quoted
  exact (scans_quotedBody double _).bind fun _ _ => trivial

theorem scans_increment? : Scans (increment? start cursor) := by
  unfold increment?
  exact .ite (fun _ => trivial) fun _ => .ite (fun _ => trivial) fun _ => trivial

theorem scans_blockHeader : Scans (blockHeader start cursor) := by
  unfold blockHeader
  have closed (chomping : Chomping) (increment : Option Nat) (rest : Cursor) : Scans
      (if isSpaceOrEnd rest.peek then Except.ok (chomping, increment, rest)
        else .error (unexpected .blockScalar start .blockIndicators rest)) :=
    .ite (fun _ => trivial) fun _ => trivial
  dsimp only
  split
  · exact scans_increment?.bind fun _ _ => closed _ _ _
  · refine scans_increment?.bind fun ⟨increment, rest⟩ _ => ?_
    dsimp only
    split <;> exact closed _ _ _

theorem scans_block (folded : Bool) (parent : Int) : Scans (block folded parent cursor) := by
  unfold block
  exact scans_blockHeader.bind fun _ _ => scans_endOfHeader.bind fun _ _ => trivial

/-! ### Token after token -/

namespace Scan

theorem scans_dropStale (scan : Scan) : Scans scan.dropStale := by
  unfold dropStale
  split <;> trivial

theorem scans_dropCandidate (scan : Scan) : Scans scan.dropCandidate := by
  unfold dropCandidate
  split
  · trivial
  · exact .ite (fun _ => trivial) fun _ => trivial

theorem scans_saveCandidate (scan : Scan) : Scans scan.saveCandidate := by
  unfold saveCandidate
  refine .ite (fun _ => trivial) fun _ => ?_
  exact scan.scans_dropCandidate.bind fun _ _ => trivial

theorem scans_leaveDocument (scan : Scan) : Scans scan.leaveDocument :=
  (scans_dropCandidate _).bind fun _ _ => trivial

theorem scans_directive (scan : Scan) : Scans scan.directive :=
  scan.scans_leaveDocument.bind fun _ _ => Token.scans_directive.bind fun _ _ => trivial

theorem scans_blockEntry (scan : Scan) : Scans scan.blockEntry := by
  unfold blockEntry
  have entered (scan : Scan) : Scans (do
      let scan ← { scan with keyAllowed := true }.dropCandidate
      .ok (scan.pushIndicator .blockEntry 1)) := (scans_dropCandidate _).bind fun _ _ => trivial
  exact .ite (fun _ => entered _) fun _ => .ite (fun _ => entered _) fun _ => trivial

theorem scans_key (scan : Scan) : Scans scan.key := by
  unfold key
  have entered (scan : Scan) : Scans (do
      let scan ← { scan with keyAllowed := scan.flow == 0 }.dropCandidate
      .ok (scan.pushIndicator .key 1)) := (scans_dropCandidate _).bind fun _ _ => trivial
  exact .ite (fun _ => entered _) fun _ => .ite (fun _ => entered _) fun _ => trivial

theorem scans_value (scan : Scan) : Scans scan.value := by
  unfold value
  have entered (scan : Scan) : Scans (do
      let scan ← { scan with keyAllowed := scan.flow == 0 }.dropCandidate
      .ok (scan.pushIndicator .value 1)) := (scans_dropCandidate _).bind fun _ _ => trivial
  dsimp only
  split
  · trivial
  · exact .ite (fun _ => entered _) fun _ => .ite (fun _ => entered _) fun _ => trivial

theorem scans_node (scan : Scan) {read : Cursor → Except Failure (Token × Cursor)}
    (reads : ∀ cursor, Scans (read cursor)) : Scans (scan.node read) :=
  scan.scans_saveCandidate.bind fun _ _ => (reads _).bind fun _ _ => trivial

theorem scans_blockScalar (scan : Scan) (folded : Bool) : Scans (scan.blockScalar folded) :=
  (scans_dropCandidate _).bind fun _ _ => (scans_block folded _).bind fun _ _ => trivial

theorem scans_dispatch (scan : Scan) : Scans scan.dispatch := by
  unfold dispatch
  have left (next : Scan → Scan) : Scans (do .ok (next (← scan.leaveDocument))) :=
    scan.scans_leaveDocument.bind fun _ _ => trivial
  have saved (next : Scan → Scan) : Scans (do .ok (next (← scan.saveCandidate))) :=
    scan.scans_saveCandidate.bind fun _ _ => trivial
  have dropped (next : Scan → Scan) : Scans (do .ok (next (← scan.dropCandidate))) :=
    scan.scans_dropCandidate.bind fun _ _ => trivial
  refine .ite (fun _ => left _) fun _ => ?_
  refine .ite (fun _ => scan.scans_directive) fun _ => ?_
  refine .ite (fun _ => left _) fun _ => .ite (fun _ => left _) fun _ => ?_
  refine .ite (fun _ => saved _) fun _ => .ite (fun _ => saved _) fun _ => ?_
  refine .ite (fun _ => dropped _) fun _ => .ite (fun _ => dropped _) fun _ => ?_
  refine .ite (fun _ => (scans_dropCandidate _).bind fun _ _ => trivial) fun _ => ?_
  refine .ite (fun _ => scan.scans_blockEntry) fun _ => ?_
  refine .ite (fun _ => scan.scans_key) fun _ => .ite (fun _ => scan.scans_value) fun _ => ?_
  refine .ite (fun _ => scan.scans_node fun _ => scans_anchor) fun _ => ?_
  refine .ite (fun _ => scan.scans_node fun _ => scans_tag) fun _ => ?_
  refine .ite (fun _ => scan.scans_blockScalar _) fun _ => ?_
  refine .ite (fun _ => scan.scans_blockScalar _) fun _ => ?_
  refine .ite (fun _ => scan.scans_node fun _ => scans_quoted _) fun _ => ?_
  refine .ite (fun _ => scan.scans_node fun _ => scans_quoted _) fun _ => ?_
  exact .ite (fun _ => saved _) fun _ => trivial

theorem scans_step (scan : Scan) : Scans scan.step :=
  (scans_dropStale _).bind fun _ _ => (scans_dispatch _).bind fun after _ =>
    .ite (fun _ => trivial) fun _ => after.scans_dropStale

theorem run_syntactic (fuel : Nat) (scan : Scan) {failure : Failure}
    (failed : (run fuel scan).2 = some failure) : Syntactic failure := by
  induction fuel generalizing scan with
  | zero => cases failed
  | succ fuel ih =>
      unfold run at failed
      split at failed
      · cases failed
      · split at failed
        · exact ih _ failed
        · next stopped =>
            cases failed
            exact scan.scans_step.of_eq_error stopped

end Scan

theorem ofText_syntactic {text : List Code} {failure : Failure}
    (failed : (ofText text).2 = some failure) : Syntactic failure :=
  Scan.run_syntactic _ _ failed

end Token

/-! ### Events -/

namespace Event

variable {reader : Reader}

/-- Whatever ended the tokens of a reader was a matter of the syntax. -/
def Reader.Sound (reader : Reader) : Prop :=
  ∀ failure, reader.failure = some failure → Syntactic failure

abbrev Parses (outcome : Except Failure (Event × Reader)) : Prop :=
  EndsWith (fun result => result.2.Sound) Syntactic outcome

theorem Reader.Sound.peek (sound : reader.Sound) : Scans reader.peek := by
  unfold Reader.peek
  split
  · trivial
  · cases stopped : reader.failure with
    | none => trivial
    | some failure => exact sound failure stopped

theorem Reader.Sound.skip (sound : reader.Sound) : reader.skip.Sound := sound

theorem Reader.Sound.leave (sound : reader.Sound) : reader.leave.Sound := by
  unfold Reader.leave
  split <;> exact sound

theorem Reader.Sound.close (sound : reader.Sound) : reader.close.Sound := sound.leave

theorem parses_directives (bound : List Token) (version : Option (Nat × Nat))
    (handles : List (Text × Text)) (sound : reader.Sound) :
    EndsWith (fun result => result.1.Sound) Syntactic
      (directives reader bound version handles) := by
  induction bound generalizing reader version handles with
  | nil => exact sound
  | cons _ bound ih =>
      unfold directives
      refine sound.peek.bind fun token _ => ?_
      split
      · refine .ite (fun _ => trivial) fun _ => .ite (fun _ => trivial) fun _ => ?_
        exact ih _ _ sound
      · exact .ite (fun _ => trivial) fun _ => ih _ _ sound
      · exact ih _ _ sound
      · exact sound

theorem parses_skipEnds (bound : List Token) (sound : reader.Sound) :
    EndsWith Reader.Sound Syntactic (skipEnds reader bound) := by
  induction bound generalizing reader with
  | nil => exact sound
  | cons _ bound ih =>
      unfold skipEnds
      exact sound.peek.bind fun _ _ => .ite (fun _ => ih sound) fun _ => sound

theorem parses_explicitDocument (sound : reader.Sound) : Parses (explicitDocument reader) := by
  unfold explicitDocument
  refine (parses_skipEnds _ sound).bind fun reader sound => sound.peek.bind fun token _ => ?_
  refine .ite (fun _ => sound) fun _ => ?_
  refine (parses_directives _ _ _ sound).bind fun result sound => ?_
  exact sound.peek.bind fun _ _ => .ite (fun _ => trivial) fun _ => sound

theorem parses_firstDocument (sound : reader.Sound) : Parses (firstDocument reader) := by
  unfold firstDocument
  refine sound.peek.bind fun token _ => ?_
  dsimp only
  split
  iterate 3 exact parses_explicitDocument sound
  exact sound

theorem parses_documentEnd (sound : reader.Sound) : Parses (documentEnd reader) := by
  unfold documentEnd
  refine sound.peek.bind fun token _ => ?_
  show Reader.Sound (if token.kind = .documentEnd then reader.skip else reader)
  by_cases ends : token.kind = .documentEnd
  · rw [if_pos ends]
    exact sound
  · rw [if_neg ends]
    exact sound

theorem parses_readProperties (sound : reader.Sound) :
    EndsWith (fun result => result.2.Sound) Syntactic (readProperties reader) := by
  unfold readProperties
  refine sound.peek.bind fun token _ => ?_
  dsimp only
  split
  · refine sound.skip.peek.bind fun next _ => ?_
    split <;> exact sound
  · refine sound.skip.peek.bind fun next _ => ?_
    split <;> exact sound
  · exact sound

theorem scans_fullTag (reader : Reader) (written : Written) : Scans (fullTag reader written) := by
  unfold fullTag
  split
  · trivial
  · trivial
  · split <;> trivial

theorem parses_content (block indentless : Bool) (sound : reader.Sound) :
    Parses (content block indentless reader) := by
  unfold content
  refine (parses_readProperties sound).bind fun ⟨written, reader⟩ sound => ?_
  refine (scans_fullTag reader written).bind fun tag _ => sound.peek.bind fun token _ => ?_
  have missing (event : Event) (activity : Activity) (start : Mark) (condition : Bool) : Parses
      (if condition then .ok (event, reader.leave)
        else .error (.within activity start (.expectedContent token.kind.sign) token.start)) :=
    .ite (fun _ => sound.leave) fun _ => trivial
  dsimp only
  split
  · exact .ite (fun _ => sound) fun _ => missing _ _ _ _
  · exact sound.skip.leave
  · exact sound
  · exact sound
  · exact .ite (fun _ => sound) fun _ => missing _ _ _ _
  · exact .ite (fun _ => sound) fun _ => missing _ _ _ _
  · exact missing _ _ _ _

theorem parses_node (block indentless : Bool) (sound : reader.Sound) :
    Parses (node block indentless reader) := by
  unfold node
  refine sound.peek.bind fun token _ => ?_
  split
  · exact sound.skip.leave
  · exact parses_content block indentless sound

theorem parses_documentContent (sound : reader.Sound) : Parses (documentContent reader) := by
  unfold documentContent
  refine sound.peek.bind fun token _ => ?_
  split
  iterate 4 exact sound.leave
  exact parses_node _ _ sound

theorem parses_blockSequence (sound : reader.Sound) : Parses (blockSequence reader) := by
  unfold blockSequence
  refine sound.peek.bind fun token _ => ?_
  split
  · refine sound.skip.peek.bind fun next _ => ?_
    split
    iterate 2 exact sound
    exact parses_node _ _ sound
  · exact sound.skip.close
  · trivial

theorem parses_indentlessSequence (sound : reader.Sound) :
    Parses (indentlessSequence reader) := by
  unfold indentlessSequence
  refine sound.peek.bind fun token _ => ?_
  split
  · refine sound.skip.peek.bind fun next _ => ?_
    split
    iterate 4 exact sound
    exact parses_node _ _ sound
  · exact sound.leave

theorem parses_blockKey (sound : reader.Sound) : Parses (blockKey reader) := by
  unfold blockKey
  refine sound.peek.bind fun token _ => ?_
  split
  · refine sound.skip.peek.bind fun next _ => ?_
    split
    iterate 3 exact sound
    exact parses_node _ _ sound
  · exact sound.skip.close
  · trivial

theorem parses_blockValue (sound : reader.Sound) : Parses (blockValue reader) := by
  unfold blockValue
  refine sound.peek.bind fun token _ => ?_
  split
  · refine sound.skip.peek.bind fun next _ => ?_
    split
    iterate 3 exact sound
    exact parses_node _ _ sound
  · exact sound

theorem parses_flowComma (activity : Activity) (problem : Text → Problem) (first : Bool)
    (sound : reader.Sound) :
    EndsWith Reader.Sound Syntactic (flowComma activity problem first reader) := by
  unfold flowComma
  refine .ite (fun _ => sound) fun _ => sound.peek.bind fun token _ => ?_
  exact .ite (fun _ => sound) fun _ => trivial

theorem parses_flowSequence (first : Bool) (sound : reader.Sound) :
    Parses (flowSequence first reader) := by
  unfold flowSequence
  refine sound.peek.bind fun token _ => .ite (fun _ => ?_) fun _ => ?_
  · exact sound.skip.close
  · refine (parses_flowComma _ _ _ sound).bind fun reader sound => ?_
    refine sound.peek.bind fun token _ => ?_
    split
    · exact sound
    · exact sound.skip.close
    · exact parses_node _ _ sound

theorem parses_pairKey (sound : reader.Sound) : Parses (pairKey reader) := by
  unfold pairKey
  refine sound.peek.bind fun token _ => ?_
  refine sound.skip.peek.bind fun next _ => ?_
  split
  iterate 3 exact sound
  exact parses_node _ _ sound

theorem parses_pairValue (sound : reader.Sound) : Parses (pairValue reader) := by
  unfold pairValue
  refine sound.peek.bind fun token _ => ?_
  split
  · refine sound.skip.peek.bind fun next _ => ?_
    split
    iterate 2 exact sound
    exact parses_node _ _ sound
  · exact sound

theorem parses_flowKey (first : Bool) (sound : reader.Sound) : Parses (flowKey first reader) := by
  unfold flowKey
  refine sound.peek.bind fun token _ => .ite (fun _ => ?_) fun _ => ?_
  · exact sound.skip.close
  · refine (parses_flowComma _ _ _ sound).bind fun reader sound => ?_
    refine sound.peek.bind fun token _ => ?_
    split
    · refine sound.skip.peek.bind fun next _ => ?_
      split
      iterate 3 exact sound
      exact parses_node _ _ sound
    · exact sound.skip.close
    · exact parses_node _ _ sound

theorem parses_flowValue (sound : reader.Sound) : Parses (flowValue reader) := by
  unfold flowValue
  refine sound.peek.bind fun token _ => ?_
  split
  · refine sound.skip.peek.bind fun next _ => ?_
    split
    iterate 2 exact sound
    exact parses_node _ _ sound
  · exact sound

theorem parses_next? (sound : reader.Sound) :
    EndsWith (fun result => ∀ event after, result = some (event, after) → after.Sound) Syntactic
      (next? reader) := by
  have given {outcome : Except Failure (Event × Reader)} (parses : Parses outcome) :
      EndsWith (fun result => ∀ event after, result = some (event, after) → after.Sound) Syntactic
        (outcome.map some) := by
    refine parses.map fun result sound event after given => ?_
    cases given
    exact sound
  unfold next?
  dsimp only
  split
  · exact given (sound.peek.bind fun _ _ => sound)
  · exact given (parses_firstDocument sound)
  · exact given (parses_explicitDocument sound)
  · exact given (parses_documentContent sound)
  · exact given (parses_documentEnd sound)
  · exact given (parses_node _ _ sound)
  · exact given (parses_blockSequence sound)
  · exact given (parses_indentlessSequence sound)
  · exact given (parses_blockKey sound)
  · exact given (parses_blockValue sound)
  · exact given (parses_flowSequence _ sound)
  · exact given (parses_pairKey sound)
  · exact given (parses_pairValue sound)
  · exact given (sound.peek.bind fun _ _ => sound)
  · exact given (parses_flowKey _ sound)
  · exact given (parses_flowValue sound)
  · exact given (sound.peek.bind fun _ _ => sound)
  · exact fun _ _ ended => nomatch ended

theorem readAll_syntactic (fuel : Nat) (sound : reader.Sound) {failure : Failure}
    (failed : (readAll fuel reader).2 = some failure) : Syntactic failure := by
  induction fuel generalizing reader with
  | zero => cases failed
  | succ fuel ih =>
      unfold readAll at failed
      split at failed
      · next stopped =>
          cases failed
          exact (parses_next? sound).of_eq_error stopped
      · cases failed
      · next event after stepped =>
          exact ih ((parses_next? sound).of_eq_ok stepped event after rfl) failed

theorem ofText_syntactic {text : List Code} {failure : Failure}
    (failed : (ofText text).2 = some failure) : Syntactic failure :=
  readAll_syntactic _ (fun _ ended => Token.ofText_syntactic ended) failed

end Event

/-! ### Nodes -/

namespace Assembly

theorem scans_checkAnchor (assembly : Assembly) (anchor : Option Text) (mark : Mark) :
    Scans (assembly.checkAnchor anchor mark) := by
  unfold checkAnchor
  split
  · trivial
  · split <;> trivial

theorem scans_enter (assembly : Assembly) (properties : Properties) (default : Text)
    (content : Node.Content) (mark : Mark) :
    Scans (assembly.enter properties default content mark) :=
  (assembly.scans_checkAnchor _ _).bind fun _ _ => .ite (fun _ => trivial) fun _ => trivial

theorem scans_take (assembly : Assembly) (event : Event) : Scans (assembly.take event) := by
  unfold take
  split
  · split <;> trivial
  · exact (assembly.scans_checkAnchor _ _).bind fun _ _ => trivial
  · exact assembly.scans_enter _ _ _ _
  · exact assembly.scans_enter _ _ _ _
  iterate 3 trivial

end Assembly

theorem scans_ofEvents {failure : Option Failure}
    (syntactic : ∀ fault, failure = some fault → Syntactic fault) (assembly : Assembly)
    (events : List Event) : Scans (NodeGraph.ofEvents failure assembly events) := by
  induction events generalizing assembly with
  | nil =>
      cases failure with
      | none => trivial
      | some fault => exact syntactic fault rfl
  | cons event events ih =>
      unfold NodeGraph.ofEvents
      refine .ite (fun _ => trivial) fun _ => ?_
      split
      · exact ih _
      · next refused => exact (assembly.scans_take event).of_eq_error refused

end SecretFill.Yaml
