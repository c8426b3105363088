import SecretFill.Proofs.Text.Pieces
import SecretFill.Proofs.Workflow.Escape
import SecretFill.Workflow.Command
/-!
Commands read back. The runner cuts a line at the first two colons after the leading ones, the part
before them at its first blank, the properties at commas and each at its first equals sign, and then
undoes the escapes. Whatever the values and the message say, it finds the command that was issued,
and each command on one line of its own.
-/

namespace SecretFill.Workflow

open SecretFill.Text

namespace Command

def line (command : Command) : List Code :=
  Code.char ':' :: ':' :: command.name.toList ++ propertiesText command.properties ++
    Code.char ':' :: ':' :: escapeData command.message.toList

theorem characters_eq_line (command : Command) : command.characters =
    command.line ++ [Code.char '\n'] := rfl

def readProperty (text : List Code) : Option (Text × Text) :=
  (cutAt ['='] text).map fun (key, value) =>
    (Text.ofList key, Text.ofList (unescapeProperty value))

def readHeader (header : List Code) : Option (Text × List (Text × Text)) :=
  match cutAt [' '] header with
  | none => some (Text.ofList header, [])
  | some (name, properties) =>
      ((segments ',' properties).mapM readProperty).map fun properties =>
        (Text.ofList name, properties)

def read? (line : List Code) : Option Command := do
  let rest ← dropPrefix? [':', ':'] line
  let (header, data) ← cutAt [':', ':'] rest
  let (name, properties) ← readHeader header
  some ⟨name, properties, Text.ofList (unescapeData data)⟩

/-- Whether a command has a name and keys that the runner can tell apart from what follows them.
Values and the message may be any text. -/
structure Plain (command : Command) : Prop where
  name : ∀ character ∈ [Code.char ' ', ':', '\r', '\n'], character ∉ command.name.toList
  keys : ∀ property ∈ command.properties, ∀ character ∈ [Code.char '=', ',', ':', '\r', '\n'],
    character ∉ property.1.toList

theorem plain_of_name {name : Text} (message : Text)
    (named : ∀ character ∈ [Code.char ' ', ':', '\r', '\n'], character ∉ name.toList) :
    (mk name [] message).Plain where
  name := named
  keys := by
    intro property member
    cases member

theorem not_mem_escapeProperty {mark : Code} (escaped : mark ∈ [Code.char ':', ',', '\r', '\n'])
    (text : List Code) : mark ∉ escapeProperty text := by
  rw [escapeProperty, ← shown_propertyEscapes]
  apply not_mem_shown
  · revert mark
    decide
  · revert mark
    decide

theorem not_mem_escapeData {mark : Code} (escaped : mark ∈ [Code.char '\r', '\n']) (text : List Code) :
    mark ∉ escapeData text := by
  rw [escapeData, ← shown_dataEscapes]
  apply not_mem_shown
  · revert mark
    decide
  · revert mark
    decide

variable {command : Command}

theorem not_mem_propertyText {property : Text × Text} {mark : Code}
    (absent : mark ∉ property.1.toList) (other : mark ≠ '=')
    (escaped : mark ∈ [Code.char ':', ',', '\r', '\n']) : mark ∉ propertyText property := by
  rw [propertyText, List.mem_append, List.mem_cons]
  rintro (key | equals | value)
  · exact absent key
  · exact other equals
  · exact not_mem_escapeProperty escaped _ value

theorem mem_intercalate {mark : Code} {joint : List Code} {kept : List (List Code)}
    (member : mark ∈ joint.intercalate kept) : mark ∈ joint ∨ ∃ piece ∈ kept, mark ∈ piece := by
  induction kept with
  | nil => cases member
  | cons first others ih =>
      by_cases last : others = []
      · subst last
        rw [List.intercalate_singleton] at member
        exact .inr ⟨first, List.mem_cons_self, member⟩
      · rw [List.intercalate_cons_of_ne_nil last, List.mem_append, List.mem_append] at member
        rcases member with (here | between) | later
        · exact .inr ⟨first, List.mem_cons_self, here⟩
        · exact .inl between
        · rcases ih later with between | ⟨piece, inside, found⟩
          · exact .inl between
          · exact .inr ⟨piece, List.mem_cons_of_mem _ inside, found⟩

theorem not_mem_propertiesText (plain : command.Plain) {mark : Code}
    (escaped : mark ∈ [Code.char ':', '\r', '\n']) : mark ∉ propertiesText command.properties := by
  have common : ∀ mark ∈ [Code.char ':', '\r', '\n'], mark ∈ [Code.char '=', ',', ':', '\r', '\n'] ∧
      mark ∈ [Code.char ':', ',', '\r', '\n'] ∧ mark ≠ ' ' ∧ mark ≠ ',' ∧ mark ≠ '=' := by decide
  rcases common mark escaped with ⟨key, value, blank, comma, equals⟩
  intro member
  cases properties : command.properties with
  | nil =>
      rw [properties] at member
      cases member
  | cons first others =>
      have shape : propertiesText command.properties =
          Code.char ' ' :: [Code.char ','].intercalate (command.properties.map propertyText) := by
        rw [properties]
        rfl
      rw [shape, List.mem_cons] at member
      rcases member with first | member
      · exact blank first
      · rcases mem_intercalate member with between | ⟨piece, inside, found⟩
        · exact comma (List.mem_singleton.mp between)
        · rcases List.mem_map.mp inside with ⟨property, present, rfl⟩
          exact not_mem_propertyText (plain.keys property present mark key) equals value found

theorem readProperty_propertyText {property : Text × Text} (absent : Code.char '=' ∉ property.1.toList) :
    readProperty (propertyText property) = some property := by
  have cut := cutAt_append absent [] (escapeProperty property.2.toList)
  rw [readProperty, propertyText]
  rw [List.singleton_append] at cut
  rw [cut]
  simp [unescapeProperty_escapeProperty]

theorem mapM_readProperty {properties : List (Text × Text)}
    (absent : ∀ property ∈ properties, Code.char '=' ∉ property.1.toList) :
    (properties.map propertyText).mapM readProperty = some properties := by
  induction properties with
  | nil => rfl
  | cons first others ih =>
      rw [List.map_cons, List.mapM_cons,
        readProperty_propertyText (absent first List.mem_cons_self),
        ih fun property member => absent property (List.mem_cons_of_mem _ member)]
      rfl

-- Neither a key nor a value brings a comma, so the commas are those between the properties.
theorem readHeader_header (plain : command.Plain) :
    readHeader (command.name.toList ++ propertiesText command.properties) =
      some (command.name, command.properties) := by
  have blank := plain.name ' ' (by decide)
  cases properties : command.properties with
  | nil => simp [readHeader, propertiesText, cutAt_of_absent blank]
  | cons first others =>
      have cut := cutAt_append blank []
          ([Code.char ','].intercalate ((first :: others).map propertyText))
      have pieces : segments ',' ([Code.char ','].intercalate ((first :: others).map propertyText)) =
          (first :: others).map propertyText := by
        apply segments_intercalate (by simp)
        intro piece member
        rcases List.exists_of_mem_map member with ⟨property, present, rfl⟩
        exact not_mem_propertyText (plain.keys property (properties ▸ present) ',' (by decide))
          (by decide) (by decide)
      have read : ((first :: others).map propertyText).mapM readProperty = some (first :: others) :=
        mapM_readProperty fun property present =>
          plain.keys property (properties ▸ present) '=' (by decide)
      rw [List.singleton_append] at cut
      rw [readHeader, propertiesText, cut]
      · simp only [pieces, read, Option.map_some, Text.ofList_toList]
      · exact List.cons_ne_nil _ _

theorem read?_line (plain : command.Plain) : read? command.line = some command := by
  -- The first two colons after the leading ones are those before the data, which are not looked into.
  have colon : Code.char ':' ∉ command.name.toList ++ propertiesText command.properties := by
    rw [List.mem_append]
    rintro (name | properties)
    · exact plain.name ':' (by decide) name
    · exact not_mem_propertiesText plain (by decide) properties
  have shape : command.line = [Code.char ':', ':'] ++ ((command.name.toList ++
      propertiesText command.properties) ++
        ([Code.char ':', ':'] ++ escapeData command.message.toList)) := by
    simp [line]
  rw [read?, shape, dropPrefix?_append]
  simp only [Option.bind_eq_bind, Option.bind_some, cutAt_append colon, readHeader_header plain,
    unescapeData_escapeData, Text.ofList_toList]

theorem not_mem_line (plain : command.Plain) {mark : Code} (ends : mark ∈ [Code.char '\r', '\n']) :
    mark ∉ command.line := by
  have common : ∀ mark ∈ [Code.char '\r', '\n'], mark ∈ [Code.char ' ', ':', '\r', '\n'] ∧
      mark ∈ [Code.char ':', '\r', '\n'] ∧ mark ≠ ':' := by decide
  intro member
  rcases common mark ends with ⟨key, value, colon⟩
  simp only [line, List.mem_append, List.mem_cons] at member
  rcases member with (name | properties) | data
  · rcases name with equal | equal | name
    · exact colon equal
    · exact colon equal
    · exact plain.name mark key name
  · exact not_mem_propertiesText plain value properties
  · rcases data with equal | equal | data
    · exact colon equal
    · exact colon equal
    · exact not_mem_escapeData ends _ data

theorem not_isBreak_line (plain : command.Plain) :
    ∀ character ∈ command.line, isBreak character = false := by
  intro character member
  rw [isBreak, Bool.or_eq_false_iff, beq_eq_false_iff_ne, beq_eq_false_iff_ne]
  constructor
  · rintro rfl
    exact not_mem_line plain (by decide) member
  · rintro rfl
    exact not_mem_line plain (by decide) member

theorem lines_commands {commands : List Command} (plain : ∀ command ∈ commands, command.Plain) :
    lines (Text.join (commands.map Command.text)).toList =
      commands.map Command.line ++ [[]] := by
  induction commands with
  | nil => rfl
  | cons first others ih =>
      have whole : (Text.join ((first :: others).map Command.text)).toList =
          first.line ++ Code.char '\n' :: (Text.join (others.map Command.text)).toList := by
        simp [Text.toList_join, Command.text, characters_eq_line]
      rw [whole, lines_append (not_isBreak_line (plain first List.mem_cons_self)),
        ih fun command member => plain command (List.mem_cons_of_mem _ member)]
      rfl

def readAll (output : List Code) : List Command := (lines output).filterMap read?

theorem readAll_commands {commands : List Command} (plain : ∀ command ∈ commands, command.Plain) :
    readAll (Text.join (commands.map Command.text)).toList = commands := by
  have each : ∀ command ∈ commands, (read? ∘ line) command = some command :=
    fun command member => read?_line (plain command member)
  rw [readAll, lines_commands plain, List.filterMap_append, List.filterMap_map,
    List.filterMap_congr each, List.filterMap_some]
  exact List.append_nil commands

/-- Commands are read back as they were issued, whatever their values and messages say. Each is a
line of its own, without a line break before its end; the name, the properties and the message are
those that the runner finds in it, and an output of several commands holds these and no others. To
escape is to replace one character after the other, the percent sign before all others. -/
theorem issued_commands_are_read_back {commands : List Command}
    (plain : ∀ command ∈ commands, command.Plain) :
    (∀ command ∈ commands, command.text.toList = command.line ++ [Code.char '\n'] ∧
        Code.char '\r' ∉ command.line ∧ Code.char '\n' ∉ command.line ∧
        read? command.line = some command) ∧
      readAll (Text.join (commands.map Command.text)).toList = commands ∧
      (∀ text, unescapeProperty (escapeProperty text) = text ∧
        unescapeData (escapeData text) = text ∧ unescapeProperty (escapeData text) = text) ∧
      (Function.Injective escapeData ∧ Function.Injective escapeProperty) ∧
      ∀ text, escapeData text = replacing ['\n'] ['%', '0', 'A']
          (replacing ['\r'] ['%', '0', 'D'] (replacing ['%'] ['%', '2', '5'] text)) ∧
        escapeProperty text =
          replacing [','] ['%', '2', 'C'] (replacing [':'] ['%', '3', 'A'] (escapeData text)) := by
  refine ⟨fun command member => ?_, readAll_commands plain, fun text => ?_,
    ⟨escapeData_injective, escapeProperty_injective⟩, fun text =>
      ⟨escapeData_eq_replacing text, escapeProperty_eq_replacing text⟩⟩
  · have own := plain command member
    refine ⟨?_, not_mem_line own (by decide), not_mem_line own (by decide), read?_line own⟩
    rw [text, Text.toList_ofList, characters_eq_line]
  · exact ⟨unescapeProperty_escapeProperty text, unescapeData_escapeData text,
      unescapeProperty_escapeData text⟩

/-- Values and messages that look like commands, properties and escapes. -/
theorem issued_commands_are_read_back_nested :
    let commands : List Command :=
      [⟨"error", [("file", "a,b=c::%2C"), ("title", "%250A\n::stop::")], "100%\r\n::add-mask::%3A"⟩,
        setOutput "::debug x=1::" "%0A"]
    (∀ command ∈ commands, command.Plain) ∧
      readAll (Text.join (commands.map Command.text)).toList = commands := by
  intro commands
  have plain : ∀ command ∈ commands, command.Plain := by
    intro command member
    rcases List.mem_pair.mp member with rfl | rfl
    · exact ⟨by decide +kernel, by decide +kernel⟩
    · exact ⟨by decide +kernel, by decide +kernel⟩
  exact ⟨plain, (issued_commands_are_read_back plain).2.1⟩

end Command

end SecretFill.Workflow
