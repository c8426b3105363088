import SecretFill.Proofs.Files
import SecretFill.Proofs.Text.Pieces
import SecretFill.Proofs.Text.Utf8
import SecretFill.Workflow.Output
/-!
Outputs read back. The runner reads the file line by line: a header opens a block, and the first
line that is its delimiter closes it. No value holds the delimiter of its own block, so a block is
closed where it was meant to end, whatever headers and delimiters of other blocks its value
imitates, and the next line is the header of the next block.
-/

namespace SecretFill.Workflow

open SecretFill.Text

namespace Output

/-! ### The reader -/

structure Opened where
  name : List Code
  delimiter : List Code
  taken : List (List Code)

def open? (line : List Code) : Option Opened :=
  (cutAt ['<', '<'] line).map fun (name, delimiter) => ⟨name, delimiter, []⟩

def Opened.entry (opened : Opened) : Text × Text :=
  (Text.ofList opened.name, Text.ofList ([Code.char '\n'].intercalate opened.taken))

/-- Reads blocks, the first of which may be open already. After the last one nothing is left but the
empty line that its end opens. -/
def readLines : Option Opened → List (List Code) → Option (List (Text × Text))
  | _, [] => none
  | none, line :: rest =>
      match open? line with
      | some opened => readLines (some opened) rest
      | none => if line = [] ∧ rest = [] then some [] else none
  | some opened, line :: rest =>
      if line = opened.delimiter then (readLines none rest).map (opened.entry :: ·)
      else readLines (some { opened with taken := opened.taken ++ [line] }) rest

def read? (text : List Code) : Option (List (Text × Text)) :=
  readLines none (segments '\n' text)

def recorded? (files : Files) (path : Text) : Option (List (Text × Text)) :=
  match files.target path.toList with
  | .error _ => none
  | .ok (_, bytes) =>
      match Utf8.decode bytes with
      | .error _ => none
      | .ok text => read? text

theorem recorded?_eq_some_iff {files : Files} {path : Text} {entries : List (Text × Text)} :
    recorded? files path = some entries ↔
      ∃ way text, Utf8.Whole text ∧ files.target path.toList = .ok (way, Utf8.encode text) ∧
        read? text = some entries := by
  unfold recorded?
  constructor
  · intro recorded
    split at recorded
    · cases recorded
    · next way bytes leads =>
        split at recorded
        · cases recorded
        · next text decoded =>
            obtain ⟨whole, rfl⟩ := Utf8.decode_eq_ok_iff.mp decoded
            exact ⟨way, text, whole, leads, recorded⟩
  · rintro ⟨way, text, whole, leads, read⟩
    simp only [leads, Utf8.decode_encode whole, read]

/-! ### Blocks -/

theorem readLines_value {opened : Opened} {lines : List (List Code)}
    (absent : opened.delimiter ∉ lines) (rest : List (List Code)) :
    readLines (some opened) (lines ++ opened.delimiter :: rest) =
      (readLines none rest).map
        ({ opened with taken := opened.taken ++ lines : Opened }.entry :: ·) := by
  induction lines generalizing opened with
  | nil => simp [readLines]
  | cons line lines ih =>
      rw [List.mem_cons, not_or] at absent
      rw [List.cons_append, readLines, if_neg (Ne.symm absent.1)]
      have later := @ih { opened with taken := opened.taken ++ [line] } absent.2
      rw [later, List.append_assoc, List.singleton_append]

theorem read?_block {name value delimiter : List Code} (plain : Code.char '<' ∉ name)
    (named : Code.char '\n' ∉ name) (whole : Code.char '\n' ∉ delimiter)
    (apart : ¬ delimiter <:+: value) :
    read? (block name value delimiter) = some [(Text.ofList name, Text.ofList value)] := by
  have header : Code.char '\n' ∉ name ++ ([Code.char '<', '<'] ++ delimiter) := by
    simp [named, whole]
  have shape : block name value delimiter =
      (name ++ ([Code.char '<', '<'] ++ delimiter)) ++ Code.char '\n' ::
          (value ++ Code.char '\n' :: (delimiter ++ Code.char '\n' :: [])) := by
    simp [block]
  have opens : open? (name ++ ([Code.char '<', '<'] ++ delimiter)) = some ⟨name, delimiter, []⟩ := by
    rw [open?, cutAt_append plain]
    rfl
  -- The delimiter is on no line of the value, for it is nowhere in it.
  have absent : delimiter ∉ segments '\n' value := fun member => apart (infix_of_mem_segments member)
  rw [read?, shape, segments_append header, segments_mark, segments_append whole, readLines]
  simp only [opens]
  have lines := @readLines_value ⟨name, delimiter, []⟩ (segments '\n' value) absent
  rw [lines]
  have joined := (cuts_segments '\n' value).whole
  simp only [List.nil_append, Opened.entry, ← joined]
  rfl

theorem readLines_resumes {opened : Option Opened} {lines : List (List Code)}
    {entries : List (Text × Text)} (read : readLines opened lines = some entries) :
    ∃ before, lines = before ++ [[]] ∧
      ∀ more, readLines opened (before ++ more) = (readLines none more).map (entries ++ ·) := by
  -- A line opens, fills or closes a block whatever comes later.
  induction lines generalizing opened entries with
  | nil => cases opened <;> cases read
  | cons line rest ih =>
      cases opened with
      | none =>
          rw [readLines] at read
          split at read
          · next opened opens =>
              obtain ⟨before, rfl, resumes⟩ := ih read
              refine ⟨line :: before, rfl, fun more => ?_⟩
              rw [List.cons_append, readLines]
              simp only [opens, resumes]
          · split at read
            · next last =>
                obtain ⟨rfl, rfl⟩ := last
                cases read
                refine ⟨[], rfl, fun more => ?_⟩
                simp
            · cases read
      | some opened =>
          rw [readLines] at read
          split at read
          · next closes =>
              obtain ⟨later, behind, rfl⟩ := Option.map_eq_some_iff.mp read
              obtain ⟨before, rfl, resumes⟩ := ih behind
              refine ⟨line :: before, rfl, fun more => ?_⟩
              rw [List.cons_append, readLines, if_pos closes, resumes, Option.map_map]
              rfl
          · next inside =>
              obtain ⟨before, rfl, resumes⟩ := ih read
              refine ⟨line :: before, rfl, fun more => ?_⟩
              rw [List.cons_append, readLines, if_neg inside, resumes]

theorem read?_append {first : List Code} {entries : List (Text × Text)}
    (read : read? first = some entries) (second : List Code) :
    read? (first ++ second) = (read? second).map (entries ++ ·) := by
  obtain ⟨before, pieces, resumes⟩ := readLines_resumes read
  rw [read?, segments_behind pieces, resumes]
  rfl

/-! ### Calls -/

structure Call where
  unique : Text
  name : Text
  value : Text
  deriving DecidableEq

namespace Call

def Collides (call : Call) : Prop :=
  delimiter call.unique.toList <:+: call.name.toList ∨
    delimiter call.unique.toList <:+: call.value.toList

instance : DecidablePred Collides := fun _ => inferInstanceAs (Decidable (_ ∨ _))

def Encodable (call : Call) : Prop :=
  Utf8.Whole call.name.toList ∧ Utf8.Whole call.value.toList ∧ Utf8.Whole call.unique.toList

instance : DecidablePred Encodable := fun _ => inferInstanceAs (Decidable (_ ∧ _))

/-- Whether the name can be told apart from what follows it, and the delimiter is one line. The
value may be any text. -/
structure Plain (call : Call) : Prop where
  unique : Code.char '\n' ∉ call.unique.toList
  name : ∀ character ∈ [Code.char '<', '\n'], character ∉ call.name.toList

def entry (call : Call) : Text × Text := (call.name, call.value)

def block (call : Call) : List Code :=
  Output.block call.name.toList call.value.toList (delimiter call.unique.toList)

def set (environment : Environment) (call : Call) (files : Files) :
    Files × Except OutputError (List Command) :=
  Output.set environment call.unique call.name call.value files

structure Ends (path : Text) (call : Call) (result : Except OutputError (List Command)) : Prop where
  taken : result = .error .delimiterTaken ↔ call.Collides
  written : result = .ok [] ↔ ¬ call.Collides ∧ call.Encodable
  refused : (∃ fault, result = .error (.file ⟨path, .notEncodable fault⟩)) ↔
    ¬ call.Collides ∧ ¬ call.Encodable

end Call

def perform (environment : Environment) :
    List Call → Files → List (Except OutputError (List Command)) × Files
  | [], files => ([], files)
  | call :: rest, files =>
      let (files, result) := call.set environment files
      let (results, last) := perform environment rest files
      (result :: results, last)

/-- Files once the one at a path was opened to add to it: it is there. -/
def opened (files : Files) (path : Text) : Files :=
  match files.target path.toList with
  | .error _ => files
  | .ok (way, old) => files.set way old

variable {environment : Environment} {files : Files} {call : Call} {calls : List Call}
  {earlier : List (Text × Text)}

theorem whole_block : Utf8.Whole call.block ↔ call.Encodable := by
  have fixed : Utf8.Whole stem := by decide +kernel
  have mark : (Code.char '<').isHalf = false := rfl
  have feed : (Code.char '\n').isHalf = false := rfl
  simp only [Utf8.Whole] at fixed
  simp only [Utf8.Whole, Call.Encodable, Call.block, block, delimiter, List.forall_mem_append,
    List.forall_mem_cons, mark, feed]
  tauto

theorem set_collides (named : environment.getD variableName ≠ "") (collides : call.Collides)
    (files : Files) : call.set environment files = (files, .error .delimiterTaken) := by
  have filled := Text.isEmpty_eq_false_iff.mpr named
  have taken : occursIn (delimiter call.unique.toList) call.name.toList ∨
      occursIn (delimiter call.unique.toList) call.value.toList := by
    rwa [occursIn_iff, occursIn_iff]
  simp only [Call.set, set, filled, Bool.false_eq_true, if_false, if_pos taken]

theorem set_apart (named : environment.getD variableName ≠ "") (apart : ¬ call.Collides)
    (files : Files) : call.set environment files =
      match files.append (environment.getD variableName) call.block with
      | (files, .error error) => (files, .error (.file error))
      | (files, .ok _) => (files, .ok []) := by
  have filled := Text.isEmpty_eq_false_iff.mpr named
  have free : ¬ (occursIn (delimiter call.unique.toList) call.name.toList ∨
      occursIn (delimiter call.unique.toList) call.value.toList) := by
    rwa [occursIn_iff, occursIn_iff]
  simp only [Call.set, set, filled, Bool.false_eq_true, if_false, if_neg free]
  rfl

theorem set_encodable (named : environment.getD variableName ≠ "") (apart : ¬ call.Collides)
    (encodable : call.Encodable) {way : Way} {old : List UInt8}
    (leads : files.target (environment.getD variableName).toList = .ok (way, old)) :
    call.set environment files = (files.set way (old ++ Utf8.encode call.block), .ok []) := by
  have bytes := Utf8.encodeStrict_eq_ok_iff.mpr ⟨whole_block.mpr encodable, rfl⟩
  simp only [set_apart named apart, Files.append, leads, bytes]

theorem set_broken (named : environment.getD variableName ≠ "") (apart : ¬ call.Collides)
    (broken : ¬ call.Encodable) {way : Way} {old : List UInt8}
    (leads : files.target (environment.getD variableName).toList = .ok (way, old)) :
    ∃ fault, call.set environment files = (files.set way old,
      .error (.file ⟨environment.getD variableName, .notEncodable fault⟩)) := by
  cases encoded : Utf8.encodeStrict call.block with
  | ok bytes => exact absurd (whole_block.mp (Utf8.encodeStrict_eq_ok_iff.mp encoded).1) broken
  | error fault =>
      refine ⟨fault, ?_⟩
      simp only [set_apart named apart, Files.append, leads, encoded]

theorem ends_set (named : environment.getD variableName ≠ "") {way : Way} {old : List UInt8}
    (leads : files.target (environment.getD variableName).toList = .ok (way, old)) :
    call.Ends (environment.getD variableName) (call.set environment files).2 := by
  by_cases collides : call.Collides
  · rw [set_collides named collides]
    constructor <;> simp [collides]
  by_cases encodable : call.Encodable
  · rw [set_encodable named collides encodable leads]
    constructor <;> simp [collides, encodable]
  · obtain ⟨fault, sets⟩ := set_broken named collides encodable leads
    rw [sets]
    constructor <;> simp [collides, encodable]

theorem Call.Plain.read?_block (plain : call.Plain) (apart : ¬ call.Collides) :
    read? call.block = some [call.entry] := by
  have fixed : Code.char '\n' ∉ stem := by decide +kernel
  have whole : Code.char '\n' ∉ delimiter call.unique.toList := by
    intro member
    unfold delimiter at member
    rcases List.mem_append.mp member with before | behind
    · exact fixed before
    · exact plain.unique behind
  have read := Output.read?_block (plain.name '<' (by decide)) (plain.name '\n' (by decide)) whole
    fun found => apart (.inr found)
  rw [Call.block, read, Text.ofList_toList, Text.ofList_toList]
  rfl

/-- Files that differ at most in the one that a path leads to. -/
structure OnlyAt (path : Text) (before after : Files) : Prop where
  bytes : ∀ way old, before.target path.toList = .ok (way, old) →
    ∀ other, other ≠ way → after.bytes? other = before.bytes? other
  directories : after.directories = before.directories

theorem OnlyAt.refl (path : Text) (files : Files) : OnlyAt path files files where
  bytes := fun _ _ _ _ _ => rfl
  directories := rfl

/-- The path leads to the same file before and after it was written. -/
theorem OnlyAt.of_set {path : Text} {way : Way} {old bytes : List UInt8} {last : Files}
    (leads : files.target path.toList = .ok (way, old))
    (only : OnlyAt path (files.set way bytes) last) : OnlyAt path files last where
  bytes := by
    intro way' old' leads' other apart
    cases leads.symm.trans leads'
    rw [only.bytes way bytes (Files.target_set bytes leads) other apart, Files.bytes?_set,
      if_neg apart]
  directories := only.directories

theorem recorded?_set (named : environment.getD variableName ≠ "") (plain : call.Plain)
    (recorded : recorded? files (environment.getD variableName) = some earlier) :
    recorded? (call.set environment files).1 (environment.getD variableName) =
        some (earlier ++ if ¬ call.Collides ∧ call.Encodable then [call.entry] else []) ∧
      ((call.set environment files).1 = files ∨
        ∃ way old bytes, files.target (environment.getD variableName).toList = .ok (way, old) ∧
          (call.set environment files).1 = files.set way bytes) := by
  obtain ⟨way, text, whole, leads, read⟩ := recorded?_eq_some_iff.mp recorded
  by_cases collides : call.Collides
  · rw [set_collides named collides]
    simp [collides, recorded]
  by_cases encodable : call.Encodable
  · rw [set_encodable named collides encodable leads, ← Utf8.encode_append]
    refine ⟨?_, .inr ⟨way, _, _, leads, rfl⟩⟩
    rw [if_pos ⟨collides, encodable⟩]
    have joined : Utf8.Whole (text ++ call.block) :=
      List.forall_mem_append.mpr ⟨whole, whole_block.mpr encodable⟩
    refine recorded?_eq_some_iff.mpr ⟨way, _, joined, Files.target_set _ leads, ?_⟩
    rw [read?_append read, plain.read?_block collides]
    rfl
  · obtain ⟨fault, sets⟩ := set_broken named collides encodable leads
    rw [sets]
    refine ⟨?_, .inr ⟨way, _, _, leads, rfl⟩⟩
    rw [if_neg fun lands => encodable lands.2, List.append_nil]
    exact recorded?_eq_some_iff.mpr ⟨way, text, whole, Files.target_set _ leads, read⟩

theorem perform_recorded (named : environment.getD variableName ≠ "")
    (plain : ∀ call ∈ calls, call.Plain)
    (recorded : recorded? files (environment.getD variableName) = some earlier) :
    List.Forall₂ (Call.Ends (environment.getD variableName)) calls
        (perform environment calls files).1 ∧
      recorded? (perform environment calls files).2 (environment.getD variableName) =
        some (earlier ++
          (calls.filter fun call => ¬ call.Collides ∧ call.Encodable).map Call.entry) ∧
      OnlyAt (environment.getD variableName) files (perform environment calls files).2 := by
  induction calls generalizing files earlier with
  | nil => exact ⟨.nil, by simp [perform, recorded], .refl _ _⟩
  | cons call rest ih =>
      obtain ⟨here, later⟩ := List.forall_mem_cons.mp plain
      obtain ⟨way, text, -, leads, -⟩ := recorded?_eq_some_iff.mp recorded
      obtain ⟨holds, changed⟩ := recorded?_set named here recorded
      obtain ⟨results, last, only⟩ := ih later holds
      refine ⟨.cons (ends_set named leads) results, ?_, ?_⟩
      · rw [perform, last, List.append_assoc, List.filter_cons]
        by_cases lands : ¬ call.Collides ∧ call.Encodable <;> simp [lands]
      · rcases changed with same | ⟨way, old, bytes, leads, same⟩
        · rw [same] at only
          simpa [perform, same] using only
        · rw [same] at only
          simpa [perform, same] using only.of_set leads

theorem perform_filter (named : environment.getD variableName ≠ "") (calls : List Call)
    (files : Files) :
    (perform environment (calls.filter fun call => ¬ call.Collides) files).2 =
      (perform environment calls files).2 := by
  induction calls generalizing files with
  | nil => rfl
  | cons call rest ih =>
      by_cases collides : call.Collides
      · simp only [perform, set_collides named collides, collides, not_true_eq_false, decide_false,
          List.filter_cons, Bool.false_eq_true, if_false, ih]
      · simp only [collides, not_false_eq_true, decide_true, List.filter_cons, if_true, perform, ih]

/-- Outputs are read back as they were set. A call fails in two ways: its delimiter occurs in its
name or its value, and then the files are as if it had not been made; or else it has a half of a
surrogate pair, and then its file was opened, but holds what it held, or nothing if it was not
there. The runner finds in the file what it held before and behind it, in their order, the names and
values of the calls that did not fail, and nothing else, whatever the values say; and no other file
is changed. -/
theorem outputs_are_read_back (named : environment.getD variableName ≠ "")
    (plain : ∀ call ∈ calls, call.Plain)
    (recorded : recorded? files (environment.getD variableName) = some earlier) :
    let path := environment.getD variableName
    let after := (perform environment calls files).2
    List.Forall₂ (Call.Ends path) calls (perform environment calls files).1 ∧
      (after = (perform environment (calls.filter fun call => ¬ call.Collides) files).2 ∧
        ∀ (call : Call) (files : Files) (way : Way) (old : List UInt8),
          ¬ call.Collides → ¬ call.Encodable →
          files.target path.toList = .ok (way, old) →
          (call.set environment files).1 = files.set way old) ∧
      recorded? after path = some (earlier ++
        (calls.filter fun call => ¬ call.Collides ∧ call.Encodable).map Call.entry) ∧
      OnlyAt path files after := by
  intro path after
  obtain ⟨results, last, only⟩ := perform_recorded named plain recorded
  refine ⟨results, ⟨(perform_filter named calls files).symm, ?_⟩, last, only⟩
  intro call files way old apart broken leads
  obtain ⟨fault, sets⟩ := set_broken named apart broken leads
  rw [sets]

/-- An output was set before. A value imitates headers and delimiters, one is empty, one ends with a
line break, one holds its own delimiter, and one is half of a surrogate pair. -/
theorem outputs_are_read_back_imitated :
    let environment : Environment := [(variableName, "out")]
    let old := block ("a" : Text).toList ("1" : Text).toList (delimiter ("0" : Text).toList)
    let files : Files := ⟨[], [(["out".toUTF8.toList], Utf8.encode old)], []⟩
    let calls : List Call := [⟨"1", "b", "c<<ghadelimiter_0\n\nghadelimiter_0"⟩, ⟨"0", "d", ""⟩,
      ⟨"2", "e", "x ghadelimiter_2"⟩, ⟨"3", "g", Text.ofList [Code.half 0]⟩, ⟨"1", "f", "é\r\n"⟩]
    (perform environment calls files).1 = [.ok [], .ok [], .error .delimiterTaken,
        .error (.file ⟨"out", .notEncodable ⟨18, 19, 0xD800⟩⟩), .ok []] ∧
      recorded? (perform environment calls files).2 "out" =
        some ([("a", "1"), ("b", "c<<ghadelimiter_0\n\nghadelimiter_0"), ("d", ""),
          ("f", "é\r\n")] : List (Text × Text)) := by
  intro environment old files calls
  have found : environment.getD variableName = "out" := by decide +kernel
  have named : environment.getD variableName ≠ "" := by decide +kernel
  have plain : ∀ call ∈ calls, call.Plain := by
    have unique : ∀ call ∈ calls, Code.char '\n' ∉ call.unique.toList := by decide +kernel
    have name : ∀ call ∈ calls, ∀ character ∈ [Code.char '<', '\n'], character ∉ call.name.toList := by
      decide +kernel
    exact fun call member => ⟨unique call member, name call member⟩
  have recorded : recorded? files (environment.getD variableName) =
      some ([("a", "1")] : List (Text × Text)) := by
    rw [found]
    exact recorded?_eq_some_iff.mpr
      ⟨["out".toUTF8.toList], old, by decide +kernel, by decide +kernel, by decide +kernel⟩
  obtain ⟨-, -, last, -⟩ := outputs_are_read_back named plain recorded
  rw [found] at last
  exact ⟨by decide +kernel, last.trans (by decide +kernel)⟩

/-- Half of a surrogate pair cannot be written: the call fails though nothing collides, and the
file, which was not there, is there afterwards. -/
theorem output_with_half_is_refused :
    let environment : Environment := [(variableName, "out")]
    let call : Call := ⟨"0", "a", Text.ofList [Code.half 0]⟩
    call.Plain ∧ recorded? Files.empty "out" = some [] ∧ ¬ call.Collides ∧
      call.set environment Files.empty =
        (⟨[], [(["out".toUTF8.toList], [])], []⟩,
          .error (.file ⟨"out", .notEncodable ⟨18, 19, 0xD800⟩⟩)) := by
  intro environment call
  have plain : call.Plain := ⟨by decide +kernel, by decide +kernel⟩
  exact ⟨plain, by decide +kernel, by decide +kernel, by decide +kernel⟩

end Output

end SecretFill.Workflow
