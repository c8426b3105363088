import SecretFill.Forest.Walk
import SecretFill.Log
import SecretFill.Yaml.Reading
import SecretFill.Yaml.Writing
/-!
Interpolation of a document text: the text is read, every string that holds a placeholder is
replaced by the value of its key, and the documents are written again. Longer keys go first, keys
of one length in their given order, and each key in braces before its bare form. A string that was
replaced is never looked at again.
-/

namespace SecretFill

open SecretFill.Data

abbrev SubstitutionMap := List (Text × Text)

/-- Sets a key. A key that is present keeps its place and takes the new value. -/
def SubstitutionMap.insert (key value : Text) : SubstitutionMap → SubstitutionMap
  | [] => [(key, value)]
  | (present, old) :: rest =>
      if present = key then (present, value) :: rest else (present, old) :: insert key value rest

def SubstitutionMap.ofList (pairs : List (Text × Text)) : SubstitutionMap :=
  pairs.foldl (fun map (key, value) => SubstitutionMap.insert key value map) []

/-- Entries with longer keys first; those with keys of one length keep their order. -/
def SubstitutionMap.longestFirst (map : SubstitutionMap) : SubstitutionMap :=
  map.mergeSort fun first second => second.1.length ≤ first.1.length

structure DocumentError where
  source : Text
  text : Text
  failure : Yaml.Failure
  deriving DecidableEq, Repr

def DocumentError.details (error : DocumentError) : Text :=
  error.failure.message error.text.toList

def DocumentError.message (error : DocumentError) : Text :=
  "Invalid YAML syntax in " ++ error.source ++ ": " ++ error.details

inductive InterpolationError
  | document (error : DocumentError)
  /-- A scalar has no value, and the reader does not say where. -/
  | scalar (fault : Yaml.ScalarFault)
  | cycle (path : Text)
  | unnamedKey
  | unwritable (error : Yaml.WriteError)
  deriving DecidableEq, Repr

def interpolationMessage (problem : Text) (path : Option Text) : Text :=
  "Can't interpolate yaml data: " ++ problem ++
    match path with
    | some path => " (at " ++ path ++ ")"
    | none => ""

def cycleProblem : Text := "cyclic alias reference"
def depthProblem : Text := "document nesting is too deep"

def Yaml.WriteError.message : Yaml.WriteError → Text
  | .foreign shown =>
      interpolationMessage
        ("failed to serialize document: ('cannot represent an object', " ++ shown ++ ")") none
  | .number fault => fault.message
  | .tooDeep => interpolationMessage depthProblem none

def InterpolationError.message : InterpolationError → Text
  | .document error => error.message
  | .scalar fault => fault.message
  | .cycle path => interpolationMessage cycleProblem (some path)
  | .unnamedKey => Decimal.NumberFault.tooManyDigitsWritten.message
  | .unwritable error => error.message

structure Report where
  document : Text
  substitutions : List Substitution
  deriving DecidableEq, Repr

/-- The keys of some substitutions, each once, in the order of their first ones. -/
def substitutedKeys (substitutions : List Substitution) : List Text :=
  (substitutions.map Substitution.key).eraseDups

def readDocuments (text source : Text) : Except InterpolationError Stream :=
  match Yaml.read text.toList with
  | .ok stream => .ok stream
  | .error (.scalar fault) => .error (.scalar fault)
  | .error failure => .error (.document ⟨source, text, failure⟩)

structure Plot where
  node : Forest.Node
  path : Text
  deriving DecidableEq, Repr

/-- Plants the documents of a stream; `count` is the number of all of them. -/
def plantAll (cells : Array Cell) (count : Nat) : Nat → List Value → Forest →
    Except InterpolationError (List Plot × Forest)
  | _, [], forest => .ok ([], forest)
  | index, root :: rest, forest =>
      let path := Path.ofRoot index count
      match forest.plant cells root path with
      | .error (.cycle path) => .error (.cycle path)
      | .error .unnamed => .error .unnamedKey
      | .ok (node, forest) => do
          let (plots, forest) ← plantAll cells count (index + 1) rest forest
          .ok (⟨node, path⟩ :: plots, forest)

def Walker.visitAll (cells : Array Cell) (plots : List Plot) (state : Walker × Forest) :
    Walker × Forest :=
  plots.foldl (fun (walker, forest) plot => walker.visit cells forest plot.node plot.path) state

def applyForm (cells : Array Cell) (plots : List Plot) (key value : Text)
    (state : List Substitution × Forest) (form : Placeholder.Form) :
    List Substitution × Forest :=
  let (walker, forest) :=
    Walker.visitAll cells plots (Walker.new key form value, state.2)
  (state.1 ++ walker.substitutions, forest)

def applyKey (cells : Array Cell) (plots : List Plot) (state : List Substitution × Forest)
    (entry : Text × Text) : List Substitution × Forest :=
  -- Braces first: a string that they replaced is closed to the bare form.
  [Placeholder.Form.braced, .bare].foldl (applyForm cells plots entry.1 entry.2) state

def substitute (map : SubstitutionMap) (stream : Stream) :
    Except InterpolationError (Stream × List Substitution) := do
  let (plots, forest) ← plantAll stream.cells stream.roots.length 0 stream.roots Forest.empty
  let (substitutions, forest) := map.longestFirst.foldl (applyKey stream.cells plots) ([], forest)
  .ok (forest.toStream stream.cells (plots.map Plot.node), substitutions)

def substitutionRecord (verbose : Bool) (substitution : Substitution) : Log.Record :=
  Log.progress verbose ("Substituted '" ++ substitution.key ++ "' at " ++ substitution.path)

/-- Interpolates a document text. A text without documents stays as it is. -/
def interpolate (text : Text) (map : SubstitutionMap) (verbose : Bool) (source : Text) :
    Logged InterpolationError Report :=
  (Logged.ofExcept (readDocuments text source)).andThen fun stream =>
    if stream.roots.isEmpty then
      (Logged.ok ⟨text, []⟩).after
        [Log.debug ("No YAML content in " ++ source ++ ", leaving it unchanged")]
    else
      (Logged.ofExcept (substitute map stream)).andThen fun (stream, substitutions) =>
        -- What was substituted is in the log even if the documents cannot be written.
        Logged.after (substitutions.map (substitutionRecord verbose)) <|
          match Yaml.write stream with
          | .error error => .fail (.unwritable error)
          | .ok document =>
              Logged.after
                [Log.progress verbose ("Interpolated " ++ toString substitutions.length ++
                  " value(s) in " ++ source ++ " using " ++ toString map.length ++ " key(s)")]
                (.ok ⟨document, substitutions⟩)

end SecretFill
