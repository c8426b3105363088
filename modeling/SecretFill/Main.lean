import SecretFill.Action
/-!
The command line of the action. It looks at the environment and at the files that the settings
name, runs the action on what it saw, prints the commands, and writes the files that changed.
There is no network client here: a request to a secret manager fails.
-/

namespace SecretFill.CommandLine

open SecretFill.Text

/-! ### The environment -/

def setting? (entry : List Code) : Option (Text × Text) :=
  let inName (character : Code) : Bool := character != '='
  match entry.dropWhile inName with
  | [] => none
  | _ :: value => some (Text.ofList (entry.takeWhile inName), Text.ofList value)

/-- The environment that the process was started with. It is read as bytes, since the runtime would
lose those that are not UTF-8. -/
def environment : IO Environment := do
  let bytes ← IO.FS.readBinFile "/proc/self/environ"
  let entries := segments '\x00' (Utf8.decodeName bytes.toList)
  -- Of two entries for a variable the first counts.
  return (entries.filterMap setting?).reverse

/-! ### Files -/

def paths (environment : Environment) (settings : ActionSettings) : List (List Code) :=
  [settings.document.characters, settings.target.characters,
    (environment.getD Workflow.Output.variableName).toList]

def waysFrom (way : Way) : List (List UInt8) → List Way
  | [] => [way]
  | name :: rest =>
      if name = [] ∨ name = Files.dot then waysFrom way rest
      else if name = Files.parent then way :: waysFrom (Files.above way) rest
      else way :: waysFrom (way ++ [name]) rest

def waysOf (path : List Code) : List Way :=
  match Files.start (Origin.ofText path) with
  | .directory way => waysFrom way ((segments '/' path).map Utf8.nameBytes)
  | _ => []

/-- The path of a way. The runtime has paths for names in UTF-8 only. -/
def path? (way : Way) : Option String :=
  let bytes :=
    match way with
    | name :: names =>
        if name = Files.rootName then Files.rootName ++ Files.rootName.intercalate names
        else Files.rootName.intercalate way
    | [] => []
  String.fromUTF8? (ByteArray.mk bytes.toArray)

def refusalOf : IO.Error → Refusal
  | .permissionDenied _ number text => ⟨number.toNat, text⟩
  | .resourceExhausted _ number text => ⟨number.toNat, text⟩
  | .hardwareFault number text => ⟨number.toNat, text⟩
  | .otherError number text => ⟨number.toNat, text⟩
  | _ => ⟨5, "Input/output error"⟩

/-- Adds what is found at the end of a way. A file that cannot be read is there all the same: a run
that fetches its secrets first has to find it. -/
def look (files : Files) (way : Way) : IO Files := do
  if Files.isGiven way then return files
  let some path := path? way | return files
  match ← (IO.FS.realPath path).toBaseIO with
  | .error (.permissionDenied _ number text) =>
      return files.refuse .searching (Files.above way) ⟨number.toNat, text⟩
  | .error _ => return files
  | .ok place =>
      if ← place.isDir then return files.addDirectory way
      let readable :=
        match ← (IO.FS.readBinFile place).toBaseIO with
        | .ok bytes => files.addFile way bytes.toList
        | .error error => (files.addFile way []).refuse .opening way (refusalOf error)
      -- Opened for writing without being emptied.
      match ← (IO.FS.Handle.mk place .readWrite).toBaseIO with
      | .ok _ => return readable
      | .error error => return readable.refuse .writing way (refusalOf error)

def writeChanged (before after : Files) : IO Unit :=
  after.contents.forM fun (way, bytes) => do
    if before.bytes? way ≠ some bytes then
      match path? way with
      | some path => IO.FS.writeBinFile path (ByteArray.mk bytes.toArray)
      | none => throw (IO.userError "the name of a file is not UTF-8")

/-! ### The run -/

def noClient : TransportFault := ⟨"ConnectError", "no network client"⟩

def uniqueText : IO Text := do
  let bytes ← IO.getRandomBytes 16
  return Text.ofList (bytes.toList.flatMap fun byte => hexDigits 2 byte.toNat)

def observe : IO Action.Host := do
  let environment ← environment
  let unique ← uniqueText
  let send (_ : Nat) (_ : Request) : Exchange := .error noClient
  let host (files : Files) : Action.Host :=
    ⟨environment, send, Action.refusesHalves, unique, files⟩
  match ActionSettings.ofEnvironment environment with
  -- A run with settings that are refused opens no file.
  | .error _ => return host Files.empty
  | .ok settings => return host (← ((paths environment settings).flatMap waysOf).foldlM look Files.empty)

def put (stream : IO.FS.Stream) (text : List Code) : IO Unit :=
  stream.write (ByteArray.mk (Utf8.encode text).toArray)

/-- Standard error takes every text: halves are written as escapes. -/
def escapeHalves (text : Text) : List Code :=
  text.toList.flatMap fun code =>
    if code.isHalf then '\\' :: 'u' :: hexDigits 4 code.toNat else [code]

def recordText (record : Log.Record) : Text := record.level.name ++ " - " ++ record.message ++ "\n"

end SecretFill.CommandLine

open SecretFill SecretFill.CommandLine in
def main : IO UInt32 := do
  let host ← observe
  let (threshold, warning) := Log.Threshold.ofEnvironment host.environment
  let errors ← IO.getStderr
  put errors (escapeHalves warning)
  let report := Action.run host
  report.log.forM fun record =>
    if threshold.admits record.level then put errors (escapeHalves (recordText record))
    else pure ()
  let commands ← IO.getStdout
  put commands report.text.toList
  commands.flush
  writeChanged host.files report.files
  return report.exitCode
