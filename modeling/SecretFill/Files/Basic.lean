import SecretFill.Files.Location
import SecretFill.Text.Blank
import SecretFill.Text.Utf8
/-!
Files. A file is a list of bytes under the names that lead to it; directories are listed apart, and
so is what the system refuses: to go on from a directory, to open a file, to read what was opened. A
path is followed name by name, and the first name that cannot be followed decides the fault.
Writing sets the bytes of one file and never makes a directory.
-/

namespace SecretFill

open SecretFill.Text

/-- The names that lead to a file, in bytes, from the working directory; a slash as first name
stands for the root, and names of two dots lead out of the working directory. -/
abbrev Way := List (List UInt8)

/-- What may be refused at the end of a way. -/
inductive Access
  /-- Going on from a directory. -/
  | searching
  | opening
  /-- Reading what could be opened. -/
  | reading
  | writing
  deriving DecidableEq, Repr

structure Refusal where
  number : Nat
  text : Text
  deriving DecidableEq, Repr

structure Files where
  directories : List Way
  contents : List (Way × List UInt8)
  refusals : List ((Way × Access) × Refusal)
  deriving DecidableEq, Repr

inductive FileFault
  | absent
  | notDirectory
  | isDirectory
  | nameTooLong
  | nullCharacter
  /-- The path is no text that names can be made of, or the contents have no encoding. -/
  | notEncodable (fault : Utf8.EncodeFault)
  | refused (access : Access) (refusal : Refusal)
  deriving DecidableEq, Repr

structure FileError where
  path : Text
  fault : FileFault
  deriving DecidableEq, Repr

def FileError.message (error : FileError) : Text :=
  let numbered (number text : Text) : Text :=
    "[Errno " ++ number ++ "] " ++ text ++ ": " ++ quoted error.path
  match error.fault with
  | .absent => numbered "2" "No such file or directory"
  | .notDirectory => numbered "20" "Not a directory"
  | .isDirectory => numbered "21" "Is a directory"
  | .nameTooLong => numbered "36" "File name too long"
  | .nullCharacter => "embedded null byte"
  | .notEncodable fault => fault.message
  -- Once a file is open, its path is not known any more.
  | .refused .reading refusal => "[Errno " ++ toString refusal.number ++ "] " ++ refusal.text
  | .refused _ refusal => numbered (toString refusal.number) refusal.text

inductive Place
  | file (way : Way) (bytes : List UInt8)
  | directory (way : Way)
  /-- Nothing yet, in a directory that exists. -/
  | vacant (way : Way)
  deriving DecidableEq, Repr

namespace Files

def empty : Files := ⟨[], [], []⟩

def dot : List UInt8 := [0x2E]

def parent : List UInt8 := [0x2E, 0x2E]

def rootName : List UInt8 := [0x2F]

def bytes? (files : Files) (way : Way) : Option (List UInt8) := files.contents.lookup way

/-- Ways that are directories whatever was made: the working directory, the root, and what lies
above the working directory. -/
def isGiven (way : Way) : Bool := way = [rootName] || way.all fun name => name = parent

def refusal? (files : Files) (access : Access) (way : Way) : Option FileFault :=
  (files.refusals.lookup (way, access)).map (.refused access)

def isDirectory (files : Files) (way : Way) : Bool := isGiven way || way ∈ files.directories

def above (way : Way) : Way :=
  if way = [rootName] then way
  else if way.all fun name => name = parent then way ++ [parent]
  else way.dropLast

def place (files : Files) (way : Way) : Place :=
  if files.isDirectory way then .directory way
  else match files.bytes? way with
    | some bytes => .file way bytes
    | none => .vacant way

def longestName : Nat := 255

def longestPath : Nat := 4095

def step (files : Files) (way : Way) (name : List UInt8) : Except FileFault Place :=
  if name = [] then .ok (.directory way)
  else match files.refusal? .searching way with
  | some fault => .error fault
  | none =>
      if name = dot then .ok (.directory way)
      else if name = parent then .ok (.directory (above way))
      else if longestName < name.length then .error .nameTooLong
      else .ok (files.place (way ++ [name]))

def follow (files : Files) (place : Place) : Way → Except FileFault Place
  | [] => .ok place
  | name :: rest =>
      match place with
      | .file _ _ => .error .notDirectory
      | .vacant _ => .error .absent
      | .directory way => do
          let next ← files.step way name
          files.follow next rest

def start : Origin → Place
  | .here => .directory []
  | _ => .directory [rootName]

def find (files : Files) (path : List Code) : Except FileFault Place :=
  match Utf8.nameRefusal? path with
  | some fault => .error (.notEncodable fault)
  | none =>
      if path.contains '\x00' then .error .nullCharacter
      else if path.isEmpty then .error .absent
      else if longestPath < (Utf8.nameBytes path).length then .error .nameTooLong
      else files.follow (start (Origin.ofText path)) ((segments '/' path).map Utf8.nameBytes)

def read (files : Files) (path : List Code) : Except FileFault (List UInt8) :=
  match files.find path with
  | .error fault => .error fault
  | .ok (.vacant _) => .error .absent
  | .ok (.directory _) => .error .isDirectory
  | .ok (.file way bytes) =>
      match files.refusal? .opening way <|> files.refusal? .reading way with
      | some fault => .error fault
      | none => .ok bytes

def set (files : Files) (way : Way) (bytes : List UInt8) : Files :=
  { files with contents := go files.contents }
where
  go : List (Way × List UInt8) → List (Way × List UInt8)
    | [] => [(way, bytes)]
    | (present, old) :: rest =>
        if present = way then (way, bytes) :: rest else (present, old) :: go rest

/-- The way to a file that may be written, and the bytes it has so far. A slash at the end of a
path asks for a directory. -/
def target (files : Files) (path : List Code) : Except FileFault (Way × List UInt8) :=
  let bare := dropEndWhile (fun character : Code => character == '/') path
  -- Nothing but slashes leads to the root.
  if path ≠ [] ∧ bare = [] then .error .isDirectory
  else
    match files.find bare with
    | .error fault => .error fault
    | .ok place =>
        if bare.length < path.length then .error .isDirectory
        else
          let permitted (way : Way) (bytes : List UInt8) : Except FileFault (Way × List UInt8) :=
            match files.refusal? .writing way with
            | some fault => .error fault
            | none => .ok (way, bytes)
          match place with
          | .file way bytes => permitted way bytes
          | .directory _ => .error .isDirectory
          | .vacant way => permitted way []

def write (files : Files) (path : Text) (bytes : List UInt8) : Except FileError Files :=
  match files.target path.toList with
  | .error fault => .error ⟨path, fault⟩
  | .ok (way, _) => .ok (files.set way bytes)

/-- Adds text at the end of a file. The file is opened, and made if it is not there, before the
text is encoded. -/
def append (files : Files) (path : Text) (text : List Code) : Files × Except FileError Unit :=
  match files.target path.toList with
  | .error fault => (files, .error ⟨path, fault⟩)
  | .ok (way, old) =>
      match Utf8.encodeStrict text with
      | .error fault => (files.set way old, .error ⟨path, .notEncodable fault⟩)
      | .ok bytes => (files.set way (old ++ bytes), .ok ())

def waysTo (way : Way) : List Way := (List.range way.length).map fun count => way.take (count + 1)

def addDirectory (files : Files) (way : Way) : Files :=
  { files with directories := files.directories ++ waysTo way }

def addFile (files : Files) (way : Way) (bytes : List UInt8) : Files :=
  (files.addDirectory way.dropLast).set way bytes

def refuse (files : Files) (access : Access) (way : Way) (refusal : Refusal) : Files :=
  { files with refusals := ((way, access), refusal) :: files.refusals }

end Files

end SecretFill
