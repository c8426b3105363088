import SecretFill.Workflow.Escape
/-!
Workflow commands. A command is one line of standard output: two colons, its name, its properties
after a blank, two colons, its message.
-/

namespace SecretFill.Workflow

structure Command where
  name : Text
  properties : List (Text × Text)
  message : Text
  deriving DecidableEq, Repr

namespace Command

def propertyText (property : Text × Text) : List Code :=
  property.1.toList ++ Code.char '=' :: escapeProperty property.2.toList

/-- The properties with commas between them, after a blank if there are any. -/
def propertiesText (properties : List (Text × Text)) : List Code :=
  match properties with
  | [] => []
  | _ => ' ' :: [Code.char ','].intercalate (properties.map propertyText)

def characters (command : Command) : List Code :=
  Code.char ':' :: ':' :: command.name.toList ++ propertiesText command.properties ++
    Code.char ':' :: ':' :: escapeData command.message.toList ++ [Code.char '\n']

def text (command : Command) : Text := Text.ofList command.characters

def addMask (secret : Text) : Command := ⟨"add-mask", [], secret⟩

def setOutput (name value : Text) : Command := ⟨"set-output", [("name", name)], value⟩

def error (message : Text) : Command := ⟨"error", [], message⟩

end Command

end SecretFill.Workflow
