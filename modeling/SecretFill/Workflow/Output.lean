import SecretFill.Environment
import SecretFill.Files.Basic
import SecretFill.Text.Search
import SecretFill.Workflow.Command
/-!
The outputs of a step. They are blocks at the end of the file that `GITHUB_OUTPUT` names: a line
with the name and a delimiter, the value, a line with the delimiter. Without such a file an output
is a workflow command.
-/

namespace SecretFill.Workflow

open SecretFill.Text

inductive OutputError
  /-- The delimiter occurs in the name or in the value. -/
  | delimiterTaken
  | file (error : FileError)
  deriving DecidableEq, Repr

def OutputError.message : OutputError → Text
  | .delimiterTaken => "Unexpected input: output delimiter collides with name or value"
  | .file error => error.message

namespace Output

def variableName : Text := "GITHUB_OUTPUT"

def stem : List Code := ("ghadelimiter_" : Text).toList

def delimiter (unique : List Code) : List Code := stem ++ unique

def block (name value delimiter : List Code) : List Code :=
  name ++ Code.char '<' :: '<' :: delimiter ++ Code.char '\n' :: value ++
      Code.char '\n' :: delimiter ++ [Code.char '\n']

/-- Sets an output, and tells what the files are after that. `unique` is a text that no other call
is given. Either the files change or a command is to be issued. -/
def set (environment : Environment) (unique name value : Text) (files : Files) :
    Files × Except OutputError (List Command) :=
  let path := environment.getD variableName
  if path.isEmpty then (files, .ok [Command.setOutput name value])
  else
    let delimiter := delimiter unique.toList
    if occursIn delimiter name.toList ∨ occursIn delimiter value.toList then
      (files, .error .delimiterTaken)
    else
      match files.append path (block name.toList value.toList delimiter) with
      | (files, .error error) => (files, .error (.file error))
      | (files, .ok _) => (files, .ok [])

end Output

end SecretFill.Workflow
