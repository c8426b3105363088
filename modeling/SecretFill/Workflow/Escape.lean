import SecretFill.Text.Code
/-!
Escaping of workflow commands. The data of a command stays on one line: a percent sign, a carriage
return and a line feed are written as a percent sign and two hexadecimal digits. In the value of a
property a colon and a comma are escaped too.
-/

namespace SecretFill.Workflow

def dataCharacter (character : Code) : List Code :=
  if character = '%' then ['%', '2', '5']
  else if character = '\r' then ['%', '0', 'D']
  else if character = '\n' then ['%', '0', 'A']
  else [character]

def propertyCharacter (character : Code) : List Code :=
  if character = ':' then ['%', '3', 'A']
  else if character = ',' then ['%', '2', 'C']
  else dataCharacter character

def escapeData (text : List Code) : List Code := text.flatMap dataCharacter

def escapeProperty (text : List Code) : List Code := text.flatMap propertyCharacter

end SecretFill.Workflow
