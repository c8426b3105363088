import SecretFill.Text.Quoted
/-!
The outcome of visiting a node. A successful visit has a node; a failed one says what went wrong
and where. A success may carry a remark and a path too, which then mean nothing.
-/

namespace SecretFill

open SecretFill.Text

inductive Visit (α : Type)
  | success (node : α) (remark path : Option Text)
  | failed (problem path : Text)
  deriving DecidableEq, Repr

inductive VisitFault
  /-- A status is none of the two; its quoted text is given. -/
  | unknownStatus (shown : Text)
  | noNode
  | noProblem
  | failure (problem path : Text)
  deriving DecidableEq, Repr

def VisitFault.message : VisitFault → Text
  | .unknownStatus shown => shown ++ " is not a valid VisitStatus"
  | .noNode => "A successful visit needs a node"
  | .noProblem => "A failed visit needs an error message and a document path"
  | .failure problem path => "Visit failed at " ++ path ++ ": " ++ problem

namespace Visit

variable {α : Type}

/-- A visit from its parts. A failure needs a problem that is not empty, and a path. -/
def ofParts (status : Option Text) (node : Option α) (problem path : Option Text) :
    Except VisitFault (Visit α) :=
  match status with
  | none => .error (.unknownStatus "None")
  | some status =>
      if status = "success" then
        match node with
        | some node => .ok (.success node problem path)
        | none => .error .noNode
      else if status = "failed" then
        match problem, path with
        | some problem, some path =>
            if problem.isEmpty then .error .noProblem else .ok (.failed problem path)
        | _, _ => .error .noProblem
      else .error (.unknownStatus (quoted status))

def succeeded : Visit α → Bool
  | .success _ _ _ => true
  | .failed _ _ => false

def problem? : Visit α → Option Text
  | .success _ remark _ => remark
  | .failed problem _ => some problem

def path? : Visit α → Option Text
  | .success _ _ path => path
  | .failed _ path => some path

def unwrap : Visit α → Except VisitFault α
  | .success node _ _ => .ok node
  | .failed problem path => .error (.failure problem path)

end Visit

end SecretFill
