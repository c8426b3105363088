import SecretFill.Reference
/-!
Full names of secret versions. A locator is a full name, a full name without a version, or the
short form `project/secret` with or without a version; a missing version is the latest one.
-/

namespace SecretFill

open SecretFill.Text

structure ResourceName where
  project : List Code
  secret : List Code
  version : List Code
  deriving DecidableEq, Repr

namespace ResourceName

def latest : List Code := ("latest" : Text).toList

def projects : List Code := ("projects" : Text).toList

def secrets : List Code := ("secrets" : Text).toList

def versions : List Code := ("versions" : Text).toList

/-- White space, and then slashes, do not count at the ends of a locator. -/
def normalize (locator : Text) : List Code :=
  strip (fun character : Code => character == '/') (trim locator.toList)

/-- The name given by the pieces between slashes, none of which is empty. -/
def ofSegments (segments : List (List Code)) : Option ResourceName :=
  match segments with
  | [head, project, kind, secret] =>
      if head = projects ∧ kind = secrets then some ⟨project, secret, latest⟩ else none
  | [head, project, kind, secret, last, version] =>
      if head = projects ∧ kind = secrets ∧ last = versions then some ⟨project, secret, version⟩
      else none
  -- A first piece like that of a full name makes no short form.
  | [project, secret, version] =>
      if project = projects then none else some ⟨project, secret, version⟩
  | [project, secret] =>
      if project = projects then none else some ⟨project, secret, latest⟩
  | _ => none

def ofLocator (locator : Text) : Except ReferenceError ResourceName :=
  let parts := segments '/' (normalize locator)
  let found := if parts.any List.isEmpty then none else ofSegments parts
  match found with
  | some name => .ok name
  | none =>
      match parts with
      | head :: _ :: _ =>
          if head = projects then .error (.notFullName locator) else .error (.notShortName locator)
      | _ => .error (.notShortName locator)

def text (name : ResourceName) : Text :=
  "projects/" ++ Text.ofList name.project ++ "/secrets/" ++ Text.ofList name.secret ++ "/versions/" ++
    Text.ofList name.version

end ResourceName

def resolveLocator (locator : Text) : Except ReferenceError Text :=
  (ResourceName.ofLocator locator).map ResourceName.text

end SecretFill
