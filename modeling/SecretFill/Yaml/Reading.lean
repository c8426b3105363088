import SecretFill.Yaml.Construction
/-!
Reading a text as a stream of documents. The data of each document is made before the next one is
looked at, so of two faults the one in the earlier document is found.
-/

namespace SecretFill.Yaml

open SecretFill.Data

def unacceptable? (position : Nat) : List Code → Option (Code × Nat)
  | [] => none
  | character :: rest =>
      if isAcceptable character then unacceptable? (position + 1) rest
      else some (character, position)

/-- Adds the documents of some events to a stream; `failure` is why the events end. Each document
takes at least one event, which bounds the steps. -/
def documentsOf (failure : Option Failure) : Nat → Stream → List Event → Except Failure Stream
  | 0, stream, _ => .ok stream
  | _, stream, [] =>
      match failure with
      | some failure => .error failure
      | none => .ok stream
  | fuel + 1, stream, event :: rest =>
      match event.kind with
      | .documentStart => do
          let (graph, rest) ← NodeGraph.ofEvents failure Assembly.empty rest
          let stream ← addDocument stream graph
          documentsOf failure fuel stream rest
      | .streamEnd => .ok stream
      | _ => documentsOf failure fuel stream rest

def read (text : List Code) : Except Failure Stream :=
  match unacceptable? 0 text with
  | some (character, position) => .error (.unacceptable character position)
  | none =>
      let (events, failure) := Event.ofText text
      documentsOf failure (events.length + 1) Stream.empty events

end SecretFill.Yaml
