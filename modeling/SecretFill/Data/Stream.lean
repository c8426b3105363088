import SecretFill.Data.Value
/-!
A stream of documents over one graph of cells: one root for each document, in order.
-/

namespace SecretFill.Data

structure Stream where
  cells : Array Cell
  roots : List Value
  deriving DecidableEq, Repr

def Stream.empty : Stream := ⟨#[], []⟩

def Stream.document (stream : Stream) (root : Value) : Document := ⟨stream.cells, root⟩

end SecretFill.Data
