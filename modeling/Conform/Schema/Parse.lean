import Conform.Schema.Basic

/-!
# Applying schemas

`validate` runs a schema on a value at a path.  `parse` runs it at the root, and tells when the
value is rejected.
-/

set_option autoImplicit false

namespace Conform.Schema

variable {σ : Type} {τ : OutputType}

def validate (s : Schema σ τ) (v : Value) (p : Path) : Run σ (Outcome (Output τ)) := s.validator v p

/-- The output as a part of another value. -/
def validateErased (s : Schema σ τ) (v : Value) (p : Path) : Run σ (Outcome Value) :=
  s.erased.validate v p

def parse (s : Schema σ τ) (v : Value) : Run σ (Outcome (Output τ)) := do
  match ← s.validate v .root with
  | .success a => return .success a
  | .failure es =>
    Run.tell (.rejected s.kind es.length es.first.path)
    return .failure es

end Conform.Schema
