import Conform.Pattern.Search
import Conform.Pattern.Standard
import Conform.Schema.Basic

/-!
# Building schemas

Schemas of common texts, modifiers for schemas of any output, and the coercions, which are refused
for the kinds that have none.
-/

set_option autoImplicit false

namespace Conform.Schema

variable {σ : Type} {τ : OutputType}

/-- The code of a requirement on an output that is given no other. -/
def refinementCode : String := "refinement"

/-- Texts in which a pattern occurs. -/
def format (p : Pattern) (message : String) : Schema σ .text :=
  .refine (fun (s : String) => pure (p.occursIn s)) message refinementCode (.text .empty)

def email (message : Option String) : Schema σ .text :=
  format .email (message.getD "Expecting string to be a valid email address")

def uuid (message : Option String) : Schema σ .text :=
  format .uuid (message.getD "Expecting string to be a valid uuid")

/-- Literals, unless the constant equals no value or is no scalar. -/
def literalOf (v : Value) (message : Option String) : Except BuildFault (Schema σ .value) :=
  (Literal.of v).map fun l => .literal { l with message := message }

/-- Enumerations, unless they are empty or have a member that no literal can be. -/
def enumerationOf (values : List Value) (message : Option String) :
    Except BuildFault (Schema σ .value) :=
  (Enumeration.of values).map fun e => .enumeration { e with message := message }

def orNull (s : Schema σ τ) : Schema σ .value := .nullable s.erased

def orAbsent (s : Schema σ τ) : Schema σ .value := .optional s.erased

def clamp (s : Schema σ .number) (low high : Binary64) : Schema σ .number :=
  @transform σ .number .number (fun (x : Binary64) => pure (x.clamp low high)) s

def edited (s : Schema σ τ) (edits : List Edit) : Schema σ τ :=
  .chain (edits.map fun e a => pure (e.onOutput τ a)) s

def derived (s : Schema σ τ) (d : Derivation) : Schema σ .value :=
  @transform σ τ .value (fun a => pure (d.apply (Output.view τ a))) s

/-- Takes an output that is a text, as keys have to be. -/
def textKey (s : Schema σ τ) : Schema σ .text :=
  @tryMap σ τ .text (fun a => pure <|
    match Output.view τ a with
    | .text key => .success key
    | v => .fail (.plain .root ("unexpected key " ++ v.display))) s

/-- Converts values to the kind of the schema, if there is a coercion to it. -/
def coerced (s : Schema σ τ) : Except BuildFault (Schema σ τ) :=
  match Coercion.forKind? s.kind with
  | some c => .ok (.coerce c s)
  | none => .error (.notCoercible s.kind)

def asText : Schema σ .text := .coerce .toText (.text .empty)

def asNumber : Schema σ .number := .coerce .toNumber (.number .empty)

def asBoolean : Schema σ .boolean := .coerce .toBoolean (.boolean none)

def asDate : Schema σ .date := .coerce .toDate (.date .empty)

/-! ## Looking into schemas -/

/-- What a schema tells of itself besides its kind. -/
inductive Description where
  | fields (names : List String)
  | members (values : List Value)
  | constant (v : Value)
  | arity (n : Nat)
  | coercion (c : Coercion)
  | nothing

def describe : Schema σ τ → Description
  | object shape => .fields (Entries.keys shape.fields)
  | enumeration e => .members e.values
  | literal l => .constant l.constant.value
  | tuple _ positions => .arity positions.length
  | coerce c _ => .coercion c
  | _ => .nothing

end Conform.Schema
