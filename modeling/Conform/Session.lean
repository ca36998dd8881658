import Conform.Pattern.Reader
import Conform.Schema.Basic
import Conform.Value.Test

/-!
# Sessions

A session is the state that the functions of a schema share over all the values it is applied to: a
log, and how often each of its numbered fallbacks has been asked.  Its patterns are those that can
be read here.
-/

set_option autoImplicit false

namespace Conform

structure Session where
  /-- The lines of the log, the last one first. -/
  lines : List String
  /-- The numbers of the fallbacks that were asked, once for each time. -/
  asked : List Nat

namespace Session

def start : Session := ⟨[], []⟩

def log (s : Session) : List String := s.lines.reverse

def write (line : String) : StateM Session Unit :=
  modify fun s => { s with lines := line :: s.lines }

/-- The next of the values of a numbered fallback, and the last one from then on. -/
def fallback {α : Type} (number : Nat) (first : α) (others : List α) : StateM Session α := do
  let s ← get
  let count := s.asked.count number
  set { s with asked := number :: s.asked }
  return ((first :: others)[count]?).getD ((first :: others).getLast (by simp))

/-- A test that first writes a line, if it has a name. -/
def test (name : Option String) (t : ValueTest) (v : Value) : StateM Session Bool := do
  match name with
  | some name => write (name ++ ":" ++ v.display)
  | none => pure ()
  return t.holds v

def testOutput (name : Option String) (t : ValueTest) (τ : OutputType) (a : Output τ) :
    StateM Session Bool :=
  test name t (Output.view τ a)

/-- Passes an output that stands the test; any other one has the given issues. -/
def check (name : Option String) (t : ValueTest) (issues : List Issue) (τ : OutputType)
    (a : Output τ) : StateM Session (Outcome (Output τ)) := do
  if ← testOutput name t τ a then return .success a else return .settle a issues

/-- Writes a line for every value, then accepts it, or fails with the given issues. -/
def probe (name : String) (issues : List Issue) : Validator Session Value := fun v p => do
  Run.ofState (write (name ++ "@" ++ p.display ++ ":" ++ v.display))
  return .settle v issues

end Session

def TextRules.pattern (rules : TextRules) (written : String) : Except BuildFault TextRules :=
  rules.matching Pattern.compile written

end Conform
