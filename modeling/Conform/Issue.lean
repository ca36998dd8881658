import Conform.Path
import Conform.Value.Basic

/-!
# Issues

An issue says where a value fails, in words and with a code, and may tell what was expected and what
there was.  A failed validation has `Issues`, a list that is not empty.
-/

set_option autoImplicit false

namespace Conform

structure Issue where
  path : Path
  message : String
  code : String
  expected : Option String
  got : Option String
deriving DecidableEq

namespace Issue

/-- An issue that tells neither what was expected nor what there was. -/
def bare (path : Path) (message code : String) : Issue := ⟨path, message, code, none, none⟩

/-- The code of an issue that is given no other. -/
def generalCode : String := "validation_error"

def plain (path : Path) (message : String) : Issue := bare path message generalCode

def wrongKind (path : Path) (expected : String) (v : Value) (message : Option String) : Issue where
  path := path
  message := message.getD
    ("Expecting type '" ++ expected ++ "'. Got type '" ++ v.kindName ++ "'.")
  code := "invalid_type"
  expected := some expected
  got := some v.kindName

/-- The issue with its path counted from `base`. -/
def relocate (base : Path) (e : Issue) : Issue := { e with path := base ++ e.path }

def display (e : Issue) : String :=
  (if e.path.isRoot then "(root)" else e.path.display) ++ ": " ++ e.message
    ++ (match e.expected with
      | some expected => " (expected: " ++ expected ++ ")"
      | none => "")
    ++ (match e.got with
      | some got => " (got: " ++ got ++ ")"
      | none => "")

theorem relocate_root (e : Issue) : e.relocate .root = e := by
  obtain ⟨path, message, code, expected, got⟩ := e
  rfl

theorem relocate_relocate (p q : Path) (e : Issue) :
    (e.relocate q).relocate p = e.relocate (p ++ q) := by
  obtain ⟨path, message, code, expected, got⟩ := e
  simp only [relocate, Path.append_assoc]

end Issue

structure Issues where
  first : Issue
  others : List Issue
deriving DecidableEq

namespace Issues

def single (e : Issue) : Issues := ⟨e, []⟩

def toList (es : Issues) : List Issue := es.first :: es.others

instance : Append Issues := ⟨fun a b => ⟨a.first, a.others ++ b.toList⟩⟩

/-- The issues, and then more of them one after another. -/
def addAll (es : Issues) (more : List Issue) : Issues :=
  more.foldl (fun all e => all ++ single e) es

def ofList? : List Issue → Option Issues
  | [] => none
  | e :: rest => some ((single e).addAll rest)

def length (es : Issues) : Nat := es.toList.length

/-- The issues with their paths counted from `base`; the root changes no path. -/
def relocate (base : Path) (es : Issues) : Issues :=
  if base.isRoot then es
  else (single (es.first.relocate base)).addAll ((es.toList.drop 1).map (·.relocate base))

def atPath (es : Issues) (path : Path) : List Issue := es.toList.filter fun e => e.path == path

def withCode (es : Issues) (code : String) : List Issue := es.toList.filter fun e => e.code == code

def messages (es : Issues) : List String := es.toList.map Issue.message

/-- The lines of numbered issues, the first of which has the given number. -/
def displayFrom : (number : Nat) → List Issue → String
  | _, [] => ""
  | number, e :: rest =>
    "  " ++ toString number ++ ". " ++ e.display ++ "\n" ++ displayFrom (number + 1) rest

def display (es : Issues) : String :=
  "Validation failed with " ++ toString es.length ++ " error(s):\n" ++ displayFrom 1 es.toList

/-! ## Issues as a list -/

theorem eq_of_toList_eq {a b : Issues} (h : a.toList = b.toList) : a = b := by
  obtain ⟨first, others⟩ := a
  cases b
  cases h
  rfl

theorem toList_ne_nil (es : Issues) : es.toList ≠ [] := List.cons_ne_nil _ _

theorem toList_append (a b : Issues) : (a ++ b).toList = a.toList ++ b.toList := rfl

theorem toList_addAll (es : Issues) (more : List Issue) :
    (es.addAll more).toList = es.toList ++ more := by
  induction more generalizing es with
  | nil => exact (List.append_nil _).symm
  | cons e rest ih =>
    have step : es.addAll (e :: rest) = (es ++ single e).addAll rest := rfl
    rw [step, ih, toList_append, List.append_assoc]
    rfl

theorem toList_relocate (base : Path) (es : Issues) :
    (es.relocate base).toList = es.toList.map (·.relocate base) := by
  rw [relocate]
  split
  · next atRoot =>
    have same : (Issue.relocate base) = id := by
      obtain rfl : base = .root := congrArg Path.mk (List.isEmpty_iff.mp atRoot)
      exact funext Issue.relocate_root
    rw [same, List.map_id]
  · rw [toList_addAll]
    rfl

theorem ofList?_cons (e : Issue) (rest : List Issue) : ofList? (e :: rest) = some ⟨e, rest⟩ :=
  congrArg some (eq_of_toList_eq (toList_addAll (single e) rest))

theorem ofList?_toList (es : Issues) : ofList? es.toList = some es :=
  ofList?_cons es.first es.others

theorem ofList?_eq_none_iff (es : List Issue) : ofList? es = none ↔ es = [] := by
  cases es with
  | nil => exact ⟨fun _ => rfl, fun _ => rfl⟩
  | cons e rest =>
    constructor
    · intro h
      cases h
    · intro h
      cases h

theorem toList_of_ofList? {es : List Issue} {all : Issues} (h : ofList? es = some all) :
    all.toList = es := by
  cases es with
  | nil => cases h
  | cons e rest =>
    rw [ofList?_cons] at h
    cases h
    rfl

end Issues

end Conform
