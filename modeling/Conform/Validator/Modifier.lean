import Conform.Validator.Basic
import Conform.Value.Presence

/-!
# Modifiers

A modifier either answers for a value itself and leaves all others to the validator within it, or
does something more with the output of that validator.  The issues of the validator within pass
unchanged.
-/

set_option autoImplicit false

namespace Conform.Validator

variable {σ α β : Type}

def nullable (inner : Validator σ Value) : Validator σ Value := fun v p =>
  if v.isNull then pure (.success .null) else inner v p

def optional (inner : Validator σ Value) : Validator σ Value := fun v p =>
  if v.isAbsent then pure (.success .absent) else inner v p

/-- Like `nullable`, but the output tells nothing from something. -/
def option (inner : Validator σ α) : Validator σ (Option α) := fun v p =>
  if v.isNull then pure (.success none) else inner.map some v p

/-- Like `optional`, but the output tells what is absent from what is present. -/
def presence (inner : Validator σ α) : Validator σ (Presence α) := fun v p =>
  if v.isAbsent then pure (.success .absent) else inner.map .present v p

/-- Puts something in the place of an absent value. -/
def withDefault (fallback : StateM σ α) (inner : Validator σ α) : Validator σ α := fun v p =>
  if v.isAbsent then do return .success (← Run.ofState fallback) else inner v p

def refine (test : α → StateM σ Bool) (message code : String) (inner : Validator σ α) :
    Validator σ α := fun v p => do
  match ← inner v p with
  | .success a =>
    if ← Run.ofState (test a) then return .success a
    else return .fail (.bare p message code)
  | .failure es => return .failure es

theorem refine_result (test : α → StateM σ Bool) (message code : String) (inner : Validator σ α)
    (v : Value) (p : Path) (s : σ) :
    (inner.refine test message code v p s).result = (inner v p s).result.bind fun a =>
      if ((test a).run (inner v p s).state).1 then .success a
      else .fail (.bare p message code) := by
  rw [refine, Run.bind_apply]
  cases (inner v p s).result with
  | failure es => rfl
  | success a =>
    show Ran.result ((if ((test a).run (inner v p s).state).1 = true then pure (.success a)
      else pure (.fail (.bare p message code)) : Run σ (Outcome α)) _) = _
    by_cases holds : ((test a).run (inner v p s).state).1 = true
    · rw [if_pos holds, Outcome.bind, if_pos holds]
      rfl
    · rw [if_neg holds, Outcome.bind, if_neg holds]
      rfl

def transform (f : α → StateM σ β) (inner : Validator σ α) : Validator σ β := fun v p => do
  match ← inner v p with
  | .success a => return .success (← Run.ofState (f a))
  | .failure es => return .failure es

/-- Turns the output into another one, or fails with issues whose paths start at the value. -/
def tryMap (f : α → StateM σ (Outcome β)) (inner : Validator σ α) : Validator σ β := fun v p => do
  match ← inner v p with
  | .success a => return (← Run.ofState (f a)).relocate p
  | .failure es => return .failure es

def steps (fs : List (α → StateM σ α)) (a : α) : StateM σ α := fs.foldlM (fun a f => f a) a

theorem steps_cons (f : α → StateM σ α) (fs : List (α → StateM σ α)) (a : α) :
    steps (f :: fs) a = f a >>= steps fs := by
  rw [steps, List.foldlM_cons]
  rfl

def chain (fs : List (α → StateM σ α)) (inner : Validator σ α) : Validator σ α :=
  inner.transform (steps fs)

/-- Converts the value first, if there is a conversion. -/
def coerce (c : Coercion) (inner : Validator σ α) : Validator σ α := fun v p =>
  match c.convert? v with
  | some converted => do
    Run.tell (.converted p v.kindName converted.kindName)
    inner converted p
  | none => inner v p

end Conform.Validator
