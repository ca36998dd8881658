import Conform.Run

/-!
# Runs one after another

Each of several runs starts from the state that the one before it leaves behind.  `Run.inTurn` lists
what every one of them comes to, and the results, the state and the events of the whole sequence can
be read off the list.
-/

set_option autoImplicit false

namespace Conform.Run

variable {σ α : Type}

def inTurn : List (Run σ α) → σ → List (Ran σ α)
  | [], _ => []
  | r :: rest, s => r s :: inTurn rest (r s).state

/-- The state after runs that began in the given one. -/
def stateAfter (s : σ) (rans : List (Ran σ α)) : σ := rans.foldl (fun _ ran => ran.state) s

theorem sequence_apply (rs : List (Run σ α)) (s : σ) :
    sequence rs s = ⟨(inTurn rs s).map Ran.result, stateAfter s (inTurn rs s),
      (inTurn rs s).flatMap Ran.events⟩ := by
  induction rs generalizing s with
  | nil => rfl
  | cons r rest ih =>
    rw [sequence, bind_apply, bind_apply, ih, pure_apply, List.append_nil]
    rfl

/-- The state in which the run at a position begins. -/
def turn (rs : List (Run σ α)) (s : σ) (i : Nat) : σ := stateAfter s (inTurn (rs.take i) s)

theorem getElem?_inTurn (rs : List (Run σ α)) (s : σ) (i : Nat) :
    (inTurn rs s)[i]? = rs[i]?.map fun r => r (turn rs s i) := by
  induction rs generalizing s i with
  | nil => rfl
  | cons r rest ih =>
    cases i with
    | zero => rfl
    | succ i => exact ih (r s).state i

theorem sequence_append (rs others : List (Run σ α)) :
    sequence (rs ++ others) = do return (← sequence rs) ++ (← sequence others) := by
  induction rs with
  | nil =>
    rw [sequence, pure_bind]
    exact (bind_pure _).symm
  | cons r rest ih =>
    rw [List.cons_append, sequence, sequence, ih]
    simp only [bind_assoc, pure_bind, List.cons_append]

/-- What is made of each result can be made of all of them afterwards. -/
theorem sequence_map_with {β γ : Type} (f : γ → α → β) (run : γ → Run σ α) (cs : List γ) :
    sequence (cs.map fun c => do return f c (← run c)) = do
      let as ← sequence (cs.map run)
      return (cs.zip as).map fun x => f x.1 x.2 := by
  induction cs with
  | nil => rfl
  | cons c rest ih =>
    simp only [List.map_cons, sequence, ih, bind_assoc, pure_bind, List.zip_cons_cons]

theorem inTurn_append (rs others : List (Run σ α)) (s : σ) :
    inTurn (rs ++ others) s = inTurn rs s ++ inTurn others (stateAfter s (inTurn rs s)) := by
  induction rs generalizing s with
  | nil => rfl
  | cons r rest ih => exact congrArg (r s :: ·) (ih (r s).state)

theorem stateAfter_append (s : σ) (rans others : List (Ran σ α)) :
    stateAfter s (rans ++ others) = stateAfter (stateAfter s rans) others := List.foldl_append

end Conform.Run
