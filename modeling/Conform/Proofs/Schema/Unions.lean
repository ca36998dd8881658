import Conform.Proofs.Run.InTurn
import Conform.Proofs.Schema.Accumulation
import Conform.Proofs.Schema.Structure
import Conform.Schema.Parse

/-!
# What a union makes of its alternatives

A union runs its alternatives one after another, up to the first that accepts the value, and answers
with the output of that one.  If all of them fail, then the union fails, for every failure has
issues; only a union without alternatives, or with a message of its own, makes up an issue of its
own.

What comes after the first success is not run, so a union within a union may as well be written out,
unless it has a message that would hide the issues of its alternatives.
-/

set_option autoImplicit false

namespace Conform

/-- The attempt, had an alternative with the given issues failed before it. -/
def Validator.Attempt.after {α : Type} (es : Issues) : Attempt α → Attempt α
  | .accepted position a => .accepted position a
  | .rejected issues => .rejected (es.toList ++ issues)

namespace Schema

open Run Validator

variable {σ : Type} {v : Value} {p : Path} {s : σ}

/-- What alternatives come to that are run on a value, each of them after the one before it. -/
def turns (alternatives : List (Schema σ .value)) (v : Value) (p : Path) (s : σ) :
    List (Ran σ (Outcome Value)) := inTurn (alternatives.map fun c => c.validate v p) s

theorem turns_cons (c : Schema σ .value) (rest : List (Schema σ .value)) (v : Value) (p : Path)
    (s : σ) :
    turns (c :: rest) v p s = c.validate v p s :: turns rest v p (c.validate v p s).state :=
  rfl

theorem turns_append (cs ds : List (Schema σ .value)) (v : Value) (p : Path) (s : σ) :
    turns (cs ++ ds) v p s = turns cs v p s ++ turns ds v p (stateAfter s (turns cs v p s)) := by
  rw [turns, List.map_append, inTurn_append]
  rfl

/-- No alternative accepts the value when its turn comes. -/
def Exhausted (alternatives : List (Schema σ .value)) (v : Value) (p : Path) (s : σ) : Prop :=
  ∀ ran ∈ turns alternatives v p s, ∃ es, ran.result = .failure es

theorem exhausted_cons_iff (c : Schema σ .value) (rest : List (Schema σ .value)) :
    Exhausted (c :: rest) v p s ↔
      (∃ es, (c.validate v p s).result = .failure es) ∧
        Exhausted rest v p (c.validate v p s).state := List.forall_mem_cons

theorem exhausted_append_iff (cs ds : List (Schema σ .value)) :
    Exhausted (cs ++ ds) v p s ↔
      Exhausted cs v p s ∧ Exhausted ds v p (stateAfter s (turns cs v p s)) := by
  rw [Exhausted, turns_append]
  exact List.forall_mem_append

/-- The issues of alternatives that are run in turn. -/
def issuesInTurn (alternatives : List (Schema σ .value)) (v : Value) (p : Path) (s : σ) :
    List Issue :=
  (turns alternatives v p s).flatMap fun ran => ran.result.issues

/-! ## Attempts -/

theorem attempt_cons_of_success {c : Schema σ .value} {a : Value}
    (answer : (c.validate v p s).result = .success a) (rest : List (Schema σ .value))
    (position : Nat) :
    attempt v p position ((c :: rest).map validator) s =
      ⟨.accepted position a, (c.validate v p s).state, (c.validate v p s).events⟩ := by
  rw [validate] at answer
  rw [List.map_cons, attempt, bind_apply, answer]
  dsimp only
  rw [pure_apply, List.append_nil]
  rfl

theorem attempt_cons_of_failure {c : Schema σ .value} {es : Issues}
    (answer : (c.validate v p s).result = .failure es) (rest : List (Schema σ .value))
    (position : Nat) :
    attempt v p position ((c :: rest).map validator) s =
      let others := attempt v p (position + 1) (rest.map validator) (c.validate v p s).state
      ⟨others.result.after es, others.state, (c.validate v p s).events ++ others.events⟩ := by
  rw [validate] at answer ⊢
  rw [List.map_cons, attempt, bind_apply, answer]
  dsimp only
  rw [bind_apply]
  cases (attempt v p (position + 1) (rest.map validator) (c.validator v p s).state).result with
  | accepted position a | rejected issues =>
    dsimp only
    rw [pure_apply, List.append_nil]
    rfl

theorem attempt_of_first {before : List (Schema σ .value)} {chosen : Schema σ .value} {a : Value}
    (fail : Exhausted before v p s)
    (accepts : (chosen.validate v p (stateAfter s (turns before v p s))).result = .success a)
    (after : List (Schema σ .value)) (position : Nat) :
    attempt v p position ((before ++ chosen :: after).map validator) s =
      let ran := chosen.validate v p (stateAfter s (turns before v p s))
      ⟨.accepted (position + before.length) a, ran.state,
        (turns before v p s).flatMap Ran.events ++ ran.events⟩ := by
  induction before generalizing position s with
  | nil => exact attempt_cons_of_success accepts after position
  | cons c rest ih =>
    obtain ⟨⟨es, answer⟩, others⟩ := (exhausted_cons_iff c rest).mp fail
    have count : position + 1 + rest.length = position + (rest.length + 1) := by omega
    rw [List.cons_append, attempt_cons_of_failure answer, ih others accepts, count]
    exact congrArg (Ran.mk _ _) (List.append_assoc _ _ _).symm

theorem attempt_of_exhausted {alternatives : List (Schema σ .value)}
    (fail : Exhausted alternatives v p s) (position : Nat) :
    attempt v p position (alternatives.map validator) s =
      ⟨.rejected (issuesInTurn alternatives v p s), stateAfter s (turns alternatives v p s),
        (turns alternatives v p s).flatMap Ran.events⟩ := by
  induction alternatives generalizing position s with
  | nil => rfl
  | cons c rest ih =>
    obtain ⟨⟨es, answer⟩, others⟩ := (exhausted_cons_iff c rest).mp fail
    rw [attempt_cons_of_failure answer, ih others, issuesInTurn, issuesInTurn, turns_cons,
      List.flatMap_cons, answer]
    rfl

/-! ## Unions -/

/-- The first alternative that accepts the value answers. -/
theorem union_of_first (message : Option String) {before : List (Schema σ .value)}
    {chosen : Schema σ .value} {a : Value} (fail : Exhausted before v p s)
    (accepts : (chosen.validate v p (stateAfter s (turns before v p s))).result = .success a)
    (after : List (Schema σ .value)) :
    (union message (before ++ chosen :: after)).validate v p s =
      let ran := chosen.validate v p (stateAfter s (turns before v p s))
      ⟨.success a, ran.state,
        (turns before v p s).flatMap Ran.events ++ ran.events ++ [.matched p before.length]⟩ := by
  rw [validate, validator_union, Validator.union, bind_apply, attempt_of_first fail accepts after 0,
    Nat.zero_add]
  rfl

/-- A failure of all alternatives, each of which has been run. -/
theorem union_of_exhausted (message : Option String) {alternatives : List (Schema σ .value)}
    (fail : Exhausted alternatives v p s) :
    (union message alternatives).validate v p s =
      ⟨.failure (rejection message alternatives.length p v (issuesInTurn alternatives v p s)),
        stateAfter s (turns alternatives v p s),
        (turns alternatives v p s).flatMap Ran.events⟩ := by
  rw [validate, validator_union, Validator.union, bind_apply, attempt_of_exhausted fail 0,
    List.length_map]
  dsimp only
  rw [pure_apply, List.append_nil]

/-- The issues of alternatives that all fail are issues, if there are any alternatives. -/
theorem issues_ne_nil {alternatives : List (Schema σ .value)}
    (fail : Exhausted alternatives v p s) (some : alternatives ≠ []) :
    issuesInTurn alternatives v p s ≠ [] := by
  cases alternatives with
  | nil => exact absurd rfl some
  | cons c rest =>
    obtain ⟨⟨es, answer⟩, _⟩ := (exhausted_cons_iff c rest).mp fail
    rw [issuesInTurn, turns_cons, List.flatMap_cons, answer]
    exact List.append_ne_nil_of_left_ne_nil es.toList_ne_nil _

/-! ## Which alternatives are called -/

/-- The calls of alternatives that are run in turn, each in the state that the one before it
left. -/
def madeInTurn (v : Value) (p : Path) : List (Schema σ .value) → σ → List (Made σ)
  | [], _ => []
  | c :: rest, s => ⟨⟨.value, c, v, p⟩, s⟩ :: madeInTurn v p rest (c.validate v p s).state

theorem madeInTurn_append (cs ds : List (Schema σ .value)) (s : σ) :
    madeInTurn v p (cs ++ ds) s =
      madeInTurn v p cs s ++ madeInTurn v p ds (stateAfter s (turns cs v p s)) := by
  induction cs generalizing s with
  | nil => rfl
  | cons c rest ih => exact congrArg _ (ih (c.validate v p s).state)

/-- A run without the calls that it noted. -/
def forget (ran : Ran (Recording σ) (Outcome Value)) : Ran σ (Outcome Value) :=
  ⟨ran.result, ran.state.state, ran.events⟩

/-- Noting the calls changes nothing else. -/
theorem turns_noted (cs : List (Schema σ .value)) (s : σ) (calls : List (Made σ)) :
    (turns (cs.map noted) v p ⟨s, calls⟩).map forget = turns cs v p s ∧
      stateAfter ⟨s, calls⟩ (turns (cs.map noted) v p ⟨s, calls⟩) =
        ⟨stateAfter s (turns cs v p s), calls ++ madeInTurn v p cs s⟩ := by
  induction cs generalizing s calls with
  | nil => exact ⟨rfl, congrArg (Recording.mk s) (List.append_nil calls).symm⟩
  | cons c rest ih =>
    obtain ⟨rans, last⟩ := ih (c.validate v p s).state (calls ++ [⟨⟨.value, c, v, p⟩, s⟩])
    rw [List.append_assoc] at last
    exact ⟨congrArg _ rans, last⟩

theorem flatMap_turns_noted {β : Type} (f : Ran σ (Outcome Value) → List β)
    (cs : List (Schema σ .value)) (s : σ) (calls : List (Made σ)) :
    (turns (cs.map noted) v p ⟨s, calls⟩).flatMap (fun ran => f (forget ran)) =
      (turns cs v p s).flatMap f := by
  rw [← (turns_noted cs s calls).1, List.flatMap_map]

theorem exhausted_noted_iff (cs : List (Schema σ .value)) (s : σ) (calls : List (Made σ)) :
    Exhausted (cs.map noted) v p ⟨s, calls⟩ ↔ Exhausted cs v p s := by
  rw [Exhausted, Exhausted, ← (turns_noted cs s calls).1, List.forall_mem_map]
  rfl

/-- The union calls these of its alternatives, in this order and each of them once, and no others;
noting the calls changes nothing else. -/
def Calls (message : Option String) (alternatives : List (Schema σ .value)) (v : Value) (p : Path)
    (s : σ) (called : List (Schema σ .value)) : Prop :=
  (union message (alternatives.map noted)).validate v p ⟨s, []⟩ =
    let ran := (union message alternatives).validate v p s
    ⟨ran.result, ⟨ran.state, madeInTurn v p called s⟩, ran.events⟩

theorem calls_of_first (message : Option String) {before : List (Schema σ .value)}
    {chosen : Schema σ .value} {a : Value} (fail : Exhausted before v p s)
    (accepts : (chosen.validate v p (stateAfter s (turns before v p s))).result = .success a)
    (after : List (Schema σ .value)) :
    Calls message (before ++ chosen :: after) v p s (before ++ [chosen]) := by
  have last := (turns_noted (v := v) (p := p) before s []).2
  have noted : (chosen.noted.validate v p
      (stateAfter ⟨s, []⟩ (turns (before.map noted) v p ⟨s, []⟩))).result = .success a := by
    rw [last]
    exact accepts
  have made : madeInTurn v p (before ++ [chosen]) s =
      madeInTurn v p before s ++ [⟨⟨.value, chosen, v, p⟩, stateAfter s (turns before v p s)⟩] :=
    madeInTurn_append before [chosen] s
  have events : (turns (before.map Schema.noted) v p ⟨s, []⟩).flatMap Ran.events =
      (turns before v p s).flatMap Ran.events := flatMap_turns_noted Ran.events before s []
  rw [Calls, union_of_first _ fail accepts, List.map_append, List.map_cons,
    union_of_first _ ((exhausted_noted_iff before s []).mpr fail) noted, last, made, events,
    List.length_map]
  rfl

theorem calls_of_exhausted (message : Option String) {alternatives : List (Schema σ .value)}
    (fail : Exhausted alternatives v p s) :
    Calls message alternatives v p s alternatives := by
  have issues : issuesInTurn (alternatives.map noted) v p ⟨s, []⟩ =
      issuesInTurn alternatives v p s :=
    flatMap_turns_noted (fun ran => ran.result.issues) alternatives s []
  have events : (turns (alternatives.map noted) v p ⟨s, []⟩).flatMap Ran.events =
      (turns alternatives v p s).flatMap Ran.events :=
    flatMap_turns_noted Ran.events alternatives s []
  rw [Calls, union_of_exhausted _ fail,
    union_of_exhausted _ ((exhausted_noted_iff alternatives s []).mpr fail),
    (turns_noted alternatives s []).2, issues, events, List.length_map]
  rfl

/-! ## Unions within unions -/

/-- Either no alternative accepts the value or there is a first one that does. -/
theorem exhausted_or_first (alternatives : List (Schema σ .value)) (v : Value) (p : Path) (s : σ) :
    Exhausted alternatives v p s ∨ ∃ before chosen after a,
      alternatives = before ++ chosen :: after ∧ Exhausted before v p s ∧
        (chosen.validate v p (stateAfter s (turns before v p s))).result = .success a := by
  induction alternatives generalizing s with
  | nil => exact .inl nofun
  | cons c rest ih =>
    cases answer : (c.validate v p s).result with
    | success a => exact .inr ⟨[], c, rest, a, rfl, nofun, answer⟩
    | failure es =>
      rcases ih (c.validate v p s).state with all | ⟨before, chosen, after, a, rfl, fail, accepts⟩
      · exact .inl ((exhausted_cons_iff c rest).mpr ⟨⟨es, answer⟩, all⟩)
      · exact .inr ⟨c :: before, chosen, after, a, rfl,
          (exhausted_cons_iff c before).mpr ⟨⟨es, answer⟩, fail⟩, accepts⟩

/-- Alternatives that all fail, with the same issues and the same state after them. -/
structure FailAlike (cs ds : List (Schema σ .value)) (v : Value) (p : Path) (s : σ) : Prop where
  left : Exhausted cs v p s
  right : Exhausted ds v p s
  state : stateAfter s (turns cs v p s) = stateAfter s (turns ds v p s)
  issues : issuesInTurn cs v p s = issuesInTurn ds v p s

theorem FailAlike.refl {cs : List (Schema σ .value)} (fail : Exhausted cs v p s) :
    FailAlike cs cs v p s := ⟨fail, fail, rfl, rfl⟩

theorem FailAlike.append {cs ds cs' ds' : List (Schema σ .value)} (first : FailAlike cs ds v p s)
    (second : FailAlike cs' ds' v p (stateAfter s (turns cs v p s))) :
    FailAlike (cs ++ cs') (ds ++ ds') v p s where
  left := (exhausted_append_iff cs cs').mpr ⟨first.left, second.left⟩
  right := (exhausted_append_iff ds ds').mpr ⟨first.right, first.state ▸ second.right⟩
  state := by
    rw [turns_append, turns_append, stateAfter_append, stateAfter_append, second.state, first.state]
  issues := by
    rw [issuesInTurn, issuesInTurn, turns_append, turns_append, List.flatMap_append,
      List.flatMap_append, ← first.state]
    exact congrArg₂ _ first.issues second.issues

/-- Without a message, issues are reported as they are. -/
theorem rejection_of_issues {issues : List Issue} (some : issues ≠ []) :
    ∃ es : Issues, es.toList = issues ∧ ∀ n p v, rejection none n p v issues = es := by
  cases issues with
  | nil => exact absurd rfl some
  | cons e rest => exact ⟨⟨e, rest⟩, rfl, fun n p v => rejection_cons n p v e rest⟩

/-- Alternatives fail like the union of them. -/
theorem failAlike_nested {group : List (Schema σ .value)} (fail : Exhausted group v p s)
    (some : group ≠ []) : FailAlike [union none group] group v p s := by
  have nested := union_of_exhausted none fail
  refine ⟨(exhausted_cons_iff _ []).mpr ⟨⟨_, congrArg Ran.result nested⟩, nofun⟩, fail,
    congrArg Ran.state nested, ?_⟩
  obtain ⟨es, own, reported⟩ := rejection_of_issues (issues_ne_nil fail some)
  rw [issuesInTurn, turns_cons, nested, reported, ← own]
  exact List.append_nil _

/-- Runs of different unions that come to the same; the events tell of positions, which differ. -/
def SameEnd (ran ran' : Ran σ (Outcome Value)) : Prop :=
  ran.result = ran'.result ∧ ran.state = ran'.state

theorem sameEnd_of_failAlike {cs ds : List (Schema σ .value)} (alike : FailAlike cs ds v p s)
    (some : cs ≠ []) :
    SameEnd ((union none cs).validate v p s) ((union none ds).validate v p s) := by
  rw [union_of_exhausted _ alike.left, union_of_exhausted _ alike.right]
  obtain ⟨es, _, reported⟩ := rejection_of_issues (issues_ne_nil alike.left some)
  rw [← alike.issues, reported, reported]
  exact ⟨rfl, alike.state⟩

theorem sameEnd_of_first {cs ds : List (Schema σ .value)} (alike : FailAlike cs ds v p s)
    {chosen : Schema σ .value} {a : Value}
    (accepts : (chosen.validate v p (stateAfter s (turns cs v p s))).result = .success a)
    (after after' : List (Schema σ .value)) :
    SameEnd ((union none (cs ++ chosen :: after)).validate v p s)
      ((union none (ds ++ chosen :: after')).validate v p s) := by
  have accepts' : (chosen.validate v p (stateAfter s (turns ds v p s))).result = .success a :=
    alike.state ▸ accepts
  rw [union_of_first _ alike.left accepts, union_of_first _ alike.right accepts', alike.state]
  exact ⟨rfl, rfl⟩

theorem union_nested (before : List (Schema σ .value)) {group : List (Schema σ .value)}
    (some : group ≠ []) (after : List (Schema σ .value)) (v : Value) (p : Path) (s : σ) :
    SameEnd ((union none (before ++ union none group :: after)).validate v p s)
      ((union none (before ++ group ++ after)).validate v p s) := by
  -- The first alternative that accepts the value is before, in or after the group, if there is one.
  rcases exhausted_or_first before v p s with failBefore | ⟨b, chosen, rest, a, rfl, fail, accepts⟩
  swap
  · -- An alternative before the group answers.
    simp only [List.append_assoc, List.cons_append]
    exact sameEnd_of_first (.refl fail) accepts _ _
  rcases exhausted_or_first group v p (stateAfter s (turns before v p s)) with
    failGroup | ⟨g, chosen, rest, a, rfl, fail, accepts⟩
  swap
  · -- A member of the group answers, and so does the union of the group.
    have nested := union_of_first none fail accepts rest
    have accepts' : (chosen.validate v p (stateAfter s (turns (before ++ g) v p s))).result =
        .success a := by
      rw [turns_append, stateAfter_append]
      exact accepts
    have whole : before ++ (g ++ chosen :: rest) ++ after =
        (before ++ g) ++ chosen :: (rest ++ after) := by
      simp only [List.append_assoc, List.cons_append]
    rw [whole, union_of_first _ failBefore (congrArg Ran.result nested),
      union_of_first _ ((exhausted_append_iff before g).mpr ⟨failBefore, fail⟩) accepts', nested,
      turns_append, stateAfter_append]
    exact ⟨rfl, rfl⟩
  have alike := (FailAlike.refl failBefore).append (failAlike_nested failGroup some)
  rcases exhausted_or_first after v p
    (stateAfter s (turns (before ++ [union none group]) v p s)) with
    failAfter | ⟨c, chosen, rest, a, rfl, fail, accepts⟩
  · -- No alternative answers.
    have all := alike.append (FailAlike.refl failAfter)
    rw [List.append_assoc] at all
    exact sameEnd_of_failAlike all
      (List.append_ne_nil_of_right_ne_nil before (List.cons_ne_nil _ _))
  · -- An alternative after the group answers.
    have all := alike.append (FailAlike.refl fail)
    have accepts' : (chosen.validate v p
        (stateAfter s (turns (before ++ [union none group] ++ c) v p s))).result = .success a := by
      rw [turns_append, stateAfter_append]
      exact accepts
    have same := sameEnd_of_first all accepts' rest rest
    simp only [List.append_assoc, List.cons_append, List.nil_append] at same ⊢
    exact same

/-! ## Which alternative answers -/

/-- The issues of a union whose alternatives all fail. -/
def exhaustedIssues (message : Option String) (alternatives : List (Schema σ .value)) (v : Value)
    (p : Path) (s : σ) : List Issue :=
  match message, alternatives with
  | some message, _ => [noMatch message alternatives.length p v]
  | none, [] => [noMatch "Expecting value to match at least one alternative." 0 p v]
  | none, _ => issuesInTurn alternatives v p s

theorem union_issues_of_exhausted (message : Option String) {alternatives : List (Schema σ .value)}
    (fail : Exhausted alternatives v p s) :
    ∃ es, ((union message alternatives).validate v p s).result = .failure es ∧
      es.toList = exhaustedIssues message alternatives v p s := by
  refine ⟨_, congrArg Ran.result (union_of_exhausted _ fail), ?_⟩
  cases message with
  | some message => rfl
  | none =>
    cases alternatives with
    | nil => rfl
    | cons c rest =>
      obtain ⟨es, own, reported⟩ :=
        rejection_of_issues (issues_ne_nil fail (List.cons_ne_nil c rest))
      rw [reported]
      exact own

theorem union_success_iff (message : Option String) (alternatives : List (Schema σ .value))
    (v : Value) (p : Path) (s : σ) (a : Value) :
    ((union message alternatives).validate v p s).result = .success a ↔
      ∃ before chosen after, alternatives = before ++ chosen :: after ∧ Exhausted before v p s ∧
        (chosen.validate v p (stateAfter s (turns before v p s))).result = .success a ∧
        Calls message alternatives v p s (before ++ [chosen]) := by
  constructor
  · intro accepted
    rcases exhausted_or_first alternatives v p s with
      fail | ⟨before, chosen, after, b, rfl, fail, accepts⟩
    · rw [union_of_exhausted _ fail] at accepted
      cases accepted
    · rw [union_of_first _ fail accepts] at accepted
      cases accepted
      exact ⟨before, chosen, after, rfl, fail, accepts, calls_of_first _ fail accepts after⟩
  · rintro ⟨before, chosen, after, rfl, fail, accepts, _⟩
    rw [union_of_first _ fail accepts]

theorem union_accepts_iff (message : Option String) (alternatives : List (Schema σ .value))
    (v : Value) (p : Path) (s : σ) :
    (∃ a, ((union message alternatives).validate v p s).result = .success a) ↔
      ∃ ran ∈ turns alternatives v p s, ∃ a, ran.result = .success a := by
  constructor
  · rintro ⟨a, accepted⟩
    obtain ⟨before, chosen, after, rfl, _, accepts, _⟩ :=
      (union_success_iff _ _ v p s a).mp accepted
    refine ⟨_, ?_, a, accepts⟩
    rw [turns_append, turns_cons]
    exact List.mem_append_right _ List.mem_cons_self
  · rintro ⟨ran, member, a, accepted⟩
    rcases exhausted_or_first alternatives v p s with
      fail | ⟨before, chosen, after, b, rfl, fail, accepts⟩
    · obtain ⟨es, failed⟩ := fail ran member
      cases failed.symm.trans accepted
    · exact ⟨b, congrArg Ran.result (union_of_first _ fail accepts after)⟩

/-- A union accepts a value when an alternative does as its turn comes, and answers with the output
of the first that does.  It runs the alternatives up to that one, in order and each of them once,
and no others.  If no alternative accepts the value, all are run once, and the union fails with
their issues, or with an issue of its own where there is a message or no alternative.  Without
messages, a union within a union may be written out. -/
theorem union_answers_with_first (message : Option String) (alternatives : List (Schema σ .value))
    (v : Value) (p : Path) (s : σ) :
    ((∃ a, ((union message alternatives).validate v p s).result = .success a) ↔
      ∃ ran ∈ turns alternatives v p s, ∃ a, ran.result = .success a) ∧
    (∀ a, ((union message alternatives).validate v p s).result = .success a ↔
      ∃ before chosen after, alternatives = before ++ chosen :: after ∧ Exhausted before v p s ∧
        (chosen.validate v p (stateAfter s (turns before v p s))).result = .success a ∧
        Calls message alternatives v p s (before ++ [chosen])) ∧
    (Exhausted alternatives v p s →
      Calls message alternatives v p s alternatives ∧
      exhaustedIssues message alternatives v p s ≠ [] ∧
      ∃ es, ((union message alternatives).validate v p s).result = .failure es ∧
        es.toList = exhaustedIssues message alternatives v p s) ∧
    ∀ before group after, message = none → group ≠ [] → alternatives = before ++ group ++ after →
      SameEnd ((union none (before ++ union none group :: after)).validate v p s)
        ((union message alternatives).validate v p s) := by
  refine ⟨union_accepts_iff message alternatives v p s,
    union_success_iff message alternatives v p s, ?_, ?_⟩
  · intro fail
    obtain ⟨es, failed, issues⟩ := union_issues_of_exhausted message fail
    exact ⟨calls_of_exhausted _ fail, issues ▸ es.toList_ne_nil, es, failed, issues⟩
  · rintro before group after rfl some rfl
    exact union_nested before some after v p s

/-- A truth value, or a text or a number in its place. -/
def switch : List (Schema Unit .value) :=
  [.erased (.boolean none), .erased (.text .empty), .erased (.number .empty)]

theorem switch_exhausted : Exhausted switch .null .root () := by
  refine (exhausted_cons_iff _ _).mpr ⟨⟨_, rfl⟩, ?_⟩
  refine (exhausted_cons_iff _ _).mpr ⟨⟨_, rfl⟩, ?_⟩
  exact (exhausted_cons_iff _ _).mpr ⟨⟨_, rfl⟩, nofun⟩

theorem switch_union_answers_with_first :
    (∃ before chosen after, switch = before ++ chosen :: after ∧
      Exhausted before (.text "on") .root () ∧
      Calls none switch (.text "on") .root () (before ++ [chosen])) ∧
    (∃ es, ((union none switch).validate .null .root ()).result = .failure es ∧
      es.toList = issuesInTurn switch .null .root ()) ∧
    (∃ es, ((union (some "no setting") switch).validate .null .root ()).result = .failure es ∧
      es.toList = [⟨.root, "no setting", "union_no_match", some "one of 3 alternatives",
        some "null"⟩]) ∧
    SameEnd ((union none (switch.take 1 ++ [union none (switch.drop 1)])).validate (.text "on")
      .root ()) ((union none switch).validate (.text "on") .root ()) := by
  obtain ⟨_, first, _, nested⟩ := union_answers_with_first none switch (.text "on") .root ()
  obtain ⟨_, _, exhausted, _⟩ := union_answers_with_first none switch .null .root ()
  obtain ⟨before, chosen, after, whole, fail, _, calls⟩ := (first (.text "on")).mp rfl
  obtain ⟨_, _, failed⟩ := exhausted switch_exhausted
  obtain ⟨_, _, worded, _⟩ := union_answers_with_first (some "no setting") switch .null .root ()
  obtain ⟨_, _, replaced⟩ := worded switch_exhausted
  exact ⟨⟨before, chosen, after, whole, fail, calls⟩, failed, replaced,
    nested (switch.take 1) (switch.drop 1) [] rfl (List.cons_ne_nil _ _) rfl⟩

end Schema

end Conform
