import SecretFill.Interpolation
import SecretFill.Masker
import SecretFill.Reference
import SecretFill.Secret.Provider
/-!
Fetching the secrets of a specification, one after the other. Between two answers a fetch waits;
an answer that is a value is masked before anything else happens to it, and the first failure ends
the fetch.
-/

namespace SecretFill.Fetch

structure Waiting where
  reference : Reference
  later : List Reference
  masker : Masker
  fetched : SubstitutionMap
  deriving DecidableEq, Repr

inductive State
  | paused (waiting : Waiting)
  | failed (masker : Masker) (error : SecretError)
  | done (masker : Masker) (fetched : SubstitutionMap)
  deriving DecidableEq, Repr

structure Step where
  log : List Log.Record
  /-- Secret lines that the log is told. -/
  announced : List (List Code)
  state : State
  deriving DecidableEq, Repr

def next (masker : Masker) (fetched : SubstitutionMap) : List Reference → Step
  | [] => ⟨[], [], .done masker fetched⟩
  | reference :: later =>
      ⟨[Log.info ("Accessing secret " ++ reference.locator ++ " as " ++ reference.output)], [],
        .paused ⟨reference, later, masker, fetched⟩⟩

def Waiting.resume (waiting : Waiting) (answer : Answer) : Step :=
  match answer.outcome with
  | .error error => ⟨answer.log, [], .failed waiting.masker error⟩
  | .ok value =>
      -- Masked before the value is kept and before anything else is asked for.
      let masking := waiting.masker.mask value.toList
      let step := next masking.masker (waiting.fetched.insert waiting.reference.output value)
        waiting.later
      let masked := Log.debug ("Masked " ++ toString masking.registered.length ++ " line(s) of " ++
        waiting.reference.output)
      ⟨answer.log ++ masked :: step.log, masking.announced ++ step.announced, step.state⟩

def State.pending : State → Nat
  | .paused waiting => waiting.later.length + 1
  | .failed _ _ => 0
  | .done _ _ => 0

theorem pending_next (masker : Masker) (fetched : SubstitutionMap) (later : List Reference) :
    (next masker fetched later).state.pending = later.length := by
  cases later <;> rfl

theorem pending_resume_lt (waiting : Waiting) (answer : Answer) :
    (waiting.resume answer).state.pending < (State.paused waiting).pending := by
  unfold Waiting.resume
  split
  · exact Nat.succ_pos _
  · simp only [pending_next]
    exact Nat.lt_succ_self _

/-- A fetch from its beginning to its end: what it asked for, in order, and what came of it. -/
structure History where
  requested : List Text
  log : List Log.Record
  announced : List (List Code)
  masker : Masker
  outcome : Except SecretError SubstitutionMap

/-- Completes a fetch; `ask` answers the requests, which are counted. -/
def Step.complete (ask : Nat → Text → Answer) (count : Nat) (step : Step) : History :=
  match state : step.state with
  | .failed masker error => ⟨[], step.log, step.announced, masker, .error error⟩
  | .done masker fetched => ⟨[], step.log, step.announced, masker, .ok fetched⟩
  | .paused waiting =>
      let locator := waiting.reference.locator
      let rest := (waiting.resume (ask count locator)).complete ask (count + 1)
      { rest with
        requested := locator :: rest.requested
        log := step.log ++ rest.log
        announced := step.announced ++ rest.announced }
termination_by step.state.pending
decreasing_by
  rw [state]
  exact pending_resume_lt waiting _

end SecretFill.Fetch
