import Mathlib.Data.List.Induction
import Mathlib.Data.List.Nodup
import Mathlib.Logic.Function.Basic
import SecretFill.Proofs.Run.Suspension
import SecretFill.Proofs.Tool.Opening
/-!
Calls side by side. Calls that share the files take their steps in any order, one step being all
that a call does between two answers. What they come to is what they come to one after the other, in
the order in which they end: only the last step of a call reads its document or writes a file.
-/

namespace SecretFill.Tool

structure Client where
  context : Option Server.Context
  arguments : FileArguments
  ask : Nat → Text → Answer

namespace Client

def opening (client : Client) : Except (Except Escape Reply) (Job × Masker) :=
  Tool.opening client.context client.arguments

def call (client : Client) (files : Files) : Call :=
  interpolateFile client.context client.arguments client.ask files

variable {client : Client} {job : Job} {masker : Masker}

theorem call_refused {outcome : Except Escape Reply} (opens : client.opening = .error outcome)
    (files : Files) : client.call files = ⟨[], [], files, outcome⟩ := by
  rw [call, interpolateFile_eq, show Tool.opening _ _ = _ from opens]

theorem call_run (opens : client.opening = .ok (job, masker)) (files : Files) :
    client.call files = callOf (Run.run job masker client.ask files) := by
  rw [call, interpolateFile_eq, show Tool.opening _ _ = _ from opens]

/-- How often a call has to be given its turn at most. -/
def steps (client : Client) : Nat :=
  match client.opening with
  | .error _ => 1
  | .ok (job, _) =>
      match Specification.parse job.secrets with
      | .error _ => 1
      | .ok references => references.length + 1

theorem steps_pos (client : Client) : 0 < client.steps := by
  unfold steps
  split
  · exact Nat.one_pos
  · split
    · exact Nat.one_pos
    · exact Nat.succ_pos _

theorem pending_begin_lt (opens : client.opening = .ok (job, masker)) (files : Files) :
    (Run.begin job masker files).state.pending < client.steps := by
  unfold Run.begin
  split
  · exact client.steps_pos
  · split
    · exact client.steps_pos
    · next references parsed =>
        have atMost := Run.pending_proceed_le job references files (Fetch.next masker [] references)
        rw [Fetch.pending_next] at atMost
        simp only [steps, opens, parsed]
        exact Nat.lt_succ_of_le atMost

end Client

variable {Name : Type}

def inTurn (clients : Name → Client) : List Name → Files → Files × List (Name × Call)
  | [], files => (files, [])
  | name :: rest, files =>
      let call := (clients name).call files
      let later := inTurn clients rest call.files
      (later.1, (name, call) :: later.2)

theorem inTurn_append (clients : Name → Client) (names : List Name) (name : Name) (files : Files) :
    inTurn clients (names ++ [name]) files =
      let before := inTurn clients names files
      let call := (clients name).call before.1
      (call.files, before.2 ++ [(name, call)]) := by
  induction names generalizing files with
  | nil => rfl
  | cons first rest ih => simp only [List.cons_append, inTurn, ih]

/-- Calls side by side: the files they share, the runs that were begun, and the calls that have
ended, in the order in which they did. -/
structure Desk (Name : Type) where
  files : Files
  runs : Name → Option Run.Progress
  ended : List (Name × Call)

namespace Desk

def names (desk : Desk Name) : List Name := desk.ended.map Prod.fst

def close (desk : Desk Name) (name : Name) (call : Call) : Desk Name :=
  { desk with ended := desk.ended ++ [(name, call)] }

variable [DecidableEq Name]

/-- Puts down where a run stands. If it has ended, its call has its answer. -/
def note (desk : Desk Name) (name : Name) (progress : Run.Progress) (files : Files) : Desk Name :=
  let noted : Desk Name := ⟨files, Function.update desk.runs name (some progress), desk.ended⟩
  match progress.state with
  | .paused _ => noted
  | .finished masker outcome =>
      noted.close name (callOf ⟨progress.requested, progress.log, progress.announced, files, masker,
        outcome⟩)

def step (clients : Name → Client) (desk : Desk Name) (name : Name) : Desk Name :=
  if name ∈ desk.names then desk
  else
    match desk.runs name with
    | none =>
        match (clients name).opening with
        | .error outcome => desk.close name ⟨[], [], desk.files, outcome⟩
        | .ok (job, masker) =>
            let turn := Run.begin job masker desk.files
            desk.note name (.ofTurn turn) turn.files
    | some progress =>
        match progress.state with
        | .finished _ _ => desk
        | .paused waiting =>
            let turn := progress.turn (clients name).ask waiting desk.files
            desk.note name (progress.after waiting.locator turn) turn.files

end Desk

def interleave [DecidableEq Name] (clients : Name → Client) (files : Files) (schedule : List Name) :
    Desk Name :=
  schedule.foldl (Desk.step clients) ⟨files, fun _ => none, []⟩

/-- A run of a call: it has registered the lines of its own answers and no others, and as long as it
waits, it will come to what it would come to in one go. -/
def Client.Runs (client : Client) (files : Files) (progress : Run.Progress) : Prop :=
  ∃ job masker, client.opening = .ok (job, masker) ∧
    progress.Registered masker.minLength client.ask ∧
    ∀ waiting, progress.state = .paused waiting →
      Run.Resumes job masker client.ask files progress

structure Client.Advanced (client : Client) (before after : Files) (progress : Run.Progress) :
    Prop where
  files : before.Next after
  still : ∀ waiting, progress.state = .paused waiting → after = before
  runs : client.Runs after progress
  answer : callOf (progress.finish client.ask after) = client.call before

theorem Client.advanced_begin {client : Client} {job : Job} {masker : Masker} (files : Files)
    (opens : client.opening = .ok (job, masker)) :
    client.Advanced files (Run.begin job masker files).files
      (.ofTurn (Run.begin job masker files)) where
  files := Run.next_begin job masker files
  still := by
    intro waiting paused
    rcases Run.begin_elsewhere paused with ⟨there, elsewhere⟩
    exact congrArg Run.Turn.files (elsewhere files there)
  runs := by
    have registered := Run.registered_start job masker.minLength client.ask files
    rw [← opening_fresh opens] at registered
    refine ⟨job, masker, opens, registered, ?_⟩
    intro waiting paused
    exact (Run.resumes_begin client.ask paused).next (Run.next_begin job masker files)
  answer := by
    rw [Run.finish_ofTurn, client.call_run opens]
    rfl

theorem Client.Runs.advanced {client : Client} {files : Files} {progress : Run.Progress}
    {waiting : Run.Waiting} (runs : client.Runs files progress)
    (paused : progress.state = .paused waiting) :
    client.Advanced files (progress.turn client.ask waiting files).files
      (progress.after waiting.locator (progress.turn client.ask waiting files)) := by
  rcases runs with ⟨job, masker, opens, registered, resumes⟩
  have resumes := resumes waiting paused
  have next : files.Next (progress.turn client.ask waiting files).files :=
    Run.next_proceed waiting.job waiting.references files _
  constructor
  · exact next
  · intro later again
    exact Run.files_of_paused again
  · refine ⟨job, masker, opens, registered.after paused files, ?_⟩
    intro later again
    exact (resumes.after paused again).next next
  · rw [Run.finish_after paused, resumes.finish files resumes.there, client.call_run opens]

theorem Client.Runs.next {client : Client} {before after : Files} {progress : Run.Progress}
    (runs : client.Runs before progress) (next : before.Next after) :
    client.Runs after progress := by
  rcases runs with ⟨job, masker, opens, registered, resumes⟩
  exact ⟨job, masker, opens, registered, fun waiting paused => (resumes waiting paused).next next⟩

namespace Desk

variable [DecidableEq Name] {clients : Name → Client} {start : Files} {desk : Desk Name}

/-- The calls that have ended might have come one after the other, and the others have done nothing
yet that could be seen. -/
structure Serial (clients : Name → Client) (start : Files) (desk : Desk Name) : Prop where
  inTurn : inTurn clients desk.names start = (desk.files, desk.ended)
  distinct : desk.names.Nodup
  runs : ∀ name progress, desk.runs name = some progress → (clients name).Runs desk.files progress
  waits : ∀ name progress, desk.runs name = some progress → name ∉ desk.names →
    ∃ waiting, progress.state = .paused waiting

omit [DecidableEq Name] in
theorem names_close (desk : Desk Name) (name : Name) (call : Call) :
    (desk.close name call).names = desk.names ++ [name] := by
  simp [close, names]

omit [DecidableEq Name] in
/-- A call that ends on files that only it has changed comes after those that have ended before. -/
theorem Serial.closes {name : Name} (serial : desk.Serial clients start) (fresh : name ∉ desk.names)
    (after : Desk Name) (same : after.ended = desk.ended)
    (files : after.files = ((clients name).call desk.files).files) :
    let closed := after.close name ((clients name).call desk.files)
    Tool.inTurn clients closed.names start = (closed.files, closed.ended) ∧ closed.names.Nodup := by
  intro closed
  have names : closed.names = desk.names ++ [name] := by
    rw [names_close, Desk.names, same]
    rfl
  rw [names]
  constructor
  · rw [inTurn_append, serial.inTurn]
    show (_, desk.ended ++ _) = (after.files, after.ended ++ _)
    rw [same, files]
  · rw [List.nodup_append]
    refine ⟨serial.distinct, List.nodup_singleton name, ?_⟩
    intro earlier member other alone equal
    rw [List.mem_singleton.mp alone] at equal
    exact fresh (equal ▸ member)

theorem Serial.note {name : Name} {progress : Run.Progress} {files : Files}
    (serial : desk.Serial clients start) (fresh : name ∉ desk.names)
    (advanced : (clients name).Advanced desk.files files progress) :
    (desk.note name progress files).Serial clients start := by
  -- Other runs rely on their documents alone, and those are still there.
  have runs : ∀ other noted, Function.update desk.runs name (some progress) other = some noted →
      (clients other).Runs files noted := by
    intro other noted found
    by_cases here : other = name
    · subst here
      rw [Function.update_self] at found
      cases found
      exact advanced.runs
    · rw [Function.update_of_ne here] at found
      exact (serial.runs other noted found).next advanced.files
  cases state : progress.state with
  | paused waiting =>
      -- Nothing has ended and nothing was written.
      have noted : desk.note name progress files =
          ⟨files, Function.update desk.runs name (some progress), desk.ended⟩ := by
        simp only [Desk.note, state]
      rw [noted, advanced.still waiting state]
      rw [advanced.still waiting state] at runs
      constructor
      · exact serial.inTurn
      · exact serial.distinct
      · exact runs
      · intro other later found going
        by_cases here : other = name
        · subst here
          simp only [Function.update_self, Option.some.injEq] at found
          exact ⟨waiting, found ▸ state⟩
        · simp only [Function.update_of_ne here] at found
          exact serial.waits other later found going
  | finished masker outcome =>
      -- The call has done to the files of this moment what it would have done to them alone.
      have answer := advanced.answer
      rw [Run.finish_finished state] at answer
      have noted : desk.note name progress files =
          (Desk.mk files (Function.update desk.runs name (some progress)) desk.ended).close name
            ((clients name).call desk.files) := by
        simp only [Desk.note, state, answer]
      have closes := serial.closes fresh ⟨files, Function.update desk.runs name
        (some progress), desk.ended⟩ rfl (by rw [← answer, files_callOf])
      rw [noted]
      constructor
      · exact closes.1
      · exact closes.2
      · exact runs
      · intro other later found going
        rw [names_close, List.mem_append, List.mem_singleton, not_or] at going
        have found : Function.update desk.runs name (some progress) other = some later := found
        rw [Function.update_of_ne going.2] at found
        exact serial.waits other later found going.1

/-- The only step that shows is the last one of a call. -/
theorem Serial.step (serial : desk.Serial clients start) (name : Name) :
    (desk.step clients name).Serial clients start := by
  unfold Desk.step
  split
  · exact serial
  · next fresh =>
      split
      · split
        · next outcome opens =>
            have call := (clients name).call_refused opens desk.files
            have closes := serial.closes fresh desk rfl (by rw [call])
            rw [← call]
            constructor
            · exact closes.1
            · exact closes.2
            · exact serial.runs
            · intro other later found going
              rw [names_close, List.mem_append, not_or] at going
              exact serial.waits other later found going.1
        · next job masker opens =>
            exact serial.note fresh (Client.advanced_begin desk.files opens)
      · next progress found =>
          split
          -- A run that has ended while its call goes on: there is none, but nothing would happen.
          · exact serial
          · next waiting paused =>
              exact serial.note fresh ((serial.runs name progress found).advanced paused)

def left (clients : Name → Client) (desk : Desk Name) (name : Name) : Nat :=
  if name ∈ desk.names then 0
  else
    match desk.runs name with
    | none => (clients name).steps
    | some progress => progress.state.pending

theorem runs_note (desk : Desk Name) (name : Name) (progress : Run.Progress) (files : Files) :
    (desk.note name progress files).runs = Function.update desk.runs name (some progress) := by
  unfold Desk.note
  split
  · rfl
  · rfl

theorem mem_names_note {name other : Name} {progress : Run.Progress} {files : Files} :
    other ∈ (desk.note name progress files).names ↔
      other ∈ desk.names ∨ other = name ∧ progress.state.pending = 0 := by
  unfold Desk.note
  split
  · next waiting state =>
      rw [state]
      simp [names, Run.State.pending, Fetch.State.pending]
  · next masker outcome state =>
      rw [state, names_close]
      simp [names, Run.State.pending]

theorem left_note_self {name : Name} (clients : Name → Client) (progress : Run.Progress)
    (files : Files) (fresh : name ∉ desk.names) :
    (desk.note name progress files).left clients name = progress.state.pending := by
  simp only [left, mem_names_note, runs_note, Function.update_self, fresh, false_or, true_and]
  split
  · next ended => exact ended.symm
  · rfl

theorem left_note_other {name other : Name} (clients : Name → Client) (progress : Run.Progress)
    (files : Files) (apart : other ≠ name) :
    (desk.note name progress files).left clients other = desk.left clients other := by
  simp only [left, mem_names_note, runs_note, Function.update_of_ne apart, apart, false_and, or_false]

theorem left_step_other {name other : Name} (clients : Name → Client) (apart : other ≠ name) :
    (desk.step clients name).left clients other = desk.left clients other := by
  unfold Desk.step
  split
  · rfl
  · split
    · split
      · simp only [left, names_close, List.mem_append, List.mem_singleton, apart, or_false]
        rfl
      · exact left_note_other clients _ _ apart
    · split
      · rfl
      · exact left_note_other clients _ _ apart

theorem Serial.left_step (serial : desk.Serial clients start) (name : Name) :
    (desk.step clients name).left clients name ≤ desk.left clients name - 1 := by
  unfold Desk.step
  split
  · next ended => simp [left, ended]
  · next fresh =>
      split
      · next unbegun =>
          split
          · simp [left, names_close]
          · next job masker opens =>
              have fewer := (clients name).pending_begin_lt opens desk.files
              rw [left_note_self clients _ _ fresh, left, if_neg fresh, unbegun]
              exact Nat.le_sub_one_of_lt fewer
      · next progress found =>
          split
          · next masker outcome state =>
              rcases serial.waits name progress found fresh with ⟨waiting, paused⟩
              rw [state] at paused
              cases paused
          · next waiting paused =>
              -- An answer takes one request off those that the run has still to make.
              have fewer := Run.pending_resume_lt waiting
                (progress.answer (clients name).ask waiting) desk.files
              rw [left_note_self clients _ _ fresh, left, if_neg fresh, found]
              show _ ≤ progress.state.pending - 1
              rw [paused]
              exact Nat.le_sub_one_of_lt fewer

theorem Serial.ended_of_left (serial : desk.Serial clients start) {name : Name}
    (spent : desk.left clients name = 0) : name ∈ desk.names := by
  by_contra going
  rw [left, if_neg going] at spent
  cases found : desk.runs name with
  | none =>
      rw [found] at spent
      exact absurd spent (Nat.ne_of_gt (clients name).steps_pos)
  | some progress =>
      have spent : progress.state.pending = 0 := by rwa [found] at spent
      rcases serial.waits name progress found going with ⟨waiting, paused⟩
      rw [paused] at spent
      cases spent

end Desk

theorem serial_interleave [DecidableEq Name] (clients : Name → Client) (files : Files)
    (schedule : List Name) : (interleave clients files schedule).Serial clients files := by
  induction schedule using List.reverseRecOn with
  | nil =>
      constructor
      · rfl
      · exact List.nodup_nil
      · intro name progress found
        cases found
      · intro name progress found
        cases found
  | append_singleton earlier name ih =>
      rw [interleave, List.foldl_append]
      exact ih.step name

theorem left_interleave [DecidableEq Name] (clients : Name → Client) (files : Files)
    (schedule : List Name) (name : Name) :
    (interleave clients files schedule).left clients name ≤
      (clients name).steps - schedule.count name := by
  induction schedule using List.reverseRecOn with
  | nil => exact Nat.le_refl _
  | append_singleton earlier other ih =>
      rw [interleave, List.foldl_append, List.count_append]
      show ((interleave clients files earlier).step clients other).left clients name ≤ _
      by_cases here : name = other
      · subst here
        have fewer := (serial_interleave clients files earlier).left_step name
        rw [List.count_singleton_self]
        omega
      · rw [Desk.left_step_other clients here, List.count_singleton, if_neg (by simp [Ne.symm here])]
        exact ih

end SecretFill.Tool

namespace SecretFill

open Tool

/-- Calls side by side, whatever the order of their steps, do to the files and answer what they
would one after the other, in the order in which they end. The masker of each run holds the secret
lines of its own answers and no others, and a call that is given its turn often enough ends. -/
theorem interleaved_calls_are_serial {Name : Type} [DecidableEq Name] (clients : Name → Client)
    (files : Files) (schedule : List Name) :
    let desk := interleave clients files schedule
    inTurn clients desk.names files = (desk.files, desk.ended) ∧ desk.names.Nodup ∧
    (∀ name progress, desk.runs name = some progress → ∃ job masker,
      (clients name).opening = .ok (job, masker) ∧
      ∀ line, line ∈ progress.state.masker.lines ↔
        Run.SecretLine masker.minLength (clients name).ask progress.requested line) ∧
    ∀ name, (clients name).steps ≤ schedule.count name → name ∈ desk.names := by
  intro desk
  have serial := serial_interleave clients files schedule
  constructor
  · exact serial.inTurn
  constructor
  · exact serial.distinct
  constructor
  · intro name progress found
    rcases serial.runs name progress found with ⟨job, masker, opens, registered, _⟩
    exact ⟨job, masker, opens, registered.lines⟩
  · intro name enough
    have left := left_interleave clients files schedule name
    rw [Nat.sub_eq_zero_of_le enough] at left
    exact serial.ended_of_left (Nat.le_zero.mp left)

/-- The first call to begin works on what the other has written meanwhile. -/
theorem interleaved_calls_are_serial_handed_on :
    let settings : Settings := ⟨.environment, Settings.defaultEndpoint, none,
      Settings.defaultTimeout, Settings.defaultPrefix, Settings.defaultMaskLength, false⟩
    let context : Option Server.Context := some ⟨settings, settings.provider⟩
    let clients : Bool → Client
      | false => ⟨context, ⟨"p/a:A", "d", some "e", none⟩, fun _ _ => .ofExcept (.ok "$B")⟩
      | true => ⟨context, ⟨"p/b:B", "e", none, none⟩, fun _ _ => .ofExcept (.ok "hunter2")⟩
    let files : Files := ⟨[], [(["d".toUTF8.toList], "a: $A\n".toUTF8.toList),
        (["e".toUTF8.toList], [])], []⟩
    let desk := interleave clients files [true, false, false, true]
    false ∈ desk.names ∧ true ∈ desk.names ∧
      inTurn clients desk.names files = (desk.files, desk.ended) := by
  intro settings context clients files desk
  have first : (clients false).steps ≤ [true, false, false, true].count false := by
    simp only [clients, context, settings]
    decide +kernel
  have second : (clients true).steps ≤ [true, false, false, true].count true := by
    simp only [clients, context, settings]
    decide +kernel
  have serial := interleaved_calls_are_serial clients files [true, false, false, true]
  exact ⟨serial.2.2.2 false first, serial.2.2.2 true second, serial.1⟩

end SecretFill
