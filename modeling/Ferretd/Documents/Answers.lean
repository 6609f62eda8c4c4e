import Ferretd.Documents.MachineEffects

/-!
# The answers of a call

A call that returns a value has made a certain sequence of operations.  Along a run of the
workspace the operations of the call under way are recorded with their answers, so that each
of them is a step of the run.
-/

namespace Ferretd.Documents

open Library Program

/-- Operations with their answers. -/
abbrev Answers := List (Sigma Op.Answer)

variable {site : Site} {Value : Type} {trace : Answers} {value : Value}

/-! ## The programs -/

theorem runs_ask {op : Op} {rest : op.Answer → Code Value}
    (run : Runs (ask op >>= rest).run trace (.ok value)) :
    ∃ answer back, trace = ⟨op, answer⟩ :: back ∧ Runs (rest answer).run back (.ok value) := by
  cases run with
  | call answer later => exact ⟨answer, _, rfl, later⟩

theorem runs_check {err : GoError} {rest : Code Value}
    (run : Runs (check err >>= fun _ => rest).run trace (.ok value)) :
    err = [] ∧ Runs rest.run trace (.ok value) := by
  unfold check at run
  split at run
  next clear => exact ⟨clear, run⟩
  · cases run

theorem runs_finishing {code : Code Value} (run : Runs (finishing code).run trace (.ok value)) :
    ∃ front back, trace = front ++ back ∧ Runs code.run front (.ok value) := by
  obtain ⟨front, result, back, same, before, after⟩ := Runs.of_bind_ok run
  refine ⟨front, back, same, ?_⟩
  obtain ⟨finishErr, rest, -, returned⟩ := runs_ask after
  cases result with
  | error => cases returned
  | ok found =>
    obtain ⟨-, last⟩ := runs_check returned
    cases last
    exact Runs.of_attempt before

variable {doc : Option Document} {key : Key} {relativePath : Text}

theorem runs_reconcileDocument {explicit : Bool}
    (normalized : normalizeDocumentPath relativePath = some key)
    (run : Runs (reconcileDocument site relativePath explicit).run trace (.ok doc)) :
    ∃ watching admitted answers discovered back,
      trace = (⟨.beginMutation, []⟩ :: ⟨.lookup key, (watching, admitted)⟩ :: answers ++
        [⟨.ctxErr, []⟩]) ++
          ⟨.commitDocument key explicit admitted discovered.document, .ok doc⟩ :: back ∧
      Runs (discoverWorkspaceDocument site watching (explicit || admitted) key).run answers
        (.ok discovered) := by
  obtain ⟨_, _, rfl, begun⟩ := runs_ask run
  obtain ⟨rfl, running⟩ := runs_check begun
  rw [normalized] at running
  obtain ⟨⟨watching, admitted⟩, _, rfl, looked⟩ := runs_ask running
  obtain ⟨_, finish, rfl, body⟩ := runs_finishing looked
  obtain ⟨answers, discovered, _, rfl, discovers, found⟩ := Runs.of_bind_ok body
  obtain ⟨_, _, _, rfl, context, committing⟩ := Runs.of_bind_ok found
  obtain ⟨_, _, rfl, asked⟩ := runs_ask context
  unfold check at asked
  split at asked
  next clear =>
    subst clear
    cases asked
    obtain ⟨answer, _, rfl, committed⟩ := runs_ask committing
    cases answer with
    | error => cases committed
    | ok =>
      cases committed
      exact ⟨watching, admitted, answers, discovered, finish, by simp, discovers⟩
  · cases asked

theorem runs_reconcileTree {fuel : Nat}
    (normalized : normalizeWorkspacePath relativePath = some key)
    (run : Runs (reconcileTree site fuel relativePath).run trace (.ok doc)) :
    ∃ watching explicitPaths answers content back,
      trace = (⟨.beginMutation, []⟩ :: ⟨.selections key, (watching, explicitPaths)⟩ :: answers) ++
        ⟨.commitTree key content, []⟩ :: back ∧
      Runs (reconcileContent site watching fuel key explicitPaths).run answers
        (.ok content) := by
  obtain ⟨_, _, rfl, begun⟩ := runs_ask run
  obtain ⟨rfl, running⟩ := runs_check begun
  rw [normalized] at running
  obtain ⟨⟨watching, explicitPaths⟩, _, rfl, selected⟩ := runs_ask running
  obtain ⟨_, finish, rfl, body⟩ := runs_finishing selected
  obtain ⟨answers, content, _, rfl, discovers, found⟩ := Runs.of_bind_ok body
  obtain ⟨_, back, rfl, committed⟩ := runs_ask found
  obtain ⟨rfl, -⟩ := runs_check committed
  exact ⟨watching, explicitPaths, answers, content, back ++ finish, by simp, discovers⟩

/-! ## The machine -/

def Label.isReturn : Label → Bool
  | .return_ => true
  | _ => false

namespace Machine

/-- The operation that a step of the call under way makes, with its answer. -/
def answered (site : Site) (m : Machine) : Label → Answers
  | .step env =>
    match m.task with
    | some (.mutation (.call op _)) =>
      match m.shared.perform site env op with
      | some (answer, _) => [⟨op, answer⟩]
      | none => []
    | _ => []
  | _ => []

/-- The workspace with the answers that the call under way has got. -/
def traced (site : Site) (state : Machine × Answers) (label : Label) :
    Option (Machine × Answers) :=
  (state.1.step site label).map fun next => (next, state.2 ++ state.1.answered site label)

/-- A run of the call under way up to its return. -/
abbrev CallRun (site : Site) (first last : Machine × Answers) : Prop :=
  Run (traced site) (fun _ label => label.isReturn = false) first last

variable {m next begun ended : Machine} {code rest : Running (Option Document)}
  {last : Machine × Answers}
variable {label : Label}

/-- A step of the call is answered, and any other step leaves the call alone. -/
theorem answered_step (task : m.task = some (.mutation rest)) (notReturn : label.isReturn = false)
    (taken : m.step site label = some next) :
    m.answered site label = [] ∧ next.task = m.task ∨
      ∃ env op continue_ answer, label = .step env ∧ rest = .call op continue_ ∧
        m.answered site label = [⟨op, answer⟩] ∧
        next.task = some (.mutation (continue_ answer)) := by
  cases MachineEffect.of_step taken with
  | opened idle | started idle =>
    rw [idle] at task
    cases task
  | loaded other | discarded other | loads other =>
    rw [other] at task
    cases task
  | mutates isTask performed =>
    cases isTask.symm.trans task
    exact .inr ⟨_, _, _, _, rfl, rfl, by simp [answered, isTask, performed], rfl⟩
  | returned => cases notReturn
  | marked | watchClosed | closed => exact .inl ⟨rfl, rfl⟩

/-- What is left of the call and what has been answered make up a run of it. -/
theorem CallRun.completes (task : begun.task = some (.mutation code))
    (run : CallRun site (begun, []) last) :
    ∃ rest, last.1.task = some (.mutation rest) ∧ ∀ more result,
      Runs rest more result → Runs code (last.2 ++ more) result := by
  induction run with
  | start => exact ⟨code, task, fun _ _ complete => complete⟩
  | next label _ notReturn taken ih =>
    obtain ⟨rest, isRest, completes⟩ := ih
    obtain ⟨next, moved, rfl⟩ := Option.map_eq_some_iff.mp taken
    rcases answered_step isRest notReturn moved with
      ⟨nothing, same⟩ | ⟨_, op, continue_, answer, -, rfl, asked, continued⟩
    · rw [nothing, List.append_nil]
      exact ⟨rest, same.trans isRest, completes⟩
    · refine ⟨continue_ answer, continued, fun more result complete => ?_⟩
      rw [asked, List.append_assoc]
      exact completes _ result (.call answer complete)

/-- Every recorded answer is that of a step of the run. -/
theorem CallRun.split {front back : Answers} {answer : Sigma Op.Answer}
    (task : begun.task = some (.mutation code)) (run : CallRun site (begun, []) last)
    (recorded : last.2 = front ++ answer :: back) :
    ∃ before env after, CallRun site (begun, []) (before, front) ∧
      before.step site (.step env) = some after ∧
      before.answered site (.step env) = [answer] ∧
      CallRun site (after, front ++ [answer]) last := by
  induction run generalizing back with
  | start => simp at recorded
  | @next middle _ label earlier notReturn taken ih =>
    obtain ⟨rest, isRest, -⟩ := CallRun.completes task earlier
    obtain ⟨next, moved, rfl⟩ := Option.map_eq_some_iff.mp taken
    rcases answered_step isRest notReturn moved with
      ⟨nothing, -⟩ | ⟨env, op, continue_, newest, rfl, -, asked, -⟩
    · rw [nothing, List.append_nil] at recorded
      obtain ⟨before, env, after, reached, stepped, answers, continued⟩ := ih recorded
      exact ⟨before, env, after, reached, stepped, answers,
        continued.next label notReturn taken⟩
    · rw [asked] at recorded
      rcases append_singleton_split recorded with ⟨rfl, rfl, rfl⟩ | ⟨older, rfl, known⟩
      · refine ⟨middle.1, env, next, earlier, moved, asked, ?_⟩
        rw [asked]
        exact .start
      · obtain ⟨before, environment', after, reached, stepped, answers, continued⟩ := ih known
        exact ⟨before, environment', after, reached, stepped, answers,
          continued.next _ notReturn taken⟩

end Machine

end Ferretd.Documents
