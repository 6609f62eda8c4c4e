import Ferretd.Documents.Machine

/-!
# What one step of a workspace does

One inversion lemma for the machine and one for what an operation does to the retained
documents; every invariant is derived from the two.
-/

namespace Ferretd.Documents

open Library

inductive MachineEffect (site : Site) (m : Machine) : Label → Machine → Prop
  | opened {fuel} (idle : m.task = none) (opening : m.shared.store.state = .opening) :
      MachineEffect site m (.open_ fuel)
        { m with task := some (.loading (openCode site fuel).run) }
  | loaded {content} (task : m.task = some (.loading (.done (.ok content)))) :
      MachineEffect site m .publish
        { m.setStore (m.shared.store.setReady content) with task := none }
  | discarded {result} (task : m.task = some (.loading (.done result))) :
      MachineEffect site m .discard
        { m.setStore m.shared.store.setFailed with task := none }
  | started {call fuel} (idle : m.task = none) (published : m.published = true) :
      MachineEffect site m (.start call fuel)
        { m with task := some (.mutation (call.code site fuel).run) }
  | loads {op : Op} {next} {env : Environment} {answer : op.Answer} {shared}
      (task : m.task = some (.loading (.call op next)))
      (performed : m.shared.perform site env op = some (answer, shared)) :
      MachineEffect site m (.step env) ⟨shared, some (.loading (next answer))⟩
  | mutates {op : Op} {next} {env : Environment} {answer : op.Answer} {shared}
      (task : m.task = some (.mutation (.call op next)))
      (performed : m.shared.perform site env op = some (answer, shared)) :
      MachineEffect site m (.step env) ⟨shared, some (.mutation (next answer))⟩
  | returned {result} (task : m.task = some (.mutation (.done result))) :
      MachineEffect site m .return_ { m with task := none }
  | marked (published : m.published = true) :
      MachineEffect site m .markClosing (m.setStore m.shared.store.markClosing)
  | watchClosed :
      MachineEffect site m .closeWatch
        { m with shared := { m.shared with watch := m.shared.watch.close } }
  | closed (published : m.published = true) :
      MachineEffect site m .close (m.setStore m.shared.store.close)

variable {site : Site} {env : Environment} {op : Op} {shared : Shared}

theorem advance_some {Value : Type} {code : Running Value} {result : Running Value × Shared}
    (advanced : Machine.advance site env shared code = some result) :
    ∃ op next answer, code = .call op next ∧
      shared.perform site env op = some (answer, result.2) ∧ result.1 = next answer := by
  cases code with
  | done => cases advanced
  | call op next =>
    obtain ⟨⟨answer, after⟩, performed, rfl⟩ := Option.map_eq_some_iff.mp advanced
    exact ⟨op, next, answer, rfl, performed, rfl⟩

theorem MachineEffect.of_step {m next : Machine} {label : Label}
    (taken : m.step site label = some next) : MachineEffect site m label next := by
  cases label with
  | open_ fuel =>
    simp only [Machine.step] at taken
    split at taken
    next permitted =>
      cases taken
      exact .opened (Option.isNone_iff_eq_none.mp permitted.1) permitted.2
    · cases taken
  | publish =>
    simp only [Machine.step] at taken
    split at taken
    next content task =>
      cases taken
      exact .loaded task
    · cases taken
  | discard =>
    simp only [Machine.step] at taken
    split at taken
    next result task =>
      cases taken
      exact .discarded task
    · cases taken
  | start call fuel =>
    simp only [Machine.step] at taken
    split at taken
    next permitted =>
      cases taken
      exact .started (Option.isNone_iff_eq_none.mp permitted.1) permitted.2
    · cases taken
  | step env =>
    simp only [Machine.step] at taken
    split at taken
    next code task =>
      obtain ⟨⟨rest, after⟩, advanced, rfl⟩ := Option.map_eq_some_iff.mp taken
      obtain ⟨op, continuation, answer, rfl, performed, rfl⟩ := advance_some advanced
      exact .loads task performed
    next code task =>
      obtain ⟨⟨rest, after⟩, advanced, rfl⟩ := Option.map_eq_some_iff.mp taken
      obtain ⟨op, continuation, answer, rfl, performed, rfl⟩ := advance_some advanced
      exact .mutates task performed
    · cases taken
  | return_ =>
    simp only [Machine.step] at taken
    split at taken
    next result task =>
      cases taken
      exact .returned task
    · cases taken
  | markClosing =>
    simp only [Machine.step] at taken
    split at taken
    next published =>
      cases taken
      exact .marked published
    · cases taken
  | closeWatch =>
    cases taken
    exact .watchClosed
  | close =>
    simp only [Machine.step] at taken
    split at taken
    next published =>
      cases taken
      exact .closed published
    · cases taken

inductive StoreMove (env : Environment) (store : Store) : Op → Store → Prop
  | kept {op : Op} : StoreMove env store op store
  | document {key explicit admitted discovered}
      (accepting : store.closing = false) (ready : store.state = .ready)
      (live : env.ctxErr = []) :
      StoreMove env store (.commitDocument key explicit admitted discovered)
        (store.commitDocument key explicit admitted discovered).1
  | tree {subtree content} (accepting : store.closing = false) (ready : store.state = .ready)
      (live : env.ctxErr = []) :
      StoreMove env store (.commitTree subtree content)
        (store.applyContent subtree content)

theorem StoreMove.of_perform {answer : op.Answer} {after : Shared}
    (performed : shared.perform site env op = some (answer, after)) :
    StoreMove env shared.store op after.store := by
  cases op with
  | commitDocument key explicit admitted discovered =>
    simp only [Shared.perform, Shared.commitDocument] at performed
    split at performed
    · cases performed
      exact .kept
    rename_i accepting
    rw [not_or, Bool.not_eq_true, not_not] at accepting
    split at performed
    · cases performed
      exact .kept
    rename_i live
    cases performed
    exact .document accepting.1 accepting.2 (not_not.mp live)
  | commitTree subtree content =>
    simp only [Shared.perform, Shared.commitTree] at performed
    split at performed
    · cases performed
      exact .kept
    rename_i live
    split at performed
    · cases performed
      exact .kept
    rename_i accepting
    rw [not_or, Bool.not_eq_true, not_not] at accepting
    cases performed
    exact .tree accepting.1 accepting.2 (not_not.mp live)
  | finishRegistration =>
    simp only [Shared.perform, Shared.finishRegistration] at performed
    split at performed
    · cases performed
      exact .kept
    · cases performed
      exact .kept
  | diverge => cases performed
  | _ =>
    cases performed
    exact .kept

end Ferretd.Documents
