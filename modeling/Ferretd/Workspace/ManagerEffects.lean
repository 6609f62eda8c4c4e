import Ferretd.Workspace.Manager

/-!
# What the steps of the workspace manager do

Inversion of the step function.  A step of `Open` moves one call on, and with it at
most one operation and one watcher; a step of a closing goroutine moves one entry on.
-/

namespace Ferretd.Workspaces

open Library

/-- The open operation that a call owns: it alone will complete it. -/
def OpenPC.operation : OpenPC → Option Nat
  | .newWatcher op | .addDirectory op _ | .load op _
  | .checkContext op _ | .commit op _ | .closeWatcher op _ _
  | .joinWatcher op _ _ | .setFailed op _ | .finishOpen op _ =>
    some op
  | _ => none

/-- The steps of a closing goroutine, with the watchers after them. -/
inductive CloseMove (m : Manager) (op : OpenOperation) (entry : Entry)
    (reply : Reply) : ClosePC → OpenOperation → List Watcher → Prop
  | unwatched (none : op.workspace.watcher = none) :
      CloseMove m op entry reply .stopWatcher
        (op.goOn entry (.hooks m.hooks [])) m.watchers
  | stop {watcher held} (watches : op.workspace.watcher = some watcher)
      (present : m.watchers[watcher]? = some held) :
      CloseMove m op entry reply .stopWatcher
        (op.goOn entry (.joinWatcher watcher reply.err))
        (m.watchers.set watcher held.close)
  | join {watcher result} (ended : m.joined watcher = true) :
      CloseMove m op entry reply (.joinWatcher watcher result)
        (op.goOn entry (.hooks m.hooks result)) m.watchers
  | hooked {result} :
      CloseMove m op entry reply (.hooks 0 result)
        (op.goOn entry (.close result)) m.watchers
  | call {remaining result} :
      CloseMove m op entry reply (.hooks (remaining + 1) result)
        (op.goOn entry (.awaitHook remaining result)) m.watchers
  | answer {remaining result} :
      CloseMove m op entry reply (.awaitHook remaining result)
        (op.goOn entry (.hooks remaining (result.join reply.err)))
        m.watchers
  | release {result} :
      CloseMove m op entry reply (.close result)
        { op.goOn entry (.finish result) with
          workspace := op.workspace.close } m.watchers
  | finish {result close} (finished : entry.close.finish result = .ok close) :
      CloseMove m op entry reply (.finish result)
        (op.goOn { entry with close := close } .delete) m.watchers
  | delete :
      CloseMove m op entry reply .delete
        { op with entry := some { entry with listed := false, worker := none } }
        m.watchers

/-- The steps of a call of `Open` that change nothing but its control point. -/
inductive OpenMove (m : Manager) (root : Nat) (reply : Reply) :
    OpenPC → OpenPC → Prop
  | cancelFind (cancelled : reply.ctxErr ≠ []) :
      OpenMove m root reply .find (.returned none reply.ctxErr)
  | found {id : Nat} (registered : m.byRoot root = some id) :
      OpenMove m root reply .find (.returned (some id) [])
  | wait {op : Nat} (closed : m.byRoot root = none)
      (opening : m.opening root = some op) :
      OpenMove m root reply .find (.waitForOpen op)
  | begin : OpenMove m root reply .find .beginOpen
  | cancelWait {op : Nat} (cancelled : reply.ctxErr ≠ []) :
      OpenMove m root reply (.waitForOpen op) (.returned none reply.ctxErr)
  | joined {op : Nat} {found}
      (present : m.operations[op]? = some found) (done : found.done = true)
      (succeeded : found.err = []) :
      OpenMove m root reply (.waitForOpen op) (.returned (some op) [])
  | retry {op : Nat} : OpenMove m root reply (.waitForOpen op) .find
  | failed {err} {op : Nat} (failure : err ≠ []) :
      OpenMove m root reply (.waitForOpen op) (.returned none err)
  | unidentified :
      OpenMove m root reply .beginOpen
        (.returned none (GoError.join [.workspaceLoad] reply.err))
  | overtaken : OpenMove m root reply .beginOpen .find
  | unwatched {op : Nat} :
      OpenMove m root reply (.newWatcher op)
        (.setFailed op (GoError.join [.workspaceLoad] reply.err))
  | added {op : Nat} {watcher} :
      OpenMove m root reply (.addDirectory op watcher) (.load op watcher)
  | addFailed {op : Nat} {watcher} :
      OpenMove m root reply (.addDirectory op watcher)
        (.closeWatcher op watcher reply.err)
  | loaded {op : Nat} {watcher} :
      OpenMove m root reply (.load op watcher) (.checkContext op watcher)
  | loadFailed {op : Nat} {watcher} :
      OpenMove m root reply (.load op watcher)
        (.closeWatcher op watcher reply.err)
  | live {op : Nat} {watcher} :
      OpenMove m root reply (.checkContext op watcher) (.commit op watcher)
  | cancelled {op : Nat} {watcher} :
      OpenMove m root reply (.checkContext op watcher)
        (.closeWatcher op watcher reply.ctxErr)
  | cleared {op : Nat} {watcher} :
      OpenMove m root reply (.commit op watcher)
        (.closeWatcher op watcher [.message "workspace manager was cleared during load"])
  | ended {watcher} {op : Nat} {err} (ended : m.joined watcher = true) :
      OpenMove m root reply (.joinWatcher op watcher err)
        (.setFailed op (GoError.join [.workspaceLoad] err))

variable {m : Manager} {reply : Reply} {root : Nat} {pc' : OpenPC}

theorem OpenMove.owns {pc : OpenPC}
    (move : OpenMove m root reply pc pc') : pc'.operation = pc.operation := by
  cases move <;> rfl

inductive ManagerEffect (m : Manager) : Action → Manager → Prop
  | keep {action : Action} : ManagerEffect m action m
  | openRoot {root : Nat} :
      ManagerEffect m (.openRoot root)
        { m with calls := m.calls ++ [⟨root, .find⟩] }
  | goOn {index : Nat} {call : OpenCall} {reply : Reply} {pc' : OpenPC}
      (caller : m.calls[index]? = some call) (owns : pc'.operation = call.pc.operation)
      (move : OpenMove m call.root reply call.pc pc') :
      ManagerEffect m (.call index reply) (m.goOn index call pc')
  | register {index : Nat} {call : OpenCall} {reply : Reply}
      (caller : m.calls[index]? = some call) (at_ : call.pc = .beginOpen)
      (closed : m.byRoot call.root = none) (free : m.opening call.root = none) :
      ManagerEffect m (.call index reply)
        ((m.register call.root).goOn index call (.newWatcher m.operations.length))
  | watch {index : Nat} {call : OpenCall} {reply : Reply} {op : Nat}
      (caller : m.calls[index]? = some call) (at_ : call.pc = .newWatcher op) :
      ManagerEffect m (.call index reply)
        ({ m with watchers := m.watchers ++ [Watcher.new] }.goOn index call
          (.addDirectory op m.watchers.length))
  | publish {index : Nat} {call : OpenCall} {op : Nat} {found watcher held} {reply : Reply}
      (caller : m.calls[index]? = some call)
      (at_ : call.pc = .commit op watcher)
      (present : m.operations[op]? = some found)
      (watched : m.watchers[watcher]? = some held)
      (valid : found.generation = m.generation) :
      ManagerEffect m (.call index reply)
        ((m.publish op found watcher held).goOn index call (.returned (some op) []))
  | closeWatcher {index : Nat} {call : OpenCall} {watcher held} {reply : Reply} {op : Nat} {err}
      (caller : m.calls[index]? = some call)
      (at_ : call.pc = .closeWatcher op watcher err)
      (watched : m.watchers[watcher]? = some held) :
      ManagerEffect m (.call index reply)
        ((m.setWatcher watcher held.close).goOn index call
          (.joinWatcher op watcher (err.join reply.err)))
  | setFailed {index : Nat} {call : OpenCall} {op : Nat} {found} {reply : Reply} {err}
      (caller : m.calls[index]? = some call)
      (at_ : call.pc = .setFailed op err)
      (present : m.operations[op]? = some found) :
      ManagerEffect m (.call index reply)
        ((m.setOperation op
          { found with workspace := found.workspace.setFailed err }).goOn index call
          (.finishOpen op err))
  | finishOpen {index : Nat} {call : OpenCall} {op : Nat} {found} {reply : Reply} {err}
      (caller : m.calls[index]? = some call)
      (at_ : call.pc = .finishOpen op err)
      (present : m.operations[op]? = some found) :
      ManagerEffect m (.call index reply)
        ((m.finishOpen op found err).goOn index call (.returned none err))
  | beginClose {op : OpenOperation} {entry : Entry} {id : Nat}
      (present : m.operations[id]? = some op)
      (registered : op.registered = some entry) (active : entry.state = .active)
      (begun : entry.close.begin.1 = true) :
      ManagerEffect m (.close id) { m.setOperation id (op.takeOver entry) with
          byRoot := Function.update m.byRoot op.workspace.root none }
  | clear (clearable : m.operations.all Manager.clearable = true) :
      ManagerEffect m .clear { m with
          operations := m.operations.map Manager.clearOne
          byRoot := fun _ => none
          opening := fun _ => none
          generation := m.generation + 1 }
  | worker {op : OpenOperation} {entry : Entry} {pc : ClosePC} {reply : Reply}
      {next : OpenOperation} {watchers} {id : Nat} (present : m.operations[id]? = some op)
      (published : op.entry = some entry) (working : entry.worker = some pc)
      (move : CloseMove m op entry reply pc next watchers) :
      ManagerEffect m (.worker id reply) { m with
          operations := m.operations.set id next
          watchers := watchers }
  | watcherExits {watcher held} (watched : m.watchers[watcher]? = some held)
      (looping : held.looping = true) (closed : held.closed = true) :
      ManagerEffect m (.watcherExits watcher)
        (m.setWatcher watcher { held with looping := false })

namespace ManagerEffect

variable {next : Manager} {index id : Nat} {call : OpenCall} {op : OpenOperation} {entry : Entry}
  {pc : ClosePC} {action : Action}

theorem of_openStep (caller : m.calls[index]? = some call)
    (taken : m.openStep index call reply = some next) :
    ManagerEffect m (.call index reply) next := by
  have moves : ∀ {pc pc' : OpenPC}, call.pc = pc → OpenMove m call.root reply pc pc' →
      ManagerEffect m (.call index reply) (m.goOn index call pc') := by
    rintro pc pc' rfl move
    exact goOn caller move.owns move
  revert taken
  fun_cases Manager.openStep m index call reply
  all_goals intro taken; cases taken
  next at_ cancelled => exact moves at_ (.cancelFind cancelled)
  next at_ _ id registered _ _ => exact moves at_ (.found registered)
  next at_ _ closed op opening => exact moves at_ (.wait closed opening)
  next at_ _ _ _ => exact moves at_ .begin
  next op at_ cancelled => exact moves at_ (.cancelWait cancelled)
  next op at_ _ found present done succeeded =>
    exact moves at_ (.joined present (by simpa using done) succeeded)
  next op at_ _ _ _ _ _ _ => exact moves at_ (.retry)
  next op at_ _ found _ _ failure _ =>
    exact moves at_ (.failed failure)
  next at_ _ => exact moves at_ .unidentified
  next at_ _ _ => exact moves at_ .overtaken
  next at_ _ available =>
    simp only [not_or, ne_eq, Decidable.not_not] at available
    exact register caller at_ available.1 available.2
  next op at_ _ => exact moves at_ (.unwatched)
  next op at_ _ => exact watch caller at_
  next op watcher at_ =>
    split
    · exact moves at_ (.added)
    · exact moves at_ (.addFailed)
  next op watcher at_ =>
    split
    · exact moves at_ (.loaded)
    · exact moves at_ (.loadFailed)
  next op watcher at_ =>
    split
    · exact moves at_ (.live)
    · exact moves at_ (.cancelled)
  next op watcher at_ _ _ _ _ _ => exact moves at_ (.cleared)
  next op watcher at_ found held watched present valid =>
    exact publish caller at_ present watched (Decidable.not_not.mp valid)
  next op watcher err at_ held watched =>
    exact closeWatcher caller at_ watched
  next op watcher err at_ ended => exact moves at_ (.ended ended)
  next op err at_ found present =>
    exact setFailed caller at_ present
  next op err at_ found present =>
    exact finishOpen caller at_ present

theorem of_closeStep (present : m.operations[id]? = some op)
    (published : op.entry = some entry) (working : entry.worker = some pc)
    (taken : m.closeStep id op entry reply pc = some next) :
    ManagerEffect m (.worker id reply) next := by
  have goesOn : ∀ {after : OpenOperation} {watchers : List Watcher},
      CloseMove m op entry reply pc after watchers →
        ManagerEffect m (.worker id reply) { m with
            operations := m.operations.set id after
            watchers := watchers } :=
    fun move => worker present published working move
  revert taken
  fun_cases Manager.closeStep m id op entry reply pc
  all_goals intro taken; cases taken
  next none => exact goesOn (.unwatched none)
  next watcher watches held watched => exact goesOn (.stop watches watched)
  next watcher result ended => exact goesOn (.join ended)
  next result => exact goesOn (.hooked)
  next remaining result => exact goesOn (.call)
  next remaining result => exact goesOn (.answer)
  next result => exact goesOn (.release)
  next result close finished => exact goesOn (.finish finished)
  · exact goesOn .delete

theorem of_beginClose (taken : m.beginClose id = some next) :
    ManagerEffect m (.close id) next := by
  revert taken
  fun_cases Manager.beginClose m id
  all_goals intro taken; cases taken
  · exact keep
  · exact keep
  · exact keep
  next op present entry registered open_ begun =>
    have active : entry.state = .active := by
      cases state : entry.state with
      | active => rfl
      | closing => exact absurd state open_
    exact beginClose present registered active begun

theorem of_step (taken : m.step action = some next) :
    ManagerEffect m action next := by
  revert taken
  fun_cases Manager.step m action
  all_goals intro taken
  next root =>
    cases taken
    exact openRoot
  · cases taken
  next call caller => exact of_openStep caller taken
  · exact of_beginClose taken
  · simp only [Manager.clear] at taken
    split at taken <;> cases taken
    next clearable => exact clear clearable
  · cases taken
  · cases taken
  · cases taken
  next op present entry published pc working =>
    exact of_closeStep present published working taken
  · cases taken
  next watcher held watched ending =>
    simp only [Bool.and_eq_true] at ending
    cases taken
    exact watcherExits watched ending.1 ending.2
  · cases taken

end ManagerEffect

end Ferretd.Workspaces
