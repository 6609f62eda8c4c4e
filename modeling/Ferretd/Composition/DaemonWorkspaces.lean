import Ferretd.Composition.WorkspaceDocuments
import Ferretd.Daemon.Draining

/-!
# The daemon and its workspace manager

The daemon's lifecycle together with the workspace manager and the handlers of the `Open`
and `Close` RPCs.  `GracefulStop` takes no new RPC, and it returns only when every handler
has.
-/

namespace Ferretd.Composition

open Library Daemons.Daemon Workspaces.ManagerEffect WorkspaceStores List

/-- A handler of the `Close` RPC. -/
inductive CloseCall where
  | begin (id : Nat)
  | waiting (id : Nat)
  | returned (err : GoError)

/-- `cleared` holds the entries whose close the cleanup waits for. -/
structure Host where
  daemon : Daemons.Daemon
  workspaces : Workspaces.Manager
  closes : List CloseCall
  cleared : List Nat

inductive HostAction where
  | daemon (action : Daemons.Action)
  | openRPC (root : Nat)
  | openStep (index : Nat) (reply : Workspaces.Reply)
  | closeRPC (id : Nat)
  | closeStep (index : Nat) (ctxErr : GoError)
  | worker (id : Nat) (reply : Workspaces.Reply)
  | watcherExits (watcher : Nat)

section

variable (m : Workspaces.Manager)

/-- The entries of `byID`. -/
def listedEntries : List Nat :=
  (List.range m.operations.length).filter fun id =>
    ((m.operations[id]?).bind Workspaces.OpenOperation.registered).isSome

/-- The entry of an operation, which waiters keep when it has left `byID`. -/
def entryOf (id : Nat) : Option Workspaces.Entry :=
  (m.operations[id]?).bind Workspaces.OpenOperation.entry

/-- `entry.close.Wait` would return the result of the close. -/
def closeFinished (id : Nat) : Bool :=
  (entryOf m id).any fun found => found.close.finished

end

variable {action : HostAction}

namespace Host

def new (hooks : Nat) : Host :=
  ⟨.new, .new hooks, [], []⟩

section

variable (host : Host)

/-- Whether the gRPC server takes a new RPC. -/
def accepts : Bool :=
  host.daemon.serves && host.daemon.cleanups.all fun cleanup =>
    !decide (cleanup.Past .drainGrpc)

def drained : Bool :=
  (host.workspaces.calls.all fun call =>
    match call.pc with
    | .returned _ _ => true
    | _ => false) &&
  host.closes.all fun call =>
    match call with
    | .returned _ => true
    | _ => false

def setDaemon (d : Daemons.Daemon) : Host :=
  { host with daemon := d }

def setWorkspaces (workspaces : Workspaces.Manager) : Host :=
  { host with workspaces := workspaces }

/-- A step of the cleanup: what it asks of the workspace manager and the gRPC server. -/
def cleanupStep (index : Nat) (reply : Daemons.Reply)
    (pc : Daemons.CleanupPC) : Option Host :=
  match pc with
  | .clearWorkspaces =>
    (host.workspaces.step .clear).bind fun workspaces =>
      (host.daemon.step (.cleanup index reply)).map fun d =>
        { host with
          daemon := d
          workspaces := workspaces
          cleared := listedEntries workspaces }
  | .awaitWorkspaces =>
    if host.cleared.all (closeFinished host.workspaces) then
      (host.daemon.step (.cleanup index reply)).map host.setDaemon
    else
      none
  | .drainGrpc =>
    if host.drained then
      (host.daemon.step (.cleanup index reply)).map host.setDaemon
    else
      none
  | .setNotServing | .closeExecutions | .stopGrpc | .closeListener | .closeRuntime
  | .finishStop | .finished =>
    (host.daemon.step (.cleanup index reply)).map host.setDaemon

/-- A step of a handler of the `Close` RPC. -/
def closeStep (index : Nat) (ctxErr : GoError) : CloseCall → Option Host
  | .begin id =>
    match (host.workspaces.operations[id]?).bind Workspaces.OpenOperation.registered with
    | none => some { host with closes := host.closes.set index (.returned []) }
    | some _ =>
      (host.workspaces.step (.close id)).map fun workspaces =>
        { host with
          workspaces := workspaces
          closes := host.closes.set index (.waiting id) }
  | .waiting id =>
    match entryOf host.workspaces id with
    | none => none
    | some found =>
      match found.close.wait ctxErr with
      | .ok (some err) =>
        some { host with closes := host.closes.set index (.returned err) }
      | .ok none | .error _ => none
  | .returned _ => none

def step : HostAction → Option Host
  | .daemon (.cleanup index reply) =>
    match host.daemon.cleanups[index]? with
    | none => none
    | some cleanup => host.cleanupStep index reply cleanup.pc
  | .daemon action => (host.daemon.step action).map host.setDaemon
  | .openRPC root =>
    if host.accepts then
      (host.workspaces.step (.openRoot root)).map host.setWorkspaces
    else
      none
  | .openStep index reply =>
    (host.workspaces.step (.call index reply)).map host.setWorkspaces
  | .closeRPC id =>
    if host.accepts then
      some { host with closes := host.closes ++ [.begin id] }
    else
      none
  | .closeStep index ctxErr =>
    match host.closes[index]? with
    | none => none
    | some call => host.closeStep index ctxErr call
  | .worker id reply =>
    (host.workspaces.step (.worker id reply)).map host.setWorkspaces
  | .watcherExits watcher =>
    (host.workspaces.step (.watcherExits watcher)).map host.setWorkspaces

/-- Whether the cleanup has cleared the workspace manager. -/
def hasCleared : Bool :=
  host.daemon.cleanups.any fun cleanup => cleanup.Past .clearWorkspaces

/-- No workspace is published after the cleanup has cleared the manager. -/
def publishesInTime : HostAction → Bool
  | .openStep index reply =>
    !host.hasCleared ||
      decide (publishing host.workspaces (.call index reply) = none)
  | _ => true

end

/-! ## What a step can do -/

/-- A step moves the daemon, the workspace manager, the handlers of `Close`, or, when the
cleanup clears the manager, both. -/
inductive Effect (host : Host) : HostAction → Host → Prop
  | daemon {action : Daemons.Action} {next : Daemons.Daemon}
      (taken : host.daemon.step action = some next)
      (guarded : ∀ index reply cleanup, action = .cleanup index reply →
        host.daemon.cleanups[index]? = some cleanup →
          cleanup.pc ≠ .clearWorkspaces ∧
          (cleanup.pc = .awaitWorkspaces →
            ∀ id ∈ host.cleared, closeFinished host.workspaces id = true) ∧
          (cleanup.pc = .drainGrpc → host.drained = true)) :
      Effect host (.daemon action) (host.setDaemon next)
  | clear {reply : Daemons.Reply} {next : Daemons.Daemon} {index : Nat} {cleanup : Daemons.Cleanup}
      {workspaces : Workspaces.Manager}
      (found : host.daemon.cleanups[index]? = some cleanup)
      (at_ : cleanup.pc = .clearWorkspaces)
      (taken : host.daemon.step (.cleanup index reply) = some next)
      (cleared : host.workspaces.step .clear = some workspaces) :
      Effect host (.daemon (.cleanup index reply)) { host with
          daemon := next
          workspaces := workspaces
          cleared := listedEntries workspaces }
  | workspaces {action : HostAction} {inner : Workspaces.Action}
      {workspaces : Workspaces.Manager} {closes : List CloseCall}
      (taken : host.workspaces.step inner = some workspaces)
      (opens : ∀ root, inner = .openRoot root → host.accepts = true)
      (calls : ∀ index reply, inner = .call index reply → action = .openStep index reply)
      (kept : inner ≠ .clear) :
      Effect host action { host with workspaces := workspaces, closes := closes }
  | closes {action : HostAction} {closes : List CloseCall} :
      Effect host action { host with closes := closes }

variable {next host : Host} {reply : Daemons.Reply} {index : Nat} {cleanup : Daemons.Cleanup}
  {ctxErr : GoError} {call : CloseCall}

theorem Effect.of_cleanup (found : host.daemon.cleanups[index]? = some cleanup)
    (taken : host.cleanupStep index reply cleanup.pc = some next) :
    Effect host (.daemon (.cleanup index reply)) next := by
  have moves : ∀ {d : Daemons.Daemon},
      host.daemon.step (.cleanup index reply) = some d →
      cleanup.pc ≠ .clearWorkspaces →
      (cleanup.pc = .awaitWorkspaces →
        ∀ id ∈ host.cleared, closeFinished host.workspaces id = true) →
      (cleanup.pc = .drainGrpc → host.drained = true) →
        Effect host (.daemon (.cleanup index reply)) (host.setDaemon d) := by
    intro d stepped unclear awaited drained
    refine .daemon stepped ?_
    intro index' reply' cleanup' same located
    cases same
    rw [found] at located
    cases located
    exact ⟨unclear, awaited, drained⟩
  cases at_ : cleanup.pc with
  | clearWorkspaces =>
    simp only [cleanupStep, at_] at taken
    obtain ⟨workspaces, cleared, rest⟩ := Option.bind_eq_some_iff.mp taken
    obtain ⟨d, stepped, rfl⟩ := Option.map_eq_some_iff.mp rest
    exact .clear found at_ stepped cleared
  | awaitWorkspaces =>
    simp only [cleanupStep, at_] at taken
    split at taken
    next awaited =>
      obtain ⟨d, stepped, rfl⟩ := Option.map_eq_some_iff.mp taken
      exact moves stepped (by simp [at_]) (fun _ => all_eq_true.mp awaited) (by simp [at_])
    · cases taken
  | drainGrpc =>
    simp only [cleanupStep, at_] at taken
    split at taken
    next drained =>
      obtain ⟨d, stepped, rfl⟩ := Option.map_eq_some_iff.mp taken
      exact moves stepped (by simp [at_]) (by simp [at_]) (fun _ => drained)
    · cases taken
  | _ =>
    simp only [cleanupStep, at_] at taken
    obtain ⟨d, stepped, rfl⟩ := Option.map_eq_some_iff.mp taken
    exact moves stepped (by simp [at_]) (by simp [at_]) (by simp [at_])

theorem Effect.of_closeStep (taken : host.closeStep index ctxErr call = some next) :
    Effect host (.closeStep index ctxErr) next := by
  cases call with
  | begin id =>
    simp only [closeStep] at taken
    split at taken
    · cases taken
      exact .closes
    · obtain ⟨workspaces, stepped, rfl⟩ := Option.map_eq_some_iff.mp taken
      exact .workspaces stepped nofun nofun nofun
  | waiting =>
    simp only [closeStep] at taken
    split at taken
    · cases taken
    split at taken
    · cases taken
      exact .closes
    · cases taken
    · cases taken
  | returned => cases taken

theorem Effect.of_step (taken : host.step action = some next) : Effect host action next := by
  have own : ∀ {inner : Workspaces.Action},
      (host.workspaces.step inner).map host.setWorkspaces = some next →
      (∀ root, inner = .openRoot root → host.accepts = true) →
      (∀ index reply, inner = .call index reply → action = .openStep index reply) →
      inner ≠ .clear → Effect host action next := by
    intro inner moved opens calls kept
    obtain ⟨workspaces, stepped, rfl⟩ := Option.map_eq_some_iff.mp moved
    exact .workspaces stepped opens calls kept
  have other : ∀ {inner : Daemons.Action},
      (host.daemon.step inner).map host.setDaemon = some next →
      (∀ index reply, inner ≠ .cleanup index reply) → Effect host (.daemon inner) next := by
    intro inner moved outside
    obtain ⟨d, stepped, rfl⟩ := Option.map_eq_some_iff.mp moved
    exact .daemon stepped fun index reply _ equal =>
      absurd equal (outside index reply)
  cases action with
  | daemon inner =>
    cases inner with
    | cleanup =>
      simp only [step] at taken
      split at taken
      · cases taken
      next cleanup found => exact of_cleanup found taken
    | _ => exact other taken nofun
  | openRPC =>
    simp only [step] at taken
    split at taken
    next accepted => exact own taken (fun _ _ => accepted) nofun nofun
    · cases taken
  | openStep =>
    refine own taken nofun ?_ nofun
    intro index' reply' same
    cases same
    rfl
  | closeRPC =>
    simp only [step] at taken
    split at taken
    · cases taken
      exact .closes
    · cases taken
  | closeStep =>
    simp only [step] at taken
    split at taken
    · cases taken
    · exact of_closeStep taken
  | worker | watcherExits => exact own taken nofun nofun nofun

end Host

/-! ## The entries of a manager that publishes nothing -/

section Entries

variable {found moved : Workspaces.Entry} {op after : Workspaces.OpenOperation}
  {reply : Workspaces.Reply} {pc : Workspaces.ClosePC} {watchers : List Workspaces.Watcher}
  {m next : Workspaces.Manager} {action : Workspaces.Action} {id : Nat}

theorem entryOf_eq (isEntry : entryOf m id = some found) :
    ∃ op, m.operations[id]? = some op ∧ op.entry = some found :=
  Option.bind_eq_some_iff.mp isEntry

theorem closeMove_forward (move : Workspaces.CloseMove m op found reply pc after watchers)
    (isMoved : after.entry = some moved) :
    moved.state = found.state ∧
      (found.close.state = .finished → moved.close.state = .finished) := by
  cases move with
  | finish finished =>
    cases isMoved
    refine ⟨rfl, fun already => ?_⟩
    rw [((CloseOperation.evolves_finish finished).finished already)]
    exact already
  | _ =>
    cases isMoved
    exact ⟨rfl, id⟩

theorem entry_before (taken : m.step action = some next)
    (unpublished : publishing m action = none) (isEntry : entryOf next id = some found) :
    ∃ before, entryOf m id = some before ∧
      (before.state = .closing → found.state = .closing) ∧
      (before.close.state = .finished → found.close.state = .finished) := by
  obtain ⟨op, located, isFound⟩ := entryOf_eq isEntry
  have same : ∀ {before : Workspaces.OpenOperation},
      m.operations[id]? = some before → before.entry = op.entry →
        ∃ before, entryOf m id = some before ∧
          (before.state = .closing → found.state = .closing) ∧
          (before.close.state = .finished → found.close.state = .finished) := by
    intro before present equal
    refine ⟨found, ?_, fun closing => closing, fun finished => finished⟩
    rw [entryOf, present]
    exact equal.trans isFound
  cases of_step taken with
  | register =>
    rcases getElem?_concat_cases located with ⟨_, rfl⟩ | before
    · cases isFound
    · exact same before rfl
  | @publish _ call _ _ _ _ _ caller at_ present _ valid =>
    obtain ⟨root, pc⟩ := call
    cases at_
    simp [publishing, caller, present, valid] at unpublished
  | setFailed _ _ present | finishOpen _ _ present =>
    rcases getElem?_set_cases located with ⟨rfl, rfl⟩ | ⟨_, old⟩
    · exact same present rfl
    · exact same old rfl
  | @beginClose _ entry _ present registered =>
    rcases getElem?_set_cases located with ⟨rfl, rfl⟩ | ⟨_, old⟩
    · cases isFound
      obtain ⟨known, _⟩ := Workspaces.OpenOperation.entry_of_registered registered
      refine ⟨entry, by rw [entryOf, present]; exact known, fun _ => rfl, ?_⟩
      intro finished
      rw [← (CloseOperation.evolves_begin entry.close).finished finished] at finished
      exact finished
    · exact same old rfl
  | clear =>
    rw [getElem?_map] at located
    obtain ⟨before, present, rfl⟩ := Option.map_eq_some_iff.mp located
    rcases (Workspaces.ManagerSound.clearOne_spec before).2 with
      equal | ⟨entry, known, _, moved⟩
    · exact same present equal.symm
    rw [moved] at isFound
    cases isFound
    refine ⟨entry, by rw [entryOf, present]; exact known, fun _ => rfl, ?_⟩
    intro finished
    rw [← (CloseOperation.evolves_begin entry.close).finished finished] at finished
    exact finished
  | @worker _ entry _ _ _ _ _ present published _ move =>
    rcases getElem?_set_cases located with ⟨rfl, rfl⟩ | ⟨_, old⟩
    · obtain ⟨state, finished⟩ := closeMove_forward move isFound
      exact ⟨entry, by rw [entryOf, present]; exact published,
        fun closing => state.trans closing, finished⟩
    · exact same old rfl
  | _ => exact same located rfl

/-- After a `Clear` every entry is closing, and it is over or one of those in `byID`. -/
theorem entry_of_clear (sound : Workspaces.ManagerSound m)
    (taken : m.step .clear = some next) (isEntry : entryOf next id = some found) :
    found.state = .closing ∧ (found.close.state = .finished ∨ id ∈ listedEntries next) := by
  have soundNext := sound.step taken
  obtain ⟨op, located, isFound⟩ := entryOf_eq isEntry
  have entrySound := (soundNext.entries id op found located isFound).2
  cases isListed : found.listed with
  | false =>
    have finished := entrySound.listed isListed
    exact ⟨entrySound.closing_of_busy (by simp [finished]), Or.inl finished⟩
  | true =>
    have registered : op.registered = some found := by
      simp [Workspaces.OpenOperation.registered, isFound, isListed]
    refine ⟨?_, Or.inr ?_⟩
    · simp only [Workspaces.Manager.step, Workspaces.Manager.clear] at taken
      split at taken
      · cases taken
        rw [getElem?_map] at located
        obtain ⟨before, present, rfl⟩ := Option.map_eq_some_iff.mp located
        have inactive := congrArg Workspaces.Standing.active
          (Workspaces.Manager.clearOne_standing before)
        have unlisted : (Workspaces.Manager.clearOne before).active = false := inactive
        rw [Workspaces.OpenOperation.active, registered] at unlisted
        cases state : found.state with
        | active => simp [state] at unlisted
        | closing => rfl
      · cases taken
    · have inside := (List.getElem?_eq_some_iff.mp located).1
      refine mem_filter.mpr ⟨mem_range.mpr inside, ?_⟩
      rw [located]
      exact Option.isSome_iff_exists.mpr ⟨found, registered⟩

theorem watchers_step (sound : Workspaces.IdentitySound m) (made : Workspaces.WatchersMade m)
    (watchers : ∀ watcher < m.watchers.length, ∃ index id,
      Workspaces.WatcherSound m index id watcher)
    (taken : m.step action = some next) :
    ∀ watcher < next.watchers.length, ∃ index id,
      Workspaces.WatcherSound next index id watcher := by
  intro watcher inside
  by_cases old : watcher < m.watchers.length
  · obtain ⟨index, id, known⟩ := watchers watcher old
    exact ⟨index, id, Workspaces.watcherSound_run known (.next action .start trivial taken)⟩
  have fresh : ∃ index id, m.makesWatcher action next index id watcher := by
    cases of_step taken with
    | @watch index call reply op caller at_ =>
      refine ⟨index, op, reply, call, rfl, caller, at_, ?_, inside⟩
      have bound : watcher < (m.watchers ++ [Workspaces.Watcher.new]).length := inside
      rw [length_append, length_singleton] at bound
      omega
    | publish | closeWatcher | watcherExits =>
      have bound : watcher < (m.watchers.set _ _).length := inside
      rw [length_set] at bound
      exact absurd bound old
    | @worker _ _ _ _ _ watchers' _ _ _ _ move =>
      have bound : watcher < watchers'.length := inside
      cases move with
      | stop =>
        rw [length_set] at bound
        exact absurd bound old
      | _ =>
        exact absurd bound old
    | _ =>
      exact absurd inside old
  obtain ⟨index, id, makes⟩ := fresh
  exact ⟨index, id, Workspaces.watcherSound_made sound made taken makes⟩

theorem returned_step (taken : m.step action = some next) (closed : ∀ root, action ≠ .openRoot root)
    (returned : ∀ call ∈ m.calls, ∃ result err, call.pc = .returned result err) :
    ∀ call ∈ next.calls, ∃ result err, call.pc = .returned result err := by
  cases (of_step taken).calls_move with
  | same calls =>
    rw [calls]
    exact returned
  | @openRoot root => exact absurd rfl (closed root)
  | @call _ call _ _ caller =>
    obtain ⟨result, err, at_⟩ := returned call (mem_of_getElem? caller)
    simp [Workspaces.Manager.step, caller, Workspaces.Manager.openStep, at_] at taken

end Entries

/-! ## Runs of the host -/

/-- What the cleanup has brought about in the workspace manager, stage by stage. -/
structure HostSound (host : Host) : Prop where
  charged : host.daemon.Charged
  ordered : host.daemon.Ordered
  drains : host.daemon.HasRun → host.daemon.Drains
  identity : Workspaces.IdentitySound host.workspaces
  made : Workspaces.WatchersMade host.workspaces
  watchers : ∀ watcher < host.workspaces.watchers.length, ∃ index id,
    Workspaces.WatcherSound host.workspaces index id watcher
  served : host.workspaces.calls ≠ [] → host.daemon.serves = true
  cleared : ∀ cleanup ∈ host.daemon.cleanups, cleanup.Past .clearWorkspaces →
    ∀ id found, entryOf host.workspaces id = some found →
      found.state = .closing ∧ (found.close.state = .finished ∨ id ∈ host.cleared)
  awaited : ∀ cleanup ∈ host.daemon.cleanups, cleanup.Past .awaitWorkspaces →
    ∀ id found, entryOf host.workspaces id = some found → found.close.state = .finished
  drained : ∀ cleanup ∈ host.daemon.cleanups, cleanup.Past .drainGrpc →
    cleanup.serving = true →
      ∀ call ∈ host.workspaces.calls, ∃ result err, call.pc = .returned result err

namespace HostSound

variable {host next : Host}

theorem new (hooks : Nat) : HostSound (.new hooks) where
  charged := charged_new
  ordered := ordered_new
  drains := by
    rintro (serves | ready)
    · cases serves
    · cases ready
  identity := Workspaces.identitySound_new hooks
  made := Workspaces.watchersMade_new hooks
  watchers := nofun
  served := fun called => absurd rfl called
  cleared := nofun
  awaited := nofun
  drained := nofun

theorem daemon {inner : Daemons.Action} {d : Daemons.Daemon} (sound : HostSound host)
    (taken : host.daemon.step inner = some d)
    (guarded : ∀ index reply cleanup, inner = .cleanup index reply →
      host.daemon.cleanups[index]? = some cleanup →
        cleanup.pc ≠ .clearWorkspaces ∧
        (cleanup.pc = .awaitWorkspaces →
          ∀ id ∈ host.cleared, closeFinished host.workspaces id = true) ∧
        (cleanup.pc = .drainGrpc → host.drained = true)) :
    HostSound (host.setDaemon d) where
  charged := sound.charged.step taken
  ordered := sound.ordered.step sound.charged taken
  drains := drains_step sound.charged sound.drains taken
  identity := sound.identity
  made := sound.made
  watchers := sound.watchers
  served := fun called => serves_kept taken (sound.served called)
  cleared := by
    intro cleanup inside late
    rcases cleanup_before taken inside with
      old | fresh | ⟨index, reply, before, isCleanup, located, _, moved⟩
    · exact sound.cleared cleanup old late
    · omega
    apply sound.cleared before (mem_of_getElem? located)
    obtain ⟨unclear, _, _⟩ := guarded index reply before isCleanup located
    rcases moved with next | ⟨at_, _⟩
    · cases at_ : before.pc <;> simp_all [Daemons.CleanupPC.stage]
    · exact Daemons.Cleanup.past_of_pc at_ (by decide)
  awaited := by
    intro cleanup inside late id found isEntry
    rcases cleanup_before taken inside with
      old | fresh | ⟨index, reply, before, isCleanup, located, _, moved⟩
    · exact sound.awaited cleanup old late id found isEntry
    · omega
    have present := mem_of_getElem? located
    obtain ⟨_, waits, _⟩ := guarded index reply before isCleanup located
    by_cases past : before.Past .awaitWorkspaces
    · exact sound.awaited before present past id found isEntry
    have at_ : before.pc = .awaitWorkspaces := by
      rcases moved with next | ⟨at_, _⟩
      · cases at_ : before.pc <;> simp_all [Daemons.CleanupPC.stage]
      · exact absurd (Daemons.Cleanup.past_of_pc at_ (by decide)) past
    obtain ⟨_, finished | listed⟩ := sound.cleared before present
      (Daemons.Cleanup.past_of_pc at_ (by decide)) id found isEntry
    · exact finished
    · have told := waits at_ id listed
      have known : entryOf host.workspaces id = some found := isEntry
      simpa [closeFinished, known, CloseOperation.finished] using told
  drained := by
    intro cleanup inside late serving
    rcases cleanup_before taken inside with
      old | fresh | ⟨index, reply, before, isCleanup, located, serves, moved⟩
    · exact sound.drained cleanup old late serving
    · omega
    have present := mem_of_getElem? located
    obtain ⟨_, _, drain⟩ := guarded index reply before isCleanup located
    rw [serves] at serving
    by_cases past : before.Past .drainGrpc
    · exact sound.drained before present past serving
    have at_ : before.pc = .drainGrpc := by
      rcases moved with next | ⟨_, unserved⟩
      · cases at_ : before.pc <;> simp_all [Daemons.CleanupPC.stage]
      · rw [unserved] at serving
        cases serving
    have all := drain at_
    simp only [Host.drained, Bool.and_eq_true, all_eq_true] at all
    intro call inside
    have returned := all.1 call inside
    cases pc : call.pc with
    | returned result err => exact ⟨result, err, rfl⟩
    | _ => simp [pc] at returned

theorem clear {workspaces : Workspaces.Manager}
    {index : Nat} {reply : Daemons.Reply} {cleanup : Daemons.Cleanup}
    {d : Daemons.Daemon} (sound : HostSound host)
    (found : host.daemon.cleanups[index]? = some cleanup) (at_ : cleanup.pc = .clearWorkspaces)
    (taken : host.daemon.step (.cleanup index reply) = some d)
    (cleared : host.workspaces.step .clear = some workspaces) :
    HostSound { host with
      daemon := d
      workspaces := workspaces
      cleared := listedEntries workspaces } := by
  obtain ⟨_, only, _⟩ := sound.charged.cleanup_alone found
  have early : ∀ other ∈ d.cleanups, ¬ other.Past .awaitWorkspaces := by
    intro other inside
    rcases cleanup_before taken inside with
      old | fresh | ⟨index', reply', before, _, located, _, moved⟩
    · rw [only] at old
      cases mem_singleton.mp old
      rw [Daemons.Cleanup.Past, at_]
      decide
    · omega
    · have present := mem_of_getElem? located
      rw [only] at present
      cases mem_singleton.mp present
      rcases moved with next | ⟨elsewhere, _⟩
      · rw [Daemons.Cleanup.Past, next, at_]
        decide
      · rw [at_] at elsewhere
        cases elsewhere
  have calls : workspaces.calls = host.workspaces.calls := by
    simp only [Workspaces.Manager.step, Workspaces.Manager.clear] at cleared
    split at cleared
    · cases cleared
      rfl
    · cases cleared
  exact {
    charged := sound.charged.step taken
    ordered := sound.ordered.step sound.charged taken
    drains := drains_step sound.charged sound.drains taken
    identity := sound.identity.step cleared
    made := sound.made.step cleared
    watchers := watchers_step sound.identity sound.made sound.watchers cleared
    served := fun called => serves_kept taken (sound.served (calls ▸ called))
    cleared := fun other inside _ id found isEntry =>
      entry_of_clear sound.identity.entries cleared isEntry
    awaited := fun other inside late => absurd late (early other inside)
    drained := fun other inside late =>
      absurd (late.earlier (by decide)) (early other inside) }

theorem workspaces {inner : Workspaces.Action} {workspaces : Workspaces.Manager}
    {closes : List CloseCall} (sound : HostSound host)
    (taken : host.workspaces.step inner = some workspaces)
    (opens : ∀ root, inner = .openRoot root → host.accepts = true)
    (unpublished : host.hasCleared = true → publishing host.workspaces inner = none) :
    HostSound { host with workspaces := workspaces, closes := closes } := by
  have late : ∀ cleanup ∈ host.daemon.cleanups, cleanup.Past .clearWorkspaces →
      publishing host.workspaces inner = none := by
    intro cleanup inside stage
    exact unpublished (any_eq_true.mpr ⟨cleanup, inside, decide_eq_true stage⟩)
  exact {
    charged := sound.charged
    ordered := sound.ordered
    drains := sound.drains
    identity := sound.identity.step taken
    made := sound.made.step taken
    watchers := watchers_step sound.identity sound.made sound.watchers taken
    served := fun called => by
      by_cases before : host.workspaces.calls = []
      · cases (of_step taken).calls_move with
        | same calls => exact absurd (calls.trans before) called
        | @openRoot root =>
          have accepted := opens root rfl
          simp only [Host.accepts, Bool.and_eq_true] at accepted
          exact accepted.1
        | call caller => simp [before] at caller
      · exact sound.served before
    cleared := fun cleanup inside stage id found isEntry => by
      obtain ⟨before, known, closing, finished⟩ :=
        entry_before taken (late cleanup inside stage) isEntry
      obtain ⟨state, ended⟩ := sound.cleared cleanup inside stage id before known
      exact ⟨closing state, ended.imp_left finished⟩
    awaited := fun cleanup inside stage id found isEntry => by
      obtain ⟨before, known, _, finished⟩ :=
        entry_before taken (late cleanup inside (stage.earlier (by decide))) isEntry
      exact finished (sound.awaited cleanup inside stage id before known)
    drained := fun cleanup inside stage serving => by
      refine returned_step taken ?_ (sound.drained cleanup inside stage serving)
      rintro root rfl
      have accepted := opens root rfl
      simp only [Host.accepts, Bool.and_eq_true, all_eq_true] at accepted
      simpa [stage] using accepted.2 cleanup inside }

theorem step (sound : HostSound host) (inTime : host.publishesInTime action = true)
    (taken : host.step action = some next) : HostSound next := by
  cases Host.Effect.of_step taken with
  | daemon stepped guarded => exact sound.daemon stepped guarded
  | clear found at_ stepped cleared =>
    exact sound.clear found at_ stepped cleared
  | @workspaces _ inner workspaces _ stepped opens calls =>
    refine sound.workspaces stepped opens fun cleared => ?_
    cases inner with
    | call index reply =>
      cases calls index reply rfl
      simpa [Host.publishesInTime, cleared] using inTime
    | _ => rfl
  | closes => exact { sound with }

/-- When the daemon has stopped, every workspace is closed and every watcher retired. -/
theorem cleared_of_stopped (sound : HostSound host) (stopped : host.daemon.state = .stopped) :
    (∀ op ∈ host.workspaces.operations, op.active = false) ∧
      ∀ watcher ∈ host.workspaces.watchers, watcher.closed = true ∧ watcher.looping = false := by
  have published := sound.ordered.stopped.mp stopped
  rw [sound.ordered.done] at published
  obtain ⟨cleanup, inside, reached⟩ := exists_of_tally_ne_zero published
  have past : cleanup.Past .finishStop := by
    by_contra early
    exact reached (if_neg early)
  constructor
  · intro op present
    obtain ⟨id, located⟩ := getElem?_of_mem present
    unfold Workspaces.OpenOperation.active
    split
    next found registered =>
      obtain ⟨isEntry, _⟩ := Workspaces.OpenOperation.entry_of_registered registered
      have known : entryOf host.workspaces id = some found := by
        rw [entryOf, located]
        exact isEntry
      simp [(sound.cleared cleanup inside (past.earlier (by decide)) id found known).1]
    · rfl
  · intro watcher present
    obtain ⟨pos, located⟩ := getElem?_of_mem present
    obtain ⟨index, id, known⟩ :=
      sound.watchers pos (List.getElem?_eq_some_iff.mp located).1
    obtain ⟨call, caller, fate⟩ := known.fate
    have called : host.workspaces.calls ≠ [] := ne_nil_of_mem (mem_of_getElem? caller)
    have serving := (sound.drains (Or.inl (sound.served called))).cleanups cleanup inside
    obtain ⟨result, err, returned⟩ :=
      sound.drained cleanup inside (past.earlier (by decide)) serving call (mem_of_getElem? caller)
    have retired : host.workspaces.retired pos := by
      cases fate with
      | held owns =>
        rw [returned] at owns
        cases owns
      | discarded _ retired => exact retired
      | @published op found _ isOperation isEntry owns =>
        have entrySound := (sound.identity.entries.entries id op found isOperation isEntry).2
        have finished := sound.awaited cleanup inside (past.earlier (by decide)) id found
          (by rw [entryOf, isOperation]; exact isEntry)
        apply owns.stopped
        rcases entrySound.finished finished with last | ⟨none, unlisted⟩
        · rw [Workspaces.Entry.stopped, last]
          rfl
        · rw [Workspaces.Entry.stopped, none, unlisted]
          rfl
    obtain ⟨held, isHeld, closed, ended⟩ := retired
    rw [located] at isHeld
    cases isHeld
    exact ⟨closed, ended⟩

end HostSound

/-- When no workspace is published after the cleanup has cleared the manager, a stopped
daemon has no active workspace and no open watcher. -/
theorem stop_leaves_no_workspace {hooks : Nat} {host : Host}
    (run : Run Host.step (fun host action => host.publishesInTime action = true)
      (.new hooks) host) (stopped : host.daemon.state = .stopped) :
    (∀ op ∈ host.workspaces.operations, op.active = false) ∧
      ∀ watcher ∈ host.workspaces.watchers, watcher.closed = true ∧ watcher.looping = false := by
  have sound : HostSound host := by
    apply run.invariant
    · exact HostSound.new hooks
    · intro state action next sound inTime taken
      exact sound.step inTime taken
  exact sound.cleared_of_stopped stopped

/-- `Start` up to its wait. -/
def Host.serveSchedule : List HostAction :=
  .daemon .start :: List.replicate 5 (.daemon (.startStep 0 .quiet))

/-- `Stop`, and its cleanup up to the section that clears the workspace manager. -/
def Host.clearSchedule : List HostAction :=
  [.daemon .stop, .daemon (.stopStep 0 .quiet), .daemon (.stopStep 0 .quiet)] ++
    List.replicate 3 (.daemon (.cleanup 0 .quiet))

/-- An `Open` that succeeds. -/
def Host.openSchedule : List HostAction :=
  .openRPC 0 :: List.replicate 7 (.openStep 0 .quiet)

theorem stop_leaves_no_workspace_closed :
    ∃ host : Host, host.daemon.state = .stopped ∧
      host.workspaces.watchers = [⟨true, true, false⟩] ∧
      (∀ op ∈ host.workspaces.operations, op.active = false) ∧
      ∀ watcher ∈ host.workspaces.watchers, watcher.closed = true ∧ watcher.looping = false := by
  have executed : (execute (guarded Host.step fun host action => host.publishesInTime action = true)
      (.new 1) (Host.serveSchedule ++ Host.openSchedule ++ Host.clearSchedule ++
        [.worker 0 .quiet, .watcherExits 0] ++ List.replicate 6 (.worker 0 .quiet) ++
        List.replicate 6 (.daemon (.cleanup 0 .quiet)))).map
          (fun host => (host.daemon.state, host.workspaces.watchers)) =
      some (.stopped, [⟨true, true, false⟩]) := by rfl
  obtain ⟨host, reached, values⟩ := Option.map_eq_some_iff.mp executed
  simp only [Prod.mk.injEq] at values
  exact ⟨host, values.1, values.2,
    stop_leaves_no_workspace (run_of_guarded (reaches_of_execute reached)) values.1⟩

/-- An `Open` that falls between the `Clear` and the drain leaves its workspace active and
its watcher running. -/
theorem stop_leaves_workspace :
    ∃ host : Host, Reaches Host.step (.new 1) host ∧ host.daemon.state = .stopped ∧
      (∃ op ∈ host.workspaces.operations, op.active = true) ∧
      ∃ watcher ∈ host.workspaces.watchers, watcher.closed = false ∧ watcher.looping = true := by
  have executed : (execute Host.step (.new 1) (Host.serveSchedule ++ Host.clearSchedule ++
      Host.openSchedule ++ List.replicate 6 (.daemon (.cleanup 0 .quiet)))).map
        (fun host => (host.daemon.state,
          host.workspaces.operations.map Workspaces.OpenOperation.active,
          host.workspaces.watchers)) =
      some (.stopped, [true], [⟨true, false, true⟩]) := by rfl
  obtain ⟨host, reached, values⟩ := Option.map_eq_some_iff.mp executed
  simp only [Prod.mk.injEq] at values
  obtain ⟨stopped, operations, watchers⟩ := values
  refine ⟨host, reaches_of_execute reached, stopped, ?_, ?_⟩
  · have active : true ∈ host.workspaces.operations.map Workspaces.OpenOperation.active := by
      rw [operations]
      exact mem_singleton.mpr rfl
    exact mem_map.mp active
  · rw [watchers]
    exact ⟨_, mem_singleton.mpr rfl, rfl, rfl⟩

end Ferretd.Composition
