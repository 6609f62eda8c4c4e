import Mathlib.Logic.Function.Basic
import Ferretd.Library.Machine

/-!
# The dispatcher of the language server

Messages are read one after the other, and each is handled by a goroutine of its own.  A
lifecycle message opens a channel that the messages after it wait for, and closes it when
its goroutine ends; it waits itself for the channel of the lifecycle message before it.  A
request that is cancelled while it waits ends without having run.

The log records when handlers start and complete.
-/

namespace Ferretd.Lsp

open Library List

inductive Method where
  | initializeRequest
  | initialized
  | shutdown
  | exit
  | didOpen
  | didChange
  | didClose
  | cancelRequest
  | other (name : String)
deriving DecidableEq

def isLifecycleMethod : Method → Bool
  | .initializeRequest | .initialized | .shutdown | .exit | .didOpen | .didChange
  | .didClose => true
  | .cancelRequest | .other _ => false

/-- `jsonrpc2.Request`, as far as the dispatcher reads it; `target` is the identifier that
the parameters of a cancel notification name, when they can be read. -/
structure Request where
  method : Method
  notif : Bool
  id : Nat
  target : Option Nat

/-- The control points of `dispatch`: the wait, the handler, and the deferred calls. -/
inductive DispatchPC where
  | waiting
  | running
  | removing
  | closing
  | finished
deriving DecidableEq

/-- A goroutine of `dispatch`, with what it is started with.  Its barrier is the channel of
an earlier message, or the channel that is closed from the beginning. -/
structure Dispatch where
  request : Request
  barrier : Option Nat

def Dispatch.lifecycle (dispatch : Dispatch) : Bool :=
  isLifecycleMethod dispatch.request.method

inductive Mark where
  | started (msg : Nat)
  | completed (msg : Nat)

/-- `rpcHandler`, while the context of its connection is live, with its goroutines.
Messages are numbered in the order in which they arrive; `registering` is the request
between the two critical sections of `Handle`, and `cancelled` says whose context is
done. -/
structure Handler where
  dispatches : List Dispatch
  tail : Option Nat
  inFlight : Nat → Option Nat
  registering : Option Request
  pc : Nat → DispatchPC
  cancelled : Nat → Bool
  log : List Mark

inductive Action where
  | receive (req : Request)
  | enqueue
  | leave (msg : Nat)
  | enter (msg : Nat)
  | complete (msg : Nat)
  | remove (msg : Nat)
  | close (msg : Nat)

namespace Handler

/-- `newRPCHandler`. -/
def new : Handler where
  dispatches := []
  tail := none
  inFlight := fun _ => none
  registering := none
  pc := fun _ => .waiting
  cancelled := fun _ => false
  log := []

section

variable (rpc : Handler)

/-- The channel is closed: that of a lifecycle message when its goroutine has ended. -/
def closed : Option Nat → Bool
  | none => true
  | some msg => decide (rpc.pc msg = .finished)

/-- The last critical section of `Handle`, and the start of the goroutine. -/
def enqueue (req : Request) : Handler :=
  { rpc with
    dispatches := rpc.dispatches ++ [⟨req, rpc.tail⟩]
    tail :=
      if isLifecycleMethod req.method then
        some rpc.dispatches.length
      else
        rpc.tail
    registering := none }

/-- `cancel`, with the identifier it has read. -/
def cancel (target : Option Nat) : Handler :=
  match target.bind rpc.inFlight with
  | none => rpc
  | some msg =>
    { rpc with cancelled := Function.update rpc.cancelled msg true }

def receive (req : Request) : Option Handler :=
  if rpc.registering ≠ none then
    none
  else if req.method = .cancelRequest then
    some (rpc.cancel req.target)
  else if req.notif then
    some (rpc.enqueue req)
  else
    some { rpc with
      inFlight := Function.update rpc.inFlight req.id (some rpc.dispatches.length)
      registering := some req }

def goTo (msg : Nat) (pc : DispatchPC) : Handler :=
  { rpc with pc := Function.update rpc.pc msg pc }

/-- A step of a goroutine that is at a certain control point. -/
def advance (msg : Nat) (at_ : DispatchPC)
    (go : Dispatch → Option Handler) : Option Handler :=
  match rpc.dispatches[msg]? with
  | none => none
  | some dispatch => if rpc.pc msg = at_ then go dispatch else none

def step : Action → Option Handler
  | .receive req => rpc.receive req
  | .enqueue => rpc.registering.map rpc.enqueue
  | .leave msg =>
    -- `case <-ctx.Done()`
    rpc.advance msg .waiting fun _ =>
      if rpc.cancelled msg then some (rpc.goTo msg .removing) else none
  | .enter msg =>
    -- `case <-barrier`
    rpc.advance msg .waiting fun dispatch =>
      if rpc.closed dispatch.barrier then
        some { rpc.goTo msg .running with
          log := rpc.log ++ [.started msg] }
      else
        none
  | .complete msg =>
    rpc.advance msg .running fun _ =>
      some { rpc.goTo msg .removing with
        log := rpc.log ++ [.completed msg] }
  | .remove msg =>
    rpc.advance msg .removing fun dispatch =>
      some { rpc.goTo msg .closing with
        inFlight :=
          if dispatch.request.notif then
            rpc.inFlight
          else
            Function.update rpc.inFlight dispatch.request.id none }
  | .close msg =>
    rpc.advance msg .closing fun _ => some (rpc.goTo msg .finished)

end

/-! ## What a step can do -/

inductive Effect (rpc : Handler) : Action → Handler → Prop
  | admin {action : Action} {inFlight : Nat → Option Nat} {registering : Option Request}
      {cancelled : Nat → Bool} :
      Effect rpc action { rpc with
          inFlight := inFlight, registering := registering, cancelled := cancelled }
  | enqueue {action} {req : Request} : Effect rpc action (rpc.enqueue req)
  | leave {msg} {dispatch : Dispatch} (found : rpc.dispatches[msg]? = some dispatch)
      (waits : rpc.pc msg = .waiting) :
      Effect rpc (.leave msg) (rpc.goTo msg .removing)
  | enter {msg} {dispatch : Dispatch} (found : rpc.dispatches[msg]? = some dispatch)
      (waits : rpc.pc msg = .waiting)
      (opened : rpc.closed dispatch.barrier = true) :
      Effect rpc (.enter msg)
        { rpc.goTo msg .running with log := rpc.log ++ [.started msg] }
  | complete {msg} (runs : rpc.pc msg = .running) :
      Effect rpc (.complete msg)
        { rpc.goTo msg .removing with log := rpc.log ++ [.completed msg] }
  | unwind {action : Action} {msg : Nat} {pc : DispatchPC} {inFlight : Nat → Option Nat}
      (unwinds : rpc.pc msg = .removing ∧ pc = .closing ∨
        rpc.pc msg = .closing ∧ pc = .finished) :
      Effect rpc action { rpc.goTo msg pc with inFlight := inFlight }

variable {at_ : DispatchPC} {go : Dispatch → Option Handler} {req : Request}
  {dispatch : Dispatch} {channel : Option Nat} {msg : Nat}

theorem advance_eq_some {rpc next : Handler} (taken : rpc.advance msg at_ go = some next) :
    ∃ dispatch, rpc.dispatches[msg]? = some dispatch ∧ rpc.pc msg = at_ ∧
      go dispatch = some next := by
  unfold advance at taken
  split at taken
  · cases taken
  rename_i dispatch found
  split at taken
  next here => exact ⟨dispatch, found, here, taken⟩
  · cases taken

variable {rpc next : Handler} {action : Action}

theorem Effect.of_receive (taken : rpc.receive req = some next) :
    Effect rpc (.receive req) next := by
  unfold receive at taken
  split at taken
  · cases taken
  split at taken
  · cases taken
    unfold Handler.cancel
    split
    · exact .admin
    · exact .admin
  · split at taken
    · cases taken
      exact .enqueue
    · cases taken
      exact .admin

theorem Effect.of_step (taken : rpc.step action = some next) :
    Effect rpc action next := by
  cases action with
  | receive => exact of_receive taken
  | enqueue =>
    obtain ⟨req, _, rfl⟩ := Option.map_eq_some_iff.mp taken
    exact .enqueue
  | leave msg =>
    obtain ⟨dispatch, found, waits, left_⟩ := advance_eq_some taken
    split at left_
    · cases left_
      exact .leave found waits
    · cases left_
  | enter msg =>
    obtain ⟨dispatch, found, waits, entered⟩ := advance_eq_some taken
    split at entered
    next opened =>
      cases entered
      exact .enter found waits opened
    · cases entered
  | complete msg =>
    obtain ⟨dispatch, _, runs, completed⟩ := advance_eq_some taken
    cases completed
    exact .complete runs
  | remove msg =>
    obtain ⟨dispatch, _, removes, removed⟩ := advance_eq_some taken
    cases removed
    exact .unwind (Or.inl ⟨removes, rfl⟩)
  | close msg =>
    obtain ⟨dispatch, _, closes, closed⟩ := advance_eq_some taken
    cases closed
    exact .unwind (Or.inr ⟨closes, rfl⟩)

/-! ## The chain of barriers -/

def Lifecycle (dispatches : List Dispatch) (msg : Nat) : Prop :=
  ∃ dispatch, dispatches[msg]? = some dispatch ∧ dispatch.lifecycle = true

/-- The channel is that of the last lifecycle message before a certain one. -/
structure LastBefore (dispatches : List Dispatch) (msg : Nat) (channel : Option Nat) :
    Prop where
  lifecycle : ∀ last, channel = some last → last < msg ∧ Lifecycle dispatches last
  last : ∀ earlier, earlier < msg → Lifecycle dispatches earlier →
    ∃ last, channel = some last ∧ earlier ≤ last

variable {dispatches : List Dispatch}

theorem lifecycle_append (below : msg < dispatches.length) :
    Lifecycle (dispatches ++ [dispatch]) msg ↔ Lifecycle dispatches msg := by
  unfold Lifecycle
  rw [getElem?_append_left below]

theorem LastBefore.append (before : LastBefore dispatches msg channel)
    (bounded : msg ≤ dispatches.length) (dispatch : Dispatch) :
    LastBefore (dispatches ++ [dispatch]) msg channel := by
  constructor
  · intro last known
    obtain ⟨below, lifecycle⟩ := before.lifecycle last known
    exact ⟨below, (lifecycle_append (Nat.lt_of_lt_of_le below bounded)).mpr lifecycle⟩
  · intro earlier below lifecycle
    exact before.last earlier below
      ((lifecycle_append (Nat.lt_of_lt_of_le below bounded)).mp lifecycle)

/-- Every message waits for the lifecycle message before it, and the next one will. -/
structure Chained (rpc : Handler) : Prop where
  tail : LastBefore rpc.dispatches rpc.dispatches.length rpc.tail
  linked : ∀ msg dispatch, rpc.dispatches[msg]? = some dispatch →
    LastBefore rpc.dispatches msg dispatch.barrier

theorem chained_new : Chained .new where
  tail := by
    constructor
    · nofun
    · nofun
  linked := nofun

theorem Chained.enqueue (chained : Chained rpc) (req : Request) :
    Chained (rpc.enqueue req) := by
  have grown := chained.tail.append (Nat.le_refl _) ⟨req, rpc.tail⟩
  have newest : (rpc.dispatches ++ [⟨req, rpc.tail⟩])[rpc.dispatches.length]? =
      some (⟨req, rpc.tail⟩ : Dispatch) := by
    simp
  constructor
  · show LastBefore (rpc.dispatches ++ [_]) (rpc.dispatches ++ [_]).length _
    rw [length_append, length_singleton]
    by_cases lifecycle : isLifecycleMethod req.method = true
    · simp only [Handler.enqueue, if_pos lifecycle]
      constructor
      · intro last known
        cases known
        exact ⟨Nat.lt_succ_self _, _, newest, lifecycle⟩
      · intro earlier below _
        exact ⟨_, rfl, Nat.le_of_lt_succ below⟩
    · simp only [Handler.enqueue, if_neg lifecycle]
      constructor
      · intro last known
        obtain ⟨below, isLifecycle⟩ := grown.lifecycle last known
        exact ⟨Nat.lt_succ_of_lt below, isLifecycle⟩
      intro earlier below isLifecycle
      rcases Nat.lt_succ_iff_lt_or_eq.mp below with old | rfl
      · exact grown.last earlier old isLifecycle
      · obtain ⟨dispatch, found, lifecycleDispatch⟩ := isLifecycle
        cases newest.symm.trans found
        exact absurd lifecycleDispatch lifecycle
  · intro msg dispatch found
    by_cases old : msg < rpc.dispatches.length
    · have before : rpc.dispatches[msg]? = some dispatch := by
        rw [← getElem?_append_left old]
        exact found
      exact (chained.linked msg dispatch before).append (Nat.le_of_lt old) _
    obtain ⟨below, _⟩ := List.getElem?_eq_some_iff.mp found
    simp only [Handler.enqueue, length_append, length_singleton] at below
    have last : msg = rpc.dispatches.length := by omega
    subst last
    cases newest.symm.trans found
    exact grown

/-! ## The order of handlers -/

/-- The condition under which a lifecycle request may leave the chain: the channel it waits
for is closed. -/
def leavesInTurn (rpc : Handler) : Action → Bool
  | .leave msg =>
    match rpc.dispatches[msg]? with
    | none => true
    | some dispatch => !dispatch.lifecycle || rpc.closed dispatch.barrier
  | _ => true

/-- Every lifecycle message before a certain one has ended. -/
def Cleared (rpc : Handler) (msg : Nat) : Prop :=
  ∀ earlier, earlier < msg → Lifecycle rpc.dispatches earlier →
    rpc.pc earlier = .finished

/-- When a handler starts, the handlers of the lifecycle messages that arrived before and
ever run have completed. -/
def InOrder (rpc : Handler) : Prop :=
  ∀ earlier later msg, rpc.log = earlier ++ .started msg :: later →
    ∀ first, first < msg → Lifecycle rpc.dispatches first →
      .started first ∈ rpc.log → .completed first ∈ earlier

/-- A lifecycle message that has left the wait left it in its turn. -/
structure Barred (rpc : Handler) : Prop where
  chained : Chained rpc
  fresh : ∀ msg, rpc.dispatches.length ≤ msg → rpc.pc msg = .waiting
  passed : ∀ msg, Lifecycle rpc.dispatches msg →
    rpc.pc msg ≠ .waiting → rpc.Cleared msg

theorem barred_new : Barred .new where
  chained := chained_new
  fresh := fun _ _ => rfl
  passed := by
    intro msg lifecycle moved
    exact absurd rfl moved

theorem Cleared.goTo {target : Nat} {pc : DispatchPC} (cleared : rpc.Cleared msg)
    (moving : rpc.pc target ≠ .finished) :
    (rpc.goTo target pc).Cleared msg := by
  intro earlier below lifecycle
  have finished := cleared earlier below lifecycle
  have other : earlier ≠ target := by
    rintro rfl
    exact moving finished
  exact (Function.update_of_ne other pc rpc.pc).trans finished

theorem Cleared.enqueue (cleared : rpc.Cleared msg)
    (bounded : msg ≤ rpc.dispatches.length) (req : Request) :
    (rpc.enqueue req).Cleared msg := by
  intro earlier below lifecycle
  exact cleared earlier below ((lifecycle_append (Nat.lt_of_lt_of_le below bounded)).mp lifecycle)

theorem pc_goTo (rpc : Handler) (msg other : Nat) (pc : DispatchPC) :
    (rpc.goTo msg pc).pc other = if other = msg then pc else rpc.pc other :=
  Function.update_apply rpc.pc msg pc other

namespace Barred

variable {msg : Nat}

theorem cleared_of_closed (barred : Barred rpc) (found : rpc.dispatches[msg]? = some dispatch)
    (opened : rpc.closed dispatch.barrier = true) : rpc.Cleared msg := by
  intro earlier below lifecycle
  have linked := barred.chained.linked msg dispatch found
  obtain ⟨last, known, order⟩ := linked.last earlier below lifecycle
  rw [known] at opened
  have finished : rpc.pc last = .finished := of_decide_eq_true opened
  rcases Nat.lt_or_eq_of_le order with before | rfl
  · have isLifecycle := (linked.lifecycle last known).2
    exact barred.passed last isLifecycle (by simp [finished]) earlier before lifecycle
  · exact finished

theorem arrived_of_moved (barred : Barred rpc) (moved : rpc.pc msg ≠ .waiting) :
    msg < rpc.dispatches.length := by
  by_contra beyond
  exact moved (barred.fresh msg (Nat.le_of_not_lt beyond))

theorem enqueue (barred : Barred rpc) (req : Request) :
    Barred (rpc.enqueue req) := by
  refine ⟨barred.chained.enqueue req, ?_, ?_⟩
  · intro msg beyond
    apply barred.fresh
    simp only [Handler.enqueue, length_append, length_singleton] at beyond
    omega
  intro msg lifecycle moved
  have old := barred.arrived_of_moved moved
  have passed := barred.passed msg ((lifecycle_append old).mp lifecycle) moved
  exact passed.enqueue (Nat.le_of_lt old) req

variable {pc : DispatchPC}

theorem goTo (barred : Barred rpc) (known : msg < rpc.dispatches.length)
    (moving : rpc.pc msg ≠ .finished) (turn : Lifecycle rpc.dispatches msg → rpc.Cleared msg) :
    Barred (rpc.goTo msg pc) := by
  refine ⟨⟨barred.chained.tail, barred.chained.linked⟩, ?_, ?_⟩
  · intro other beyond
    have beyondOld : rpc.dispatches.length ≤ other := beyond
    rw [pc_goTo, if_neg (by omega)]
    exact barred.fresh other beyond
  intro other lifecycle moved
  by_cases same : other = msg
  · subst same
    exact (turn lifecycle).goTo moving
  · rw [pc_goTo, if_neg same] at moved
    exact (barred.passed other lifecycle moved).goTo moving

theorem goOn (barred : Barred rpc) (moved : rpc.pc msg ≠ .waiting)
    (moving : rpc.pc msg ≠ .finished) : Barred (rpc.goTo msg pc) :=
  barred.goTo (barred.arrived_of_moved moved) moving
    fun lifecycle => barred.passed msg lifecycle moved

theorem step (barred : Barred rpc) (inTurn : rpc.leavesInTurn action = true)
    (effect : Effect rpc action next) : Barred next := by
  cases effect with
  | admin =>
    exact ⟨⟨barred.chained.tail, barred.chained.linked⟩, barred.fresh, barred.passed⟩
  | @enqueue _ req => exact barred.enqueue req
  | leave found waits =>
    obtain ⟨known, _⟩ := List.getElem?_eq_some_iff.mp found
    refine barred.goTo known (by simp [waits]) ?_
    rintro ⟨other, foundOther, lifecycle⟩
    cases found.symm.trans foundOther
    simp only [leavesInTurn, found, lifecycle, Bool.not_true, Bool.false_or] at inTurn
    exact barred.cleared_of_closed found inTurn
  | @enter msg _ found waits opened =>
    obtain ⟨known, _⟩ := List.getElem?_eq_some_iff.mp found
    have moved : Barred (rpc.goTo msg .running) :=
      barred.goTo known (by simp [waits]) fun _ => barred.cleared_of_closed found opened
    exact ⟨⟨moved.chained.tail, moved.chained.linked⟩, moved.fresh, moved.passed⟩
  | @complete msg runs =>
    have moved : Barred (rpc.goTo msg .removing) :=
      barred.goOn (by simp [runs]) (by simp [runs])
    exact ⟨⟨moved.chained.tail, moved.chained.linked⟩, moved.fresh, moved.passed⟩
  | @unwind _ msg pc _ unwinds =>
    have moved : Barred (rpc.goTo msg pc) := by
      rcases unwinds with ⟨at_, _⟩ | ⟨at_, _⟩ <;>
        exact barred.goOn (by simp [at_]) (by simp [at_])
    exact ⟨⟨moved.chained.tail, moved.chained.linked⟩, moved.fresh, moved.passed⟩

end Barred

/-! ## The log -/

structure Logged (rpc : Handler) : Prop where
  cleared : ∀ msg, .started msg ∈ rpc.log → rpc.Cleared msg
  moved : ∀ msg, .started msg ∈ rpc.log → rpc.pc msg ≠ .waiting
  completed : ∀ msg, .started msg ∈ rpc.log →
    rpc.pc msg ≠ .running → .completed msg ∈ rpc.log
  inOrder : rpc.InOrder

theorem logged_new : Logged .new where
  cleared := nofun
  moved := nofun
  completed := nofun
  inOrder := by
    intro earlier later msg split
    simp [new] at split

namespace Logged

theorem enqueue (logged : Logged rpc) (barred : Barred rpc) (req : Request) :
    Logged (rpc.enqueue req) := by
  have known : ∀ msg, .started msg ∈ rpc.log →
      msg < rpc.dispatches.length :=
    fun msg started => barred.arrived_of_moved (logged.moved msg started)
  refine ⟨?_, logged.moved, logged.completed, ?_⟩
  · intro msg started
    exact (logged.cleared msg started).enqueue (Nat.le_of_lt (known msg started)) req
  intro earlier later msg split first below lifecycle started
  have arrived : msg < rpc.dispatches.length := by
    apply known
    rw [show rpc.log = _ from split]
    simp
  exact logged.inOrder earlier later msg split first below
    ((lifecycle_append (Nat.lt_trans below arrived)).mp lifecycle) started

variable {msg : Nat}

section

variable (logged : Logged rpc)
include logged

theorem goTo {pc : DispatchPC} (moving : rpc.pc msg ≠ .finished) (elsewhere : pc ≠ .waiting)
    (past : .started msg ∈ rpc.log → rpc.pc msg ≠ .running) :
    Logged (rpc.goTo msg pc) := by
  refine ⟨?_, ?_, ?_, logged.inOrder⟩
  · intro other started
    exact (logged.cleared other started).goTo moving
  · intro other started
    rw [pc_goTo]
    split
    · exact elsewhere
    · exact logged.moved other started
  · intro other started
    rw [pc_goTo]
    split
    next same =>
      subst same
      intro _
      exact logged.completed other started (past started)
    · exact logged.completed other started

theorem enter (cleared : rpc.Cleared msg) (waits : rpc.pc msg = .waiting) :
    Logged { rpc.goTo msg .running with
      log := rpc.log ++ [.started msg] } := by
  have moving : rpc.pc msg ≠ .finished := by simp [waits]
  have older : ∀ {other}, .started other ∈ rpc.log ++ [.started msg] →
      other ≠ msg → .started other ∈ rpc.log := by
    intro other member apart
    rcases mem_append.mp member with old | new
    · exact old
    · cases mem_singleton.mp new
      exact absurd rfl apart
  refine ⟨?_, ?_, ?_, ?_⟩
  · intro other started
    by_cases same : other = msg
    · subst same
      exact cleared.goTo moving
    · exact (logged.cleared other (older started same)).goTo moving
  · intro other started
    rw [pc_goTo]
    split
    · simp
    next apart => exact logged.moved other (older started apart)
  · intro other started
    rw [pc_goTo]
    split
    · intro runs
      exact absurd rfl runs
    next apart =>
      intro stopped
      exact mem_append_left _ (logged.completed other (older started apart) stopped)
  · intro earlier later other split first below lifecycle started
    rcases append_singleton_split split with ⟨_, rfl, same⟩ | ⟨rest, _, before⟩
    · -- the handler that starts now: every lifecycle message before it has ended
      cases same
      have startedBefore := older started (Nat.ne_of_lt below)
      have finished := cleared first below lifecycle
      exact logged.completed first startedBefore (by simp [finished])
    · -- a handler that started earlier: the message that starts now had ended then
      have startedOther : .started other ∈ rpc.log := by
        rw [before]
        simp
      have apart : first ≠ msg := by
        rintro rfl
        exact moving (logged.cleared other startedOther first below lifecycle)
      exact logged.inOrder earlier rest other before first below lifecycle (older started apart)

theorem complete (runs : rpc.pc msg = .running) :
    Logged { rpc.goTo msg .removing with
      log := rpc.log ++ [.completed msg] } := by
  have moving : rpc.pc msg ≠ .finished := by simp [runs]
  have older : ∀ {other}, .started other ∈ rpc.log ++ [.completed msg] →
      .started other ∈ rpc.log := by
    intro other member
    rcases mem_append.mp member with old | new
    · exact old
    · cases mem_singleton.mp new
  refine ⟨?_, ?_, ?_, ?_⟩
  · intro other started
    exact (logged.cleared other (older started)).goTo moving
  · intro other started
    rw [pc_goTo]
    split
    · simp
    · exact logged.moved other (older started)
  · intro other started
    rw [pc_goTo]
    split
    next same =>
      intro _
      rw [same]
      exact mem_append_right _ mem_cons_self
    · intro stopped
      exact mem_append_left _ (logged.completed other (older started) stopped)
  · intro earlier later other split first below lifecycle started
    rcases append_singleton_split split with ⟨_, _, same⟩ | ⟨rest, _, before⟩
    · cases same
    · exact logged.inOrder earlier rest other before first below lifecycle (older started)

theorem step (barred : Barred rpc) (effect : Effect rpc action next) : Logged next := by
  cases effect with
  | admin => exact ⟨logged.cleared, logged.moved, logged.completed, logged.inOrder⟩
  | @enqueue _ req => exact logged.enqueue barred req
  | @leave msg _ _ waits =>
    refine logged.goTo (by simp [waits]) (by simp) ?_
    intro started
    exact absurd waits (logged.moved msg started)
  | enter found waits opened =>
    exact logged.enter (barred.cleared_of_closed found opened) waits
  | complete runs => exact logged.complete runs
  | @unwind _ msg pc _ unwinds =>
    have moved : Logged (rpc.goTo msg pc) := by
      rcases unwinds with ⟨at_, rfl⟩ | ⟨at_, rfl⟩ <;>
        exact logged.goTo (by simp [at_]) (by simp) fun _ => by simp [at_]
    exact ⟨moved.cleared, moved.moved, moved.completed, moved.inOrder⟩

end

end Logged

/-- As long as a lifecycle request that is cancelled leaves the chain in its turn, a handler
starts only when the handlers of the lifecycle messages before it have completed, however
the goroutines are scheduled. -/
theorem lifecycle_in_order (reached : Run Handler.step (fun rpc action =>
      rpc.leavesInTurn action = true) .new rpc) : rpc.InOrder := by
  have both : Barred rpc ∧ Logged rpc := by
    apply reached.invariant
    · exact ⟨barred_new, logged_new⟩
    · intro state action after held inTurn taken
      have effect := Effect.of_step taken
      exact ⟨held.1.step inTurn effect, held.2.step held.1 effect⟩
  exact both.2.inOrder

/-! ## Two runs -/

def opening : Request :=
  ⟨.didOpen, true, 0, none⟩

def shuttingDown : Request :=
  ⟨.shutdown, false, 1, none⟩

def cancelling : Request :=
  ⟨.cancelRequest, true, 0, some 1⟩

def hovering : Request :=
  ⟨.other "textDocument/hover", false, 2, none⟩

/-- A document is opened, the shutdown is cancelled, and a hover waits for both. -/
def waitingSchedule : List Action :=
  [.receive opening, .enter 0, .receive shuttingDown, .enqueue, .receive hovering, .enqueue,
    .receive cancelling, .complete 0, .remove 0, .close 0, .leave 1, .remove 1, .close 1,
    .enter 2, .complete 2]

theorem lifecycle_in_order_waiting : ∃ rpc, Run Handler.step (fun rpc action =>
        rpc.leavesInTurn action = true) .new rpc ∧
      rpc.log = [.started 0, .completed 0, .started 2, .completed 2] ∧
      rpc.InOrder := by
  have executed : (execute (guarded Handler.step fun rpc action =>
      rpc.leavesInTurn action = true) .new waitingSchedule).map Handler.log =
        some [.started 0, .completed 0, .started 2, .completed 2] := by
    rfl
  obtain ⟨rpc, reached, log⟩ := Option.map_eq_some_iff.mp executed
  have run := run_of_guarded (reaches_of_execute reached)
  exact ⟨rpc, run, log, lifecycle_in_order run⟩

/-- The cancelled shutdown closes its channel while the document is still being opened. -/
def overtakingSchedule : List Action :=
  [.receive opening, .enter 0, .receive shuttingDown, .enqueue, .receive hovering, .enqueue,
    .receive cancelling, .leave 1, .remove 1, .close 1, .enter 2, .complete 0]

theorem lifecycle_overtaken :
    ∃ rpc, Reaches Handler.step .new rpc ∧
      rpc.log = [.started 0, .started 2, .completed 0] ∧ ¬ rpc.InOrder := by
  have executed : (execute Handler.step .new overtakingSchedule).map (fun rpc =>
      (rpc.log, rpc.dispatches[0]?)) =
        some ([.started 0] ++ .started 2 :: [.completed 0], some ⟨opening, none⟩) := by
    rfl
  obtain ⟨rpc, reached, facts⟩ := Option.map_eq_some_iff.mp executed
  obtain ⟨log, found⟩ := Prod.mk.inj facts
  refine ⟨rpc, reaches_of_execute reached, log, ?_⟩
  intro inOrder
  have completed := inOrder _ _ 2 log 0 (by decide) ⟨_, found, rfl⟩ (by simp [log])
  simp at completed

end Handler

end Ferretd.Lsp
