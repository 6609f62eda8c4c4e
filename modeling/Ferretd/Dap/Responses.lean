import Ferretd.Dap.Launch
import Ferretd.Dap.SetBreakpoints
import Mathlib.Algebra.Ring.Int.Defs

/-!
# Responses

Every request but `launch` is answered once, by its own handler.  A launch request is
answered by its handler when it fails, and otherwise by the first request that decides its
fate.
-/

namespace Ferretd.Dap

open Library Library.Broadcast List

/-- The message answers the request with this number. -/
def Message.answers (req : Nat) : Message → Bool
  | .response number _ => number == req
  | _ => false

namespace Machine

variable {startFrame levels : Int64} {total : Nat} {host : Host} {m next : Machine}

def responses (m : Machine) (req : Nat) : Nat :=
  m.written.countP (Message.answers req)

/-- A success response to a launch request follows the response to the request whose
start was accepted. -/
def Follows (m : Machine) (req : Nat) (body : Body) : Prop :=
  ∃ starting earlier later, m.startedBy = some starting ∧
    m.requests[starting]? = some .configurationDone ∧
    m.written = earlier ++ .response starting (.ok .empty) ::
      .response req (.ok body) :: later

structure Accounted (m : Machine) : Prop where
  current : ∀ req, m.request.owing = some req →
    req + 1 = m.requests.length
  handled : ∀ req arguments, m.request = .handling req arguments →
    m.requests[req]? = some arguments
  inside : ∀ req, m.request.owing = some req →
    (∀ arguments, m.request ≠ .handling req arguments) →
      m.requests[req]? ≠ some .launch
  pending : ∀ req, m.server.pendingLaunch = some req →
    m.requests[req]? = some .launch ∧ m.responses req = 0 ∧
      m.request.owing ≠ some req
  answered : ∀ req, req < m.requests.length →
    m.requests[req]? ≠ some .launch →
      m.responses req = if m.request.owing = some req then 0 else 1
  launches : ∀ req, m.requests[req]? = some .launch →
    m.responses req ≤ 1 ∧
      (m.request.owing = some req → m.responses req = 0)
  later : ∀ req, m.requests.length ≤ req → m.responses req = 0
  success : ∀ req body, m.requests[req]? = some .launch →
    .response req (.ok body) ∈ m.written →
      m.server.configured = true ∧ m.Follows req body

theorem accounted_new : Accounted .new where
  current := nofun
  handled := nofun
  inside := nofun
  pending := nofun
  answered := nofun
  launches := nofun
  later := fun _ _ => rfl
  success := nofun

namespace Accounted

variable {req : Nat}

theorem not_launch (accounted : Accounted m) (owes : m.request.owing = some req)
    (other : m.request ≠ .handling req .launch) :
    m.requests[req]? ≠ some .launch := by
  by_cases handling : ∃ arguments, m.request = .handling req arguments
  · obtain ⟨arguments, at_⟩ := handling
    rw [accounted.handled req arguments at_]
    intro same
    cases same
    exact other at_
  · apply accounted.inside req owes
    intro arguments at_
    exact handling ⟨arguments, at_⟩

variable {added : List Message}

section

variable (accounted : Accounted m)
include accounted

theorem success_extend (requests : next.requests = m.requests)
    (startedBy : next.startedBy = m.startedBy)
    (configured : m.server.configured = true → next.server.configured = true)
    (written : next.written = m.written ++ added)
    (silent : ∀ req body, m.requests[req]? = some .launch →
      .response req (.ok body) ∉ added) :
    ∀ req body, next.requests[req]? = some .launch →
      .response req (.ok body) ∈ next.written →
        next.server.configured = true ∧ next.Follows req body := by
  intro req body launched member
  rw [requests] at launched
  rw [written] at member
  rcases mem_append.mp member with old | new
  · obtain ⟨isConfigured, starting, earlier, later, started, configuring, split⟩ :=
      accounted.success req body launched old
    refine ⟨configured isConfigured, starting, earlier, later ++ added, ?_, ?_, ?_⟩
    · rw [startedBy]
      exact started
    · rw [requests]
      exact configuring
    · rw [written, split]
      simp
  · exact absurd new (silent req body launched)

theorem stay (owes : m.request.owing = some req) (other : m.request ≠ .handling req .launch)
    (owesNext : next.request.owing = some req)
    (inside : ∀ number arguments, next.request ≠ .handling number arguments)
    (requests : next.requests = m.requests) (written : next.written = m.written)
    (startedBy : next.startedBy = m.startedBy)
    (pending : next.server.pendingLaunch = m.server.pendingLaunch)
    (configured : next.server.configured = m.server.configured) :
    Accounted next := by
  have counts : ∀ number, next.responses number = m.responses number := by
    intro number
    unfold responses
    rw [written]
  have owing : next.request.owing = m.request.owing := owesNext.trans owes.symm
  refine ⟨?_, ?_, ?_, ?_, ?_, ?_, ?_, ?_⟩
  · rw [owing, requests]
    exact accounted.current
  · intro number arguments at_
    exact absurd at_ (inside number arguments)
  · intro number owesNumber _
    cases owesNext.symm.trans owesNumber
    rw [requests]
    exact accounted.not_launch owes other
  · intro number isPending
    rw [pending] at isPending
    rw [requests, counts, owing]
    exact accounted.pending number isPending
  · intro number below notLaunch
    rw [requests] at below notLaunch
    rw [counts, owing]
    exact accounted.answered number below notLaunch
  · intro number launched
    rw [requests] at launched
    rw [counts, owing]
    exact accounted.launches number launched
  · intro number beyond
    rw [requests] at beyond
    rw [counts]
    exact accounted.later number beyond
  · have nothing : next.written = m.written ++ [] := by
      rw [written, append_nil]
    refine accounted.success_extend requests startedBy ?_ nothing ?_
    · rw [configured]
      exact id
    · nofun

theorem rest (req : next.request = m.request ∨
      m.request.owing = none ∧ next.request.owing = none)
    (requests : next.requests = m.requests) (written : next.written = m.written ++ added)
    (silent : ∀ msg ∈ added, ∀ number, msg.answers number = false)
    (startedBy : next.startedBy = m.startedBy) (pending : next.server.pendingLaunch = none ∨
      next.server.pendingLaunch = m.server.pendingLaunch)
    (configured : m.server.configured = true → next.server.configured = true) :
    Accounted next := by
  have counts : ∀ number, next.responses number = m.responses number := by
    intro number
    have none_ : added.countP (Message.answers number) = 0 := by
      apply countP_eq_zero.mpr
      intro msg member answers
      rw [silent msg member number] at answers
      cases answers
    unfold responses
    rw [written, countP_append, none_, Nat.add_zero]
  have owing : next.request.owing = m.request.owing := by
    rcases req with same | ⟨before, after⟩
    · rw [same]
    · rw [before, after]
  refine ⟨?_, ?_, ?_, ?_, ?_, ?_, ?_, ?_⟩
  · rw [owing, requests]
    exact accounted.current
  · intro number arguments at_
    rcases req with same | ⟨_, after⟩
    · rw [requests]
      exact accounted.handled number arguments (same.symm.trans at_)
    · rw [at_] at after
      cases after
  · rcases req with same | ⟨_, after⟩
    · rw [same, requests]
      exact accounted.inside
    · intro number owes
      rw [after] at owes
      cases owes
  · intro number isPending
    rw [requests, counts, owing]
    rcases pending with none_ | same
    · rw [none_] at isPending
      cases isPending
    · exact accounted.pending number (same.symm.trans isPending)
  · intro number below notLaunch
    rw [requests] at below notLaunch
    rw [counts, owing]
    exact accounted.answered number below notLaunch
  · intro number launched
    rw [requests] at launched
    rw [counts, owing]
    exact accounted.launches number launched
  · intro number beyond
    rw [requests] at beyond
    rw [counts]
    exact accounted.later number beyond
  · refine accounted.success_extend requests startedBy configured written ?_
    intro number body _ member
    have answers := silent _ member number
    simp [Message.answers] at answers

end

theorem countP_response (req number : Nat) (result : Except GoError Body) :
    [Message.response req result].countP (Message.answers number) =
      if number = req then 1 else 0 := by
  rw [countP_singleton]
  by_cases same : number = req
  · simp [Message.answers, same]
  · have different : req ≠ number := fun equal => same equal.symm
    simp [Message.answers, same, different]

theorem countP_launchResponses (server : Server) (result : Except GoError Body) (number : Nat) :
    (launchResponses server result).countP (Message.answers number) =
      if server.pendingLaunch = some number then 1 else 0 := by
  unfold launchResponses
  split
  next none_ => simp [none_]
  next pending some_ =>
    rw [some_, countP_singleton]
    simp [Message.answers]

theorem respond (accounted : Accounted m) (owes : m.request.owing = some req)
    (done : next.request.owing = none) (requests : next.requests = m.requests)
    (counts : ∀ number, next.responses number = m.responses number +
      (if number = req then 1 else 0) +
      (if next.server.pendingLaunch = none ∧ m.server.pendingLaunch = some number
        then 1 else 0)) (pending : next.server.pendingLaunch = none ∨
      next.server.pendingLaunch = m.server.pendingLaunch)
    (success : ∀ req body, next.requests[req]? = some .launch →
      .response req (.ok body) ∈ next.written →
        next.server.configured = true ∧ next.Follows req body) : Accounted next := by
  have unowing : ∀ number, next.request.owing ≠ some number := by
    intro number owesNumber
    rw [done] at owesNumber
    cases owesNumber
  -- a pending launch is another request than the one that is answered
  have apart : ∀ number, m.server.pendingLaunch = some number → number ≠ req := by
    rintro number isPending rfl
    exact (accounted.pending number isPending).2.2 owes
  refine ⟨?_, ?_, ?_, ?_, ?_, ?_, ?_, success⟩
  · intro number owesNumber
    exact absurd owesNumber (unowing number)
  · intro number arguments at_
    have owesNumber : next.request.owing = some number := by
      rw [at_]
      rfl
    exact absurd owesNumber (unowing number)
  · intro number owesNumber
    exact absurd owesNumber (unowing number)
  · intro number isPending
    rcases pending with none_ | same
    · rw [none_] at isPending
      cases isPending
    have before := same.symm.trans isPending
    obtain ⟨launched, unanswered, _⟩ := accounted.pending number before
    refine ⟨?_, ?_, unowing number⟩
    · rw [requests]
      exact launched
    rw [counts, unanswered, if_neg (apart number before), if_neg]
    rintro ⟨none_, _⟩
    rw [none_] at isPending
    cases isPending
  · intro number below notLaunch
    rw [requests] at below notLaunch
    have answered := accounted.answered number below notLaunch
    rw [counts, answered, if_neg (unowing number)]
    have unpending : ¬ (next.server.pendingLaunch = none ∧
        m.server.pendingLaunch = some number) := by
      rintro ⟨_, isPending⟩
      exact notLaunch (accounted.pending number isPending).1
    rw [if_neg unpending, owes]
    by_cases same : number = req
    · rw [same]
      simp
    have different : some req ≠ some number := by
      intro equal
      cases equal
      exact same rfl
    rw [if_neg different, if_neg same]
  · intro number launched
    rw [requests] at launched
    refine ⟨?_, fun owesNumber => absurd owesNumber (unowing number)⟩
    obtain ⟨once, unanswered⟩ := accounted.launches number launched
    rw [counts]
    by_cases same : number = req
    · subst same
      rw [unanswered owes, if_pos rfl, if_neg]
      rintro ⟨_, isPending⟩
      exact apart number isPending rfl
    rw [if_neg same]
    by_cases isPending : next.server.pendingLaunch = none ∧
        m.server.pendingLaunch = some number
    · rw [if_pos isPending, (accounted.pending number isPending.2).2.1]
    · rw [if_neg isPending]
      exact once
  · intro number beyond
    rw [requests] at beyond
    have last := accounted.current req owes
    rw [counts, accounted.later number beyond, if_neg (by omega), if_neg]
    rintro ⟨_, isPending⟩
    have launched := (accounted.pending number isPending).1
    obtain ⟨below, _⟩ := List.getElem?_eq_some_iff.mp launched
    omega

variable {result : Except GoError Body}

section

variable {err : GoError} {arguments : Request} (accounted : Accounted m)
include accounted

theorem reply (owes : m.request.owing = some req)
    (done : next.request.owing = none) (requests : next.requests = m.requests)
    (written : next.written = m.written ++ [.response req result])
    (startedBy : next.startedBy = m.startedBy)
    (pending : next.server.pendingLaunch = m.server.pendingLaunch)
    (configured : m.server.configured = true → next.server.configured = true)
    (launchFails : m.request = .handling req .launch →
      ∃ err, result = .error err) : Accounted next := by
  refine accounted.respond owes done requests ?_ (.inr pending) ?_
  · intro number
    have alone : ¬ (next.server.pendingLaunch = none ∧
        m.server.pendingLaunch = some number) := by
      rintro ⟨none_, isPending⟩
      rw [← pending, none_] at isPending
      cases isPending
    rw [if_neg alone, Nat.add_zero]
    unfold responses
    rw [written, countP_append, countP_response]
  · refine accounted.success_extend requests startedBy configured written ?_
    intro number body launched member
    cases mem_singleton.mp member
    refine accounted.not_launch owes ?_ launched
    intro at_
    obtain ⟨err, failed⟩ := launchFails at_
    cases failed

theorem replyFailing (owes : m.request.owing = some req)
    (notLaunch : m.request ≠ .handling req .launch)
    (done : next.request.owing = none) (requests : next.requests = m.requests)
    (written : next.written = m.written ++ added) (holds : added.Perm
      (launchResponses m.server (.error err) ++ [.response req result]))
    (startedBy : next.startedBy = m.startedBy) (pending : next.server.pendingLaunch = none)
    (configured : m.server.configured = true → next.server.configured = true) :
    Accounted next := by
  refine accounted.respond owes done requests ?_ (.inl pending) ?_
  · intro number
    unfold responses
    rw [written, countP_append, holds.countP_eq, countP_append,
      countP_launchResponses, countP_response]
    simp only [pending, true_and]
    omega
  · refine accounted.success_extend requests startedBy configured written ?_
    intro number body launched member
    have inside := holds.mem_iff.mp member
    rcases mem_append.mp inside with first | last
    · unfold launchResponses at first
      split at first
      · cases first
      · cases mem_singleton.mp first
    · cases mem_singleton.mp last
      exact accounted.not_launch owes notLaunch launched

theorem replyStarting (at_ : m.request = .handling req .configurationDone)
    (unconfigured : m.server.configured = false) (done : next.request.owing = none)
    (requests : next.requests = m.requests)
    (written : next.written = m.written ++ [.response req (.ok .empty)] ++
      launchResponses m.server (.ok .empty)) (startedBy : next.startedBy = some req)
    (pending : next.server.pendingLaunch = none) (configured : next.server.configured = true) :
    Accounted next := by
  have owes : m.request.owing = some req := by
    rw [at_]
    rfl
  refine accounted.respond owes done requests ?_ (.inl pending) ?_
  · intro number
    unfold responses
    rw [written, countP_append, countP_append, countP_launchResponses, countP_response]
    simp [pending]
  · intro number body launched member
    rw [requests] at launched
    rw [written] at member
    -- no launch had succeeded before
    rcases mem_append.mp member with earlier | answer
    · exfalso
      rcases mem_append.mp earlier with old | own
      · have before := (accounted.success number body launched old).1
        rw [unconfigured] at before
        cases before
      · cases mem_singleton.mp own
        rw [accounted.handled req _ at_] at launched
        cases launched
    · unfold launchResponses at answer written
      split at answer
      · cases answer
      rename_i waiting isPending
      cases mem_singleton.mp answer
      refine ⟨configured, req, m.written, [], startedBy, ?_, ?_⟩
      · rw [requests]
        exact accounted.handled req _ at_
      · rw [isPending] at written
        rw [written]
        simp

theorem read (idle : m.request = .idle) (requests : next.requests = m.requests ++ [arguments])
    (req : next.request = .handling m.requests.length arguments)
    (written : next.written = m.written) (startedBy : next.startedBy = m.startedBy)
    (server : next.server = m.server) : Accounted next := by
  have counts : ∀ number, next.responses number = m.responses number := by
    intro number
    unfold responses
    rw [written]
  have owing : next.request.owing = some m.requests.length := by
    rw [req]
    rfl
  have older : ∀ {number : Nat}, number < m.requests.length →
      next.requests[number]? = m.requests[number]? := by
    intro number below
    rw [requests, getElem?_append_left below]
  have newest : m.responses m.requests.length = 0 :=
    accounted.later _ (Nat.le_refl _)
  refine ⟨?_, ?_, ?_, ?_, ?_, ?_, ?_, ?_⟩
  · intro number owes
    cases owing.symm.trans owes
    rw [requests, length_append, length_singleton]
  · intro number other at_
    cases req.symm.trans at_
    simp [requests]
  · intro number owes inside
    cases owing.symm.trans owes
    exact absurd req (inside arguments)
  · intro number isPending
    rw [server] at isPending
    obtain ⟨launched, unanswered, _⟩ := accounted.pending number isPending
    obtain ⟨below, _⟩ := List.getElem?_eq_some_iff.mp launched
    refine ⟨(older below).trans launched, (counts number).trans unanswered, ?_⟩
    intro owes
    cases owing.symm.trans owes
    exact Nat.lt_irrefl _ below
  · intro number below notLaunch
    rw [counts, owing]
    by_cases newer : number = m.requests.length
    · rw [newer, if_pos rfl]
      exact newest
    have belowOld : number < m.requests.length := by
      rw [requests, length_append, length_singleton] at below
      omega
    rw [older belowOld] at notLaunch
    rw [accounted.answered number belowOld notLaunch, idle]
    have different : some m.requests.length ≠ some number := by
      intro equal
      cases equal
      exact newer rfl
    rw [if_neg different]
    rfl
  · intro number launched
    rw [counts, owing]
    by_cases newer : number = m.requests.length
    · rw [newer, newest]
      exact ⟨Nat.zero_le 1, fun _ => rfl⟩
    obtain ⟨below, _⟩ := List.getElem?_eq_some_iff.mp launched
    rw [requests, length_append, length_singleton] at below
    rw [older (by omega)] at launched
    refine ⟨(accounted.launches number launched).1, ?_⟩
    intro owes
    cases owes
    exact absurd rfl newer
  · intro number beyond
    rw [requests, length_append, length_singleton] at beyond
    rw [counts]
    exact accounted.later number (by omega)
  · intro number body launched member
    rw [written] at member
    have positive : 0 < m.responses number :=
      countP_pos_iff.mpr ⟨_, member, by simp [Message.answers]⟩
    have below : number < m.requests.length := by
      by_contra beyond
      rw [accounted.later number (Nat.le_of_not_lt beyond)] at positive
      exact Nat.lt_irrefl 0 positive
    rw [older below] at launched
    obtain ⟨configured, starting, earlier, later, started, configuring, split⟩ :=
      accounted.success number body launched member
    obtain ⟨belowStarting, _⟩ := List.getElem?_eq_some_iff.mp configuring
    refine ⟨?_, starting, earlier, later, startedBy.trans started,
      (older belowStarting).trans configuring, written.trans split⟩
    rw [server]
    exact configured

theorem launch (at_ : m.request = .handling req .launch) (done : next.request.owing = none)
    (requests : next.requests = m.requests) (written : next.written = m.written)
    (startedBy : next.startedBy = m.startedBy) (pending : next.server.pendingLaunch = some req)
    (configured : next.server.configured = m.server.configured) :
    Accounted next := by
  have counts : ∀ number, next.responses number = m.responses number := by
    intro number
    unfold responses
    rw [written]
  have owes : m.request.owing = some req := by
    rw [at_]
    rfl
  have launched := accounted.handled req _ at_
  have unowing : ∀ number, next.request.owing ≠ some number := by
    intro number owesNumber
    rw [done] at owesNumber
    cases owesNumber
  refine ⟨?_, ?_, ?_, ?_, ?_, ?_, ?_, ?_⟩
  · intro number owesNumber
    exact absurd owesNumber (unowing number)
  · intro number arguments handling
    have owesNumber : next.request.owing = some number := by
      rw [handling]
      rfl
    exact absurd owesNumber (unowing number)
  · intro number owesNumber
    exact absurd owesNumber (unowing number)
  · intro number isPending
    cases pending.symm.trans isPending
    refine ⟨?_, ?_, unowing req⟩
    · rw [requests]
      exact launched
    · rw [counts]
      exact (accounted.launches req launched).2 owes
  · intro number below notLaunch
    rw [requests] at below notLaunch
    have answered := accounted.answered number below notLaunch
    have different : m.request.owing ≠ some number := by
      intro owesNumber
      cases owes.symm.trans owesNumber
      exact notLaunch launched
    rw [counts, answered, if_neg different, if_neg (unowing number)]
  · intro number isLaunch
    rw [requests] at isLaunch
    rw [counts]
    exact ⟨(accounted.launches number isLaunch).1,
      fun owesNumber => absurd owesNumber (unowing number)⟩
  · intro number beyond
    rw [requests] at beyond
    rw [counts]
    exact accounted.later number beyond
  · have nothing : next.written = m.written ++ [] := by
      rw [written, append_nil]
    refine accounted.success_extend requests startedBy ?_ nothing ?_
    · rw [configured]
      exact id
    · nofun

end

end Accounted

/-- A stack trace whose frames are read, and whose start is a number of frames, does not
overflow: the frame behind the last one it asks for has a machine integer for its number. -/
def pagesInside (m : Machine) : Action → Bool
  | .handle answers =>
    match m.request, m.inspect answers.ctxErr answers.frames with
    | .handling _ (.stackTrace thread startFrame levels), .ok frames =>
      decide (m.server.configuredDebug true = true ∧ thread = threadID →
        0 ≤ startFrame.toInt ∧ startFrame.toInt ≤ frames.length →
          levels.toInt ≤ 0 ∨ startFrame.toInt + levels.toInt < 2 ^ 63)
    | _, _ => true
  | _ => true

/-- The debugger answers a replacement with at most one breakpoint for each request. -/
def replacesInside (host : Host) (m : Machine) : Action → Bool
  | .handle answers =>
    match m.request with
    | .handling _ (.setBreakpoints arguments) =>
      match m.server.planBreakpoints host arguments answers.source, answers.replaced with
      | .replace _ _ requests, .ok results =>
        decide (results.length ≤ requests.length)
      | _, _ => true
    | _ => true
  | _ => true

/-- The end of the frames of a stack trace, computed without overflow. -/
def pageEnd (startFrame levels : Int) (total : Nat) : Int :=
  if 0 < levels then min (startFrame + levels) total else total

theorem stackTraceEnd_of_inside
    (inside : levels.toInt ≤ 0 ∨ startFrame.toInt + levels.toInt < 2 ^ 63)
    (started : 0 ≤ startFrame.toInt) :
    stackTraceEnd startFrame levels total = pageEnd startFrame.toInt levels.toInt total := by
  have positive : 0 < levels ↔ 0 < levels.toInt := Int64.lt_iff_toInt_lt
  by_cases asked : 0 < levels.toInt
  · have sum : (startFrame + levels).toInt = startFrame.toInt + levels.toInt := by
      rw [Int64.toInt_add]
      apply Int.bmod_eq_of_le <;> omega
    simp only [stackTraceEnd, pageEnd, positive, asked, sum, true_and, if_true]
    split <;> omega
  · simp [stackTraceEnd, pageEnd, positive, asked]

theorem not_overflow {frames : List Debug.Frame} {panic : Panic}
    (inside : levels.toInt ≤ 0 ∨ startFrame.toInt + levels.toInt < 2 ^ 63)
    (started : 0 ≤ startFrame.toInt ∧ startFrame.toInt ≤ frames.length) :
    pageFrames startFrame levels frames ≠ .error panic := by
  intro failed
  have ends : startFrame.toInt ≤ pageEnd startFrame.toInt levels.toInt frames.length := by
    unfold pageEnd
    split <;> omega
  rw [← stackTraceEnd_of_inside inside started.1] at ends
  simp only [pageFrames, if_neg (Int.not_lt.mpr ends)] at failed
  cases failed

namespace Accounted

theorem request {answers : Answers} (accounted : Accounted m)
    (attached : Attached m) (armed : Armed m) (inside : m.pagesInside (.handle answers) = true)
    (replaces : m.replacesInside host (.handle answers) = true)
    (effect : RequestEffect host answers m next) : Accounted next := by
  have owing : ∀ {number : Nat} {arguments : Request},
      m.request = .handling number arguments →
      m.request.owing = some number := by
    intro number arguments at_
    rw [at_]
    rfl
  have notLaunch : ∀ {number : Nat} {arguments : Request},
      m.request = .handling number arguments → arguments ≠ .launch →
      m.request ≠ .handling number .launch := by
    intro number arguments at_ other launching
    cases at_.symm.trans launching
    exact other rfl
  cases effect with
  | answer owes launchFails same =>
    exact accounted.reply owes rfl rfl rfl rfl same.pendingLaunch
      (fun configured => same.configured.trans configured) launchFails
  | replace at_ _ _ _ committed =>
    obtain ⟨_, rfl⟩ := Server.commitBreakpoints_ok committed
    refine accounted.reply (owing at_) rfl rfl rfl rfl rfl id ?_
    intro launching
    cases at_.symm.trans launching
  | launch at_ => exact accounted.launch at_ rfl rfl rfl rfl rfl rfl
  | announce at_ =>
    refine accounted.rest (.inr ⟨by rw [at_]; rfl, rfl⟩) rfl rfl ?_ rfl (.inr rfl) id
    intro msg member number
    cases mem_singleton.mp member
    rfl
  | arm at_ =>
    exact accounted.rest (.inr ⟨by rw [at_]; rfl, rfl⟩) rfl (append_nil _).symm
      (by simp) rfl (.inr rfl) id
  | startFails at_ =>
    exact accounted.replyFailing (owing at_) (notLaunch at_ (by simp)) rfl rfl
      (append_assoc _ _ _) perm_append_comm rfl rfl id
  | start at_ _ _ _ unconfigured _ _ isArmed =>
    unfold Server.startAccepted at isArmed
    split at isArmed
    · cases isArmed
    · cases isArmed
      exact accounted.replyStarting at_ unconfigured rfl rfl rfl rfl rfl rfl
  | startUnarmed at_ _ known _ _ accepted _ unarmed =>
    exact absurd unarmed (armed.armed_of_start attached at_ known accepted)
  | @misanswered _ _ _ _ requests results _ at_ planned answered failed =>
    exfalso
    simp only [replacesInside, at_, planned, answered, decide_eq_true_eq] at replaces
    obtain ⟨after, replaced⟩ := (@BreakpointIDs.assignAll_ok_iff
      m.server.owned.program requests results m.server.breakpoints.retire).mpr
        replaces
    unfold BreakpointIDs.replace at failed
    rw [replaced] at failed
    cases failed
  | overflow at_ passed read started failed =>
    simp only [pagesInside, at_, read, decide_eq_true_eq] at inside
    exact absurd failed (not_overflow (inside passed started) started)
  | requestResume at_ | readScope at_ =>
    exact accounted.stay (owing at_) (notLaunch at_ (by simp)) rfl (by simp) rfl rfl rfl rfl
      rfl
  | resumeRefused at_ | resume at_ =>
    refine accounted.reply (by rw [at_]; rfl) rfl rfl rfl rfl rfl id ?_
    intro launching
    cases at_.symm.trans launching
  | terminate at_ _ _ _ server_ =>
    rcases server_ with rfl | rfl
    · exact accounted.replyFailing (owing at_) (notLaunch at_ (by simp)) rfl rfl
        (append_assoc _ _ _) (List.Perm.refl _) rfl rfl id
    · exact accounted.replyFailing (owing at_) (notLaunch at_ (by simp)) rfl rfl
        (append_assoc _ _ _) (List.Perm.refl _) rfl rfl id
  | disconnect at_ =>
    exact accounted.replyFailing (owing at_) (notLaunch at_ (by simp)) rfl rfl
      (append_assoc _ _ _) (List.Perm.refl _) rfl rfl id
  | @lookUp _ req owes other goes =>
    have notHandlingLaunch : m.request ≠ .handling req .launch :=
      fun at_ => other _ at_ rfl
    rcases goes with ⟨reference, rfl⟩ | ⟨inspection, rfl⟩ <;>
      exact accounted.stay owes notHandlingLaunch rfl (by simp) rfl rfl rfl rfl rfl
  | inspect owes other =>
    exact accounted.stay owes (fun at_ => other _ at_ rfl) rfl (by simp) rfl rfl rfl rfl rfl
  | allocate at_ =>
    refine accounted.stay (by rw [at_]; rfl) ?_ rfl (by simp) rfl rfl rfl rfl rfl
    intro launching
    cases at_.symm.trans launching
  | cleanup at_ effect =>
    have unowing : m.request.owing = none := by
      rw [at_]
      rfl
    cases effect with
    | takePendingLaunch =>
      exact accounted.rest (.inr ⟨unowing, rfl⟩) rfl (append_nil _).symm (by simp)
        rfl (.inl rfl) id
    | _ =>
      exact accounted.rest (.inr ⟨unowing, rfl⟩) rfl (append_nil _).symm (by simp)
        rfl (.inr rfl) id

end Accounted

/-! ## What the watch goroutine writes -/

def Unanswering (m : Machine) : Prop :=
  ∀ msg ∈ m.watcher.pending, ∀ req, msg.answers req = false

theorem unanswering_new : Unanswering .new := nofun

theorem answers_stoppedMessage (server : Server) (snapshot : Debug.SessionSnapshot)
    (req : Nat) : (server.stoppedMessage snapshot).answers req = false := by
  unfold Server.stoppedMessage
  dsimp only
  split
  all_goals rfl

namespace Unanswering

theorem watched (unanswering : Unanswering m) (effect : WatchEffect m next) :
    Unanswering next := by
  have failing : ∀ err, ∀ msg ∈ Server.continueFailed err, ∀ req,
      msg.answers req = false := by
    intro err msg member req
    rcases mem_pair.mp member with rfl | rfl <;> rfl
  cases effect with
  | continueRefused | commitRefused => exact failing _
  | report =>
    intro msg member req
    rcases mem_pair.mp member with rfl | rfl <;> rfl
  | @write msg _ _ _ at_ =>
    intro later member
    apply unanswering later
    rw [at_]
    exact mem_cons_of_mem msg member
  | translate _ _ effect =>
    cases effect with
    | laterStop | firstStop =>
      intro msg member req
      cases mem_singleton.mp member
      exact answers_stoppedMessage _ _ req
    | ended _ _ events =>
      intro msg member req
      rcases mem_append.mp member with early | last
      · cases msg with
        | response number result => exact absurd rfl (events _ early number result)
        | _ => rfl
      · cases mem_singleton.mp last
        rfl
    | _ => nofun
  | _ => nofun

theorem step {action : Action} (unanswering : Unanswering m) (effect : Effect host m action next) :
    Unanswering next := by
  cases effect with
  | watch effect => exact unanswering.watched effect
  | handle effect =>
    cases effect with
    | arm => nofun
    | cleanup _ effect =>
      cases effect with
      | _ =>
        exact unanswering
    | _ => exact unanswering
  | _ => exact unanswering

end Unanswering

namespace Accounted

theorem watched (accounted : Accounted m) (unanswering : Unanswering m)
    (effect : WatchEffect m next) : Accounted next := by
  obtain ⟨req, requests, same, _, startedBy⟩ := effect.frame
  have writes : ∃ added, next.written = m.written ++ added ∧
      ∀ msg ∈ added, ∀ number, msg.answers number = false := by
    cases effect with
    | @write msg _ _ _ at_ =>
      refine ⟨[msg], rfl, ?_⟩
      intro written member
      cases mem_singleton.mp member
      apply unanswering
      rw [at_]
      exact mem_cons_self
    | _ =>
      exact ⟨[], (append_nil _).symm, by simp⟩
  obtain ⟨added, written, silent⟩ := writes
  refine accounted.rest (.inl req) requests written silent startedBy
    (.inr same.pendingLaunch) ?_
  rw [same.configured]
  exact id

end Accounted

end Machine

end Ferretd.Dap
