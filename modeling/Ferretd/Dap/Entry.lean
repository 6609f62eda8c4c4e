import Ferretd.Dap.Progress

/-!
# The first stop

Which breakpoints the adapter shows with the first stop depends on the set that was
installed when the start was accepted, and on nothing that is installed later.
-/

namespace Ferretd.Dap

open Library Library.Broadcast Message BreakpointIDs Server List

/-! ## The hits of an entry -/

variable {number : Nat}

namespace InitialStop

variable {native : Nat} {snapshot : Debug.SessionSnapshot} {stopOnEntry : Bool}
  {ids other : BreakpointIDs} {location : Debug.Location}

variable {bindings : List EntryBinding} {seen : List Nat}

theorem hitsAt_congr (same : ∀ binding ∈ bindings, ids.id binding.id = other.id binding.id) :
    hitsAt ids location seen bindings = hitsAt other location seen bindings := by
  induction bindings generalizing seen with
  | nil => rfl
  | cons binding rest ih =>
    have head := same binding mem_cons_self
    have tail : ∀ binding ∈ rest, ids.id binding.id = other.id binding.id :=
      fun later member => same later (mem_cons_of_mem binding member)
    simp only [hitsAt, head]
    split
    · rw [ih tail]
    · exact ih tail

theorem mem_hitsAt (member : native ∈ hitsAt ids location seen bindings) :
    ∃ binding ∈ bindings, binding.id = native := by
  induction bindings generalizing seen with
  | nil => cases member
  | cons binding _ ih =>
    simp only [hitsAt] at member
    split at member
    · rcases mem_cons.mp member with rfl | later
      · exact ⟨binding, mem_cons_self, rfl⟩
      · obtain ⟨found, inside, same⟩ := ih later
        exact ⟨found, mem_cons_of_mem binding inside, same⟩
    · obtain ⟨found, inside, same⟩ := ih member
      exact ⟨found, mem_cons_of_mem binding inside, same⟩

/-- The client's numbers of the hits are those of the bindings at the location, without
the ones met before. -/
theorem mem_map_hitsAt :
    number ∈ (hitsAt ids location seen bindings).map ids.id ↔
      number ∉ seen ∧ ∃ binding ∈ bindings, binding.location = location ∧
        ids.id binding.id = number := by
  induction bindings generalizing seen with
  | nil => simp [hitsAt]
  | cons binding _ ih =>
    simp only [hitsAt]
    split
    next hit =>
      rw [map_cons, mem_cons, ih]
      constructor
      · rintro (rfl | ⟨unseen, found, inside, facts⟩)
        · exact ⟨hit.2, binding, mem_cons_self, hit.1, rfl⟩
        · exact ⟨fun member => unseen (mem_cons_of_mem _ member), found,
            mem_cons_of_mem binding inside, facts⟩
      rintro ⟨unseen, found, inside, facts⟩
      by_cases first : number = ids.id binding.id
      · exact .inl first
      right
      rcases mem_cons.mp inside with rfl | later
      · exact absurd facts.2.symm first
      refine ⟨?_, found, later, facts⟩
      intro member
      rcases mem_cons.mp member with same | earlier
      · exact first same
      · exact unseen earlier
    next missed =>
      rw [ih]
      constructor
      · rintro ⟨unseen, found, inside, facts⟩
        exact ⟨unseen, found, mem_cons_of_mem binding inside, facts⟩
      rintro ⟨unseen, found, inside, facts⟩
      rcases mem_cons.mp inside with rfl | later
      · rw [← facts.2] at unseen
        exact absurd ⟨facts.1, unseen⟩ missed
      · exact ⟨unseen, found, later, facts⟩

theorem nodup_map_hitsAt (bindings : List EntryBinding) (seen : List Nat) :
    ((hitsAt ids location seen bindings).map ids.id).Nodup := by
  induction bindings generalizing seen with
  | nil => exact nodup_nil
  | cons _ _ ih =>
    simp only [hitsAt]
    split
    · rw [map_cons, nodup_cons]
      refine ⟨?_, ih _⟩
      intro again
      exact (mem_map_hitsAt.mp again).1 mem_cons_self
    · exact ih _

/-- The client's numbers of the breakpoints hit by an entry, in the order in which they
are reported. -/
def entryHits (stop : InitialStop) (ids : BreakpointIDs) (location : Debug.Location) :
    List Nat :=
  ((hitsAt ids location [] stop.bindings).insertionSort (· ≤ ·)).map ids.id

variable {stop : InitialStop}

theorem replace_of_unfrozen (unfrozen : stop.frozen = false) (results : List Breakpoint) :
    stop.replace results = new.replace results := by
  obtain ⟨bindings, frozen⟩ := stop
  cases unfrozen
  rfl

theorem replace_of_frozen (frozen : stop.frozen = true) (results : List Breakpoint) :
    stop.replace results = stop :=
  if_pos frozen

theorem mem_entryHits :
    number ∈ stop.entryHits ids location ↔ ∃ binding ∈ stop.bindings,
      binding.location = location ∧ ids.id binding.id = number := by
  unfold entryHits
  have sorted := (perm_insertionSort (· ≤ ·) (hitsAt ids location [] stop.bindings)).map ids.id
  rw [sorted.mem_iff, mem_map_hitsAt]
  simp

theorem nodup_entryHits : (stop.entryHits ids location).Nodup := by
  have sorted := (perm_insertionSort (· ≤ ·) (hitsAt ids location [] stop.bindings)).map ids.id
  exact sorted.nodup_iff.mpr (nodup_map_hitsAt stop.bindings [])

theorem entryHits_congr
    (same : ∀ binding ∈ stop.bindings, ids.id binding.id = other.id binding.id) :
    stop.entryHits ids location = stop.entryHits other location := by
  unfold entryHits
  rw [hitsAt_congr same]
  apply map_congr_left
  intro native member
  have inside := (perm_insertionSort (· ≤ ·) _).mem_iff.mp member
  obtain ⟨binding, found, rfl⟩ := mem_hitsAt inside
  exact same binding found

theorem resolve_entry
    (entry : snapshot.reason = some .entry) (unhit : snapshot.hitBreakpointIDs = []) :
    (stop.entryHits ids snapshot.location ≠ [] ∧
        (stop.resolve snapshot stopOnEntry ids).2 = false ∧
        (stop.resolve snapshot stopOnEntry ids).1.reason = some .breakpoint ∧
        (stop.resolve snapshot stopOnEntry ids).1.hitBreakpointIDs.map ids.id =
          stop.entryHits ids snapshot.location) ∨
      (stop.entryHits ids snapshot.location = [] ∧
        stop.resolve snapshot stopOnEntry ids = (snapshot, !stopOnEntry)) := by
  unfold resolve entryHits
  rw [if_neg (by simp [entry]), if_pos unhit]
  generalize (hitsAt ids snapshot.location [] stop.bindings).insertionSort (· ≤ ·) = hits
  cases hits with
  | nil => exact .inr ⟨rfl, rfl⟩
  | cons => exact .inl ⟨by simp, rfl, rfl, rfl⟩

end InitialStop

/-- The watch goroutine is in its first loop, or before it, and has nothing to write. -/
def WatcherPC.listening : WatcherPC → Bool
  | .unstarted | .receiving .events | .translating _ | .writing [] .keep .events => true
  | _ => false

/-- The message is a `stopped` event. -/
def Message.isStop : Message → Bool
  | .stopped _ _ _ => true
  | _ => false

theorem filter_isStop_reports (messages : List Message) :
    (messages.filter reports).filter isStop = messages.filter isStop := by
  rw [filter_filter]
  congr 1
  funext msg
  cases msg with
  | _ => rfl

def WatcherPC.past : WatcherPC → Bool
  | .receiving .errors | .writing _ _ .errors | .reporting _ | .finishing | .ended => true
  | _ => false

namespace Machine

variable {source : String} {committed : Server} {binding : EntryBinding} {host : Host}
  {m next started : Machine} {action : Action} {answers : Answers}
variable {pos : Nat → BreakpointKey}

/-! ## Up to the start -/

/-- The debugger answers a replacement in the order of its requests, and a native number
always stands for the same requested position. -/
def answersRequests (host : Host) (pos : Nat → BreakpointKey) (m : Machine) :
    Action → Bool
  | .handle answers =>
    match m.request with
    | .handling _ (.setBreakpoints arguments) =>
      match m.server.planBreakpoints host arguments answers.source, answers.replaced with
      | .replace _ _ requests, .ok results =>
        decide (results.map (fun result => pos result.id) = requests.map fun req =>
            ⟨m.server.owned.program, req.position⟩)
      | _, _ => true
    | _ => true
  | _ => true

variable {requests : List BreakpointRequest} {results : List Breakpoint}

theorem answers_of_map (same : results.map (fun result => pos result.id) =
      requests.map fun req => ⟨source, req.position⟩) :
    BreakpointIDs.Answers pos source requests results := by
  induction requests generalizing results with
  | nil =>
    cases map_eq_nil_iff.mp same
    exact .nil
  | cons _ _ ih =>
    obtain ⟨result, rest, rfl, head, tail⟩ := map_eq_cons_iff.mp same
    exact .cons head (ih tail)

variable {server : Server}

theorem commit_spec (answers : BreakpointIDs.Answers pos server.owned.program requests results)
    (sound : BreakpointIDs.Sound pos server.breakpoints)
    (commits : server.commitBreakpoints requests results = .ok committed) :
    ∃ ids, server.breakpoints.replace server.owned.program requests results = .ok ids ∧
      committed = { server with
        breakpoints := ids
        initialStop := server.initialStop.map fun stop => stop.replace results } := by
  obtain ⟨ids, replaced, _⟩ := replace_spec answers sound
  refine ⟨ids, replaced, ?_⟩
  unfold commitBreakpoints at commits
  rw [replaced] at commits
  cases commits
  rfl

/-- Before the start the record of the initial stop follows the installed set. -/
structure Prepared (pos : Nat → BreakpointKey) (m : Machine) : Prop where
  sound : BreakpointIDs.Sound pos m.server.breakpoints
  bare : m.server.launched = false ∨ m.request.preparing = true →
    m.installed = fun _ => []
  bound : ∀ stop, m.server.initialStop = some stop → stop.frozen = false →
    stop = InitialStop.new.replace (m.installed m.server.owned.program) ∧
      ∀ result ∈ m.installed m.server.owned.program,
        m.server.breakpoints.active result.id ≠ 0
  frozen : ∀ stop, m.server.initialStop = some stop → stop.frozen = true →
    m.server.configured = true
  closing : ∀ messages loop, m.watcher = .writing messages .finish loop →
    m.server.initialStop = none

theorem prepared_new : Prepared pos .new where
  sound := sound_new
  bare := fun _ => rfl
  bound := nofun
  frozen := nofun
  closing := nofun

namespace Prepared

section

variable (prepared : Prepared pos m)
include prepared

theorem keep (sound : BreakpointIDs.Sound pos next.server.breakpoints)
    (stop : next.server.initialStop = none ∨
      next.server.initialStop = m.server.initialStop ∧
        next.server.breakpoints.active = m.server.breakpoints.active)
    (owned : next.server.owned = m.server.owned) (installed : next.installed = m.installed)
    (configured : m.server.configured = true → next.server.configured = true)
    (bare : next.server.launched = false ∨ next.request.preparing = true →
      m.server.launched = false ∨ m.request.preparing = true)
    (closing : ∀ messages loop, next.watcher = .writing messages .finish loop →
      next.server.initialStop = none) : Prepared pos next := by
  refine ⟨sound, ?_, ?_, ?_, closing⟩
  · intro early
    rw [installed]
    exact prepared.bare (bare early)
  · intro initial found unfrozen
    rcases stop with none_ | ⟨same, active⟩
    · rw [none_] at found
      cases found
    · rw [installed, owned, active]
      exact prepared.bound initial (same.symm.trans found) unfrozen
  · intro initial found frozen
    rcases stop with none_ | ⟨same, _⟩
    · rw [none_] at found
      cases found
    · exact configured (prepared.frozen initial (same.symm.trans found) frozen)

theorem serve (ids : next.server.breakpoints = m.server.breakpoints)
    (stop : next.server.initialStop = m.server.initialStop)
    (owned : next.server.owned = m.server.owned) (installed : next.installed = m.installed)
    (configured : m.server.configured = true → next.server.configured = true)
    (launched : next.server.launched = m.server.launched)
    (preparing : next.request.preparing = true → m.request.preparing = true)
    (watcher : next.watcher = m.watcher) : Prepared pos next := by
  refine prepared.keep ?_ (.inr ⟨stop, by rw [ids]⟩) owned installed configured ?_ ?_
  · rw [ids]
    exact prepared.sound
  · rw [launched]
    exact Or.imp_right preparing
  · rw [watcher, stop]
    exact prepared.closing

theorem replace (answers : BreakpointIDs.Answers pos m.server.owned.program requests results)
    (commits : m.server.commitBreakpoints requests results = .ok committed)
    (server : next.server = committed) (installed : next.installed = Function.update m.installed
      m.server.owned.program results) (launched : m.server.launched = true)
    (req : next.request.preparing = false) (watcher : next.watcher = m.watcher) :
    Prepared pos next := by
  obtain ⟨ids, replaced, rfl⟩ := commit_spec answers prepared.sound commits
  obtain ⟨after, replacedAfter, sound, _, answered, _⟩ :=
    replace_spec answers prepared.sound
  cases replaced.symm.trans replacedAfter
  refine ⟨?_, ?_, ?_, ?_, ?_⟩
  · rw [server]
    exact sound
  · rintro (unlaunched | preparing)
    · rw [server] at unlaunched
      cases launched.symm.trans unlaunched
    · rw [req] at preparing
      cases preparing
  · intro stop found unfrozen
    rw [server] at found ⊢
    obtain ⟨earlier, initial, rfl⟩ := Option.map_eq_some_iff.mp found
    rw [installed, Function.update_self]
    refine ⟨?_, answered⟩
    cases frozen : earlier.frozen with
    | false => exact InitialStop.replace_of_unfrozen frozen results
    | true =>
      rw [InitialStop.replace_of_frozen frozen, frozen] at unfrozen
      cases unfrozen
  · intro stop found frozen
    rw [server] at found ⊢
    obtain ⟨earlier, initial, rfl⟩ := Option.map_eq_some_iff.mp found
    cases frozenBefore : earlier.frozen with
    | false =>
      rw [InitialStop.replace_of_unfrozen frozenBefore] at frozen
      cases frozen
    | true => exact prepared.frozen earlier initial frozenBefore
  · intro messages loop at_
    rw [watcher] at at_
    rw [server]
    rw [prepared.closing messages loop at_]
    rfl

theorem request (attached : Attached m)
    (allowed : m.answersRequests host pos (.handle answers) = true)
    (effect : RequestEffect host answers m next) : Prepared pos next := by
  have answered : ∀ {number arguments sourceName clientPath requests results},
      m.request = .handling number (.setBreakpoints arguments) →
      m.server.planBreakpoints host arguments answers.source =
        .replace sourceName clientPath requests → answers.replaced = .ok results →
      BreakpointIDs.Answers pos m.server.owned.program requests results := by
    intro number arguments sourceName clientPath requests results at_ planned replaced
    apply answers_of_map
    simpa only [answersRequests, at_, planned, replaced, decide_eq_true_eq] using allowed
  cases effect with
  | answer _ _ same =>
    exact prepared.serve same.breakpoints same.initialStop same.owned rfl
      (fun configured => same.configured.trans configured) same.launched
      nofun rfl
  | replace at_ planned _ replaced committed =>
    have configured := configuredDebug_of_plan planned
    exact prepared.replace (answered at_ planned replaced) committed rfl rfl
      (launched_of_configuredDebug configured) rfl rfl
  | @launch _ session at_ fresh =>
    have empty := prepared.bare (.inl fresh)
    refine ⟨prepared.sound, fun _ => empty, ?_, prepared.frozen, ?_⟩
    · intro stop found unfrozen
      have before := (prepared.bound stop found unfrozen).1
      have initial : m.installed session.program = [] := by rw [empty]
      show stop = InitialStop.new.replace (m.installed session.program) ∧
        ∀ result ∈ m.installed session.program, _
      rw [initial]
      rw [empty] at before
      exact ⟨before, fun _ member => nomatch member⟩
    · intro messages loop at_
      have unstarted := (attached.unlaunched fresh).2
      rw [show m.watcher = _ from at_] at unstarted
      cases unstarted
  | announce at_ =>
    exact prepared.serve rfl rfl rfl rfl id rfl (fun _ => by rw [at_]; rfl) rfl
  | arm at_ =>
    have empty := prepared.bare (.inr (by rw [at_]; rfl))
    refine ⟨prepared.sound, ?_, ?_, ?_, ?_⟩
    · intro _
      exact empty
    · intro stop found unfrozen
      cases found
      show _ = InitialStop.new.replace (m.installed m.server.owned.program) ∧
        ∀ result ∈ m.installed m.server.owned.program, _
      rw [empty]
      exact ⟨rfl, fun _ member => nomatch member⟩
    · intro stop found frozen
      cases found
      cases frozen
    · nofun
  | startFails =>
    exact prepared.keep prepared.sound (.inl rfl) rfl rfl id
      (Or.imp_right fun preparing => nomatch preparing) fun _ _ _ => rfl
  | start _ _ _ _ _ _ _ isArmed =>
    unfold startAccepted at isArmed
    split at isArmed
    · cases isArmed
    rename_i stop initial
    cases isArmed
    refine ⟨prepared.sound.commandStarted, ?_, ?_, fun _ _ _ => rfl, ?_⟩
    · rintro (unlaunched | preparing)
      · exact prepared.bare (.inl unlaunched)
      · cases preparing
    · intro frozen found unfrozen
      cases found
      cases unfrozen
    · intro messages loop watching
      have none_ := prepared.closing messages loop watching
      rw [initial] at none_
      cases none_
  | misanswered at_ planned replaced failed =>
    exfalso
    obtain ⟨after, executed, _⟩ :=
      replace_spec (answered at_ planned replaced) prepared.sound
    rw [executed] at failed
    cases failed
  | lookUp _ _ goes =>
    refine prepared.serve rfl rfl rfl rfl id rfl ?_ rfl
    rcases goes with ⟨reference, rfl⟩ | ⟨inspection, rfl⟩
    · nofun
    · nofun
  | resume =>
    exact prepared.keep prepared.sound.commandStarted (.inr ⟨rfl, rfl⟩) rfl rfl
      id (Or.imp_right fun preparing => nomatch preparing)
      prepared.closing
  | terminate _ _ _ _ server_ =>
    rcases server_ with rfl | rfl
    · exact prepared.serve rfl rfl rfl rfl id rfl
        nofun rfl
    · exact prepared.serve rfl rfl rfl rfl id rfl
        nofun rfl
  | cleanup _ effect =>
    cases effect with
    | _ =>
      exact prepared.serve rfl rfl rfl rfl id rfl
        nofun rfl
  | _ =>
    exact prepared.serve rfl rfl rfl rfl id rfl
      nofun rfl

theorem watched (effect : WatchEffect m next) : Prepared pos next := by
  obtain ⟨req, _, same, _, _⟩ := effect.frame
  have bare : next.server.launched = false ∨ next.request.preparing = true →
      m.server.launched = false ∨ m.request.preparing = true := by
    rw [same.launched, req]
    exact id
  have configured : m.server.configured = true → next.server.configured = true := by
    rw [same.configured]
    exact id
  have quiet : next.server.breakpoints = m.server.breakpoints →
      next.server.initialStop = m.server.initialStop →
      next.installed = m.installed →
      (∀ messages loop, next.watcher ≠ .writing messages .finish loop) →
      Prepared pos next := by
    intro ids stop installed unfinished
    refine prepared.keep ?_ (.inr ⟨stop, by rw [ids]⟩) same.owned installed configured
      bare fun messages loop at_ => absurd at_ (unfinished messages loop)
    rw [ids]
    exact prepared.sound
  cases effect with
  | translate _ _ effect =>
    cases effect with
    | firstStop | ended =>
      exact prepared.keep prepared.sound (.inl rfl) rfl rfl configured bare fun _ _ _ => rfl
    | suppressed =>
      exact prepared.keep prepared.sound.commandStopped (.inl rfl) rfl rfl configured
        bare fun _ _ _ => rfl
    | _ => exact quiet rfl rfl rfl (by simp [Server.Translation.pc])
  | commitEntry =>
    refine prepared.keep prepared.sound.commandStarted (.inr ⟨rfl, rfl⟩) rfl rfl configured
      bare ?_
    intro messages loop at_
    cases at_
  | write at_ =>
    refine prepared.keep prepared.sound (.inr ⟨rfl, rfl⟩) rfl rfl configured bare ?_
    intro messages loop' at'
    cases at'
    exact prepared.closing _ _ at_
  | @leave afterwards _ at_ =>
    cases afterwards with
    | keep => exact quiet rfl rfl rfl (by simp)
    | commandStopped =>
      refine prepared.keep prepared.sound.commandStopped (.inr ⟨rfl, rfl⟩) rfl rfl
        configured bare ?_
      intro messages loop' at'
      cases at'
    | finish =>
      exact prepared.keep prepared.sound.finish (.inl (prepared.closing _ _ at_)) rfl rfl
        configured bare fun _ _ at' => nomatch at'
  | finish =>
    exact prepared.keep prepared.sound.finish (.inl rfl) rfl rfl configured bare
      fun _ _ at' => nomatch at'
  | _ => exact quiet rfl rfl rfl (by simp)

theorem step (attached : Attached m) (allowed : m.answersRequests host pos action = true)
    (effect : Effect host m action next) : Prepared pos next := by
  cases effect with
  | read | stopReading =>
    exact prepared.serve rfl rfl rfl rfl id rfl
      nofun rfl
  | handle effect => exact prepared.request attached allowed effect
  | watch effect => exact prepared.watched effect
  | debugger =>
    exact prepared.serve rfl rfl rfl rfl id rfl id rfl

end

end Prepared

/-! ## From the start to the first stop -/

def handlesNoStop (m : Machine) : Action → Bool
  | .watch =>
    match m.watcher with
    | .translating event => decide (event.snapshot.state ≠ .stopped)
    | _ => true
  | _ => true

/-- The record of the initial stop as it was frozen, in tables that still know its native
numbers as the earlier tables did. -/
structure Frozen (pos : Nat → BreakpointKey) (stop : InitialStop)
    (ids : BreakpointIDs) (m : Machine) : Prop where
  sound : BreakpointIDs.Sound pos m.server.breakpoints
  initial : m.server.initialStop = some stop
  outstanding : m.server.breakpoints.pending ≠ 0
  knows : ∀ binding ∈ stop.bindings, m.server.breakpoints.Knows binding.id
  numbered : ∀ binding ∈ stop.bindings,
    m.server.breakpoints.stable (pos binding.id) = ids.id binding.id
  listening : m.watcher.listening = true

/-- The program has been started: the first stop is still to come, or none will. -/
structure Underway (pos : Nat → BreakpointKey) (stop : InitialStop)
    (ids : BreakpointIDs) (owned : OwnedSession) (m : Machine) : Prop where
  launched : m.server.launched = true
  configured : m.server.configured = true
  unprepared : m.request.preparing = false
  owned_eq : m.server.owned = owned
  course : Frozen pos stop ids m ∨ m.watcher.past = true ∨
    m.watcher.resting = true ∧ m.Exhausted

variable {stop : InitialStop} {ids : BreakpointIDs} {owned : OwnedSession}

theorem Frozen.same (frozen : Frozen pos stop ids m)
    (breakpoints : next.server.breakpoints = m.server.breakpoints)
    (initial : next.server.initialStop = m.server.initialStop)
    (listening : next.watcher.listening = true) : Frozen pos stop ids next := by
  refine ⟨?_, initial.trans frozen.initial, ?_, ?_, ?_, listening⟩
  · rw [breakpoints]
    exact frozen.sound
  · rw [breakpoints]
    exact frozen.outstanding
  · rw [breakpoints]
    exact frozen.knows
  · rw [breakpoints]
    exact frozen.numbered

theorem Frozen.replace (frozen : Frozen pos stop ids m) (isFrozen : stop.frozen = true)
    (answers : BreakpointIDs.Answers pos m.server.owned.program requests results)
    (commits : m.server.commitBreakpoints requests results = .ok committed)
    (server : next.server = committed) (watcher : next.watcher = m.watcher) :
    Frozen pos stop ids next := by
  obtain ⟨replacedIDs, replaced, rfl⟩ := commit_spec answers frozen.sound commits
  obtain ⟨after, replacedAfter, sound, pending, _, stable, knows, _⟩ :=
    replace_spec answers frozen.sound
  cases replaced.symm.trans replacedAfter
  refine ⟨?_, ?_, ?_, ?_, ?_, ?_⟩
  · rw [server]
    exact sound
  · rw [server]
    rw [frozen.initial]
    exact congrArg some (InitialStop.replace_of_frozen isFrozen results)
  · rw [server]
    exact pending ▸ frozen.outstanding
  · intro binding member
    rw [server]
    exact knows frozen.outstanding _ (frozen.knows binding member)
  · intro binding member
    rw [server, ← frozen.numbered binding member]
    apply stable
    obtain ⟨number, positive⟩ := frozen.sound.id_of_knows (frozen.knows binding member)
    rw [← number]
    exact positive
  · rw [watcher]
    exact frozen.listening

namespace Underway

section

variable (underway : Underway pos stop ids owned m)
include underway

theorem carry (attached : Attached m) (moves : DebuggerMove m next)
    (launched : next.server.launched = m.server.launched)
    (configured : next.server.configured = m.server.configured)
    (unprepared : next.request.preparing = false) (same : next.server.owned = m.server.owned)
    (watcher : next.watcher = m.watcher)
    (frozen : Frozen pos stop ids m → Frozen pos stop ids next) :
    Underway pos stop ids owned next := by
  refine ⟨launched.trans underway.launched, configured.trans underway.configured, unprepared,
    same.trans underway.owned_eq, ?_⟩
  rw [watcher]
  rcases underway.course with waiting | past | ⟨resting, exhausted⟩
  · exact .inl (frozen waiting)
  · exact .inr (.inl past)
  · exact .inr (.inr ⟨resting, exhausted.step attached moves⟩)

theorem request (isFrozen : stop.frozen = true) (attached : Attached m)
    (allowed : m.answersRequests host pos (.handle answers) = true)
    (effect : RequestEffect host answers m next) :
    Underway pos stop ids owned next := by
  have moves := RequestEffect.moves effect
  have unprepared : ∀ {pc : RequestPC}, m.request = pc → pc.preparing ≠ true := by
    intro pc at_ preparing
    rw [← at_, underway.unprepared] at preparing
    cases preparing
  have configuredOnce : m.server.configured ≠ false := by
    rw [underway.configured]
    simp
  have same : ∀ {next : Machine}, next.server.breakpoints = m.server.breakpoints →
      next.server.initialStop = m.server.initialStop →
      next.watcher = m.watcher → Frozen pos stop ids m →
      Frozen pos stop ids next := by
    intro next breakpoints initial watcher frozen
    exact frozen.same breakpoints initial (by rw [watcher]; exact frozen.listening)
  cases effect with
  | answer _ _ course =>
    exact underway.carry attached moves course.launched course.configured rfl course.owned
      rfl (same course.breakpoints course.initialStop rfl)
  | @replace _ _ _ _ _ requests results server at_ planned _ replaced committed =>
    have answered : BreakpointIDs.Answers pos m.server.owned.program requests
        results := by
      apply answers_of_map
      simpa only [answersRequests, at_, planned, replaced, decide_eq_true_eq] using allowed
    obtain ⟨_, rfl⟩ := commitBreakpoints_ok committed
    refine underway.carry attached moves rfl rfl rfl rfl rfl ?_
    intro frozen
    exact frozen.replace isFrozen answered committed rfl rfl
  | launch _ fresh => cases underway.launched.symm.trans fresh
  | announce at_ | arm at_ => exact absurd rfl (unprepared at_)
  | startFails _ _ _ unconfigured | start _ _ _ _ unconfigured
  | startUnarmed _ _ _ _ unconfigured => exact absurd unconfigured configuredOnce
  | lookUp _ _ goes =>
    refine underway.carry attached moves rfl rfl ?_ rfl rfl (same rfl rfl rfl)
    rcases goes with ⟨reference, rfl⟩ | ⟨inspection, rfl⟩ <;> rfl
  | resume =>
    refine underway.carry attached moves rfl rfl rfl rfl rfl ?_
    intro frozen
    exact ⟨frozen.sound.commandStarted, frozen.initial, Nat.succ_ne_zero _, frozen.knows,
      frozen.numbered, frozen.listening⟩
  | terminate _ _ _ _ server_ =>
    rcases server_ with rfl | rfl <;>
      exact underway.carry attached moves rfl rfl rfl rfl rfl (same rfl rfl rfl)
  | cleanup _ effect =>
    cases effect with
    | _ =>
      exact underway.carry attached moves rfl rfl rfl rfl rfl (same rfl rfl rfl)
  | _ =>
    exact underway.carry attached moves rfl rfl rfl rfl rfl (same rfl rfl rfl)

theorem watched (attached : Attached m) (unstopped : m.handlesNoStop .watch = true)
    (effect : WatchEffect m next) : Underway pos stop ids owned next := by
  have moves := effect.moves
  obtain ⟨req, _, same, _, _⟩ := effect.frame
  refine ⟨same.launched.trans underway.launched, same.configured.trans underway.configured,
    ?_, same.owned.trans underway.owned_eq, ?_⟩
  · rw [req]
    exact underway.unprepared
  rcases underway.course with frozen | past | ⟨resting, exhausted⟩
  · cases effect with
    | receive => exact .inl (frozen.same rfl rfl rfl)
    | eventsEnd => exact .inr (.inl rfl)
    | translate at_ _ effect =>
      cases effect with
      | created | running => exact .inl (frozen.same rfl rfl rfl)
      | laterStop state | firstStop state | suppressed state =>
        simp [handlesNoStop, at_, state] at unstopped
      | ended terminal =>
        obtain ⟨dbg, known⟩ := attached.known_of_started (by rw [at_]; simp)
        obtain ⟨sub, attends⟩ := attached.session dbg known
        rw [at_] at attends
        exact .inr (.inr ⟨rfl, dbg, sub, known, attends.found,
          attends.spent terminal⟩)
    | write at_ | receiveError at_ | errorsEnd at_
    | continueRefused at_ | continueEntry at_ | commitRefused at_
    | commitEntry at_ | report at_ | finish at_ => cases watcher_at frozen.listening at_
    | @leave afterwards loop at_ =>
      cases afterwards with
      | keep =>
        cases loop with
        | events => exact .inl (frozen.same rfl rfl rfl)
        | errors => cases watcher_at frozen.listening at_
      | commandStopped | finish => cases watcher_at frozen.listening at_
  · refine .inr (.inl ?_)
    cases effect with
    | @write _ _ _ loop at_ | @leave _ loop at_ =>
      cases loop with
      | events => cases watcher_at past at_
      | errors => rfl
    | receive at_ | eventsEnd at_ | translate at_
    | continueRefused at_ | continueEntry at_ | commitRefused at_
    | commitEntry at_ => cases watcher_at past at_
    | _ => rfl
  · have exhaustedNext := exhausted.step attached moves
    obtain ⟨dbg, sub, known, found, spent⟩ := exhausted
    cases effect with
    | receive _ knownOther foundOther buffered =>
      cases known.symm.trans knownOther
      cases found.symm.trans foundOther
      rw [spent.1.1] at buffered
      cases buffered
    | receiveError _ knownOther foundOther buffered =>
      cases known.symm.trans knownOther
      cases found.symm.trans foundOther
      rw [spent.2] at buffered
      cases buffered
    | translate at_ | continueRefused at_ | continueEntry at_
    | commitRefused at_ | commitEntry at_ | report at_ => cases watcher_at resting at_
    | _ =>
      exact .inr (.inr ⟨rfl, exhaustedNext⟩)

theorem step (isFrozen : stop.frozen = true) (attached : Attached m)
    (allowed : m.answersRequests host pos action = true) (unstopped : m.handlesNoStop action = true)
    (effect : Effect host m action next) : Underway pos stop ids owned next := by
  have moves := effect.moves
  cases effect with
  | read | stopReading =>
    exact underway.carry attached moves rfl rfl rfl rfl rfl
      fun frozen => frozen.same rfl rfl frozen.listening
  | handle effect => exact underway.request isFrozen attached allowed effect
  | watch effect => exact underway.watched attached unstopped effect
  | debugger =>
    exact underway.carry attached moves rfl rfl underway.unprepared rfl rfl
      fun frozen => frozen.same rfl rfl frozen.listening

end

end Underway

def frozenStop (before : Machine) : InitialStop :=
  { InitialStop.new.replace (before.installed before.server.owned.program) with
    frozen := true }

variable {before : Machine}

theorem mem_frozenStop :
    binding ∈ (frozenStop before).bindings ↔
      ∃ result ∈ before.installed before.server.owned.program, result.bound = true ∧
        (⟨result.id, result.location⟩ : EntryBinding) = binding := by
  simp [frozenStop, InitialStop.replace, InitialStop.new, and_assoc]

theorem underway_of_start (attached : Attached before) (armed : Armed before)
    (prepared : Prepared pos before) (effect : Effect host before action started)
    (starts : started.startedBy ≠ before.startedBy) :
    Underway pos (frozenStop before) before.server.breakpoints before.server.owned started := by
  cases effect with
  | watch effect => exact absurd effect.frame.2.2.2.2 starts
  | handle effect =>
    cases effect with
    | @start _ dbg _ server at_ _ known launched unconfigured accepted _ isArmed =>
      obtain ⟨snapshot, accepted⟩ := accepted
      have created := (Debug.Session.startCommand_ok accepted).2.2.1
      obtain ⟨sub, attends⟩ := attached.session dbg known
      have dormant := armed dbg sub known attends.found created
      have listening : before.watcher.listening = true := by
        rcases (dormant.registered (.inl (by rw [at_]; rfl))).2 with pc | pc
        · rw [pc]
          rfl
        · rw [pc]
          rfl
      unfold startAccepted at isArmed
      split at isArmed
      · cases isArmed
      rename_i stop initial
      cases isArmed
      have unfrozen : stop.frozen = false := by
        by_contra frozen
        have configured := prepared.frozen stop initial (by simpa using frozen)
        cases unconfigured.symm.trans configured
      obtain ⟨rfl, active⟩ := prepared.bound stop initial unfrozen
      have knows : ∀ binding ∈ (frozenStop before).bindings,
          before.server.breakpoints.Knows binding.id := by
        intro binding member
        obtain ⟨result, installed, _, rfl⟩ := mem_frozenStop.mp member
        exact .inl (active result installed)
      refine ⟨launched, rfl, rfl, rfl, .inl ⟨prepared.sound.commandStarted, rfl,
        Nat.succ_ne_zero _, knows, ?_, listening⟩⟩
      intro binding member
      exact (prepared.sound.id_of_knows (knows binding member)).1.symm
    | startUnarmed at_ _ known _ _ accepted _ unarmed =>
      exact absurd unarmed (armed.armed_of_start attached at_ known accepted)
    | cleanup _ effect =>
      cases effect with
      | _ =>
        exact absurd rfl starts
    | _ => exact absurd rfl starts
  | _ => exact absurd rfl starts

/-- The breakpoints that were installed and bound at a location. -/
def boundAt (before : Machine) (location : Debug.Location) : List Breakpoint :=
  (before.installed before.server.owned.program).filter fun result =>
    result.bound && decide (result.location = location)

/-- The client's numbers of these breakpoints, as the adapter reports them. -/
def entryIDs (before : Machine) (location : Debug.Location) : List Nat :=
  (frozenStop before).entryHits before.server.breakpoints location

variable {location : Debug.Location}

theorem mem_entryIDs :
    number ∈ entryIDs before location ↔ ∃ result ∈ boundAt before location,
      before.server.breakpoints.id result.id = number := by
  unfold entryIDs boundAt
  rw [InitialStop.mem_entryHits]
  constructor
  · rintro ⟨binding, member, here, numbered⟩
    obtain ⟨result, installed, bound, rfl⟩ := mem_frozenStop.mp member
    refine ⟨result, mem_filter.mpr ⟨installed, ?_⟩, numbered⟩
    simp [bound, show result.location = location from here]
  rintro ⟨result, member, numbered⟩
  obtain ⟨installed, here⟩ := mem_filter.mp member
  simp only [Bool.and_eq_true, decide_eq_true_eq] at here
  exact ⟨⟨result.id, result.location⟩, mem_frozenStop.mpr ⟨result, installed, here.1, rfl⟩,
    here.2, numbered⟩

theorem entryIDs_eq_nil : entryIDs before location = [] ↔ boundAt before location = [] := by
  constructor
  · intro unhit
    apply eq_nil_iff_forall_not_mem.mpr
    intro result member
    have hit := mem_entryIDs.mpr ⟨result, member, rfl⟩
    rw [unhit] at hit
    cases hit
  · intro unbound
    apply eq_nil_iff_forall_not_mem.mpr
    intro number member
    obtain ⟨result, bound, _⟩ := mem_entryIDs.mp member
    rw [unbound] at bound
    cases bound

/-- The stops written, and those that the section under way is to write. -/
def stops (m : Machine) : List Message :=
  m.events.filter isStop

/-- A section of the watch goroutine goes on to write what it is to write, and no other
stop is written meanwhile. -/
theorem stops_step (holds : m.watcher.holds = true)
    (effect : Effect host m action next) : next.stops = m.stops := by
  unfold stops
  cases effect with
  | handle effect => rw [(RequestEffect.events effect).1]
  | watch effect =>
    cases effect with
    | receive at_ | eventsEnd at_ | receiveError at_
    | errorsEnd at_ | translate at_ | report at_ | finish at_ =>
      cases watcher_at holds at_
    | continueRefused at_ | commitRefused at_ | continueEntry at_
    | commitEntry at_ | leave at_ =>
      simp [events, at_, WatcherPC.pending, continueFailed, reports, isStop, filter_append]
    | write at_ =>
      simp [events, Machine.write, at_, WatcherPC.pending]
  | _ => rfl

def entryStops (before : Machine) (location : Debug.Location) : List Message :=
  if boundAt before location ≠ [] then
    [.stopped .breakpoint "" (entryIDs before location)]
  else if before.server.owned.stopOnEntry then
    [.stopped .entry "" []]
  else
    []

/-- How the adapter goes on from an entry at a location: it is to write one stop at the
breakpoints that were bound there when the start was accepted; without such a breakpoint it
is to write one stop at the entry, or it continues. -/
structure GoesOn (before : Machine) (location : Debug.Location) (m next : Machine) :
    Prop where
  distinct : (entryIDs before location).Nodup
  positive : 0 ∉ entryIDs before location
  exact : ∀ number, number ∈ entryIDs before location ↔
    ∃ result ∈ boundAt before location, before.server.breakpoints.id result.id = number
  taken : next.server.initialStop = none
  unwritten : next.written = m.written
  hit : boundAt before location ≠ [] → next.watcher =
    .writing [.stopped .breakpoint "" (entryIDs before location)] .commandStopped .events
  shown : boundAt before location = [] → before.server.owned.stopOnEntry = true →
    next.watcher = .writing [.stopped .entry "" []] .commandStopped .events
  left_ : boundAt before location = [] → before.server.owned.stopOnEntry = false →
    next.watcher = .continuing

/-- The stop is left without being shown. -/
def suppressed (before : Machine) (location : Debug.Location) : Prop :=
  boundAt before location = [] ∧ before.server.owned.stopOnEntry = false

instance : Decidable (suppressed before location) :=
  inferInstanceAs (Decidable (_ ∧ _))

/-- A call of `ContinueSession`: why the manager refuses it, and the resume request that is
pending in the session afterwards. -/
structure ContinueCall where
  refused : GoError
  request : Option Debug.ResumeRequest

/-- Unless it was refused, the call asks the session to continue. -/
def ContinueCall.Asks (call : ContinueCall) : Prop :=
  call.refused = [] →
    ∃ req, call.request = some req ∧ req.kind = .continueExecution

/-- The calls of `ContinueSession` that the watch goroutine makes in a step. -/
def continueCalls (m next : Machine) : Action → List ContinueCall
  | .watch =>
    match m.watcher with
    | .continuing =>
      [⟨m.refused [], next.debugger.bind fun dbg => dbg.requests 1⟩]
    | _ => []
  | _ => []

/-- The steps of the adapter, with the calls made so far. -/
def callStep (host : Host) (state : Machine × List ContinueCall) (action : Action) :
    Option (Machine × List ContinueCall) :=
  (state.1.step host action).map fun next =>
    (next, state.2 ++ continueCalls state.1 next action)

/-- The section in which the entry is handled has ended: the stop is written, and there was
no other; or the stop is suppressed, and the session was asked to continue once. -/
structure SectionEnds (before : Machine) (location : Debug.Location) (m : Machine)
    (last : Machine × List ContinueCall) : Prop where
  free : last.1.watcher.holds = false
  stops : last.1.written.filter isStop =
    m.written.filter isStop ++ entryStops before location
  continues : if suppressed before location then ∃ call, last.2 = [call] ∧ call.Asks
    else last.2 = []

/-- However the goroutines interleave, the section ends so, and it comes to its end by the
steps of the watch goroutine. -/
structure Classifies (host : Host) (before : Machine) (location : Debug.Location)
    (m next : Machine) : Prop extends GoesOn before location m next where
  ends : ∀ last, Run (callStep host) (fun state _ => state.1.watcher.holds = true)
      (next, []) last →
    (last.1.watcher.holds = false → SectionEnds before location m last) ∧
      Attains (callStep host) (fun _ action => action = .watch)
        (SectionEnds before location m) last

theorem GoesOn.stops_eq (goes : GoesOn before location m next) :
    next.stops = m.written.filter isStop ++ entryStops before location := by
  unfold stops events
  rw [filter_isStop_reports, filter_append, goes.unwritten]
  congr 1
  unfold entryStops
  by_cases bound : boundAt before location ≠ []
  · rw [if_pos bound, goes.hit bound]
    rfl
  have unbound := not_not.mp bound
  rw [if_neg bound]
  cases shows : before.server.owned.stopOnEntry with
  | true =>
    rw [goes.shown unbound shows]
    rfl
  | false =>
    rw [goes.left_ unbound shows]
    rfl

theorem RequestEffect.watcher_of_holds
    (holds : m.watcher.holds = true) (effect : RequestEffect host answers m next) :
    next.watcher = m.watcher := by
  cases effect with
  | arm _ free =>
    rw [free] at holds
    cases holds
  | cleanup _ effect =>
    cases effect with
    | _ => rfl
  | _ => rfl

/-- A section under way: what it is to write is settled, and the session has been asked to
continue unless that is still to be done. -/
structure InSection (before : Machine) (location : Debug.Location) (m : Machine)
    (state : Machine × List ContinueCall) : Prop where
  attached : Attached state.1
  slotted : Slotted state.1
  stops : state.1.stops = m.written.filter isStop ++ entryStops before location
  waits : state.1.watcher = .continuing → suppressed before location ∧ state.2 = []
  continues : state.1.watcher ≠ .continuing →
    if suppressed before location then ∃ call, state.2 = [call] ∧ call.Asks else state.2 = []

namespace InSection

variable {state : Machine × List ContinueCall}

theorem ends (inside : InSection before location m state)
    (free : state.1.watcher.holds = false) : SectionEnds before location m state := by
  refine ⟨free, ?_, inside.continues ?_⟩
  · have nothing : state.1.watcher.pending = [] := by
      cases at_ : state.1.watcher with
      | writing =>
        rw [at_] at free
        cases free
      | _ => rfl
    rw [← inside.stops, Machine.stops, events, nothing, append_nil, filter_isStop_reports]
  · intro at_
    rw [at_] at free
    cases free

theorem step (inside : InSection before location m state)
    (holds : state.1.watcher.holds = true) (taken : state.1.step host action = some next) :
    InSection before location m
      (next, state.2 ++ continueCalls state.1 next action) := by
  have effect := Effect.of_step taken
  have attached := inside.attached.step effect
  have slotted := inside.slotted.step inside.attached effect
  have stops := (stops_step holds effect).trans inside.stops
  have rests : next.watcher = state.1.watcher → continueCalls state.1 next action = [] →
      InSection before location m
        (next, state.2 ++ continueCalls state.1 next action) := by
    intro same none_
    rw [none_, append_nil]
    refine ⟨attached, slotted, stops, ?_, ?_⟩
    · rw [same]
      exact inside.waits
    · rw [same]
      exact inside.continues
  -- The watch goroutine holds the event lock, so only its own steps move the section on.
  cases effect with
  | read | stopReading | debugger => exact rests rfl rfl
  | handle effect => exact rests (RequestEffect.watcher_of_holds holds effect) rfl
  | watch effect =>
    cases effect with
    | receive at_ | eventsEnd at_ | receiveError at_
    | errorsEnd at_ | translate at_ | report at_ | finish at_ => cases watcher_at holds at_
    | continueRefused at_ known detached =>
      obtain ⟨isSuppressed, uncalled⟩ := inside.waits at_
      refine ⟨attached, slotted, stops, (by rintro ⟨⟩), ?_⟩
      intro _
      rw [if_pos isSuppressed]
      refine ⟨_, by simp only [uncalled, continueCalls, at_]; rfl, ?_⟩
      intro accepted
      simp [refused, detached] at accepted
    | continueEntry at_ known stepped =>
      obtain ⟨isSuppressed, uncalled⟩ := inside.waits at_
      refine ⟨attached, slotted, stops, (by rintro ⟨⟩), ?_⟩
      intro _
      rw [if_pos isSuppressed]
      refine ⟨_, by simp only [uncalled, continueCalls, at_]; rfl, ?_⟩
      intro _
      exact Debug.SessionMachine.pending_of_requestResume stepped
    | commitRefused at_ | commitEntry at_ | write at_ | leave at_ =>
      have continued := inside.continues (by simp [at_])
      have uncalled : ∀ next, continueCalls state.1 next .watch = [] := by
        intro next
        simp only [continueCalls, at_]
      rw [uncalled, append_nil]
      exact ⟨attached, slotted, stops, (by rintro ⟨⟩), fun _ => continued⟩

theorem attains (inside : InSection before location m state) :
    Attains (callStep host) (fun _ action => action = .watch)
      (SectionEnds before location m) state := by
  have unended : ∀ {state}, InSection before location m state →
      ¬ SectionEnds before location m state → state.1.watcher.holds = true := by
    intro state inside unended
    by_contra free
    exact unended (inside.ends (by simpa using free))
  refine attains_of_rank Nat.lt_wfRel.wf (fun state => state.1.watcher.span)
    (fun _ _ _ => ⟨.watch, rfl⟩) ?_ state inside
  rintro state action inside open_ rfl
  have holds := unended inside open_
  obtain ⟨next, taken⟩ : ∃ next, state.1.step host .watch = some next :=
    watch_enabled inside.attached inside.slotted holds
  refine ⟨_, by rw [callStep, taken]; rfl, inside.step holds taken, .inr ?_⟩
  exact watch_lowers holds (WatchEffect.of_watchStep taken)

end InSection

theorem GoesOn.inSection (goes : GoesOn before location m next)
    (attached : Attached next) (slotted : Slotted next) :
    InSection before location m (next, []) := by
  have shown : ¬ suppressed before location → next.watcher ≠ .continuing := by
    intro unsuppressed at_
    by_cases bound : boundAt before location = []
    · have shows : before.server.owned.stopOnEntry = true := by
        by_contra leaves
        exact unsuppressed ⟨bound, by simpa using leaves⟩
      cases at_.symm.trans (goes.shown bound shows)
    · cases at_.symm.trans (goes.hit bound)
  refine ⟨attached, slotted, goes.stops_eq, ?_, ?_⟩
  · intro at_
    refine ⟨?_, rfl⟩
    by_contra unsuppressed
    exact shown unsuppressed at_
  · intro other
    rw [if_neg fun isSuppressed => other (goes.left_ isSuppressed.1 isSuppressed.2)]

theorem GoesOn.classifies (goes : GoesOn before location m next)
    (attached : Attached next) (slotted : Slotted next) :
    Classifies host before location m next := by
  refine ⟨goes, ?_⟩
  intro last run
  have inside : InSection before location m last := by
    apply run.invariant
    · exact goes.inSection attached slotted
    · intro state action after inside holds taken
      obtain ⟨next, stepped, rfl⟩ := Option.map_eq_some_iff.mp taken
      exact inside.step holds stepped
  exact ⟨inside.ends, inside.attains⟩

variable {snapshot : Debug.SessionSnapshot}

theorem stoppedMessage_breakpoint (reason : snapshot.reason = some .breakpoint) :
    server.stoppedMessage snapshot = .stopped .breakpoint ""
      (snapshot.hitBreakpointIDs.map server.breakpoints.id) := by
  simp [stoppedMessage, reason]

theorem stoppedMessage_entry (entry : snapshot.reason = some .entry)
    (unhit : snapshot.hitBreakpointIDs = []) :
    server.stoppedMessage snapshot = .stopped .entry "" [] := by
  simp [stoppedMessage, entry, unhit]

theorem prepared_run (reached : Run (Machine.step host) (fun m action =>
      m.answersRequests host pos action = true) .new m) :
    Attached m ∧ Slotted m ∧ Armed m ∧ Prepared pos m := by
  apply reached.invariant
  · exact ⟨attached_new, slotted_new, armed_new, prepared_new⟩
  rintro state action after ⟨attached, slotted, armed, prepared⟩ allowed taken
  have effect := Effect.of_step taken
  exact ⟨attached.step effect, slotted.step attached effect, armed.step attached effect,
    prepared.step attached allowed effect⟩

theorem Frozen.id_eq (frozen : Frozen pos stop ids m) (member : binding ∈ stop.bindings) :
    m.server.breakpoints.id binding.id = ids.id binding.id ∧ ids.id binding.id ≠ 0 := by
  obtain ⟨number, positive⟩ := frozen.sound.id_of_knows (frozen.knows binding member)
  have same := number.trans (frozen.numbered binding member)
  refine ⟨same, ?_⟩
  rw [← same]
  exact positive

variable {event : Debug.Event}

theorem Frozen.goesOn (frozen : Frozen pos (frozenStop before) before.server.breakpoints m)
    (owned_eq : m.server.owned = before.server.owned)
    (at_ : m.watcher = .translating event) (stopped : event.snapshot.state = .stopped)
    (entry : event.snapshot.reason = some .entry)
    (unhit : event.snapshot.hitBreakpointIDs = []) (effect : WatchEffect m next) :
    GoesOn before event.snapshot.location m next := by
  have hits : (frozenStop before).entryHits m.server.breakpoints
      event.snapshot.location = entryIDs before event.snapshot.location :=
    InitialStop.entryHits_congr fun binding member => (frozen.id_eq member).1
  have positive : 0 ∉ entryIDs before event.snapshot.location := by
    intro zero
    obtain ⟨binding, member, _, numbered⟩ := InitialStop.mem_entryHits.mp zero
    exact (frozen.id_eq member).2 numbered
  have resolved := @InitialStop.resolve_entry event.snapshot m.server.owned.stopOnEntry
    m.server.breakpoints (frozenStop before) entry unhit
  rw [hits, Ne, entryIDs_eq_nil] at resolved
  have other : ∀ {pc : WatcherPC}, m.watcher = pc → .translating event = pc := by
    intro pc at'
    rw [← at_, at']
  cases effect with
  | translate at' _ effect =>
    cases other at'
    cases effect with
    | created state | running state => cases stopped.symm.trans state
    | ended terminal =>
      rw [Debug.Event.terminal, stopped] at terminal
      cases terminal
    | laterStop state none_ =>
      rw [frozen.initial] at none_
      cases none_
    | firstStop _ initial shown =>
      cases frozen.initial.symm.trans initial
      refine ⟨InitialStop.nodup_entryHits, positive, fun _ => mem_entryIDs, rfl, rfl, ?_, ?_, ?_⟩
      · intro bound
        rcases resolved with ⟨_, _, reason, numbers⟩ | ⟨unbound, _⟩
        · rw [← numbers]
          exact congrArg (fun msg => WatcherPC.writing [msg] .commandStopped .events)
            (stoppedMessage_breakpoint reason)
        · exact absurd unbound bound
      · intro unbound _
        rcases resolved with ⟨bound, _⟩ | ⟨_, unchanged⟩
        · exact absurd unbound bound
        · rw [unchanged]
          exact congrArg (fun msg => WatcherPC.writing [msg] .commandStopped .events)
            (stoppedMessage_entry entry unhit)
      · intro unbound leaves
        rcases resolved with ⟨bound, _⟩ | ⟨_, unchanged⟩
        · exact absurd unbound bound
        · rw [unchanged, owned_eq, leaves] at shown
          cases shown
    | suppressed _ initial left_ =>
      cases frozen.initial.symm.trans initial
      rcases resolved with ⟨bound, shown, _⟩ | ⟨unbound, unchanged⟩
      · rw [shown] at left_
        cases left_
      refine ⟨InitialStop.nodup_entryHits, positive, fun _ => mem_entryIDs, rfl, rfl,
        fun bound => absurd unbound bound, ?_, fun _ _ => rfl⟩
      intro _ shows
      rw [unchanged, owned_eq, shows] at left_
      cases left_
  | receive at' | eventsEnd at' | receiveError at'
  | errorsEnd at' | continueRefused at' | continueEntry at'
  | commitRefused at' | commitEntry at' | write at' | leave at'
  | report at' | finish at' => cases other at'

/-- The first stop of the program, an entry without hits, is classified by the set that was
installed when the start was accepted, whatever is replaced before the stop is handled. -/
theorem initial_stop_classified (reached : Run (Machine.step host) (fun m action =>
      m.answersRequests host pos action = true) .new before)
    (accepted : before.step host action = some started)
    (starts : started.startedBy ≠ before.startedBy)
    (live : Run (Machine.step host) (fun m action =>
      m.answersRequests host pos action = true ∧ m.handlesNoStop action = true) started m)
    (at_ : m.watcher = .translating event) (stopped : event.snapshot.state = .stopped)
    (entry : event.snapshot.reason = some .entry) (unhit : event.snapshot.hitBreakpointIDs = [])
    (handled : m.step host .watch = some next) :
    Classifies host before event.snapshot.location m next := by
  obtain ⟨attached, slotted, armed, prepared⟩ := prepared_run reached
  have effect := Effect.of_step accepted
  have held : Attached m ∧ Slotted m ∧ Underway pos (frozenStop before)
      before.server.breakpoints before.server.owned m := by
    apply live.invariant
    · exact ⟨attached.step effect, slotted.step attached effect,
        underway_of_start attached armed prepared effect starts⟩
    · rintro state action after ⟨attached, slotted, underway⟩ allowed taken
      have effect := Effect.of_step taken
      exact ⟨attached.step effect, slotted.step attached effect,
        underway.step rfl attached allowed.1 allowed.2 effect⟩
  obtain ⟨attached, slotted, underway⟩ := held
  have frozen : Frozen pos (frozenStop before) before.server.breakpoints m := by
    rcases underway.course with frozen | past | ⟨resting, _⟩
    · exact frozen
    · rw [at_] at past
      cases past
    · rw [at_] at resting
      cases resting
  have goes := frozen.goesOn underway.owned_eq at_ stopped entry unhit
    (WatchEffect.of_watchStep handled)
  have translates := Effect.of_step handled
  exact goes.classifies (attached.step translates) (slotted.step attached translates)

/-- The debugger binds the breakpoint of the first line to its first column, or it has
none to bind. -/
def bindingFirst (results : List Breakpoint) : Answers :=
  { succeeding false with replaced := .ok results }

def boundAtFirst : Breakpoint :=
  ⟨7, true, ⟨"/query.fql", ⟨1, 0⟩⟩, ⟨"/query.fql", ⟨1, 1⟩⟩⟩

/-- One breakpoint is set, and the program is configured. -/
def configuringSchedule : List Action :=
  askedSchedule ++ [.handle (bindingFirst [boundAtFirst]), .read .configurationDone]

/-- The breakpoint is cleared when the program has started and stopped at its entry. -/
def clearingSchedule : List Action :=
  [.debugger (.commandReturns 0 (some (stopAt .entry 1)) []),
    .read (.setBreakpoints { firstLine with breakpoints := [] }),
    .handle (bindingFirst []), .watch, .watch, .watch, .watch]

/-- The event in the hands of the watch goroutine. -/
def translated (m : Machine) : Option Debug.Event :=
  match m.watcher with
  | .translating event => some event
  | _ => none

theorem translating_of_translated (holds : m.translated = some event) :
    m.watcher = .translating event := by
  unfold translated at holds
  split at holds
  next other at_ =>
    cases holds
    exact at_
  · cases holds

/-- The entry is reported as a hit of the breakpoint, although it was cleared before the
stop was handled. -/
theorem initial_stop_classified_cleared :
    ∃ before started m next event last,
      Run (Machine.step plainHost) (fun m action =>
        m.answersRequests plainHost (fun _ => ⟨"/query.fql", ⟨1, 0⟩⟩) action = true)
          .new before ∧
      before.step plainHost (.handle (succeeding false)) = some started ∧
      Run (Machine.step plainHost) (fun m action =>
        m.answersRequests plainHost (fun _ => ⟨"/query.fql", ⟨1, 0⟩⟩) action = true ∧
          m.handlesNoStop action = true) started m ∧
      m.watcher = .translating event ∧ m.installed "/query.fql" = [] ∧
      m.step plainHost .watch = some next ∧
      Classifies plainHost before event.snapshot.location m next ∧
      Run (callStep plainHost) (fun state _ => state.1.watcher.holds = true) (next, []) last ∧
      SectionEnds before event.snapshot.location m last ∧
      last.1.written.filter isStop = [.stopped .breakpoint "" [1]] ∧ last.2 = [] := by
  have executed : ((execute (guarded (Machine.step plainHost) fun m action =>
      m.answersRequests plainHost (fun _ => ⟨"/query.fql", ⟨1, 0⟩⟩) action = true)
        .new configuringSchedule).bind fun before =>
      (before.step plainHost (.handle (succeeding false))).bind fun started =>
        (execute (guarded (Machine.step plainHost) fun m action =>
          m.answersRequests plainHost (fun _ => ⟨"/query.fql", ⟨1, 0⟩⟩) action = true ∧
            m.handlesNoStop action = true) started clearingSchedule).bind fun m =>
          m.translated.bind fun event =>
            (m.step plainHost .watch).bind fun next =>
              (execute (guarded (callStep plainHost) fun state _ =>
                state.1.watcher.holds = true) (next, []) [.watch, .watch]).map fun last =>
              (before.startedBy, started.startedBy, m.installed "/query.fql",
                (event.snapshot.state, event.snapshot.reason,
                  event.snapshot.hitBreakpointIDs),
                last.1.watcher.holds, last.1.written.filter isStop, last.2.length)) =
      some (none, some 3, [], (.stopped, some .entry, []), false,
        [.stopped .breakpoint "" [1]], 0) := by
    rfl
  obtain ⟨before, first, executed⟩ := Option.bind_eq_some_iff.mp executed
  obtain ⟨started, accepted, executed⟩ := Option.bind_eq_some_iff.mp executed
  obtain ⟨m, second, executed⟩ := Option.bind_eq_some_iff.mp executed
  obtain ⟨event, holds, executed⟩ := Option.bind_eq_some_iff.mp executed
  obtain ⟨next, handled, executed⟩ := Option.bind_eq_some_iff.mp executed
  obtain ⟨last, third, facts⟩ := Option.map_eq_some_iff.mp executed
  simp only [Prod.mk.injEq] at facts
  obtain ⟨unstarted, startedBy, cleared, ⟨stopped, entry, unhit⟩, free, shown, uncalled⟩ := facts
  have reached := run_of_guarded (reaches_of_execute first)
  have live := run_of_guarded (reaches_of_execute second)
  have ended := run_of_guarded (reaches_of_execute third)
  have at_ := translating_of_translated holds
  have starts : started.startedBy ≠ before.startedBy := by
    rw [startedBy, unstarted]
    simp
  have classified :=
    initial_stop_classified reached accepted starts live at_ stopped entry unhit handled
  exact ⟨before, started, m, next, event, last, reached, accepted, live, at_, cleared,
    handled, classified, ended, (classified.ends last ended).1 free, shown,
    length_eq_zero_iff.mp uncalled⟩

end Machine

end Ferretd.Dap
