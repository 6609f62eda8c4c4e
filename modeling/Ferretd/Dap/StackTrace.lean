import Ferretd.Library.Tally
import Ferretd.Dap.Responses

/-!
# Paging of stack traces

A `stackTrace` is answered with the frames from its start up to its end, each under a new
handle for its index among all frames, unless the end is beyond the machine integers.
-/

namespace Ferretd.Dap.Machine

open Library List

variable {handles : List Int} {host : Host} {m : Machine} {req startFrame : Nat}
  {answers : Answers} {page : List Debug.Frame} {total : Nat} {readAt : Option Nat}

/-- The handles of the first frames have been given, and nothing else has changed that
the response depends on. -/
structure Allocates (host : Host) (before : Machine) (req startFrame : Nat)
    (page : List Debug.Frame) (total : Nat) (readAt : Option Nat) (handles : List Int)
    (after : Machine) : Prop where
  at_ : after.request = .allocating req (.frames startFrame page total) handles readAt
  written : after.written = before.written
  converts : stackFrame host after.server = stackFrame host before.server
  given : ∀ offset handle, handles[offset]? = some handle →
    after.server.handles.frames.lookup handle = some (startFrame + offset) ∧
      handle < after.server.handles.next

theorem allocates (converts : ∀ frame ∈ page, ∃ item, stackFrame host m.server frame = .ok item)
    (at_ : m.request = .allocating req (.frames startFrame page total) [] readAt)
    (count : Nat) (within : count ≤ page.length) :
    ∃ after handles, handles.length = count ∧
      execute (step host) m (List.replicate count (.handle answers)) = some after ∧
      Allocates host m req startFrame page total readAt handles after := by
  induction count with
  | zero => exact ⟨m, [], rfl, rfl, at_, rfl, rfl, by simp⟩
  | succ count ih =>
    obtain ⟨middle, handles, length, executed, allocates⟩ := ih (by omega)
    obtain ⟨item, converted⟩ := converts page[count] (getElem_mem _)
    have payload : (Reading.payloads host middle.server (.frames startFrame page total))[
        handles.length]? = some (.ok (.frame (startFrame + count))) := by
      have inside : page[count]? = some page[count] := getElem?_eq_getElem within
      rw [length]
      simp [Reading.payloads, inside, allocates.converts, converted, Except.map]
    refine ⟨middle.allocateHandle host req (.frames startFrame page total) handles readAt,
      handles ++ [middle.server.handles.next], by simp [length], ?_, ?_⟩
    · rw [replicate_succ', execute_append, executed, Option.bind_some, execute, step,
        handleStep, allocates.at_]
      rfl
    simp only [allocateHandle, payload]
    refine ⟨rfl, allocates.written, allocates.converts, ?_⟩
    intro offset handle found
    rcases getElem?_concat_cases found with ⟨rfl, rfl⟩ | before
    · rw [length]
      exact ⟨AList.lookup_insert _, Int.lt_succ _⟩
    · obtain ⟨known, below⟩ := allocates.given offset handle before
      exact ⟨(AList.lookup_insert_ne (Int.ne_of_lt below)).trans known,
        Int.lt_trans below (Int.lt_succ _)⟩

/-- A frame of the response is the client's view of a frame under a handle. -/
def Displays (host : Host) (server : Server) (frame : Debug.Frame) (item : StackFrame) : Prop :=
  (stackFrame host server frame).map (fun view => { view with id := item.id }) = .ok item

theorem displays_zip (startFrame total : Nat) {server : Server}
    (length : handles.length = page.length)
    (converts : ∀ frame ∈ page, ∃ item, stackFrame host server frame = .ok item) :
    ∃ items, Reading.body host server handles (.frames startFrame page total) =
        .stackTrace items total ∧
      items.map StackFrame.id = handles ∧ List.Forall₂ (Displays host server) page items := by
  refine ⟨_, rfl, ?_⟩
  induction page generalizing handles with
  | nil =>
    rw [length_eq_zero_iff.mp length]
    exact ⟨rfl, .nil⟩
  | cons frame rest ih =>
    match handles with
    | [] => cases length
    | handle :: others =>
      obtain ⟨view, converted⟩ := converts frame (by simp)
      obtain ⟨ids, shown⟩ := ih (by simpa using length)
        fun frame member => converts frame (mem_cons_of_mem _ member)
      simp only [zip_cons_cons, filterMap_cons, converted, Except.toOption,
        Option.map_some, map_cons]
      exact ⟨congrArg _ ids, .cons (by rw [Displays, converted]; rfl) shown⟩

/-- A stack trace fails where its start is not a number of frames.  Otherwise it is
answered with the frames from the start to the end of the page, each under a current
handle for its index among all frames, exactly if the end of the page is a machine integer
or all frames are asked for; beyond the machine integers it panics. -/
theorem stackTrace_paged_iff {startFrame levels : Int64} {frames : List Debug.Frame}
    (configured : m.server.configuredDebug true = true)
    (read : m.inspect answers.ctxErr answers.frames = .ok frames)
    (converts : ∀ frame ∈ frames, ∃ item, stackFrame host m.server frame = .ok item)
    (counted : (frames.length : Int) < 2 ^ 63) :
    let next := m.handleStackTrace req threadID startFrame levels answers
    if startFrame.toInt < 0 ∨ frames.length < startFrame.toInt then
      next = m.fail req "startFrame is invalid"
    else
      (next ≠ m.panic ∧ ∃ final page items,
        page = (frames.drop startFrame.toInt.toNat).take
          (pageEnd startFrame.toInt levels.toInt frames.length - startFrame.toInt).toNat ∧
        execute (step host) next (List.replicate (page.length + 1) (.handle answers)) = some final ∧
        final.written = m.written ++ [.response req (.ok (.stackTrace items frames.length))] ∧
        List.Forall₂ (Displays host m.server) page items ∧
        ∀ offset item, items[offset]? = some item →
          final.server.handles.frameIndex item.id = (startFrame.toInt.toNat + offset, .current)) ↔
      levels.toInt ≤ 0 ∨ startFrame.toInt + levels.toInt < 2 ^ 63 := by
  have negative : startFrame < 0 ↔ startFrame.toInt < 0 := by
    rw [Int64.lt_iff_toInt_lt]
    rfl
  simp only [handleStackTrace, configured, read, negative, Bool.true_eq_false, ne_eq,
    not_true_eq_false, or_self, if_false]
  split
  · rfl
  rename_i started
  have started : 0 ≤ startFrame.toInt ∧ startFrame.toInt ≤ frames.length := by omega
  by_cases inside : levels.toInt ≤ 0 ∨ startFrame.toInt + levels.toInt < 2 ^ 63
  · have ends := @stackTraceEnd_of_inside startFrame levels frames.length inside started.1
    have ordered : ¬ pageEnd startFrame.toInt levels.toInt frames.length < startFrame.toInt := by
      unfold pageEnd
      split <;> omega
    simp only [pageFrames, ends, if_neg ordered, inside, iff_true]
    refine ⟨fun same => (by cases congrArg Machine.request same), ?_⟩
    generalize paged : (frames.drop startFrame.toInt.toNat).take _ = page
    have converts : ∀ frame ∈ page, ∃ item, stackFrame host m.server frame = .ok item := by
      intro frame member
      rw [← paged] at member
      exact converts frame (mem_of_mem_drop (mem_of_mem_take member))
    obtain ⟨middle, handles, length, executed, allocated⟩ :=
      @allocates host { m with request := .allocating req _ [] m.pauseNumber }
        req startFrame.toInt.toNat answers page frames.length _ converts rfl page.length
        (Nat.le_refl _)
    rw [← allocated.converts] at converts
    obtain ⟨items, body, ids, shown⟩ :=
      displays_zip startFrame.toInt.toNat frames.length length converts
    have same : Displays host middle.server = Displays host m.server := by
      funext frame item
      rw [Displays, allocated.converts]
      rfl
    rw [same] at shown
    refine ⟨middle.respond req (.ok (.stackTrace items frames.length)), page, items, rfl,
      ?_, by rw [respond, write, allocated.written], shown, ?_⟩
    · have none_ : (Reading.payloads host middle.server
          (.frames startFrame.toInt.toNat page frames.length))[handles.length]? = none := by
        simp [Reading.payloads, length]
      rw [replicate_succ', execute_append, executed, Option.bind_some, execute, step,
        handleStep, allocated.at_]
      simp only [allocateHandle, none_, body]
      rfl
    · intro offset item found
      have given : handles[offset]? = some item.id := by
        rw [← ids, getElem?_map, found]
        rfl
      simp [respond, write, HandleTable.frameIndex, HandleTable.statusOf,
        (allocated.given offset _ given).1]
  · have positive : 0 < levels := Int64.lt_iff_toInt_lt.mpr (by simp; omega)
    have overflows : (startFrame + levels).toInt < 0 := by
      rw [Int64.toInt_add, Int.bmod]
      have upper := levels.toInt_lt
      omega
    have beyond : stackTraceEnd startFrame levels frames.length < startFrame.toInt := by
      rw [stackTraceEnd, if_pos ⟨positive, by omega⟩]
      omega
    simp only [pageFrames, if_pos beyond, inside, not_true_eq_false, false_and]

theorem reaches_paused : ∃ m, Reaches (step plainHost) .new m ∧
    m.server.configuredDebug true = true ∧
    m.inspect [] (succeeding true).frames = (succeeding true).frames ∧
    ∀ frame ∈ (succeeding true).frames.toOption.getD [],
      ∃ item, stackFrame plainHost m.server frame = .ok item := by
  have executed : (execute (step plainHost) .new (startSchedule true ++
      List.replicate 5 .watch)).map (fun m => (m.server.configuredDebug true,
        m.inspect [] (succeeding true).frames,
        ((succeeding true).frames.toOption.getD []).map (stackFrame plainHost m.server))) =
      some (true, (succeeding true).frames,
        [.ok ⟨0, "main", "/query.fql", "/query.fql", 1, 1⟩]) := by
    rfl
  obtain ⟨m, reached, facts⟩ := Option.map_eq_some_iff.mp executed
  obtain ⟨configured, read, converted⟩ := by simpa only [Prod.mk.injEq] using facts
  refine ⟨m, reaches_of_execute reached, configured, read, ?_⟩
  intro frame member
  have shown := mem_map_of_mem (f := stackFrame plainHost m.server) member
  rw [converted, mem_singleton] at shown
  exact ⟨_, shown⟩

theorem stackTrace_paged_first : ∃ m, Reaches (step plainHost) .new m ∧
    ∃ final items, execute (step plainHost)
        (m.handleStackTrace 3 threadID 0 1 (succeeding true))
        (List.replicate 2 (.handle (succeeding true))) = some final ∧
      final.written = m.written ++ [.response 3 (.ok (.stackTrace items 1))] ∧
      items.length = 1 := by
  obtain ⟨m, reached, configured, read, converts⟩ := reaches_paused
  have paged := @stackTrace_paged_iff plainHost m 3 (succeeding true) 0 1 _ configured read
    converts (by decide)
  rw [if_neg (by decide)] at paged
  obtain ⟨-, final, page, items, rfl, executed, written, shown, -⟩ :=
    paged.mpr (Or.inr (by decide))
  exact ⟨m, reached, final, items, executed, written, shown.length_eq.symm⟩

/-- The frames from the second on, as many as there can be. -/
theorem stackTrace_paged_overflow : ∃ m, Reaches (step plainHost) .new m ∧
    m.server.configuredDebug true = true ∧
    m.inspect [] (succeeding true).frames = (succeeding true).frames ∧
    m.handleStackTrace 3 threadID 1 Int64.maxValue (succeeding true) = m.panic := by
  obtain ⟨m, reached, configured, read, -⟩ := reaches_paused
  refine ⟨m, reached, configured, read, ?_⟩
  have inspected : m.inspect (succeeding true).ctxErr (succeeding true).frames =
    (succeeding true).frames := read
  rw [handleStackTrace, configured, if_neg (by simp), inspected]
  rfl

end Ferretd.Dap.Machine
