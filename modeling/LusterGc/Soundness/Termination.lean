import LusterGc.Soundness.Sweep
import Mathlib.Data.Finset.Card

/-! # `do_collection` returns when no trace is blocked

The loop of `do_collection` leaves through a `break` or when its budget runs out. With no trace
blocked it cannot spin. A pass of propagation either drops a queue entry or blackens a box, and
every entry the tracer queues turns a white box dark gray, so twice the white boxes plus the
queue's length goes down. A pass of the sweep takes one box of the list the cursor runs through.
The pass after the sweep breaks. So, given enough fuel, `collect_garbage` returns, asleep, and
so does the slice an `allocate` runs. With a trace blocked the loop may break while propagating;
`collect_garbage` then returns awake only on a gray queue of blocked boxes.
-/

namespace LusterGc

namespace Heap

variable {heap heap' : Heap}

/-- The white boxes. -/
def whites (heap : Heap) : Finset Ptr :=
  (Finset.range heap.fresh).filter fun address =>
    (heap.boxes address).any fun gcBox => gcBox.flags.color = .white

theorem mem_whites {address : Ptr} :
    address ∈ heap.whites ↔ address < heap.fresh ∧
      ∃ gcBox, heap.boxes address = some gcBox ∧ gcBox.flags.color = .white := by
  simp only [whites, Finset.mem_filter, Finset.mem_range]
  cases heap.boxes address <;> simp

/-- Marking never whitens. -/
theorem Shades.whites_subset (shades : Shades heap heap') : heap'.whites ⊆ heap.whites := by
  intro address member
  obtain ⟨below, gcBox', found, white⟩ := mem_whites.mp member
  exact mem_whites.mpr ⟨shades.fresh ▸ below, shades.white address gcBox' found white⟩

theorem Shades.unused (shades : Shades heap heap')
    (unused : ∀ address, heap.fresh ≤ address → heap.boxes address = none) :
    ∀ address, heap'.fresh ≤ address → heap'.boxes address = none := by
  intro address above
  have same := shades.frame address
  rw [unused address (shades.fresh ▸ above), Option.map_none', Option.map_eq_none'] at same
  exact same

/-- Recolouring a box to anything but white takes it out of the white boxes. -/
theorem whites_recolor_subset (heap : Heap) (address : Ptr) {color : GcColor} (dark : color ≠ .white) :
    (heap.recolor address color).whites ⊆ heap.whites.erase address := by
  intro query member
  obtain ⟨below, gcBox', found, white⟩ := mem_whites.mp member
  rw [recolor_boxes] at found
  split at found
  · obtain ⟨gcBox, -, rfl⟩ := Option.map_eq_some'.mp found
    simp [dark] at white
  · exact Finset.mem_erase.mpr ⟨‹_›, mem_whites.mpr ⟨by simpa using below, gcBox', found, white⟩⟩

end Heap

/-- Marking keeps every payload, so a trace that was not blocked stays so. -/
theorem Heap.Shades.unblocked {heap heap' : Heap} (shades : heap.Shades heap')
    (unblocked : heap.Every fun gcBox => gcBox.value.traceBlocked = false) :
    heap'.Every fun gcBox => gcBox.value.traceBlocked = false := by
  intro address gcBox' found
  have same := shades.frame address
  rw [found] at same
  obtain ⟨gcBox, found', framed⟩ := Option.map_eq_some'.mp same.symm
  have value : gcBox.value = gcBox'.value := congrArg (fun frame => frame.2.2.2.1) framed
  rw [← value]
  exact unblocked address gcBox found'

/-- What the tracer does to the count: it may queue a pointer only by turning a white box dark
gray. -/
theorem GcTracer.trace_whites {arena next : GcArena} {gc : Ptr}
    (unused : ∀ address, arena.heap.fresh ≤ address → arena.heap.boxes address = none)
    (success : GcTracer.trace arena gc = .ok next) :
    next.heap.whites ⊆ arena.heap.whites ∧
      next.heap.whites.card + next.gray.length ≤ arena.heap.whites.card + arena.gray.length := by
  have shades := (GcTracer.trace_marks success).1.shades
  refine ⟨shades.whites_subset, ?_⟩
  obtain ⟨gcBox, found, success⟩ := bind_eq_ok.mp success
  rw [Heap.get_eq_ok] at found
  have below : gc < arena.heap.fresh := by
    by_contra above
    simp [unused gc (not_lt.mp above)] at found
  revert success
  cases white : gcBox.flags.color <;> simp only [GcFlags.needsTrace_eq_true, ite_true] <;>
    intro success <;> cases success
  · have erased := arena.heap.whites_recolor_subset gc (show GcColor.darkGray ≠ .white by decide)
    have member : gc ∈ arena.heap.whites := Heap.mem_whites.mpr ⟨below, gcBox, found, white⟩
    have smaller := Finset.card_le_card erased
    rw [Finset.card_erase_of_mem member] at smaller
    have positive := Finset.card_pos.mpr ⟨gc, member⟩
    show (arena.heap.recolor gc .darkGray).whites.card + (gc :: arena.gray).length ≤ _
    simp only [List.length_cons]
    omega
  all_goals
    exact Nat.add_le_add_right (Finset.card_le_card shades.whites_subset) _

theorem GcTracer.foldlM_trace_whites {children : List Ptr} {arena next : GcArena}
    (folded : children.foldlM GcTracer.trace arena = .ok next)
    (unused : ∀ address, arena.heap.fresh ≤ address → arena.heap.boxes address = none) :
    next.heap.whites ⊆ arena.heap.whites ∧
      next.heap.whites.card + next.gray.length ≤ arena.heap.whites.card + arena.gray.length := by
  induction children generalizing arena with
  | nil =>
    cases folded
    exact ⟨subset_rfl, le_rfl⟩
  | cons child rest ih =>
    rw [List.foldlM_cons] at folded
    obtain ⟨middle, first, folded⟩ := bind_eq_ok.mp folded
    obtain ⟨subset, counted⟩ := GcTracer.trace_whites unused first
    obtain ⟨subset', counted'⟩ :=
      ih folded ((GcTracer.trace_marks first).1.shades.unused unused)
    exact ⟨subset'.trans subset, counted'.trans counted⟩

namespace GcArena

/-- What propagation has still to do, at most: twice the white boxes, each of which the tracer
may queue once, plus the queue. -/
def markWork (arena : GcArena) : ℕ := 2 * arena.heap.whites.card + arena.gray.length

/-- A pass of propagation over a non-empty queue with no trace blocked does not break, and it
lowers `markWork`. -/
theorem propagate_markWork {arena : GcArena} {workLeft : Budget} {blockedGrayCount : ℕ}
    {pass : Pass}
    (unused : ∀ address, arena.heap.fresh ≤ address → arena.heap.boxes address = none)
    (unblocked : arena.heap.Every fun gcBox => gcBox.value.traceBlocked = false)
    (queued : arena.gray ≠ []) (success : arena.propagate workLeft blockedGrayCount = .ok pass) :
    pass.stop = false ∧ pass.arena.markWork < arena.markWork ∧
      (workLeft = .infinite → pass.workLeft = .infinite) := by
  obtain ⟨gcBoxPtr, gray, queue⟩ := List.exists_cons_of_ne_nil queued
  simp only [propagate, queue] at success
  obtain ⟨gcBox, found, success⟩ := bind_eq_ok.mp success
  rw [Heap.get_eq_ok] at found
  have length : arena.gray.length = gray.length + 1 := by simp [queue]
  split at success
  · obtain ⟨⟨traced, marked⟩, trace, success⟩ := bind_eq_ok.mp success
    have traceable := unblocked gcBoxPtr gcBox found
    have always := (GcValue.trace_marks trace).1
    rw [traceable] at always
    subst always
    unfold GcValue.trace at trace
    simp only [traceable, Bool.false_eq_true, ite_false] at trace
    obtain ⟨folded, foldedOk, trace⟩ := bind_eq_ok.mp trace
    cases trace
    cases success
    obtain ⟨subset, counted⟩ := GcTracer.foldlM_trace_whites foldedOk unused
    have blackened := Finset.card_le_card
      ((marked.heap.whites_recolor_subset gcBoxPtr (show GcColor.black ≠ .white by decide)).trans
        (Finset.erase_subset _ _))
    have shrunk := Finset.card_le_card subset
    refine ⟨rfl, ?_, fun infinite => by simp [infinite]⟩
    simp only [markWork, GcArena.recolor, length] at counted shrunk blackened ⊢
    omega
  · cases success
    exact ⟨rfl, by simp [markWork, length], id⟩

/-- The loop leaves within `fuel` passes; with no bound on the work, it leaves only asleep. -/
def Returns (fuel : ℕ) (arena : GcArena) (workLeft : Budget) (blockedGrayCount : ℕ) : Prop :=
  (arena.collectionLoop fuel workLeft blockedGrayCount).isSome ∧
    (workLeft = .infinite → ∀ result,
      arena.collectionLoop fuel workLeft blockedGrayCount = some (.ok result) →
        result.1.phase = .sleeping)

/-- Once asleep, the loop leaves at its next pass. -/
theorem collectionLoop_sleeping {arena : GcArena} (sleeping : arena.phase = .sleeping) (fuel : ℕ)
    (workLeft : Budget) (blockedGrayCount : ℕ) :
    arena.collectionLoop (fuel + 1) workLeft blockedGrayCount = some (.ok (arena, workLeft)) := by
  cases positive : workLeft.positive <;>
    simp [collectionLoop, positive, collectionStep, sleeping, pure, Except.pure]

theorem returns_sleeping {arena : GcArena} (sleeping : arena.phase = .sleeping) (fuel : ℕ)
    (workLeft : Budget) (blockedGrayCount : ℕ) :
    Returns (fuel + 1) arena workLeft blockedGrayCount := by
  refine ⟨by simp [collectionLoop_sleeping sleeping], fun _ result left => ?_⟩
  rw [collectionLoop_sleeping sleeping] at left
  cases left
  exact sleeping

/-- The loop returns if every pass it can make goes on, without a `break` and with the budget
still unbounded if it was, to a loop that returns. -/
theorem returns_succ {fuel : ℕ} {arena : GcArena} {workLeft : Budget} {blockedGrayCount : ℕ}
    (next : ∀ pass, arena.collectionStep workLeft blockedGrayCount = .ok pass →
      pass.stop = false ∧ (workLeft = .infinite → pass.workLeft = .infinite) ∧
        Returns fuel pass.arena pass.workLeft pass.blockedGrayCount) :
    Returns (fuel + 1) arena workLeft blockedGrayCount := by
  cases positive : workLeft.positive
  · refine ⟨by simp [collectionLoop, positive], fun infinite => ?_⟩
    simp [infinite] at positive
  cases stepped : arena.collectionStep workLeft blockedGrayCount with
  | error fault =>
    refine ⟨by simp [collectionLoop, positive, stepped], fun _ result left => ?_⟩
    simp [collectionLoop, positive, stepped] at left
  | ok pass =>
    obtain ⟨going, unbounded, returns⟩ := next pass stepped
    have loop : arena.collectionLoop (fuel + 1) workLeft blockedGrayCount =
        pass.arena.collectionLoop fuel pass.workLeft pass.blockedGrayCount := by
      rw [collectionLoop_of_pass positive stepped, going]
      rfl
    rw [Returns, loop]
    exact ⟨returns.1, fun infinite => returns.2 (unbounded infinite)⟩

/-- The sweep leaves the loop within the length of what it has still to take, and two passes
more. -/
theorem returns_of_sweepProgress {first : GcArena} {cells : List Ptr} (list : SweepList first cells) :
    ∀ fuel {arena : GcArena} {visited : List (Ptr × GcColor)} {rest : List Ptr},
      SweepProgress first cells arena visited rest → arena.phase = .sweeping →
      rest.length + 2 ≤ fuel → ∀ workLeft blockedGrayCount,
        Returns fuel arena workLeft blockedGrayCount := by
  intro fuel
  induction fuel with
  | zero => intro _ _ _ _ _ enough; omega
  | succ fuel ih =>
    intro arena visited rest progress sweeping enough workLeft blockedGrayCount
    refine returns_succ fun pass success => ?_
    rw [collectionStep_of_sweeping sweeping] at success
    obtain ⟨stop, -, outcome⟩ := sweepStep_eq_ok success
    refine ⟨stop, ?_, ?_⟩
    · rcases outcome with ⟨-, same, -⟩ | ⟨_, _, -, -, ⟨-, spent, -⟩ | ⟨-, same, -⟩⟩ <;>
        intro infinite <;> simp_all
    rcases outcome with ⟨atEnd, -, arenaIs⟩ |
      ⟨sweepPtr, gcBox, cursorAt, found, ⟨white, -, unlinked, unlinking, -, arenaIs⟩ | ⟨kept, -, arenaIs⟩⟩
    · obtain ⟨fuel, rfl⟩ : ∃ smaller, fuel = smaller + 1 := ⟨fuel - 1, by omega⟩
      exact returns_sleeping (by rw [arenaIs]) _ _ _
    · obtain ⟨rest', next'⟩ := progress.free list cursorAt found unlinking arenaIs
      have lengths := congrArg List.length (progress.split.symm.trans next'.split)
      simp only [List.length_append, List.length_map, List.length_singleton] at lengths
      obtain ⟨-, -, -, phase, -⟩ := unlink_frame unlinking
      exact ih next' (arenaIs ▸ phase.trans sweeping) (by omega) _ _
    · obtain ⟨color, heap, cursor, prev, remembered, phase⟩ : ∃ color,
          pass.arena.heap = arena.heap.recolor sweepPtr color ∧
          pass.arena.sweep = gcBox.next ∧ pass.arena.sweepPrev = some sweepPtr ∧
          pass.arena.rememberedSize = arena.rememberedSize + gcBox.size ∧
          pass.arena.phase = arena.phase := by
        rw [arenaIs]
        split <;> exact ⟨_, rfl, rfl, rfl, rfl, rfl⟩
      obtain ⟨rest', next'⟩ := progress.keep list cursorAt found kept heap cursor prev remembered
      have lengths := congrArg List.length (progress.split.symm.trans next'.split)
      simp only [List.length_append, List.length_map, List.length_singleton] at lengths
      exact ih next' (phase.trans sweeping) (by omega) _ _

/-- Propagation with no trace blocked leaves the loop, through the sweep, within `markWork`
passes and the length of the list, and three more. -/
theorem returns_of_propagating {cells : List Ptr} {pending : ℕ} :
    ∀ fuel {arena : GcArena}, ListShape arena cells pending → arena.phase = .propagating →
      (arena.heap.Every fun gcBox => gcBox.value.traceBlocked = false) →
      arena.markWork + cells.length + 3 ≤ fuel → ∀ workLeft blockedGrayCount,
        Returns fuel arena workLeft blockedGrayCount := by
  intro fuel
  induction fuel with
  | zero => intro _ _ _ _ enough; omega
  | succ fuel ih =>
    intro arena shape propagating unblocked enough workLeft blockedGrayCount
    refine returns_succ fun pass success => ?_
    rw [collectionStep_of_propagating propagating] at success
    by_cases empty : arena.gray = []
    · rw [propagate_start empty] at success
      cases success
      have started := shape.startSweep propagating
      have unset := shape.sweepPrev_none (by simp [propagating])
      exact ⟨rfl, id, returns_of_sweepProgress (started.sweepList (List.nil_append cells).symm) fuel
        (SweepProgress.start shape.chain fun prev set => by simp [unset] at set) rfl (by omega) _ _⟩
    · obtain ⟨stop, smaller, unbounded⟩ := propagate_markWork shape.unused unblocked empty success
      rcases propagate_eq_ok success with ⟨empty', -⟩ | marks
      · exact absurd empty' empty
      exact ⟨stop, unbounded, ih (shape.of_marks marks) (marks.phase.trans propagating)
        (marks.shades.unblocked unblocked) (by omega) _ _⟩

/-- With no trace blocked, the loop of `do_collection` leaves, from any arena of a live run. -/
theorem returns_of_listShape {arena : GcArena} {cells : List Ptr} {pending : ℕ}
    (shape : ListShape arena cells pending)
    (unblocked : arena.heap.Every fun gcBox => gcBox.value.traceBlocked = false)
    (workLeft : Budget) (blockedGrayCount : ℕ) :
    Returns (arena.markWork + cells.length + 3) arena workLeft blockedGrayCount := by
  cases phase : arena.phase with
  | sleeping => exact returns_sleeping phase _ _ _
  | propagating => exact returns_of_propagating _ shape phase unblocked le_rfl _ _
  | sweeping =>
    obtain ⟨swept, rest, split, -, cursor, last⟩ := shape.cursor phase
    have list := shape.sweepList split
    have progress : SweepProgress arena rest arena [] rest := .start cursor fun prev set member => by
      rw [last] at set
      have nodup := shape.nodup
      rw [split] at nodup
      exact (List.nodup_append.mp nodup).2.2 (List.mem_of_getLast?_eq_some set) member
    have shorter : rest.length ≤ cells.length := by simp [split]
    exact returns_of_sweepProgress list _ progress phase (by omega) _ _

end GcArena

/-! ### Leaving awake

With a trace blocked, the loop may `break` while propagating: when the count of blocked entries
since the last box traced reaches the queue's length. The queue is then a front that no pass has
popped since that box, and a back of boxes whose trace returned false; the count is the back's
length as long as the front is not empty, since a re-queued entry comes back only after the
whole front. So the `break` finds the front empty, and `collect_garbage`, whose budget is
unbounded, returns awake only on a queue of blocked boxes. The entries the loop drops do not
change this: they leave the queue uncounted.
-/

/-- The box at `address` is there and its trace returns false. -/
def Heap.Blocked (heap : Heap) (address : Ptr) : Prop :=
  ∃ gcBox, heap.boxes address = some gcBox ∧ gcBox.value.traceBlocked = true

/-- The box at `address` is there, dark gray or pinned: the propagation arm traces it when it
pops it. -/
def Heap.TracedOnPop (heap : Heap) (address : Ptr) : Prop :=
  ∃ gcBox, heap.boxes address = some gcBox ∧
    (gcBox.flags.color = .darkGray ∨ gcBox.rootCount.count ≠ 0)

namespace GcArena

variable {arena : GcArena} {blockedGrayCount : ℕ} {pass : Pass}

/-- The gray queue since the last box traced: a front that no pass has popped since, and a back
of dark gray or pinned boxes whose trace returned false; while the front is not empty,
`blocked_gray_count` is the length of the back. -/
def BlockedSince (arena : GcArena) (blockedGrayCount : ℕ) : Prop :=
  ∃ front back, arena.gray = front ++ back ∧
    (∀ address ∈ back, arena.heap.Blocked address ∧ arena.heap.TracedOnPop address) ∧
    (front = [] ∨ blockedGrayCount = back.length)

/-- With no entry blocked yet, the whole queue is the front. -/
theorem blockedSince_zero (arena : GcArena) : arena.BlockedSince 0 :=
  ⟨arena.gray, [], by simp, fun _ member => absurd member (List.not_mem_nil _), .inr rfl⟩

/-- A pass of propagation keeps the split of the queue, and a pass that breaks leaves a queue of
blocked boxes only, each dark gray or pinned. -/
theorem BlockedSince.of_propagate {workLeft : Budget} (since : arena.BlockedSince blockedGrayCount)
    (success : arena.propagate workLeft blockedGrayCount = .ok pass) :
    pass.arena.BlockedSince pass.blockedGrayCount ∧
      (pass.stop = true → ∀ address ∈ pass.arena.gray,
        pass.arena.heap.Blocked address ∧ pass.arena.heap.TracedOnPop address) := by
  obtain ⟨front, back, queue, blocked, counted⟩ := since
  unfold propagate at success
  split at success
  · cases success
    exact ⟨⟨front, back, queue, blocked, counted⟩, fun stop => by cases stop⟩
  rename_i gcBoxPtr gray popped
  obtain ⟨gcBox, found, success⟩ := bind_eq_ok.mp success
  rw [Heap.get_eq_ok] at found
  -- the popped entry is the head of the front, or of the back when the front is empty
  have split : front = [] ∧ back = gcBoxPtr :: gray ∨
      ∃ rest, front = gcBoxPtr :: rest ∧ gray = rest ++ back ∧ blockedGrayCount = back.length := by
    cases front with
    | nil => exact .inl ⟨rfl, queue.symm.trans popped⟩
    | cons first rest =>
      obtain ⟨rfl, rfl⟩ := List.cons.inj (popped.symm.trans queue)
      exact .inr ⟨rest, rfl, rfl, counted.resolve_left (List.cons_ne_nil _ _)⟩
  split at success
  · rename_i traceable
    obtain ⟨⟨traced, marked⟩, trace, success⟩ := bind_eq_ok.mp success
    obtain ⟨tracedIs, -, unchanged⟩ := GcValue.trace_marks trace
    cases traced
    · -- blocked: the entry goes to the back and is counted
      cases unchanged rfl
      simp only [Bool.false_eq_true, ite_false] at success
      cases success
      have headBlocked : arena.heap.Blocked gcBoxPtr ∧ arena.heap.TracedOnPop gcBoxPtr :=
        ⟨⟨gcBox, found, by simpa using tracedIs⟩, gcBox, found, by simpa using traceable⟩
      rcases split with ⟨-, rfl⟩ | ⟨rest, -, rfl, rfl⟩
      · have all : ∀ address ∈ gray ++ [gcBoxPtr],
            arena.heap.Blocked address ∧ arena.heap.TracedOnPop address := by
          simpa [or_imp, forall_and, headBlocked] using blocked
        exact ⟨⟨[], gray ++ [gcBoxPtr], rfl, all, .inl rfl⟩, fun _ => all⟩
      · have all : ∀ address ∈ back ++ [gcBoxPtr],
            arena.heap.Blocked address ∧ arena.heap.TracedOnPop address := by
          simpa [or_imp, forall_and, headBlocked] using blocked
        refine ⟨⟨rest, back ++ [gcBoxPtr], by simp, all, .inr (by simp)⟩, fun stop => ?_⟩
        have empty : rest = [] := List.length_eq_zero.mp (by simpa using stop)
        simpa [empty] using all
    · -- traced: a new front starts
      simp only [ite_true] at success
      cases success
      exact ⟨blockedSince_zero _, fun stop => by cases stop⟩
  · -- skipped: the entry leaves the queue uncounted
    cases success
    refine ⟨?_, fun stop => by cases stop⟩
    rcases split with ⟨-, rfl⟩ | ⟨rest, -, rfl, counted⟩
    · exact ⟨[], gray, rfl, fun address member => blocked address (List.mem_cons_of_mem _ member),
        .inl rfl⟩
    · exact ⟨rest, back, rfl, blocked, .inr counted⟩

/-- A pass of propagation spends at most the size of the box it blackens; a pass that breaks off
spends nothing and keeps the phase. -/
theorem propagate_budget {workLeft : Budget}
    (success : arena.propagate workLeft blockedGrayCount = .ok pass) :
    (pass.workLeft = workLeft ∨ ∃ size, pass.workLeft = workLeft.spend size) ∧
      (pass.stop = true → pass.workLeft = workLeft ∧ pass.arena.phase = arena.phase) := by
  unfold propagate at success
  split at success
  · cases success
    exact ⟨.inl rfl, fun stop => by cases stop⟩
  obtain ⟨gcBox, -, success⟩ := bind_eq_ok.mp success
  split at success
  · obtain ⟨⟨traced, marked⟩, trace, success⟩ := bind_eq_ok.mp success
    have phase := (GcValue.trace_marks trace).2.1.phase
    cases traced <;> simp only [Bool.false_eq_true, ite_false, ite_true] at success <;>
      cases success
    · exact ⟨.inl rfl, fun _ => ⟨rfl, phase⟩⟩
    · exact ⟨.inr ⟨_, rfl⟩, fun stop => by cases stop⟩
  · cases success
    exact ⟨.inl rfl, fun stop => by cases stop⟩

/-- An unbounded budget stays unbounded. -/
theorem propagate_unbounded (success : arena.propagate .infinite blockedGrayCount = .ok pass) :
    pass.workLeft = .infinite := by
  rcases (propagate_budget success).1 with same | ⟨_, spent⟩
  exacts [same, spent]

/-- A pass of the sweep leaves the collector sweeping or asleep. -/
theorem sweepStep_not_propagating {workLeft : Budget} (sweeping : arena.phase = .sweeping)
    (success : arena.sweepStep workLeft blockedGrayCount = .ok pass) :
    pass.arena.phase ≠ .propagating := by
  obtain ⟨-, -, ⟨-, -, next⟩ | ⟨_, _, -, -, ⟨-, -, unlinked, unlinking, -, next⟩ |
    ⟨-, -, next⟩⟩⟩ := sweepStep_eq_ok success
  · rw [next]
    intro same
    cases same
  · obtain ⟨-, -, -, phase, -⟩ := unlink_frame unlinking
    rw [next]
    exact fun same => absurd (sweeping.symm.trans (phase.symm.trans same)) (by decide)
  · rw [next]
    split <;> exact fun same => absurd (sweeping.symm.trans same) (by decide)

/-- A pass of the sweep leaves the collector sweeping or asleep, with an unbounded budget still
unbounded. -/
theorem sweepStep_awake (sweeping : arena.phase = .sweeping)
    (success : arena.sweepStep .infinite blockedGrayCount = .ok pass) :
    pass.stop = false ∧ pass.arena.phase ≠ .propagating ∧ pass.workLeft = .infinite := by
  obtain ⟨stop, -, ⟨-, spent, -⟩ | ⟨_, _, -, -, ⟨-, spent, -⟩ | ⟨-, spent, -⟩⟩⟩ :=
    sweepStep_eq_ok success <;>
  exact ⟨stop, sweepStep_not_propagating sweeping success, spent⟩

/-- With an unbounded budget, the loop leaves awake only on a queue of blocked boxes, each dark
gray or pinned. -/
theorem collectionLoop_blocked {fuel : ℕ} {final : GcArena} {workLeft : Budget}
    (since : arena.phase = .propagating → arena.BlockedSince blockedGrayCount)
    (returned : arena.collectionLoop fuel .infinite blockedGrayCount = some (.ok (final, workLeft)))
    (awake : final.phase ≠ .sleeping) :
    ∀ address ∈ final.gray, final.heap.Blocked address ∧ final.heap.TracedOnPop address := by
  induction fuel generalizing arena blockedGrayCount with
  | zero => cases returned
  | succ fuel ih =>
    cases stepped : arena.collectionStep .infinite blockedGrayCount with
    | error fault => simp [collectionLoop, stepped] at returned
    | ok pass =>
    rw [collectionLoop_of_pass Budget.positive_infinite stepped] at returned
    rcases collectionStep_eq_ok stepped with
      ⟨sleeping, rfl⟩ | ⟨propagating, propagated⟩ | ⟨sweeping, swept⟩
    · cases returned
      exact absurd sleeping awake
    · obtain ⟨next, broke⟩ := (since propagating).of_propagate propagated
      split at returned
      · cases returned
        exact broke ‹_›
      · rw [propagate_unbounded propagated] at returned
        exact ih (fun _ => next) returned
    · obtain ⟨going, phase, unbounded⟩ := sweepStep_awake sweeping swept
      rw [going, if_neg Bool.false_ne_true, unbounded] at returned
      exact ih (fun propagating => absurd propagating phase) returned

end GcArena

/-- When `collect_garbage` returns short of sleep, it broke on a gray queue made only of dark
gray or pinned boxes whose trace returned false. -/
theorem collectGarbage_blocked {arena final : GcArena} {fuel : ℕ}
    (returned : arena.collectGarbage fuel = some (.ok final)) (awake : final.phase ≠ .sleeping) :
    ∀ address ∈ final.gray, final.heap.Blocked address ∧ final.heap.TracedOnPop address := by
  obtain ⟨left, workLeft, looped, rfl⟩ := GcArena.collectGarbage_eq_ok returned
  obtain ⟨debt, same⟩ := left.finishCollection_eq .infinite workLeft
  rw [same] at awake ⊢
  have blocked : ∀ address ∈ left.gray, left.heap.Blocked address ∧ left.heap.TracedOnPop address :=
    GcArena.collectionLoop_blocked (fun _ => GcArena.blockedSince_zero _) looped awake
  exact blocked

theorem collectGarbage_blocked_pinned :
    ∃ arena final : GcArena, arena.collectGarbage 5 = some (.ok final) ∧ final.phase ≠ .sleeping ∧
      ∀ address ∈ final.gray, final.heap.Blocked address ∧ final.heap.TracedOnPop address := by
  have checked : (World.initial .default).runSatisfies
      [.allocate ⟨32, by decide, true, ⟨[], true⟩⟩, .root 0]
      (fun world => (match world.arena.collectGarbage 5 with
        | some (.ok final) => final.phase != .sleeping
        | _ => false) = true) = true := by
    decide
  obtain ⟨world, -, returned⟩ := World.exists_path_of_runSatisfies checked
  split at returned
  · rename_i final collected
    have awake : final.phase ≠ .sleeping := by simpa using returned
    exact ⟨world.arena, final, collected, awake, collectGarbage_blocked collected awake⟩
  · cases returned

/-- A pinned box whose trace is blocked: the first pass of `collect_garbage` re-queues it, counts
it, and breaks, awake. -/
example : (World.initial .default).runSatisfies
    [.allocate ⟨32, by decide, true, ⟨[], true⟩⟩, .root 0, .collectGarbage, .resume]
    (fun world => world.control = .idle ∧ world.arena.phase = .propagating ∧
      world.arena.gray = [0]) = true := by
  decide

/-- With no trace blocked, the loop of `collect_garbage` leaves, from every world of a live run,
and a value it returns is asleep. -/
theorem collectGarbage_terminates {world : World} (reachable : Reachable world)
    (alive : world.dropped = false)
    (unblocked : world.arena.heap.Every fun gcBox => gcBox.value.traceBlocked = false) :
    ∃ fuel, (world.arena.collectGarbage fuel).isSome ∧
      ∀ arena, world.arena.collectGarbage fuel = some (.ok arena) → arena.phase = .sleeping := by
  obtain ⟨cells, live⟩ := reachable.invariant.live alive
  have returns := GcArena.returns_of_listShape live.shape.of_startCycle
    (by simpa using unblocked) .infinite 0
  refine ⟨world.arena.startCycle.markWork + cells.length + 3, ?_, fun arena left => ?_⟩
  · simpa [GcArena.collectGarbage, GcArena.doCollection] using returns.1
  · obtain ⟨left, workLeft, looped, rfl⟩ := GcArena.collectGarbage_eq_ok left
    simpa using returns.2 rfl _ looped

/-- With no trace blocked, the slice of collection an `allocate` may run leaves its loop. -/
theorem allocate_terminates {world : World} (reachable : Reachable world)
    (alive : world.dropped = false)
    (unblocked : world.arena.heap.Every fun gcBox => gcBox.value.traceBlocked = false)
    (request : Allocation) : ∃ fuel, (world.arena.allocate fuel request).isSome := by
  obtain ⟨cells, live⟩ := reachable.invariant.live alive
  have started := live.shape.of_allocateStart request.size
  have heap := world.arena.allocateStart_heap request.size
  unfold GcArena.allocate
  rcases sliced : world.arena.allocateStart request.size with ⟨arena, _ | work⟩
  · exact ⟨0, rfl⟩
  · rw [sliced] at started heap
    have returns := GcArena.returns_of_listShape started (heap ▸ unblocked) work 0
    exact ⟨_, by simpa [GcArena.doCollection] using returns.1⟩

end LusterGc
