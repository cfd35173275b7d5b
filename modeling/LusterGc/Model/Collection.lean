import LusterGc.Model.Arena

/-! # Incremental collection and allocation

`do_collection` is a loop whose body dispatches on the phase. `collectionStep` is that body:
one pop of the gray queue, one advance of the sweep cursor, or a phase change. The loop itself
runs on `fuel`, and `none` means that the fuel ran out before the loop left, which is how a run
that never returns shows up. `allocate` is split where it calls `do_collection`: the
bookkeeping before the call, and the boxing and linking after it.
-/

namespace LusterGc

/-- A result of code that loops: `none` when the loop has not left within its fuel. -/
abbrev Bounded (α : Type) := Option (Except Fault α)

/-- What one pass through the loop body of `do_collection` leaves: the arena, the locals
`work_left` and `blocked_gray_count`, and whether the body ran into a `break`. -/
structure Pass where
  arena : GcArena
  workLeft : Budget
  blockedGrayCount : ℕ
  stop : Bool

/-- A call `allocate(value)`: the size of `GcBox<T>`, `T::needs_trace()` and the payload. -/
structure Allocation where
  size : ℕ
  size_pos : 0 < size
  needsTrace : Bool := true
  value : GcValue := {}
deriving DecidableEq, Repr

/-- The box `allocate` builds: white, unpinned, needs-trace set from `T`, linked to `next`. -/
def Allocation.box (request : Allocation) (next : Option Ptr) : GcBox :=
  { flags := GcFlags.new.setNeedsTrace request.needsTrace, rootCount := .new, next,
    value := request.value, size := request.size }

namespace GcArena

/-- Take the box at the sweep cursor out of the all-list, through `sweep_prev` or, when there
is none, by moving the head. -/
def unlink (arena : GcArena) (next : Option Ptr) : Except Fault GcArena :=
  match arena.sweepPrev with
  | some sweepPrev => do
    let prevBox ← arena.heap.get sweepPrev
    pure { arena with heap := arena.heap.set sweepPrev { prevBox with next } }
  | none => pure { arena with all := next }

/-- The `Propagating` arm of the loop body. -/
def propagate (arena : GcArena) (workLeft : Budget) (blockedGrayCount : ℕ) : Except Fault Pass :=
  match arena.gray with
  | [] =>
    pure ⟨{ arena with phase := .sweeping, sweep := arena.all, rememberedSize := 0 },
      workLeft, blockedGrayCount, false⟩
  | gcBoxPtr :: gray => do
    let arena := { arena with gray }
    let gcBox ← arena.heap.get gcBoxPtr
    if gcBox.flags.color = .darkGray ∨ gcBox.rootCount.isRooted = true then
      let (traced, arena) ← gcBox.value.trace arena
      if traced then
        pure ⟨arena.recolor gcBoxPtr .black, workLeft.spend gcBox.size, 0, false⟩
      else
        let gray := arena.gray ++ [gcBoxPtr]
        pure ⟨{ arena with gray }, workLeft, blockedGrayCount + 1,
          blockedGrayCount + 1 == gray.length⟩
    else
      pure ⟨arena, workLeft, blockedGrayCount, false⟩

/-- The `Sweeping` arm of the loop body. -/
def sweepStep (arena : GcArena) (workLeft : Budget) (blockedGrayCount : ℕ) : Except Fault Pass :=
  match arena.sweep with
  | none =>
    let wakeupTotal := arena.totalAllocated + arena.parameters.pauseSize arena.rememberedSize
    pure ⟨{ arena with sweepPrev := none, phase := .sleeping, wakeupTotal },
      workLeft, blockedGrayCount, false⟩
  | some sweepPtr => do
    let sweep ← arena.heap.get sweepPtr
    let arena := { arena with sweep := sweep.next }
    if sweep.flags.color = .white then
      let arena ← arena.unlink sweep.next
      let arena := { arena with totalAllocated := arena.totalAllocated - sweep.size }
      let heap ← arena.heap.free sweepPtr
      pure ⟨{ arena with heap }, workLeft.spend sweep.size, blockedGrayCount, false⟩
    else
      let rememberedSize := arena.rememberedSize + sweep.size
      let arena := { arena with sweepPrev := some sweepPtr, rememberedSize }
      if sweep.rootCount.isRooted then
        pure ⟨{ arena.recolor sweepPtr .lightGray with gray := arena.gray ++ [sweepPtr] },
          workLeft, blockedGrayCount, false⟩
      else
        pure ⟨arena.recolor sweepPtr .white, workLeft, blockedGrayCount, false⟩

/-- The body of the loop in `do_collection`. -/
def collectionStep (arena : GcArena) (workLeft : Budget) (blockedGrayCount : ℕ) :
    Except Fault Pass :=
  match arena.phase with
  | .sleeping => pure ⟨arena, workLeft, blockedGrayCount, true⟩
  | .propagating => arena.propagate workLeft blockedGrayCount
  | .sweeping => arena.sweepStep workLeft blockedGrayCount

/-- `while work_left > 0.0 { .. }`, for at most `fuel` passes. Returns the arena and
`work_left` when the loop is left. -/
def collectionLoop : ℕ → GcArena → Budget → ℕ → Bounded (GcArena × Budget)
  | 0, _, _, _ => none
  | fuel + 1, arena, workLeft, blockedGrayCount =>
    if workLeft.positive then
      match arena.collectionStep workLeft blockedGrayCount with
      | .error fault => some (.error fault)
      | .ok pass =>
        if pass.stop then some (.ok (pass.arena, pass.workLeft))
        else collectionLoop fuel pass.arena pass.workLeft pass.blockedGrayCount
    else
      some (.ok (arena, workLeft))

/-- The lines after the loop: debt does not outlive a return to sleep. -/
def finishCollection (arena : GcArena) (work workLeft : Budget) : GcArena :=
  if arena.phase = .sleeping then { arena with allocationDebt := .bytes 0 }
  else { arena with allocationDebt := arena.allocationDebt.settle work workLeft }

/-- `GcArena::do_collection(work)`. -/
def doCollection (fuel : ℕ) (arena : GcArena) (work : Budget) : Bounded GcArena :=
  (arena.collectionLoop fuel work 0).map
    (·.map fun (arena, workLeft) => arena.finishCollection work workLeft)

/-- `collect_garbage` starts a cycle when sleeping. -/
def startCycle (arena : GcArena) : GcArena :=
  if arena.phase = .sleeping then { arena with phase := .propagating } else arena

/-- `GcArena::collect_garbage`. -/
def collectGarbage (fuel : ℕ) (arena : GcArena) : Bounded GcArena :=
  arena.startCycle.doCollection fuel .infinite

/-- `allocate` up to its call of `do_collection`: count the bytes, wake the collector, take on
debt, and return the budget of the slice the granularity gate lets run, if any. -/
def allocateStart (arena : GcArena) (allocSize : ℕ) : GcArena × Option Budget :=
  let arena := { arena with totalAllocated := arena.totalAllocated + allocSize }
  let arena :=
    if arena.phase = .sleeping ∧ arena.totalAllocated > arena.wakeupTotal then
      { arena with phase := .propagating }
    else arena
  if arena.phase ≠ .sleeping then
    let allocationDebt := arena.allocationDebt.addDebt allocSize arena.parameters.timingFactor
    let arena := { arena with allocationDebt }
    if arena.granularityTimer + allocSize ≥ arena.parameters.collectionGranularity then
      ({ arena with granularityTimer := 0 }, some arena.allocationDebt)
    else
      ({ arena with granularityTimer := arena.granularityTimer + allocSize }, none)
  else
    (arena, none)

/-- `allocate` after its call of `do_collection`: box the value, white and unpinned, and link
it at the head of the all-list; while sweeping with nothing swept yet, it becomes `sweep_prev`. -/
def allocateFinish (arena : GcArena) (request : Allocation) : GcArena × Ptr :=
  let (heap, gcBoxPtr) := arena.heap.alloc (request.box arena.all)
  let arena := { arena with heap, all := some gcBoxPtr }
  if arena.phase = .sweeping ∧ arena.sweepPrev = none then
    ({ arena with sweepPrev := arena.all }, gcBoxPtr)
  else
    (arena, gcBoxPtr)

/-- `GcArena::allocate`, returning the arena and the new `Gc` pointer. -/
def allocate (fuel : ℕ) (arena : GcArena) (request : Allocation) : Bounded (GcArena × Ptr) :=
  match arena.allocateStart request.size with
  | (arena, none) => some (.ok (arena.allocateFinish request))
  | (arena, some work) => (arena.doCollection fuel work).map (·.map (·.allocateFinish request))

theorem unlink_eq_ok {arena unlinked : GcArena} {next : Option Ptr}
    (success : arena.unlink next = .ok unlinked) :
    arena.sweepPrev = none ∧ unlinked = { arena with all := next } ∨
      ∃ prev prevBox, arena.sweepPrev = some prev ∧ arena.heap.boxes prev = some prevBox ∧
        unlinked = { arena with heap := arena.heap.set prev { prevBox with next } } := by
  unfold unlink at success
  split at success
  · obtain ⟨prevBox, found, success⟩ := bind_eq_ok.mp success
    cases success
    exact .inr ⟨_, prevBox, ‹_›, Heap.get_eq_ok.mp found, rfl⟩
  · cases success
    exact .inl ⟨‹_›, rfl⟩

theorem unlink_error {arena : GcArena} {next : Option Ptr} {fault : Fault}
    (failed : arena.unlink next = .error fault) :
    ∃ prev, arena.sweepPrev = some prev ∧ fault = .dangling prev ∧ arena.heap.boxes prev = none := by
  unfold unlink at failed
  split at failed
  · rcases bind_eq_error.mp failed with got | ⟨_, -, failed⟩
    · exact ⟨_, ‹_›, Heap.get_error got⟩
    · cases failed
  · cases failed

/-- `unlink` rewrites at most the link of `sweep_prev`: the cursors, the counters and every other
box stay, and no box is allocated or freed. -/
theorem unlink_frame {arena unlinked : GcArena} {next : Option Ptr}
    (success : arena.unlink next = .ok unlinked) :
    unlinked.sweep = arena.sweep ∧ unlinked.sweepPrev = arena.sweepPrev ∧
      unlinked.rememberedSize = arena.rememberedSize ∧ unlinked.phase = arena.phase ∧
      unlinked.gray = arena.gray ∧ unlinked.heap.fresh = arena.heap.fresh ∧
      (∀ address, (∀ prev, arena.sweepPrev = some prev → address ≠ prev) →
        unlinked.heap.boxes address = arena.heap.boxes address) ∧
      ∀ address, unlinked.heap.Allocated address ↔ arena.heap.Allocated address := by
  rcases unlink_eq_ok success with ⟨-, rfl⟩ | ⟨prev, prevBox, prevAt, prevFound, rfl⟩
  · exact ⟨rfl, rfl, rfl, rfl, rfl, rfl, fun _ _ => rfl, fun _ => Iff.rfl⟩
  · refine ⟨rfl, rfl, rfl, rfl, rfl, rfl, fun address other => ?_, fun address => ?_⟩
    · simp [other prev prevAt]
    · by_cases here : address = prev
      · simp [Heap.Allocated, here, prevFound]
      · simp [Heap.Allocated, here]

/-- After `unlink` and the free of `address`, the boxes of a list that holds neither `address`
nor `sweep_prev` are the ones before. -/
theorem unlink_erase_agree {arena unlinked : GcArena} {link : Option Ptr}
    (unlinking : arena.unlink link = .ok unlinked) {address : Ptr} {cells : List Ptr}
    (fresh : address ∉ cells) (prevOff : ∀ prev, arena.sweepPrev = some prev → prev ∉ cells) :
    ∀ query ∈ cells, (unlinked.heap.erase address).boxes query = arena.heap.boxes query := by
  obtain ⟨-, -, -, -, -, -, boxesKept, -⟩ := unlink_frame unlinking
  intro query member
  rw [Heap.erase_boxes, if_neg fun (here : query = address) => fresh (here ▸ member)]
  exact boxesKept query fun prev set (here : query = prev) => prevOff prev set (here ▸ member)

/-- `unlink` rewrites a link only: every box keeps its flags. -/
theorem unlink_flags {arena unlinked : GcArena} {next : Option Ptr}
    (success : arena.unlink next = .ok unlinked) {address : Ptr} {gcBox' : GcBox}
    (found : unlinked.heap.boxes address = some gcBox') :
    ∃ gcBox, arena.heap.boxes address = some gcBox ∧ gcBox'.flags = gcBox.flags := by
  rcases unlink_eq_ok success with ⟨-, rfl⟩ | ⟨prev, prevBox, -, prevFound, rfl⟩
  · exact ⟨gcBox', found, rfl⟩
  · by_cases here : address = prev
    · subst here
      simp only [Heap.set_boxes, ite_true, Option.some.injEq] at found
      exact ⟨prevBox, prevFound, by rw [← found]⟩
    · exact ⟨gcBox', by simpa [here] using found, rfl⟩

/-- Propagation fails only when it reads a freed box: a popped entry or a pointer its payload
reports. -/
theorem propagate_error {arena : GcArena} {workLeft : Budget} {blockedGrayCount : ℕ}
    {fault : Fault} (failed : arena.propagate workLeft blockedGrayCount = .error fault) :
    ∃ address, fault = .dangling address ∧ arena.heap.boxes address = none := by
  unfold propagate at failed
  split at failed
  · cases failed
  · rcases bind_eq_error.mp failed with got | ⟨gcBox, -, failed⟩
    · exact ⟨_, Heap.get_error got⟩
    split at failed
    · rcases bind_eq_error.mp failed with traced | ⟨⟨traced, marked⟩, -, failed⟩
      · obtain ⟨child, -, failure⟩ := GcValue.trace_error traced
        exact ⟨child, failure⟩
      · cases traced <;> cases failed
    · cases failed

/-- Propagation either starts the sweep, on an empty queue, or only marks. -/
theorem propagate_eq_ok {arena : GcArena} {workLeft : Budget} {blockedGrayCount : ℕ} {pass : Pass}
    (success : arena.propagate workLeft blockedGrayCount = .ok pass) :
    arena.gray = [] ∧ pass.arena = { arena with phase := .sweeping, sweep := arena.all, rememberedSize := 0 } ∨
      arena.Marks pass.arena := by
  unfold propagate at success
  split at success
  · cases success
    exact .inl ⟨‹_›, rfl⟩
  · rename_i gcBoxPtr gray _
    refine .inr ?_
    have popped : arena.Marks { arena with gray } := (Marks.refl arena).with_gray gray
    obtain ⟨gcBox, _, success⟩ := bind_eq_ok.mp success
    split at success
    · obtain ⟨⟨traced, marked⟩, trace, success⟩ := bind_eq_ok.mp success
      have marks := popped.trans (GcValue.trace_marks trace).2.1
      cases traced <;> simp only [Bool.false_eq_true, ite_false, ite_true] at success <;>
        cases success
      · exact marks.with_gray _
      · exact marks.trans (marked.marks_recolor gcBoxPtr (by decide))
    · cases success
      exact popped

/-- An empty gray queue starts the sweep at the head of the list, with nothing remembered. -/
theorem propagate_start {arena : GcArena} (empty : arena.gray = []) (workLeft : Budget)
    (blockedGrayCount : ℕ) :
    arena.propagate workLeft blockedGrayCount =
      .ok ⟨{ arena with phase := .sweeping, sweep := arena.all, rememberedSize := 0 }, workLeft,
        blockedGrayCount, false⟩ := by
  unfold propagate
  rw [empty]
  rfl

/-- A pass of the sweep: at the end of the list it goes to sleep; otherwise the box at the
cursor is unlinked and freed when white, and kept, as `sweep_prev`, otherwise. -/
theorem sweepStep_eq_ok {arena : GcArena} {workLeft : Budget} {blockedGrayCount : ℕ} {pass : Pass}
    (success : arena.sweepStep workLeft blockedGrayCount = .ok pass) :
    pass.stop = false ∧ pass.blockedGrayCount = blockedGrayCount ∧
      (arena.sweep = none ∧ pass.workLeft = workLeft ∧
        pass.arena = { arena with
          sweepPrev := none, phase := .sleeping,
          wakeupTotal := arena.totalAllocated + arena.parameters.pauseSize arena.rememberedSize } ∨
      ∃ sweepPtr gcBox, arena.sweep = some sweepPtr ∧ arena.heap.boxes sweepPtr = some gcBox ∧
        (gcBox.flags.color = .white ∧ pass.workLeft = workLeft.spend gcBox.size ∧
          (∃ unlinked, { arena with sweep := gcBox.next }.unlink gcBox.next = .ok unlinked ∧
            unlinked.heap.Allocated sweepPtr ∧
            pass.arena = { unlinked with
              totalAllocated := unlinked.totalAllocated - gcBox.size,
              heap := unlinked.heap.erase sweepPtr }) ∨
        gcBox.flags.color ≠ .white ∧ pass.workLeft = workLeft ∧
          let kept := { arena with
            sweep := gcBox.next, sweepPrev := some sweepPtr,
            rememberedSize := arena.rememberedSize + gcBox.size }
          pass.arena = if gcBox.rootCount.isRooted then
            { kept.recolor sweepPtr .lightGray with gray := kept.gray ++ [sweepPtr] }
          else kept.recolor sweepPtr .white)) := by
  unfold sweepStep at success
  split at success
  · cases success
    exact ⟨rfl, rfl, .inl ⟨‹_›, rfl, rfl⟩⟩
  · rename_i sweepPtr _
    obtain ⟨gcBox, found, success⟩ := bind_eq_ok.mp success
    rw [Heap.get_eq_ok] at found
    split at success
    · obtain ⟨unlinked, unlinking, success⟩ := bind_eq_ok.mp success
      obtain ⟨freed, freeing, success⟩ := bind_eq_ok.mp success
      cases success
      obtain ⟨allocated, rfl⟩ := Heap.free_eq_ok.mp freeing
      exact ⟨rfl, rfl, .inr ⟨sweepPtr, gcBox, ‹_›, found,
        .inl ⟨‹_›, rfl, unlinked, unlinking, allocated, rfl⟩⟩⟩
    · rename_i kept
      split at success <;> rename_i rooted <;> cases success <;>
        refine ⟨rfl, rfl, .inr ⟨sweepPtr, gcBox, ‹_›, found, .inr ⟨kept, rfl, ?_⟩⟩⟩
      exacts [(if_pos rooted).symm, (if_neg rooted).symm]

/-- The sweep fails only at a freed box under one of its cursors: the free it makes reads its box
first. -/
theorem sweepStep_error {arena : GcArena} {workLeft : Budget} {blockedGrayCount : ℕ}
    {fault : Fault} (failed : arena.sweepStep workLeft blockedGrayCount = .error fault) :
    ∃ address, fault = .dangling address ∧ arena.heap.boxes address = none ∧
      (arena.sweep = some address ∨ arena.sweepPrev = some address) := by
  unfold sweepStep at failed
  split at failed
  · cases failed
  · rename_i sweepPtr cursorAt
    rcases bind_eq_error.mp failed with got | ⟨gcBox, found, failed⟩
    · exact ⟨sweepPtr, (Heap.get_error got).1, (Heap.get_error got).2, .inl cursorAt⟩
    rw [Heap.get_eq_ok] at found
    split at failed
    · rcases bind_eq_error.mp failed with unlinkFailed | ⟨unlinked, unlinking, failed⟩
      · obtain ⟨prev, prevAt, failure, gone⟩ := unlink_error unlinkFailed
        exact ⟨prev, failure, gone, .inr prevAt⟩
      · rcases bind_eq_error.mp failed with freeFailed | ⟨_, -, failed⟩
        · obtain ⟨-, -, -, -, -, -, -, allocated⟩ := unlink_frame unlinking
          exact absurd (Heap.free_error freeFailed).2
            ((allocated sweepPtr).mpr (by simp [Heap.Allocated, found]))
        · cases failed
    · split at failed <;> cases failed

theorem collectionStep_error {arena : GcArena} {workLeft : Budget} {blockedGrayCount : ℕ}
    {fault : Fault} (failed : arena.collectionStep workLeft blockedGrayCount = .error fault) :
    arena.phase = .propagating ∧ (∃ address, fault = .dangling address ∧ arena.heap.boxes address = none) ∨
      arena.phase = .sweeping ∧ ∃ address, fault = .dangling address ∧
        arena.heap.boxes address = none ∧
        (arena.sweep = some address ∨ arena.sweepPrev = some address) := by
  unfold collectionStep at failed
  split at failed
  · cases failed
  · exact .inl ⟨‹_›, propagate_error failed⟩
  · exact .inr ⟨‹_›, sweepStep_error failed⟩

theorem collectionStep_eq_ok {arena : GcArena} {workLeft : Budget} {blockedGrayCount : ℕ}
    {pass : Pass} (success : arena.collectionStep workLeft blockedGrayCount = .ok pass) :
    arena.phase = .sleeping ∧ pass = ⟨arena, workLeft, blockedGrayCount, true⟩ ∨
      arena.phase = .propagating ∧ arena.propagate workLeft blockedGrayCount = .ok pass ∨
      arena.phase = .sweeping ∧ arena.sweepStep workLeft blockedGrayCount = .ok pass := by
  unfold collectionStep at success
  split at success
  · cases success
    exact .inl ⟨‹_›, rfl⟩
  · exact .inr (.inl ⟨‹_›, success⟩)
  · exact .inr (.inr ⟨‹_›, success⟩)

theorem collectionStep_of_propagating {arena : GcArena} (propagating : arena.phase = .propagating)
    (workLeft : Budget) (blockedGrayCount : ℕ) :
    arena.collectionStep workLeft blockedGrayCount = arena.propagate workLeft blockedGrayCount := by
  unfold collectionStep
  rw [propagating]

theorem collectionStep_of_sweeping {arena : GcArena} (sweeping : arena.phase = .sweeping)
    (workLeft : Budget) (blockedGrayCount : ℕ) :
    arena.collectionStep workLeft blockedGrayCount = arena.sweepStep workLeft blockedGrayCount := by
  unfold collectionStep
  rw [sweeping]

/-- One turn of the loop with work left: the pass either leaves the loop or hands over its arena,
budget and counter. -/
theorem collectionLoop_of_pass {fuel : ℕ} {arena : GcArena} {workLeft : Budget}
    {blockedGrayCount : ℕ} {pass : Pass} (positive : workLeft.positive = true)
    (success : arena.collectionStep workLeft blockedGrayCount = .ok pass) :
    arena.collectionLoop (fuel + 1) workLeft blockedGrayCount =
      if pass.stop then some (.ok (pass.arena, pass.workLeft))
      else pass.arena.collectionLoop fuel pass.workLeft pass.blockedGrayCount := by
  rw [collectionLoop, if_pos positive, success]

/-- Only the scheduler's counters and the phase change before `allocate` collects, and the
phase only wakes. -/
theorem allocateStart_eq (arena : GcArena) (allocSize : ℕ) :
    ∃ phase allocationDebt granularityTimer,
      (arena.allocateStart allocSize).1 = { arena with
        totalAllocated := arena.totalAllocated + allocSize, phase, allocationDebt,
        granularityTimer } ∧
      (phase = arena.phase ∨ arena.phase = .sleeping ∧ phase = .propagating) := by
  unfold allocateStart
  dsimp only
  split_ifs with waking <;> exact ⟨_, _, _, rfl, by simp_all⟩

theorem startCycle_eq (arena : GcArena) :
    ∃ phase, arena.startCycle = { arena with phase } ∧
      (phase = arena.phase ∨ arena.phase = .sleeping ∧ phase = .propagating) := by
  unfold startCycle
  split_ifs with sleeping
  exacts [⟨_, rfl, .inr ⟨sleeping, rfl⟩⟩, ⟨_, rfl, .inl rfl⟩]

theorem finishCollection_eq (arena : GcArena) (work workLeft : Budget) :
    ∃ allocationDebt, arena.finishCollection work workLeft = { arena with allocationDebt } := by
  unfold finishCollection
  split_ifs <;> exact ⟨_, rfl⟩

/-- The new box, white and unpinned, is the new head of the all-list. -/
theorem allocateFinish_eq (arena : GcArena) (request : Allocation) :
    arena.allocateFinish request =
      ({ arena with
        heap := (arena.heap.alloc (request.box arena.all)).1,
        all := some arena.heap.fresh,
        sweepPrev := if arena.phase = .sweeping ∧ arena.sweepPrev = none then some arena.heap.fresh
          else arena.sweepPrev }, arena.heap.fresh) := by
  unfold allocateFinish Heap.alloc
  dsimp only
  split_ifs <;> rfl

@[simp] theorem allocateStart_heap (arena : GcArena) (allocSize : ℕ) :
    (arena.allocateStart allocSize).1.heap = arena.heap := by
  obtain ⟨_, _, _, started, -⟩ := arena.allocateStart_eq allocSize
  rw [started]

@[simp] theorem startCycle_heap (arena : GcArena) : arena.startCycle.heap = arena.heap := by
  obtain ⟨_, started, -⟩ := arena.startCycle_eq
  rw [started]

@[simp] theorem finishCollection_heap (arena : GcArena) (work workLeft : Budget) :
    (arena.finishCollection work workLeft).heap = arena.heap := by
  obtain ⟨_, finished⟩ := arena.finishCollection_eq work workLeft
  rw [finished]

@[simp] theorem allocateFinish_heap (arena : GcArena) (request : Allocation) :
    (arena.allocateFinish request).1.heap = (arena.heap.alloc (request.box arena.all)).1 := by
  rw [allocateFinish_eq]

@[simp] theorem finishCollection_phase (arena : GcArena) (work workLeft : Budget) :
    (arena.finishCollection work workLeft).phase = arena.phase := by
  obtain ⟨_, finished⟩ := arena.finishCollection_eq work workLeft
  rw [finished]

@[simp] theorem allocateFinish_phase (arena : GcArena) (request : Allocation) :
    (arena.allocateFinish request).1.phase = arena.phase := by
  rw [allocateFinish_eq]

/-- `GcArena::collect_garbage` returns what the loop leaves, after the lines that follow it. -/
theorem collectGarbage_eq_ok {arena final : GcArena} {fuel : ℕ}
    (returned : arena.collectGarbage fuel = some (.ok final)) :
    ∃ left workLeft, arena.startCycle.collectionLoop fuel .infinite 0 = some (.ok (left, workLeft)) ∧
      final = left.finishCollection .infinite workLeft := by
  simp only [collectGarbage, doCollection, Option.map_eq_some'] at returned
  obtain ⟨result, looped, finished⟩ := returned
  cases result with
  | error fault => cases finished
  | ok result =>
    obtain ⟨left, workLeft⟩ := result
    cases finished
    exact ⟨left, workLeft, looped, rfl⟩

/-- `GcArena::allocate_root`: `root(allocate(value))`. -/
def allocateRoot (fuel : ℕ) (arena : GcArena) (request : Allocation) : Bounded (GcArena × Ptr) :=
  (arena.allocate fuel request).map fun result => do
    let (arena, gc) ← result
    pure (← arena.root gc, gc)

end GcArena

end LusterGc
