import LusterGc.Soundness.Invariant

/-! # Ownership of boxes

Three places free a box: the sweep, the walk of `GcArena::drop` and `Rgc::drop`. In every world a
run reaches, the pin count of a box is the number of handles the host holds to it, and no handle
outlives its box. None of the three places can fail, so none frees a box twice or reads one that
is gone. Once the arena is dropped and its walk is over, a box lives exactly as long as some
handle to it.
-/

namespace LusterGc

/-- A pass of the sweep reads only the boxes under its two cursors, and both are on the list. -/
theorem ListShape.sweepStep_ok {arena : GcArena} {cells : List Ptr} {pending : ℕ}
    (shape : ListShape arena cells pending) (sweeping : arena.phase = .sweeping)
    (workLeft : Budget) (blockedGrayCount : ℕ) :
    ∃ pass, arena.collectionStep workLeft blockedGrayCount = .ok pass := by
  obtain ⟨onList, prevCases⟩ := shape.cursor_cases sweeping
  cases stepped : arena.collectionStep workLeft blockedGrayCount with
  | ok pass => exact ⟨pass, rfl⟩
  | error fault =>
    rcases GcArena.collectionStep_error stepped with ⟨propagating, -⟩ | ⟨-, address, -, gone, under⟩
    · simp [sweeping] at propagating
    · have member : address ∈ cells := by
        rcases under with cursorAt | prevAt
        · exact onList address cursorAt
        · rcases prevCases with ⟨unset, -⟩ | ⟨prev, gcBox, prevAt', member, -⟩
          · simp [unset] at prevAt
          · cases prevAt.symm.trans prevAt'
            exact member
      exact absurd gone ((shape.mem_iff address).mp member)

namespace World.Invariant

variable {world : World}

/-- `Rgc::drop` of a handle the host holds goes through. -/
theorem dropRgc_ok (invariant : world.Invariant) (idle : world.control = .idle) {gc : Ptr}
    (held : gc ∈ world.pins) : ∃ next, world.Step (.dropRgc gc) next := by
  cases released : Rgc.drop world.arena.heap gc with
  | error fault => exact absurd (Rgc.drop_error released).2 (invariant.pins.held gc held)
  | ok heap =>
    exact ⟨{ world.withHeap heap with pins := world.pins.erase gc },
      by simp [Step, World.step, idle, call, held, released, Except.map]⟩

/-- Each turn of the walk in `GcArena::drop` goes through. -/
theorem walk_ok (invariant : world.Invariant) {address : Ptr}
    (dropping : world.control = .dropping address) : ∃ next, world.Step .resume next := by
  obtain ⟨-, rest, chain, -⟩ := invariant.released (invariant.dropped_of_dropping dropping)
  rw [dropping] at chain
  have allocated : world.arena.heap.Allocated address := by
    cases rest with
    | nil => exact absurd (Chain.nil_iff.mp chain) (by simp [Control.walking])
    | cons head tail =>
      cases (Chain.cons_iff.mp chain).1
      exact chain.mem_allocated (List.mem_cons_self _ _)
  refine exists_step (resume_isSome (by simp [dropping])) fun fault failed => ?_
  rcases resume_error failed with ⟨_, _, _, _, collecting, -⟩ | ⟨_, dropping', stepped⟩
  · simp [dropping] at collecting
  · cases dropping.symm.trans dropping'
    exact allocated (GcArena.dropStep_error stepped).2

/-- Each pass of the sweep goes through: both cursors sit on allocated boxes. -/
theorem sweep_ok (invariant : world.Invariant) (sweeping : world.arena.phase = .sweeping)
    {caller : Caller} {work workLeft : Budget} {blockedGrayCount : ℕ}
    (collecting : world.control = .collecting caller work workLeft blockedGrayCount) :
    ∃ next, world.Step .resume next := by
  obtain ⟨cells, live⟩ := invariant.live (invariant.alive_of_collecting collecting)
  exact exists_resume collecting (live.shape.sweepStep_ok sweeping workLeft blockedGrayCount)

end World.Invariant

/-- Ownership across every run, the drop of the arena and the handles that outlive it: the pin
count of a box is the number of handles to it; the three places that free boxes never fail, and
each reads its box before it frees it, so none frees a box twice; every handle's box is
allocated; and once the arena is dropped and its walk is over, a box is allocated exactly while a
handle to it is held. -/
theorem ownership {world : World} (reachable : Reachable world) :
    (∀ address gcBox, world.arena.heap.boxes address = some gcBox →
      gcBox.rootCount.count = world.pins.count address) ∧
    (∀ gc ∈ world.pins, world.control = .idle → ∃ next, world.Step (.dropRgc gc) next) ∧
    (∀ address, world.control = .dropping address → ∃ next, world.Step .resume next) ∧
    (world.arena.phase = .sweeping → ∀ caller work workLeft blockedGrayCount,
      world.control = .collecting caller work workLeft blockedGrayCount →
      ∃ next, world.Step .resume next) ∧
    (∀ address ∈ world.pins, world.arena.heap.Allocated address) ∧
    (world.dropped = true → world.control = .idle →
      ∀ address, world.arena.heap.Allocated address ↔ address ∈ world.pins) := by
  have invariant := reachable.invariant
  refine ⟨invariant.pins.count, fun gc held idle => invariant.dropRgc_ok idle held,
    fun _ dropping => invariant.walk_ok dropping,
    fun sweeping _ _ _ _ collecting => invariant.sweep_ok sweeping collecting, invariant.pins.held,
    fun dropped idle address => ⟨fun allocated => ?_, invariant.pins.held address⟩⟩
  obtain ⟨gcBox, found⟩ := Option.ne_none_iff_exists'.mp allocated
  exact (invariant.pins.pinned_iff found).mp
    ((invariant.released dropped).left idle address gcBox found).2

/-- Two boxes, the second pinned and pointing at the first, collected up to the sweep of the
first. -/
private def sweepingPinned : List Event :=
  [.allocate ⟨32, by decide, true, {}⟩, .allocate ⟨32, by decide, true, ⟨[0], false⟩⟩, .root 1,
    .collectGarbage, .resume, .resume, .resume, .resume]

/-- The same two boxes, the arena dropped with the pin held and its walk run to the end. -/
private def droppedPinned : List Event :=
  [.allocate ⟨32, by decide, true, {}⟩, .allocate ⟨32, by decide, true, ⟨[0], false⟩⟩, .root 1,
    .dropArena, .resume, .resume]

theorem ownership_pinned :
    (∃ world, Reachable world ∧ world.dropped = false ∧ world.control ≠ .idle ∧
      world.arena.phase = .sweeping ∧ world.pins = [1] ∧
      (∀ address gcBox, world.arena.heap.boxes address = some gcBox →
        gcBox.rootCount.count = world.pins.count address) ∧
      (∀ gc ∈ world.pins, world.control = .idle → ∃ next, world.Step (.dropRgc gc) next) ∧
      (∀ address, world.control = .dropping address → ∃ next, world.Step .resume next) ∧
      (world.arena.phase = .sweeping → ∀ caller work workLeft blockedGrayCount,
        world.control = .collecting caller work workLeft blockedGrayCount →
        ∃ next, world.Step .resume next) ∧
      (∀ address ∈ world.pins, world.arena.heap.Allocated address) ∧
      (world.dropped = true → world.control = .idle →
        ∀ address, world.arena.heap.Allocated address ↔ address ∈ world.pins)) ∧
    (∃ world, Reachable world ∧ world.dropped = true ∧ world.control = .idle ∧
      world.pins = [1] ∧ ¬world.arena.heap.Allocated 0 ∧
      (∀ address gcBox, world.arena.heap.boxes address = some gcBox →
        gcBox.rootCount.count = world.pins.count address) ∧
      (∀ gc ∈ world.pins, world.control = .idle → ∃ next, world.Step (.dropRgc gc) next) ∧
      (∀ address, world.control = .dropping address → ∃ next, world.Step .resume next) ∧
      (world.arena.phase = .sweeping → ∀ caller work workLeft blockedGrayCount,
        world.control = .collecting caller work workLeft blockedGrayCount →
        ∃ next, world.Step .resume next) ∧
      (∀ address ∈ world.pins, world.arena.heap.Allocated address) ∧
      (world.dropped = true → world.control = .idle →
        ∀ address, world.arena.heap.Allocated address ↔ address ∈ world.pins)) := by
  have sweeping : (World.initial .default).runSatisfies sweepingPinned (fun world =>
      world.dropped = false ∧ world.control ≠ .idle ∧ world.arena.phase = .sweeping ∧
        world.pins = [1]) = true := by
    decide
  have dropped : (World.initial .default).runSatisfies droppedPinned (fun world =>
      world.dropped = true ∧ world.control = .idle ∧ world.pins = [1] ∧
        ¬world.arena.heap.Allocated 0) = true := by
    decide
  obtain ⟨first, path, alive, busy, phase, pins⟩ := World.exists_path_of_runSatisfies sweeping
  obtain ⟨second, path', gone, idle, pins', freed⟩ := World.exists_path_of_runSatisfies dropped
  exact ⟨⟨first, ⟨_, _, path⟩, alive, busy, phase, pins, ownership ⟨_, _, path⟩⟩,
    ⟨second, ⟨_, _, path'⟩, gone, idle, pins', freed, ownership ⟨_, _, path'⟩⟩⟩

end LusterGc
