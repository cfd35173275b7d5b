import LusterGc.Soundness.Invariant

/-! # The all-list and the byte count across runs

Read off `World.Invariant` in every world a run reaches while the arena lives: the all-list is a
finite list without repeats of exactly the allocated boxes, the sweep cursors sit on it as the
sweep expects, a pass frees nothing but the white box at the cursor and unlinks exactly it, and
`total_allocated` counts the bytes of the list.
-/

namespace LusterGc

/-- The all-list is well formed in every world a run reaches while the arena lives, and every
pass of `do_collection` that frees a box frees the white box at the cursor, leaves the list
without exactly that box, and finds it at the head of the list when `sweep_prev` is unset. -/
theorem allList_wellFormed {world : World} (reachable : Reachable world)
    (alive : world.dropped = false) :
    ∃ cells, Chain world.arena.heap world.arena.all cells none ∧ cells.Nodup ∧
      (∀ address, address ∈ cells ↔ world.arena.heap.Allocated address) ∧
      (world.arena.phase ≠ .sweeping → world.arena.sweepPrev = none) ∧
      (world.arena.phase = .sweeping →
        (∀ sweepPtr, world.arena.sweep = some sweepPtr → sweepPtr ∈ cells) ∧
        (world.arena.sweepPrev = none ∧ world.arena.all = world.arena.sweep ∨
          ∃ prev gcBox, world.arena.sweepPrev = some prev ∧ prev ∈ cells ∧
            world.arena.heap.boxes prev = some gcBox ∧ gcBox.next = world.arena.sweep)) ∧
      ∀ workLeft blockedGrayCount pass,
        world.arena.collectionStep workLeft blockedGrayCount = .ok pass →
        ∀ address, world.arena.heap.Allocated address → ¬pass.arena.heap.Allocated address →
          world.arena.phase = .sweeping ∧ world.arena.sweep = some address ∧
          (∃ gcBox, world.arena.heap.boxes address = some gcBox ∧ gcBox.flags.color = .white) ∧
          (world.arena.sweepPrev = none → world.arena.all = some address) ∧
          Chain pass.arena.heap pass.arena.all (cells.erase address) none := by
  obtain ⟨cells, live⟩ := reachable.invariant.live alive
  have shape := live.shape
  refine ⟨cells, shape.chain, shape.nodup, shape.mem_iff, shape.sweepPrev_none,
    shape.cursor_cases, fun _ _ _ success address before after => ?_⟩
  obtain ⟨sweeping, cursorAt, white, head, erased⟩ :=
    shape.freed_of_collectionStep success before after
  exact ⟨sweeping, cursorAt, white, head, erased.chain⟩

/-- Two boxes, the second pinned, collected up to the sweep of the first, which is garbage: the
cursor is on it and `sweep_prev` on the pinned box. -/
private def garbageSwept : List Event :=
  [.allocate ⟨32, by decide, true, {}⟩, .allocate ⟨32, by decide, true, {}⟩, .root 1,
    .collectGarbage, .resume, .resume, .resume]

theorem allList_wellFormed_garbage :
    ∃ world, Reachable world ∧ world.dropped = false ∧ world.arena.phase = .sweeping ∧
      world.arena.sweep = some 0 ∧ world.arena.sweepPrev = some 1 ∧
      ∃ cells, Chain world.arena.heap world.arena.all cells none ∧ cells.Nodup ∧
        (∀ address, address ∈ cells ↔ world.arena.heap.Allocated address) ∧
        (world.arena.phase ≠ .sweeping → world.arena.sweepPrev = none) ∧
        (world.arena.phase = .sweeping →
          (∀ sweepPtr, world.arena.sweep = some sweepPtr → sweepPtr ∈ cells) ∧
          (world.arena.sweepPrev = none ∧ world.arena.all = world.arena.sweep ∨
            ∃ prev gcBox, world.arena.sweepPrev = some prev ∧ prev ∈ cells ∧
              world.arena.heap.boxes prev = some gcBox ∧ gcBox.next = world.arena.sweep)) ∧
        ∀ workLeft blockedGrayCount pass,
          world.arena.collectionStep workLeft blockedGrayCount = .ok pass →
          ∀ address, world.arena.heap.Allocated address → ¬pass.arena.heap.Allocated address →
            world.arena.phase = .sweeping ∧ world.arena.sweep = some address ∧
            (∃ gcBox, world.arena.heap.boxes address = some gcBox ∧ gcBox.flags.color = .white) ∧
            (world.arena.sweepPrev = none → world.arena.all = some address) ∧
            Chain pass.arena.heap pass.arena.all (cells.erase address) none := by
  have checked : (World.initial .default).runSatisfies garbageSwept (fun world =>
      world.dropped = false ∧ world.arena.phase = .sweeping ∧ world.arena.sweep = some 0 ∧
        world.arena.sweepPrev = some 1) = true := by
    decide
  obtain ⟨world, path, alive, sweeping, cursorAt, prevAt⟩ := World.exists_path_of_runSatisfies checked
  exact ⟨world, ⟨_, _, path⟩, alive, sweeping, cursorAt, prevAt,
    allList_wellFormed ⟨_, _, path⟩ alive⟩

/-- Between calls `total_allocated` is the number of bytes on the all-list; inside an
`allocate` it also counts the box still to be linked. The box at the sweep cursor is counted, so
the sweep's subtraction never wraps. -/
theorem totalAllocated_eq_sum {world : World} (reachable : Reachable world)
    (alive : world.dropped = false) :
    ∃ cells, Chain world.arena.heap world.arena.all cells none ∧
      world.arena.totalAllocated = world.arena.heap.totalSize cells + world.control.pending ∧
      (world.control = .idle → world.arena.totalAllocated = world.arena.heap.totalSize cells) ∧
      ∀ sweepPtr gcBox, world.arena.phase = .sweeping → world.arena.sweep = some sweepPtr →
        world.arena.heap.boxes sweepPtr = some gcBox → gcBox.size ≤ world.arena.totalAllocated := by
  obtain ⟨cells, live⟩ := reachable.invariant.live alive
  refine ⟨cells, live.shape.chain, live.shape.total, fun idle => ?_,
    fun _ _ sweeping cursorAt found => live.shape.size_le_totalAllocated sweeping cursorAt found⟩
  simpa [idle, Control.pending] using live.shape.total

theorem totalAllocated_eq_sum_garbage :
    ∃ world, Reachable world ∧ world.dropped = false ∧ world.arena.phase = .sweeping ∧
      world.arena.sweep = some 0 ∧ world.arena.totalAllocated = 64 ∧
      ∃ cells, Chain world.arena.heap world.arena.all cells none ∧
        world.arena.totalAllocated = world.arena.heap.totalSize cells + world.control.pending ∧
        (world.control = .idle → world.arena.totalAllocated = world.arena.heap.totalSize cells) ∧
        ∀ sweepPtr gcBox, world.arena.phase = .sweeping → world.arena.sweep = some sweepPtr →
          world.arena.heap.boxes sweepPtr = some gcBox → gcBox.size ≤ world.arena.totalAllocated := by
  have checked : (World.initial .default).runSatisfies garbageSwept (fun world =>
      world.dropped = false ∧ world.arena.phase = .sweeping ∧ world.arena.sweep = some 0 ∧
        world.arena.totalAllocated = 64) = true := by
    decide
  obtain ⟨world, path, alive, sweeping, cursorAt, total⟩ := World.exists_path_of_runSatisfies checked
  exact ⟨world, ⟨_, _, path⟩, alive, sweeping, cursorAt, total,
    totalAllocated_eq_sum ⟨_, _, path⟩ alive⟩

end LusterGc
