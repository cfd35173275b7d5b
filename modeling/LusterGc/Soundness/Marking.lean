import LusterGc.Soundness.Invariant

/-! # Marking, and where it falls short

The tri-colour argument behind `do_collection` needs every gray box to stay in the gray queue
until it is traced, and a box whose type needs no tracing to go straight to black. Two slips break
this. The propagation arm drops a popped box that is light gray and no longer pinned, without
whitening or re-queueing it; the box then stays gray outside the queue, and the blocked counter
goes on counting past the queue's shrunken length. And the needs-trace reader uses `|`, so every
white box the tracer reaches is queued. Each general fact below is followed by a run that shows
what it costs.
-/

namespace LusterGc

/-- `address` is reachable through payload pointers from a pinned box. -/
inductive Heap.Reaches (heap : Heap) : Ptr → Prop
  | pinned {address : Ptr} {gcBox : GcBox} : heap.boxes address = some gcBox →
      gcBox.rootCount.count ≠ 0 → heap.Reaches address
  | child {parent address : Ptr} {gcBox : GcBox} : heap.Reaches parent →
      heap.boxes parent = some gcBox → address ∈ gcBox.value.children → heap.Reaches address

/-- With no pinned box, nothing is reachable. -/
theorem Heap.not_reaches_of_unpinned {heap : Heap}
    (unpinned : heap.Every fun gcBox => gcBox.rootCount.count = 0) {address : Ptr} :
    ¬heap.Reaches address := by
  intro reaches
  induction reaches with
  | pinned found pinned => exact pinned (unpinned _ _ found)
  | child _ _ _ ih => exact ih

/-- Every white box the tracer reaches turns dark gray and goes to the front of the queue. The
needs-trace flag stored at allocation is never consulted, since its reader reports true. -/
theorem GcTracer.trace_white {arena : GcArena} {gc : Ptr} {gcBox : GcBox}
    (found : arena.heap.boxes gc = some gcBox) (white : gcBox.flags.color = .white) :
    GcTracer.trace arena gc = .ok { arena.recolor gc .darkGray with gray := gc :: arena.gray } := by
  simp [GcTracer.trace, Heap.get, found, white, bind, Except.bind, pure, Except.pure]

/-- A box allocated with `needs_trace` false and holding no pointers, reached from a pinned box:
the first pass of `collect_garbage` puts it in the gray queue, dark gray. -/
theorem pointerFree_box_queued :
    ∃ world, Path (World.initial .default)
        [.allocate ⟨32, by decide, false, {}⟩, .allocate ⟨32, by decide, true, ⟨[0], false⟩⟩,
          .root 1, .collectGarbage, .resume] world ∧
      0 ∈ world.arena.gray ∧ (world.arena.heap.boxes 0).map (·.flags.color) = some .darkGray :=
  World.exists_path_of_runSatisfies (by decide)

namespace GcArena

end GcArena

/-- Pin `0` and `1`, `1` with its trace blocked, unpin `0` and collect: `collect_garbage`
returns while propagating, with `0` light gray and outside the queue. Unblock `1` and collect
again: the sweep reaches `0` still light gray. -/
theorem sweep_reaches_lightGray :
    ∃ world final, Path (World.initial .default)
        ([.allocate ⟨32, by decide, true, {}⟩, .allocate ⟨32, by decide, true, ⟨[], true⟩⟩,
          .root 0, .root 1, .dropRgc 0, .collectGarbage] ++ List.replicate 2 .resume) world ∧
      world.control = .idle ∧ world.arena.phase = .propagating ∧ 0 ∉ world.arena.gray ∧
      (world.arena.heap.boxes 0).map (·.flags.color) = some .lightGray ∧
      Path world ([.mutate 1 {}, .collectGarbage] ++ List.replicate 3 .resume) final ∧
      final.arena.phase = .sweeping ∧ final.arena.sweep = some 0 ∧
      (final.arena.heap.boxes 0).map (·.flags.color) = some .lightGray := by
  have checked : (World.initial .default).runSatisfies
      ([.allocate ⟨32, by decide, true, {}⟩, .allocate ⟨32, by decide, true, ⟨[], true⟩⟩,
        .root 0, .root 1, .dropRgc 0, .collectGarbage] ++ List.replicate 2 .resume)
      (fun world =>
        world.control = .idle ∧ world.arena.phase = .propagating ∧ 0 ∉ world.arena.gray ∧
        (world.arena.heap.boxes 0).map (·.flags.color) = some .lightGray ∧
        world.runSatisfies ([.mutate 1 {}, .collectGarbage] ++ List.replicate 3 .resume)
          (fun final => final.arena.phase = .sweeping ∧ final.arena.sweep = some 0 ∧
            (final.arena.heap.boxes 0).map (·.flags.color) = some .lightGray) = true) = true := by
    decide
  obtain ⟨world, path, idle, propagating, outside, lightGray, later⟩ :=
    World.exists_path_of_runSatisfies checked
  obtain ⟨final, path', reached⟩ := World.exists_path_of_runSatisfies later
  exact ⟨world, final, path, idle, propagating, outside, lightGray, path', reached⟩

/-- Root `2 → 1 → 0` at `2` and at `1`, then unpin `1` and collect: `1` is dropped from the
queue light gray, tracing `2` darkens it without queueing it, the sweep whitens it, and the
next pass frees `0`, which the pinned `2` reaches. -/
theorem sweep_frees_reachable :
    ∃ world next, Path (World.initial .default)
        ([.allocate ⟨32, by decide, true, {}⟩, .allocate ⟨32, by decide, true, ⟨[0], false⟩⟩,
          .allocate ⟨32, by decide, true, ⟨[1], false⟩⟩, .root 1, .root 2, .dropRgc 1,
          .collectGarbage] ++ List.replicate 5 .resume) world ∧
      world.Step .resume next ∧ world.arena.heap.Reaches 0 ∧ world.arena.heap.Allocated 0 ∧
      ¬next.arena.heap.Allocated 0 := by
  have checked : (World.initial .default).runSatisfies
        ([.allocate ⟨32, by decide, true, {}⟩, .allocate ⟨32, by decide, true, ⟨[0], false⟩⟩,
          .allocate ⟨32, by decide, true, ⟨[1], false⟩⟩, .root 1, .root 2, .dropRgc 1,
          .collectGarbage] ++ List.replicate 5 .resume)
        (fun world =>
          (world.arena.heap.boxes 2).map (fun gcBox => (gcBox.rootCount.count, gcBox.value.children)) =
            some (1, [1]) ∧
          (world.arena.heap.boxes 1).map (·.value.children) = some [0] ∧
          world.arena.heap.boxes 0 ≠ none ∧
          world.runSatisfies [.resume] (fun next => next.arena.heap.boxes 0 = none) = true) = true := by
    decide
  obtain ⟨world, path, top, middle, allocated, freeing⟩ := World.exists_path_of_runSatisfies checked
  obtain ⟨next, step, freed⟩ := World.exists_path_of_runSatisfies freeing
  obtain ⟨top, found, topIs⟩ := Option.map_eq_some'.mp top
  obtain ⟨middle, found', middleIs⟩ := Option.map_eq_some'.mp middle
  simp only [Prod.mk.injEq] at topIs
  have reachesTop : world.arena.heap.Reaches 2 := .pinned found (by simp [topIs.1])
  have reachesMiddle : world.arena.heap.Reaches 1 := .child reachesTop found (by simp [topIs.2])
  exact ⟨world, next, path, step.step_of_single, .child reachesMiddle found' (by simp [middleIs]),
    allocated, fun alive => alive freed⟩

/-- Scenario 2 of the specification: pin, collect, unpin, collect. The second `collect_garbage`
starts and ends asleep, no box is pinned and nothing is reachable, yet the box is still on the
list and counted. -/
theorem collectGarbage_keeps_unreachable :
    ∃ before after,
      Path (World.initial .default)
        ([.allocate ⟨32, by decide, true, {}⟩, .root 0, .collectGarbage] ++
          List.replicate 5 .resume ++ [.dropRgc 0]) before ∧
      before.control = .idle ∧ before.arena.phase = .sleeping ∧
      Path before (.collectGarbage :: List.replicate 5 .resume) after ∧
      after.control = .idle ∧ after.arena.phase = .sleeping ∧
      ¬after.arena.heap.Reaches 0 ∧ after.arena.all = some 0 ∧ after.arena.totalAllocated = 32 := by
  have checked : (World.initial .default).runSatisfies
        ([.allocate ⟨32, by decide, true, {}⟩, .root 0, .collectGarbage] ++
          List.replicate 5 .resume ++ [.dropRgc 0])
        (fun before =>
          before.control = .idle ∧ before.arena.phase = .sleeping ∧
          before.runSatisfies (.collectGarbage :: List.replicate 5 .resume) (fun after =>
            after.control = .idle ∧ after.arena.phase = .sleeping ∧ after.dropped = false ∧
            after.arena.all = some 0 ∧ after.arena.totalAllocated = 32 ∧ after.arena.heap.fresh = 1 ∧
            (after.arena.heap.boxes 0).map (·.rootCount.count) = some 0) = true) = true := by
    decide
  obtain ⟨before, first, idle, sleeping, collected⟩ := World.exists_path_of_runSatisfies checked
  obtain ⟨after, second, idle', sleeping', alive, all, total, fresh, unpinned⟩ :=
    World.exists_path_of_runSatisfies collected
  obtain ⟨cells, live⟩ := (show Reachable after from ⟨.default, _, first.append second⟩).invariant.live alive
  refine ⟨before, after, first, idle, sleeping, second, idle', sleeping',
    Heap.not_reaches_of_unpinned fun address gcBox found => ?_, all, total⟩
  cases address with
  | zero => simpa [found] using unpinned
  | succ address =>
    have gone := live.shape.unused (address + 1) (by simp [fresh])
    simp [gone] at found

namespace GcArena

end GcArena

end LusterGc
