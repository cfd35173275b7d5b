import LusterGc.Soundness.Sweep
import LusterGc.Machine.Calls

/-! # The colours the sweep leaves behind

The sweep turns every box it keeps white, or light gray when it is pinned, and queues it then;
`root` queues every box it turns light gray; outside propagation `write_barrier` changes nothing;
and a new box is white. So every box the sweep has passed is white, or light gray and waiting in
the gray queue, and once the sweep is over every box is: an asleep collector holds no dark gray or
black box, and every pinned box waits in the gray queue for the next cycle. Propagation, where
the loop drops light gray entries from the queue, promises nothing here.
-/

namespace LusterGc

/-- The rest of the sweep is the part of the list behind `sweep_prev`: it has no duplicates and
does not hold `sweep_prev`. -/
theorem ListShape.rest_of_chain {arena : GcArena} {cells : List Ptr} {pending : ℕ}
    (shape : ListShape arena cells pending) (sweeping : arena.phase = .sweeping) {rest : List Ptr}
    (chain : Chain arena.heap arena.sweep rest none) :
    rest.Nodup ∧ ∀ prev, arena.sweepPrev = some prev → prev ∉ rest := by
  obtain ⟨swept, rest', split, -, back, last⟩ := shape.cursor sweeping
  obtain rfl := chain.unique back
  have disjoint := List.nodup_append.mp (split ▸ shape.nodup)
  refine ⟨disjoint.2.1, fun prev set member => disjoint.2.2 ?_ member⟩
  rw [last] at set
  exact List.mem_of_getLast?_eq_some set

/-- White, or light gray and waiting in the gray queue. -/
def GcBox.Settled (gcBox : GcBox) (gray : List Ptr) (address : Ptr) : Prop :=
  gcBox.flags.color = .white ∨ gcBox.flags.color = .lightGray ∧ address ∈ gray

namespace GcArena

/-- Every box off `rest` is settled. -/
def SettledOff (arena : GcArena) (rest : List Ptr) : Prop :=
  ∀ address gcBox, arena.heap.boxes address = some gcBox → address ∉ rest →
    gcBox.Settled arena.gray address

/-- Asleep, every box is settled; while sweeping, every box off the rest of the list that the
cursor has still to visit is. Propagation promises nothing. -/
structure ColorsSettled (arena : GcArena) : Prop where
  asleep : arena.phase = .sleeping → arena.SettledOff []
  swept : arena.phase = .sweeping →
    ∃ rest, Chain arena.heap arena.sweep rest none ∧ arena.SettledOff rest

namespace SettledOff

variable {arena next : GcArena} {rest rest' : List Ptr}

/-- A box off `rest'` stays settled when it is settled now, or when it kept its colour and was
off `rest`, as long as the gray queue only grows. -/
theorem of_colors (settled : arena.SettledOff rest) (grows : arena.gray ⊆ next.gray)
    (colors : ∀ address gcBox', next.heap.boxes address = some gcBox' → address ∉ rest' →
      gcBox'.Settled next.gray address ∨ address ∉ rest ∧
        ∃ gcBox, arena.heap.boxes address = some gcBox ∧ gcBox'.flags.color = gcBox.flags.color) :
    next.SettledOff rest' := by
  intro address gcBox' found outside
  rcases colors address gcBox' found outside with done | ⟨off, gcBox, old, same⟩
  · exact done
  · rcases settled address gcBox old off with white | ⟨light, queued⟩
    · exact .inl (same.trans white)
    · exact .inr ⟨same.trans light, grows queued⟩

/-- Rewriting a box in place with the same flags. -/
theorem of_set (settled : arena.SettledOff rest) {address : Ptr} {gcBox gcBox' : GcBox}
    (found : arena.heap.boxes address = some gcBox) (flags : gcBox'.flags = gcBox.flags) :
    { arena with heap := arena.heap.set address gcBox' }.SettledOff rest := by
  refine settled.of_colors (List.Subset.refl _) fun query box found' outside => .inr ⟨outside, ?_⟩
  by_cases here : query = address
  · subst here
    simp only [Heap.set_boxes, ite_true, Option.some.injEq] at found'
    exact ⟨gcBox, found, by rw [← found', flags]⟩
  · exact ⟨box, by simpa [here] using found', rfl⟩

/-- Recolouring a box with a settled colour takes it off the rest. -/
theorem of_recolor (settled : arena.SettledOff rest) {address : Ptr}
    (off : ∀ query ∉ rest', query ≠ address → query ∉ rest) {gray : List Ptr}
    (grows : arena.gray ⊆ gray) {color : GcColor}
    (target : color = .white ∨ color = .lightGray ∧ address ∈ gray) :
    { arena with heap := arena.heap.recolor address color, gray }.SettledOff rest' := by
  refine settled.of_colors grows fun query box found outside => ?_
  rw [Heap.recolor_boxes] at found
  split at found
  · rename_i here
    subst here
    obtain ⟨gcBox, -, rfl⟩ := Option.map_eq_some'.mp found
    exact .inl (by simpa only [GcBox.Settled, GcFlags.color_setColor] using target)
  · exact .inr ⟨off query outside ‹_›, box, found, rfl⟩

/-- A new box is white. -/
theorem of_alloc (settled : arena.SettledOff rest) {gcBox : GcBox}
    (white : gcBox.flags.color = .white) :
    { arena with heap := (arena.heap.alloc gcBox).1 }.SettledOff rest := by
  refine settled.of_colors (List.Subset.refl _) fun query box found outside => ?_
  by_cases here : query = arena.heap.fresh
  · simp only [Heap.alloc_boxes, here, ite_true, Option.some.injEq] at found
    exact .inl (.inl (found ▸ white))
  · exact .inr ⟨outside, box, by simpa [here] using found, rfl⟩

/-- Freeing the box at the head of the rest takes it off the rest. -/
theorem of_erase (settled : arena.SettledOff (address :: rest)) :
    { arena with heap := arena.heap.erase address }.SettledOff rest := by
  refine settled.of_colors (List.Subset.refl _) fun query box found outside => ?_
  by_cases here : query = address
  · simp [here] at found
  · exact .inr ⟨by simp [here, outside], box, by simpa [here] using found, rfl⟩

/-- `unlink` changes a link only. -/
theorem of_unlink (settled : arena.SettledOff rest) {link : Option Ptr} {unlinked : GcArena}
    (unlinking : arena.unlink link = .ok unlinked) : unlinked.SettledOff rest := by
  obtain ⟨-, -, -, -, gray, -⟩ := GcArena.unlink_frame unlinking
  refine settled.of_colors (by rw [gray]; exact List.Subset.refl _) fun address box found outside => ?_
  obtain ⟨gcBox, old, flags⟩ := GcArena.unlink_flags unlinking found
  exact .inr ⟨outside, gcBox, old, by rw [flags]⟩

end SettledOff

namespace ColorsSettled

variable {arena next : GcArena}

/-- Propagation promises nothing. -/
theorem of_propagating (propagating : arena.phase = .propagating) : arena.ColorsSettled where
  asleep asleep := absurd (propagating.symm.trans asleep) (by decide)
  swept sweeping := absurd (propagating.symm.trans sweeping) (by decide)

/-- A change that keeps the layout of memory and the cursor, keeps the phase or wakes the
collector, and keeps every settled box settled, keeps the colours settled. -/
theorem congr (settled : arena.ColorsSettled) (layout : next.heap.layout = arena.heap.layout)
    (sweep : next.sweep = arena.sweep)
    (phase : next.phase = arena.phase ∨ next.phase = .propagating)
    (colors : ∀ rest, arena.SettledOff rest → next.SettledOff rest) : next.ColorsSettled := by
  rcases phase with same | propagating
  · refine ⟨fun asleep => colors [] (settled.asleep (same ▸ asleep)), fun sweeping => ?_⟩
    obtain ⟨rest, chain, off⟩ := settled.swept (same ▸ sweeping)
    exact ⟨rest, sweep ▸ chain.of_layout layout, colors rest off⟩
  · exact of_propagating propagating

theorem of_allocateStart (settled : arena.ColorsSettled) (allocSize : ℕ) :
    (arena.allocateStart allocSize).1.ColorsSettled := by
  obtain ⟨phase, debt, timer, started, woken⟩ := arena.allocateStart_eq allocSize
  rw [started]
  exact settled.congr rfl rfl (woken.imp_right And.right) fun _ off => off

theorem of_startCycle (settled : arena.ColorsSettled) : arena.startCycle.ColorsSettled := by
  obtain ⟨phase, started, woken⟩ := arena.startCycle_eq
  rw [started]
  exact settled.congr rfl rfl (woken.imp_right And.right) fun _ off => off

theorem of_finishCollection (settled : arena.ColorsSettled) (work workLeft : Budget) :
    (arena.finishCollection work workLeft).ColorsSettled := by
  obtain ⟨debt, finished⟩ := arena.finishCollection_eq work workLeft
  rw [finished]
  exact settled.congr rfl rfl (.inl rfl) fun _ off => off

/-- The new box is white, and it goes in front of the rest of the sweep. -/
theorem of_allocateFinish (settled : arena.ColorsSettled)
    (unused : arena.heap.boxes arena.heap.fresh = none) (request : Allocation) :
    (arena.allocateFinish request).1.ColorsSettled := by
  rw [arena.allocateFinish_eq request]
  have colors : ∀ rest, arena.SettledOff rest →
      { arena with heap := (arena.heap.alloc (request.box arena.all)).1 }.SettledOff rest :=
    fun _ off => off.of_alloc (by simp [Allocation.box])
  refine ⟨fun asleep => colors [] (settled.asleep asleep), fun sweeping => ?_⟩
  obtain ⟨rest, chain, off⟩ := settled.swept sweeping
  refine ⟨rest, chain.of_agree fun address member => ?_, colors rest off⟩
  have other : address ≠ arena.heap.fresh := fun same =>
    chain.mem_allocated member (same ▸ unused)
  simp [other]

/-- Rewriting a box in place, keeping its flags, link and size. -/
theorem of_set (settled : arena.ColorsSettled) {address : Ptr} {gcBox gcBox' : GcBox}
    (found : arena.heap.boxes address = some gcBox) (flags : gcBox'.flags = gcBox.flags)
    (link : gcBox'.next = gcBox.next) (size : gcBox'.size = gcBox.size) :
    { arena with heap := arena.heap.set address gcBox' }.ColorsSettled :=
  settled.congr (Heap.layout_set found link size) rfl (.inl rfl) fun _ off => off.of_set found flags

/-- `root` queues a white box as it turns it light gray. -/
theorem of_root (settled : arena.ColorsSettled) {gc : Ptr} (success : arena.root gc = .ok next) :
    next.ColorsSettled := by
  obtain ⟨gcBox, found, -, rfl⟩ := GcArena.root_eq_ok success
  have pinned : ColorsSettled { arena with
      heap := arena.heap.set gc { gcBox with rootCount := ⟨gcBox.rootCount.count + 1⟩ } } :=
    settled.of_set found rfl rfl rfl
  split
  · exact pinned.congr (Heap.recolor_layout _ _ _) rfl (.inl rfl) fun _ off =>
      off.of_recolor (fun _ outside _ => outside) (List.subset_append_left _ _)
        (.inr ⟨rfl, List.mem_append_right _ (List.mem_singleton_self _)⟩)
  · exact pinned

/-- Outside propagation `write_barrier` changes nothing. -/
theorem of_writeBarrier (settled : arena.ColorsSettled) {gc : Ptr}
    (success : arena.writeBarrier gc = .ok next) : next.ColorsSettled := by
  obtain ⟨-, marks, unchanged⟩ := GcArena.writeBarrier_eq_ok success
  by_cases propagating : arena.phase = .propagating
  · exact of_propagating (marks.phase.trans propagating)
  · exact unchanged propagating ▸ settled

/-- The pass that finds the gray queue empty starts the sweep with every box on the rest; every
other pass of propagation keeps the collector propagating. -/
theorem of_propagate {cells : List Ptr} {pending : ℕ} (shape : ListShape arena cells pending)
    (propagating : arena.phase = .propagating) {workLeft : Budget} {blockedGrayCount : ℕ}
    {pass : Pass} (success : arena.propagate workLeft blockedGrayCount = .ok pass) :
    pass.arena.ColorsSettled := by
  rcases GcArena.propagate_eq_ok success with ⟨-, next⟩ | marks
  · rw [next]
    refine ⟨fun asleep => (by cases asleep), fun _ => ⟨cells, shape.chain, ?_⟩⟩
    intro address gcBox found outside
    exact absurd ((shape.mem_iff address).mpr (Option.ne_none_iff_exists'.mpr ⟨gcBox, found⟩))
      outside
  · exact of_propagating (marks.phase.trans propagating)

/-- A pass of the sweep. A kept box leaves the rest recoloured, and queued when it is light gray;
a freed box leaves it; the end of the list puts the collector to sleep with every box settled. -/
theorem of_sweepStep (settled : arena.ColorsSettled) {cells : List Ptr} {pending : ℕ}
    (shape : ListShape arena cells pending) (sweeping : arena.phase = .sweeping)
    {workLeft : Budget} {blockedGrayCount : ℕ} {pass : Pass}
    (success : arena.sweepStep workLeft blockedGrayCount = .ok pass) :
    pass.arena.ColorsSettled := by
  obtain ⟨rest, chain, off⟩ := settled.swept sweeping
  obtain ⟨nodup, prevOff⟩ := shape.rest_of_chain sweeping chain
  obtain ⟨-, -, ⟨atEnd, -, next⟩ | ⟨sweepPtr, gcBox, cursorAt, found, outcome⟩⟩ :=
    GcArena.sweepStep_eq_ok success
  · rw [atEnd] at chain
    cases rest with
    | nil => exact next ▸ ⟨fun _ => off, fun sweeping => by cases sweeping⟩
    | cons head tail => exact absurd (Chain.cons_iff.mp chain).1 (by simp)
  rw [cursorAt] at chain
  cases rest with
  | nil => exact absurd (Chain.nil_iff.mp chain) (by simp)
  | cons head tail =>
  obtain ⟨same, gcBox', found', tail'⟩ := Chain.cons_iff.mp chain
  cases same
  cases found.symm.trans found'
  have notSleeping : ∀ phase, phase = arena.phase → phase ≠ .sleeping := fun _ same asleep =>
    absurd (sweeping.symm.trans (same.symm.trans asleep)) (by decide)
  rcases outcome with ⟨-, -, unlinked, unlinking, -, next⟩ | ⟨-, -, next⟩
  · -- freed: the box leaves memory, and `unlink` relinks `sweep_prev`, which is off the rest
    obtain ⟨sweepAt, -, -, phase, -⟩ := GcArena.unlink_frame unlinking
    have agree := GcArena.unlink_erase_agree unlinking (List.nodup_cons.mp nodup).1
      fun prev set member => prevOff prev set (List.mem_cons_of_mem _ member)
    have unlinkedOff : SettledOff { arena with sweep := gcBox.next } (sweepPtr :: tail) := off
    rw [next]
    refine ⟨fun asleep => absurd asleep (notSleeping _ phase), fun _ => ⟨tail, ?_,
      (unlinkedOff.of_unlink unlinking).of_erase⟩⟩
    show Chain _ unlinked.sweep tail none
    rw [sweepAt]
    exact tail'.of_agree agree
  · -- kept: recoloured white, or light gray and queued
    have leaves : ∀ query ∉ tail, query ≠ sweepPtr → query ∉ sweepPtr :: tail :=
      fun _ outside other => by simp [other, outside]
    have chain : ∀ color, Chain (arena.heap.recolor sweepPtr color) gcBox.next tail none :=
      fun color => tail'.of_layout (arena.heap.recolor_layout sweepPtr color)
    rw [next]
    split
    · exact ⟨fun asleep => absurd asleep (notSleeping _ rfl), fun _ => ⟨tail, chain _,
        off.of_recolor leaves (List.subset_append_left _ _)
          (.inr ⟨rfl, List.mem_append_right _ (List.mem_singleton_self _)⟩)⟩⟩
    · exact ⟨fun asleep => absurd asleep (notSleeping _ rfl), fun _ => ⟨tail, chain _,
        off.of_recolor leaves (List.Subset.refl _) (.inl rfl)⟩⟩

/-- A pass of `do_collection`. -/
theorem of_collectionStep (settled : arena.ColorsSettled) {cells : List Ptr} {pending : ℕ}
    (shape : ListShape arena cells pending) {workLeft : Budget} {blockedGrayCount : ℕ}
    {pass : Pass} (success : arena.collectionStep workLeft blockedGrayCount = .ok pass) :
    pass.arena.ColorsSettled := by
  rcases GcArena.collectionStep_eq_ok success with
    ⟨-, rfl⟩ | ⟨propagating, propagated⟩ | ⟨sweeping, swept⟩
  · exact settled
  · exact of_propagate shape propagating propagated
  · exact settled.of_sweepStep shape sweeping swept

end ColorsSettled

end GcArena

namespace World

variable {world next : World}

/-- Leaving the loop of `do_collection` links a white box, if any. -/
theorem leaveCollection_colorsSettled {caller : Caller} {arena : GcArena} {work workLeft : Budget}
    (settled : arena.ColorsSettled) (unused : arena.heap.boxes arena.heap.fresh = none) :
    (world.leaveCollection caller arena work workLeft).arena.ColorsSettled := by
  have finished := settled.of_finishCollection work workLeft
  cases caller with
  | collectGarbage => exact finished
  | allocate request => exact finished.of_allocateFinish (by simpa using unused) request

/-- Every step of a live arena that leaves it live keeps its colours settled. -/
theorem Step.colorsSettled {event : Event} (invariant : world.Invariant)
    (alive : world.dropped = false) (settled : world.arena.ColorsSettled)
    (step : world.Step event next) (stillAlive : next.dropped = false) :
    next.arena.ColorsSettled := by
  obtain ⟨cells, live⟩ := invariant.live alive
  cases event with
  | allocate request =>
    obtain ⟨-, -, outcome⟩ := Step.allocate_eq step
    have started := settled.of_allocateStart request.size
    rcases outcome with ⟨-, rfl⟩ | ⟨work, -, rfl⟩
    · exact started.of_allocateFinish (by simpa using live.shape.unused _ le_rfl) request
    · exact started
  | root gc =>
    obtain ⟨-, -, arena, success, rfl⟩ := Step.root_eq step
    exact settled.of_root success
  | writeBarrier gc =>
    obtain ⟨-, -, arena, success, rfl⟩ := Step.writeBarrier_eq step
    exact settled.of_writeBarrier success
  | collectGarbage =>
    obtain ⟨-, -, rfl⟩ := Step.collectGarbage_eq step
    exact settled.of_startCycle
  | cloneRgc gc =>
    obtain ⟨-, -, heap, success, rfl⟩ := Step.cloneRgc_eq step
    obtain ⟨gcBox, found, -, rfl⟩ := Rgc.clone_eq_ok success
    exact settled.of_set found rfl rfl rfl
  | dropRgc gc =>
    obtain ⟨-, -, heap, success, rfl⟩ := Step.dropRgc_eq step
    obtain ⟨gcBox, found, freed⟩ := Rgc.drop_eq_ok success
    simp only [if_neg (show ¬(gcBox.rootCount.decrement.count = 0 ∧
      gcBox.flags.isDetached = true) by simp [live.attached gc gcBox found])] at freed
    subst freed
    exact settled.of_set found rfl rfl rfl
  | mutate gc value =>
    obtain ⟨-, gcBox, found, rfl⟩ := Step.mutate_eq step
    exact settled.of_set found rfl rfl rfl
  | dropArena =>
    obtain ⟨-, -, rfl⟩ := Step.dropArena_eq step
    cases stillAlive
  | resume =>
    rcases Step.resume_eq step with
      ⟨caller, work, workLeft, blockedGrayCount, -, ⟨-, pass, success, rfl⟩ | ⟨-, rfl⟩⟩ |
      ⟨address, -, -, dropping, -, -⟩
    · have passed := settled.of_collectionStep live.shape success
      have unused : pass.arena.heap.boxes pass.arena.heap.fresh = none := by
        rcases live.shape.of_collectionStep success with shape | ⟨_, _, _, _, _, _, _, shape⟩ <;>
          exact shape.unused _ le_rfl
      split
      · exact leaveCollection_colorsSettled passed unused
      · exact passed
    · exact leaveCollection_colorsSettled settled (live.shape.unused _ le_rfl)
    · exact absurd (invariant.dropped_of_dropping dropping) (by simp [alive])

end World

/-- In every world a run reaches, while the arena lives, the colours are settled. -/
theorem Reachable.colorsSettled {world : World} (reachable : Reachable world)
    (alive : world.dropped = false) : world.arena.ColorsSettled := by
  refine Reachable.induction (fun world => world.dropped = false → world.arena.ColorsSettled)
    (fun _ _ => ⟨fun _ _ _ found => (by cases found), fun sweeping => (by cases sweeping)⟩)
    (fun {world _ _} reachable settled step stillAlive => ?_) reachable alive
  cases dropped : world.dropped with
  | false => exact step.colorsSettled reachable.invariant dropped (settled dropped) stillAlive
  | true => exact absurd (step.phase_of_dropped reachable.invariant dropped).1 (by simp [stillAlive])

/-- Between the events of a run, an asleep collector holds no dark gray or black box, and every
light gray box waits in the gray queue. -/
theorem Reachable.sleeping_settled {world : World} (reachable : Reachable world)
    (alive : world.dropped = false) (sleeping : world.arena.phase = .sleeping) {address : Ptr}
    {gcBox : GcBox} (found : world.arena.heap.boxes address = some gcBox) :
    gcBox.flags.color = .white ∨ gcBox.flags.color = .lightGray ∧ address ∈ world.arena.gray :=
  (reachable.colorsSettled alive).asleep sleeping address gcBox found (List.not_mem_nil _)

/-- A run that allocates one box and pins it, leaving the collector asleep. -/
private theorem exists_rootedBox :
    ∃ world, Reachable world ∧ world.control = .idle ∧ world.dropped = false ∧
      world.arena.phase = .sleeping ∧ (world.arena.heap.boxes 0).map (·.rootCount.count) = some 1 ∧
      (match world.arena.collectGarbage 20 with
        | some (.ok arena) => arena.phase == .sleeping && (arena.heap.boxes 0).isSome
        | _ => false) = true := by
  have checked : (World.initial .default).runSatisfies [.allocate ⟨32, by decide, true, {}⟩, .root 0]
      (fun world => world.control = .idle ∧ world.dropped = false ∧
        world.arena.phase = .sleeping ∧ (world.arena.heap.boxes 0).map (·.rootCount.count) = some 1 ∧
        (match world.arena.collectGarbage 20 with
          | some (.ok arena) => arena.phase == .sleeping && (arena.heap.boxes 0).isSome
          | _ => false) = true) = true := by
    decide
  obtain ⟨world, path, property⟩ := World.exists_path_of_runSatisfies checked
  exact ⟨world, ⟨.default, _, path⟩, property⟩

theorem Reachable.sleeping_settled_rooted :
    ∃ world gcBox, Reachable world ∧ world.dropped = false ∧ world.arena.phase = .sleeping ∧
      world.arena.heap.boxes 0 = some gcBox ∧
      (gcBox.flags.color = .white ∨ gcBox.flags.color = .lightGray ∧ 0 ∈ world.arena.gray) := by
  obtain ⟨world, reachable, -, alive, sleeping, counted, -⟩ := exists_rootedBox
  obtain ⟨gcBox, found, -⟩ := Option.map_eq_some'.mp counted
  exact ⟨world, gcBox, reachable, alive, sleeping, found,
    reachable.sleeping_settled alive sleeping found⟩

/-- An asleep collector has every pinned box light gray and in the gray queue, where the next
cycle starts from it. -/
theorem Reachable.sleeping_pinned_queued {world : World} (reachable : Reachable world)
    (alive : world.dropped = false) (sleeping : world.arena.phase = .sleeping) {address : Ptr}
    {gcBox : GcBox} (found : world.arena.heap.boxes address = some gcBox)
    (pinned : gcBox.rootCount.count ≠ 0) :
    gcBox.flags.color = .lightGray ∧ address ∈ world.arena.gray := by
  obtain ⟨cells, live⟩ := reachable.invariant.live alive
  exact ((reachable.colorsSettled alive).asleep sleeping address gcBox found
    (List.not_mem_nil _)).resolve_left (live.marked address gcBox found pinned)

theorem Reachable.sleeping_pinned_queued_rooted :
    ∃ world gcBox, Reachable world ∧ world.dropped = false ∧ world.arena.phase = .sleeping ∧
      world.arena.heap.boxes 0 = some gcBox ∧ gcBox.rootCount.count ≠ 0 ∧
      gcBox.flags.color = .lightGray ∧ 0 ∈ world.arena.gray := by
  obtain ⟨world, reachable, -, alive, sleeping, counted, -⟩ := exists_rootedBox
  obtain ⟨gcBox, found, count⟩ := Option.map_eq_some'.mp counted
  have pinned : gcBox.rootCount.count ≠ 0 := by rw [count]; decide
  exact ⟨world, gcBox, reachable, alive, sleeping, found, pinned,
    reachable.sleeping_pinned_queued alive sleeping found pinned⟩

/-- Called between the calls of a live run, `GcArena::collect_garbage` that returns asleep leaves
no dark gray or black box, and every light gray box in the gray queue. -/
theorem GcArena.collectGarbage_settled {world : World} (reachable : Reachable world)
    (idle : world.control = .idle) (alive : world.dropped = false) {fuel : ℕ} {arena : GcArena}
    (returned : world.arena.collectGarbage fuel = some (.ok arena))
    (sleeping : arena.phase = .sleeping) {address : Ptr} {gcBox : GcBox}
    (found : arena.heap.boxes address = some gcBox) : gcBox.Settled arena.gray address :=
  ((reachable.collectGarbage_returned idle alive returned).colorsSettled alive).asleep sleeping
    address gcBox found (List.not_mem_nil _)

theorem GcArena.collectGarbage_settled_rooted :
    ∃ world arena gcBox, Reachable world ∧ world.control = .idle ∧ world.dropped = false ∧
      world.arena.collectGarbage 20 = some (.ok arena) ∧ arena.phase = .sleeping ∧
      arena.heap.boxes 0 = some gcBox ∧ gcBox.Settled arena.gray 0 := by
  obtain ⟨world, reachable, idle, alive, -, -, returned⟩ := exists_rootedBox
  split at returned
  · rename_i arena collected
    simp only [Bool.and_eq_true, beq_iff_eq, Option.isSome_iff_exists] at returned
    obtain ⟨sleeping, gcBox, found⟩ := returned
    exact ⟨world, arena, gcBox, reachable, idle, alive, collected, sleeping, found,
      GcArena.collectGarbage_settled reachable idle alive collected sleeping found⟩
  · cases returned

end LusterGc
