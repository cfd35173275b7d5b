import LusterGc.Soundness.Invariant

/-! # The sweep, across the slices it is spread over

A sweep runs from the pass that finds the gray queue empty to the pass that finds the cursor at
the end of the list, and between its slices the host may allocate, pin, unpin and edit boxes.
`World.visits` records the box each pass of the sweep takes and the colour it has then.
`SweepProgress` says, for every world of such a run and relative to the arena the sweep began
with, how far the sweep has got. Over the whole run the sweep takes exactly the boxes that were on
the all-list when it began, in list order; it frees exactly the white ones; it neither takes nor
frees a box allocated since; and `remembered_size` ends as the bytes of the boxes it kept.
-/

namespace LusterGc

/-- A pass of the sweep that puts the collector to sleep found the end of the list: it changed
no box, and set the wake-up mark a pause above the bytes allocated. -/
theorem GcArena.sweepStep_asleep {arena : GcArena} {workLeft : Budget} {blockedGrayCount : ℕ}
    {pass : Pass} (sweeping : arena.phase = .sweeping)
    (success : arena.sweepStep workLeft blockedGrayCount = .ok pass)
    (asleep : pass.arena.phase = .sleeping) :
    arena.sweep = none ∧ pass.stop = false ∧ pass.arena = { arena with
      sweepPrev := none, phase := .sleeping,
      wakeupTotal := arena.totalAllocated + arena.parameters.pauseSize arena.rememberedSize } := by
  obtain ⟨stop, -, ⟨atEnd, -, next⟩ | ⟨_, _, -, -, ⟨-, -, unlinked, unlinking, -, next⟩ |
    ⟨-, -, next⟩⟩⟩ := sweepStep_eq_ok success
  · exact ⟨atEnd, stop, next⟩
  · obtain ⟨-, -, -, phase, -⟩ := unlink_frame unlinking
    rw [next] at asleep
    exact absurd (sweeping.symm.trans (phase.symm.trans asleep)) (by decide)
  · rw [next] at asleep
    split at asleep <;> exact absurd (sweeping.symm.trans asleep) (by decide)

namespace World

variable {world next final : World} {event : Event} {events : List Event}

/-- The box the sweep takes at `event`, with its colour then: a `resume` that runs a pass of
`do_collection` while sweeping, with the cursor on a box. -/
def visit (world : World) : Event → Option (Ptr × GcColor)
  | .resume =>
    match world.control with
    | .collecting _ _ workLeft _ =>
      if workLeft.positive = true ∧ world.arena.phase = .sweeping then
        world.arena.sweep.bind fun sweepPtr =>
          (world.arena.heap.boxes sweepPtr).map fun gcBox => (sweepPtr, gcBox.flags.color)
      else none
    | _ => none
  | _ => none

/-- The boxes the sweep takes along a run, in order, each with its colour when taken. -/
def visits (world : World) : List Event → List (Ptr × GcColor)
  | [] => []
  | event :: events =>
    match world.step event with
    | some (.ok next) => (world.visit event).toList ++ next.visits events
    | _ => []

theorem visit_of_ne_resume (other : event ≠ .resume) : world.visit event = none := by
  cases event <;> first | rfl | exact absurd rfl other

theorem visits_cons (step : world.Step event next) :
    world.visits (event :: events) = (world.visit event).toList ++ next.visits events := by
  simp only [visits, show world.step event = some (.ok next) from step]

/-- A run inside one sweep: every world but the last is sweeping. -/
inductive Sweeps : World → List Event → World → Prop
  | nil (world : World) : Sweeps world [] world
  | cons {world next final : World} {event : Event} {events : List Event} :
      world.arena.phase = .sweeping → world.Step event next → Sweeps next events final →
      Sweeps world (event :: events) final

/-- Whether `events` run from `world` inside the sweep to a world with `property`: `Sweeps`
checked on a concrete run. -/
def sweepsSatisfy (world : World) (events : List Event) (property : World → Prop)
    [DecidablePred property] : Bool :=
  match events with
  | [] => decide (property world)
  | event :: events =>
    decide (world.arena.phase = .sweeping) &&
      match world.step event with
      | some (.ok next) => next.sweepsSatisfy events property
      | _ => false

theorem exists_sweeps_of_sweepsSatisfy {property : World → Prop} [DecidablePred property]
    (checked : world.sweepsSatisfy events property = true) :
    ∃ final, world.Sweeps events final ∧ property final := by
  induction events generalizing world with
  | nil => exact ⟨world, .nil world, by simpa [sweepsSatisfy] using checked⟩
  | cons event events ih =>
    simp only [sweepsSatisfy, Bool.and_eq_true, decide_eq_true_eq] at checked
    obtain ⟨sweeping, stepped⟩ := checked
    split at stepped
    · rename_i next step
      obtain ⟨final, run, holds⟩ := ih stepped
      exact ⟨final, .cons sweeping step run, holds⟩
    · cases stepped

theorem leaveCollection_phase (caller : Caller) (arena : GcArena) (work workLeft : Budget) :
    (world.leaveCollection caller arena work workLeft).arena.phase = arena.phase := by
  cases caller <;> simp [leaveCollection]

/-- The pass that finds the gray queue empty starts the sweep at the head of the list with
nothing remembered; no other step turns a propagating arena into a sweeping one. -/
theorem Step.startSweep (invariant : world.Invariant) (step : world.Step .resume next)
    (propagating : world.arena.phase = .propagating) (sweeping : next.arena.phase = .sweeping) :
    world.dropped = false ∧ next.dropped = false ∧
      next.arena = { world.arena with phase := .sweeping, sweep := world.arena.all, rememberedSize := 0 } := by
  rcases Step.resume_eq step with
    ⟨caller, work, workLeft, blockedGrayCount, collecting, ⟨-, pass, success, rfl⟩ | ⟨-, rfl⟩⟩ |
    ⟨_, heap, _, -, -, rfl⟩
  · rw [GcArena.collectionStep_of_propagating propagating] at success
    by_cases empty : world.arena.gray = []
    · rw [GcArena.propagate_start empty] at success
      cases success
      have alive := invariant.alive_of_collecting collecting
      exact ⟨alive, alive, rfl⟩
    · rcases GcArena.propagate_eq_ok success with ⟨empty', -⟩ | marks
      · exact absurd empty' empty
      · have stays := marks.phase
        split at sweeping <;> simp_all [leaveCollection_phase]
  · simp [leaveCollection_phase, propagating] at sweeping
  · simp [World.withHeap, propagating] at sweeping

/-- The pass that puts a sweeping collector to sleep found the cursor at the end of the list; it
changed no box and set the wake-up mark, and `do_collection` goes on to its next pass. -/
theorem Step.endSweep (sweeping : world.arena.phase = .sweeping) (step : world.Step .resume next)
    (asleep : next.arena.phase = .sleeping) :
    world.arena.sweep = none ∧ next.arena = { world.arena with
      sweepPrev := none, phase := .sleeping,
      wakeupTotal := world.arena.totalAllocated +
        world.arena.parameters.pauseSize world.arena.rememberedSize } := by
  rcases Step.resume_eq step with
    ⟨caller, work, workLeft, blockedGrayCount, -, ⟨-, pass, success, rfl⟩ | ⟨-, rfl⟩⟩ |
    ⟨_, _, _, -, -, rfl⟩
  · rw [GcArena.collectionStep_of_sweeping sweeping] at success
    by_cases stop : pass.stop = true
    · simp only [stop, ite_true, leaveCollection_phase] at asleep
      obtain ⟨-, going, -⟩ := GcArena.sweepStep_asleep sweeping success asleep
      exact absurd stop (by simp [going])
    · simp only [stop, Bool.false_eq_true, ite_false] at asleep ⊢
      obtain ⟨atEnd, -, next⟩ := GcArena.sweepStep_asleep sweeping success asleep
      exact ⟨atEnd, next⟩
  · simp [leaveCollection_phase, sweeping] at asleep
  · simp [World.withHeap, sweeping] at asleep

/-- After the drop no step moves the collector: only memory and the walk change. -/
theorem Step.phase_of_dropped (invariant : world.Invariant) (dropped : world.dropped = true)
    (step : world.Step event next) : next.dropped = true ∧ next.arena.phase = world.arena.phase := by
  cases event with
  | allocate request => simp [(Step.allocate_eq step).2.1] at dropped
  | root gc => simp [(Step.root_eq step).2.1] at dropped
  | writeBarrier gc => simp [(Step.writeBarrier_eq step).2.1] at dropped
  | collectGarbage => simp [(Step.collectGarbage_eq step).2.1] at dropped
  | dropArena => simp [(Step.dropArena_eq step).2.1] at dropped
  | cloneRgc gc =>
    obtain ⟨-, -, heap, -, rfl⟩ := Step.cloneRgc_eq step
    exact ⟨dropped, rfl⟩
  | dropRgc gc =>
    obtain ⟨-, -, heap, -, rfl⟩ := Step.dropRgc_eq step
    exact ⟨dropped, rfl⟩
  | mutate gc value =>
    obtain ⟨-, gcBox, -, rfl⟩ := Step.mutate_eq step
    exact ⟨dropped, rfl⟩
  | resume =>
    rcases Step.resume_eq step with ⟨_, _, _, _, collecting, -⟩ | ⟨_, heap, _, -, -, rfl⟩
    · simp [invariant.alive_of_collecting collecting] at dropped
    · exact ⟨dropped, rfl⟩

theorem Sweeps.phase_of_dropped (run : world.Sweeps events final) (reachable : Reachable world)
    (dropped : world.dropped = true) : final.arena.phase = world.arena.phase := by
  induction run with
  | nil => rfl
  | cons _ step _ ih =>
    obtain ⟨dropped', same⟩ := step.phase_of_dropped reachable.invariant dropped
    rw [ih (reachable.step step) dropped', same]

end World

/-- How far a sweep has got, relative to the arena `first` it began in and the list `cells` it
began on: it has taken the boxes of `visited`, in order, and its cursor runs through `rest`, the
other boxes of `cells`; it has freed exactly the white boxes it took, added the bytes of the
others to `remembered_size`, and left every box allocated since it began allocated. -/
structure SweepProgress (first : GcArena) (cells : List Ptr) (arena : GcArena)
    (visited : List (Ptr × GcColor)) (rest : List Ptr) : Prop where
  split : cells = visited.map Prod.fst ++ rest
  cursor : Chain arena.heap arena.sweep rest none
  sweepPrev : ∀ prev, arena.sweepPrev = some prev → prev ∉ rest
  sizes : ∀ address ∈ rest, arena.heap.sizeAt address = first.heap.sizeAt address
  freed : ∀ address, first.heap.Allocated address ∧ ¬arena.heap.Allocated address ↔
    (address, .white) ∈ visited
  grown : first.heap.fresh ≤ arena.heap.fresh
  born : ∀ address, first.heap.fresh ≤ address → address < arena.heap.fresh →
    arena.heap.Allocated address
  remembered : arena.rememberedSize = first.rememberedSize +
    first.heap.totalSize ((visited.filter fun visit => visit.2 ≠ .white).map Prod.fst)

/-- The boxes a sweep has still to take when it is observed first: boxes of that arena, each
once. -/
structure SweepList (first : GcArena) (cells : List Ptr) : Prop where
  nodup : cells.Nodup
  allocated : ∀ address ∈ cells, first.heap.Allocated address
  below : ∀ address ∈ cells, address < first.heap.fresh

/-- The whole list, and what the cursor has still to reach, are such lists. -/
theorem ListShape.sweepList {arena : GcArena} {cells swept : List Ptr} {pending : ℕ}
    (shape : ListShape arena cells pending) {rest : List Ptr} (split : cells = swept ++ rest) :
    SweepList arena rest := by
  have inCells : ∀ address ∈ rest, address ∈ cells := fun address member => by
    rw [split]
    exact List.mem_append_right _ member
  refine ⟨(split ▸ shape.nodup).sublist (List.sublist_append_right _ _),
    fun address member => (shape.mem_iff address).mp (inCells address member),
    fun address member => ?_⟩
  by_contra above
  exact (shape.mem_iff address).mp (inCells address member) (shape.unused _ (not_lt.mp above))

namespace SweepProgress

variable {first arena next : GcArena} {cells rest : List Ptr} {visited : List (Ptr × GcColor)}

/-- Where the sweep is first observed: nothing taken yet, the cursor on the list. -/
theorem start (cursor : Chain first.heap first.sweep cells none)
    (unset : ∀ prev, first.sweepPrev = some prev → prev ∉ cells) :
    SweepProgress first cells first [] cells where
  split := rfl
  cursor := cursor
  sweepPrev := unset
  sizes _ _ := rfl
  freed address := by simp
  grown := le_rfl
  born _ above below := absurd below (not_lt.mpr above)
  remembered := by simp

/-- Changes that leave the cursors, `remembered_size` and the layout of memory alone keep the
progress. -/
theorem congr (progress : SweepProgress first cells arena visited rest)
    (layout : next.heap.layout = arena.heap.layout) (fresh : next.heap.fresh = arena.heap.fresh)
    (sweep : next.sweep = arena.sweep) (sweepPrev : next.sweepPrev = arena.sweepPrev)
    (rememberedSize : next.rememberedSize = arena.rememberedSize) :
    SweepProgress first cells next visited rest := by
  have allocated : ∀ address, next.heap.Allocated address ↔ arena.heap.Allocated address := by
    intro address
    rw [Heap.allocated_iff_layout, Heap.allocated_iff_layout, layout]
  refine ⟨progress.split, ?_, ?_, ?_, fun address => ?_, ?_, fun address above below => ?_, ?_⟩
  · rw [sweep]
    exact progress.cursor.of_layout layout
  · rw [sweepPrev]
    exact progress.sweepPrev
  · rw [Heap.sizeAt_of_layout layout]
    exact progress.sizes
  · rw [allocated]
    exact progress.freed address
  · rw [fresh]
    exact progress.grown
  · rw [allocated]
    exact progress.born address above (fresh ▸ below)
  · rw [rememberedSize]
    exact progress.remembered

theorem of_marks (progress : SweepProgress first cells arena visited rest) (marks : arena.Marks next) :
    SweepProgress first cells next visited rest :=
  progress.congr marks.shades.layout marks.shades.fresh marks.sweep marks.sweepPrev
    marks.rememberedSize

/-- Rewriting a live box in place, keeping its link and size, keeps the progress. -/
theorem of_set (progress : SweepProgress first cells arena visited rest) {address : Ptr}
    {gcBox gcBox' : GcBox} (found : arena.heap.boxes address = some gcBox)
    (next : gcBox'.next = gcBox.next) (size : gcBox'.size = gcBox.size) :
    SweepProgress first cells { arena with heap := arena.heap.set address gcBox' } visited rest :=
  progress.congr (Heap.layout_set found next size) rfl rfl rfl rfl

theorem of_root (progress : SweepProgress first cells arena visited rest) {gc : Ptr}
    (success : arena.root gc = .ok next) : SweepProgress first cells next visited rest := by
  obtain ⟨gcBox, found, -, rfl⟩ := GcArena.root_eq_ok success
  have pinned : SweepProgress first cells
      { arena with heap := arena.heap.set gc { gcBox with rootCount := ⟨gcBox.rootCount.count + 1⟩ } }
      visited rest :=
    progress.of_set found rfl rfl
  split
  · exact pinned.of_marks ((GcArena.marks_recolor _ gc (by decide)).with_gray _)
  · exact pinned

theorem of_allocateStart (progress : SweepProgress first cells arena visited rest) (allocSize : ℕ) :
    SweepProgress first cells (arena.allocateStart allocSize).1 visited rest := by
  obtain ⟨phase, debt, timer, started, -⟩ := arena.allocateStart_eq allocSize
  rw [started]
  exact progress.congr rfl rfl rfl rfl rfl

theorem of_startCycle (progress : SweepProgress first cells arena visited rest) :
    SweepProgress first cells arena.startCycle visited rest := by
  obtain ⟨phase, started, -⟩ := arena.startCycle_eq
  rw [started]
  exact progress.congr rfl rfl rfl rfl rfl

theorem of_finishCollection (progress : SweepProgress first cells arena visited rest)
    (work workLeft : Budget) :
    SweepProgress first cells (arena.finishCollection work workLeft) visited rest := by
  obtain ⟨debt, finished⟩ := arena.finishCollection_eq work workLeft
  rw [finished]
  exact progress.congr rfl rfl rfl rfl rfl

/-- A box allocated during the sweep goes in front of the cursor, and when nothing is swept yet
it becomes `sweep_prev`: the sweep never reaches it. -/
theorem of_allocateFinish (list : SweepList first cells)
    (progress : SweepProgress first cells arena visited rest)
    (unused : arena.heap.boxes arena.heap.fresh = none) (request : Allocation) :
    SweepProgress first cells (arena.allocateFinish request).1 visited rest := by
  rw [arena.allocateFinish_eq request]
  have outside : arena.heap.fresh ∉ rest := fun member =>
    progress.cursor.mem_allocated member unused
  have agree : ∀ address ∈ rest,
      (arena.heap.alloc (request.box arena.all)).1.boxes address = arena.heap.boxes address :=
    fun address member => by simp [show address ≠ arena.heap.fresh from fun same => outside (same ▸ member)]
  have notTaken : (arena.heap.fresh, GcColor.white) ∉ visited := fun member => by
    have below := list.below _ (by
      rw [progress.split]
      exact List.mem_append_left _ (List.mem_map_of_mem Prod.fst member))
    exact absurd progress.grown (not_le.mpr below)
  refine ⟨progress.split, progress.cursor.of_agree agree, fun prev set => ?_,
    fun address member => ?_, fun address => ?_, ?_, fun address above below => ?_,
    progress.remembered⟩
  · split at set
    · cases set
      exact outside
    · exact progress.sweepPrev prev set
  · simp only [Heap.sizeAt, agree address member]
    exact progress.sizes address member
  · by_cases here : address = arena.heap.fresh
    · subst here
      simp [notTaken, Heap.Allocated]
    · simpa [here, Heap.Allocated] using progress.freed address
  · simp only [Heap.alloc_fresh]
    exact Nat.le_succ_of_le progress.grown
  · by_cases here : address = arena.heap.fresh
    · simp [here, Heap.Allocated]
    · simp only [Heap.alloc_fresh] at below
      simpa [here, Heap.Allocated] using
        progress.born address above (Nat.lt_of_le_of_ne (Nat.le_of_lt_succ below) here)

/-- The end of the list: nothing is left to take. -/
theorem finish (progress : SweepProgress first cells arena visited rest)
    (atEnd : arena.sweep = none) (wakeupTotal : ℕ) :
    SweepProgress first cells { arena with sweepPrev := none, phase := .sleeping, wakeupTotal }
      visited [] := by
  have cursor := progress.cursor
  rw [atEnd] at cursor
  cases rest with
  | cons _ _ => exact absurd (Chain.cons_iff.mp cursor).1 (by simp)
  | nil =>
    refine { progress with
      cursor := ?_
      sweepPrev := fun _ set => by cases set }
    show Chain arena.heap arena.sweep [] none
    rw [atEnd]
    exact .nil none

/-- A box the sweep keeps joins the swept prefix, and its bytes are remembered. -/
theorem keep (list : SweepList first cells)
    (progress : SweepProgress first cells arena visited rest) {sweepPtr : Ptr} {gcBox : GcBox}
    (cursorAt : arena.sweep = some sweepPtr) (found : arena.heap.boxes sweepPtr = some gcBox)
    (kept : gcBox.flags.color ≠ .white) {color : GcColor}
    (same : next.heap = arena.heap.recolor sweepPtr color) (sweep : next.sweep = gcBox.next)
    (sweepPrev : next.sweepPrev = some sweepPtr)
    (rememberedSize : next.rememberedSize = arena.rememberedSize + gcBox.size) :
    ∃ rest', SweepProgress first cells next (visited ++ [(sweepPtr, gcBox.flags.color)]) rest' := by
  have cursor := progress.cursor
  rw [cursorAt] at cursor
  cases rest with
  | nil => exact absurd (Chain.nil_iff.mp cursor) (by simp)
  | cons head tail =>
  obtain ⟨same, gcBox', found', tail'⟩ := Chain.cons_iff.mp cursor
  cases same
  cases found.symm.trans found'
  have layout : next.heap.layout = arena.heap.layout := same ▸ arena.heap.recolor_layout _ _
  have fresh : sweepPtr ∉ tail := by
    have nodup := list.nodup
    rw [progress.split] at nodup
    exact (List.nodup_cons.mp (List.nodup_append.mp nodup).2.1).1
  have allocated : ∀ address, next.heap.Allocated address ↔ arena.heap.Allocated address := by
    intro address
    rw [Heap.allocated_iff_layout, Heap.allocated_iff_layout, layout]
  refine ⟨tail, by simp [progress.split], by rw [sweep]; exact tail'.of_layout layout,
    fun prev set => ?_, fun address member => ?_, fun address => ?_, ?_,
    fun address above below => ?_, ?_⟩
  · rw [sweepPrev] at set
    cases set
    exact fresh
  · rw [Heap.sizeAt_of_layout layout]
    exact progress.sizes address (List.mem_cons_of_mem _ member)
  · rw [allocated, progress.freed]
    simp [kept, Ne.symm kept]
  · rw [show next.heap.fresh = arena.heap.fresh by simp [same]]
    exact progress.grown
  · rw [allocated]
    exact progress.born address above (by simpa [same] using below)
  · have size := progress.sizes sweepPtr (List.mem_cons_self _ _)
    rw [Heap.sizeAt_of_found found] at size
    rw [rememberedSize, progress.remembered, size]
    simp [kept, Heap.totalSize_append, Nat.add_assoc]

/-- A white box at the cursor is unlinked and freed: nothing else changes for the sweep. -/
theorem free (list : SweepList first cells)
    (progress : SweepProgress first cells arena visited rest) {sweepPtr : Ptr} {gcBox : GcBox}
    {unlinked : GcArena} (cursorAt : arena.sweep = some sweepPtr)
    (found : arena.heap.boxes sweepPtr = some gcBox)
    (unlinking : { arena with sweep := gcBox.next }.unlink gcBox.next = .ok unlinked)
    (same : next = { unlinked with
      totalAllocated := unlinked.totalAllocated - gcBox.size,
      heap := unlinked.heap.erase sweepPtr }) :
    ∃ rest', SweepProgress first cells next (visited ++ [(sweepPtr, .white)]) rest' := by
  have cursor := progress.cursor
  rw [cursorAt] at cursor
  cases rest with
  | nil => exact absurd (Chain.nil_iff.mp cursor) (by simp)
  | cons head tail =>
  obtain ⟨same, gcBox', found', tail'⟩ := Chain.cons_iff.mp cursor
  cases same
  cases found.symm.trans found'
  have nodup := list.nodup
  rw [progress.split] at nodup
  have fresh : sweepPtr ∉ tail := (List.nodup_cons.mp (List.nodup_append.mp nodup).2.1).1
  have onList : sweepPtr ∈ cells := by simp [progress.split]
  -- The unlink rewrites at most the link of `sweep_prev`, which is off the rest.
  obtain ⟨sweepAt, prevKept, rememberedKept, -, -, freshKept, -, allocatedKept⟩ :=
    GcArena.unlink_frame unlinking
  subst same
  have agree := GcArena.unlink_erase_agree unlinking fresh
    fun prev set member => progress.sweepPrev prev set (List.mem_cons_of_mem _ member)
  have allocated : ∀ address, (unlinked.heap.erase sweepPtr).Allocated address ↔
      address ≠ sweepPtr ∧ arena.heap.Allocated address := fun address =>
    (Heap.allocated_erase _ _ _).trans (and_congr_right' (allocatedKept address))
  refine ⟨tail, by simp [progress.split], ?_, fun prev set => ?_, fun address member => ?_,
    fun address => ?_, freshKept ▸ progress.grown, fun address above below => ?_, ?_⟩
  · show Chain _ unlinked.sweep tail none
    rw [sweepAt]
    exact tail'.of_agree agree
  · exact fun member => progress.sweepPrev prev (prevKept.symm.trans set)
      (List.mem_cons_of_mem _ member)
  · simp only [Heap.sizeAt, agree address member]
    exact progress.sizes address (List.mem_cons_of_mem _ member)
  · rw [allocated, List.mem_append, List.mem_singleton, ← progress.freed]
    by_cases here : address = sweepPtr
    · subst here
      simp [list.allocated address onList]
    · simp [here]
  · rw [allocated]
    exact ⟨fun here => absurd (here ▸ above) (not_le.mpr (list.below sweepPtr onList)),
      progress.born address above (freshKept ▸ below)⟩
  · show unlinked.rememberedSize = _
    rw [rememberedKept, progress.remembered]
    simp

end SweepProgress

namespace SweepProgress

variable {world next final : World} {first : GcArena} {cells rest : List Ptr}
  {visited : List (Ptr × GcColor)} {event : Event} {events : List Event}

/-- A call of the host between slices of the sweep takes no box and keeps the progress, or drops
the arena. -/
theorem call (list : SweepList first cells) (invariant : world.Invariant)
    (alive : world.dropped = false) (sweeping : world.arena.phase = .sweeping)
    (progress : SweepProgress first cells world.arena visited rest) (other : event ≠ .resume)
    (step : world.Step event next) :
    next.dropped = true ∧ next.arena.phase = .sweeping ∨
      next.dropped = false ∧ SweepProgress first cells next.arena visited rest ∧
        next.arena.phase = .sweeping := by
  obtain ⟨cellsNow, live⟩ := invariant.live alive
  cases event with
  | allocate request =>
    obtain ⟨-, -, outcome⟩ := World.Step.allocate_eq step
    have started := progress.of_allocateStart request.size
    have phase : (world.arena.allocateStart request.size).1.phase = .sweeping := by
      obtain ⟨phase, debt, timer, eq, woken⟩ := world.arena.allocateStart_eq request.size
      rw [eq]
      rcases woken with rfl | ⟨asleep, -⟩ <;> simp_all
    rcases outcome with ⟨-, rfl⟩ | ⟨work, -, rfl⟩
    · exact .inr ⟨alive, started.of_allocateFinish list
        (by simpa using live.shape.unused _ le_rfl) request, by simpa using phase⟩
    · exact .inr ⟨alive, started, phase⟩
  | root gc =>
    obtain ⟨-, -, arena, success, rfl⟩ := World.Step.root_eq step
    refine .inr ⟨alive, progress.of_root success, ?_⟩
    obtain ⟨gcBox, -, -, rfl⟩ := GcArena.root_eq_ok success
    split <;> exact sweeping
  | writeBarrier gc =>
    obtain ⟨-, -, arena, success, rfl⟩ := World.Step.writeBarrier_eq step
    have marks := (GcArena.writeBarrier_eq_ok success).2.1
    exact .inr ⟨alive, progress.of_marks marks, marks.phase ▸ sweeping⟩
  | collectGarbage =>
    obtain ⟨-, -, rfl⟩ := World.Step.collectGarbage_eq step
    exact .inr ⟨alive, progress.of_startCycle, by simp [GcArena.startCycle, sweeping]⟩
  | cloneRgc gc =>
    obtain ⟨-, -, heap, success, rfl⟩ := World.Step.cloneRgc_eq step
    obtain ⟨gcBox, found, -, rfl⟩ := Rgc.clone_eq_ok success
    exact .inr ⟨alive, progress.of_set found rfl rfl, sweeping⟩
  | dropRgc gc =>
    obtain ⟨-, -, heap, success, rfl⟩ := World.Step.dropRgc_eq step
    obtain ⟨gcBox, found, freed⟩ := Rgc.drop_eq_ok success
    simp only [if_neg (show ¬(gcBox.rootCount.decrement.count = 0 ∧
      gcBox.flags.isDetached = true) by simp [live.attached gc gcBox found])] at freed
    subst freed
    exact .inr ⟨alive, progress.of_set found rfl rfl, sweeping⟩
  | mutate gc value =>
    obtain ⟨-, gcBox, found, rfl⟩ := World.Step.mutate_eq step
    exact .inr ⟨alive, progress.of_set found rfl rfl, sweeping⟩
  | dropArena =>
    obtain ⟨-, -, rfl⟩ := World.Step.dropArena_eq step
    exact .inl ⟨rfl, sweeping⟩
  | resume => exact absurd rfl other

/-- A `resume` inside the sweep: a pass takes the box at the cursor and keeps or frees it, or
ends the sweep at the end of the list; leaving the loop links the box of a waiting `allocate`. -/
theorem resume (list : SweepList first cells) (invariant : world.Invariant)
    (alive : world.dropped = false) (sweeping : world.arena.phase = .sweeping)
    (progress : SweepProgress first cells world.arena visited rest)
    (step : world.Step .resume next) :
    next.dropped = false ∧ ∃ rest',
      SweepProgress first cells next.arena (visited ++ (world.visit .resume).toList) rest' ∧
        (next.arena.phase = .sweeping ∨ rest' = []) := by
  obtain ⟨cellsNow, live⟩ := invariant.live alive
  rcases World.Step.resume_eq step with
    ⟨caller, work, workLeft, blockedGrayCount, collecting,
      ⟨positive, pass, success, rfl⟩ | ⟨notPositive, rfl⟩⟩ | ⟨address, -, -, dropping, -, -⟩
  · rw [GcArena.collectionStep_of_sweeping sweeping] at success
    obtain ⟨stop, -, outcome⟩ := GcArena.sweepStep_eq_ok success
    simp only [stop, Bool.false_eq_true, if_false]
    refine ⟨alive, ?_⟩
    rcases outcome with ⟨atEnd, -, arenaIs⟩ |
      ⟨sweepPtr, gcBox, cursorAt, found, ⟨white, -, unlinked, unlinking, -, arenaIs⟩ | ⟨kept, -, arenaIs⟩⟩
    · have taken : world.visit .resume = none := by simp [World.visit, collecting, atEnd]
      rw [taken, Option.toList_none, List.append_nil]
      exact ⟨[], arenaIs ▸ progress.finish atEnd _, .inr rfl⟩
    · have taken : world.visit .resume = some (sweepPtr, .white) := by
        simp [World.visit, collecting, positive, sweeping, cursorAt, found, white]
      obtain ⟨rest', next'⟩ := progress.free list cursorAt found unlinking arenaIs
      obtain ⟨-, -, -, phase, -⟩ := GcArena.unlink_frame unlinking
      exact ⟨rest', by simpa [taken] using next', .inl (arenaIs ▸ phase.trans sweeping)⟩
    · have taken : world.visit .resume = some (sweepPtr, gcBox.flags.color) := by
        simp [World.visit, collecting, positive, sweeping, cursorAt, found]
      obtain ⟨color, heap, cursor, prev, remembered, phase⟩ : ∃ color,
          pass.arena.heap = world.arena.heap.recolor sweepPtr color ∧
          pass.arena.sweep = gcBox.next ∧ pass.arena.sweepPrev = some sweepPtr ∧
          pass.arena.rememberedSize = world.arena.rememberedSize + gcBox.size ∧
          pass.arena.phase = world.arena.phase := by
        rw [arenaIs]
        split <;> exact ⟨_, rfl, rfl, rfl, rfl, rfl⟩
      obtain ⟨rest', next'⟩ := progress.keep list cursorAt found kept heap cursor prev remembered
      exact ⟨rest', by simpa [taken] using next', .inl (phase.trans sweeping)⟩
  · have taken : world.visit .resume = none := by simp [World.visit, collecting, notPositive]
    rw [taken, Option.toList_none, List.append_nil]
    have finished := progress.of_finishCollection work workLeft
    cases caller with
    | collectGarbage =>
      exact ⟨alive, rest, finished, .inl (by simpa [World.leaveCollection] using sweeping)⟩
    | allocate request =>
      exact ⟨alive, rest, finished.of_allocateFinish list (by simpa using live.shape.unused _ le_rfl)
        request, .inl (by simpa [World.leaveCollection] using sweeping)⟩
  · exact absurd (invariant.dropped_of_dropping dropping) (by simp [alive])

/-- Each step of a live, sweeping world keeps the progress, adding the box it takes, if any; or
it drops the arena, and the collector stays sweeping. -/
theorem step (list : SweepList first cells) (invariant : world.Invariant)
    (alive : world.dropped = false) (sweeping : world.arena.phase = .sweeping)
    (progress : SweepProgress first cells world.arena visited rest) (step : world.Step event next) :
    next.dropped = true ∧ next.arena.phase = .sweeping ∨
      next.dropped = false ∧ ∃ rest',
        SweepProgress first cells next.arena (visited ++ (world.visit event).toList) rest' ∧
          (next.arena.phase = .sweeping ∨ rest' = []) := by
  by_cases resumed : event = .resume
  · subst resumed
    exact .inr (progress.resume list invariant alive sweeping step)
  · rw [World.visit_of_ne_resume resumed, Option.toList_none, List.append_nil]
    rcases progress.call list invariant alive sweeping resumed step with dropped | ⟨alive', next', phase⟩
    · exact .inl dropped
    · exact .inr ⟨alive', rest, next', .inl phase⟩

/-- Along a run inside the sweep that leaves it, the progress reaches the end of `cells`. -/
theorem run (list : SweepList first cells) (run : world.Sweeps events final)
    (reachable : Reachable world) (alive : world.dropped = false)
    (progress : SweepProgress first cells world.arena visited rest)
    (finished : world.arena.phase ≠ .sweeping → rest = []) (ended : final.arena.phase ≠ .sweeping) :
    SweepProgress first cells final.arena (visited ++ world.visits events) [] := by
  induction run generalizing visited rest with
  | nil world =>
    obtain rfl := finished ended
    simpa [World.visits] using progress
  | cons sweeping step later ih =>
    rcases progress.step list reachable.invariant alive sweeping step with
      ⟨dropped, stays⟩ | ⟨alive', rest', next', phase⟩
    · exact absurd ((later.phase_of_dropped (reachable.step step) dropped).trans stays) ended
    · rw [World.visits_cons step, ← List.append_assoc]
      exact ih (reachable.step step) alive' next' (fun notSweeping => phase.resolve_left notSweeping)
        ended

end SweepProgress

/-- The sweep, over every run of it: from the pass that starts it to the pass that ends it, with
any calls of the host between its slices. It takes exactly the boxes that were on the all-list
when it began, in list order; it frees exactly those of them that are white when it takes them;
a box allocated meanwhile is neither taken nor freed; and `remembered_size` ends as the bytes of
the boxes it kept. -/
theorem sweep_frees_white {start first final : World} {events : List Event}
    (reachable : Reachable start) (propagating : start.arena.phase = .propagating)
    (starting : start.Step .resume first) (sweeping : first.arena.phase = .sweeping)
    (run : first.Sweeps events final) (sleeping : final.arena.phase = .sleeping) :
    ∃ cells, Chain first.arena.heap first.arena.all cells none ∧
      (first.visits events).map Prod.fst = cells ∧
      (∀ address, first.arena.heap.Allocated address ∧ ¬final.arena.heap.Allocated address ↔
        (address, .white) ∈ first.visits events) ∧
      (∀ address, first.arena.heap.fresh ≤ address → address < final.arena.heap.fresh →
        final.arena.heap.Allocated address ∧ address ∉ cells) ∧
      final.arena.rememberedSize = first.arena.heap.totalSize
        (((first.visits events).filter fun visit => visit.2 ≠ .white).map Prod.fst) := by
  obtain ⟨wasAlive, alive, began⟩ := starting.startSweep reachable.invariant propagating sweeping
  have reachable' := reachable.step starting
  obtain ⟨cells, live⟩ := reachable'.invariant.live alive
  obtain ⟨_, startLive⟩ := reachable.invariant.live wasAlive
  have unset : first.arena.sweepPrev = none := by
    rw [began]
    exact startLive.shape.sweepPrev_none (by simp [propagating])
  have zero : first.arena.rememberedSize = 0 := by rw [began]
  have list := live.shape.sweepList (List.nil_append cells).symm
  have atHead : first.arena.sweep = first.arena.all := by rw [began]
  have progress : SweepProgress first.arena cells first.arena [] cells :=
    .start (atHead ▸ live.shape.chain) fun prev set => by simp [unset] at set
  have ended := progress.run list run reachable' alive (absurd sweeping) (by simp [sleeping])
  refine ⟨cells, live.shape.chain, by simpa using ended.split.symm, fun address => ?_,
    fun address above below => ⟨ended.born address above below, fun member => ?_⟩, ?_⟩
  · simpa using ended.freed address
  · exact absurd (list.below address member) (not_lt.mpr above)
  · simpa [zero] using ended.remembered

/-- Two boxes, one pinned, collected: the sweep frees the white one and keeps the other. -/
theorem sweep_frees_white_collect :
    ∃ start first final, Reachable start ∧ start.arena.phase = .propagating ∧
      start.Step .resume first ∧ first.arena.phase = .sweeping ∧
      first.Sweeps [.resume, .resume, .resume] final ∧ final.arena.phase = .sleeping ∧
      ∃ cells, Chain first.arena.heap first.arena.all cells none ∧
        (first.visits [.resume, .resume, .resume]).map Prod.fst = cells ∧
        (∀ address, first.arena.heap.Allocated address ∧ ¬final.arena.heap.Allocated address ↔
          (address, .white) ∈ first.visits [.resume, .resume, .resume]) ∧
        (∀ address, first.arena.heap.fresh ≤ address → address < final.arena.heap.fresh →
          final.arena.heap.Allocated address ∧ address ∉ cells) ∧
        final.arena.rememberedSize = first.arena.heap.totalSize
          (((first.visits [.resume, .resume, .resume]).filter fun visit => visit.2 ≠ .white).map
            Prod.fst) := by
  have checked : (World.initial .default).runSatisfies
      [.allocate ⟨32, by decide, true, {}⟩, .allocate ⟨32, by decide, true, {}⟩, .root 0,
        .collectGarbage, .resume]
      (fun start => start.arena.phase = .propagating ∧
        start.runSatisfies [.resume] (fun first => first.arena.phase = .sweeping ∧
          first.sweepsSatisfy [.resume, .resume, .resume]
            (fun final => final.arena.phase = .sleeping) = true) = true) = true := by
    decide
  obtain ⟨start, path, propagating, started⟩ := World.exists_path_of_runSatisfies checked
  obtain ⟨first, starting, sweeping, swept⟩ := World.exists_path_of_runSatisfies started
  obtain ⟨final, run, sleeping⟩ := World.exists_sweeps_of_sweepsSatisfy swept
  have reachable : Reachable start := ⟨.default, _, path⟩
  exact ⟨start, first, final, reachable, propagating, starting.step_of_single, sweeping, run,
    sleeping, sweep_frees_white reachable propagating starting.step_of_single sweeping run sleeping⟩

end LusterGc
