import LusterGc.Machine.World

/-! # The all-list and the sweep cursors

`ListShape arena cells pending` says that the all-list is `cells`: following `next` from `all`
meets each of them once and ends, and they are exactly the boxes allocated and not yet freed.
`total_allocated` counts their bytes, and `pending` more: those of an `allocate` that has counted
its box but not linked it yet. Outside the sweep `sweep_prev` is unset; during it the cursor
splits the list into the swept prefix, whose last cell is `sweep_prev`, and the rest. Every pass of the collector and every call of the host
keeps this while the arena is alive, so the sweep unlinks exactly the box it frees, and the
`debug_assert_eq!` on the list head in the sweep holds.
-/

namespace LusterGc

/-- The all-list is `cells`, its bytes are counted, and the sweep cursors sit on it as the sweep
expects. -/
structure ListShape (arena : GcArena) (cells : List Ptr) (pending : ℕ) : Prop where
  chain : Chain arena.heap arena.all cells none
  nodup : cells.Nodup
  mem_iff : ∀ address, address ∈ cells ↔ arena.heap.Allocated address
  unused : ∀ address, arena.heap.fresh ≤ address → arena.heap.boxes address = none
  total : arena.totalAllocated = arena.heap.totalSize cells + pending
  sweepPrev_none : arena.phase ≠ .sweeping → arena.sweepPrev = none
  cursor : arena.phase = .sweeping → ∃ swept rest, cells = swept ++ rest ∧
    Chain arena.heap arena.all swept arena.sweep ∧ Chain arena.heap arena.sweep rest none ∧
    arena.sweepPrev = swept.getLast?

namespace ListShape

variable {arena next : GcArena} {cells : List Ptr} {pending : ℕ}

/-- The shape reads only the list heads, the byte count, the layout of memory and whether the
phase is `Sweeping`. -/
theorem congr (shape : ListShape arena cells pending) (layout : next.heap.layout = arena.heap.layout)
    (fresh : next.heap.fresh = arena.heap.fresh) (all : next.all = arena.all)
    (sweep : next.sweep = arena.sweep) (sweepPrev : next.sweepPrev = arena.sweepPrev)
    (total : next.totalAllocated = arena.totalAllocated)
    (phase : next.phase = arena.phase ∨ arena.phase ≠ .sweeping ∧ next.phase ≠ .sweeping) :
    ListShape next cells pending where
  chain := all ▸ shape.chain.of_layout layout
  nodup := shape.nodup
  mem_iff address := by
    rw [shape.mem_iff, Heap.allocated_iff_layout, Heap.allocated_iff_layout, layout]
  unused address above := by
    have same := congrFun layout address
    simp only [Heap.layout, shape.unused address (fresh ▸ above), Option.map_none',
      Option.map_eq_none'] at same
    exact same
  total := by
    rw [total, shape.total, Heap.totalSize, Heap.totalSize, Heap.sizeAt_of_layout layout]
  sweepPrev_none notSweeping := by
    rw [sweepPrev]
    exact shape.sweepPrev_none (by rcases phase with same | ⟨other, -⟩ <;> simp_all)
  cursor sweeping := by
    rw [all, sweep, sweepPrev]
    obtain ⟨swept, rest, split, front, back, last⟩ :=
      shape.cursor (by rcases phase with same | ⟨-, other⟩ <;> simp_all)
    exact ⟨swept, rest, split, front.of_layout layout, back.of_layout layout, last⟩

theorem of_marks (shape : ListShape arena cells pending) (marks : arena.Marks next) :
    ListShape next cells pending :=
  shape.congr marks.shades.layout marks.shades.fresh marks.all marks.sweep marks.sweepPrev
    marks.totalAllocated (.inl marks.phase)

theorem of_recolor (shape : ListShape arena cells pending) (address : Ptr) (color : GcColor) :
    ListShape (arena.recolor address color) cells pending :=
  shape.congr (arena.heap.recolor_layout address color) (by simp [GcArena.recolor]) rfl rfl rfl
    rfl (.inl rfl)

theorem with_gray (shape : ListShape arena cells pending) (gray : List Ptr) :
    ListShape { arena with gray } cells pending :=
  shape.congr rfl rfl rfl rfl rfl rfl (.inl rfl)

/-- Rewriting a live box in place, keeping its link and size, keeps the shape. -/
theorem of_set (shape : ListShape arena cells pending) {address : Ptr} {gcBox gcBox' : GcBox}
    (found : arena.heap.boxes address = some gcBox) (next : gcBox'.next = gcBox.next)
    (size : gcBox'.size = gcBox.size) :
    ListShape { arena with heap := arena.heap.set address gcBox' } cells pending :=
  shape.congr (Heap.layout_set found next size) rfl rfl rfl rfl rfl (.inl rfl)

theorem of_root (shape : ListShape arena cells pending) {gc : Ptr}
    (success : arena.root gc = .ok next) : ListShape next cells pending := by
  obtain ⟨gcBox, found, -, rfl⟩ := GcArena.root_eq_ok success
  have pinned : ListShape
      { arena with heap := arena.heap.set gc { gcBox with rootCount := ⟨gcBox.rootCount.count + 1⟩ } }
      cells pending :=
    shape.of_set found rfl rfl
  split
  · exact pinned.of_marks ((GcArena.marks_recolor _ gc (by decide)).with_gray _)
  · exact pinned

/-- `allocate` counts its bytes before it has a box: they are pending until it links one. Waking
the collector keeps the shape. -/
theorem of_allocateStart (shape : ListShape arena cells pending) (allocSize : ℕ) :
    ListShape (arena.allocateStart allocSize).1 cells (pending + allocSize) := by
  obtain ⟨phase, debt, timer, started, woken⟩ := arena.allocateStart_eq allocSize
  have counted : ListShape { arena with totalAllocated := arena.totalAllocated + allocSize } cells
      (pending + allocSize) := { shape with total := by simp only [shape.total]; omega }
  rw [started]
  exact counted.congr rfl rfl rfl rfl rfl rfl
    (by rcases woken with rfl | ⟨sleeping, rfl⟩ <;> simp_all)

theorem of_startCycle (shape : ListShape arena cells pending) :
    ListShape arena.startCycle cells pending := by
  obtain ⟨phase, started, woken⟩ := arena.startCycle_eq
  rw [started]
  exact shape.congr rfl rfl rfl rfl rfl rfl
    (by rcases woken with rfl | ⟨sleeping, rfl⟩ <;> simp_all)

theorem of_finishCollection (shape : ListShape arena cells pending) (work workLeft : Budget) :
    ListShape (arena.finishCollection work workLeft) cells pending := by
  obtain ⟨debt, finished⟩ := arena.finishCollection_eq work workLeft
  rw [finished]
  exact shape.congr rfl rfl rfl rfl rfl rfl (.inl rfl)

/-- The new box becomes the head of the list and its bytes stop pending; while sweeping it joins
the swept prefix. -/
theorem of_allocateFinish {request : Allocation} (shape : ListShape arena cells request.size) :
    ListShape (arena.allocateFinish request).1 (arena.heap.fresh :: cells) 0 := by
  rw [arena.allocateFinish_eq request]
  have fresh : arena.heap.fresh ∉ cells := fun member =>
    (shape.mem_iff _).mp member (shape.unused _ le_rfl)
  have agree : ∀ address ∈ cells,
      (arena.heap.alloc (request.box arena.all)).1.boxes address = arena.heap.boxes address :=
    fun address member => by simp [show address ≠ arena.heap.fresh from fun same => fresh (same ▸ member)]
  refine ⟨.cons (Heap.alloc_boxes_fresh _ _) (shape.chain.of_agree agree),
    .cons fresh shape.nodup, fun address => ?_, fun address above => ?_, ?_, fun notSweeping => ?_,
    fun sweeping => ?_⟩
  · by_cases here : address = arena.heap.fresh
    · simp [here, Heap.Allocated]
    · simp [here, shape.mem_iff, Heap.Allocated]
  · simp only [Heap.alloc_fresh] at above
    simp [(Nat.lt_of_succ_le above).ne', shape.unused address (Nat.le_of_succ_le above)]
  · have sizes : (arena.heap.alloc (request.box arena.all)).1.totalSize cells =
        arena.heap.totalSize cells :=
      Heap.totalSize_congr fun address member => by simp only [Heap.sizeAt, agree address member]
    show arena.totalAllocated = _
    rw [Heap.totalSize_cons, sizes, shape.total]
    simp [Heap.sizeAt, Allocation.box, Nat.add_comm]
  · simp [notSweeping, shape.sweepPrev_none notSweeping]
  · have sweeping : arena.phase = .sweeping := sweeping
    obtain ⟨swept, rest, rfl, front, back, last⟩ := shape.cursor sweeping
    refine ⟨arena.heap.fresh :: swept, rest, rfl,
      .cons (Heap.alloc_boxes_fresh _ _) (front.of_agree ?_),
      back.of_agree ?_, ?_⟩
    · exact fun address member => agree address (List.mem_append_left _ member)
    · exact fun address member => agree address (List.mem_append_right _ member)
    · cases swept with
      | nil => simp [sweeping, last]
      | cons head tail => simp [sweeping, last, List.getLast?_cons_cons]

/-- An empty gray queue starts the sweep at the head of the list, with nothing swept. -/
theorem startSweep (shape : ListShape arena cells pending) (propagating : arena.phase = .propagating) :
    ListShape { arena with phase := .sweeping, sweep := arena.all, rememberedSize := 0 } cells
      pending := by
  have unset := shape.sweepPrev_none (by simp [propagating])
  exact { shape with
    sweepPrev_none := fun notSweeping => absurd rfl notSweeping
    cursor := fun _ => ⟨[], cells, rfl, .nil _, shape.chain, by simpa using unset⟩ }

/-- The end of the list ends the sweep and unsets `sweep_prev`. -/
theorem finishSweep (shape : ListShape arena cells pending) (wakeupTotal : ℕ) :
    ListShape { arena with sweepPrev := none, phase := .sleeping, wakeupTotal } cells pending :=
  { shape with
    sweepPrev_none := fun _ => rfl
    cursor := fun sleeping => by cases sleeping }

/-- A kept box joins the swept prefix as the new `sweep_prev`. -/
theorem keep (shape : ListShape arena cells pending) (sweeping : arena.phase = .sweeping)
    {sweepPtr : Ptr} {gcBox : GcBox} (cursorAt : arena.sweep = some sweepPtr)
    (found : arena.heap.boxes sweepPtr = some gcBox) (rememberedSize : ℕ) :
    ListShape { arena with sweep := gcBox.next, sweepPrev := some sweepPtr, rememberedSize } cells
      pending := by
  refine { shape with
    sweepPrev_none := fun notSweeping => absurd sweeping notSweeping
    cursor := fun _ => ?_ }
  obtain ⟨swept, rest, rfl, front, back, -⟩ := shape.cursor sweeping
  rw [cursorAt] at front back
  cases rest with
  | nil => exact absurd (Chain.nil_iff.mp back) (by simp)
  | cons head rest =>
    obtain ⟨same, gcBox', found', tail⟩ := Chain.cons_iff.mp back
    cases same
    rw [found] at found'
    cases found'
    exact ⟨swept ++ [sweepPtr], rest, by simp, front.append (.cons found (.nil _)), tail,
      by simp⟩

/-- Unlinking and freeing the white box at the cursor takes exactly it out of the list; with no
`sweep_prev` that box is the head, as the sweep's `debug_assert_eq!` expects. -/
theorem unlink (shape : ListShape arena cells pending) (sweeping : arena.phase = .sweeping)
    {sweepPtr : Ptr} {gcBox : GcBox} {unlinked : GcArena} (cursorAt : arena.sweep = some sweepPtr)
    (found : arena.heap.boxes sweepPtr = some gcBox)
    (unlinking : { arena with sweep := gcBox.next }.unlink gcBox.next = .ok unlinked) :
    (arena.sweepPrev = none → arena.all = some sweepPtr) ∧
      ListShape { unlinked with
        totalAllocated := unlinked.totalAllocated - gcBox.size,
        heap := unlinked.heap.erase sweepPtr } (cells.erase sweepPtr) pending := by
  obtain ⟨swept, rest, rfl, front, back, last⟩ := shape.cursor sweeping
  rw [cursorAt] at front back
  cases rest with
  | nil => exact absurd (Chain.nil_iff.mp back) (by simp)
  | cons head rest =>
  obtain ⟨same, gcBox', found', tail⟩ := Chain.cons_iff.mp back
  cases same
  rw [found] at found'
  cases found'
  have nodup := shape.nodup
  have notSwept : sweepPtr ∉ swept := fun member => (List.nodup_append.mp nodup).2.2 member
    (List.mem_cons_self _ _)
  have notRest : sweepPtr ∉ rest := (List.nodup_cons.mp (List.nodup_append.mp nodup).2.1).1
  have erased : (swept ++ sweepPtr :: rest).erase sweepPtr = swept ++ rest := by
    rw [List.erase_append_right _ notSwept, List.erase_cons_head]
  rw [erased]
  have nodup' : (swept ++ rest).Nodup := nodup.sublist (by simp)
  have mem_iff' : ∀ address, address ∈ swept ++ rest ↔ address ≠ sweepPtr ∧ arena.heap.Allocated address := by
    intro address
    rw [← shape.mem_iff, ← erased, nodup.mem_erase_iff]
  have counted : ∀ heap : Heap, (∀ address ≠ sweepPtr, heap.sizeAt address = arena.heap.sizeAt address) →
      arena.totalAllocated - gcBox.size = heap.totalSize (swept ++ rest) + pending := by
    intro heap agree
    have kept := Heap.totalSize_congr fun address (member : address ∈ swept ++ rest) =>
      agree address ((mem_iff' address).mp member).1
    have split := arena.heap.totalSize_erase (List.mem_append_right swept (List.mem_cons_self sweepPtr rest))
    rw [erased, Heap.sizeAt_of_found found] at split
    rw [kept, shape.total, ← split]
    omega
  rcases GcArena.unlink_eq_ok unlinking with ⟨unset, rfl⟩ | ⟨prev, prevBox, prevAt, prevFound, rfl⟩
  · dsimp only at unset
    have : swept = [] := List.getLast?_eq_none_iff.mp (last.symm.trans unset)
    subst this
    have head := Chain.nil_iff.mp front
    refine ⟨fun _ => head, ?_⟩
    refine ⟨tail.of_agree fun address member => ?_, nodup', fun address => ?_, ?_,
      counted _ fun address other => by simp [other], fun _ => ?_,
      fun _ => ⟨[], rest, rfl, .nil _, tail.of_agree fun address member => ?_, by simpa using unset⟩⟩
    · simp [show address ≠ sweepPtr from fun same => notRest (same ▸ member)]
    · simpa [Heap.Allocated] using mem_iff' address
    · intro address above
      simp [shape.unused address above]
    · exact absurd sweeping ‹_›
    · simp [show address ≠ sweepPtr from fun same => notRest (same ▸ member)]
  · dsimp only at prevAt prevFound
    obtain ⟨init, rfl⟩ := List.getLast?_eq_some_iff.mp (prevAt.symm.trans last).symm
    have prevFresh : prev ∉ init := fun member =>
      (List.nodup_append.mp (List.nodup_append.mp nodup).1).2.2 member (List.mem_singleton_self _)
    have notPrev : prev ≠ sweepPtr := fun same => notSwept (by simp [same])
    have relinked := front.relink prevFresh prevBox gcBox.next
    have agreeRest : ∀ address ∈ rest, ((arena.heap.set prev { prevBox with next := gcBox.next }).erase
        sweepPtr).boxes address = arena.heap.boxes address := by
      intro address member
      have : address ≠ prev := fun same => (List.nodup_append.mp nodup).2.2 (by simp [same])
        (List.mem_cons_of_mem _ member)
      simp [this, show address ≠ sweepPtr from fun same => notRest (same ▸ member)]
    refine ⟨fun unset => absurd (prevAt.symm.trans unset) (by simp), ?_⟩
    refine ⟨(relinked.of_agree fun address member => ?_).append (tail.of_agree agreeRest), nodup',
      fun address => ?_, ?_, counted _ fun address other => ?_, fun _ => ?_, fun _ => ⟨init ++ [prev], rest, rfl,
        relinked.of_agree fun address member => ?_, tail.of_agree agreeRest, by simp [prevAt]⟩⟩
    · simp [show address ≠ sweepPtr from fun same => notSwept (same ▸ member)]
    · by_cases here : address = prev
      · subst here
        simp [mem_iff' address, notPrev, Heap.Allocated, prevFound]
      · simpa [here, Heap.Allocated] using mem_iff' address
    · intro address above
      have unused := shape.unused address above
      have : address ≠ prev := fun same => by simp [same, prevFound] at unused
      simp [this, unused]
    · by_cases here : address = prev
      · subst here
        simp [other, Heap.sizeAt_of_found prevFound]
      · simp [other, here]
    · exact absurd sweeping ‹_›
    · simp [show address ≠ sweepPtr from fun same => notSwept (same ▸ member)]

/-- The cursors as the sweep reads them: `sweep` is on the list, and `sweep_prev` is either unset
with `sweep` at the head of the list, or a cell whose `next` is `sweep`. -/
theorem cursor_cases (shape : ListShape arena cells pending) (sweeping : arena.phase = .sweeping) :
    (∀ sweepPtr, arena.sweep = some sweepPtr → sweepPtr ∈ cells) ∧
      (arena.sweepPrev = none ∧ arena.all = arena.sweep ∨
        ∃ prev gcBox, arena.sweepPrev = some prev ∧ prev ∈ cells ∧
          arena.heap.boxes prev = some gcBox ∧ gcBox.next = arena.sweep) := by
  obtain ⟨swept, rest, rfl, front, back, last⟩ := shape.cursor sweeping
  refine ⟨fun sweepPtr cursorAt => ?_, ?_⟩
  · rw [cursorAt] at back
    cases rest with
    | nil => exact absurd (Chain.nil_iff.mp back) (by simp)
    | cons head rest =>
      cases (Chain.cons_iff.mp back).1
      simp
  · rcases swept.eq_nil_or_concat with rfl | ⟨init, prev, rfl⟩
    · exact .inl ⟨by simpa using last, Chain.nil_iff.mp front⟩
    · rw [List.concat_eq_append] at front last ⊢
      obtain ⟨gcBox, found, next⟩ := front.last_next
      exact .inr ⟨prev, gcBox, by simpa using last, by simp, found, next⟩

/-- The box at the cursor is counted in `total_allocated`, so the sweep's subtraction does not
wrap. -/
theorem size_le_totalAllocated (shape : ListShape arena cells pending)
    (sweeping : arena.phase = .sweeping) {sweepPtr : Ptr} {gcBox : GcBox}
    (cursorAt : arena.sweep = some sweepPtr) (found : arena.heap.boxes sweepPtr = some gcBox) :
    gcBox.size ≤ arena.totalAllocated := by
  have counted := arena.heap.sizeAt_le_totalSize ((shape.cursor_cases sweeping).1 sweepPtr cursorAt)
  rw [Heap.sizeAt_of_found found] at counted
  rw [shape.total]
  omega

/-- A pass of `do_collection` keeps the shape. A pass that frees a box frees the white box at
the cursor, takes exactly it out of the list, and finds it at the head when `sweep_prev` is
unset. -/
theorem of_collectionStep (shape : ListShape arena cells pending) {workLeft : Budget}
    {blockedGrayCount : ℕ} {pass : Pass}
    (success : arena.collectionStep workLeft blockedGrayCount = .ok pass) :
    ListShape pass.arena cells pending ∨
      ∃ sweepPtr gcBox, arena.phase = .sweeping ∧ arena.sweep = some sweepPtr ∧
        arena.heap.boxes sweepPtr = some gcBox ∧ gcBox.flags.color = .white ∧
        (arena.sweepPrev = none → arena.all = some sweepPtr) ∧
        ListShape pass.arena (cells.erase sweepPtr) pending := by
  rcases GcArena.collectionStep_eq_ok success with
    ⟨-, rfl⟩ | ⟨propagating, propagated⟩ | ⟨sweeping, swept⟩
  · exact .inl shape
  · rcases GcArena.propagate_eq_ok propagated with ⟨-, next⟩ | marks
    · exact .inl (next ▸ shape.startSweep propagating)
    · exact .inl (shape.of_marks marks)
  · obtain ⟨-, -, ⟨-, -, next⟩ | ⟨sweepPtr, gcBox, cursorAt, found, freed | kept⟩⟩ :=
      GcArena.sweepStep_eq_ok swept
    · exact .inl (next ▸ shape.finishSweep _)
    · obtain ⟨white, -, unlinked, unlinking, -, next⟩ := freed
      obtain ⟨head, unlinkedShape⟩ := shape.unlink sweeping cursorAt found unlinking
      exact .inr ⟨sweepPtr, gcBox, sweeping, cursorAt, found, white, head, next ▸ unlinkedShape⟩
    · obtain ⟨-, -, next⟩ := kept
      have keptShape := shape.keep sweeping cursorAt found (arena.rememberedSize + gcBox.size)
      refine .inl (next ▸ ?_)
      split
      · exact (keptShape.of_recolor _ _).with_gray _
      · exact keptShape.of_recolor _ _

theorem exists_of_collectionStep (shape : ListShape arena cells pending) {workLeft : Budget}
    {blockedGrayCount : ℕ} {pass : Pass}
    (success : arena.collectionStep workLeft blockedGrayCount = .ok pass) :
    ∃ cells', ListShape pass.arena cells' pending :=
  (shape.of_collectionStep success).elim (⟨cells, ·⟩) fun ⟨_, _, _, _, _, _, _, shape'⟩ =>
    ⟨_, shape'⟩

/-- A pass frees at most the white box at the cursor, and the list afterwards is the one before
without it. -/
theorem freed_of_collectionStep (shape : ListShape arena cells pending) {workLeft : Budget}
    {blockedGrayCount : ℕ} {pass : Pass}
    (success : arena.collectionStep workLeft blockedGrayCount = .ok pass) {address : Ptr}
    (before : arena.heap.Allocated address) (after : ¬pass.arena.heap.Allocated address) :
    arena.phase = .sweeping ∧ arena.sweep = some address ∧
      (∃ gcBox, arena.heap.boxes address = some gcBox ∧ gcBox.flags.color = .white) ∧
      (arena.sweepPrev = none → arena.all = some address) ∧
      ListShape pass.arena (cells.erase address) pending := by
  have member := (shape.mem_iff address).mpr before
  rcases shape.of_collectionStep success with
    kept | ⟨sweepPtr, gcBox, sweeping, cursorAt, found, white, head, erased⟩
  · exact absurd ((kept.mem_iff address).mp member) after
  · obtain rfl : address = sweepPtr := by
      by_contra other
      exact after ((erased.mem_iff address).mp ((List.mem_erase_of_ne other).mpr member))
    exact ⟨sweeping, cursorAt, ⟨gcBox, found, white⟩, head, erased⟩

end ListShape

end LusterGc
