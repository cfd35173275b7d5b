import LusterGc.Soundness.Pins

/-! # What every run keeps

`World.Invariant` is what holds in every world a run reaches. Pins are counted throughout. While
the arena lives, its list has the shape `ListShape` describes, the bytes of an `allocate` that is
still collecting are pending, no box is detached and no pinned box is white. Once the arena is
dropped, the walk of `GcArena::drop` still has to visit an attached suffix of the list, and every
other box left is detached and pinned. Every event keeps the invariant.
-/

namespace LusterGc

/-- The bytes the caller of `do_collection` has counted and not yet boxed. -/
def Caller.pending : Caller → ℕ
  | .collectGarbage => 0
  | .allocate request => request.size

namespace Control

/-- The bytes counted by an `allocate` that is collecting. -/
def pending : Control → ℕ
  | .collecting caller _ _ _ => caller.pending
  | _ => 0

/-- The next box of the walk in `GcArena::drop`, while it runs. -/
def walking : Control → Option Ptr
  | .dropping next => some next
  | _ => none

@[simp] theorem walking_elim (next : Option Ptr) :
    (next.elim .idle .dropping : Control).walking = next := by
  cases next <;> rfl

end Control

namespace World

/-- What holds of a live arena, between calls and inside them. -/
structure Live (world : World) (cells : List Ptr) : Prop where
  shape : ListShape world.arena cells world.control.pending
  attached : Attached world.arena.heap
  marked : RootsMarked world.arena.heap
  walking : world.control.walking = none

/-- What holds once the arena is dropped: the walk has still to visit `rest`, all of it attached,
and every other box left is detached and pinned. -/
structure Released (world : World) : Prop where
  idle : world.control.walking = none → world.control = .idle
  walk : ∃ rest, Chain world.arena.heap world.control.walking rest none ∧ rest.Nodup ∧
    (∀ address ∈ rest, ∀ gcBox, world.arena.heap.boxes address = some gcBox →
      gcBox.flags.isDetached = false) ∧
    ∀ address gcBox, world.arena.heap.boxes address = some gcBox → address ∉ rest →
      gcBox.flags.isDetached = true ∧ gcBox.rootCount.count ≠ 0

/-- What every reachable world keeps. -/
structure Invariant (world : World) : Prop where
  pins : PinsCounted world.arena.heap world.pins
  live : world.dropped = false → ∃ cells, world.Live cells
  released : world.dropped = true → world.Released

variable {world next : World} {cells : List Ptr}

namespace Released

/-- Between calls after the drop, the walk is over. -/
theorem of_idle (idle : world.control = .idle)
    (left : world.arena.heap.Every fun gcBox => gcBox.flags.isDetached = true ∧
      gcBox.rootCount.count ≠ 0) : world.Released where
  idle _ := idle
  walk := ⟨[], by rw [idle]; exact .nil none, List.nodup_nil,
    fun _ member => absurd member (List.not_mem_nil _),
    fun address gcBox found _ => left address gcBox found⟩

theorem left (released : world.Released) (idle : world.control = .idle) :
    world.arena.heap.Every fun gcBox => gcBox.flags.isDetached = true ∧ gcBox.rootCount.count ≠ 0 := by
  obtain ⟨-, rest, chain, -, -, outside⟩ := released
  rw [idle] at chain
  cases rest with
  | nil => exact fun address gcBox found => outside address gcBox found (List.not_mem_nil _)
  | cons head tail => exact absurd (Chain.cons_iff.mp chain).1 (by simp [Control.walking])

end Released

namespace Invariant

theorem of_live (counted : PinsCounted next.arena.heap next.pins) (alive : next.dropped = false)
    (live : next.Live cells) : next.Invariant :=
  ⟨counted, fun _ => ⟨cells, live⟩, fun dropped => by simp [alive] at dropped⟩

theorem of_released (counted : PinsCounted next.arena.heap next.pins)
    (dropped : next.dropped = true) (released : next.Released) : next.Invariant :=
  ⟨counted, fun alive => by simp [dropped] at alive, fun _ => released⟩

theorem initial (parameters : GcParameters) : (World.initial parameters).Invariant := by
  refine .of_live ⟨fun _ _ found => (by cases found), fun _ => Nat.zero_le _,
    fun _ member => absurd member (List.not_mem_nil _)⟩ rfl (show (World.initial parameters).Live [] from
    ⟨⟨.nil none, List.nodup_nil, fun address => ?_, fun _ _ => rfl, rfl, fun _ => rfl,
      fun sweeping => (by cases sweeping)⟩, fun _ _ found => (by cases found),
      fun _ _ found => (by cases found), rfl⟩)
  simp [World.initial, GcArena.new, Heap.Allocated, Heap.empty]

/-- Only a live arena collects. -/
theorem alive_of_collecting (invariant : world.Invariant) {caller : Caller}
    {work workLeft : Budget} {blockedGrayCount : ℕ}
    (collecting : world.control = .collecting caller work workLeft blockedGrayCount) :
    world.dropped = false := by
  cases isDropped : world.dropped
  · rfl
  · exact absurd ((invariant.released isDropped).idle (by simp [collecting, Control.walking]))
      (by simp [collecting])

/-- Only a dropped arena walks its list. -/
theorem dropped_of_dropping (invariant : world.Invariant) {address : Ptr}
    (dropping : world.control = .dropping address) : world.dropped = true := by
  cases alive : world.dropped
  · exact absurd (invariant.live alive).choose_spec.walking (by simp [dropping, Control.walking])
  · rfl

/-- Leaving the loop of `do_collection` links the box of a waiting `allocate`. -/
theorem leaveCollection {caller : Caller} {arena : GcArena} {work workLeft : Budget}
    (counted : PinsCounted arena.heap world.pins) (shape : ListShape arena cells caller.pending)
    (attached : Attached arena.heap) (marked : RootsMarked arena.heap)
    (alive : world.dropped = false) : (world.leaveCollection caller arena work workLeft).Invariant := by
  have finished := shape.of_finishCollection work workLeft
  have heap := arena.finishCollection_heap work workLeft
  cases caller with
  | collectGarbage =>
    exact .of_live (heap ▸ counted) alive ⟨finished, heap ▸ attached, heap ▸ marked, rfl⟩
  | allocate request =>
    refine .of_live ?_ alive ⟨finished.of_allocateFinish, ?_, ?_, rfl⟩ <;>
      simp only [World.leaveCollection, GcArena.allocateFinish_heap, heap]
    · exact counted.alloc (shape.unused _ le_rfl) rfl
    · exact Heap.Every.alloc attached (by simp [Allocation.box])
    · exact Heap.Every.alloc marked fun pinned => absurd rfl pinned

theorem allocate {request : Allocation} (invariant : world.Invariant)
    (step : world.Step (.allocate request) next) : next.Invariant := by
  obtain ⟨arena, dropped, pins, control⟩ := world
  obtain ⟨rfl, rfl, outcome⟩ := Step.allocate_eq step
  obtain ⟨cells, live⟩ := invariant.live rfl
  have started := live.shape.of_allocateStart request.size
  simp only [Control.pending, Nat.zero_add] at started
  rcases outcome with ⟨-, rfl⟩ | ⟨work, -, rfl⟩
  · refine .of_live ?_ rfl ⟨started.of_allocateFinish, ?_, ?_, rfl⟩ <;>
      simp only [GcArena.allocateFinish_heap, GcArena.allocateStart_heap]
    · exact invariant.pins.alloc (live.shape.unused _ le_rfl) rfl
    · exact Heap.Every.alloc live.attached (by simp [Allocation.box])
    · exact Heap.Every.alloc live.marked fun pinned => absurd rfl pinned
  · have heap := arena.allocateStart_heap request.size
    exact .of_live (heap ▸ invariant.pins) rfl
      ⟨started, heap ▸ live.attached, heap ▸ live.marked, rfl⟩

theorem root {gc : Ptr} (invariant : world.Invariant) (step : world.Step (.root gc) next) :
    next.Invariant := by
  obtain ⟨arena, dropped, pins, control⟩ := world
  obtain ⟨rfl, rfl, rooted, success, rfl⟩ := Step.root_eq step
  obtain ⟨cells, live⟩ := invariant.live rfl
  obtain ⟨gcBox, found, below, heap⟩ := GcArena.root_heap success
  refine .of_live ?_ rfl ⟨live.shape.of_root success, ?_, ?_, rfl⟩ <;> simp only [heap]
  · exact invariant.pins.pin found below rfl
  · exact Heap.Every.set live.attached (by split <;> simp [live.attached gc gcBox found])
  · exact Heap.Every.set live.marked fun _ => by split <;> simp_all

theorem writeBarrier {gc : Ptr} (invariant : world.Invariant)
    (step : world.Step (.writeBarrier gc) next) : next.Invariant := by
  obtain ⟨arena, dropped, pins, control⟩ := world
  obtain ⟨rfl, rfl, barred, success, rfl⟩ := Step.writeBarrier_eq step
  obtain ⟨cells, live⟩ := invariant.live rfl
  have marks := (GcArena.writeBarrier_eq_ok success).2.1
  have collects := Heap.Collects.of_shades marks.shades
  exact .of_live (invariant.pins.of_collects live.marked collects) rfl
    ⟨live.shape.of_marks marks, live.attached.of_collects collects,
      live.marked.of_collects collects, rfl⟩

theorem collectGarbage (invariant : world.Invariant) (step : world.Step .collectGarbage next) :
    next.Invariant := by
  obtain ⟨arena, dropped, pins, control⟩ := world
  obtain ⟨rfl, rfl, rfl⟩ := Step.collectGarbage_eq step
  obtain ⟨cells, live⟩ := invariant.live rfl
  have heap := arena.startCycle_heap
  exact .of_live (heap ▸ invariant.pins) rfl
    ⟨live.shape.of_startCycle, heap ▸ live.attached, heap ▸ live.marked, rfl⟩

theorem cloneRgc {gc : Ptr} (invariant : world.Invariant) (step : world.Step (.cloneRgc gc) next) :
    next.Invariant := by
  obtain ⟨arena, dropped, pins, control⟩ := world
  obtain ⟨rfl, held, heap, success, rfl⟩ := Step.cloneRgc_eq step
  obtain ⟨gcBox, found, below, rfl⟩ := Rgc.clone_eq_ok success
  have pinned := (invariant.pins.pinned_iff found).mpr held
  refine ⟨invariant.pins.pin found below rfl, fun alive => ?_, fun gone => ?_⟩
  · obtain ⟨cells, live⟩ := invariant.live alive
    exact ⟨cells, live.shape.of_set found rfl rfl, Heap.Every.set live.attached
      (live.attached gc gcBox found), Heap.Every.set live.marked fun _ =>
        live.marked gc gcBox found pinned, rfl⟩
  · exact .of_idle rfl (Heap.Every.set ((invariant.released gone).left rfl)
      ⟨((invariant.released gone).left rfl gc gcBox found).1, by simp⟩)

theorem dropRgc {gc : Ptr} (invariant : world.Invariant) (step : world.Step (.dropRgc gc) next) :
    next.Invariant := by
  obtain ⟨arena, dropped, pins, control⟩ := world
  obtain ⟨rfl, held, heap, success, rfl⟩ := Step.dropRgc_eq step
  obtain ⟨gcBox, found, freed⟩ := Rgc.drop_eq_ok success
  have released : PinsCounted (arena.heap.set gc
      { gcBox with rootCount := gcBox.rootCount.decrement }) (pins.erase gc) :=
    invariant.pins.release held found rfl
  have pinned := (invariant.pins.pinned_iff found).mpr held
  by_cases last : gcBox.rootCount.decrement.count = 0 ∧ gcBox.flags.isDetached = true
  · simp only [if_pos last] at freed
    subst freed
    refine ⟨released.erase (Heap.set_boxes_self _ _ _) last.1, fun alive => ?_, fun gone => ?_⟩
    · obtain ⟨cells, live⟩ := invariant.live alive
      exact absurd last.2 (by simp [live.attached gc gcBox found])
    · exact .of_idle rfl (by simpa using Heap.Every.erase ((invariant.released gone).left rfl) gc)
  · simp only [if_neg last] at freed
    subst freed
    refine ⟨released, fun alive => ?_, fun gone => ?_⟩
    · obtain ⟨cells, live⟩ := invariant.live alive
      exact ⟨cells, live.shape.of_set found rfl rfl, Heap.Every.set live.attached
        (live.attached gc gcBox found), Heap.Every.set live.marked fun _ =>
          live.marked gc gcBox found pinned, rfl⟩
    · have left := (invariant.released gone).left rfl
      have detached := (left gc gcBox found).1
      exact .of_idle rfl (Heap.Every.set left ⟨detached, fun zero => last ⟨zero, detached⟩⟩)

theorem mutate {gc : Ptr} {value : GcValue} (invariant : world.Invariant)
    (step : world.Step (.mutate gc value) next) : next.Invariant := by
  obtain ⟨arena, dropped, pins, control⟩ := world
  obtain ⟨rfl, gcBox, found, rfl⟩ := Step.mutate_eq step
  refine ⟨invariant.pins.set found rfl, fun alive => ?_, fun gone => ?_⟩
  · obtain ⟨cells, live⟩ := invariant.live alive
    exact ⟨cells, live.shape.of_set found rfl rfl, Heap.Every.set live.attached
      (live.attached gc gcBox found), Heap.Every.set live.marked (live.marked gc gcBox found), rfl⟩
  · have left := (invariant.released gone).left rfl
    exact .of_idle rfl (Heap.Every.set left (left gc gcBox found))

/-- Dropping the arena hands the whole list to the walk of `GcArena::drop`. -/
theorem dropArena (invariant : world.Invariant) (step : world.Step .dropArena next) :
    next.Invariant := by
  obtain ⟨arena, dropped, pins, control⟩ := world
  obtain ⟨rfl, rfl, rfl⟩ := Step.dropArena_eq step
  obtain ⟨cells, live⟩ := invariant.live rfl
  refine .of_released invariant.pins rfl ⟨fun stopped => ?_, cells, ?_, live.shape.nodup,
    fun address _ gcBox found => live.attached address gcBox found,
    fun address gcBox found outside => absurd ((live.shape.mem_iff address).mpr
      (Option.ne_none_iff_exists'.mpr ⟨gcBox, found⟩)) outside⟩
  · simp only [Control.walking_elim] at stopped
    simp [stopped]
  · simpa using live.shape.chain

/-- One turn of the walk in `GcArena::drop`. -/
theorem dropStep {address : Ptr} {heap : Heap} {nextPtr : Option Ptr}
    (invariant : world.Invariant) (dropping : world.control = .dropping address)
    (dropped : GcArena.dropStep world.arena.heap address = .ok (heap, nextPtr)) :
    { world.withHeap heap with control := nextPtr.elim .idle .dropping }.Invariant := by
  have isDropped := invariant.dropped_of_dropping dropping
  obtain ⟨-, rest, chain, nodup, attachedRest, outside⟩ := invariant.released isDropped
  obtain ⟨arena, dropped', pins, control⟩ := world
  cases dropping
  cases isDropped
  obtain ⟨gcBox, found, rfl, rfl⟩ := GcArena.dropStep_eq_ok dropped
  cases rest with
  | nil => exact absurd (Chain.nil_iff.mp chain) (by simp [Control.walking])
  | cons head tail =>
  obtain ⟨same, gcBox', found', tail'⟩ := Chain.cons_iff.mp chain
  cases same
  cases found.symm.trans found'
  have fresh : address ∉ tail := (List.nodup_cons.mp nodup).1
  have agree : ∀ query ≠ address, (if gcBox.rootCount.isRooted then
      arena.heap.set address { gcBox with flags := gcBox.flags.setDetached true }
      else arena.heap.erase address).boxes query = arena.heap.boxes query := by
    intro query other
    split <;> simp [other]
  refine .of_released ?_ rfl ⟨fun stopped => ?_, tail, ?_, (List.nodup_cons.mp nodup).2,
    fun query member gcBox found => ?_, fun query gcBox found outsideTail => ?_⟩
  · split
    · exact invariant.pins.set found rfl
    · rename_i unpinned
      exact invariant.pins.erase found (by simpa using unpinned)
  · simp only [Control.walking_elim] at stopped
    simp [stopped]
  · simpa using tail'.of_agree fun query member => agree query fun same => fresh (same ▸ member)
  · have other : query ≠ address := fun same => fresh (same ▸ member)
    dsimp only [World.withHeap] at found
    rw [agree query other] at found
    exact attachedRest query (List.mem_cons_of_mem _ member) gcBox found
  · dsimp only [World.withHeap] at found
    by_cases here : query = address
    · subst here
      split at found
      · rename_i pinned
        simp only [Heap.set_boxes, ite_true, Option.some.injEq] at found
        subst found
        simpa using pinned
      · simp at found
    · rw [agree query here] at found
      exact outside query gcBox found (by simp [here, outsideTail])

/-- A pass of `do_collection`, or its exit, or a turn of the walk in `GcArena::drop`. -/
theorem resume (invariant : world.Invariant) (step : world.Step .resume next) :
    next.Invariant := by
  rcases Step.resume_eq step with ⟨caller, work, workLeft, blockedGrayCount, collecting, outcome⟩ |
    ⟨address, heap, nextPtr, dropping, dropped, rfl⟩
  · have alive := invariant.alive_of_collecting collecting
    obtain ⟨cells, live⟩ := invariant.live alive
    have shape : ListShape world.arena cells caller.pending := by
      simpa [collecting, Control.pending] using live.shape
    rcases outcome with ⟨-, pass, success, rfl⟩ | ⟨-, rfl⟩
    · have collects := GcArena.collectionStep_collects success
      have counted := invariant.pins.of_collects live.marked collects
      have attached := live.attached.of_collects collects
      have marked := live.marked.of_collects collects
      obtain ⟨cells', passed⟩ : ∃ cells', ListShape pass.arena cells' caller.pending := by
        rcases shape.of_collectionStep success with passed | ⟨sweepPtr, -, -, -, -, -, -, passed⟩ <;>
          exact ⟨_, passed⟩
      split
      · exact leaveCollection counted passed attached marked alive
      · exact .of_live counted alive ⟨passed, attached, marked, rfl⟩
    · exact leaveCollection invariant.pins shape live.attached live.marked alive
  · exact invariant.dropStep dropping dropped

/-- Every event keeps the invariant. -/
theorem step {event : Event} (invariant : world.Invariant) (step : world.Step event next) :
    next.Invariant := by
  cases event with
  | allocate request => exact invariant.allocate step
  | root gc => exact invariant.root step
  | writeBarrier gc => exact invariant.writeBarrier step
  | collectGarbage => exact invariant.collectGarbage step
  | cloneRgc gc => exact invariant.cloneRgc step
  | dropRgc gc => exact invariant.dropRgc step
  | mutate gc value => exact invariant.mutate step
  | dropArena => exact invariant.dropArena step
  | resume => exact invariant.resume step

end Invariant

end World

theorem Reachable.invariant {world : World} (reachable : Reachable world) : world.Invariant :=
  Reachable.induction World.Invariant World.Invariant.initial
    (fun _ invariant step => invariant.step step) reachable

/-- In a live world of a run no box lies past the next address, so a property of every box is a
check of the addresses below it. -/
theorem Reachable.every_of_below {world : World} (reachable : Reachable world)
    (alive : world.dropped = false) {property : GcBox → Prop}
    (below : ∀ address < world.arena.heap.fresh, ∀ gcBox ∈ world.arena.heap.boxes address,
      property gcBox) : world.arena.heap.Every property := by
  obtain ⟨cells, live⟩ := reachable.invariant.live alive
  exact Heap.Every.of_below live.shape.unused below

end LusterGc
