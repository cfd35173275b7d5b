import LusterGc.Soundness.Safety
import LusterGc.Soundness.Termination
import LusterGc.Soundness.Ownership

/-! # Under the contract no pass reads a freed box

A pass of `do_collection` reads the box it pops from the gray queue and, when it traces it, every
box its payload points at; the sweep reads the boxes under its two cursors. The all-list keeps
the sweep on allocated boxes in every run. Nothing in the code keeps the tracer off freed boxes:
a box left in the queue, or a box it points at, may be gone. Under the contract none is. Asleep
or sweeping, the queue holds only light gray boxes, which are pinned. While propagating nothing
is freed, and every box below a queued or black box stays allocated: the queue gains only boxes
below the box just traced, and boxes in use, and a payload gains pointers only to boxes in use.

`Traceable` collects these facts; every step of a run that keeps the contract keeps it. So under
the contract every pass goes through, and with no trace blocked `collect_garbage` and `allocate`
return a value, never a fault.
-/

namespace LusterGc

namespace Heap

variable {heap heap' : Heap} {root address : Ptr}

/-- `address` is `root` or lies below it, along the pointers of boxes that are there. -/
inductive Below (heap : Heap) (root : Ptr) : Ptr → Prop
  | refl : heap.Below root root
  | child {parent address : Ptr} {gcBox : GcBox} : heap.Below root parent →
      heap.boxes parent = some gcBox → address ∈ gcBox.value.children → heap.Below root address

/-- Every box below `root` is allocated: a trace from `root` reads no freed box. -/
def Intact (heap : Heap) (root : Ptr) : Prop :=
  ∀ address, heap.Below root address → heap.Allocated address

namespace Below

theorem trans {middle : Ptr} (first : heap.Below root middle) (second : heap.Below middle address) :
    heap.Below root address := by
  induction second with
  | refl => exact first
  | child _ found member ih => exact .child ih found member

/-- Where every box keeps its payload, what lies below a box now lay below it before. -/
theorem of_prunes (prunes : heap.Prunes heap') (below : heap'.Below root address) :
    heap.Below root address := by
  induction below with
  | refl => exact .refl
  | child _ found member ih =>
    obtain ⟨gcBox, found₀, value, -⟩ := prunes _ _ found
    exact .child ih found₀ (value ▸ member)

/-- After one box is rewritten, a path either takes none of the pointers it gained and was there
before, or goes on from one of them. -/
theorem of_set {gc : Ptr} {gcBox gcBox' : GcBox} (found : heap.boxes gc = some gcBox)
    (below : (heap.set gc gcBox').Below root address) :
    heap.Below root address ∨ ∃ child ∈ gcBox'.value.children,
      child ∉ gcBox.value.children ∧ heap.Below child address := by
  induction below with
  | refl => exact .inl .refl
  | @child parent address box _ found' member ih =>
    by_cases here : parent = gc
    · subst here
      rw [set_boxes_self] at found'
      cases found'
      by_cases old : address ∈ gcBox.value.children
      · exact ih.imp (fun before => .child before found old)
          fun ⟨start, gained, new, before⟩ => ⟨start, gained, new, .child before found old⟩
      · exact .inr ⟨address, member, old, .refl⟩
    · rw [set_boxes, if_neg here] at found'
      exact ih.imp (fun before => .child before found' member)
        fun ⟨start, gained, new, before⟩ => ⟨start, gained, new, .child before found' member⟩

/-- A new box lies below no box that has every box below it allocated. -/
theorem of_alloc {gcBox : GcBox} (unused : heap.boxes heap.fresh = none) (intact : heap.Intact root)
    (below : (heap.alloc gcBox).1.Below root address) : heap.Below root address := by
  induction below with
  | refl => exact .refl
  | @child parent address box _ found member ih =>
    have other : parent ≠ heap.fresh := fun same => intact parent ih (same ▸ unused)
    rw [alloc_boxes, if_neg other] at found
    exact .child ih found member

end Below

namespace Intact

theorem below (intact : heap.Intact root) (under : heap.Below root address) :
    heap.Intact address :=
  fun _ further => intact _ (under.trans further)

/-- A box in use has every box below it in use, so allocated where every box in use is. -/
theorem of_inUse {since : ℕ} (allocated : ∀ address, heap.InUse since address → heap.Allocated address)
    (inUse : heap.InUse since root) : heap.Intact root := by
  intro address below
  refine allocated address ?_
  induction below with
  | refl => exact inUse
  | child _ found member ih => exact .child ih found member

/-- Marking keeps every payload and frees nothing. -/
theorem of_shades (intact : heap.Intact root) (shades : heap.Shades heap') : heap'.Intact root :=
  fun address below => shades.allocated_iff.mpr (intact address (below.of_prunes (.of_shades shades)))

/-- Rewriting a box in place, where every pointer it gains has every box below it allocated. -/
theorem of_set (intact : heap.Intact root) {gc : Ptr} {gcBox gcBox' : GcBox}
    (found : heap.boxes gc = some gcBox)
    (gained : ∀ child ∈ gcBox'.value.children, child ∉ gcBox.value.children → heap.Intact child) :
    (heap.set gc gcBox').Intact root := fun address below => by
  have allocated : heap.Allocated address := by
    rcases below.of_set found with before | ⟨child, member, new, before⟩
    exacts [intact address before, gained child member new address before]
  by_cases here : address = gc
  · simp [Allocated, here]
  · simpa [Allocated, here] using allocated

theorem of_alloc (intact : heap.Intact root) (unused : heap.boxes heap.fresh = none)
    (gcBox : GcBox) : (heap.alloc gcBox).1.Intact root := fun address below => by
  have allocated := intact address (below.of_alloc unused intact)
  by_cases here : address = heap.fresh
  · simp [Allocated, here]
  · simpa [Allocated, here] using allocated

end Intact

end Heap

/-- The tracer queues only the pointer it is given. -/
theorem GcTracer.trace_gray {arena next : GcArena} {gc : Ptr}
    (success : GcTracer.trace arena gc = .ok next) :
    ∀ address ∈ next.gray, address ∈ arena.gray ∨ address = gc := by
  obtain ⟨gcBox, -, success⟩ := bind_eq_ok.mp success
  revert success
  cases gcBox.flags.color <;> simp only [GcFlags.needsTrace_eq_true, ite_true] <;>
    rintro ⟨⟩ <;> intro address member
  · exact (List.mem_cons.mp member).symm
  all_goals exact .inl member

/-- Tracing a payload queues only the pointers it holds. -/
theorem GcTracer.foldlM_trace_gray {children : List Ptr} {arena next : GcArena}
    (folded : children.foldlM GcTracer.trace arena = .ok next) :
    ∀ address ∈ next.gray, address ∈ arena.gray ∨ address ∈ children := by
  induction children generalizing arena with
  | nil =>
    cases folded
    exact fun _ member => .inl member
  | cons child rest ih =>
    rw [List.foldlM_cons] at folded
    obtain ⟨middle, first, folded⟩ := bind_eq_ok.mp folded
    intro address member
    rcases ih folded address member with earlier | later
    · rcases GcTracer.trace_gray first address earlier with old | rfl
      · exact .inl old
      · exact .inr (List.mem_cons_self _ _)
    · exact .inr (List.mem_cons_of_mem _ later)

namespace GcArena

variable {arena next : GcArena} {since : ℕ}

/-- The boxes a pass of propagation may trace from: the queued ones, and the black ones, which
`write_barrier` may queue again. -/
def Reached (arena : GcArena) (address : Ptr) : Prop :=
  address ∈ arena.gray ∨ ∃ gcBox, arena.heap.boxes address = some gcBox ∧ gcBox.flags.color = .black

/-- What keeps propagation off freed boxes: asleep or sweeping, every queued box is light gray;
while propagating, every box below a queued or black box is allocated. -/
structure Traceable (arena : GcArena) : Prop where
  light : arena.phase ≠ .propagating → ∀ address ∈ arena.gray,
    ∃ gcBox, arena.heap.boxes address = some gcBox ∧ gcBox.flags.color = .lightGray
  intact : arena.phase = .propagating → ∀ address, arena.Reached address → arena.heap.Intact address

namespace Traceable

theorem new (parameters : GcParameters) : (GcArena.new parameters).Traceable :=
  ⟨fun _ _ member => absurd member (List.not_mem_nil _), fun sleeping => nomatch sleeping⟩

/-- `Traceable` reads memory, the queue and the phase. -/
theorem congr (traceable : arena.Traceable) (heap : next.heap = arena.heap)
    (gray : next.gray = arena.gray) (phase : next.phase = arena.phase) : next.Traceable where
  light awake := by
    rw [heap, gray]
    exact traceable.light (phase ▸ awake)
  intact propagating address reached := by
    rw [heap]
    exact traceable.intact (phase ▸ propagating) address (by simpa [Reached, heap, gray] using reached)

/-- Waking the collector: the queued boxes are light gray, so pinned and in use, and an asleep
collector holds no black box. -/
theorem of_wake (traceable : arena.Traceable) (pinned : arena.heap.LightPinned)
    (allocated : ∀ address, arena.heap.InUse since address → arena.heap.Allocated address)
    (settled : arena.ColorsSettled) (heap : next.heap = arena.heap) (gray : next.gray = arena.gray)
    (woken : next.phase = arena.phase ∨ arena.phase = .sleeping ∧ next.phase = .propagating) :
    next.Traceable := by
  rcases woken with same | ⟨sleeping, propagating⟩
  · exact traceable.congr heap gray same
  refine ⟨fun awake => absurd propagating awake, fun _ address reached => ?_⟩
  rw [heap]
  rcases reached with queued | ⟨gcBox, found, black⟩
  · rw [gray] at queued
    obtain ⟨gcBox, found, light⟩ :=
      traceable.light (by rw [sleeping]; decide) address queued
    exact .of_inUse allocated (.pinned found (pinned address gcBox found light))
  · rw [heap] at found
    rcases settled.asleep sleeping address gcBox found (List.not_mem_nil _) with white | ⟨light, -⟩
    · exact absurd (white.symm.trans black) (by decide)
    · exact absurd (light.symm.trans black) (by decide)

/-- Rewriting a box in place, keeping its flags, where every pointer it gains has every box
below it allocated. -/
theorem of_set (traceable : arena.Traceable) {gc : Ptr} {gcBox gcBox' : GcBox}
    (found : arena.heap.boxes gc = some gcBox) (flags : gcBox'.flags = gcBox.flags)
    (gained : arena.phase = .propagating → ∀ child ∈ gcBox'.value.children,
      child ∉ gcBox.value.children → arena.heap.Intact child) :
    { arena with heap := arena.heap.set gc gcBox' }.Traceable := by
  -- every box keeps its colour
  have colored : ∀ address box', (arena.heap.set gc gcBox').boxes address = some box' →
      ∃ box, arena.heap.boxes address = some box ∧ box'.flags = box.flags := fun address box' found' => by
    rcases Heap.set_boxes_eq_some found' with ⟨here, rfl⟩ | ⟨-, found₀⟩
    exacts [⟨gcBox, here ▸ found, flags⟩, ⟨box', found₀, rfl⟩]
  have present : ∀ address, arena.heap.Allocated address →
      ∃ box', (arena.heap.set gc gcBox').boxes address = some box' := fun address allocated => by
    by_cases here : address = gc
    · exact ⟨gcBox', by simp [here]⟩
    · exact Option.ne_none_iff_exists'.mp (by simpa [here] using allocated)
  refine ⟨fun awake address queued => ?_, fun propagating address reached => ?_⟩
  · obtain ⟨box, found₀, light⟩ := traceable.light awake address queued
    obtain ⟨box', found'⟩ := present address (by simp [Heap.Allocated, found₀])
    obtain ⟨box₀, found₁, same⟩ := colored address box' found'
    cases found₀.symm.trans found₁
    exact ⟨box', found', by rw [same, light]⟩
  · refine (traceable.intact propagating address ?_).of_set found (gained propagating)
    rcases reached with queued | ⟨box', found', black⟩
    · exact .inl queued
    · obtain ⟨box, found₀, same⟩ := colored address box' found'
      exact .inr ⟨box, found₀, by rw [← same, black]⟩

/-- Turning a box gray at the back of the queue: while propagating it has every box below it
allocated, and otherwise it turns light gray. -/
theorem push (traceable : arena.Traceable) {gc : Ptr} {gcBox : GcBox} {color : GcColor}
    (found : arena.heap.boxes gc = some gcBox) (gray : color = .lightGray ∨ color = .darkGray)
    (intact : arena.phase = .propagating → arena.heap.Intact gc)
    (light : arena.phase ≠ .propagating → color = .lightGray) :
    { arena.recolor gc color with gray := arena.gray ++ [gc] }.Traceable := by
  have dark : color ≠ .white := by rcases gray with rfl | rfl <;> decide
  refine ⟨fun awake address queued => ?_, fun propagating address reached => ?_⟩
  · change ∃ box, (arena.heap.recolor gc color).boxes address = some box ∧ _
    rw [Heap.recolor_boxes]
    by_cases here : address = gc
    · rw [if_pos here, found]
      exact ⟨_, rfl, by simp [light awake]⟩
    · rw [if_neg here]
      rcases List.mem_append.mp queued with old | new
      · exact traceable.light awake address old
      · exact absurd (List.mem_singleton.mp new) here
  -- a box reached now is the queued one, or was reached before
  have before : address = gc ∨ arena.Reached address := by
    rcases reached with queued | ⟨box, found', black⟩
    · rcases List.mem_append.mp queued with old | new
      exacts [.inr (.inl old), .inl (List.mem_singleton.mp new)]
    · by_cases here : address = gc
      · exact .inl here
      · change (arena.heap.recolor gc color).boxes address = some box at found'
        rw [Heap.recolor_boxes, if_neg here] at found'
        exact .inr (.inr ⟨box, found', black⟩)
  refine Heap.Intact.of_shades ?_ (arena.heap.shades_recolor gc dark)
  rcases before with rfl | old
  exacts [intact propagating, traceable.intact propagating address old]

/-- Linking a new box, white and unqueued, below no old box. -/
theorem of_allocateFinish (traceable : arena.Traceable)
    (unused : arena.heap.boxes arena.heap.fresh = none) (request : Allocation) :
    (arena.allocateFinish request).1.Traceable := by
  rw [allocateFinish_eq]
  have old : ∀ address box, arena.heap.boxes address = some box → address ≠ arena.heap.fresh :=
    fun address box found same => by
      rw [same, unused] at found
      cases found
  refine ⟨fun awake address queued => ?_, fun propagating address reached => ?_⟩
  · obtain ⟨box, found, light⟩ := traceable.light awake address queued
    exact ⟨box, by simp [old address box found, found], light⟩
  have before : arena.Reached address := by
    rcases reached with queued | ⟨box, found, black⟩
    · exact .inl queued
    · change (arena.heap.alloc (request.box arena.all)).1.boxes address = some box at found
      rw [Heap.alloc_boxes] at found
      split at found
      · cases found
        simp [Allocation.box] at black
      · exact .inr ⟨box, found, black⟩
  exact (traceable.intact propagating address before).of_alloc unused _

/-- `root` pins a box in use; a white one turns light gray at the back of the queue. -/
theorem of_root (traceable : arena.Traceable) {gc : Ptr} (inUse : arena.heap.InUse since gc)
    (allocated : ∀ address, arena.heap.InUse since address → arena.heap.Allocated address)
    (success : arena.root gc = .ok next) : next.Traceable := by
  obtain ⟨gcBox, found, -, rfl⟩ := root_eq_ok success
  have unchanged : ∀ child ∈ ({ gcBox with rootCount := ⟨gcBox.rootCount.count + 1⟩ } :
      GcBox).value.children, child ∉ gcBox.value.children → arena.heap.Intact child :=
    fun _ member old => absurd member old
  have pinned : { arena with heap := arena.heap.set gc ({ gcBox with
      rootCount := ⟨gcBox.rootCount.count + 1⟩ }) }.Traceable :=
    traceable.of_set found rfl fun _ => unchanged
  split
  · exact pinned.push (Heap.set_boxes_self _ _ _) (.inl rfl)
      (fun _ => (Heap.Intact.of_inUse allocated inUse).of_set found unchanged) fun _ => rfl
  · exact pinned

/-- `write_barrier` queues a black box again, dark gray, while propagating. -/
theorem of_writeBarrier (traceable : arena.Traceable) {gc : Ptr}
    (success : arena.writeBarrier gc = .ok next) : next.Traceable := by
  obtain ⟨gcBox, found, success⟩ := bind_eq_ok.mp success
  rw [Heap.get_eq_ok] at found
  split at success
  · rename_i fired
    cases success
    exact traceable.push found (.inr rfl)
      (fun propagating => traceable.intact propagating gc (.inr ⟨gcBox, found, fired.2⟩))
      fun awake => absurd fired.1 awake
  · cases success
    exact traceable

/-- A pop of the gray queue traces from a queued box and queues only boxes below it. -/
theorem of_propagate (traceable : arena.Traceable) (propagating : arena.phase = .propagating)
    {workLeft : Budget} {blockedGrayCount : ℕ} {pass : Pass}
    (success : arena.propagate workLeft blockedGrayCount = .ok pass) : pass.arena.Traceable := by
  have intact := traceable.intact propagating
  cases queue : arena.gray with
  | nil =>
    rw [propagate_start queue] at success
    cases success
    exact ⟨fun _ address member => by simp [queue] at member, fun sweeping => nomatch sweeping⟩
  | cons gcBoxPtr gray =>
  have popped : arena.heap.Intact gcBoxPtr := intact gcBoxPtr (.inl (queue ▸ List.mem_cons_self _ _))
  -- a pass that leaves memory alone and queues only boxes that were queued
  have requeued : ∀ gray' : List Ptr, (∀ address ∈ gray', address ∈ arena.gray) →
      { arena with gray := gray' }.Traceable := fun gray' sub =>
    ⟨fun awake => absurd propagating awake,
      fun _ address reached => intact address (reached.imp (sub address) id)⟩
  obtain ⟨gcBox, found, ⟨-, ⟨marked, folded, next⟩ | next⟩ | ⟨-, next⟩⟩ :=
    propagate_pop success queue
  · -- traced: the queue gains the pointers of the popped box, which turns black
    obtain ⟨darkens, -⟩ := GcTracer.foldlM_trace_darkens folded
    have shades : arena.heap.Shades pass.arena.heap := by
      rw [next]
      exact darkens.marks.shades.trans (marked.marks_recolor gcBoxPtr (by decide)).shades
    have phase : pass.arena.phase = arena.phase := by
      rw [next]
      exact darkens.marks.phase
    refine ⟨fun awake => absurd (phase.trans propagating) awake, fun _ address reached => ?_⟩
    refine Heap.Intact.of_shades ?_ shades
    rcases reached with queued | ⟨box, found', black⟩
    · rw [next] at queued
      rcases GcTracer.foldlM_trace_gray folded address queued with old | below
      · exact intact address (.inl (queue ▸ List.mem_cons_of_mem _ old))
      · exact popped.below (.child .refl found below)
    · by_cases here : address = gcBoxPtr
      · exact here ▸ popped
      · rw [next] at found'
        change (marked.heap.recolor gcBoxPtr .black).boxes address = some box at found'
        rw [Heap.recolor_boxes, if_neg here] at found'
        obtain ⟨box₀, found₀, same | ⟨dark, -⟩⟩ := darkens.colors address box found'
        · exact intact address (.inr ⟨box₀, found₀, same.symm.trans black⟩)
        · exact absurd (black.symm.trans dark) (by decide)
  · -- blocked: the box goes to the back of the queue
    rw [next]
    refine requeued _ fun address member => ?_
    rw [queue]
    rcases List.mem_append.mp member with old | new
    · exact List.mem_cons_of_mem _ old
    · rw [List.mem_singleton.mp new]
      exact List.mem_cons_self _ _
  · -- skipped: the box leaves the queue
    rw [next]
    exact requeued gray fun address member => queue ▸ List.mem_cons_of_mem _ member

/-- A pass of the sweep touches no queued box, since the box at its cursor is not light gray, and
it queues, light gray, only the pinned box it keeps. -/
theorem of_sweepStep (traceable : arena.Traceable) (sweeping : arena.phase = .sweeping)
    (cursor : ∀ sweepPtr gcBox, arena.sweep = some sweepPtr →
      arena.heap.boxes sweepPtr = some gcBox → gcBox.flags.color ≠ .lightGray)
    {workLeft : Budget} {blockedGrayCount : ℕ} {pass : Pass}
    (success : arena.sweepStep workLeft blockedGrayCount = .ok pass) : pass.arena.Traceable := by
  have light := traceable.light (by rw [sweeping]; decide)
  refine ⟨fun _ address queued => ?_,
    fun propagating => absurd propagating (sweepStep_not_propagating sweeping success)⟩
  obtain ⟨-, -, ⟨-, -, next⟩ | ⟨sweepPtr, gcBox, cursorAt, found,
    ⟨white, -, unlinked, unlinking, -, next⟩ | ⟨-, -, next⟩⟩⟩ := sweepStep_eq_ok success
  · rw [next] at queued ⊢
    exact light address queued
  · -- freed: a queued box is light gray, so not the white box freed
    obtain ⟨-, -, -, -, gray, -, -, allocatedIff⟩ := unlink_frame unlinking
    rw [next] at queued ⊢
    obtain ⟨box, found₀, isLight⟩ := light address (gray ▸ queued)
    have other : address ≠ sweepPtr := fun same => by
      rw [same, found] at found₀
      cases found₀
      exact absurd (white.symm.trans isLight) (by decide)
    obtain ⟨box', found'⟩ := Option.ne_none_iff_exists'.mp
      ((allocatedIff address).mpr (by simp [Heap.Allocated, found₀]))
    obtain ⟨box₀, found₁, same⟩ := unlink_flags unlinking found'
    cases found₀.symm.trans found₁
    exact ⟨box', by simpa [other] using found', by rw [same]; exact isLight⟩
  · -- kept: the box at the cursor is no queued box
    have other : ∀ address ∈ arena.gray, address ≠ sweepPtr := fun address member same => by
      obtain ⟨box, found₀, isLight⟩ := light address member
      rw [same, found] at found₀
      cases found₀
      exact cursor sweepPtr gcBox cursorAt found isLight
    have kept : ∀ color, ∀ address ∈ arena.gray, ∃ box,
        (arena.heap.recolor sweepPtr color).boxes address = some box ∧
          box.flags.color = .lightGray := fun color address member => by
      rw [Heap.recolor_boxes, if_neg (other address member)]
      exact light address member
    dsimp only at next
    split at next <;> rw [next] at queued ⊢
    · change address ∈ arena.gray ++ [sweepPtr] at queued
      rcases List.mem_append.mp queued with old | new
      · exact kept _ address old
      · rw [List.mem_singleton.mp new]
        change ∃ box, (arena.heap.recolor sweepPtr .lightGray).boxes sweepPtr = some box ∧ _
        rw [Heap.recolor_boxes, if_pos rfl, found]
        exact ⟨_, rfl, by simp⟩
    · exact kept _ address queued

end Traceable

/-- Under `Tricolor`, a pass of `do_collection` keeps `Traceable`. -/
theorem Traceable.of_collectionStep {ghost : Ghost} (traceable : arena.Traceable)
    (tricolor : arena.Tricolor ghost) {workLeft : Budget} {blockedGrayCount : ℕ} {pass : Pass}
    (success : arena.collectionStep workLeft blockedGrayCount = .ok pass) :
    pass.arena.Traceable := by
  rcases collectionStep_eq_ok success with ⟨-, rfl⟩ | ⟨propagating, propagated⟩ | ⟨sweeping, swept⟩
  · exact traceable
  · exact traceable.of_propagate propagating propagated
  · refine traceable.of_sweepStep sweeping (fun sweepPtr gcBox cursorAt found isLight => ?_) swept
    rcases tricolor.cursor_colored sweeping cursorAt found with black | ⟨white, -⟩
    · exact absurd (isLight.symm.trans black) (by decide)
    · exact absurd (isLight.symm.trans white) (by decide)

/-- Propagation reads the box it pops and, when it traces it, the boxes its payload points at;
all of them lie below a queued box. -/
theorem propagate_ok (traceable : arena.Traceable) (propagating : arena.phase = .propagating)
    (workLeft : Budget) (blockedGrayCount : ℕ) :
    ∃ pass, arena.propagate workLeft blockedGrayCount = .ok pass := by
  cases popped : arena.propagate workLeft blockedGrayCount with
  | ok pass => exact ⟨pass, rfl⟩
  | error fault =>
  exfalso
  unfold propagate at popped
  split at popped
  · cases popped
  rename_i gcBoxPtr gray queue
  have intact := traceable.intact propagating gcBoxPtr (.inl (queue ▸ List.mem_cons_self _ _))
  rcases bind_eq_error.mp popped with got | ⟨gcBox, found, popped⟩
  · exact intact _ .refl (Heap.get_error got).2
  rw [Heap.get_eq_ok] at found
  split at popped
  · rcases bind_eq_error.mp popped with traced | ⟨⟨traced, marked⟩, -, popped⟩
    · obtain ⟨child, member, -, gone⟩ := GcValue.trace_error traced
      exact intact child (.child .refl found member) gone
    · cases traced <;> cases popped
  · cases popped

/-- Under `Traceable`, on a list of the right shape, every pass of `do_collection` goes through. -/
theorem collectionStep_ok (traceable : arena.Traceable) {cells : List Ptr} {pending : ℕ}
    (shape : ListShape arena cells pending) (workLeft : Budget) (blockedGrayCount : ℕ) :
    ∃ pass, arena.collectionStep workLeft blockedGrayCount = .ok pass := by
  cases phase : arena.phase with
  | sleeping =>
    unfold collectionStep
    rw [phase]
    exact ⟨_, rfl⟩
  | propagating =>
    rw [collectionStep_of_propagating phase]
    exact propagate_ok traceable phase _ _
  | sweeping => exact shape.sweepStep_ok phase workLeft blockedGrayCount

end GcArena

namespace World

variable {world next : World} {ghost : Ghost}

/-- Leaving the loop of `do_collection`: the lines after it, and the box an `allocate` links. -/
theorem leaveCollection_traceable {caller : Caller} {arena : GcArena} {work workLeft : Budget}
    (traceable : arena.Traceable) (unused : arena.heap.boxes arena.heap.fresh = none) :
    (world.leaveCollection caller arena work workLeft).arena.Traceable := by
  obtain ⟨debt, finished⟩ := arena.finishCollection_eq work workLeft
  have left : (arena.finishCollection work workLeft).Traceable := by
    rw [finished]
    exact traceable.congr rfl rfl rfl
  cases caller with
  | collectGarbage => exact left
  | allocate request => exact left.of_allocateFinish (by simpa using unused) request

/-- Every step of a live arena that keeps the contract keeps `Traceable`. -/
theorem Step.traceable {event : Event} (invariant : world.Invariant) (alive : world.dropped = false)
    (settled : world.arena.ColorsSettled) (tricolor : world.arena.Tricolor ghost)
    (traceable : world.arena.Traceable) (allows : world.Allows ghost event)
    (step : world.Step event next) (stillAlive : next.dropped = false) : next.arena.Traceable := by
  obtain ⟨cells, live⟩ := invariant.live alive
  have unchanged : ∀ {gcBox gcBox' : GcBox}, gcBox'.value = gcBox.value →
      ∀ child ∈ gcBox'.value.children, child ∉ gcBox.value.children → world.arena.heap.Intact child :=
    fun same _ member old => absurd (same ▸ member) old
  cases event with
  | allocate request =>
    obtain ⟨-, -, outcome⟩ := Step.allocate_eq step
    obtain ⟨phase, debt, timer, started, woken⟩ := world.arena.allocateStart_eq request.size
    have startedTraceable : (world.arena.allocateStart request.size).1.Traceable := by
      rw [started]
      exact traceable.of_wake tricolor.lightPinned tricolor.allocated settled rfl rfl woken
    rcases outcome with ⟨-, rfl⟩ | ⟨work, -, rfl⟩
    · exact startedTraceable.of_allocateFinish (by simpa using live.shape.unused _ le_rfl) request
    · exact startedTraceable
  | root gc =>
    obtain ⟨-, -, arena, success, rfl⟩ := Step.root_eq step
    exact traceable.of_root (Storable.inUse allows) tricolor.allocated success
  | writeBarrier gc =>
    obtain ⟨-, -, arena, success, rfl⟩ := Step.writeBarrier_eq step
    exact traceable.of_writeBarrier success
  | collectGarbage =>
    obtain ⟨-, -, rfl⟩ := Step.collectGarbage_eq step
    obtain ⟨phase, started, woken⟩ := world.arena.startCycle_eq
    rw [started]
    exact traceable.of_wake tricolor.lightPinned tricolor.allocated settled rfl rfl woken
  | cloneRgc gc =>
    obtain ⟨-, -, heap, success, rfl⟩ := Step.cloneRgc_eq step
    obtain ⟨gcBox, found, -, rfl⟩ := Rgc.clone_eq_ok success
    exact traceable.of_set found rfl fun _ => unchanged rfl
  | dropRgc gc =>
    obtain ⟨-, -, heap, success, rfl⟩ := Step.dropRgc_eq step
    obtain ⟨gcBox, found, released⟩ := Rgc.drop_eq_ok success
    simp only [live.attached gc gcBox found, Bool.false_eq_true, and_false, if_false] at released
    subst released
    exact traceable.of_set found rfl fun _ => unchanged rfl
  | mutate gc value =>
    obtain ⟨-, gcBox, found, rfl⟩ := Step.mutate_eq step
    exact traceable.of_set found rfl fun _ child member old =>
      .of_inUse tricolor.allocated ((allows gcBox found child member).resolve_left old).inUse
  | dropArena =>
    obtain ⟨-, -, rfl⟩ := Step.dropArena_eq step
    cases stillAlive
  | resume =>
    rcases Step.resume_eq step with
      ⟨caller, work, workLeft, blockedGrayCount, -, ⟨-, pass, success, rfl⟩ | ⟨-, rfl⟩⟩ |
      ⟨address, -, -, dropping, -, -⟩
    · have passed := traceable.of_collectionStep tricolor success
      split
      · obtain ⟨_, shape⟩ := live.shape.exists_of_collectionStep success
        exact leaveCollection_traceable passed (shape.unused _ le_rfl)
      · exact passed
    · exact leaveCollection_traceable traceable (live.shape.unused _ le_rfl)
    · exact absurd (invariant.dropped_of_dropping dropping) (by simp [alive])

end World

namespace ContractRun

variable {world next : World} {ghost : Ghost}

/-- In every world of a run that keeps the contract, while the arena lives, `Traceable` holds. -/
theorem traceable (run : ContractRun world ghost) (alive : world.dropped = false) :
    world.arena.Traceable := by
  induction run with
  | initial parameters => exact .new parameters
  | @step world next ghost event run allows step ih =>
    have reachable := run.reachable
    cases dropped : world.dropped with
    | false =>
      exact step.traceable reachable.invariant dropped (reachable.colorsSettled dropped)
        (run.tricolor dropped) (ih dropped) allows alive
    | true => exact absurd (step.phase_of_dropped reachable.invariant dropped).1 (by simp [alive])

/-- Under the contract, while the arena lives, a call in progress always takes its next pass: no
pass of `do_collection` reads a freed box. -/
theorem resume_ok (run : ContractRun world ghost) (alive : world.dropped = false)
    (busy : world.control ≠ .idle) : ∃ next, world.Step .resume next := by
  obtain ⟨cells, live⟩ := run.reachable.invariant.live alive
  cases control : world.control with
  | idle => exact absurd control busy
  | collecting caller work workLeft blockedGrayCount =>
    exact World.exists_resume control
      (GcArena.collectionStep_ok (run.traceable alive) live.shape workLeft blockedGrayCount)
  | dropping address =>
    exact absurd (run.reachable.invariant.dropped_of_dropping control) (by simp [alive])

/-- A run that keeps the contract: a pinned box of 4000 bytes, then an allocation of 100 bytes
pointing at it, which wakes the collector and starts a slice. Two passes later the slice has run
out of budget on its first pop and returns, the collector still awake. -/
private def awakeRun : List Event :=
  [.allocate ⟨4000, by decide, true, {}⟩, .root 0, .allocate ⟨100, by decide, true, ⟨[0], false⟩⟩]

theorem resume_ok_slice :
    ∃ world ghost, ContractRun world ghost ∧ world.dropped = false ∧ world.control ≠ .idle ∧
      world.arena.phase = .propagating ∧ world.arena.gray = [0] ∧ ∃ next, world.Step .resume next := by
  obtain ⟨world, ghost, run, alive, busy, propagating, queued⟩ :
      ∃ world ghost, ContractRun world ghost ∧ world.dropped = false ∧ world.control ≠ .idle ∧
        world.arena.phase = .propagating ∧ world.arena.gray = [0] :=
    @ContractRun.exists_of_contractSatisfies _ _ awakeRun (fun world ghost => _) _ (.initial .default)
      (by with_unfolding_all decide)
  exact ⟨world, ghost, run, alive, busy, propagating, queued, resume_ok run alive busy⟩

/-- A pass keeps what the contract asks of the next one: nothing is owed, and the box a pending
`allocate` links points only at boxes reachable from a pinned box. -/
theorem allows_resume (run : ContractRun world ghost) (alive : world.dropped = false)
    (allows : world.Allows ghost .resume) (step : world.Step .resume next) :
    next.Allows (ghost.after world .resume) .resume := by
  obtain ⟨paid, children⟩ := allows
  obtain ⟨cells, live⟩ := run.reachable.invariant.live alive
  refine ⟨paid, fun request work workLeft blockedGrayCount collecting child member => ?_⟩
  rcases World.Step.resume_eq step with
    ⟨caller, work', workLeft', blockedGrayCount', collecting', ⟨-, pass, success, rfl⟩ | ⟨-, rfl⟩⟩ |
      ⟨address, -, -, dropping, -, -⟩
  · by_cases stop : pass.stop = true
    · simp [stop] at collecting
    · simp only [stop, Bool.false_eq_true, ite_false] at collecting ⊢
      obtain ⟨rfl, rfl, rfl, rfl⟩ := Control.collecting.inj collecting
      exact (children _ _ _ _ collecting' child member).of_kept
        fun address gcBox reaches found => (run.tricolor alive).kept_of_collectionStep live.shape
          success (reaches.inUse _) found
  · simp at collecting
  · exact absurd (run.reachable.invariant.dropped_of_dropping dropping) (by simp [alive])

/-- Under the contract, a call resumed pass by pass never faults. -/
theorem settle_ok (run : ContractRun world ghost) (alive : world.dropped = false)
    (allows : world.Allows ghost .resume) (fuel : ℕ) (fault : Fault) :
    world.settle fuel ≠ some (.error fault) := by
  induction fuel generalizing world ghost with
  | zero =>
    simp only [World.settle]
    split <;> simp
  | succ fuel ih =>
    by_cases idle : world.control = .idle
    · simp [World.settle_idle idle]
    obtain ⟨next, step⟩ := run.resume_ok alive idle
    rw [World.settle_succ idle step]
    exact ih (run.step allows step) (step.resume_dropped.trans alive)
      (run.allows_resume alive allows step)

/-- Under the contract, `collect_garbage` called between the calls of a live run never faults. -/
theorem collectGarbage_ok (run : ContractRun world ghost) (idle : world.control = .idle)
    (alive : world.dropped = false) (paid : ghost.owed = []) (fuel : ℕ) (fault : Fault) :
    world.arena.collectGarbage fuel ≠ some (.error fault) := fun failed => by
  obtain ⟨next, step⟩ := World.exists_call idle alive (.inl rfl)
  have settled := World.collectGarbage_settle step fuel
  rw [failed] at settled
  obtain ⟨-, -, rfl⟩ := World.Step.collectGarbage_eq step
  exact (run.step (show world.Allows ghost .collectGarbage from trivial) step).settle_ok alive
    ⟨paid, fun _ _ _ _ collecting => nomatch collecting⟩ fuel fault settled

/-- Under the contract, `allocate` called between the calls of a live run, for a box that points
only at boxes reachable from a pinned box, never faults. -/
theorem allocate_ok (run : ContractRun world ghost) (idle : world.control = .idle)
    (alive : world.dropped = false) (paid : ghost.owed = []) {request : Allocation}
    (children : ∀ child ∈ request.value.children, world.arena.heap.Reaches child) (fuel : ℕ)
    (fault : Fault) : world.arena.allocate fuel request ≠ some (.error fault) := fun failed => by
  obtain ⟨next, step⟩ := World.exists_call idle alive (.inr ⟨request, rfl⟩)
  have settled := World.allocate_settle step fuel
  rw [failed] at settled
  have running := run.step (show world.Allows ghost (.allocate request) from
    fun child member => Or.inl (children child member)) step
  obtain ⟨-, -, ⟨-, linked⟩ | ⟨work, -, rfl⟩⟩ := World.Step.allocate_eq step
  · have done : next.control = .idle := by rw [linked]; exact idle
    simp [World.settle_idle done, Except.map] at settled
  · refine running.settle_ok alive ⟨paid, fun _ _ _ _ collecting child member => ?_⟩ fuel fault
      settled
    cases collecting
    simpa using children child member

end ContractRun

/-- A call that returns under some fuel and never faults returns a value. -/
theorem exists_ok_of_isSome {α : Type} {outcome : Option (Except Fault α)}
    (returned : outcome.isSome) (safe : ∀ fault, outcome ≠ some (.error fault)) :
    ∃ value, outcome = some (.ok value) := by
  match outcome, returned with
  | some (.ok value), _ => exact ⟨value, rfl⟩
  | some (.error fault), _ => exact absurd rfl (safe fault)

section Returns

variable {world : World} {ghost : Ghost}

/-- Under the contract, with no trace blocked, `collect_garbage` called between the calls of a
live run returns an arena, asleep: enough passes of its loop suffice, and none faults. -/
theorem collectGarbage_returns (run : ContractRun world ghost) (idle : world.control = .idle)
    (alive : world.dropped = false) (paid : ghost.owed = [])
    (unblocked : world.arena.heap.Every fun gcBox => gcBox.value.traceBlocked = false) :
    ∃ fuel arena, world.arena.collectGarbage fuel = some (.ok arena) ∧ arena.phase = .sleeping := by
  obtain ⟨fuel, returned, asleep⟩ := collectGarbage_terminates run.reachable alive unblocked
  obtain ⟨arena, returned⟩ := exists_ok_of_isSome returned (run.collectGarbage_ok idle alive paid fuel)
  exact ⟨fuel, arena, returned, asleep arena returned⟩

/-- The world the slice of `awakeRun` returns to: idle, nothing owed, the collector propagating
with a black pinned box and an unpinned box pointing at it. -/
private theorem exists_awake :
    ∃ world ghost, ContractRun world ghost ∧ world.control = .idle ∧ world.dropped = false ∧
      ghost.owed = [] ∧ world.arena.phase = .propagating ∧ world.pinnedBy 0 = true ∧
      (world.arena.heap.Every fun gcBox => gcBox.value.traceBlocked = false) := by
  obtain ⟨world, ghost, run, idle, alive, paid, propagating, pinned, below⟩ :
      ∃ world ghost, ContractRun world ghost ∧ world.control = .idle ∧ world.dropped = false ∧
        ghost.owed = [] ∧ world.arena.phase = .propagating ∧ world.pinnedBy 0 = true ∧
        ∀ address < world.arena.heap.fresh, ∀ gcBox ∈ world.arena.heap.boxes address,
          gcBox.value.traceBlocked = false :=
    @ContractRun.exists_of_contractSatisfies _ _ (ContractRun.awakeRun ++ [.resume, .resume])
      (fun world ghost => _) _ (.initial .default) (by with_unfolding_all decide)
  exact ⟨world, ghost, run, idle, alive, paid, propagating, pinned,
    run.reachable.every_of_below alive below⟩

theorem collectGarbage_returns_awake :
    ∃ world ghost, ContractRun world ghost ∧ world.control = .idle ∧ world.dropped = false ∧
      ghost.owed = [] ∧ world.arena.phase = .propagating ∧
      (world.arena.heap.Every fun gcBox => gcBox.value.traceBlocked = false) ∧
      ∃ fuel arena, world.arena.collectGarbage fuel = some (.ok arena) ∧ arena.phase = .sleeping := by
  obtain ⟨world, ghost, run, idle, alive, paid, propagating, -, unblocked⟩ := exists_awake
  exact ⟨world, ghost, run, idle, alive, paid, propagating, unblocked,
    collectGarbage_returns run idle alive paid unblocked⟩

/-- Under the contract, with no trace blocked, `allocate` called between the calls of a live run,
for a box that points only at boxes reachable from a pinned box, returns the arena and the new
box, whether or not it runs a slice of collection. -/
theorem allocate_returns (run : ContractRun world ghost) (idle : world.control = .idle)
    (alive : world.dropped = false) (paid : ghost.owed = [])
    (unblocked : world.arena.heap.Every fun gcBox => gcBox.value.traceBlocked = false)
    {request : Allocation}
    (children : ∀ child ∈ request.value.children, world.arena.heap.Reaches child) :
    ∃ fuel arena gc, world.arena.allocate fuel request = some (.ok (arena, gc)) := by
  obtain ⟨fuel, returned⟩ := allocate_terminates run.reachable alive unblocked request
  obtain ⟨⟨arena, gc⟩, returned⟩ :=
    exists_ok_of_isSome returned (run.allocate_ok idle alive paid children fuel)
  exact ⟨fuel, arena, gc, returned⟩

theorem allocate_returns_awake :
    ∃ world ghost, ContractRun world ghost ∧ world.control = .idle ∧ world.dropped = false ∧
      ghost.owed = [] ∧ world.arena.phase = .propagating ∧
      (world.arena.heap.Every fun gcBox => gcBox.value.traceBlocked = false) ∧
      world.arena.heap.Reaches 0 ∧ ∃ fuel arena gc,
        world.arena.allocate fuel ⟨32, by decide, true, ⟨[0], false⟩⟩ = some (.ok (arena, gc)) := by
  obtain ⟨world, ghost, run, idle, alive, paid, propagating, pinned, unblocked⟩ := exists_awake
  have reaches := World.reaches_of_pinnedBy pinned
  exact ⟨world, ghost, run, idle, alive, paid, propagating, unblocked, reaches,
    allocate_returns run idle alive paid unblocked fun child member =>
      List.mem_singleton.mp member ▸ reaches⟩

end Returns

end LusterGc
