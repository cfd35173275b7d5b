import LusterGc.Soundness.Contract
import LusterGc.Soundness.Colors

/-! # The tri-colour invariant across a pass

The argument behind `do_collection`, for a host that keeps the contract. Every gray box waits
in the gray queue, and every light gray box is pinned, so the propagation arm never skips a box
it should trace. While propagating, no black box in use points at a white box, unless it still
owes a `write_barrier`. Once the queue is empty every box in use is black, so the boxes the sweep
has still to visit are black, or white and out of use; the sweep frees only those. Every box in
use is allocated.

`Tricolor` collects these facts. This module proves that a pass of `do_collection` keeps them
when no barrier is owed; the events of the host are in `Safety`.
-/

namespace LusterGc

namespace Heap

/-- Every light gray box is pinned. -/
def LightPinned (heap : Heap) : Prop :=
  heap.Every fun gcBox => gcBox.flags.color = .lightGray → gcBox.rootCount.count ≠ 0

/-- No black box in use that owes no barrier points at a white box. -/
def BlackClosed (heap : Heap) (ghost : Ghost) : Prop :=
  ∀ parent gcBox, heap.InUse ghost.since parent → heap.boxes parent = some gcBox →
    gcBox.flags.color = .black → parent ∉ ghost.owed → ∀ address ∈ gcBox.value.children,
      ∀ child, heap.boxes address = some child → child.flags.color ≠ .white

/-- Every box the sweep has still to visit was allocated before `since`, and is black, or white
and out of use. -/
def Unswept (heap : Heap) (since : ℕ) (rest : List Ptr) : Prop :=
  ∀ address ∈ rest, address < since ∧ ∀ gcBox, heap.boxes address = some gcBox →
    gcBox.flags.color = .black ∨ gcBox.flags.color = .white ∧ ¬heap.InUse since address

variable {heap heap' : Heap} {ghost : Ghost} {since since' : ℕ}

/-- On the same memory, a later `since` takes boxes out of use only. -/
theorem BlackClosed.later (closed : heap.BlackClosed ghost) (later : ghost.since ≤ since') :
    heap.BlackClosed ⟨since', ghost.owed⟩ := fun parent gcBox inUse =>
  closed parent gcBox ((Prunes.refl heap).inUse later inUse)

theorem Unswept.later {rest : List Ptr} (unswept : heap.Unswept since rest) (later : since ≤ since') :
    heap.Unswept since' rest := by
  intro address member
  obtain ⟨below, colored⟩ := unswept address member
  refine ⟨lt_of_lt_of_le below later, fun gcBox found => (colored gcBox found).imp_right ?_⟩
  exact And.imp_right fun unused inUse => unused ((Prunes.refl heap).inUse later inUse)

/-- Every box of `heap'` is a box of `heap` with the same flags and pins: what freeing a box,
relinking one or rewriting a payload does. -/
def KeepsMarks (heap heap' : Heap) : Prop :=
  ∀ address gcBox', heap'.boxes address = some gcBox' → ∃ gcBox,
    heap.boxes address = some gcBox ∧ gcBox'.flags = gcBox.flags ∧ gcBox'.rootCount = gcBox.rootCount

namespace KeepsMarks

theorem refl (heap : Heap) : heap.KeepsMarks heap :=
  fun _ gcBox found => ⟨gcBox, found, rfl, rfl⟩

theorem trans {heap'' : Heap} (first : heap.KeepsMarks heap') (second : heap'.KeepsMarks heap'') :
    heap.KeepsMarks heap'' := by
  intro address gcBox'' found
  obtain ⟨gcBox', found', flags', count'⟩ := second address gcBox'' found
  obtain ⟨gcBox, found, flags, count⟩ := first address gcBox' found'
  exact ⟨gcBox, found, flags'.trans flags, count'.trans count⟩

theorem set {address : Ptr} {gcBox gcBox' : GcBox} (found : heap.boxes address = some gcBox)
    (flags : gcBox'.flags = gcBox.flags) (count : gcBox'.rootCount = gcBox.rootCount) :
    heap.KeepsMarks (heap.set address gcBox') := by
  intro query box found'
  by_cases here : query = address
  · subst here
    simp only [set_boxes, ite_true, Option.some.injEq] at found'
    exact ⟨gcBox, found, found' ▸ flags, found' ▸ count⟩
  · exact ⟨box, by simpa [here] using found', rfl, rfl⟩

theorem erase (address : Ptr) : heap.KeepsMarks (heap.erase address) := by
  intro query box found
  by_cases here : query = address
  · simp [here] at found
  · exact ⟨box, by simpa [here] using found, rfl, rfl⟩

end KeepsMarks

theorem LightPinned.of_keepsMarks (pinned : heap.LightPinned) (keeps : heap.KeepsMarks heap') :
    heap'.LightPinned := by
  intro address gcBox' found light
  obtain ⟨gcBox, found, flags, count⟩ := keeps address gcBox' found
  rw [count]
  exact pinned address gcBox found (flags ▸ light)

/-- Recolouring a box keeps light gray boxes pinned when it turns light gray only a pinned box. -/
theorem LightPinned.recolor (pinned : heap.LightPinned) {address : Ptr} {color : GcColor}
    (light : ∀ gcBox, heap.boxes address = some gcBox → color = .lightGray →
      gcBox.rootCount.count ≠ 0) : (heap.recolor address color).LightPinned := by
  intro query gcBox' found isLight
  rw [recolor_boxes] at found
  split at found
  · subst query
    obtain ⟨gcBox, present, rfl⟩ := Option.map_eq_some'.mp found
    exact light gcBox present (by simpa using isLight)
  · exact pinned query gcBox' found isLight

end Heap

namespace GcArena

variable {arena middle next : GcArena} {ghost : Ghost} {since since' : ℕ}

/-- Every gray box is in the gray queue. -/
def GrayQueued (arena : GcArena) : Prop :=
  ∀ address gcBox, arena.heap.boxes address = some gcBox →
    gcBox.flags.color = .lightGray ∨ gcBox.flags.color = .darkGray → address ∈ arena.gray

theorem GrayQueued.of_keepsMarks (queued : arena.GrayQueued) (keeps : arena.heap.KeepsMarks next.heap)
    (grows : arena.gray ⊆ next.gray) : next.GrayQueued := by
  intro address gcBox' found isGray
  obtain ⟨gcBox, found, flags, -⟩ := keeps address gcBox' found
  exact grows (queued address gcBox found (flags ▸ isGray))

/-- Recolouring a box keeps gray boxes queued when a box it turns gray joins the queue. -/
theorem GrayQueued.recolor (queued : arena.GrayQueued) {address : Ptr} {color : GcColor}
    {gray : List Ptr} (grows : arena.gray ⊆ gray)
    (waiting : color = .lightGray ∨ color = .darkGray → address ∈ gray) :
    { arena.recolor address color with gray }.GrayQueued := by
  intro query gcBox' found isGray
  change (arena.heap.recolor address color).boxes query = some gcBox' at found
  rw [Heap.recolor_boxes] at found
  split at found
  · subst query
    obtain ⟨gcBox, -, rfl⟩ := Option.map_eq_some'.mp found
    exact waiting (by simpa using isGray)
  · exact grows (queued query gcBox' found isGray)

/-- With an empty queue, a box that is not white is black. -/
theorem GrayQueued.black_of_drained (queued : arena.GrayQueued) (empty : arena.gray = [])
    {address : Ptr} {gcBox : GcBox} (found : arena.heap.boxes address = some gcBox)
    (marked : gcBox.flags.color ≠ .white) : gcBox.flags.color = .black := by
  have waiting := queued address gcBox found
  rw [empty] at waiting
  cases color : gcBox.flags.color <;> simp_all

/-- `next` is `arena` after tracing: it is marked, the queue only grows, and a box changes
colour only from white or light gray to dark gray, joining the queue when it was white. -/
structure Darkens (arena next : GcArena) : Prop where
  marks : arena.Marks next
  grows : arena.gray ⊆ next.gray
  colors : ∀ address gcBox', next.heap.boxes address = some gcBox' → ∃ gcBox,
    arena.heap.boxes address = some gcBox ∧ (gcBox'.flags.color = gcBox.flags.color ∨
      gcBox'.flags.color = .darkGray ∧
        (gcBox.flags.color = .lightGray ∨ gcBox.flags.color = .white ∧ address ∈ next.gray))

namespace Darkens

theorem refl (arena : GcArena) : arena.Darkens arena :=
  ⟨.refl _, List.Subset.refl _, fun _ gcBox found => ⟨gcBox, found, .inl rfl⟩⟩

theorem trans (first : arena.Darkens middle) (second : middle.Darkens next) : arena.Darkens next := by
  refine ⟨first.marks.trans second.marks, first.grows.trans second.grows,
    fun address gcBox'' found => ?_⟩
  obtain ⟨gcBox', found', step'⟩ := second.colors address gcBox'' found
  obtain ⟨gcBox, found, step⟩ := first.colors address gcBox' found'
  refine ⟨gcBox, found, ?_⟩
  rcases step with same | ⟨dark, earlier⟩
  · rcases step' with same' | ⟨dark', later⟩
    · exact .inl (same'.trans same)
    · exact .inr ⟨dark', same ▸ later⟩
  · have earlier := earlier.imp_right (And.imp_right fun queued => second.grows queued)
    rcases step' with same' | ⟨dark', -⟩
    · exact .inr ⟨same'.trans dark, earlier⟩
    · exact .inr ⟨dark', earlier⟩

/-- Turning a light gray box, or a white one that joins the queue, dark gray. -/
theorem recolor {gc : Ptr} {gcBox : GcBox} (found : arena.heap.boxes gc = some gcBox)
    {gray : List Ptr} (grows : arena.gray ⊆ gray)
    (waiting : gcBox.flags.color = .lightGray ∨ gcBox.flags.color = .white ∧ gc ∈ gray) :
    arena.Darkens { arena.recolor gc .darkGray with gray } := by
  refine ⟨(arena.marks_recolor gc (by decide)).with_gray gray, grows, fun address gcBox' found' => ?_⟩
  change (arena.heap.recolor gc .darkGray).boxes address = some gcBox' at found'
  rw [Heap.recolor_boxes] at found'
  split at found'
  · subst address
    rw [found] at found'
    cases found'
    exact ⟨gcBox, found, .inr ⟨GcFlags.color_setColor _ _, waiting⟩⟩
  · exact ⟨gcBox', found', .inl rfl⟩

/-- A box that is not white stays allocated and not white. -/
theorem not_white (darkens : arena.Darkens next) {address : Ptr} {gcBox : GcBox}
    (found : arena.heap.boxes address = some gcBox) (marked : gcBox.flags.color ≠ .white) :
    ∃ gcBox', next.heap.boxes address = some gcBox' ∧ gcBox'.flags.color ≠ .white := by
  have present : next.heap.Allocated address :=
    darkens.marks.shades.allocated_iff.mpr (by simp [Heap.Allocated, found])
  obtain ⟨gcBox', found'⟩ := Option.ne_none_iff_exists'.mp present
  refine ⟨gcBox', found', fun white => marked ?_⟩
  obtain ⟨gcBox₀, found₀, white₀⟩ := darkens.marks.shades.white address gcBox' found' white
  cases found.symm.trans found₀
  exact white₀

end Darkens

end GcArena

/-- One call of the tracer darkens the arena and leaves the pointer it traced not white. -/
theorem GcTracer.trace_darkens {arena next : GcArena} {gc : Ptr}
    (success : GcTracer.trace arena gc = .ok next) :
    arena.Darkens next ∧ ∃ gcBox, next.heap.boxes gc = some gcBox ∧ gcBox.flags.color ≠ .white := by
  obtain ⟨gcBox, found, success⟩ := bind_eq_ok.mp success
  rw [Heap.get_eq_ok] at found
  have darkened : ∀ gray : List Ptr, ∃ gcBox', ({ arena.recolor gc .darkGray with gray } :
      GcArena).heap.boxes gc = some gcBox' ∧ gcBox'.flags.color ≠ .white := fun _ =>
    ⟨{ gcBox with flags := gcBox.flags.setColor .darkGray },
      by simp [GcArena.recolor, Heap.recolor_boxes, found], by simp⟩
  revert success
  cases color : gcBox.flags.color <;> simp only [GcFlags.needsTrace_eq_true, ite_true] <;>
    intro success <;> cases success
  · exact ⟨.recolor found (List.subset_cons_self _ _) (.inr ⟨color, List.mem_cons_self _ _⟩),
      darkened _⟩
  · exact ⟨.recolor found (List.Subset.refl _) (.inl color), darkened _⟩
  · exact ⟨.refl _, gcBox, found, by simp [color]⟩
  · exact ⟨.refl _, gcBox, found, by simp [color]⟩

/-- Tracing a payload's pointers darkens the arena and leaves every one of them not white. -/
theorem GcTracer.foldlM_trace_darkens {children : List Ptr} {arena next : GcArena}
    (folded : children.foldlM GcTracer.trace arena = .ok next) :
    arena.Darkens next ∧ ∀ child ∈ children, ∃ gcBox, next.heap.boxes child = some gcBox ∧
      gcBox.flags.color ≠ .white := by
  induction children generalizing arena with
  | nil =>
    cases folded
    exact ⟨.refl _, fun _ member => absurd member (List.not_mem_nil _)⟩
  | cons child rest ih =>
    rw [List.foldlM_cons] at folded
    obtain ⟨middle, first, folded⟩ := bind_eq_ok.mp folded
    obtain ⟨darkens, gcBox, found, marked⟩ := GcTracer.trace_darkens first
    obtain ⟨darkens', traced⟩ := ih folded
    refine ⟨darkens.trans darkens', fun address member => ?_⟩
    rcases List.mem_cons.mp member with rfl | later
    · exact darkens'.not_white found marked
    · exact traced address later

namespace GcArena

variable {arena : GcArena} {since since' : ℕ}

/-- A pop of the gray queue: a dark gray or pinned box is traced and turns black, or, while its
trace is blocked, goes to the back of the queue; any other box just leaves the queue. -/
theorem propagate_pop {workLeft : Budget} {blockedGrayCount : ℕ} {pass : Pass}
    (success : arena.propagate workLeft blockedGrayCount = .ok pass) {gcBoxPtr : Ptr}
    {gray : List Ptr} (queue : arena.gray = gcBoxPtr :: gray) :
    ∃ gcBox, arena.heap.boxes gcBoxPtr = some gcBox ∧
      ((gcBox.flags.color = .darkGray ∨ gcBox.rootCount.count ≠ 0) ∧
        ((∃ marked, gcBox.value.children.foldlM GcTracer.trace { arena with gray } = .ok marked ∧
            pass.arena = marked.recolor gcBoxPtr .black) ∨
          pass.arena = { arena with gray := gray ++ [gcBoxPtr] }) ∨
        ¬(gcBox.flags.color = .darkGray ∨ gcBox.rootCount.count ≠ 0) ∧
          pass.arena = { arena with gray }) := by
  unfold propagate at success
  rw [queue] at success
  obtain ⟨gcBox, found, success⟩ := bind_eq_ok.mp success
  refine ⟨gcBox, Heap.get_eq_ok.mp found, ?_⟩
  split at success
  · rename_i traceable
    refine .inl ⟨by simpa using traceable, ?_⟩
    obtain ⟨⟨traced, marked⟩, trace, success⟩ := bind_eq_ok.mp success
    unfold GcValue.trace at trace
    split at trace
    · cases trace
      cases success
      exact .inr rfl
    · obtain ⟨folded, foldedOk, trace⟩ := bind_eq_ok.mp trace
      cases trace
      cases success
      exact .inl ⟨_, foldedOk, rfl⟩
  · rename_i skipped
    cases success
    exact .inr ⟨by simpa using skipped, rfl⟩

/-- A pop of the gray queue keeps every gray box queued, every light gray box pinned and, with no
barrier owed, every black box in use off white boxes. -/
theorem propagate_pop_keeps (queued : arena.GrayQueued) (pinned : arena.heap.LightPinned)
    (closed : arena.heap.BlackClosed ⟨since, []⟩) (later : since ≤ since')
    {workLeft : Budget} {blockedGrayCount : ℕ} {pass : Pass}
    (success : arena.propagate workLeft blockedGrayCount = .ok pass) {gcBoxPtr : Ptr}
    {gray : List Ptr} (queue : arena.gray = gcBoxPtr :: gray) :
    pass.arena.GrayQueued ∧ pass.arena.heap.LightPinned ∧
      pass.arena.heap.BlackClosed ⟨since', []⟩ := by
  have waiting : ∀ address gcBox, arena.heap.boxes address = some gcBox →
      gcBox.flags.color = .lightGray ∨ gcBox.flags.color = .darkGray →
      address = gcBoxPtr ∨ address ∈ gray := fun address gcBox found gray' => by
    simpa [queue] using queued address gcBox found gray'
  obtain ⟨gcBox, found, ⟨traceable, ⟨marked, folded, next⟩ | next⟩ | ⟨skipped, next⟩⟩ :=
    propagate_pop success queue
  · -- traced: every pointer is now not white and the box turns black
    obtain ⟨darkens, traced⟩ := GcTracer.foldlM_trace_darkens folded
    have boxes : ∀ address, pass.arena.heap.boxes address = if address = gcBoxPtr then
        (marked.heap.boxes gcBoxPtr).map fun gcBox =>
          { gcBox with flags := gcBox.flags.setColor .black }
        else marked.heap.boxes address := by
      intro address
      rw [next]
      exact Heap.recolor_boxes _ _ _ _
    have unchanged : ∀ {address gcBox'}, address ≠ gcBoxPtr →
        pass.arena.heap.boxes address = some gcBox' → marked.heap.boxes address = some gcBox' :=
      fun other found' => by rwa [boxes, if_neg other] at found'
    have notBlack : ∀ {address gcBox'}, pass.arena.heap.boxes address = some gcBox' →
        gcBox'.flags.color ≠ .black → address ≠ gcBoxPtr := fun found' other same => by
      subst same
      rw [boxes, if_pos rfl] at found'
      obtain ⟨_, -, rfl⟩ := Option.map_eq_some'.mp found'
      exact other (GcFlags.color_setColor _ _)
    refine ⟨fun address gcBox' found' isGray => ?_, fun address gcBox' found' light => ?_, ?_⟩
    · have other := notBlack found' (by rcases isGray with c | c <;> rw [c] <;> decide)
      obtain ⟨gcBox₀, found₀, step⟩ := darkens.colors address gcBox' (unchanged other found')
      rw [next]
      rcases step with same | ⟨-, light | ⟨-, queuedNow⟩⟩
      · exact darkens.grows (((waiting address gcBox₀ found₀ (same ▸ isGray)).resolve_left other))
      · exact darkens.grows ((waiting address gcBox₀ found₀ (.inl light)).resolve_left other)
      · exact queuedNow
    · have other := notBlack found' (by rw [light]; decide)
      obtain ⟨gcBox₀, found₀, step⟩ := darkens.colors address gcBox' (unchanged other found')
      obtain ⟨gcBox₁, found₁, -, count⟩ :=
        Heap.Prunes.of_shades darkens.marks.shades address gcBox' (unchanged other found')
      cases found₀.symm.trans found₁
      rw [count]
      rcases step with same | ⟨dark, -⟩
      · exact pinned address gcBox₀ found₀ (same ▸ light)
      · exact absurd (light.symm.trans dark) (by decide)
    · intro parent gcBox' inUse found' black _ address member child foundChild white
      -- every box of the pass is a box of `arena` with its payload, and whiter only if it was
      have prunes : arena.heap.Prunes pass.arena.heap :=
        (Heap.Prunes.of_shades darkens.marks.shades).trans (next ▸ Heap.Prunes.recolor _ _)
      have whiteBefore : ∀ {address child}, pass.arena.heap.boxes address = some child →
          child.flags.color = .white → ∃ gcBox, marked.heap.boxes address = some gcBox ∧
            gcBox.flags.color = .white := fun {address child} found white => by
        have other := notBlack found (by rw [white]; decide)
        exact ⟨child, unchanged other found, white⟩
      obtain ⟨childBefore, foundBefore, whiteMarked⟩ := whiteBefore foundChild white
      by_cases here : parent = gcBoxPtr
      · subst here
        rw [boxes, if_pos rfl] at found'
        obtain ⟨markedBox, foundMarked, rfl⟩ := Option.map_eq_some'.mp found'
        obtain ⟨gcBox₀, found₀, value, -⟩ :=
          Heap.Prunes.of_shades darkens.marks.shades _ markedBox foundMarked
        cases found.symm.trans found₀
        obtain ⟨childNow, foundNow, marked'⟩ := traced address (value ▸ member)
        cases foundBefore.symm.trans foundNow
        exact marked' whiteMarked
      · obtain ⟨gcBox₀, found₀, step⟩ := darkens.colors parent gcBox' (unchanged here found')
        have blackBefore : gcBox₀.flags.color = .black := by
          rcases step with same | ⟨dark, -⟩
          · exact same ▸ black
          · exact absurd (black.symm.trans dark) (by decide)
        obtain ⟨gcBox₁, found₁, value, -⟩ :=
          Heap.Prunes.of_shades darkens.marks.shades _ gcBox' (unchanged here found')
        cases found₀.symm.trans found₁
        obtain ⟨childOld, foundOld, whiteOld⟩ :=
          darkens.marks.shades.white address childBefore foundBefore whiteMarked
        exact closed parent gcBox₀ (prunes.inUse later inUse) found₀ blackBefore
          (List.not_mem_nil _) address (value ▸ member) childOld foundOld whiteOld
  · -- blocked: the box goes to the back of the queue
    rw [next]
    refine ⟨fun address gcBox' found' isGray => ?_, pinned, closed.later later⟩
    rcases waiting address gcBox' found' isGray with rfl | member
    · exact List.mem_append_right _ (List.mem_singleton_self _)
    · exact List.mem_append_left _ member
  · -- skipped: the box is neither dark gray nor pinned, so it is not gray
    rw [next]
    refine ⟨fun address gcBox' found' isGray => ?_, pinned, closed.later later⟩
    rcases waiting address gcBox' found' isGray with rfl | member
    · cases found.symm.trans found'
      rcases isGray with light | dark
      · exact absurd (.inr (pinned _ _ found light)) skipped
      · exact absurd (.inl dark) skipped
    · exact member

/-- Once the queue is empty, every box in use with no fresh box left is black: pinned boxes are
not white, black boxes point at boxes that are not white, and nothing is gray. -/
theorem black_of_drained (queued : arena.GrayQueued) (empty : arena.gray = [])
    (marked : RootsMarked arena.heap) (closed : arena.heap.BlackClosed ⟨since, []⟩)
    (allocated : ∀ address, arena.heap.InUse since address → arena.heap.Allocated address)
    (later : since ≤ since') (unused : ∀ address, since' ≤ address → arena.heap.boxes address = none)
    {address : Ptr} (inUse : arena.heap.InUse since' address) :
    ∃ gcBox, arena.heap.boxes address = some gcBox ∧ gcBox.flags.color = .black := by
  induction inUse with
  | pinned found count => exact ⟨_, found, queued.black_of_drained empty found (marked _ _ found count)⟩
  | fresh above present => exact absurd (unused _ above) present
  | child parentInUse found member ih =>
    obtain ⟨gcBox, found', black⟩ := ih
    cases found.symm.trans found'
    have inUse := (Heap.Prunes.refl _).inUse later (.child parentInUse found member)
    obtain ⟨child, foundChild⟩ := Option.ne_none_iff_exists'.mp (allocated _ inUse)
    exact ⟨child, foundChild, queued.black_of_drained empty foundChild
      (closed _ _ ((Heap.Prunes.refl _).inUse later parentInUse) found black
        (List.not_mem_nil _) _ member child foundChild)⟩

/-- `unlink` keeps every box's flags, payload and pins. -/
theorem unlink_keeps {link : Option Ptr} {unlinked : GcArena} (unlinking : arena.unlink link = .ok unlinked) :
    arena.heap.KeepsMarks unlinked.heap ∧ arena.heap.Prunes unlinked.heap := by
  rcases unlink_eq_ok unlinking with ⟨-, rfl⟩ | ⟨prev, prevBox, -, prevFound, rfl⟩
  · exact ⟨.refl _, .refl _⟩
  · exact ⟨.set prevFound rfl rfl, .set prevFound rfl rfl⟩

/-- What a host that keeps the contract can count on, with `ghost` the contract's bookkeeping:
gray boxes are queued and light gray ones pinned; while propagating, black boxes in use that
owe no barrier point at no white box; while sweeping, the rest of the list is black, or white
and out of use; and every box in use is allocated. -/
structure Tricolor (arena : GcArena) (ghost : Ghost) : Prop where
  queued : arena.GrayQueued
  lightPinned : arena.heap.LightPinned
  blackClosed : arena.phase = .propagating → arena.heap.BlackClosed ghost
  unswept : arena.phase = .sweeping →
    ∃ rest, Chain arena.heap arena.sweep rest none ∧ arena.heap.Unswept ghost.since rest
  allocated : ∀ address, arena.heap.InUse ghost.since address → arena.heap.Allocated address
  since_le : ghost.since ≤ arena.heap.fresh

namespace Tricolor

variable {owed : List Ptr}

/-- The box at the sweep cursor is black, or white and out of use. -/
theorem cursor_colored (tricolor : arena.Tricolor ⟨since, owed⟩) (sweeping : arena.phase = .sweeping)
    {sweepPtr : Ptr} (cursorAt : arena.sweep = some sweepPtr) {gcBox : GcBox}
    (found : arena.heap.boxes sweepPtr = some gcBox) :
    gcBox.flags.color = .black ∨ gcBox.flags.color = .white ∧ ¬arena.heap.InUse since sweepPtr := by
  obtain ⟨rest, chain, unswept⟩ := tricolor.unswept sweeping
  rw [cursorAt] at chain
  cases rest with
  | nil => exact absurd (Chain.nil_iff.mp chain) (by simp)
  | cons head tail =>
    cases (Chain.cons_iff.mp chain).1
    exact (unswept _ (List.mem_cons_self _ _)).2 gcBox found

/-- A pass of the collector ends the freshness of every box allocated so far. -/
theorem later (tricolor : arena.Tricolor ⟨since, owed⟩) (later : since ≤ since')
    (le : since' ≤ arena.heap.fresh) : arena.Tricolor ⟨since', owed⟩ where
  queued := tricolor.queued
  lightPinned := tricolor.lightPinned
  blackClosed propagating := (tricolor.blackClosed propagating).later later
  unswept sweeping := by
    obtain ⟨rest, chain, unswept⟩ := tricolor.unswept sweeping
    exact ⟨rest, chain, unswept.later later⟩
  allocated address inUse := tricolor.allocated address ((Heap.Prunes.refl _).inUse later inUse)
  since_le := le

variable {cells : List Ptr} {pending : ℕ} {workLeft : Budget} {blockedGrayCount : ℕ} {pass : Pass}

/-- A pass of propagation. The pass that finds the queue empty starts the sweep with every box
in use black: the rest of the list is black, or white and out of use. -/
theorem of_propagate (tricolor : arena.Tricolor ⟨since, []⟩) (shape : ListShape arena cells pending)
    (marked : RootsMarked arena.heap) (propagating : arena.phase = .propagating)
    (success : arena.propagate workLeft blockedGrayCount = .ok pass) :
    pass.arena.Tricolor ⟨arena.heap.fresh, []⟩ := by
  have closed := tricolor.blackClosed propagating
  rcases GcArena.propagate_eq_ok success with ⟨empty, next⟩ | marks
  · -- the sweep starts
    have black : ∀ {address}, arena.heap.InUse arena.heap.fresh address →
        ∃ gcBox, arena.heap.boxes address = some gcBox ∧ gcBox.flags.color = .black :=
      black_of_drained tricolor.queued empty marked closed tricolor.allocated tricolor.since_le
        shape.unused
    rw [next]
    refine ⟨tricolor.queued, tricolor.lightPinned, fun sweeping => (by cases sweeping),
      fun _ => ⟨cells, shape.chain, fun address member => ?_⟩, fun address inUse => ?_,
      le_rfl⟩
    · refine ⟨Nat.lt_of_not_le fun above => (shape.mem_iff address).mp member (shape.unused _ above),
        fun gcBox found => ?_⟩
      by_cases inUse : arena.heap.InUse arena.heap.fresh address
      · obtain ⟨gcBox', found', black⟩ := black inUse
        cases found.symm.trans found'
        exact .inl black
      · by_cases white : gcBox.flags.color = .white
        · exact .inr ⟨white, inUse⟩
        · exact .inl (tricolor.queued.black_of_drained empty found white)
    · obtain ⟨gcBox, found, -⟩ := black inUse
      simp [Heap.Allocated, found]
  · -- a pop of the queue
    cases queue : arena.gray with
    | nil =>
      rw [GcArena.propagate_start queue] at success
      cases success
      exact absurd marks.phase (by simp [propagating])
    | cons gcBoxPtr gray =>
      obtain ⟨queued, pinned, closed'⟩ :=
        propagate_pop_keeps tricolor.queued tricolor.lightPinned closed tricolor.since_le success queue
      have prunes : arena.heap.Prunes pass.arena.heap := .of_shades marks.shades
      refine ⟨queued, pinned, fun _ => closed', fun sweeping => ?_, fun address inUse => ?_, ?_⟩
      · exact absurd (marks.phase.symm.trans sweeping) (by rw [propagating]; decide)
      · exact marks.shades.allocated_iff.mpr
          (tricolor.allocated address (prunes.inUse tricolor.since_le inUse))
      · rw [marks.shades.fresh]

/-- A pass of the sweep. The box at the cursor is freed only when white, hence out of use; a box
it keeps leaves the rest light gray and queued, or white; the end of the list puts the
collector to sleep. -/
theorem of_sweepStep (tricolor : arena.Tricolor ⟨since, owed⟩) (shape : ListShape arena cells pending)
    (sweeping : arena.phase = .sweeping)
    (success : arena.sweepStep workLeft blockedGrayCount = .ok pass) :
    pass.arena.Tricolor ⟨arena.heap.fresh, owed⟩ := by
  obtain ⟨rest, chain, unswept⟩ := tricolor.unswept sweeping
  obtain ⟨nodup, prevOff⟩ := shape.rest_of_chain sweeping chain
  have later := tricolor.since_le
  obtain ⟨-, -, ⟨-, -, next⟩ | ⟨sweepPtr, gcBox, cursorAt, found, outcome⟩⟩ :=
    GcArena.sweepStep_eq_ok success
  · -- the end of the list: the collector falls asleep
    rw [next]
    exact ⟨tricolor.queued, tricolor.lightPinned, fun propagating => (by cases propagating),
      fun asleep => (by cases asleep),
      fun address inUse => tricolor.allocated address ((Heap.Prunes.refl _).inUse later inUse), le_rfl⟩
  rw [cursorAt] at chain
  cases rest with
  | nil => exact absurd (Chain.nil_iff.mp chain) (by simp)
  | cons head tail =>
  obtain ⟨same, gcBox', found', tail'⟩ := Chain.cons_iff.mp chain
  cases same
  cases found.symm.trans found'
  obtain ⟨visited, -⟩ := List.nodup_cons.mp nodup
  obtain ⟨-, colored⟩ := unswept sweepPtr (List.mem_cons_self _ _)
  have tailUnswept : arena.heap.Unswept since tail := fun address member =>
    unswept address (List.mem_cons_of_mem _ member)
  rcases outcome with ⟨white, -, unlinked, unlinking, -, next⟩ | ⟨marked, -, next⟩
  · -- freed: a white box on the rest is out of use
    have unused : ¬arena.heap.InUse since sweepPtr :=
      ((colored gcBox found).resolve_left (by rw [white]; decide)).2
    obtain ⟨sweepAt, -, -, phase, gray, fresh, -, allocatedKept⟩ := GcArena.unlink_frame unlinking
    obtain ⟨keeps, prunes⟩ := GcArena.unlink_keeps unlinking
    have agree := GcArena.unlink_erase_agree unlinking visited fun prev set member =>
      prevOff prev set (List.mem_cons_of_mem _ member)
    have prunes : arena.heap.Prunes (unlinked.heap.erase sweepPtr) := prunes.trans (.erase _)
    rw [next]
    refine ⟨tricolor.queued.of_keepsMarks (keeps.trans (.erase _))
        (by rw [gray]; exact List.Subset.refl _),
      tricolor.lightPinned.of_keepsMarks (keeps.trans (.erase _)),
      fun propagating => absurd (phase.symm.trans propagating) (by rw [sweeping]; decide),
      fun _ => ⟨tail, ?_, fun address member => ?_⟩, fun address inUse => ?_, by simp [fresh]⟩
    · show Chain _ unlinked.sweep tail none
      rw [sweepAt]
      exact tail'.of_agree agree
    · obtain ⟨below, colored⟩ := tailUnswept address member
      refine ⟨lt_of_lt_of_le below later, fun gcBox found => ?_⟩
      rw [agree address member] at found
      exact (colored gcBox found).imp_right
        (And.imp_right fun unused inUse => unused (prunes.inUse later inUse))
    · have kept := prunes.inUse later inUse
      exact (Heap.allocated_erase _ _ _).mpr ⟨fun same => unused (same ▸ kept),
        (allocatedKept address).mpr (tricolor.allocated address kept)⟩
  · -- kept: the box was black, and leaves the rest recoloured
    have unvisited : ∀ color, (arena.heap.recolor sweepPtr color).Unswept arena.heap.fresh tail := by
      intro color address member
      obtain ⟨below, colored⟩ := tailUnswept address member
      refine ⟨lt_of_lt_of_le below later, fun gcBox' found' => ?_⟩
      rw [Heap.recolor_boxes, if_neg fun (same : address = sweepPtr) => visited (same ▸ member)] at found'
      exact (colored gcBox' found').imp_right (And.imp_right fun unused inUse =>
        unused ((Heap.Prunes.recolor _ _).inUse later inUse))
    have allocated : ∀ color address,
        (arena.heap.recolor sweepPtr color).InUse arena.heap.fresh address →
        (arena.heap.recolor sweepPtr color).Allocated address := fun color address inUse => by
      rw [Heap.allocated_iff_layout, Heap.recolor_layout, ← Heap.allocated_iff_layout]
      exact tricolor.allocated address ((Heap.Prunes.recolor _ _).inUse later inUse)
    have chain : ∀ color, Chain (arena.heap.recolor sweepPtr color) gcBox.next tail none :=
      fun color => tail'.of_layout (arena.heap.recolor_layout sweepPtr color)
    have notPropagating : ∀ phase : GcPhase, phase = arena.phase → phase ≠ .propagating :=
      fun _ same propagating => absurd (sweeping.symm.trans (same.symm.trans propagating)) (by decide)
    rw [next]
    split
    · rename_i rooted
      refine ⟨tricolor.queued.recolor (List.subset_append_left _ _)
          fun _ => List.mem_append_right _ (List.mem_singleton_self _),
        tricolor.lightPinned.recolor fun gcBox' found' _ => ?_,
        fun propagating => absurd propagating (notPropagating _ rfl),
        fun _ => ⟨tail, chain _, unvisited _⟩, allocated _, by simp [GcArena.recolor]⟩
      cases found.symm.trans found'
      simpa using rooted
    · exact ⟨tricolor.queued.recolor (List.Subset.refl _) (by rintro (white | white) <;> cases white),
        tricolor.lightPinned.recolor fun _ _ light => (by cases light),
        fun propagating => absurd propagating (notPropagating _ rfl),
        fun _ => ⟨tail, chain _, unvisited _⟩, allocated _, by simp [GcArena.recolor]⟩

/-- A pass of `do_collection`, run with no barrier owed. -/
theorem of_collectionStep (tricolor : arena.Tricolor ⟨since, []⟩)
    (shape : ListShape arena cells pending) (marked : RootsMarked arena.heap)
    (success : arena.collectionStep workLeft blockedGrayCount = .ok pass) :
    pass.arena.Tricolor ⟨arena.heap.fresh, []⟩ := by
  rcases GcArena.collectionStep_eq_ok success with
    ⟨-, rfl⟩ | ⟨propagating, propagated⟩ | ⟨sweeping, swept⟩
  · exact tricolor.later tricolor.since_le le_rfl
  · exact tricolor.of_propagate shape marked propagating propagated
  · exact tricolor.of_sweepStep shape sweeping swept

end Tricolor

end GcArena

end LusterGc
