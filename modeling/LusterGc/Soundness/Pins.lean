import LusterGc.Soundness.ListShape

/-! # Pins, colours and the detached flag

`PinsCounted heap pins` says that every box counts the `Rgc` handles the host holds to it, and
that every handle points at a box that is still allocated. While the arena lives no box is
detached, and a pinned box is never white: `root` lights a white box, and the sweep whitens only
boxes without pins. `Collects` is what one pass of the collector may do to memory. All three
facts survive it, so the sweep frees no pinned box.
-/

namespace LusterGc

namespace Heap

/-- Every allocated box has `property`. -/
def Every (property : GcBox → Prop) (heap : Heap) : Prop :=
  ∀ address gcBox, heap.boxes address = some gcBox → property gcBox

namespace Every

variable {property : GcBox → Prop} {heap : Heap}

theorem empty (property : GcBox → Prop) : Heap.empty.Every property :=
  fun _ _ found => by cases found

theorem set (every : heap.Every property) {address : Ptr} {gcBox : GcBox}
    (holds : property gcBox) : (heap.set address gcBox).Every property := by
  intro query gcBox' found
  rw [set_boxes] at found
  split at found
  · cases found
    exact holds
  · exact every query gcBox' found

theorem erase (every : heap.Every property) (address : Ptr) : (heap.erase address).Every property := by
  intro query gcBox found
  rw [erase_boxes] at found
  split at found
  · cases found
  · exact every query gcBox found

theorem alloc (every : heap.Every property) {gcBox : GcBox} (holds : property gcBox) :
    (heap.alloc gcBox).1.Every property := by
  intro query gcBox' found
  rw [alloc_boxes] at found
  split at found
  · cases found
    exact holds
  · exact every query gcBox' found

/-- Where no box lies at or past the next address, `Every` is a check of the addresses below it. -/
theorem of_below (unused : ∀ address, heap.fresh ≤ address → heap.boxes address = none)
    (below : ∀ address < heap.fresh, ∀ gcBox ∈ heap.boxes address, property gcBox) :
    heap.Every property := fun address gcBox found => by
  by_cases inside : address < heap.fresh
  · exact below address inside gcBox found
  · rw [unused address (Nat.le_of_not_lt inside)] at found
    cases found

end Every

/-- What one pass of the collector may do to memory: recolour a box, to white only when it was
white or unpinned; relink it; free it when it was white or unpinned. Pin counts and the detached
flag stay. -/
structure Collects (heap heap' : Heap) : Prop where
  kept : ∀ address gcBox', heap'.boxes address = some gcBox' → ∃ gcBox,
    heap.boxes address = some gcBox ∧ gcBox'.flags.isDetached = gcBox.flags.isDetached ∧
    gcBox'.rootCount = gcBox.rootCount ∧
    (gcBox'.flags.color = .white → gcBox.flags.color = .white ∨ gcBox.rootCount.count = 0)
  freed : ∀ address gcBox, heap.boxes address = some gcBox → heap'.boxes address = none →
    gcBox.flags.color = .white ∨ gcBox.rootCount.count = 0

namespace Collects

variable {heap heap' heap'' : Heap}

theorem refl (heap : Heap) : Collects heap heap :=
  ⟨fun _ gcBox found => ⟨gcBox, found, rfl, rfl, .inl⟩, fun _ _ found gone => by simp_all⟩

theorem trans (first : Collects heap heap') (second : Collects heap' heap'') :
    Collects heap heap'' := by
  refine ⟨fun address gcBox'' found => ?_, fun address gcBox found gone => ?_⟩
  · obtain ⟨gcBox', found', detached', count', whitened'⟩ := second.kept address gcBox'' found
    obtain ⟨gcBox, found, detached, count, whitened⟩ := first.kept address gcBox' found'
    refine ⟨gcBox, found, detached'.trans detached, count'.trans count, fun white => ?_⟩
    rcases whitened' white with white' | unpinned
    · exact whitened white'
    · exact .inr (by rwa [count] at unpinned)
  · cases middle : heap'.boxes address with
    | none => exact first.freed address gcBox found middle
    | some gcBox' =>
      obtain ⟨gcBox₀, found₀, -, count, whitened⟩ := first.kept address gcBox' middle
      cases found.symm.trans found₀
      rcases second.freed address gcBox' middle gone with white | unpinned
      · exact whitened white
      · exact .inr (by rwa [count] at unpinned)

theorem of_shades (shades : Shades heap heap') : Collects heap heap' := by
  refine ⟨fun address gcBox' found => ?_, fun address gcBox found gone => ?_⟩
  · have same := shades.frame address
    rw [found, Option.map_some'] at same
    obtain ⟨gcBox, found₀, framed⟩ := Option.map_eq_some'.mp same.symm
    simp only [frame, Prod.mk.injEq] at framed
    refine ⟨gcBox, found₀, framed.1.symm, framed.2.1.symm, fun white => ?_⟩
    obtain ⟨gcBox₀, found₁, white₀⟩ := shades.white address gcBox' found white
    cases found₀.symm.trans found₁
    exact .inl white₀
  · exact absurd gone (shades.allocated_iff.mpr (by simp [Allocated, found]))

theorem set {address : Ptr} {gcBox gcBox' : GcBox} (found : heap.boxes address = some gcBox)
    (detached : gcBox'.flags.isDetached = gcBox.flags.isDetached)
    (count : gcBox'.rootCount = gcBox.rootCount)
    (whitened : gcBox'.flags.color = .white → gcBox.flags.color = .white ∨ gcBox.rootCount.count = 0) :
    Collects heap (heap.set address gcBox') := by
  refine ⟨fun query gcBox'' found' => ?_, fun query gcBox'' found' gone => ?_⟩
  · rw [set_boxes] at found'
    split at found'
    · subst query
      cases found'
      exact ⟨gcBox, found, detached, count, whitened⟩
    · exact ⟨gcBox'', found', rfl, rfl, .inl⟩
  · rw [set_boxes] at gone
    split at gone
    · cases gone
    · simp_all

theorem erase {address : Ptr} {gcBox : GcBox} (found : heap.boxes address = some gcBox)
    (white : gcBox.flags.color = .white ∨ gcBox.rootCount.count = 0) :
    Collects heap (heap.erase address) := by
  refine ⟨fun query gcBox' found' => ?_, fun query gcBox' found' gone => ?_⟩
  · rw [erase_boxes] at found'
    split at found'
    · cases found'
    · exact ⟨gcBox', found', rfl, rfl, .inl⟩
  · rw [erase_boxes] at gone
    split at gone
    · subst query
      cases found.symm.trans found'
      exact white
    · simp_all

end Collects

end Heap

namespace GcArena

/-- A pass of `do_collection` does to memory only what `Collects` allows: the sweep frees and
whitens only white or unpinned boxes. -/
theorem collectionStep_collects {arena : GcArena} {workLeft : Budget} {blockedGrayCount : ℕ}
    {pass : Pass} (success : arena.collectionStep workLeft blockedGrayCount = .ok pass) :
    arena.heap.Collects pass.arena.heap := by
  rcases collectionStep_eq_ok success with ⟨-, rfl⟩ | ⟨-, propagated⟩ | ⟨-, swept⟩
  · exact .refl _
  · rcases propagate_eq_ok propagated with ⟨-, next⟩ | marks
    · exact next ▸ .refl _
    · exact .of_shades marks.shades
  · obtain ⟨-, -, ⟨-, -, next⟩ | ⟨sweepPtr, gcBox, -, found, freed | kept⟩⟩ :=
      sweepStep_eq_ok swept
    · exact next ▸ .refl _
    · obtain ⟨white, -, unlinked, unlinking, -, next⟩ := freed
      rw [next]
      rcases unlink_eq_ok unlinking with ⟨-, rfl⟩ | ⟨prev, prevBox, -, prevFound, rfl⟩
      · exact .erase found (.inl white)
      · have relinked : arena.heap.Collects (arena.heap.set prev { prevBox with next := gcBox.next }) :=
          .set prevFound rfl rfl .inl
        by_cases here : sweepPtr = prev
        · subst here
          cases found.symm.trans prevFound
          exact relinked.trans (.erase (Heap.set_boxes_self _ _ _) (.inl white))
        · exact relinked.trans (.erase (by simp [here, found]) (.inl white))
    · obtain ⟨-, -, next⟩ := kept
      rw [next]
      split
      · exact .of_shades (arena.heap.shades_recolor sweepPtr (by decide))
      · rename_i unpinned
        show arena.heap.Collects (arena.heap.recolor sweepPtr .white)
        rw [Heap.recolor_of_found found]
        exact .set found (GcFlags.isDetached_setColor _ _) rfl fun _ => .inr (by simpa using unpinned)

end GcArena

/-- No box is detached: `set_detached` runs only in `GcArena::drop`. -/
def Attached (heap : Heap) : Prop :=
  heap.Every fun gcBox => gcBox.flags.isDetached = false

/-- A pinned box is not white. -/
def RootsMarked (heap : Heap) : Prop :=
  heap.Every fun gcBox => gcBox.rootCount.count ≠ 0 → gcBox.flags.color ≠ .white

variable {heap heap' : Heap}

theorem Attached.of_collects (attached : Attached heap) (collects : heap.Collects heap') :
    Attached heap' := by
  intro address gcBox' found
  obtain ⟨gcBox, found₀, detached, -⟩ := collects.kept address gcBox' found
  exact detached.trans (attached address gcBox found₀)

theorem RootsMarked.of_collects (marked : RootsMarked heap) (collects : heap.Collects heap') :
    RootsMarked heap' := by
  intro address gcBox' found pinned white
  obtain ⟨gcBox, found₀, -, count, whitened⟩ := collects.kept address gcBox' found
  rw [count] at pinned
  rcases whitened white with white₀ | unpinned
  · exact marked address gcBox found₀ pinned white₀
  · exact pinned unpinned

/-- Every box counts the handles the host holds to it, no address is held more than
`usize::MAX` times, and every handle points at a box that is still allocated. -/
structure PinsCounted (heap : Heap) (pins : List Ptr) : Prop where
  count : ∀ address gcBox, heap.boxes address = some gcBox →
    gcBox.rootCount.count = pins.count address
  bounded : ∀ address, pins.count address ≤ usizeMax
  held : ∀ address ∈ pins, heap.Allocated address

namespace PinsCounted

variable {pins : List Ptr}

theorem pinned_iff (counted : PinsCounted heap pins) {address : Ptr} {gcBox : GcBox}
    (found : heap.boxes address = some gcBox) : gcBox.rootCount.count ≠ 0 ↔ address ∈ pins := by
  rw [counted.count address gcBox found, ← List.count_pos_iff]
  omega

/-- A pass of the collector frees no pinned box and keeps every count. -/
theorem of_collects (counted : PinsCounted heap pins) (marked : RootsMarked heap)
    (collects : heap.Collects heap') : PinsCounted heap' pins where
  count address gcBox' found := by
    obtain ⟨gcBox, found₀, -, count, -⟩ := collects.kept address gcBox' found
    rw [count]
    exact counted.count address gcBox found₀
  bounded := counted.bounded
  held address member gone := by
    obtain ⟨gcBox, found⟩ := Option.ne_none_iff_exists'.mp (counted.held address member)
    have pinned := (counted.pinned_iff found).mpr member
    rcases collects.freed address gcBox found gone with white | unpinned
    · exact marked address gcBox found pinned white
    · exact pinned unpinned

/-- Rewriting a box without touching its count. -/
theorem set (counted : PinsCounted heap pins) {address : Ptr} {gcBox gcBox' : GcBox}
    (found : heap.boxes address = some gcBox) (count : gcBox'.rootCount = gcBox.rootCount) :
    PinsCounted (heap.set address gcBox') pins where
  count query gcBox'' found' := by
    rw [Heap.set_boxes] at found'
    split at found'
    · subst query
      cases found'
      rw [count]
      exact counted.count _ _ found
    · exact counted.count _ _ found'
  bounded := counted.bounded
  held query member := by
    simp only [Heap.Allocated, Heap.set_boxes]
    split <;> [simp; exact counted.held query member]

/-- `root` and `Rgc::clone`: one more handle, one more on the count. -/
theorem pin (counted : PinsCounted heap pins) {gc : Ptr} {gcBox gcBox' : GcBox}
    (found : heap.boxes gc = some gcBox) (below : gcBox.rootCount.count ≠ usizeMax)
    (count : gcBox'.rootCount.count = gcBox.rootCount.count + 1) :
    PinsCounted (heap.set gc gcBox') (gc :: pins) where
  count query gcBox'' found' := by
    rw [Heap.set_boxes] at found'
    split at found'
    · subst query
      cases found'
      simp [count, counted.count _ _ found]
    · simp_all [counted.count _ _ found']
  bounded query := by
    have bounded := counted.bounded query
    have counted := counted.count _ _ found
    by_cases here : query = gc
    · subst here
      simp only [List.count_cons_self]
      omega
    · simpa [here] using bounded
  held query member := by
    simp only [Heap.Allocated, Heap.set_boxes]
    rcases List.mem_cons.mp member with rfl | member
    · simp
    · split <;> [simp; exact counted.held query member]

/-- `Rgc::drop` before any free: one handle less, one less on the count. -/
theorem release (counted : PinsCounted heap pins) {gc : Ptr} {gcBox gcBox' : GcBox}
    (held : gc ∈ pins) (found : heap.boxes gc = some gcBox)
    (count : gcBox'.rootCount = gcBox.rootCount.decrement) :
    PinsCounted (heap.set gc gcBox') (pins.erase gc) where
  count query gcBox'' found' := by
    rw [Heap.set_boxes] at found'
    split at found'
    · subst query
      cases found'
      have counted' := counted.count _ _ found
      have positive := List.count_pos_iff.mpr held
      have bounded := counted.bounded gc
      rw [count, RootCount.decrement_count (by omega) (by omega), counted', List.count_erase_self]
    · simp_all [counted.count _ _ found']
  bounded query := by
    have bounded := counted.bounded query
    by_cases here : query = gc
    · subst here
      simp only [List.count_erase_self]
      omega
    · simpa [here] using bounded
  held query member := by
    simp only [Heap.Allocated, Heap.set_boxes]
    split <;> [simp; exact counted.held query (List.mem_of_mem_erase member)]

/-- Freeing a box without pins. -/
theorem erase (counted : PinsCounted heap pins) {address : Ptr} {gcBox : GcBox}
    (found : heap.boxes address = some gcBox) (unpinned : gcBox.rootCount.count = 0) :
    PinsCounted (heap.erase address) pins where
  count query gcBox' found' := by
    rw [Heap.erase_boxes] at found'
    split at found'
    · cases found'
    · exact counted.count _ _ found'
  bounded := counted.bounded
  held query member := by
    have other : query ≠ address := fun same =>
      (counted.pinned_iff found).mpr (same ▸ member) unpinned
    simpa [Heap.Allocated, other] using counted.held query member

/-- A new box has no pins, and no handle points at its fresh address. -/
theorem alloc (counted : PinsCounted heap pins) (unused : heap.boxes heap.fresh = none)
    {gcBox : GcBox} (unpinned : gcBox.rootCount.count = 0) :
    PinsCounted (heap.alloc gcBox).1 pins where
  count query gcBox' found' := by
    rw [Heap.alloc_boxes] at found'
    split at found'
    · subst query
      cases found'
      rw [unpinned, eq_comm, List.count_eq_zero]
      exact fun member => counted.held _ member unused
    · exact counted.count _ _ found'
  bounded := counted.bounded
  held query member := by
    simp only [Heap.Allocated, Heap.alloc_boxes]
    split <;> [simp; exact counted.held query member]

end PinsCounted

end LusterGc
