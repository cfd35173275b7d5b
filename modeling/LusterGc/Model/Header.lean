import Mathlib.Data.BitVec

/-! # The cell header: flag byte and pin counter

`GcFlags` is the header byte of every `GcBox`: bits 0 and 1 hold the colour, bit 2 the detached
flag and bit 3 the needs-trace flag. Each accessor is the source's mask arithmetic on the byte, so
that the fields do not disturb each other is proved here rather than assumed. `needsTrace` keeps
the source's `|`, and so reports true for every byte. `RootCount` is the pin counter, with the
assertion that stops it at `usize::MAX`.
-/

namespace LusterGc

/-- What can stop a call: a panic with its message, or undefined behaviour at a freed box. -/
inductive Fault where
  | panic (message : String)
  | dangling (address : ℕ)
  | doubleFree (address : ℕ)
deriving DecidableEq, Repr

/-- A `do` block succeeds when its first computation does and the rest succeeds on its value. -/
theorem bind_eq_ok {α β : Type} {x : Except Fault α} {f : α → Except Fault β} {b : β} :
    x >>= f = .ok b ↔ ∃ a, x = .ok a ∧ f a = .ok b := by
  cases x <;> simp [bind, Except.bind]

theorem bind_eq_error {α β : Type} {x : Except Fault α} {f : α → Except Fault β} {fault : Fault} :
    x >>= f = .error fault ↔ x = .error fault ∨ ∃ a, x = .ok a ∧ f a = .error fault := by
  cases x <;> simp [bind, Except.bind]

@[simp] theorem map_eq_error {α β : Type} {x : Except Fault α} {f : α → β} {fault : Fault} :
    x.map f = .error fault ↔ x = .error fault := by
  cases x <;> simp [Except.map]

/-- The four tri-colour marks. -/
inductive GcColor where
  | white
  | lightGray
  | darkGray
  | black
deriving DecidableEq, Repr

/-- The two colour bits that `set_color` writes. -/
def GcColor.bits : GcColor → UInt8
  | .white => 0x0
  | .lightGray => 0x1
  | .darkGray => 0x2
  | .black => 0x3

/-- The header byte of a cell, `GcFlags(Cell<u8>)`. -/
structure GcFlags where
  bits : UInt8
deriving DecidableEq, Repr

namespace GcFlags

def new : GcFlags := ⟨0⟩

/-- The last arm is `0x3`: the masked byte has no fifth value (`unreachable!()`). -/
def color (flags : GcFlags) : GcColor :=
  match flags.bits &&& 0x3 with
  | 0x0 => .white
  | 0x1 => .lightGray
  | 0x2 => .darkGray
  | _ => .black

def setColor (flags : GcFlags) (color : GcColor) : GcFlags :=
  ⟨(flags.bits &&& ~~~0x3) ||| color.bits⟩

def isDetached (flags : GcFlags) : Bool :=
  flags.bits &&& 0x4 != 0x0

def setDetached (flags : GcFlags) (detached : Bool) : GcFlags :=
  ⟨(flags.bits &&& ~~~0x4) ||| if detached then 0x4 else 0x0⟩

/-- As written in the source, with `|` where the other readers use `&`. -/
def needsTrace (flags : GcFlags) : Bool :=
  flags.bits ||| 0x8 != 0x0

def setNeedsTrace (flags : GcFlags) (needsTrace : Bool) : GcFlags :=
  ⟨(flags.bits &&& ~~~0x8) ||| if needsTrace then 0x8 else 0x0⟩

/-- Masking distributes over the union of bits. -/
private theorem or_and_bits (x y z : BitVec 8) : (x ||| y) &&& z = (x &&& z) ||| (y &&& z) := by
  apply BitVec.eq_of_getLsbD_eq
  intro i
  simp only [BitVec.getLsbD_and, BitVec.getLsbD_or, Bool.and_or_distrib_right]

/-- A write that clears `mask` and sets `bits` inside it reads back `bits` through `mask`. -/
private theorem write_read (v : BitVec 8) (mask bits : UInt8)
    (outside : ~~~mask &&& mask = 0) (inside : bits &&& mask = bits) :
    (⟨v⟩ &&& ~~~mask ||| bits) &&& mask = bits := by
  have outside : ~~~mask.toBitVec &&& mask.toBitVec = 0#8 := congrArg UInt8.toBitVec outside
  have inside : bits.toBitVec &&& mask.toBitVec = bits.toBitVec := congrArg UInt8.toBitVec inside
  refine congrArg UInt8.mk ?_
  show (v &&& ~~~mask.toBitVec ||| bits.toBitVec) &&& mask.toBitVec = bits.toBitVec
  rw [or_and_bits, BitVec.and_assoc, outside, inside, BitVec.and_zero, BitVec.zero_or]

/-- The same write leaves alone what `keep` reads, when `keep` lies outside `mask`. -/
private theorem write_keep (v : BitVec 8) (mask bits keep : UInt8)
    (outside : ~~~mask &&& keep = keep) (inside : bits &&& keep = 0) :
    (⟨v⟩ &&& ~~~mask ||| bits) &&& keep = ⟨v⟩ &&& keep := by
  have outside : ~~~mask.toBitVec &&& keep.toBitVec = keep.toBitVec :=
    congrArg UInt8.toBitVec outside
  have inside : bits.toBitVec &&& keep.toBitVec = 0#8 := congrArg UInt8.toBitVec inside
  refine congrArg UInt8.mk ?_
  show (v &&& ~~~mask.toBitVec ||| bits.toBitVec) &&& keep.toBitVec = v &&& keep.toBitVec
  rw [or_and_bits, BitVec.and_assoc, outside, inside, BitVec.or_zero]

@[simp] theorem color_setColor (flags : GcFlags) (color : GcColor) :
    (flags.setColor color).color = color := by
  obtain ⟨⟨v⟩⟩ := flags
  simp only [GcFlags.color, setColor,
    write_read v 0x3 color.bits (by decide) (by cases color <;> decide)]
  cases color <;> rfl

@[simp] theorem isDetached_setColor (flags : GcFlags) (color : GcColor) :
    (flags.setColor color).isDetached = flags.isDetached := by
  obtain ⟨⟨v⟩⟩ := flags
  simp only [isDetached, setColor,
    write_keep v 0x3 color.bits 0x4 (by decide) (by cases color <;> decide)]

@[simp] theorem color_setDetached (flags : GcFlags) (detached : Bool) :
    (flags.setDetached detached).color = flags.color := by
  obtain ⟨⟨v⟩⟩ := flags
  simp only [GcFlags.color, setDetached,
    write_keep v 0x4 (if detached then 0x4 else 0x0) 0x3 (by decide) (by split <;> decide)]

@[simp] theorem isDetached_setDetached (flags : GcFlags) (detached : Bool) :
    (flags.setDetached detached).isDetached = detached := by
  obtain ⟨⟨v⟩⟩ := flags
  simp only [isDetached, setDetached,
    write_read v 0x4 (if detached then 0x4 else 0x0) (by decide) (by split <;> decide)]
  cases detached <;> rfl

@[simp] theorem color_setNeedsTrace (flags : GcFlags) (needsTrace : Bool) :
    (flags.setNeedsTrace needsTrace).color = flags.color := by
  obtain ⟨⟨v⟩⟩ := flags
  simp only [GcFlags.color, setNeedsTrace,
    write_keep v 0x8 (if needsTrace then 0x8 else 0x0) 0x3 (by decide) (by split <;> decide)]

@[simp] theorem isDetached_setNeedsTrace (flags : GcFlags) (needsTrace : Bool) :
    (flags.setNeedsTrace needsTrace).isDetached = flags.isDetached := by
  obtain ⟨⟨v⟩⟩ := flags
  simp only [isDetached, setNeedsTrace,
    write_keep v 0x8 (if needsTrace then 0x8 else 0x0) 0x4 (by decide) (by split <;> decide)]

@[simp] theorem color_new : new.color = .white := rfl

@[simp] theorem isDetached_new : new.isDetached = false := rfl

/-- The needs-trace reader ignores the byte: `x | 0x8` is never zero. -/
@[simp] theorem needsTrace_eq_true (flags : GcFlags) : flags.needsTrace = true := by
  obtain ⟨⟨v⟩⟩ := flags
  have bit : (v ||| 8#8).getLsbD 3 = true := by simp
  simp only [needsTrace, bne_iff_ne, ne_eq]
  intro zero
  have : (v ||| 8#8).getLsbD 3 = (0#8).getLsbD 3 :=
    congrArg (fun x : UInt8 => x.toBitVec.getLsbD 3) zero
  simp [bit] at this

end GcFlags

/-- `usize::MAX` on the 64-bit targets the crate is built for. -/
def usizeMax : ℕ := 2 ^ 64 - 1

/-- The number of outstanding `Rgc` pins of a cell. -/
structure RootCount where
  count : ℕ
deriving DecidableEq, Repr

namespace RootCount

def new : RootCount := ⟨0⟩

def isRooted (rootCount : RootCount) : Bool :=
  rootCount.count != 0

/-- `assert!` stops the count at `usize::MAX`; it panics rather than wraps. -/
def increment (rootCount : RootCount) : Except Fault RootCount :=
  if rootCount.count != usizeMax then .ok ⟨rootCount.count + 1⟩
  else .error (.panic "overflow on root count")

theorem increment_error {rootCount : RootCount} {fault : Fault}
    (failed : rootCount.increment = .error fault) : fault = .panic "overflow on root count" := by
  unfold increment at failed
  split at failed <;> cases failed
  rfl

/-- The release build: `debug_assert!` is compiled out and the subtraction wraps. -/
def decrement (rootCount : RootCount) : RootCount :=
  ⟨(rootCount.count + usizeMax) % 2 ^ 64⟩

@[simp] theorem isRooted_iff (rootCount : RootCount) :
    rootCount.isRooted = true ↔ rootCount.count ≠ 0 := by
  simp [isRooted]

@[simp] theorem isRooted_new : new.isRooted = false := rfl

theorem increment_eq_ok {rootCount next : RootCount} (success : rootCount.increment = .ok next) :
    next.count = rootCount.count + 1 := by
  unfold increment at success
  split at success <;> cases success
  rfl

/-- Below the wrap-around, `decrement` is the ordinary predecessor. -/
theorem decrement_count {rootCount : RootCount} (positive : rootCount.count ≠ 0)
    (bounded : rootCount.count ≤ usizeMax) : rootCount.decrement.count = rootCount.count - 1 := by
  simp only [decrement, usizeMax] at *
  omega

end RootCount

end LusterGc
