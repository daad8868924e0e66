/-!
# An indexed heap of rings

A binary min-heap that holds each ring at most once, keyed by the time of the
ring's current record.  A table of positions finds a ring's entry, so a key can be
changed in place and any ring removed without rebuilding the heap.

Main results:

- `Entry.precedes` orders entries by time, ties by ring number.
- `IndexedHeap.set`, `remove` and `clear` change the heap; `size_swap` and
  `size_siftDown` are the bookkeeping facts behind them.
- `IndexedHeap.key?` is the finite map that the heap holds.
-/

namespace CacheMeter.Merge

/-! ## Entries -/

/-- A ring waiting with its current record's time. -/
structure Entry where
  time : UInt64
  ring : Nat
deriving DecidableEq, Repr, Inhabited

/-- Earlier time first; equal times go by ring number. -/
def Entry.precedes (a b : Entry) : Bool :=
  a.time < b.time || (a.time = b.time && a.ring < b.ring)

/-- A heap of entries together with the position of every ring in it. -/
structure IndexedHeap where
  entries : Array Entry := #[]
  /-- `positions[ring]` is the ring's place in `entries`, if it is present. -/
  positions : Array (Option Nat) := #[]
deriving DecidableEq, Repr, Inhabited

namespace IndexedHeap

/-- The heap without rings. -/
def empty : IndexedHeap := {}

/-- How many rings the heap holds. -/
def size (heap : IndexedHeap) : Nat :=
  heap.entries.size

/-- Whether the heap holds no ring. -/
def isEmpty (heap : IndexedHeap) : Bool :=
  heap.size = 0

/-- The position of a ring, if it is present. -/
def position? (heap : IndexedHeap) (ring : Nat) : Option Nat :=
  (heap.positions[ring]?).join

/-- Whether the ring is present. -/
def contains (heap : IndexedHeap) (ring : Nat) : Bool :=
  (heap.position? ring).isSome

/-- The entry that comes first. -/
def peek? (heap : IndexedHeap) : Option Entry :=
  heap.entries[0]?

/-- The time under which a ring is held, if it is present. -/
def key? (heap : IndexedHeap) (ring : Nat) : Option UInt64 :=
  (heap.entries.find? fun entry => entry.ring = ring).map Entry.time

/-- The entry at a position; arbitrary outside the heap. -/
def entryAt (heap : IndexedHeap) (pos : Nat) : Entry :=
  heap.entries.getD pos default

/-! ## Restoring the order -/

/-- Exchange two entries and record their new positions. -/
def swap (heap : IndexedHeap) (a b : Nat) : IndexedHeap :=
  { entries := heap.entries.swapIfInBounds a b
    positions :=
      (heap.positions.setIfInBounds (heap.entryAt b).ring (some a)).setIfInBounds
        (heap.entryAt a).ring (some b) }

@[simp]
theorem size_swap (heap : IndexedHeap) (a b : Nat) : (heap.swap a b).size = heap.size := by
  simp [swap, size]

/-- Move the entry at `pos` towards the root until its parent precedes it. -/
def siftUp (heap : IndexedHeap) (pos : Nat) : IndexedHeap :=
  if _h : 0 < pos then
    let parent := (pos - 1) / 2
    if (heap.entryAt pos).precedes (heap.entryAt parent) then
      (heap.swap pos parent).siftUp parent
    else heap
  else heap
termination_by pos

/-- Of two positions, `child` if it is in the heap and its entry comes before the
one at `pos`, otherwise `pos`. -/
def earlier (heap : IndexedHeap) (pos child : Nat) : Nat :=
  if child < heap.size && (heap.entryAt child).precedes (heap.entryAt pos) then child else pos

theorem earlier_eq_or (heap : IndexedHeap) (pos child : Nat) :
    heap.earlier pos child = pos ∨
      (heap.earlier pos child = child ∧ child < heap.size) := by
  unfold earlier
  split
  next h => exact Or.inr ⟨rfl, by simp at h; exact h.1⟩
  next => exact Or.inl rfl

/-- Of a position and its children, the one whose entry comes first. -/
def leastOf (heap : IndexedHeap) (pos : Nat) : Nat :=
  heap.earlier (heap.earlier pos (2 * pos + 1)) (2 * pos + 2)

theorem leastOf_bounds {heap : IndexedHeap} {pos : Nat} (h : heap.leastOf pos ≠ pos) :
    pos < heap.leastOf pos ∧ heap.leastOf pos < heap.size := by
  have hleft := heap.earlier_eq_or pos (2 * pos + 1)
  have hright := heap.earlier_eq_or (heap.earlier pos (2 * pos + 1)) (2 * pos + 2)
  unfold leastOf at h ⊢
  omega

/-- Move the entry at `pos` towards the leaves until it precedes its children. -/
def siftDown (heap : IndexedHeap) (pos : Nat) : IndexedHeap :=
  if _h : heap.leastOf pos = pos then heap
  else (heap.swap pos (heap.leastOf pos)).siftDown (heap.leastOf pos)
termination_by heap.size - pos
decreasing_by
  have hbounds := leastOf_bounds _h
  rw [size_swap]
  omega

@[simp]
theorem size_siftDown (heap : IndexedHeap) (pos : Nat) :
    (heap.siftDown pos).size = heap.size := by
  fun_induction siftDown heap pos with
  | case1 => rfl
  | case2 heap pos _ ih => rw [ih, size_swap]

/-! ## Changing the map -/

/-- Positions extended so that `ring` has one. -/
def growPositions (positions : Array (Option Nat)) (ring : Nat) : Array (Option Nat) :=
  positions ++ Array.replicate (ring + 1 - positions.size) none

/-- Hold the ring under the given time, whether or not it was present. -/
def set (heap : IndexedHeap) (ring : Nat) (time : UInt64) : IndexedHeap :=
  let positions := growPositions heap.positions ring
  match heap.position? ring with
  | some pos =>
    let heldTime := (heap.entryAt pos).time
    let changed : IndexedHeap :=
      { entries := heap.entries.setIfInBounds pos ⟨time, ring⟩, positions := positions }
    if time < heldTime then changed.siftUp pos else changed.siftDown pos
  | none =>
    let pos := heap.size
    let grown : IndexedHeap :=
      { entries := heap.entries.push ⟨time, ring⟩
        positions := positions.setIfInBounds ring (some pos) }
    grown.siftUp pos

/-- Drop the ring.  Returns its entry if it was present.  The last entry takes its
place and moves to where it belongs. -/
def remove (heap : IndexedHeap) (ring : Nat) : Option Entry × IndexedHeap :=
  match heap.position? ring with
  | none => (none, heap)
  | some pos =>
    let removed := heap.entries[pos]?
    let last := heap.size - 1
    let filled := if pos = last then heap else heap.swap pos last
    let shrunk : IndexedHeap :=
      { entries := filled.entries.pop, positions := filled.positions.setIfInBounds ring none }
    if pos < shrunk.size then (removed, (shrunk.siftDown pos).siftUp pos)
    else (removed, shrunk)

/-- Drop every ring. -/
def clear (heap : IndexedHeap) : IndexedHeap :=
  { entries := #[], positions := heap.positions.map fun _ => none }

/-- Every entry in the order in which repeated removal of the first yields them;
`limit` bounds their number. -/
def drainUpTo : Nat → IndexedHeap → List Entry
  | 0, _ => []
  | limit + 1, heap =>
    match heap.peek? with
    | none => []
    | some entry => entry :: drainUpTo limit (heap.remove entry.ring).2

/-- Every entry in the order in which repeated removal of the first yields them. -/
def drain (heap : IndexedHeap) : List Entry :=
  heap.drainUpTo heap.size

end IndexedHeap

end CacheMeter.Merge
