import Mathlib
import CacheMeter.Merge.IndexedHeap

/-!
# The index of the heap

The table of positions and the array of entries are inverse to each other, so a ring
is held at most once and the heap is a finite map from rings to times.

Main results:

- Structure `IndexedHeap.Indexed`: the inverse invariant.
- Theorem `Indexed.key?_eq_some_iff`: the map holds what the entries hold.
- Theorems `Indexed.siftUp` and `Indexed.siftDown`: restoring the order keeps index and
  entries.
- Theorems `Indexed.replaced`, `Indexed.pushed` and `Indexed.shrunk`: changing one entry.
-/

namespace CacheMeter.Merge.IndexedHeap

variable {heap : IndexedHeap} {a b pos ring : Nat}

/-! ## Entries by position -/

/-- Below the size an entry is what the array holds. -/
theorem entryAt_of_lt (h : pos < heap.size) : heap.entryAt pos = heap.entries[pos] :=
  Array.getElem_eq_getD default |>.symm

/-- Every place below the size holds an entry of the heap. -/
theorem entryAt_mem (h : pos < heap.size) : heap.entryAt pos ∈ heap.entries := by
  rw [entryAt_of_lt h]
  exact Array.getElem_mem h

/-- The entries of the heap are those at its places. -/
theorem mem_entries_iff {entry : Entry} :
    entry ∈ heap.entries ↔ ∃ pos < heap.size, heap.entryAt pos = entry := by
  constructor
  · intro hmem
    rcases Array.mem_iff_getElem.mp hmem with ⟨pos, hpos, heq⟩
    exact ⟨pos, hpos, (entryAt_of_lt hpos).trans heq⟩
  · rintro ⟨pos, hpos, rfl⟩
    exact entryAt_mem hpos

/-- A swap exchanges two entries and keeps the others. -/
theorem entryAt_swap (ha : a < heap.size) (hb : b < heap.size) (pos : Nat) :
    (heap.swap a b).entryAt pos = heap.entryAt (Equiv.swap a b pos) := by
  have hswap : (heap.swap a b).entries = heap.entries.swap a b ha hb := by
    rw [IndexedHeap.swap, Array.swapIfInBounds_def]
    exact (dif_pos ha).trans (dif_pos hb)
  unfold size at ha hb
  rw [entryAt, hswap, Equiv.swap_apply_def]
  split_ifs with h₁ h₂
  · simp [entryAt, h₁, ha, hb]
  · simp [entryAt, h₂, ha, hb]
  · by_cases hpos : pos < heap.entries.size
    · simp [entryAt, hpos, Array.getElem_swap_of_ne, h₁, h₂]
    · simp [entryAt, Nat.le_of_not_lt hpos]

/-- A swap of two places of the heap leads from no place out of it. -/
theorem swap_lt_size_iff (ha : a < heap.size) (hb : b < heap.size) :
    Equiv.swap a b pos < heap.size ↔ pos < heap.size := by
  rw [Equiv.swap_apply_def]
  split_ifs with h₁ h₂
  · rw [h₁]
    exact iff_of_true hb ha
  · rw [h₂]
    exact iff_of_true ha hb
  · rfl

/-- A swap moves entries, and neither adds nor loses any. -/
theorem mem_swap (ha : a < heap.size) (hb : b < heap.size) (entry : Entry) :
    entry ∈ (heap.swap a b).entries ↔ entry ∈ heap.entries := by
  simp only [mem_entries_iff, entryAt_swap ha hb, size_swap]
  constructor
  · rintro ⟨pos, hpos, heq⟩
    exact ⟨_, (swap_lt_size_iff ha hb).mpr hpos, heq⟩
  · rintro ⟨pos, hpos, heq⟩
    refine ⟨Equiv.swap a b pos, (swap_lt_size_iff ha hb).mpr hpos, ?_⟩
    rw [Equiv.swap_apply_self, heq]

/-! ## The inverse invariant -/

/-- A ring has a position exactly where its entry is. -/
structure Indexed (heap : IndexedHeap) : Prop where
  position?_eq_some_iff : ∀ ring pos, heap.position? ring = some pos ↔
    pos < heap.size ∧ (heap.entryAt pos).ring = ring

/-- The empty heap finds nothing, rightly. -/
theorem indexed_empty : Indexed IndexedHeap.empty where
  position?_eq_some_iff ring pos := by simp [position?, IndexedHeap.empty, size]

/-- A ring that has a position has room in the table. -/
theorem lt_of_position? (h : heap.position? ring = some pos) :
    ring < heap.positions.size := by
  by_contra hge
  have hout : heap.positions.size ≤ ring := Nat.le_of_not_lt hge
  simp [position?, Array.getElem?_eq_none hout] at h

namespace Indexed

/-- The ring of an entry is found where the entry lies. -/
theorem position?_ring (h : Indexed heap) (hpos : pos < heap.size) :
    heap.position? (heap.entryAt pos).ring = some pos :=
  (h.position?_eq_some_iff _ _).mpr ⟨hpos, rfl⟩

/-- What is found lies below the size. -/
theorem lt_size (h : Indexed heap) (hpos : heap.position? ring = some pos) :
    pos < heap.size :=
  ((h.position?_eq_some_iff _ _).mp hpos).1

/-- What is found is an entry of the ring. -/
theorem ring_entryAt (h : Indexed heap) (hpos : heap.position? ring = some pos) :
    (heap.entryAt pos).ring = ring :=
  ((h.position?_eq_some_iff _ _).mp hpos).2

/-- No two entries are for the same ring. -/
theorem pos_eq_of_ring_eq (h : Indexed heap) (ha : a < heap.size) (hb : b < heap.size)
    (heq : (heap.entryAt a).ring = (heap.entryAt b).ring) : a = b := by
  have hposition := h.position?_ring ha
  rw [heq, h.position?_ring hb] at hposition
  exact (Option.some.inj hposition).symm

/-- A ring is not found exactly if no entry is of it. -/
theorem position?_eq_none_iff (h : Indexed heap) :
    heap.position? ring = none ↔ ∀ entry ∈ heap.entries, entry.ring ≠ ring := by
  constructor
  · intro hnone entry hmem heq
    rcases mem_entries_iff.mp hmem with ⟨pos, hpos, rfl⟩
    rw [← heq, h.position?_ring hpos] at hnone
    exact Option.some_ne_none _ hnone
  · intro hall
    rw [Option.eq_none_iff_forall_ne_some]
    intro pos hpos
    exact hall _ (entryAt_mem (h.lt_size hpos)) (h.ring_entryAt hpos)

/-! ### The finite map -/

/-- The map holds what the entries hold. -/
theorem key?_eq_some_iff (h : Indexed heap) {time : UInt64} :
    heap.key? ring = some time ↔ ⟨time, ring⟩ ∈ heap.entries := by
  unfold key?
  rw [Option.map_eq_some_iff]
  constructor
  · rintro ⟨entry, hfind, rfl⟩
    have hring : entry.ring = ring := by
      simpa using Array.find?_some hfind
    rw [← hring]
    exact Array.mem_of_find?_eq_some hfind
  · intro hmem
    obtain ⟨found, hfind⟩ : ∃ found,
        heap.entries.find? (fun entry => decide (entry.ring = ring)) = some found := by
      rw [← Option.isSome_iff_exists, Array.find?_isSome]
      exact ⟨_, hmem, by simp⟩
    have hring : found.ring = ring := by simpa using Array.find?_some hfind
    -- The entry found and the given one are for the same ring, hence the same.
    rcases mem_entries_iff.mp (Array.mem_of_find?_eq_some hfind) with ⟨a, ha, hfound⟩
    rcases mem_entries_iff.mp hmem with ⟨b, hb, hgiven⟩
    have hab : a = b := by
      apply h.pos_eq_of_ring_eq ha hb
      rw [hfound, hgiven, hring]
    rw [hab, hgiven] at hfound
    exact ⟨found, hfind, by rw [← hfound]⟩

/-- The map reads the entry at the ring's position. -/
theorem key?_eq_map (h : Indexed heap) (ring : Nat) :
    heap.key? ring = (heap.position? ring).map fun pos => (heap.entryAt pos).time := by
  apply Option.ext
  intro time
  rw [h.key?_eq_some_iff, mem_entries_iff, Option.map_eq_some_iff]
  constructor
  · rintro ⟨pos, hpos, heq⟩
    exact ⟨pos, (h.position?_eq_some_iff ring pos).mpr ⟨hpos, by rw [heq]⟩, by rw [heq]⟩
  · rintro ⟨pos, hpos, rfl⟩
    refine ⟨pos, h.lt_size hpos, ?_⟩
    rw [← h.ring_entryAt hpos]

/-- Nor has it a key then, and only then. -/
theorem key?_eq_none_iff (h : Indexed heap) :
    heap.key? ring = none ↔ ∀ entry ∈ heap.entries, entry.ring ≠ ring := by
  rw [Option.eq_none_iff_forall_ne_some]
  constructor
  · intro hall entry hmem heq
    refine hall entry.time (h.key?_eq_some_iff.mpr ?_)
    rw [← heq]
    exact hmem
  · intro hall time hsome
    exact hall _ (h.key?_eq_some_iff.mp hsome) rfl

/-- A ring is present exactly if the map has a time for it. -/
theorem contains_eq_isSome (h : Indexed heap) (ring : Nat) :
    heap.contains ring = (heap.key? ring).isSome := by
  rw [contains, Bool.eq_iff_iff, Option.isSome_iff_ne_none, Option.isSome_iff_ne_none, ne_eq,
    ne_eq, h.position?_eq_none_iff, h.key?_eq_none_iff]

/-- Heaps with the same entries hold the same map. -/
theorem key?_congr {other : IndexedHeap} (h : Indexed heap) (hother : Indexed other)
    (hmem : ∀ entry, entry ∈ heap.entries ↔ entry ∈ other.entries) (ring : Nat) :
    heap.key? ring = other.key? ring := by
  apply Option.ext
  intro time
  rw [h.key?_eq_some_iff, hother.key?_eq_some_iff]
  exact hmem _

/-! ### Exchanging entries -/

/-- A swap moves what is found with the entries. -/
theorem position?_swap (h : Indexed heap) (ha : a < heap.size) (hb : b < heap.size)
    (ring : Nat) :
    (heap.swap a b).position? ring = (heap.position? ring).map (Equiv.swap a b) := by
  have hla := lt_of_position? (h.position?_ring ha)
  have hlb := lt_of_position? (h.position?_ring hb)
  have hlookup : (heap.swap a b).position? ring =
      if (heap.entryAt a).ring = ring then some b
      else if (heap.entryAt b).ring = ring then some a
      else heap.position? ring := by
    simp only [IndexedHeap.swap, position?, Array.getElem?_setIfInBounds,
      Array.size_setIfInBounds, hla, hlb, if_true]
    split_ifs <;> rfl
  rw [hlookup]
  split_ifs with hra hrb
  · rw [← hra, h.position?_ring ha, Option.map_some, Equiv.swap_apply_left]
  · rw [← hrb, h.position?_ring hb, Option.map_some, Equiv.swap_apply_right]
  · cases hpos : heap.position? ring with
    | none => rfl
    | some pos =>
      have hring := h.ring_entryAt hpos
      have hpa : pos ≠ a := by
        rintro rfl
        exact hra hring
      have hpb : pos ≠ b := by
        rintro rfl
        exact hrb hring
      rw [Option.map_some, Equiv.swap_apply_of_ne_of_ne hpa hpb]

/-- After a swap every ring is found where its entry lies. -/
theorem swap (h : Indexed heap) (ha : a < heap.size) (hb : b < heap.size) :
    Indexed (heap.swap a b) where
  position?_eq_some_iff ring pos := by
    have hback : Equiv.swap a b (Equiv.swap a b pos) = pos := Equiv.swap_apply_self a b pos
    rw [h.position?_swap ha hb, entryAt_swap ha hb, size_swap, Option.map_eq_some_iff]
    constructor
    · rintro ⟨pos', hpos', rfl⟩
      rw [Equiv.swap_apply_self, swap_lt_size_iff ha hb]
      exact (h.position?_eq_some_iff ring pos').mp hpos'
    · rintro ⟨hlt, hring⟩
      refine ⟨_, (h.position?_eq_some_iff ring _).mpr ⟨?_, hring⟩, hback⟩
      exact (swap_lt_size_iff ha hb).mpr hlt

end Indexed

/-! ## Restoring the order -/

/-- Same entries in another order. -/
structure Rearranged (heap other : IndexedHeap) : Prop where
  indexed : Indexed other
  size : other.size = heap.size
  mem_iff : ∀ entry, entry ∈ other.entries ↔ entry ∈ heap.entries

namespace Rearranged

variable {heap other third : IndexedHeap}

/-- A heap that was left alone holds the same. -/
theorem refl (h : Indexed heap) : Rearranged heap heap :=
  ⟨h, rfl, fun _ => Iff.rfl⟩

/-- What two changes in turn only moved about was only moved about. -/
theorem trans (h₁ : Rearranged heap other) (h₂ : Rearranged other third) :
    Rearranged heap third where
  indexed := h₂.indexed
  size := h₂.size.trans h₁.size
  mem_iff entry := (h₂.mem_iff entry).trans (h₁.mem_iff entry)

/-- To move entries about changes no key. -/
theorem key?_eq (h : Rearranged heap other) (hindexed : Indexed heap) (ring : Nat) :
    other.key? ring = heap.key? ring :=
  h.indexed.key?_congr hindexed h.mem_iff ring

end Rearranged

/-- A swap only moves entries about. -/
theorem Indexed.rearranged_swap (h : Indexed heap) (ha : a < heap.size) (hb : b < heap.size) :
    Rearranged heap (heap.swap a b) where
  indexed := h.swap ha hb
  size := size_swap heap a b
  mem_iff := mem_swap ha hb

/-- So does letting an entry rise, swap by swap. -/
theorem Indexed.rearranged_siftUp (h : Indexed heap) (hpos : pos < heap.size) :
    Rearranged heap (heap.siftUp pos) := by
  fun_induction siftUp heap pos with
  | case1 heap pos _ parent _ ih =>
    have hparent : parent < heap.size := by omega
    have hswap := h.rearranged_swap hpos hparent
    exact hswap.trans (ih hswap.indexed (by rwa [hswap.size]))
  | case2 => exact .refl h
  | case3 => exact .refl h

/-- So does letting one sink. -/
theorem Indexed.rearranged_siftDown (h : Indexed heap) (pos : Nat) :
    Rearranged heap (heap.siftDown pos) := by
  fun_induction siftDown heap pos with
  | case1 => exact .refl h
  | case2 heap pos hmoves ih =>
    have hbounds := leastOf_bounds hmoves
    have hswap := h.rearranged_swap (hbounds.1.trans hbounds.2) hbounds.2
    exact hswap.trans (ih hswap.indexed)

/-! ## Changing one entry -/

/-- The table is grown by absent rings only. -/
theorem getElem?_growPositions_join (positions : Array (Option Nat)) (ring other : Nat) :
    ((growPositions positions ring)[other]?).join = (positions[other]?).join := by
  rw [growPositions, Array.getElem?_append]
  split_ifs with hlt
  · rfl
  · rw [Array.getElem?_eq_none (Nat.le_of_not_lt hlt), Array.getElem?_replicate]
    split_ifs <;> rfl

/-- The second array is made long enough for a ring. -/
theorem lt_size_growPositions (positions : Array (Option Nat)) (ring : Nat) :
    ring < (growPositions positions ring).size := by
  simp only [growPositions, Array.size_append, Array.size_replicate]
  omega

/-- The heap in which the entry at a position is another one for the same ring. -/
def replaced (heap : IndexedHeap) (pos : Nat) (entry : Entry) : IndexedHeap where
  entries := heap.entries.setIfInBounds pos entry
  positions := growPositions heap.positions entry.ring

/-- The heap with an entry behind the others for a ring that was absent. -/
def pushed (heap : IndexedHeap) (entry : Entry) : IndexedHeap where
  entries := heap.entries.push entry
  positions :=
    (growPositions heap.positions entry.ring).setIfInBounds entry.ring (some heap.size)

/-- The heap without its last entry, which is for the given ring. -/
def shrunk (heap : IndexedHeap) (ring : Nat) : IndexedHeap where
  entries := heap.entries.pop
  positions := heap.positions.setIfInBounds ring none

/-- To replace an entry adds none. -/
@[simp]
theorem size_replaced (heap : IndexedHeap) (pos : Nat) (entry : Entry) :
    (heap.replaced pos entry).size = heap.size := by
  simp [replaced, size]

/-- To push one adds one. -/
@[simp]
theorem size_pushed (heap : IndexedHeap) (entry : Entry) :
    (heap.pushed entry).size = heap.size + 1 := by
  simp [pushed, size]

/-- To take away the last one leaves one less. -/
@[simp]
theorem size_shrunk (heap : IndexedHeap) (ring : Nat) :
    (heap.shrunk ring).size = heap.size - 1 := by
  simp [shrunk, size]

section EntryAt

variable {entry : Entry} {other : Nat}

/-- The new entry lies where the old one lay, and the others where they were. -/
theorem entryAt_replaced (hpos : pos < heap.size) (other : Nat) :
    (heap.replaced pos entry).entryAt other =
      if other = pos then entry else heap.entryAt other := by
  unfold size at hpos
  simp only [entryAt, replaced, Array.getD_eq_getD_getElem?, Array.getElem?_setIfInBounds,
    hpos, if_true]
  by_cases hother : pos = other
  · rw [if_pos hother, if_pos hother.symm, Option.getD_some]
  · rw [if_neg hother, if_neg (Ne.symm hother)]

/-- The new entry lies behind all others. -/
theorem entryAt_pushed (other : Nat) :
    (heap.pushed entry).entryAt other =
      if other = heap.size then entry else heap.entryAt other := by
  simp only [entryAt, pushed, Array.getD_eq_getD_getElem?, Array.getElem?_push, size]
  split_ifs <;> rfl

/-- The entries before the last one stay. -/
theorem entryAt_shrunk (hother : other < heap.size - 1) :
    (heap.shrunk ring).entryAt other = heap.entryAt other := by
  unfold size at hother
  simp only [entryAt, shrunk, Array.getD_eq_getD_getElem?, Array.getElem?_pop, hother, if_true]

/-- No ring is found elsewhere once an entry is replaced. -/
theorem position?_replaced (heap : IndexedHeap) (pos : Nat) (entry : Entry) (other : Nat) :
    (heap.replaced pos entry).position? other = heap.position? other :=
  getElem?_growPositions_join heap.positions entry.ring other

/-- The ring of a new entry is found at the end. -/
theorem position?_pushed (heap : IndexedHeap) (entry : Entry) (other : Nat) :
    (heap.pushed entry).position? other =
      if entry.ring = other then some heap.size else heap.position? other := by
  simp only [pushed, position?, Array.getElem?_setIfInBounds, lt_size_growPositions, if_true]
  split_ifs
  · rfl
  · exact getElem?_growPositions_join heap.positions entry.ring other

/-- A ring whose entry was taken away is not found any more. -/
theorem position?_shrunk (hring : ring < heap.positions.size) (other : Nat) :
    (heap.shrunk ring).position? other =
      if ring = other then none else heap.position? other := by
  simp only [shrunk, position?, Array.getElem?_setIfInBounds, hring, if_true]
  split_ifs <;> rfl

end EntryAt

namespace Indexed

variable {entry : Entry}

/-- An entry may be replaced by one of its own ring. -/
theorem replaced (h : Indexed heap) (hpos : heap.position? entry.ring = some pos) :
    Indexed (heap.replaced pos entry) where
  position?_eq_some_iff other other' := by
    have hring : ((heap.replaced pos entry).entryAt other').ring =
        (heap.entryAt other').ring := by
      rw [entryAt_replaced (h.lt_size hpos)]
      split_ifs with heq
      · rw [heq, h.ring_entryAt hpos]
      · rfl
    rw [position?_replaced, size_replaced, hring, h.position?_eq_some_iff]

/-- An entry of a ring that has none may be pushed. -/
theorem pushed (h : Indexed heap) (habsent : heap.position? entry.ring = none) :
    Indexed (heap.pushed entry) where
  position?_eq_some_iff other pos := by
    rw [position?_pushed, size_pushed, entryAt_pushed]
    by_cases hsame : entry.ring = other
    · rw [if_pos hsame]
      constructor
      · intro hpos
        obtain rfl := Option.some.inj hpos
        rw [if_pos rfl]
        exact ⟨Nat.lt_succ_self _, hsame⟩
      · rintro ⟨hlt, hring⟩
        split_ifs at hring with hlast
        · rw [hlast]
        · -- Another entry for the same ring would give it a position before.
          have hbefore := (h.position?_eq_some_iff other pos).mpr ⟨by omega, hring⟩
          rw [← hsame, habsent] at hbefore
          exact absurd hbefore.symm (Option.some_ne_none pos)
    · rw [if_neg hsame, h.position?_eq_some_iff]
      constructor
      · rintro ⟨hlt, hring⟩
        rw [if_neg (by omega)]
        exact ⟨by omega, hring⟩
      · rintro ⟨hlt, hring⟩
        split_ifs at hring with hlast
        · exact absurd hring hsame
        · exact ⟨by omega, hring⟩

/-- The last entry may be taken away. -/
theorem shrunk (h : Indexed heap) (hlast : heap.position? ring = some (heap.size - 1)) :
    Indexed (heap.shrunk ring) where
  position?_eq_some_iff other pos := by
    have hlt := h.lt_size hlast
    rw [position?_shrunk (lt_of_position? hlast), size_shrunk]
    by_cases hsame : ring = other
    · rw [if_pos hsame]
      constructor
      · intro hnone
        exact absurd hnone.symm (Option.some_ne_none pos)
      · rintro ⟨hpos, hring⟩
        rw [entryAt_shrunk hpos] at hring
        have hposition := (h.position?_eq_some_iff other pos).mpr ⟨by omega, hring⟩
        rw [← hsame, hlast] at hposition
        have := Option.some.inj hposition
        omega
    · rw [if_neg hsame, h.position?_eq_some_iff]
      constructor
      · rintro ⟨hpos, hring⟩
        have hne : pos ≠ heap.size - 1 := by
          rintro rfl
          exact hsame ((h.ring_entryAt hlast).symm.trans hring)
        rw [entryAt_shrunk (by omega)]
        exact ⟨by omega, hring⟩
      · rintro ⟨hpos, hring⟩
        rw [entryAt_shrunk hpos] at hring
        exact ⟨by omega, hring⟩

/-! ### The map after the change -/

/-- To replace the entry of a ring changes its key and no other. -/
theorem key?_replaced (h : Indexed heap) (hpos : heap.position? entry.ring = some pos)
    (ring : Nat) :
    (heap.replaced pos entry).key? ring =
      if entry.ring = ring then some entry.time else heap.key? ring := by
  rw [(h.replaced hpos).key?_eq_map, position?_replaced, h.key?_eq_map]
  split_ifs with hsame
  · rw [← hsame, hpos, Option.map_some, entryAt_replaced (h.lt_size hpos), if_pos rfl]
  · apply Option.map_congr
    intro other hother
    have hne : other ≠ pos := by
      rintro rfl
      exact hsame ((h.ring_entryAt hpos).symm.trans (h.ring_entryAt hother))
    rw [entryAt_replaced (h.lt_size hpos), if_neg hne]

/-- To push an entry gives its ring a key and changes no other. -/
theorem key?_pushed (h : Indexed heap) (habsent : heap.position? entry.ring = none)
    (ring : Nat) :
    (heap.pushed entry).key? ring =
      if entry.ring = ring then some entry.time else heap.key? ring := by
  rw [(h.pushed habsent).key?_eq_map, position?_pushed, h.key?_eq_map]
  split_ifs with hsame
  · rw [Option.map_some, entryAt_pushed, if_pos rfl]
  · apply Option.map_congr
    intro other hother
    rw [entryAt_pushed, if_neg (h.lt_size hother).ne]

/-- To take away the last entry takes the key of its ring and no other. -/
theorem key?_shrunk (h : Indexed heap) (hlast : heap.position? ring = some (heap.size - 1))
    (other : Nat) :
    (heap.shrunk ring).key? other = if ring = other then none else heap.key? other := by
  rw [(h.shrunk hlast).key?_eq_map, position?_shrunk (lt_of_position? hlast), h.key?_eq_map]
  split_ifs with hsame
  · rfl
  · apply Option.map_congr
    intro pos hpos
    have hlt := h.lt_size hpos
    have hne : pos ≠ heap.size - 1 := by
      rintro rfl
      exact hsame ((h.ring_entryAt hlast).symm.trans (h.ring_entryAt hpos))
    rw [entryAt_shrunk (by omega)]

end Indexed

end CacheMeter.Merge.IndexedHeap
