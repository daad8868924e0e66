import Mathlib
import CacheMeter.Proofs.Merge.HeapOrder

/-!
# The heap as a finite map

Whatever is set, removed and cleared, the heap holds the finite map that the same changes make of
the empty map.  Its first entry is the least of the map, so removing the first entry again and
again lists the whole map in order.

Main results:

- Inductive `IndexedHeap.Change`: a change of the heap, and of the map that it holds.
- Structure `IndexedHeap.Holds`: a valid heap that holds a map.
- Theorem `IndexedHeap.Holds.change`: every change keeps heap and map together.
- Theorem `IndexedHeap.Holds.drainUpTo`: removing first entries lists the map in order.
- Structure `IndexedHeap.Refines`: what can be observed of a heap that behaves as a map.
- Theorem `IndexedHeap.refines_map`: after any changes the heap behaves as the map.
-/

namespace CacheMeter.Merge

namespace Entry

/-- Different entries have different ranks. -/
theorem rank_injective : Function.Injective rank := by
  rintro ⟨time, ring⟩ ⟨time', ring'⟩ heq
  have hpair : (time.toNat, ring) = (time'.toNat, ring') := toLex.injective heq
  rw [Prod.mk.injEq, UInt64.toNat_inj] at hpair
  rw [hpair.1, hpair.2]

end Entry

namespace IndexedHeap

variable {heap : IndexedHeap} {ring : Nat}

/-! ## Changes -/

/-- Rings with the times under which they wait. -/
abbrev Waiting := Finmap fun _ : Nat => UInt64

/-- A change of the heap. -/
inductive Change
  | set (ring : Nat) (time : UInt64)
  | remove (ring : Nat)
  | clear
deriving DecidableEq, Repr

/-- What a change does to the heap. -/
def Change.toHeap (heap : IndexedHeap) : Change → IndexedHeap
  | .set ring time => heap.set ring time
  | .remove ring => (heap.remove ring).2
  | .clear => heap.clear

/-- What a change does to the map that the heap holds. -/
def Change.toMap (waiting : Waiting) : Change → Waiting
  | .set ring time => waiting.insert ring time
  | .remove ring => waiting.erase ring
  | .clear => ∅

/-- The empty heap after changes, one after the other. -/
def changed (changes : List Change) : IndexedHeap :=
  changes.foldl Change.toHeap empty

/-- The empty map after changes, one after the other. -/
def recorded (changes : List Change) : Waiting :=
  changes.foldl Change.toMap ∅

/-! ## Heaps that hold a map -/

/-- A valid heap that holds a map. -/
structure Holds (heap : IndexedHeap) (waiting : Waiting) : Prop where
  valid : Valid heap
  key?_eq : ∀ ring, heap.key? ring = waiting.lookup ring

/-- The empty heap holds nothing. -/
theorem holds_empty : Holds empty ∅ where
  valid := valid_empty
  key?_eq ring := by rw [key?_empty, Finmap.lookup_empty]

/-- A heap that was cleared has no position left for any ring. -/
theorem valid_clear (heap : IndexedHeap) : Valid heap.clear where
  indexed :=
    { position?_eq_some_iff := by
        intro ring pos
        have hnone : heap.clear.position? ring = none := by
          simp only [clear, position?, Array.getElem?_map]
          cases heap.positions[ring]? <;> rfl
        have hsize : heap.clear.size = 0 := rfl
        rw [hnone, hsize]
        simp }
  ordered pos _ hlt := absurd hlt (Nat.not_lt_zero pos)

/-- A heap that was cleared has no keys. -/
theorem key?_clear (heap : IndexedHeap) (ring : Nat) : heap.clear.key? ring = none := by
  simp [key?, clear]

namespace Holds

variable {waiting : Waiting}

/-- To set a key is to insert it. -/
theorem set (h : Holds heap waiting) (ring : Nat) (time : UInt64) :
    Holds (heap.set ring time) (waiting.insert ring time) where
  valid := h.valid.set ring time
  key?_eq other := by
    rw [h.valid.key?_set, h.key?_eq]
    split_ifs with hsame
    · rw [← hsame, Finmap.lookup_insert]
    · rw [Finmap.lookup_insert_of_ne _ (Ne.symm hsame)]

/-- To remove an entry is to erase it. -/
theorem remove (h : Holds heap waiting) (ring : Nat) :
    Holds (heap.remove ring).2 (waiting.erase ring) where
  valid := h.valid.remove ring
  key?_eq other := by
    rw [h.valid.key?_remove, h.key?_eq]
    split_ifs with hsame
    · rw [← hsame, Finmap.lookup_erase]
    · rw [Finmap.lookup_erase_ne (Ne.symm hsame)]

/-- To clear the heap is to forget everything. -/
theorem clear (heap : IndexedHeap) : Holds heap.clear ∅ where
  valid := valid_clear heap
  key?_eq ring := by rw [key?_clear, Finmap.lookup_empty]

/-- Every change keeps heap and map together. -/
theorem change (h : Holds heap waiting) (change : Change) :
    Holds (change.toHeap heap) (change.toMap waiting) := by
  cases change with
  | set ring time => exact h.set ring time
  | remove ring => exact h.remove ring
  | clear => exact .clear heap

/-- So do any number of changes. -/
theorem foldl (h : Holds heap waiting) (changes : List Change) :
    Holds (changes.foldl Change.toHeap heap) (changes.foldl Change.toMap waiting) := by
  induction changes generalizing heap waiting with
  | nil => exact h
  | cons change rest ih => exact ih (h.change change)

/-! ## Entries -/

/-- The entries of the heap are those of the map. -/
theorem mem_entries_iff (h : Holds heap waiting) (entry : Entry) :
    entry ∈ heap.entries ↔ waiting.lookup entry.ring = some entry.time := by
  rw [← h.key?_eq, h.valid.indexed.key?_eq_some_iff]

/-- It contains the rings of the map. -/
theorem contains_iff (h : Holds heap waiting) (ring : Nat) :
    heap.contains ring = true ↔ ring ∈ waiting := by
  rw [h.valid.indexed.contains_eq_isSome, h.key?_eq, Finmap.lookup_isSome]

/-- The rings that are held, each of them once. -/
theorem nodup_rings (h : Holds heap waiting) : (heap.entries.toList.map Entry.ring).Nodup := by
  rw [List.Nodup, List.pairwise_map, List.pairwise_iff_getElem]
  intro i j hi hj hij hsame
  rw [Array.length_toList] at hi hj
  rw [Array.getElem_toList, Array.getElem_toList, ← entryAt_of_lt hi, ← entryAt_of_lt hj] at hsame
  exact hij.ne (h.valid.indexed.pos_eq_of_ring_eq hi hj hsame)

/-- Its rings are the keys. -/
theorem toFinset_rings (h : Holds heap waiting) :
    (heap.entries.toList.map Entry.ring).toFinset = waiting.keys := by
  ext ring
  rw [List.mem_toFinset, List.mem_map, Finmap.mem_keys, Finmap.mem_iff]
  constructor
  · rintro ⟨entry, hmem, rfl⟩
    exact ⟨entry.time, (h.mem_entries_iff entry).mp (by simpa using hmem)⟩
  · rintro ⟨time, hlookup⟩
    have hmem := (h.mem_entries_iff ⟨time, ring⟩).mpr hlookup
    exact ⟨⟨time, ring⟩, by simpa using hmem, rfl⟩

/-- It is as large as there are keys. -/
theorem size_eq (h : Holds heap waiting) : heap.size = waiting.keys.card := by
  rw [← h.toFinset_rings, List.toFinset_card_of_nodup h.nodup_rings, List.length_map,
    Array.length_toList, IndexedHeap.size]

/-! ## The first entry -/

/-- An entry of the map that does not come after any other. -/
structure Leads (waiting : Waiting) (entry : Entry) : Prop where
  lookup_eq : waiting.lookup entry.ring = some entry.time
  rank_le : ∀ other : Entry, waiting.lookup other.ring = some other.time →
    entry.rank ≤ other.rank

/-- Nothing comes first exactly if nothing waits. -/
theorem peek?_eq_none_iff (h : Holds heap waiting) : heap.peek? = none ↔ waiting = ∅ := by
  rw [h.valid.peek?_eq_none_iff]
  constructor
  · intro hnone
    apply Finmap.ext_lookup
    intro ring
    rw [← h.key?_eq, hnone, Finmap.lookup_empty]
  · rintro rfl ring
    rw [h.key?_eq, Finmap.lookup_empty]

/-- What comes first leads all that wait. -/
theorem leads_of_peek? (h : Holds heap waiting) {entry : Entry}
    (hpeek : heap.peek? = some entry) : Leads waiting entry where
  lookup_eq := by rw [← h.key?_eq, h.valid.key?_of_peek? hpeek]
  rank_le other hother := h.valid.le_of_peek? hpeek ((h.key?_eq other.ring).trans hother)

/-- And what leads comes first. -/
theorem peek?_eq_some_iff (h : Holds heap waiting) (entry : Entry) :
    heap.peek? = some entry ↔ Leads waiting entry := by
  constructor
  · exact h.leads_of_peek?
  · intro hleads
    cases hpeek : heap.peek? with
    | none =>
      have hlookup := hleads.lookup_eq
      rw [h.peek?_eq_none_iff.mp hpeek, Finmap.lookup_empty] at hlookup
      exact absurd hlookup.symm (Option.some_ne_none _)
    | some first =>
      have hfirst := h.leads_of_peek? hpeek
      have hrank : first.rank = entry.rank :=
        le_antisymm (hfirst.rank_le entry hleads.lookup_eq)
          (hleads.rank_le first hfirst.lookup_eq)
      rw [Entry.rank_injective hrank]

/-! ## Removing -/

/-- A removal gives back the entry of the ring, … -/
theorem fst_remove (h : Holds heap waiting) (ring : Nat) :
    (heap.remove ring).1 = (waiting.lookup ring).map fun time => ⟨time, ring⟩ := by
  rw [← h.key?_eq, h.valid.indexed.key?_eq_map, IndexedHeap.remove]
  cases hpos : heap.position? ring with
  | none => rfl
  | some pos =>
    have hlt := h.valid.indexed.lt_size hpos
    have hring := h.valid.indexed.ring_entryAt hpos
    have hentry : heap.entries[pos]? = some ⟨(heap.entryAt pos).time, ring⟩ := by
      rw [← hring]
      exact (Array.getElem?_eq_getElem hlt).trans (congrArg some (entryAt_of_lt hlt).symm)
    dsimp only
    split_ifs <;> exact hentry

/-- … and does nothing at all if there is none. -/
theorem remove_of_notMem (h : Holds heap waiting) (hnone : ring ∉ waiting) :
    heap.remove ring = (none, heap) := by
  have habsent : heap.position? ring = none := by
    rw [← Option.not_isSome_iff_eq_none]
    exact fun hsome => hnone ((h.contains_iff ring).mp hsome)
  rw [IndexedHeap.remove, habsent]

/-! ## Draining -/

/-- What is left behind the first entry of a map is what was behind it before. -/
theorem lookup_erase_eq_some_iff {first entry : Entry}
    (hfirst : waiting.lookup first.ring = some first.time) :
    waiting.lookup entry.ring = some entry.time ↔
      entry = first ∨ (waiting.erase first.ring).lookup entry.ring = some entry.time := by
  by_cases hsame : entry.ring = first.ring
  · rw [hsame, hfirst, Finmap.lookup_erase, or_iff_left (Option.some_ne_none _).symm,
      Option.some.injEq]
    constructor
    · intro htime
      exact Entry.rank_injective (by rw [Entry.rank, Entry.rank, htime, hsame])
    · rintro rfl
      rfl
  · have hne : entry ≠ first := fun heq => hsame (congrArg Entry.ring heq)
    rw [Finmap.lookup_erase_ne hsame, or_iff_right hne]

/-- Removing first entries lists the whole map in order, if it goes on for long enough. -/
theorem drainUpTo (h : Holds heap waiting) {limit : Nat} (hlimit : heap.size ≤ limit) :
    (heap.drainUpTo limit).Pairwise (fun a b => a.rank < b.rank) ∧
      ∀ entry : Entry,
        entry ∈ heap.drainUpTo limit ↔ waiting.lookup entry.ring = some entry.time := by
  induction limit generalizing heap waiting with
  | zero =>
    have hpeek : heap.peek? = none := Array.getElem?_eq_none hlimit
    rw [h.peek?_eq_none_iff] at hpeek
    subst hpeek
    simp [IndexedHeap.drainUpTo]
  | succ limit ih =>
    rw [IndexedHeap.drainUpTo]
    cases hpeek : heap.peek? with
    | none =>
      rw [h.peek?_eq_none_iff] at hpeek
      subst hpeek
      simp
    | some first =>
      have hleads := h.leads_of_peek? hpeek
      have hrest := h.remove first.ring
      have hless : (heap.remove first.ring).2.size ≤ limit := by
        have hmem : first.ring ∈ waiting.keys :=
          Finmap.mem_keys.mpr (Finmap.mem_of_lookup_eq_some hleads.lookup_eq)
        have hcard := Finset.card_erase_of_mem hmem
        rw [hrest.size_eq, Finmap.keys_erase]
        rw [h.size_eq] at hlimit
        omega
      rcases ih hrest hless with ⟨hsorted, hmem⟩
      refine ⟨List.pairwise_cons.mpr ⟨?_, hsorted⟩, ?_⟩
      · intro later hlater
        rw [hmem] at hlater
        have hkept := (lookup_erase_eq_some_iff hleads.lookup_eq).mpr (.inr hlater)
        refine lt_of_le_of_ne (hleads.rank_le later hkept) fun hrank => ?_
        rw [← Entry.rank_injective hrank, Finmap.lookup_erase] at hlater
        exact Option.some_ne_none _ hlater.symm
      · intro entry
        rw [List.mem_cons, hmem, lookup_erase_eq_some_iff hleads.lookup_eq]

/-- Going on for longer than that changes nothing. -/
theorem drainUpTo_eq_drain (h : Holds heap waiting) {limit : Nat} (hlimit : heap.size ≤ limit) :
    heap.drainUpTo limit = heap.drain := by
  rcases h.drainUpTo hlimit with ⟨hsorted, hmem⟩
  rcases h.drainUpTo (Nat.le_refl heap.size) with ⟨hsorted', hmem'⟩
  exact hsorted.eq_of_mem_iff hsorted' fun entry => (hmem entry).trans (hmem' entry).symm

end Holds

/-! ## The heap behaves as the map -/

/-- What can be observed of a heap is what it says of the map. -/
structure Refines (heap : IndexedHeap) (waiting : Waiting) : Prop where
  /-- No entry comes before the one above it, … -/
  rank_le : ∀ pos child, child = 2 * pos + 1 ∨ child = 2 * pos + 2 → child < heap.size →
    (heap.entryAt pos).rank ≤ (heap.entryAt child).rank
  /-- … a ring has a position exactly where its entry is, … -/
  position?_iff : ∀ ring pos, heap.position? ring = some pos ↔
    pos < heap.size ∧ (heap.entryAt pos).ring = ring
  /-- … and no ring has two entries. -/
  nodup_rings : (heap.entries.toList.map Entry.ring).Nodup
  /-- The entries are those of the map. -/
  mem_entries_iff : ∀ entry : Entry,
    entry ∈ heap.entries ↔ waiting.lookup entry.ring = some entry.time
  contains_iff : ∀ ring, heap.contains ring = true ↔ ring ∈ waiting
  size_eq : heap.size = waiting.keys.card
  /-- The first entry is the least of the map. -/
  peek?_iff : ∀ entry, heap.peek? = some entry ↔ Holds.Leads waiting entry
  /-- A ring is removed with the time under which it was held, or not at all. -/
  fst_remove : ∀ ring,
    (heap.remove ring).1 = (waiting.lookup ring).map fun time => ⟨time, ring⟩
  remove_eq : ∀ ring, ring ∉ waiting → heap.remove ring = (none, heap)
  /-- Removing first entries until there is none lists the map in order, each ring once. -/
  drainUpTo_eq : ∀ limit, heap.size ≤ limit → heap.drainUpTo limit = heap.drain
  drain_sorted : heap.drain.Pairwise fun a b => a.rank < b.rank
  mem_drain_iff : ∀ entry : Entry,
    entry ∈ heap.drain ↔ waiting.lookup entry.ring = some entry.time

/-- A heap that holds a map does whatever the map does. -/
theorem Holds.refines {waiting : Waiting} (h : Holds heap waiting) : Refines heap waiting where
  rank_le pos child hchild hlt := by
    have hparent : parent child = pos := by
      unfold parent
      omega
    have hle := h.valid.ordered child (by omega) hlt
    rwa [hparent] at hle
  position?_iff := h.valid.indexed.position?_eq_some_iff
  nodup_rings := h.nodup_rings
  mem_entries_iff := h.mem_entries_iff
  contains_iff := h.contains_iff
  size_eq := h.size_eq
  peek?_iff := h.peek?_eq_some_iff
  fst_remove := h.fst_remove
  remove_eq _ hnone := h.remove_of_notMem hnone
  drainUpTo_eq _ hlimit := h.drainUpTo_eq_drain hlimit
  drain_sorted := (h.drainUpTo le_rfl).1
  mem_drain_iff := (h.drainUpTo le_rfl).2

/-- After any changes of an empty heap, with any rings and times, the heap behaves as the map that
the changes make of the empty one. -/
theorem refines_map (changes : List Change) : Refines (changed changes) (recorded changes) :=
  (holds_empty.foldl changes).refines

end IndexedHeap

end CacheMeter.Merge
