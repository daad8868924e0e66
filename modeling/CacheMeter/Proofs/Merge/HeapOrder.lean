import Mathlib
import CacheMeter.Proofs.Merge.HeapIndex

/-!
# The order of the heap

No entry comes before its parent, so the first entry is the least of all.  Sifting an
entry up or down restores this where one entry was changed.

Main results:

- Structure `IndexedHeap.Valid`: a heap in order with a sound index.
- Theorems `Valid.key?_set` and `Valid.key?_remove`: the changes of the map.
- Theorems `Valid.le_of_peek?` and `Valid.key?_of_peek?`: the first entry is one of the
  map, and the least.
-/

namespace CacheMeter.Merge

/-! ## The order of entries -/

namespace Entry

/-- Time and ring as a pair in lexicographic order. -/
def rank (entry : Entry) : Nat ×ₗ Nat :=
  toLex (entry.time.toNat, entry.ring)

/-- An entry precedes another if its rank is less. -/
theorem precedes_iff {a b : Entry} : a.precedes b = true ↔ a.rank < b.rank := by
  simp only [precedes, rank, Prod.Lex.toLex_lt_toLex, Bool.or_eq_true, Bool.and_eq_true,
    decide_eq_true_eq, UInt64.lt_iff_toNat_lt, UInt64.toNat_inj]

/-- It does not if the rank of the other is at most its own. -/
theorem precedes_eq_false_iff {a b : Entry} : a.precedes b = false ↔ b.rank ≤ a.rank := by
  rw [← not_lt, ← precedes_iff, Bool.not_eq_true]

/-- For one ring the order is that of the times. -/
theorem rank_le_rank_iff_of_ring_eq {a b : Entry} (h : a.ring = b.ring) :
    a.rank ≤ b.rank ↔ a.time ≤ b.time := by
  simp only [rank, Prod.Lex.toLex_le_toLex, h, le_refl, and_true, UInt64.le_iff_toNat_le]
  omega

end Entry

namespace IndexedHeap

variable {heap : IndexedHeap} {a b pos ring : Nat}

/-! ## Parents -/

/-- The position of the parent. -/
def parent (pos : Nat) : Nat :=
  (pos - 1) / 2

/-- A parent lies before its children. -/
theorem parent_lt (h : 0 < pos) : parent pos < pos := by
  unfold parent
  omega

/-- Every place but the first is one of the two children of its parent. -/
theorem parent_cases (h : 0 < pos) : pos = 2 * parent pos + 1 ∨ pos = 2 * parent pos + 2 := by
  unfold parent
  omega

/-- The rank of the entry at a position. -/
def rankAt (heap : IndexedHeap) (pos : Nat) : Nat ×ₗ Nat :=
  (heap.entryAt pos).rank

/-- A swap moves ranks with the entries. -/
theorem rankAt_swap (ha : a < heap.size) (hb : b < heap.size) (pos : Nat) :
    (heap.swap a b).rankAt pos = heap.rankAt (Equiv.swap a b pos) := by
  rw [rankAt, entryAt_swap ha hb, rankAt]

/-! ## Heaps in order -/

/-- No entry comes before its parent. -/
def Ordered (heap : IndexedHeap) : Prop :=
  ∀ pos, 0 < pos → pos < heap.size → heap.rankAt (parent pos) ≤ heap.rankAt pos

/-- The heap is in order apart from the edges to the exempt entries, and the children of
`hole` do not come before the parent of `hole`. -/
structure OrderedExcept (heap : IndexedHeap) (hole : Nat) (exempt : Nat → Prop) : Prop where
  edge : ∀ pos, 0 < pos → pos < heap.size → ¬ exempt pos →
    heap.rankAt (parent pos) ≤ heap.rankAt pos
  bypass : 0 < hole → ∀ pos, 0 < pos → pos < heap.size → parent pos = hole →
    heap.rankAt (parent hole) ≤ heap.rankAt pos

/-- A heap that is in order is so wherever an exception is made. -/
theorem Ordered.except (h : Ordered heap) (hole : Nat) (exempt : Nat → Prop) :
    OrderedExcept heap hole exempt where
  edge pos hpos hlt _ := h pos hpos hlt
  bypass hhole pos hpos hlt hparent := by
    have hup := h pos hpos hlt
    have hholelt := parent_lt hpos
    rw [hparent] at hup hholelt
    exact (h hole hhole (hholelt.trans hlt)).trans hup

/-- The first entry does not come after any other. -/
theorem Ordered.rankAt_zero_le (h : Ordered heap) (hlt : pos < heap.size) :
    heap.rankAt 0 ≤ heap.rankAt pos := by
  induction pos using Nat.strong_induction_on with
  | _ pos ih =>
    rcases Nat.eq_zero_or_pos pos with rfl | hpos
    · exact le_rfl
    · have hparent := parent_lt hpos
      exact (ih _ hparent (hparent.trans hlt)).trans (h pos hpos hlt)

/-! ### Sifting up -/

/-- An entry that comes before its parent is exchanged with it; only the edge to the
parent's place may then be out of order. -/
theorem OrderedExcept.swap_parent (h : OrderedExcept heap pos (· = pos)) (hpos : 0 < pos)
    (hlt : pos < heap.size) (hbefore : heap.rankAt pos < heap.rankAt (parent pos)) :
    OrderedExcept (heap.swap pos (parent pos)) (parent pos) (· = parent pos) := by
  have hparent := parent_lt hpos
  have hplt : parent pos < heap.size := hparent.trans hlt
  refine ⟨?_, ?_⟩
  · intro child hchild hclt hne
    rw [size_swap] at hclt
    rw [rankAt_swap hlt hplt, rankAt_swap hlt hplt]
    by_cases hsame : child = pos
    · rw [hsame, Equiv.swap_apply_right, Equiv.swap_apply_left]
      exact hbefore.le
    · rw [Equiv.swap_apply_of_ne_of_ne hsame hne]
      by_cases hbelow : parent child = pos
      · -- A child of the entry moved up: the old parent of that entry is above it now.
        rw [hbelow, Equiv.swap_apply_left]
        exact h.bypass hpos child hchild hclt hbelow
      · by_cases hsibling : parent child = parent pos
        · rw [hsibling, Equiv.swap_apply_right]
          have hedge := h.edge child hchild hclt hsame
          rw [hsibling] at hedge
          exact hbefore.le.trans hedge
        · rw [Equiv.swap_apply_of_ne_of_ne hbelow hsibling]
          exact h.edge child hchild hclt hsame
  · intro hhole child hchild hclt hbelow
    rw [size_swap] at hclt
    have hgrand := parent_lt hhole
    have habove := h.edge (parent pos) hhole hplt (by omega)
    rw [rankAt_swap hlt hplt, rankAt_swap hlt hplt,
      Equiv.swap_apply_of_ne_of_ne (by omega) (by omega)]
    have hchildne : child ≠ parent pos := by
      have := parent_lt hchild
      omega
    by_cases hsame : child = pos
    · rw [hsame, Equiv.swap_apply_left]
      exact habove
    · rw [Equiv.swap_apply_of_ne_of_ne hsame hchildne]
      have hedge := h.edge child hchild hclt hsame
      rw [hbelow] at hedge
      exact habove.trans hedge

/-- An entry that may precede its parent rises until the heap is in order. -/
theorem OrderedExcept.ordered_siftUp (h : OrderedExcept heap pos (· = pos))
    (hlt : pos < heap.size) :
    Ordered (heap.siftUp pos) := by
  fun_induction siftUp heap pos with
  | case1 heap pos hpos _ hbefore ih =>
    rw [Entry.precedes_iff] at hbefore
    apply ih (h.swap_parent hpos hlt hbefore)
    rw [size_swap]
    exact (parent_lt hpos).trans hlt
  | case2 heap pos hpos _ hbefore =>
    rw [Bool.not_eq_true, Entry.precedes_eq_false_iff] at hbefore
    intro child hchild hclt
    by_cases hsame : child = pos
    · rw [hsame]
      exact hbefore
    · exact h.edge child hchild hclt hsame
  | case3 heap pos hroot =>
    intro child hchild hclt
    exact h.edge child hchild hclt (by omega)

/-! ### Sifting down -/

/-- The earlier of a place and a child has a rank of neither more. -/
theorem rankAt_earlier_le (heap : IndexedHeap) (pos child : Nat) :
    heap.rankAt (heap.earlier pos child) ≤ heap.rankAt pos ∧
      (child < heap.size → heap.rankAt (heap.earlier pos child) ≤ heap.rankAt child) := by
  unfold earlier
  split_ifs with h
  · rw [Bool.and_eq_true, decide_eq_true_eq, Entry.precedes_iff] at h
    exact ⟨h.2.le, fun _ => le_rfl⟩
  · refine ⟨le_rfl, ?_⟩
    intro hlt
    rw [Bool.and_eq_true, decide_eq_true_eq, not_and, Entry.precedes_iff, not_lt] at h
    exact h hlt

/-- The least of a position and its children comes before none of them. -/
theorem rankAt_leastOf_le (heap : IndexedHeap) (pos : Nat) :
    heap.rankAt (heap.leastOf pos) ≤ heap.rankAt pos ∧
      ∀ child, 0 < child → child < heap.size → parent child = pos →
        heap.rankAt (heap.leastOf pos) ≤ heap.rankAt child := by
  have hleft := heap.rankAt_earlier_le pos (2 * pos + 1)
  have hright := heap.rankAt_earlier_le (heap.earlier pos (2 * pos + 1)) (2 * pos + 2)
  refine ⟨hright.1.trans hleft.1, ?_⟩
  intro child hchild hlt hparent
  rcases parent_cases hchild with hcase | hcase <;> rw [hparent] at hcase
  · rw [hcase] at hlt ⊢
    exact hright.1.trans (hleft.2 hlt)
  · rw [hcase] at hlt ⊢
    exact hright.2 hlt

/-- A child of the position moves up, and comes before the entry it passes. -/
theorem leastOf_child (h : heap.leastOf pos ≠ pos) :
    0 < heap.leastOf pos ∧ parent (heap.leastOf pos) = pos := by
  have hleft := heap.earlier_eq_or pos (2 * pos + 1)
  have hright := heap.earlier_eq_or (heap.earlier pos (2 * pos + 1)) (2 * pos + 2)
  unfold leastOf at h ⊢
  unfold parent
  omega

/-- Whatever the order at `pos` was, exchanging it with its least child leaves at most the
edges below that child's place out of order. -/
theorem OrderedExcept.swap_leastOf
    (h : OrderedExcept heap pos fun child => child = pos ∨ parent child = pos)
    (hmoves : heap.leastOf pos ≠ pos) :
    OrderedExcept (heap.swap pos (heap.leastOf pos)) (heap.leastOf pos)
      fun child => parent child = heap.leastOf pos := by
  rcases leastOf_bounds hmoves with ⟨hbelow, hllt⟩
  rcases leastOf_child hmoves with ⟨hlpos, hlparent⟩
  rcases heap.rankAt_leastOf_le pos with ⟨hleself, hlechild⟩
  generalize heap.leastOf pos = least at *
  have hlt : pos < heap.size := hbelow.trans hllt
  refine ⟨?_, ?_⟩
  · intro child hchild hclt hne
    rw [size_swap] at hclt
    have hup := parent_lt hchild
    rw [rankAt_swap hlt hllt, rankAt_swap hlt hllt]
    by_cases hsame : child = least
    · rw [hsame, hlparent, Equiv.swap_apply_left, Equiv.swap_apply_right]
      exact hleself
    · by_cases hhole : child = pos
      · -- The place above the hole: the bypass bounds what has moved into it.
        subst hhole
        rw [Equiv.swap_apply_left, Equiv.swap_apply_of_ne_of_ne hup.ne hne]
        exact h.bypass hchild least hlpos hllt hlparent
      · rw [Equiv.swap_apply_of_ne_of_ne hhole hsame]
        by_cases hunder : parent child = pos
        · rw [hunder, Equiv.swap_apply_left]
          exact hlechild child hchild hclt hunder
        · rw [Equiv.swap_apply_of_ne_of_ne hunder hne]
          exact h.edge child hchild hclt (by tauto)
  · intro _ child hchild hclt hunder
    rw [size_swap] at hclt
    have hup := parent_lt hchild
    rw [rankAt_swap hlt hllt, rankAt_swap hlt hllt, hlparent, Equiv.swap_apply_left,
      Equiv.swap_apply_of_ne_of_ne (by omega) (by omega), ← hunder]
    exact h.edge child hchild hclt (by omega)

/-- More children may be exempted. -/
theorem OrderedExcept.weaken {exempt exempt' : Nat → Prop} (h : OrderedExcept heap pos exempt)
    (hsub : ∀ child, exempt child → exempt' child) : OrderedExcept heap pos exempt' where
  edge child hchild hlt hne := h.edge child hchild hlt (fun hex => hne (hsub child hex))
  bypass := h.bypass

/-- An entry that its children may precede sinks until the heap is in order. -/
theorem OrderedExcept.ordered_siftDown
    (h : OrderedExcept heap pos fun child => parent child = pos) :
    Ordered (heap.siftDown pos) := by
  fun_induction siftDown heap pos with
  | case1 heap pos hstays =>
    rcases heap.rankAt_leastOf_le pos with ⟨-, hlechild⟩
    rw [hstays] at hlechild
    intro child hchild hlt
    by_cases hunder : parent child = pos
    · rw [hunder]
      exact hlechild child hchild hlt hunder
    · exact h.edge child hchild hlt hunder
  | case2 heap pos hmoves ih =>
    exact ih ((h.weaken fun child hunder => .inr hunder).swap_leastOf hmoves)

/-- An entry that may be out of place either way is sifted down, then up. -/
theorem OrderedExcept.ordered_siftDown_siftUp
    (h : OrderedExcept heap pos fun child => child = pos ∨ parent child = pos)
    (hlt : pos < heap.size) : Ordered ((heap.siftDown pos).siftUp pos) := by
  have hup : OrderedExcept (heap.siftDown pos) pos (· = pos) := by
    rw [IndexedHeap.siftDown]
    split_ifs with hstays
    · rcases heap.rankAt_leastOf_le pos with ⟨-, hlechild⟩
      rw [hstays] at hlechild
      refine ⟨?_, h.bypass⟩
      intro child hchild hclt hne
      by_cases hunder : parent child = pos
      · rw [hunder]
        exact hlechild child hchild hclt hunder
      · exact h.edge child hchild hclt (by tauto)
    · exact (h.swap_leastOf hstays).ordered_siftDown.except pos _
  exact hup.ordered_siftUp (by rwa [size_siftDown])

/-! ## Valid heaps -/

/-- A heap in order whose index is sound. -/
structure Valid (heap : IndexedHeap) : Prop where
  indexed : Indexed heap
  ordered : Ordered heap

/-- The empty heap is in order. -/
theorem valid_empty : Valid IndexedHeap.empty where
  indexed := indexed_empty
  ordered pos _ hlt := absurd hlt (Nat.not_lt_zero pos)

/-- The empty heap has no keys. -/
theorem key?_empty (ring : Nat) : IndexedHeap.empty.key? ring = none := by
  simp [key?, IndexedHeap.empty]

/-- To replace an entry changes one rank. -/
theorem rankAt_replaced {entry : Entry} (hpos : pos < heap.size) (other : Nat) :
    (heap.replaced pos entry).rankAt other =
      if other = pos then entry.rank else heap.rankAt other := by
  rw [rankAt, entryAt_replaced hpos]
  split_ifs <;> rfl

/-! ### Setting a key -/

/-- The entry of a ring that has one is replaced, and rises or sinks from there. -/
theorem set_of_position? (hpos : heap.position? ring = some pos) (time : UInt64) :
    heap.set ring time =
      if time < (heap.entryAt pos).time then (heap.replaced pos ⟨time, ring⟩).siftUp pos
      else (heap.replaced pos ⟨time, ring⟩).siftDown pos := by
  simp only [set, hpos]
  rfl

/-- An entry of a ring that has none is pushed, and rises from the end. -/
theorem set_of_position?_none (habsent : heap.position? ring = none) (time : UInt64) :
    heap.set ring time = (heap.pushed ⟨time, ring⟩).siftUp heap.size := by
  simp only [set, habsent]
  rfl

/-- An earlier time may put the entry out of order with its parent only. -/
theorem Ordered.replaced_earlier {entry : Entry} (h : Ordered heap) (hpos : pos < heap.size)
    (hle : entry.rank ≤ heap.rankAt pos) :
    OrderedExcept (heap.replaced pos entry) pos (· = pos) := by
  refine ⟨?_, ?_⟩
  · intro child hchild hlt hne
    rw [size_replaced] at hlt
    have hedge := h child hchild hlt
    rw [rankAt_replaced hpos, rankAt_replaced hpos, if_neg hne]
    split_ifs with hunder
    · rw [hunder] at hedge
      exact hle.trans hedge
    · exact hedge
  · intro hhole child hchild hlt hunder
    rw [size_replaced] at hlt
    have hup := parent_lt hchild
    have habove := parent_lt hhole
    rw [rankAt_replaced hpos, rankAt_replaced hpos, if_neg habove.ne, if_neg (by omega)]
    exact (h.except pos (· = pos)).bypass hhole child hchild hlt hunder

/-- A later time may put the entry out of order with its children only. -/
theorem Ordered.replaced_later {entry : Entry} (h : Ordered heap) (hpos : pos < heap.size)
    (hle : heap.rankAt pos ≤ entry.rank) :
    OrderedExcept (heap.replaced pos entry) pos fun child => parent child = pos := by
  refine ⟨?_, ?_⟩
  · intro child hchild hlt hne
    rw [size_replaced] at hlt
    have hedge := h child hchild hlt
    rw [rankAt_replaced hpos, rankAt_replaced hpos, if_neg hne]
    split_ifs with hsame
    · rw [hsame] at hedge ⊢
      exact hedge.trans hle
    · exact hedge
  · intro hhole child hchild hlt hunder
    rw [size_replaced] at hlt
    have hup := parent_lt hchild
    have habove := parent_lt hhole
    rw [rankAt_replaced hpos, rankAt_replaced hpos, if_neg habove.ne, if_neg (by omega)]
    exact (h.except pos (· = pos)).bypass hhole child hchild hlt hunder

/-- Only a pushed entry may precede its parent. -/
theorem Ordered.pushed (h : Ordered heap) (entry : Entry) :
    OrderedExcept (heap.pushed entry) heap.size (· = heap.size) := by
  refine ⟨?_, ?_⟩
  · intro child hchild hlt hne
    rw [size_pushed] at hlt
    have hup := parent_lt hchild
    rw [rankAt, rankAt, entryAt_pushed, entryAt_pushed, if_neg (by omega), if_neg hne]
    exact h child hchild (by omega)
  · intro _ child hchild hlt hunder
    rw [size_pushed] at hlt
    have hup := parent_lt hchild
    omega

namespace Valid

/-- A set key is held, the others are as before, and the heap stays valid. -/
theorem set_spec (h : Valid heap) (ring : Nat) (time : UInt64) :
    Valid (heap.set ring time) ∧ ∀ other,
      (heap.set ring time).key? other = if ring = other then some time else heap.key? other := by
  cases hpos : heap.position? ring with
  | none =>
    have hindexed : Indexed (heap.pushed ⟨time, ring⟩) := h.indexed.pushed hpos
    have hlt : heap.size < (heap.pushed ⟨time, ring⟩).size := by simp
    have hsift := hindexed.rearranged_siftUp hlt
    rw [set_of_position?_none hpos]
    refine ⟨⟨hsift.indexed, (h.ordered.pushed _).ordered_siftUp hlt⟩, ?_⟩
    intro other
    rw [hsift.key?_eq hindexed, h.indexed.key?_pushed hpos]
  | some pos =>
    have hlt := h.indexed.lt_size hpos
    have hring := h.indexed.ring_entryAt hpos
    have hindexed : Indexed (heap.replaced pos ⟨time, ring⟩) := h.indexed.replaced hpos
    have hkey (other : Nat) : (heap.replaced pos ⟨time, ring⟩).key? other =
        if ring = other then some time else heap.key? other :=
      h.indexed.key?_replaced hpos other
    have hrank (a b : Entry) (ha : a.ring = ring) (hb : b.ring = ring) :
        a.rank ≤ b.rank ↔ a.time ≤ b.time :=
      Entry.rank_le_rank_iff_of_ring_eq (ha.trans hb.symm)
    rw [set_of_position? hpos]
    split_ifs with hbefore
    · have hsift := hindexed.rearranged_siftUp ((size_replaced heap pos _).symm ▸ hlt)
      have hle := (hrank ⟨time, ring⟩ _ rfl hring).mpr (UInt64.le_of_lt hbefore)
      refine ⟨⟨hsift.indexed,
        (h.ordered.replaced_earlier hlt hle).ordered_siftUp (by simpa using hlt)⟩, ?_⟩
      intro other
      rw [hsift.key?_eq hindexed, hkey]
    · have hsift := hindexed.rearranged_siftDown pos
      have hle := (hrank _ ⟨time, ring⟩ hring rfl).mpr (UInt64.not_lt.mp hbefore)
      refine ⟨⟨hsift.indexed, (h.ordered.replaced_later hlt hle).ordered_siftDown⟩, ?_⟩
      intro other
      rw [hsift.key?_eq hindexed, hkey]

end Valid

/-! ### Removing a ring -/

/-- The heap in which the entry to be removed has been exchanged with the last one. -/
def filled (heap : IndexedHeap) (pos : Nat) : IndexedHeap :=
  if pos = heap.size - 1 then heap else heap.swap pos (heap.size - 1)

/-- An entry is removed by the last one, which takes its place and sinks or rises from there. -/
theorem remove_of_position? (hpos : heap.position? ring = some pos) :
    (heap.remove ring).2 =
      if pos < ((heap.filled pos).shrunk ring).size then
        ((((heap.filled pos).shrunk ring).siftDown pos).siftUp pos)
      else (heap.filled pos).shrunk ring := by
  rw [remove, hpos]
  exact apply_ite Prod.snd (pos < ((heap.filled pos).shrunk ring).size)
    (heap.entries[pos]?, _) (heap.entries[pos]?, _)

/-- Without an entry there is nothing to remove. -/
theorem remove_of_position?_none (habsent : heap.position? ring = none) :
    (heap.remove ring).2 = heap := by
  simp only [remove, habsent]

/-- To fill the gap only moves entries about. -/
theorem Indexed.rearranged_filled (h : Indexed heap) (hpos : pos < heap.size) :
    Rearranged heap (heap.filled pos) := by
  unfold filled
  split_ifs
  · exact .refl h
  · exact h.rearranged_swap hpos (by omega)

/-- The entry to be removed is then the last one. -/
theorem Indexed.position?_filled (h : Indexed heap) (hpos : heap.position? ring = some pos) :
    (heap.filled pos).position? ring = some ((heap.filled pos).size - 1) := by
  have hlt := h.lt_size hpos
  rw [(h.rearranged_filled hlt).size]
  unfold filled
  split_ifs with hlast
  · rw [hpos, hlast]
  · rw [h.position?_swap hlt (by omega), hpos, Option.map_some, Equiv.swap_apply_left]

/-- Away from the place that was refilled nothing has moved. -/
theorem rankAt_filled_shrunk (hpos : pos < heap.size) {other : Nat} (hne : other ≠ pos)
    (hlt : other < heap.size - 1) :
    ((heap.filled pos).shrunk ring).rankAt other = heap.rankAt other := by
  unfold filled
  split_ifs
  · rw [rankAt, entryAt_shrunk hlt, rankAt]
  · rw [rankAt, entryAt_shrunk (by rwa [size_swap]), ← rankAt, rankAt_swap hpos (by omega),
      Equiv.swap_apply_of_ne_of_ne hne hlt.ne]

/-- Only the entry that fills the gap may be out of order. -/
theorem Ordered.filled_shrunk (h : Ordered heap) (ring : Nat) (hpos : pos < heap.size)
    (hsize : (heap.filled pos).size = heap.size) :
    OrderedExcept ((heap.filled pos).shrunk ring) pos
      fun child => child = pos ∨ parent child = pos := by
  refine ⟨?_, ?_⟩
  · intro child hchild hlt hne
    rw [size_shrunk, hsize] at hlt
    rcases not_or.mp hne with ⟨hself, hunder⟩
    have hup := parent_lt hchild
    rw [rankAt_filled_shrunk hpos hunder (by omega), rankAt_filled_shrunk hpos hself hlt]
    exact h child hchild (by omega)
  · intro hhole child hchild hlt hunder
    rw [size_shrunk, hsize] at hlt
    have hup := parent_lt hchild
    have habove := parent_lt hhole
    rw [rankAt_filled_shrunk hpos habove.ne (by omega),
      rankAt_filled_shrunk hpos (by omega) hlt]
    exact (h.except pos (· = pos)).bypass hhole child hchild (by omega) hunder

namespace Valid

/-- A removed ring is gone, the others are as before, and the heap stays valid. -/
theorem remove_spec (h : Valid heap) (ring : Nat) :
    Valid (heap.remove ring).2 ∧ ∀ other,
      (heap.remove ring).2.key? other = if ring = other then none else heap.key? other := by
  cases hpos : heap.position? ring with
  | none =>
    rw [remove_of_position?_none hpos]
    refine ⟨h, ?_⟩
    intro other
    split_ifs with hsame
    · rw [← hsame, h.indexed.key?_eq_map, hpos, Option.map_none]
    · rfl
  | some pos =>
    have hlt := h.indexed.lt_size hpos
    have hfilled := h.indexed.rearranged_filled hlt
    have hlast := h.indexed.position?_filled hpos
    have hindexed := hfilled.indexed.shrunk hlast
    have hexcept := h.ordered.filled_shrunk ring hlt hfilled.size
    have hkey : ∀ other, ((heap.filled pos).shrunk ring).key? other =
        if ring = other then none else heap.key? other := by
      intro other
      rw [hfilled.indexed.key?_shrunk hlast, hfilled.key?_eq h.indexed]
    rw [remove_of_position? hpos]
    split_ifs with hinside
    · have hdown := hindexed.rearranged_siftDown pos
      have hsift := hdown.trans (hdown.indexed.rearranged_siftUp (hdown.size.symm ▸ hinside))
      refine ⟨⟨hsift.indexed, hexcept.ordered_siftDown_siftUp hinside⟩, ?_⟩
      intro other
      rw [hsift.key?_eq hindexed, hkey]
    · refine ⟨⟨hindexed, ?_⟩, hkey⟩
      -- The entry removed was the last one, so it had no children.
      intro child hchild hclt
      have hup := parent_lt hchild
      exact hexcept.edge child hchild hclt (by omega)

/-- After a key is set, the heap is in order and finds every ring. -/
theorem set (h : Valid heap) (ring : Nat) (time : UInt64) : Valid (heap.set ring time) :=
  (h.set_spec ring time).1

/-- It changed the key of its ring alone. -/
theorem key?_set (h : Valid heap) (ring : Nat) (time : UInt64) (other : Nat) :
    (heap.set ring time).key? other = if ring = other then some time else heap.key? other :=
  (h.set_spec ring time).2 other

/-- The same holds after an entry is removed. -/
theorem remove (h : Valid heap) (ring : Nat) : Valid (heap.remove ring).2 :=
  (h.remove_spec ring).1

/-- It took the key of its ring alone. -/
theorem key?_remove (h : Valid heap) (ring other : Nat) :
    (heap.remove ring).2.key? other = if ring = other then none else heap.key? other :=
  (h.remove_spec ring).2 other

/-! ### The first entry -/

/-- The entry that comes out first lies at the first place. -/
theorem peek?_eq_some_iff {entry : Entry} :
    heap.peek? = some entry ↔ 0 < heap.size ∧ heap.entryAt 0 = entry := by
  rw [peek?, Array.getElem?_eq_some_iff]
  constructor
  · rintro ⟨hlt, heq⟩
    exact ⟨hlt, (entryAt_of_lt hlt).trans heq⟩
  · rintro ⟨hlt, heq⟩
    exact ⟨hlt, (entryAt_of_lt hlt).symm.trans heq⟩

/-- The first entry is one of the map. -/
theorem key?_of_peek? (h : Valid heap) {entry : Entry} (hpeek : heap.peek? = some entry) :
    heap.key? entry.ring = some entry.time := by
  rcases peek?_eq_some_iff.mp hpeek with ⟨hlt, rfl⟩
  exact h.indexed.key?_eq_some_iff.mpr (entryAt_mem hlt)

/-- The first entry is the least of the map. -/
theorem le_of_peek? (h : Valid heap) {entry : Entry} (hpeek : heap.peek? = some entry)
    {time : UInt64} (hkey : heap.key? ring = some time) :
    entry.rank ≤ Entry.rank ⟨time, ring⟩ := by
  rcases peek?_eq_some_iff.mp hpeek with ⟨hlt, rfl⟩
  rcases mem_entries_iff.mp (h.indexed.key?_eq_some_iff.mp hkey) with ⟨pos, hpos, heq⟩
  rw [← heq]
  exact h.ordered.rankAt_zero_le hpos

/-- There is no first entry exactly if the map is empty. -/
theorem peek?_eq_none_iff (h : Valid heap) :
    heap.peek? = none ↔ ∀ ring, heap.key? ring = none := by
  constructor
  · intro hnone ring
    refine h.indexed.key?_eq_none_iff.mpr ?_
    intro entry hmem
    rcases mem_entries_iff.mp hmem with ⟨pos, hpos, -⟩
    unfold size at hpos
    rw [peek?, Array.getElem?_eq_none_iff] at hnone
    omega
  · intro hall
    rw [Option.eq_none_iff_forall_ne_some]
    intro entry hpeek
    exact Option.some_ne_none _ ((h.key?_of_peek? hpeek).symm.trans (hall entry.ring))

/-- A heap is empty if none comes out. -/
theorem isEmpty_iff_peek? : heap.isEmpty = true ↔ heap.peek? = none := by
  rw [isEmpty, decide_eq_true_eq, peek?, Array.getElem?_eq_none_iff, Nat.le_zero, size]

end Valid

end IndexedHeap

end CacheMeter.Merge
