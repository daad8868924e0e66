import Mathlib
import CacheMeter.Ring.View

/-!
# Positions and places in a ring

Cursors are words, so they wrap at `2 ^ 64`, and they are reduced modulo the
capacity to find a place in the data region.  Reasoning about records is done on
the unwrapped timeline instead, where a position is a natural number that only
grows.  This module relates the two and says which bytes a write changes.

Main results:

- Theorem `View.place_ofNat`: the place of a wrapped cursor is the unwrapped
  position modulo the capacity.
- Theorem `get_scatter`: bytes are read back from where they were scattered.
- Theorems `Region.head_publishHead` and its relatives: publishing one cursor
  leaves the other one and the geometry alone.
- Theorem `View.attach_congr`: binding depends on the geometry and the published
  cursors only.
-/

namespace CacheMeter.Ring

/-! ## Unwrapped positions -/

/-- Positions less than a capacity apart have different places. -/
theorem mod_ne_mod_of_lt {p q capacity : Nat} (hpq : p < q) (hq : q < p + capacity) :
    p % capacity ≠ q % capacity := by
  intro heq
  have hdvd : capacity ∣ q - p := (Nat.modEq_iff_dvd' hpq.le).mp heq
  have hle := Nat.le_of_dvd (by omega) hdvd
  omega

/-- The distance of two wrapped positions is their distance before wrapping. -/
theorem toNat_ofNat_sub_ofNat {r w : Nat} (hrw : r ≤ w) (hlt : w - r < UInt64.size) :
    (UInt64.ofNat w - UInt64.ofNat r).toNat = w - r := by
  rw [← UInt64.ofNat_sub hrw]
  exact UInt64.toNat_ofNat_of_lt' hlt

/-- A power of two that is a word divides the full turn. -/
theorem dvd_size_of_isPowerOfTwo {capacity : Nat} (hpow : capacity.isPowerOfTwo)
    (hle : capacity ≤ maxWord) : capacity ∣ UInt64.size := by
  rcases hpow with ⟨k, rfl⟩
  have hk : k < 64 := by
    by_contra hge
    have hbig : 2 ^ 64 ≤ 2 ^ k := Nat.pow_le_pow_right (by omega) (by omega)
    simp only [maxWord, UInt64.size] at hle
    omega
  exact pow_dvd_pow 2 hk.le

namespace View

/-- The place of a wrapped cursor is the unwrapped position modulo the capacity. -/
theorem place_ofNat (view : View) (hdvd : view.capacity ∣ UInt64.size) (p i : Nat) :
    view.place (UInt64.ofNat p) i = view.dataStart + (p + i) % view.capacity := by
  have hmod : ((UInt64.ofNat p).toNat + i) % view.capacity = (p + i) % view.capacity := by
    rw [UInt64.toNat_ofNat', Nat.add_mod, Nat.mod_mod_of_dvd _ hdvd, ← Nat.add_mod]
  rw [place, hmod]

end View

/-! ## Bytes that were scattered -/

/-- Bytes are read back from the places they were scattered to, as long as no two of
them share a place. -/
theorem get_scatter (place : Nat → Nat) (i : Nat) {bytes : Bytes} (cells : Cells)
    (hdistinct : ∀ k l, k < l → l < bytes.length → place (i + k) ≠ place (i + l))
    {k : Nat} (hk : k < bytes.length) :
    (scatter place i bytes cells).get (place (i + k)) = bytes[k] := by
  induction bytes generalizing i k cells with
  | nil => simp at hk
  | cons byte rest ih =>
    rw [scatter]
    cases k with
    | zero =>
      rw [get_scatter_of_ne]
      · simp [Cells.get_set]
      · intro l hl heq
        apply hdistinct 0 (l + 1) (by omega) (by simpa using hl)
        have hplace : place (i + (l + 1)) = place (i + 1 + l) := by
          congr 1
          omega
        rw [hplace, heq]
    | succ k =>
      have hplace : place (i + (k + 1)) = place (i + 1 + k) := by
        congr 1
        omega
      rw [hplace, ih]
      · simp
      · intro a b hab hb heq
        apply hdistinct (a + 1) (b + 1) (by omega) (by simpa using hb)
        convert heq using 2 <;> omega
      · simpa using hk

/-- Cells that agree on all places of a run give the same bytes. -/
theorem gather_congr {cells cells' : Cells} {place place' : Nat → Nat} {count : Nat}
    (h : ∀ i < count, cells.get (place i) = cells'.get (place' i)) :
    gather cells place count = gather cells' place' count := by
  apply List.map_congr_left
  intro i hi
  exact h i (List.mem_range.mp hi)

/-- What is gathered are the cells, place by place. -/
@[simp]
theorem getElem_gather (cells : Cells) (place : Nat → Nat) (count i : Nat)
    (hi : i < (gather cells place count).length) :
    (gather cells place count)[i] = cells.get (place i) := by
  simp [gather]

/-! ## Linear access -/

namespace Region

/-- What was stored is loaded again. -/
theorem load_store_self (region : Region) (offset : Nat) (bytes : Bytes) :
    (region.store offset bytes).load offset bytes.length = bytes := by
  apply List.ext_getElem (by simp [load])
  intro i h₁ h₂
  have hread := get_scatter (fun j => offset + j) 0 region.cells (by intros; omega) h₂
  simpa [load, store] using hread

/-- Loading from elsewhere does not see a store. -/
theorem load_store_of_disjoint (region : Region) {offset other count : Nat} {bytes : Bytes}
    (h : other + count ≤ offset ∨ offset + bytes.length ≤ other) :
    (region.store offset bytes).load other count = region.load other count := by
  apply gather_congr
  intro i hi
  apply get_scatter_of_ne
  intro k hk
  omega

/-- Loading below the data region depends on the cells there only. -/
theorem load_congr {region region' : Region} {offset count bound : Nat}
    (hcells : ∀ address < bound, region.cells.get address = region'.cells.get address)
    (hbound : offset + count ≤ bound) :
    region.load offset count = region'.load offset count := by
  apply gather_congr
  intro i hi
  exact hcells _ (by omega)

/-- A word that was stored is loaded again. -/
theorem word64_store_self (region : Region) (offset : Nat) (word : UInt64) :
    (region.store offset (Bytes.ofWord64 word)).word64 offset = word := by
  have hload := region.load_store_self offset (Bytes.ofWord64 word)
  rw [Bytes.length_ofWord64] at hload
  rw [word64, hload]
  simpa using Bytes.word64At_append [] [] word rfl

/-- A word elsewhere stays. -/
theorem word64_store_of_disjoint (region : Region) {offset other : Nat} {word : UInt64}
    (h : other + 8 ≤ offset ∨ offset + 8 ≤ other) :
    (region.store offset (Bytes.ofWord64 word)).word64 other = region.word64 other := by
  rw [word64, word64, load_store_of_disjoint]
  simpa using h

/-! ## Published cursors -/

/-- A write cursor that is published is there. -/
@[simp]
theorem head_publishHead (region : Region) (cursor : UInt64) :
    (region.publishHead cursor).head = cursor :=
  region.word64_store_self Metadata.headOffset cursor

/-- It leaves the read cursor. -/
@[simp]
theorem tail_publishHead (region : Region) (cursor : UInt64) :
    (region.publishHead cursor).tail = region.tail :=
  region.word64_store_of_disjoint (by simp [Metadata.headOffset, Metadata.tailOffset])

/-- A read cursor that is published is there. -/
@[simp]
theorem tail_publishTail (region : Region) (cursor : UInt64) :
    (region.publishTail cursor).tail = cursor :=
  region.word64_store_self Metadata.tailOffset cursor

/-- It leaves the write cursor. -/
@[simp]
theorem head_publishTail (region : Region) (cursor : UInt64) :
    (region.publishTail cursor).head = region.head :=
  region.word64_store_of_disjoint (by simp [Metadata.headOffset, Metadata.tailOffset])

/-- Publishing changes no cell past the metadata block. -/
theorem get_cells_publishHead (region : Region) (cursor : UInt64) {address : Nat}
    (h : Metadata.size ≤ address) :
    (region.publishHead cursor).cells.get address = region.cells.get address := by
  apply get_scatter_of_ne
  intro k hk
  simp only [Metadata.size, Metadata.headOffset, Bytes.length_ofWord64] at *
  omega

/-- Releasing changes no cell past the metadata block. -/
theorem get_cells_publishTail (region : Region) (cursor : UInt64) {address : Nat}
    (h : Metadata.size ≤ address) :
    (region.publishTail cursor).cells.get address = region.cells.get address := by
  apply get_scatter_of_ne
  intro k hk
  simp only [Metadata.size, Metadata.tailOffset, Bytes.length_ofWord64] at *
  omega

/-! ## Geometry -/

/-- Two regions that differ at most in published cursors and data. -/
structure SameGeometry (region region' : Region) : Prop where
  base : region.base = region'.base
  size : region.size = region'.size
  dataPages : region.dataPages = region'.dataPages
  pageSize : region.pageSize = region'.pageSize
  dataOffset : region.metadata.dataOffset = region'.metadata.dataOffset

/-- A region has its own geometry. -/
theorem SameGeometry.refl (region : Region) : SameGeometry region region :=
  ⟨rfl, rfl, rfl, rfl, rfl⟩

/-- Regions with the geometry of a third have the same. -/
theorem SameGeometry.trans {first second third : Region}
    (h₁ : SameGeometry first second) (h₂ : SameGeometry second third) :
    SameGeometry first third where
  base := h₁.base.trans h₂.base
  size := h₁.size.trans h₂.size
  dataPages := h₁.dataPages.trans h₂.dataPages
  pageSize := h₁.pageSize.trans h₂.pageSize
  dataOffset := h₁.dataOffset.trans h₂.dataOffset

/-- To publish a write cursor changes no geometry. -/
theorem sameGeometry_publishHead (region : Region) (cursor : UInt64) :
    SameGeometry (region.publishHead cursor) region where
  base := rfl
  size := rfl
  dataPages := rfl
  pageSize := rfl
  dataOffset := region.word64_store_of_disjoint
    (by simp [Metadata.headOffset, Metadata.dataOffsetOffset])

/-- To publish a read cursor changes none either. -/
theorem sameGeometry_publishTail (region : Region) (cursor : UInt64) :
    SameGeometry (region.publishTail cursor) region where
  base := rfl
  size := rfl
  dataPages := rfl
  pageSize := rfl
  dataOffset := region.word64_store_of_disjoint
    (by simp [Metadata.tailOffset, Metadata.dataOffsetOffset])

/-- Changing cells past the metadata block keeps geometry and published cursors. -/
theorem sameGeometry_of_cells {region : Region} {cells : Cells}
    (hcells : ∀ address < Metadata.size, cells.get address = region.cells.get address) :
    SameGeometry { region with cells := cells } region where
  base := rfl
  size := rfl
  dataPages := rfl
  pageSize := rfl
  dataOffset := by
    have hload : load { region with cells := cells } Metadata.dataOffsetOffset 8 =
        region.load Metadata.dataOffsetOffset 8 :=
      load_congr hcells (by simp [Metadata.size, Metadata.dataOffsetOffset])
    simp only [metadata, word64, hload]

/-- The write cursor depends on the metadata alone. -/
theorem head_of_cells {region : Region} {cells : Cells}
    (hcells : ∀ address < Metadata.size, cells.get address = region.cells.get address) :
    Region.head { region with cells := cells } = region.head := by
  have hload : load { region with cells := cells } Metadata.headOffset 8 =
      region.load Metadata.headOffset 8 :=
    load_congr hcells (by simp [Metadata.size, Metadata.headOffset])
  simp only [head, word64, hload]

/-- So does the read cursor. -/
theorem tail_of_cells {region : Region} {cells : Cells}
    (hcells : ∀ address < Metadata.size, cells.get address = region.cells.get address) :
    Region.tail { region with cells := cells } = region.tail := by
  have hload : load { region with cells := cells } Metadata.tailOffset 8 =
      region.load Metadata.tailOffset 8 :=
    load_congr hcells (by simp [Metadata.size, Metadata.tailOffset])
  simp only [tail, word64, hload]

end Region

/-! ## Binding -/

namespace View

/-- Binding succeeds on exactly the sound geometries, and takes the published
cursors. -/
theorem attach_eq_ok_iff {region : Region} {view : View} :
    attach region = .ok view ↔
      (region.base.isSome ∧ region.isEmpty = false ∧ region.isAligned = true) ∧
        (view.capacity.isPowerOfTwo ∧ 8 ≤ view.capacity ∧ view.capacity ≤ maxWord) ∧
        (Metadata.size ≤ region.size ∧ Metadata.size ≤ view.dataStart ∧
          min (view.dataStart + view.capacity) maxWord ≤ region.size) ∧
        view =
          { dataStart := dataStartOf region region.pageSize
            capacity := region.dataPages.toNat * region.pageSize.toNat
            readPos := region.tail
            writePos := region.head } := by
  unfold attach bind
  dsimp only
  constructor
  · intro h
    split_ifs at h with hmemory hcapacity haligned hsize hdata
    simp only [Except.ok.injEq] at h
    subst h
    simp only [Bool.or_eq_true, decide_eq_true_eq, Bool.not_eq_true', not_or, Nat.not_lt,
      decide_eq_false_iff_not, not_not, Bool.not_eq_true, Option.isNone_eq_false_iff,
      Bool.not_eq_false] at hmemory hcapacity haligned hsize hdata
    dsimp only
    exact ⟨⟨hmemory.1, hmemory.2, haligned⟩, ⟨hcapacity.2, hcapacity.1.2, hcapacity.1.1⟩,
      ⟨hsize, hdata⟩, rfl⟩
  · rintro ⟨⟨hbase, hempty, haligned⟩, ⟨hpow, hmin, hmax⟩, ⟨hsize, hdata⟩, rfl⟩
    dsimp only at *
    rw [if_neg, if_neg, if_neg, if_neg, if_neg]
    · simpa only [Bool.or_eq_true, decide_eq_true_eq, not_or, Nat.not_lt] using hdata
    · simpa only [Nat.not_lt] using hsize
    · simpa only [Bool.not_eq_true', Bool.not_eq_false] using haligned
    · simpa only [Bool.or_eq_true, decide_eq_true_eq, Bool.not_eq_true', not_or, Nat.not_lt,
        decide_eq_false_iff_not, not_not] using And.intro (And.intro hmax hmin) hpow
    · simpa only [Bool.or_eq_true, not_or, Bool.not_eq_true, Option.isNone_eq_false_iff]
        using And.intro hbase hempty

/-- A region of the same geometry is bound alike, with the cursors it publishes. -/
theorem attach_congr {region region' : Region} {view : View} {readPos writePos : UInt64}
    (hgeometry : Region.SameGeometry region' region)
    (h : attach region = .ok { view with readPos := readPos, writePos := writePos }) :
    attach region' = .ok { view with readPos := region'.tail, writePos := region'.head } := by
  rcases hgeometry with ⟨hbase, hsize, hpages, hpage, hoffset⟩
  rw [attach_eq_ok_iff] at h ⊢
  rcases h with ⟨hmemory, hcapacity, hbounds, hview⟩
  simp only [View.mk.injEq] at hview
  rcases hview with ⟨hstart, hpower, -, -⟩
  simp only [Region.isEmpty, Region.isAligned, dataStartOf, hbase, hsize, hpages, hpage,
    hoffset] at hmemory hcapacity hbounds hstart hpower ⊢
  exact ⟨hmemory, hcapacity, hbounds, by rw [hstart, hpower]⟩

end View

end CacheMeter.Ring
