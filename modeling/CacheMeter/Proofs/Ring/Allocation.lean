import Mathlib
import CacheMeter.Proofs.Ring.Addressing

/-!
# Memory laid out for a ring

A region that was laid out for a ring is checked again when a side of the ring binds to it.  The
two agree: pages of a power of two, as many as another power of two, make a region that every
side can bind to, whether its metadata takes one page or is told where it ends.

Main results:

- Structure `Region.LaidOut`: the geometry of a region with given pages.
- Theorem `Region.laidOut_of_allocate`: what is laid out has the geometry asked for.
- Theorem `Region.Allotted.attach`: a side that binds to it sees all of its data pages.
-/

namespace CacheMeter.Ring

namespace Region

/-! ## Room for metadata -/

/-- The metadata block fits into the pages set aside for it. -/
theorem le_metadataSize {page : Nat} (hpos : 0 < page) : Metadata.size ≤ metadataSize page := by
  have hdiv := Nat.div_add_mod' (Metadata.size + page - 1) page
  have hmod := Nat.mod_lt (Metadata.size + page - 1) hpos
  unfold metadataSize
  omega

/-! ## Geometry -/

/-- The geometry of a region with some data pages behind its metadata. -/
structure LaidOut (dataPages : UInt32) (pageSize : UInt64) (region : Region) : Prop where
  base_eq : region.base = some 0
  size_eq : region.size = metadataSize pageSize.toNat + pageSize.toNat * dataPages.toNat
  dataPages_eq : region.dataPages = dataPages
  pageSize_eq : region.pageSize = pageSize
  dataStart_eq : View.dataStartOf region pageSize = metadataSize pageSize.toNat
  data_le : pageSize.toNat * dataPages.toNat ≤ maxWord

variable {dataPages : UInt32} {pageSize : UInt64} {region region' : Region}

/-- What is written to a ring, and how far it was read, does not matter. -/
theorem LaidOut.congr (h : LaidOut dataPages pageSize region)
    (hgeometry : SameGeometry region' region) : LaidOut dataPages pageSize region' where
  base_eq := hgeometry.base.trans h.base_eq
  size_eq := hgeometry.size.trans h.size_eq
  dataPages_eq := hgeometry.dataPages.trans h.dataPages_eq
  pageSize_eq := hgeometry.pageSize.trans h.pageSize_eq
  dataStart_eq := by
    have hstart := h.dataStart_eq
    rw [View.dataStartOf] at hstart ⊢
    rwa [hgeometry.dataOffset]
  data_le := h.data_le

/-- A side can bind to it if its data pages are a power of two of bytes. -/
theorem LaidOut.attach (h : LaidOut dataPages pageSize region)
    (hpow : (dataPages.toNat * pageSize.toNat).isPowerOfTwo)
    (hlarge : 8 ≤ dataPages.toNat * pageSize.toNat) :
    View.attach region =
      .ok
        { dataStart := metadataSize pageSize.toNat
          capacity := dataPages.toNat * pageSize.toNat
          readPos := region.tail
          writePos := region.head } := by
  obtain ⟨hbase, hsize, hcount, hwidth, hstart, hdata⟩ := h
  have hpage : 0 < pageSize.toNat := Nat.pos_of_mul_pos_left (Nat.lt_of_lt_of_le (by decide) hlarge)
  have hroom := le_metadataSize hpage
  rw [Nat.mul_comm] at hsize hdata
  have hsome : region.size ≠ 0 := by omega
  rw [View.attach_eq_ok_iff]
  exact ⟨⟨by simp [hbase], by simp [isEmpty, hsome], by simp [isAligned, hbase]⟩,
    ⟨hpow, hlarge, hdata⟩,
    ⟨by omega, hroom, by rw [hsize]; exact Nat.min_le_left _ _⟩,
    by rw [hcount, hwidth, hstart]⟩

/-- Memory that was never written to holds zeros. -/
theorem word64_zeroed (size skew : Nat) (dataPages : UInt32) (pageSize : UInt64) (offset : Nat) :
    (zeroed size skew dataPages pageSize).word64 offset = 0 := by
  have hload : (zeroed size skew dataPages pageSize).load offset 8 = List.replicate 8 0 := by
    simp [load, gather, zeroed, Cells.get, List.map_const']
  rw [word64, hload]
  decide

/-- What is laid out has the geometry asked for. -/
theorem laidOut_of_allocate (h : allocate dataPages pageSize = .ok region) :
    LaidOut dataPages pageSize region := by
  unfold allocate at h
  dsimp only at h
  split_ifs at h with hpage hdata htotal hlimit hone
  · -- The metadata takes one page, and its fields stay zero.
    obtain rfl := Except.ok.inj h
    refine ⟨rfl, rfl, rfl, rfl, ?_, ?_⟩
    · have hnone : (zeroed (metadataSize pageSize.toNat + pageSize.toNat * dataPages.toNat) 0
          dataPages pageSize).metadata.dataOffset = 0 := word64_zeroed _ _ _ _ _
      rw [View.dataStartOf, hnone, if_pos rfl, hone]
    · rw [maxWord]
      omega
  · -- The metadata takes several pages, and their size is advertised.
    obtain rfl := Except.ok.inj h
    have hroom := le_metadataSize (Nat.pos_of_ne_zero hpage)
    have hword : (UInt64.ofNat (metadataSize pageSize.toNat)).toNat =
        metadataSize pageSize.toNat := UInt64.toNat_ofNat_of_lt' (by omega)
    have hadvertised (fresh : Region) (size : Nat) :
        ((fresh.store Metadata.dataOffsetOffset
            (Bytes.littleEndian 8 (metadataSize pageSize.toNat))).store
          Metadata.dataSizeOffset (Bytes.littleEndian 8 size)).metadata.dataOffset =
            UInt64.ofNat (metadataSize pageSize.toNat) := by
      rw [metadata, word64, load_store_of_disjoint]
      · conv_lhs => rw [← hword]
        exact fresh.word64_store_self _ _
      · simp [Metadata.dataOffsetOffset, Metadata.dataSizeOffset]
    have hsome : UInt64.ofNat (metadataSize pageSize.toNat) ≠ 0 := by
      intro hzero
      rw [hzero, UInt64.toNat_zero] at hword
      rw [← hword] at hroom
      exact absurd hroom (by decide)
    refine ⟨rfl, rfl, rfl, rfl, ?_, ?_⟩
    · rw [View.dataStartOf, hadvertised, if_neg hsome, hword]
    · rw [maxWord]
      omega

theorem isPowerOfTwo_mul {m n : Nat} (hm : m.isPowerOfTwo) (hn : n.isPowerOfTwo) :
    (m * n).isPowerOfTwo := by
  obtain ⟨i, rfl⟩ := hm
  obtain ⟨j, rfl⟩ := hn
  exact ⟨i + j, (Nat.pow_add 2 i j).symm⟩

/-- Memory that was laid out for a ring with pages of a usable size, whatever was written to it
since. -/
structure Allotted (dataPages : UInt32) (pageSize : UInt64) (region : Region) : Prop where
  pageSize_pow : pageSize.toNat.isPowerOfTwo
  pageSize_ge : 8 ≤ pageSize.toNat
  allocated : ∃ fresh, allocate dataPages pageSize = .ok fresh ∧ SameGeometry region fresh

/-- Once it was laid out with a power of two of pages, every side can bind to it.  The side sees
all of the data pages and takes the cursors published there. -/
theorem Allotted.attach (h : Allotted dataPages pageSize region)
    (hpages : dataPages.toNat.isPowerOfTwo) :
    View.attach region =
      .ok
        { dataStart := metadataSize pageSize.toNat
          capacity := dataPages.toNat * pageSize.toNat
          readPos := region.tail
          writePos := region.head } := by
  obtain ⟨hpage, hlarge, fresh, hfresh, hgeometry⟩ := h
  have hcapacity : 8 ≤ dataPages.toNat * pageSize.toNat :=
    hlarge.trans (Nat.le_mul_of_pos_left _ (Nat.pos_of_isPowerOfTwo hpages))
  exact ((laidOut_of_allocate hfresh).congr hgeometry).attach (isPowerOfTwo_mul hpages hpage)
    hcapacity

end Region

end CacheMeter.Ring
