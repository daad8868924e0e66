import Mathlib
import CacheMeter.Proofs.Ring.Appending

/-!
# Accesses to the data region

A side of a ring reads and writes bytes from a cursor on.  The low bits of the cursor say where in
the data region they start, and where the region ends they go on from its beginning.  So an access
to no more bytes than the region has is one to two runs of memory, both inside the region.

Main results:

- Definitions `View.firstRun` and `View.restRun`: the two runs of an access.
- Theorem `View.copyOut_eq_loads`: reading bytes is loading the two runs.
- Theorem `View.scatter_eq_stores`: writing bytes is storing to the two runs.
- Structure `View.Enclosed`: every access of a side stays in the data region.
- Theorem `View.enclosed`: so it is wherever the geometry is sound, for any cursors.
-/

namespace CacheMeter.Ring

/-! ## Runs of memory -/

/-- Bytes of memory one after the other. -/
structure Run where
  start : Nat
  count : Nat
deriving DecidableEq, Repr

/-- The bytes of a run. -/
def Region.loadRun (region : Region) (run : Run) : Bytes :=
  region.load run.start run.count

/-- Writing the same bytes to the same places, whichever way the places are numbered. -/
theorem scatter_congr {place place' : Nat → Nat} {i j : Nat} {bytes : Bytes} {cells : Cells}
    (h : ∀ k < bytes.length, place (i + k) = place' (j + k)) :
    scatter place i bytes cells = scatter place' j bytes cells := by
  induction bytes generalizing i j cells with
  | nil => rfl
  | cons byte rest ih =>
    have hfirst : place i = place' j := h 0 (Nat.zero_lt_succ _)
    rw [scatter, scatter, hfirst]
    apply ih
    intro k hk
    rw [Nat.add_assoc, Nat.add_assoc, Nat.add_comm 1 k]
    exact h (k + 1) (Nat.succ_lt_succ hk)

/-- A run of places is cut anywhere into two. -/
theorem gather_add (cells : Cells) (place : Nat → Nat) (m n : Nat) :
    gather cells place (m + n) =
      gather cells place m ++ gather cells (fun i => place (m + i)) n := by
  rw [gather, List.range_add, List.map_append, List.map_map]
  rfl

/-- Bytes are scattered one part after the other. -/
theorem scatter_append {place : Nat → Nat} (i : Nat) (front back : Bytes) (cells : Cells) :
    scatter place i (front ++ back) cells =
      scatter place (i + front.length) back (scatter place i front cells) := by
  induction front generalizing i cells with
  | nil => rfl
  | cons byte rest ih =>
    rw [List.cons_append, scatter, scatter, ih, List.length_cons, Nat.add_assoc,
      Nat.add_comm 1 rest.length]

namespace View

variable {view : View} {region region' : Region}

/-! ## The runs of an access -/

/-- Where in the data region a cursor points: its low bits. -/
def offsetOf (view : View) (cursor : UInt64) : Nat :=
  (cursor &&& (UInt64.ofNat view.capacity - 1)).toNat

/-- The bytes of an access that lie before the end of the data region. -/
def firstRun (view : View) (cursor : UInt64) (count : Nat) : Run where
  start := view.dataStart + view.offsetOf cursor
  count := min count (view.capacity - view.offsetOf cursor)

/-- The bytes of an access that are left for the beginning of the data region. -/
def restRun (view : View) (cursor : UInt64) (count : Nat) : Run where
  start := view.dataStart
  count := count - min count (view.capacity - view.offsetOf cursor)

/-- The run lies in the data region. -/
def Encloses (view : View) (run : Run) : Prop :=
  view.dataStart ≤ run.start ∧ run.start + run.count ≤ view.dataStart + view.capacity

/-- The low bits of a cursor are what is left of it modulo a power of two. -/
theorem offsetOf_eq (hpow : view.capacity.isPowerOfTwo) (hle : view.capacity ≤ maxWord)
    (cursor : UInt64) : view.offsetOf cursor = cursor.toNat % view.capacity := by
  have hpos := Nat.pos_of_isPowerOfTwo hpow
  have hlt : view.capacity < UInt64.size := by
    unfold maxWord at hle
    omega
  have hone : (1 : UInt64) ≤ UInt64.ofNat view.capacity := by
    rw [UInt64.le_iff_toNat_le, UInt64.toNat_ofNat_of_lt' hlt]
    exact hpos
  have hmask : (UInt64.ofNat view.capacity - 1).toNat = view.capacity - 1 := by
    rw [UInt64.toNat_sub_of_le _ _ hone, UInt64.toNat_ofNat_of_lt' hlt]
    rfl
  rcases hpow with ⟨k, hk⟩
  rw [offsetOf, UInt64.toNat_and, hmask, hk, Nat.and_two_pow_sub_one_eq_mod]

/-- Masked, a cursor lies within the capacity. -/
theorem offsetOf_lt (hpow : view.capacity.isPowerOfTwo) (hle : view.capacity ≤ maxWord)
    (cursor : UInt64) : view.offsetOf cursor < view.capacity := by
  rw [offsetOf_eq hpow hle]
  exact Nat.mod_lt _ (Nat.pos_of_isPowerOfTwo hpow)

/-- A place is counted from the offset of the cursor, … -/
theorem place_eq (hpow : view.capacity.isPowerOfTwo) (hle : view.capacity ≤ maxWord)
    (cursor : UInt64) (i : Nat) :
    view.place cursor i = view.dataStart + (view.offsetOf cursor + i) % view.capacity := by
  rw [place, offsetOf_eq hpow hle, Nat.mod_add_mod]

/-- … so the first bytes lie in the first run … -/
theorem place_firstRun (hpow : view.capacity.isPowerOfTwo) (hle : view.capacity ≤ maxWord)
    (cursor : UInt64) {count i : Nat} (hi : i < (view.firstRun cursor count).count) :
    view.place cursor i = (view.firstRun cursor count).start + i := by
  unfold firstRun at hi ⊢
  dsimp only at hi ⊢
  rw [place_eq hpow hle, Nat.mod_eq_of_lt (by omega), Nat.add_assoc]

/-- … and the others in the second one. -/
theorem place_restRun (hpow : view.capacity.isPowerOfTwo) (hle : view.capacity ≤ maxWord)
    (cursor : UInt64) {count i : Nat} (hcount : count ≤ view.capacity)
    (hi : i < (view.restRun cursor count).count) :
    view.place cursor ((view.firstRun cursor count).count + i) =
      (view.restRun cursor count).start + i := by
  have hlt := offsetOf_lt hpow hle cursor
  unfold restRun at hi ⊢
  unfold firstRun
  dsimp only at hi ⊢
  rw [place_eq hpow hle, Nat.mod_eq_sub_mod (by omega), Nat.mod_eq_of_lt (by omega)]
  omega

/-- The two runs have all bytes of the access. -/
theorem count_runs (view : View) (cursor : UInt64) (count : Nat) :
    (view.firstRun cursor count).count + (view.restRun cursor count).count = count := by
  unfold firstRun restRun
  dsimp only
  omega

/-- Both runs of an access lie in the data region. -/
theorem encloses_runs (hpow : view.capacity.isPowerOfTwo) (hle : view.capacity ≤ maxWord)
    (cursor : UInt64) {count : Nat} (hcount : count ≤ view.capacity) :
    view.Encloses (view.firstRun cursor count) ∧ view.Encloses (view.restRun cursor count) := by
  have hlt := offsetOf_lt hpow hle cursor
  unfold Encloses firstRun restRun
  dsimp only
  omega

/-! ## Reading and writing the runs -/

/-- A number of bytes behind a cursor is behind the cursor moved by them. -/
theorem place_add (hdvd : view.capacity ∣ UInt64.size) (cursor : UInt64) (offset i : Nat) :
    view.place cursor (offset + i) = view.place (cursor + UInt64.ofNat offset) i := by
  have hcursor : cursor + UInt64.ofNat offset = UInt64.ofNat (cursor.toNat + offset) := by
    rw [UInt64.ofNat_add, UInt64.ofNat_toNat]
  rw [hcursor, place_ofNat view hdvd, place, Nat.add_assoc]

/-- Reading bytes is loading the two runs. -/
theorem copyOut_eq_loads (hpow : view.capacity.isPowerOfTwo) (hle : view.capacity ≤ maxWord)
    (region : Region) (offset : Nat) {count : Nat} (hcount : count ≤ view.capacity) :
    view.copyOut region offset count =
      region.loadRun (view.firstRun (view.readPos + UInt64.ofNat offset) count) ++
        region.loadRun (view.restRun (view.readPos + UInt64.ofNat offset) count) := by
  have hdvd := dvd_size_of_isPowerOfTwo hpow hle
  rw [copyOut]
  simp only [place_add hdvd]
  generalize view.readPos + UInt64.ofNat offset = cursor
  conv_lhs => rw [← count_runs view cursor count, gather_add]
  rw [Region.loadRun, Region.loadRun, Region.load, Region.load]
  congr 1
  · apply gather_congr
    intro i hi
    rw [place_firstRun hpow hle cursor hi]
  · apply gather_congr
    intro i hi
    rw [place_restRun hpow hle cursor hcount hi]

/-- Writing bytes is storing to the two runs. -/
theorem scatter_eq_stores (hpow : view.capacity.isPowerOfTwo) (hle : view.capacity ≤ maxWord)
    (region : Region) (cursor : UInt64) {bytes : Bytes} (hfit : bytes.length ≤ view.capacity) :
    { region with cells := scatter (view.place cursor) 0 bytes region.cells } =
      (region.store (view.firstRun cursor bytes.length).start
          (bytes.take (view.firstRun cursor bytes.length).count)).store
        (view.restRun cursor bytes.length).start
        (bytes.drop (view.firstRun cursor bytes.length).count) := by
  have hcount := count_runs view cursor bytes.length
  have hfirst : ∀ i < (view.firstRun cursor bytes.length).count,
      view.place cursor i = (view.firstRun cursor bytes.length).start + i :=
    fun _ hi => place_firstRun hpow hle cursor hi
  have hrest : ∀ i < (view.restRun cursor bytes.length).count,
      view.place cursor ((view.firstRun cursor bytes.length).count + i) =
        (view.restRun cursor bytes.length).start + i :=
    fun _ hi => place_restRun hpow hle cursor hfit hi
  generalize view.firstRun cursor bytes.length = first at *
  generalize view.restRun cursor bytes.length = rest at *
  have hlength : (bytes.take first.count).length = first.count := by
    rw [List.length_take]
    omega
  have hfront : scatter (view.place cursor) 0 (bytes.take first.count) region.cells =
      scatter (fun i => first.start + i) 0 (bytes.take first.count) region.cells := by
    apply scatter_congr
    intro k hk
    rw [hlength] at hk
    rw [Nat.zero_add, hfirst k hk]
  have hback (cells : Cells) :
      scatter (view.place cursor) (0 + first.count) (bytes.drop first.count) cells =
        scatter (fun i => rest.start + i) 0 (bytes.drop first.count) cells := by
    apply scatter_congr
    intro k hk
    rw [List.length_drop] at hk
    rw [Nat.zero_add, hrest k (by omega), Nat.zero_add]
  have hcells : scatter (view.place cursor) 0 bytes region.cells =
      scatter (fun i => rest.start + i) 0 (bytes.drop first.count)
        (scatter (fun i => first.start + i) 0 (bytes.take first.count) region.cells) := by
    conv_lhs => rw [← List.take_append_drop first.count bytes, scatter_append, hlength]
    rw [hfront, hback]
  rw [hcells]
  rfl

/-! ## What a side sees and changes -/

/-- The second region has the same data as the first one. -/
def SameData (view : View) (region region' : Region) : Prop :=
  ∀ address, view.dataStart ≤ address → address < view.dataStart + view.capacity →
    region'.cells.get address = region.cells.get address

/-- Every access of a side, to no more bytes than the data region has, stays in that region. -/
structure Enclosed (view : View) (region : Region) : Prop where
  /-- The data region is memory of the ring behind the metadata block, with room for a header. -/
  metadata_le : Metadata.size ≤ view.dataStart
  le_size : view.dataStart + view.capacity ≤ region.size
  headerSize_le : headerSize ≤ view.capacity
  /-- The runs of an access lie in it, … -/
  encloses : ∀ cursor count, count ≤ view.capacity →
    view.Encloses (view.firstRun cursor count) ∧ view.Encloses (view.restRun cursor count)
  /-- … bytes are read from these runs, … -/
  copyOut_eq : ∀ offset count, count ≤ view.capacity →
    view.copyOut region offset count =
      region.loadRun (view.firstRun (view.readPos + UInt64.ofNat offset) count) ++
        region.loadRun (view.restRun (view.readPos + UInt64.ofNat offset) count)
  /-- … and the bytes of a record are written to them. -/
  write_eq : ∀ payload recordType offset after region',
    view.write region payload recordType = .ok (offset, after, region') →
      (Record.bytes recordType payload).length ≤ view.capacity ∧
        region' =
          (region.store
              (view.firstRun view.writePos (Record.bytes recordType payload).length).start
              ((Record.bytes recordType payload).take
                (view.firstRun view.writePos (Record.bytes recordType payload).length).count)).store
            (view.restRun view.writePos (Record.bytes recordType payload).length).start
            ((Record.bytes recordType payload).drop
              (view.firstRun view.writePos (Record.bytes recordType payload).length).count)
  /-- What the consumer is told depends on the data alone, … -/
  header?_eq : ∀ region', view.SameData region region' →
    view.header? region' = view.header? region
  copyPayload_eq : ∀ region', view.SameData region region' → ∀ count offset,
    count ≤ view.capacity →
      view.copyPayload region' count offset = view.copyPayload region count offset
  pop_eq : ∀ region', view.SameData region region' → view.pop region' = view.pop region
  headTime?_eq : ∀ region', view.SameData region region' →
    view.headTime? region' = view.headTime? region
  /-- … and the producer changes nothing else. -/
  get_write : ∀ payload recordType offset after region',
    view.write region payload recordType = .ok (offset, after, region') →
      ∀ address, address < view.dataStart ∨ view.dataStart + view.capacity ≤ address →
        region'.cells.get address = region.cells.get address

/-- Where the data region is the same, the same is copied. -/
theorem SameData.copyOut_eq (h : view.SameData region region') (hpos : 0 < view.capacity)
    (offset count : Nat) :
    view.copyOut region' offset count = view.copyOut region offset count := by
  apply gather_congr
  intro i _
  have hmem := view.place_mem hpos view.readPos (offset + i)
  exact h _ hmem.1 hmem.2

theorem SameData.header?_eq (h : view.SameData region region') (hpos : 0 < view.capacity) :
    view.header? region' = view.header? region := by
  rw [header?, header?, rawHeader, rawHeader, h.copyOut_eq hpos]

theorem SameData.copyPayload_eq (h : view.SameData region region') (hpos : 0 < view.capacity)
    (count offset : Nat) :
    view.copyPayload region' count offset = view.copyPayload region count offset := by
  simp only [copyPayload, payloadSize, h.header?_eq hpos, h.copyOut_eq hpos]

/-- A pop does the same there. -/
theorem SameData.pop_eq (h : view.SameData region region') (hpos : 0 < view.capacity) :
    view.pop region' = view.pop region := by
  rw [pop, pop, h.header?_eq hpos]

theorem SameData.headTime?_eq (h : view.SameData region region') (hpos : 0 < view.capacity) :
    view.headTime? region' = view.headTime? region := by
  have htype : view.recordType region' = view.recordType region := by
    rw [recordType, recordType, rawHeader, rawHeader, h.copyOut_eq hpos]
  rw [headTime?, headTime?, htype, h.copyPayload_eq hpos]

/-- Behind the metadata and in memory, a data region of a power of two of bytes encloses every
access. -/
theorem enclosed (hpow : view.capacity.isPowerOfTwo) (hle : view.capacity ≤ maxWord)
    (hheader : headerSize ≤ view.capacity) (hmetadata : Metadata.size ≤ view.dataStart)
    (hsize : view.dataStart + view.capacity ≤ region.size) : view.Enclosed region := by
  have hpos := Nat.pos_of_isPowerOfTwo hpow
  exact
    { metadata_le := hmetadata
      le_size := hsize
      headerSize_le := hheader
      encloses := fun cursor _ hcount => encloses_runs hpow hle cursor hcount
      copyOut_eq := fun offset _ hcount => copyOut_eq_loads hpow hle region offset hcount
      write_eq := by
        intro payload recordType offset after region' hwrite
        obtain ⟨⟨-, hfit, -, -⟩, -, -, rfl⟩ := write_eq_ok_iff.mp hwrite
        have hlength := (Record.length_bytes_le recordType payload).trans hfit
        exact ⟨hlength, scatter_eq_stores hpow hle region view.writePos hlength⟩
      header?_eq := fun _ hsame => hsame.header?_eq hpos
      copyPayload_eq := fun _ hsame count offset _ => hsame.copyPayload_eq hpos count offset
      pop_eq := fun _ hsame => hsame.pop_eq hpos
      headTime?_eq := fun _ hsame => hsame.headTime?_eq hpos
      get_write := by
        intro payload recordType offset after region' hwrite address houtside
        obtain ⟨-, -, -, rfl⟩ := write_eq_ok_iff.mp hwrite
        apply get_scatter_of_ne
        rintro k - rfl
        have hmem := view.place_mem hpos view.writePos (0 + k)
        omega }

end View

end CacheMeter.Ring
