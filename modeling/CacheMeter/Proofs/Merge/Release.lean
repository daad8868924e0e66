import Mathlib
import CacheMeter.Proofs.Merge.Polling

/-!
# What a batch leaves of its rings

The readers of a batch do not trust their rings: a header may announce any size, a cursor may
be anywhere, and two readers may share a region.  All the same a batch that is emptied leaves
every reader where its producer had published when the batch was opened, and closing it
publishes just that.

Main results:

- Theorem `Merger.readers_batch`: after a batch every reader has caught up.
- Theorem `Merger.released_finish`: closing a batch of such readers writes nothing but the read
  cursors of their rings.
-/

namespace CacheMeter

open CacheMeter.Ring CacheMeter.Merge

/-! ## Regions that differ in a read cursor -/

namespace Ring.Region

/-- Two regions that differ at most in the read cursor that they publish. -/
structure SameButTail (region region' : Region) : Prop where
  base : region'.base = region.base
  size : region'.size = region.size
  dataPages : region'.dataPages = region.dataPages
  pageSize : region'.pageSize = region.pageSize
  descriptor : region'.descriptor = region.descriptor
  get : ∀ address, address < Metadata.tailOffset ∨ Metadata.tailOffset + 8 ≤ address →
    region'.cells.get address = region.cells.get address

/-- A region differs from itself in nothing. -/
theorem SameButTail.refl (region : Region) : SameButTail region region :=
  ⟨rfl, rfl, rfl, rfl, rfl, fun _ _ => rfl⟩

/-- Regions that differ from a third in the read cursor differ in no more. -/
theorem SameButTail.trans {first second third : Region} (h : SameButTail first second)
    (h' : SameButTail second third) : SameButTail first third where
  base := h'.base.trans h.base
  size := h'.size.trans h.size
  dataPages := h'.dataPages.trans h.dataPages
  pageSize := h'.pageSize.trans h.pageSize
  descriptor := h'.descriptor.trans h.descriptor
  get address haway := (h'.get address haway).trans (h.get address haway)

/-- To publish a read cursor changes nothing else. -/
theorem sameButTail_publishTail (region : Region) (cursor : UInt64) :
    SameButTail region (region.publishTail cursor) where
  base := rfl
  size := rfl
  dataPages := rfl
  pageSize := rfl
  descriptor := rfl
  get address haway := by
    apply get_scatter_of_ne
    intro i hi
    rw [Bytes.length_ofWord64] at hi
    omega

end Ring.Region

/-! ## Readers on their way -/

namespace Reader

/-- The reader with another read cursor. -/
def movedTo (reader : Reader) (cursor : UInt64) : Reader :=
  { reader with view := { reader.view with readPos := cursor } }

/-- The reader once it has read everything published. -/
def caughtUp (reader : Reader) (memory : Memory) : Reader :=
  { reader with
    view :=
      { reader.view with
        readPos := (memory.region reader.region).head
        writePos := (memory.region reader.region).head } }

/-- A reader that catches up stays at its region. -/
@[simp]
theorem region_caughtUp (reader : Reader) (memory : Memory) :
    (reader.caughtUp memory).region = reader.region := by
  simp only [caughtUp]

/-- It is then where the published write cursor is. -/
@[simp]
theorem readPos_caughtUp (reader : Reader) (memory : Memory) :
    (reader.caughtUp memory).view.readPos = (memory.region reader.region).head := by
  simp only [caughtUp]

/-- A reader that has read up to what it observed has read everything published. -/
theorem movedTo_startRead (reader : Reader) (memory : Memory) :
    (reader.startRead memory).movedTo (reader.startRead memory).view.writePos =
      reader.caughtUp memory := by
  simp only [startRead, movedTo, View.startRead, caughtUp]

/-- The same reader, further on in its ring or where it was. -/
def Moves (reader later : Reader) : Prop :=
  ∃ cursor, later = reader.movedTo cursor

/-- A reader that stays has moved nowhere. -/
theorem Moves.refl (reader : Reader) : Moves reader reader :=
  ⟨reader.view.readPos, rfl⟩

/-- To move on and on is to move. -/
theorem Moves.trans {first second third : Reader} (h : Moves first second)
    (h' : Moves second third) : Moves first third := by
  obtain ⟨earlier, rfl⟩ := h
  obtain ⟨cursor, rfl⟩ := h'
  exact ⟨cursor, rfl⟩

/-- A pop moves on. -/
theorem moves_of_pop {reader popped : Reader} {memory : Memory}
    (h : reader.pop memory = .ok popped) : Moves reader popped := by
  unfold pop View.pop at h
  cases hheader : reader.view.header? (memory.region reader.region) with
  | error cause => simp [hheader, Except.map] at h
  | ok header =>
    simp only [hheader, Except.map, Except.ok.injEq] at h
    exact ⟨_, h.symm⟩

/-- The memory once readers have released what they have read. -/
def releaseAll (readers : List Reader) (memory : Memory) : Memory :=
  readers.foldl (fun memory reader => reader.finishRead memory) memory

end Reader

namespace Merger

variable {merger : Merger} {memory : Memory}

/-! ## Emptying a batch -/

/-- Taking a record out moves the reader of its ring. -/
theorem moves_of_pop {popped : Merger} (h : merger.pop memory = .ok popped) :
    popped.readers.size = merger.readers.size ∧
      ∀ ring, Reader.Moves (merger.reader ring) (popped.reader ring) := by
  unfold pop at h
  cases hhead : merger.head with
  | error cause => simp [hhead, bind, Except.bind] at h
  | ok entry =>
    simp only [hhead, bind, Except.bind] at h
    cases hpop : (merger.reader entry.ring).pop memory with
    | error cause => simp [hpop] at h
    | ok behind =>
      simp only [hpop, Except.ok.injEq] at h
      subst h
      refine ⟨Array.size_setIfInBounds, fun ring => ?_⟩
      rcases Nat.lt_or_ge entry.ring merger.readers.size with hlt | hge
      · change Reader.Moves (merger.reader ring)
          ((merger.readers.setIfInBounds entry.ring behind).getD ring default)
        rw [getD_setIfInBounds hlt]
        split_ifs with hsame
        · rw [← hsame]
          exact Reader.moves_of_pop hpop
        · exact .refl _
      · simp only [Array.setIfInBounds_eq_of_size_le hge]
        exact .refl _

/-- So does taking out any number of records. -/
theorem moves_drainUpTo (memory : Memory) (limit : Nat) (merger : Merger) :
    (merger.drainUpTo memory limit).merger.readers.size = merger.readers.size ∧
      ∀ ring, Reader.Moves (merger.reader ring)
        ((merger.drainUpTo memory limit).merger.reader ring) := by
  induction limit generalizing merger with
  | zero => exact ⟨rfl, fun ring => .refl _⟩
  | succ limit ih =>
    rw [drainUpTo]
    split_ifs
    · exact ⟨rfl, fun ring => .refl _⟩
    · cases merger.current memory with
      | error refusal => exact ⟨rfl, fun ring => .refl _⟩
      | ok record =>
        cases hpop : merger.pop memory with
        | error refusal => exact ⟨rfl, fun ring => .refl _⟩
        | ok popped =>
          obtain ⟨hsize, hmoves⟩ := moves_of_pop hpop
          obtain ⟨hsize', hmoves'⟩ := ih popped
          exact ⟨hsize'.trans hsize, fun ring => (hmoves ring).trans (hmoves' ring)⟩

/-- A merger that is emptied has moved every reader to where its write cursor was observed. -/
theorem readers_eq_of_moves {later : Merger} (hsize : later.readers.size = merger.readers.size)
    (hmoves : ∀ ring, Reader.Moves (merger.reader ring) (later.reader ring))
    (hempty : ∀ ring, (later.reader ring).view.isEmpty = true) :
    later.readers = merger.readers.map fun reader => reader.movedTo reader.view.writePos := by
  apply Array.ext
  · rw [hsize, Array.size_map]
  · intro ring hring hring'
    have hlt : ring < merger.readers.size := hsize ▸ hring
    obtain ⟨cursor, hcursor⟩ := hmoves ring
    rw [reader_of_lt hring, reader_of_lt hlt] at hcursor
    have hdone := hempty ring
    rw [reader_of_lt hring, hcursor] at hdone
    -- Without unread records the read cursor is where the write cursor was observed.
    have hposition : cursor = (merger.readers[ring]).view.writePos :=
      of_decide_eq_true hdone
    rw [hcursor, hposition, Array.getElem_map]

/-- After a batch every reader has caught up with what was published when it was opened. -/
theorem readers_batch (readers : Array Reader) (memory : Memory) :
    (batch readers memory).merger.readers = readers.map fun reader => reader.caughtUp memory := by
  obtain ⟨hsize, hmoves⟩ := moves_drainUpTo memory
    (started { readers := readers } memory).backlog (started { readers := readers } memory)
  have hdrains := batch_drainsTo readers memory
  rw [batch] at hdrains ⊢
  have hreaders : (started { readers := readers } memory).readers =
      readers.map fun reader => reader.startRead memory := by
    simp only [started]
  rw [readers_eq_of_moves hsize hmoves (hdrains.keyed.isEmpty_iff.mp hdrains.isEmpty), hreaders,
    Array.map_map]
  exact Array.map_congr_left fun reader _ => reader.movedTo_startRead memory

/-! ## Closing a batch -/

/-- Readers that have caught up with `heads` release what they have read, and write nothing
else. -/
theorem released_releaseAll (heads : Nat → UInt64) (readers : List Reader) (memory : Memory)
    (hcaught : ∀ reader ∈ readers, reader.view.readPos = heads reader.region) :
    (Reader.releaseAll readers memory).size = memory.size ∧
      ∀ index < memory.size,
        Region.SameButTail (memory.region index)
            ((Reader.releaseAll readers memory).region index) ∧
          ((memory.region index).tail = heads index ∨
              (∃ reader ∈ readers, reader.region = index) →
            ((Reader.releaseAll readers memory).region index).tail = heads index) := by
  induction readers generalizing memory with
  | nil =>
    refine ⟨rfl, fun index hlt => ⟨.refl _, ?_⟩⟩
    rintro (htail | ⟨reader, hmem, -⟩)
    · exact htail
    · simp at hmem
  | cons reader rest ih =>
    have hsize : (reader.finishRead memory).size = memory.size := Array.size_modify
    obtain ⟨hsize', hrest⟩ := ih (reader.finishRead memory)
      fun other hother => hcaught other (List.mem_cons_of_mem _ hother)
    refine ⟨hsize'.trans hsize, fun index hlt => ?_⟩
    rw [hsize] at hrest
    obtain ⟨hsame, htail⟩ := hrest index hlt
    rw [Reader.releaseAll, List.foldl_cons, ← Reader.releaseAll]
    by_cases hindex : reader.region = index
    · have hregion : (reader.finishRead memory).region index =
          (memory.region index).publishTail (heads index) := by
        rw [← hindex, Reader.finishRead, Memory.region, getD_modify _ (hindex ▸ hlt), if_pos rfl,
          View.finishRead, hcaught reader List.mem_cons_self, Memory.region]
      rw [hregion] at hsame htail
      refine ⟨(Region.sameButTail_publishTail ..).trans hsame, fun _ => htail (.inl ?_)⟩
      rw [Region.tail_publishTail]
    · have hregion : (reader.finishRead memory).region index = memory.region index := by
        rw [Reader.finishRead, Memory.region, Memory.region, Array.getD_eq_getD_getElem?,
          Array.getElem?_modify, if_neg hindex, ← Array.getD_eq_getD_getElem?]
      rw [hregion] at hsame htail
      refine ⟨hsame, ?_⟩
      rintro (hhas | ⟨other, hmem, hother⟩)
      · exact htail (.inl hhas)
      · rcases List.mem_cons.mp hmem with rfl | hmem
        · exact absurd hother hindex
        · exact htail (.inr ⟨other, hmem, hother⟩)

/-- A ring without memory publishes nothing but zeroes. -/
theorem region_of_ge {index : Nat} (h : memory.size ≤ index) :
    memory.region index = Region.absent := by
  rw [Memory.region, Array.getD_eq_getD_getElem?, Array.getElem?_eq_none h]
  rfl

/-- Closing a batch whose readers have caught up writes nothing but their read cursors. -/
theorem released_finish (readers : Array Reader) (memory : Memory) (closing : Merger)
    (hreaders : closing.readers = readers.map fun reader => reader.caughtUp memory) :
    (closing.finish memory).2.size = memory.size ∧
      (∀ index, Region.SameButTail (memory.region index)
        ((closing.finish memory).2.region index)) ∧
      ∀ reader ∈ readers, ((closing.finish memory).2.region reader.region).tail =
        (memory.region reader.region).head := by
  have hcaught : ∀ reader ∈ closing.readers.toList,
      reader.view.readPos = (memory.region reader.region).head := by
    intro reader hmem
    rw [hreaders, Array.mem_toList_iff] at hmem
    obtain ⟨before, -, rfl⟩ := Array.mem_map.mp hmem
    rw [Reader.readPos_caughtUp, Reader.region_caughtUp]
  obtain ⟨hsize, hregions⟩ :=
    released_releaseAll (fun index => (memory.region index).head) closing.readers.toList memory
      hcaught
  rw [Reader.releaseAll, Array.foldl_toList] at hsize hregions
  have habsent : ∀ index, memory.size ≤ index →
      (closing.finish memory).2.region index = memory.region index := by
    intro index hge
    rw [region_of_ge hge, region_of_ge (by rw [finish, hsize]; exact hge)]
  refine ⟨hsize, fun index => ?_, fun reader hmem => ?_⟩
  · rcases Nat.lt_or_ge index memory.size with hlt | hge
    · exact (hregions index hlt).1
    · rw [habsent index hge]
      exact .refl _
  · rcases Nat.lt_or_ge reader.region memory.size with hlt | hge
    · refine (hregions _ hlt).2 (.inr ⟨reader.caughtUp memory, ?_, Reader.region_caughtUp ..⟩)
      rw [hreaders, Array.mem_toList_iff]
      exact Array.mem_map_of_mem hmem
    · rw [habsent _ hge, region_of_ge hge]
      decide +kernel

end Merger

end CacheMeter
