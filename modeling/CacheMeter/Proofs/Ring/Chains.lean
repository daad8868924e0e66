import Mathlib
import CacheMeter.Proofs.Message.Padding
import CacheMeter.Proofs.Ring.Rounds

/-!
# Records as they lie

Between the two published cursors of a ring the records lie one after the other, each with a
header that announces its type and its size.  Told that way a record is what a reader takes for
it, padding included, whoever wrote it and whatever was there before.  A producer adds records at
the end of the chain and changes none that lies there.

Main results:

- Definition `View.Lies`: records lie one after the other between two positions.
- Structure `Channel.Laid`: the chain in a ring, as far as it is published and beyond.
- Theorem `Channel.Laid.write`: a write adds the record, padded with what was there before.
- Theorem `Channel.Laid.finishWrite`: publishing shows what was written.
-/

namespace CacheMeter.Ring

/-! ## Chains -/

/-- Bytes that records take up as they lie, headers included. -/
def weight : List (UInt32 × Bytes) → Nat
  | [] => 0
  | record :: rest => headerSize + record.2.length + weight rest

/-- The weights of records add up. -/
theorem weight_append (first second : List (UInt32 × Bytes)) :
    weight (first ++ second) = weight first + weight second := by
  induction first with
  | nil => simp [weight]
  | cons record rest ih => simp [weight, ih, Nat.add_assoc]

namespace View

/-- A record lies at a position: its header announces it, and its bytes follow. -/
structure LiesAt (view : View) (region : Region) (position : Nat) (record : UInt32 × Bytes) :
    Prop where
  recordType : (Header.decode (view.span region position headerSize)).recordType = record.1
  size : (Header.decode (view.span region position headerSize)).size.toNat =
    headerSize + record.2.length
  aligned : record.2.length % 8 = 0
  body : view.span region (position + headerSize) record.2.length = record.2

/-- Records lie one after the other from a position on. -/
def Lies (view : View) (region : Region) : Nat → List (UInt32 × Bytes) → Prop
  | _, [] => True
  | position, record :: rest =>
    view.LiesAt region position record ∧
      view.Lies region (position + (headerSize + record.2.length)) rest

variable {view : View} {region region' : Region} {position : Nat} {record : UInt32 × Bytes}
  {records more : List (UInt32 × Bytes)}

/-- Records lie in a row if the first do and the rest behind them. -/
theorem lies_append :
    view.Lies region position (records ++ more) ↔
      view.Lies region position records ∧ view.Lies region (position + weight records) more := by
  induction records generalizing position with
  | nil => simp [Lies, weight]
  | cons record rest ih =>
    simp only [List.cons_append, Lies, weight, ih, and_assoc, Nat.add_assoc]

/-- A record stays where it lies as long as its bytes do. -/
theorem LiesAt.congr (h : view.LiesAt region position record)
    (hsame : view.span region' position (headerSize + record.2.length) =
      view.span region position (headerSize + record.2.length)) :
    view.LiesAt region' position record := by
  rw [span_add, span_add] at hsame
  obtain ⟨hheader, hbody⟩ := List.append_inj hsame (by simp)
  exact
    { recordType := by rw [hheader, h.recordType]
      size := by rw [hheader, h.size]
      aligned := h.aligned
      body := by rw [hbody, h.body] }

/-- Where records lie depends on their span alone. -/
theorem Lies.congr (h : view.Lies region position records)
    (hsame : view.span region' position (weight records) =
      view.span region position (weight records)) :
    view.Lies region' position records := by
  induction records generalizing position with
  | nil => trivial
  | cons record rest ih =>
    rw [weight, span_add view region', span_add view region] at hsame
    obtain ⟨hfirst, hrest⟩ := List.append_inj hsame (by simp)
    exact ⟨h.1.congr hfirst, ih h.2 hrest⟩

/-! ## Writing -/

section Writing

variable {recordType : UInt32} {payload pad : Bytes}

/-- Where a record is written it lies, padded with what was there before. -/
theorem liesAt_written (hsize : Record.size recordType payload < UInt16.size)
    (hspan : view.span region position (Record.bytes recordType payload).length =
      Record.bytes recordType payload) :
    ∃ pad : Bytes, pad.length = Record.padding recordType payload ∧
      view.LiesAt region position (recordType, Record.padded recordType payload pad) := by
  have hparts : view.span region position headerSize =
        (Record.header recordType payload).encode ∧
      view.span region (position + headerSize) (Record.wordSize recordType + payload.length) =
        Record.sizeWord recordType payload ++ payload := by
    rw [Record.length_bytes, Nat.add_assoc, span_add, Record.bytes, List.append_assoc] at hspan
    exact List.append_inj hspan (by simp)
  have hheader : Header.decode (view.span region position headerSize) =
      Record.header recordType payload := by
    rw [hparts.1]
    simpa using Header.decode_encode (Record.header recordType payload) []
  let pad := view.span region
    (position + headerSize + (Record.wordSize recordType + payload.length))
    (Record.padding recordType payload)
  have hpad : pad.length = Record.padding recordType payload := length_span ..
  have hlength : (Record.padded recordType payload pad).length =
      Record.wordSize recordType + payload.length + Record.padding recordType payload := by
    rw [Record.padded, List.length_append, List.length_append, Record.length_sizeWord, hpad]
  have htotal := Record.length_padded hpad
  refine ⟨pad, hpad, ?_⟩
  exact
    { recordType := by rw [hheader, Record.header]
      size := by
        rw [hheader, htotal]
        exact UInt16.toNat_ofNat_of_lt' hsize
      aligned := by
        have hmod := Record.size_mod_eight recordType payload
        unfold headerSize at htotal
        dsimp only
        omega
      body := by
        dsimp only
        rw [hlength, span_add, hparts.2, Record.padded] }

end Writing

end View

/-! ## The chain in a ring -/

namespace Channel

/-- A ring bound as `view` whose consumer has not moved: what is published and what is written
beyond that lies behind the read cursor. -/
structure Laid (view : View) (channel : Channel) (published pending : List (UInt32 × Bytes)) :
    Prop where
  attach : View.attach channel.region = .ok { view with writePos := channel.region.head }
  head : channel.region.head = UInt64.ofNat (view.readPos.toNat + weight published)
  producer : channel.producer =
    { view with
      writePos := UInt64.ofNat (view.readPos.toNat + weight (published ++ pending)) }
  consumer : channel.consumer = view
  lies : view.Lies channel.region view.readPos.toNat (published ++ pending)
  bounded : weight (published ++ pending) < UInt64.size

variable {view : View} {channel : Channel} {published pending : List (UInt32 × Bytes)}

/-- A ring whose unread part holds whole records, bound by both sides. -/
theorem laid_opened {region : Region} {records : List (UInt32 × Bytes)}
    (hbind : View.attach region = .ok view)
    (hlies : view.Lies region view.readPos.toNat records) (hused : weight records = view.used) :
    Laid view (opened region view) records [] := by
  have hview := (View.attach_eq_ok_iff.mp hbind).2.2.2
  have hhead : region.head = view.writePos := by rw [hview]
  have hwrite : view.writePos = UInt64.ofNat (view.readPos.toNat + weight records) := by
    rw [hused, View.used, UInt64.ofNat_add, UInt64.ofNat_toNat, UInt64.ofNat_toNat,
      UInt64.add_comm, UInt64.sub_add_cancel]
  exact
    { attach := by
        show View.attach region = .ok { view with writePos := region.head }
        rw [hhead]
        exact hbind
      head := hhead.trans hwrite
      producer := by
        rw [List.append_nil, ← hwrite]
        rfl
      consumer := rfl
      lies := by
        rw [List.append_nil]
        exact hlies
      bounded := by
        rw [List.append_nil, hused]
        exact (view.writePos - view.readPos).toNat_lt }

namespace Laid

/-- The capacity divides the turn of a cursor. -/
theorem capacity_dvd (h : Laid view channel published pending) :
    view.capacity ∣ UInt64.size := by
  rcases View.attach_eq_ok_iff.mp h.attach with ⟨-, ⟨hpow, -, hle⟩, -⟩
  exact dvd_size_of_isPowerOfTwo hpow hle

/-- It fits a word. -/
theorem capacity_lt (h : Laid view channel published pending) :
    view.capacity < UInt64.size := by
  rcases View.attach_eq_ok_iff.mp h.attach with ⟨-, ⟨-, -, hle⟩, -⟩
  simp only [maxWord, UInt64.size] at *
  omega

/-- The data region begins behind the metadata. -/
theorem metadata_le (h : Laid view channel published pending) :
    Metadata.size ≤ view.dataStart := by
  rcases View.attach_eq_ok_iff.mp h.attach with ⟨-, -, ⟨-, hle, -⟩, -⟩
  exact hle

/-- Nothing has been released. -/
theorem tail (h : Laid view channel published pending) : channel.region.tail = view.readPos :=
  (congrArg View.readPos (View.attach_eq_ok_iff.mp h.attach).2.2.2).symm

/-- The ring after a change of cells or cursors that the geometry survives. -/
theorem attach_of_geometry (h : Laid view channel published pending) {region : Region}
    (hgeometry : Region.SameGeometry region channel.region)
    (htail : region.tail = channel.region.tail) :
    View.attach region = .ok { view with writePos := region.head } := by
  have hattach : View.attach channel.region =
      .ok { view with readPos := view.readPos, writePos := channel.region.head } := h.attach
  rw [View.attach_congr hgeometry hattach, htail, h.tail]

/-- The producer knows how much is in use. -/
theorem used_producer (h : Laid view channel published pending) :
    channel.producer.used = weight (published ++ pending) := by
  have hread : view.readPos = UInt64.ofNat view.readPos.toNat := UInt64.ofNat_toNat.symm
  rw [h.producer, View.used]
  dsimp only
  nth_rewrite 2 [hread]
  rw [toNat_ofNat_sub_ofNat (Nat.le_add_right _ _)
      (by rw [Nat.add_sub_cancel_left]; exact h.bounded),
    Nat.add_sub_cancel_left]

section Writing

variable {payload : Bytes} {recordType : UInt32}

/-- It goes on behind what was written. -/
theorem place_producer (h : Laid view channel published pending) :
    channel.producer.place channel.producer.writePos =
      view.place (UInt64.ofNat (view.readPos.toNat + weight (published ++ pending))) := by
  rw [h.producer]
  rfl

/-- A record that fits has room behind it. -/
theorem room_of_fits (h : Laid view channel published pending)
    (hfits : channel.Fits recordType payload) :
    weight (published ++ pending) + Record.size recordType payload ≤ view.capacity := by
  have hroom := hfits.2.2.2
  have hcapacity : channel.producer.capacity = view.capacity := by rw [h.producer]
  rwa [h.used_producer, hcapacity] at hroom

/-- A write touches no cell of the metadata block. -/
theorem get_scatter_metadata (h : Laid view channel published pending) (bytes : Bytes) :
    ∀ address < Metadata.size,
      (scatter (channel.producer.place channel.producer.writePos) 0 bytes
        channel.region.cells).get address = channel.region.cells.get address := by
  intro address haddress
  have hstart := h.metadata_le
  apply get_scatter_of_ne
  intro k _
  rw [h.place_producer, View.place]
  omega

/-- A write leaves the chain where it lies and puts the record behind it, padded with what was
there before. -/
theorem lies_write (h : Laid view channel published pending)
    (hfits : channel.Fits recordType payload) :
    ∃ pad : Bytes, pad.length = Record.padding recordType payload ∧
      view.Lies
        { channel.region with
          cells := scatter (channel.producer.place channel.producer.writePos) 0
            (Record.bytes recordType payload) channel.region.cells }
        view.readPos.toNat
        (published ++ pending ++ [(recordType, Record.padded recordType payload pad)]) := by
  have hroom := h.room_of_fits hfits
  have hbytes := Record.length_bytes_le recordType payload
  -- The region after the write.
  let region : Region :=
    { channel.region with
      cells := scatter (channel.producer.place channel.producer.writePos) 0
        (Record.bytes recordType payload) channel.region.cells }
  have hheld : view.span region view.readPos.toNat (weight (published ++ pending)) =
      view.span channel.region view.readPos.toNat (weight (published ++ pending)) := by
    simp only [region, h.place_producer]
    exact View.span_scatter_of_held h.capacity_dvd le_rfl (by omega)
  have hself : view.span region (view.readPos.toNat + weight (published ++ pending))
      (Record.bytes recordType payload).length = Record.bytes recordType payload := by
    simp only [region, h.place_producer]
    exact View.span_scatter_self h.capacity_dvd (by omega)
  obtain ⟨pad, hpad, hlast⟩ := View.liesAt_written hfits.2.2.1 hself
  refine ⟨pad, hpad, ?_⟩
  rw [View.lies_append]
  exact ⟨h.lies.congr hheld, hlast, trivial⟩

/-- A write adds the record, padded with what was there before. -/
theorem write (h : Laid view channel published pending)
    (hfits : channel.Fits recordType payload) :
    ∃ pad : Bytes, pad.length = Record.padding recordType payload ∧
      Laid view (channel.step (.write payload recordType)) published
        (pending ++ [(recordType, Record.padded recordType payload pad)]) := by
  have hroom := h.room_of_fits hfits
  have hcells := h.get_scatter_metadata (Record.bytes recordType payload)
  obtain ⟨pad, hpad, hlies⟩ := h.lies_write hfits
  have htotal := Record.length_padded hpad
  have hweight : weight (published ++ (pending ++
      [(recordType, Record.padded recordType payload pad)])) =
        weight (published ++ pending) + Record.size recordType payload := by
    rw [← List.append_assoc, weight_append, ← htotal]
    rfl
  refine ⟨pad, hpad, ?_⟩
  rw [step_write_of_fits hfits]
  exact
    { attach := h.attach_of_geometry (Region.sameGeometry_of_cells hcells)
        (Region.tail_of_cells hcells)
      head := by
        rw [← h.head]
        exact Region.head_of_cells hcells
      producer := by
        rw [hweight, ← Nat.add_assoc, UInt64.ofNat_add _ (Record.size _ _), h.producer]
      consumer := h.consumer
      lies := by
        rw [← List.append_assoc]
        exact hlies
      bounded := by
        have hlt := h.capacity_lt
        omega }

end Writing

/-- Publishing shows everything written to the consumer. -/
theorem finishWrite (h : Laid view channel published pending) :
    Laid view (channel.step .finishWrite) (published ++ pending) [] := by
  have hspan : view.span (channel.region.publishHead channel.producer.writePos)
      view.readPos.toNat (weight (published ++ pending)) =
        view.span channel.region view.readPos.toNat (weight (published ++ pending)) := by
    refine View.span_congr fun i _ => ?_
    exact channel.region.get_cells_publishHead _ (h.metadata_le.trans (Nat.le_add_right _ _))
  simp only [Channel.step, View.finishWrite]
  exact
    { attach := h.attach_of_geometry (Region.sameGeometry_publishHead _ _)
        (Region.tail_publishHead _ _)
      head := by rw [Region.head_publishHead, h.producer]
      producer := by
        rw [List.append_nil]
        exact h.producer
      consumer := h.consumer
      lies := by
        rw [List.append_nil]
        exact h.lies.congr hspan
      bounded := by
        rw [List.append_nil]
        exact h.bounded }

/-- A producer that looks how much space was released finds what it knew. -/
theorem startWrite (h : Laid view channel published pending) :
    Laid view (channel.step .startWrite) published pending := by
  have hsame : channel.producer.startWrite channel.region = channel.producer := by
    rw [View.startWrite, h.tail, h.producer]
  simp only [Channel.step, hsame]
  exact ⟨h.attach, h.head, h.producer, h.consumer, h.lies, h.bounded⟩

/-- So does one that is bound anew. -/
theorem rebindProducer (h : Laid view channel published pending) :
    Laid view (channel.step .rebindProducer) published pending := by
  simp only [Channel.step, h.attach]
  split_ifs with hsame
  · exact
      { attach := h.attach
        head := h.head
        producer := by
          rw [← hsame, h.producer]
        consumer := h.consumer
        lies := h.lies
        bounded := h.bounded }
  · exact h

end Laid

end Channel

end CacheMeter.Ring
