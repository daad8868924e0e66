import Mathlib
import CacheMeter.Proofs.Ring.Chains

/-!
# Storages that differ in free space

What lies in the data region of a ring but not between the published cursors belongs to no
record.  Two rings whose storages differ there are bound alike and hold the same records, and
writing the same to both adds records that differ in nothing but their padding.

Main results:

- Structure `Storage.SameButFree`: two storages that differ at most in free space.
- Definition `Channel.Twins`: two rings with chains that are alike record by record.
- Theorem `Channel.twins_opened`: storages that differ in free space open as twins.
- Theorem `Channel.Twins.step`: the same step of both producers leaves them twins.
-/

namespace CacheMeter.Ring

/-! ## Storages -/

/-- The memory of a ring, and the view of it that both sides get when they are bound. -/
structure Storage where
  region : Region
  view : View
  attach : View.attach region = .ok view

namespace Storage

variable (storage : Storage)

/-- The metadata lies before the data region. -/
theorem place_ne_of_lt {address : Nat} (haddress : address < Metadata.size) (offset : Nat) :
    storage.view.place storage.view.readPos offset ≠ address := by
  rcases View.attach_eq_ok_iff.mp storage.attach with ⟨-, -, ⟨-, hstart, -⟩, -⟩
  rw [View.place]
  omega

/-- A storage with other bytes in the data region is bound alike. -/
theorem attach_of_cells {cells : Cells}
    (hcells : ∀ address < Metadata.size,
      cells.get address = storage.region.cells.get address) :
    View.attach { storage.region with cells := cells } = .ok storage.view := by
  have hattach : View.attach storage.region =
      .ok
        { storage.view with
          readPos := storage.view.readPos
          writePos := storage.view.writePos } :=
    storage.attach
  have hview := (View.attach_eq_ok_iff.mp storage.attach).2.2.2
  rw [View.attach_congr (Region.sameGeometry_of_cells hcells) hattach,
    Region.tail_of_cells hcells, Region.head_of_cells hcells]
  exact congrArg Except.ok (by rw [hview])

/-- What is published and not released yet is a chain of whole records. -/
def Holds (records : List (UInt32 × Bytes)) : Prop :=
  storage.view.Lies storage.region storage.view.readPos.toNat records ∧
    weight records = storage.view.used

/-- The cell belongs to the data region, but not to what lies between the published cursors. -/
def Free (address : Nat) : Prop :=
  ∃ offset, storage.view.used ≤ offset ∧ offset < storage.view.capacity ∧
    address = storage.view.place storage.view.readPos offset

/-- Two storages that differ at most in free cells. -/
structure SameButFree (first second : Storage) : Prop where
  region_eq : second.region = { first.region with cells := second.region.cells }
  get_eq : ∀ address, ¬ first.Free address →
    second.region.cells.get address = first.region.cells.get address

namespace SameButFree

variable {first second : Storage}

/-- Storages that differ in free bytes have the same metadata. -/
theorem get_metadata (h : SameButFree first second) :
    ∀ address < Metadata.size,
      second.region.cells.get address = first.region.cells.get address := by
  intro address haddress
  refine h.get_eq address ?_
  rintro ⟨offset, -, -, hplace⟩
  exact first.place_ne_of_lt haddress offset hplace.symm

/-- Both are bound alike. -/
theorem view_eq (h : SameButFree first second) : second.view = first.view := by
  have hattach := first.attach_of_cells h.get_metadata
  rw [← h.region_eq] at hattach
  exact Except.ok.inj (second.attach.symm.trans hattach)

/-- What lies between the published cursors is the same. -/
theorem span_eq (h : SameButFree first second) :
    first.view.span second.region first.view.readPos.toNat first.view.used =
      first.view.span first.region first.view.readPos.toNat first.view.used := by
  refine View.span_congr fun i hi => h.get_eq _ ?_
  rintro ⟨offset, hused, hcapacity, hplace⟩
  rw [View.place, Nat.add_left_cancel_iff] at hplace
  exact mod_ne_mod_of_lt (by omega) (by omega) hplace

/-- They hold the same records. -/
theorem holds (h : SameButFree first second) {records : List (UInt32 × Bytes)}
    (hholds : first.Holds records) : second.Holds records := by
  obtain ⟨hlies, hweight⟩ := hholds
  rw [Holds, h.view_eq]
  refine ⟨hlies.congr ?_, hweight⟩
  rw [hweight]
  exact h.span_eq

end SameButFree

/-- The storage with other bytes from some offset past the read cursor on. -/
def refilled (offset : Nat) (bytes : Bytes) : Storage where
  region :=
    { storage.region with
      cells := scatter (storage.view.place storage.view.readPos) offset bytes
        storage.region.cells }
  view := storage.view
  attach := storage.attach_of_cells fun _ haddress =>
    get_scatter_of_ne fun i _ => storage.place_ne_of_lt haddress (offset + i)

/-- Bytes put in free space make no other difference. -/
theorem sameButFree_refilled {storage : Storage} {offset : Nat} {bytes : Bytes}
    (hused : storage.view.used ≤ offset)
    (hcapacity : offset + bytes.length ≤ storage.view.capacity) :
    SameButFree storage (storage.refilled offset bytes) where
  region_eq := rfl
  get_eq address hfree := by
    refine get_scatter_of_ne fun i hi hplace => hfree ⟨offset + i, by omega, by omega, ?_⟩
    exact hplace.symm

end Storage

/-! ## Twins -/

/-- Two records of the same type and size that tell the same, and, where `keyed` asks for it,
have the same key.  What is in `Known` is known of the first one. -/
structure Akin (keyed : Prop) (Known : UInt32 × Bytes → Prop) (record other : UInt32 × Bytes) :
    Prop where
  recordType : other.1 = record.1
  length : other.2.length = record.2.length
  told : Message.told other.1 other.2 = Message.told record.1 record.2
  key : keyed → Merge.keyTime other.1 other.2 = Merge.keyTime record.1 record.2
  known : Known record

section Twins

variable {keyed : Prop} {Known : UInt32 × Bytes → Prop} {records others : List (UInt32 × Bytes)}

theorem Akin.refl {record : UInt32 × Bytes} (hknown : Known record) :
    Akin keyed Known record record :=
  ⟨rfl, rfl, rfl, fun _ => rfl, hknown⟩

/-- A record that is written twice differs in nothing but its padding. -/
theorem akin_padded {recordType : UInt32} {payload pad pad' : Bytes}
    (hwhole : ¬ Record.CutShort recordType payload)
    (hstamp : keyed → ¬ Record.CutStamp recordType payload)
    (hpad : pad.length = Record.padding recordType payload)
    (hpad' : pad'.length = Record.padding recordType payload)
    (hknown : Known (recordType, Record.padded recordType payload pad)) :
    Akin keyed Known (recordType, Record.padded recordType payload pad)
      (recordType, Record.padded recordType payload pad') where
  recordType := rfl
  length := by simp only [Record.padded, List.length_append, hpad, hpad']
  told := Message.not_cutShort_iff.mp hwhole pad' pad hpad' hpad
  key hkeyed := not_cutStamp_iff.mp (hstamp hkeyed) pad' pad hpad' hpad
  known := hknown

theorem weight_eq_of_forall₂ (h : List.Forall₂ (Akin keyed Known) records others) :
    weight others = weight records := by
  induction h with
  | nil => rfl
  | cons hakin _ ih => rw [weight, weight, hakin.length, ih]

namespace Channel

/-- Two rings bound alike whose chains are alike record by record, as far as they are published
and beyond. -/
def Twins (keyed : Prop) (Known : UInt32 × Bytes → Prop) (view : View) (first second : Channel) :
    Prop :=
  ∃ published pending published' pending',
    Laid view first published pending ∧ Laid view second published' pending' ∧
      List.Forall₂ (Akin keyed Known) published published' ∧
      List.Forall₂ (Akin keyed Known) pending pending'

variable {view : View} {first second : Channel}

/-- Storages that differ in free space open as twins. -/
theorem twins_opened {storage other : Storage} (h : Storage.SameButFree storage other)
    (hholds : storage.Holds records) (hknown : ∀ record ∈ records, Known record) :
    Twins keyed Known storage.view (opened storage.region storage.view)
      (opened other.region other.view) := by
  have hother := h.holds hholds
  rw [Storage.Holds, h.view_eq] at hother
  rw [h.view_eq]
  refine ⟨records, [], records, [], laid_opened storage.attach hholds.1 hholds.2,
    laid_opened (h.view_eq ▸ other.attach) hother.1 hother.2, ?_, .nil⟩
  exact List.forall₂_same.mpr fun record hmem => .refl (hknown record hmem)

namespace Twins

/-- Twins have the same producer. -/
theorem producer_eq (h : Twins keyed Known view first second) :
    second.producer = first.producer := by
  obtain ⟨published, pending, published', pending', hfirst, hsecond, hpublished, hpending⟩ := h
  rw [hfirst.producer, hsecond.producer, weight_append, weight_append,
    weight_eq_of_forall₂ hpublished, weight_eq_of_forall₂ hpending]

/-- The same step of both producers leaves them twins, if what is written is not cut short. -/
theorem step (h : Twins keyed Known view first second) {action : Action}
    (hproducer : action.isProducer = true)
    (hwrites : ∀ payload recordType, action = .write payload recordType →
      ¬ Record.CutShort recordType payload ∧ (keyed → ¬ Record.CutStamp recordType payload) ∧
        ∀ pad : Bytes, pad.length = Record.padding recordType payload →
          Known (recordType, Record.padded recordType payload pad)) :
    Twins keyed Known view (first.step action) (second.step action) := by
  have hsame := h.producer_eq
  obtain ⟨published, pending, published', pending', hfirst, hsecond, hpublished, hpending⟩ := h
  cases action with
  | startWrite =>
    exact ⟨_, _, _, _, hfirst.startWrite, hsecond.startWrite, hpublished, hpending⟩
  | finishWrite =>
    exact ⟨_, _, _, _, hfirst.finishWrite, hsecond.finishWrite,
      List.rel_append hpublished hpending, .nil⟩
  | rebindProducer =>
    exact ⟨_, _, _, _, hfirst.rebindProducer, hsecond.rebindProducer, hpublished, hpending⟩
  | write payload recordType =>
    obtain ⟨hwhole, hstamp, hknown⟩ := hwrites payload recordType rfl
    by_cases hfits : first.Fits recordType payload
    · have hfits' : second.Fits recordType payload := by rwa [Fits, hsame]
      obtain ⟨pad, hpad, hwritten⟩ := hfirst.write hfits
      obtain ⟨pad', hpad', hwritten'⟩ := hsecond.write hfits'
      have hakin := akin_padded hwhole hstamp hpad hpad' (hknown pad hpad)
      exact ⟨_, _, _, _, hwritten, hwritten', hpublished,
        List.rel_append hpending (.cons hakin .nil)⟩
    · have hfits' : ¬ second.Fits recordType payload := by rwa [Fits, hsame]
      rw [step_write_of_not_fits hfits, step_write_of_not_fits hfits']
      exact ⟨_, _, _, _, hfirst, hsecond, hpublished, hpending⟩
  | startRead | pop | finishRead | rebindConsumer => exact absurd hproducer Bool.false_ne_true

end Twins

end Channel

end Twins

end CacheMeter.Ring
