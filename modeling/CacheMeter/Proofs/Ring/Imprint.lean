import Mathlib
import CacheMeter.Proofs.Ring.Rounds

/-!
# What records read back as

A record reads back with padding, which is what its place held before it was written.  That is
what earlier records left there, and before them the memory that the ring was bound to.  So what
records read back as follows from the memory and the records alone, whenever they were published
and read, and however often the producer found no room in between.

Main results:

- Definition `View.echo`: records as they lie, each when it has just been written.
- Theorem `Channel.Echoes.run`: what a consumer gets to read after any steps of both sides.
- Theorem `Channel.Echoes.popped_eq`: what it has read.
-/

namespace CacheMeter.Ring

/-! ## Records one after the other -/

namespace View

variable (view : View)

/-- The region once a record is written at a position. -/
def stamped (position : Nat) (record : UInt32 × Bytes) (region : Region) : Region :=
  { region with
    cells := scatter (view.place (UInt64.ofNat position)) 0 (Record.bytes record.1 record.2)
      region.cells }

/-- The region once records are written one after the other from a position on. -/
def imprint : Nat → List (UInt32 × Bytes) → Region → Region
  | _, [], region => region
  | position, record :: rest, region =>
    imprint (position + Record.size record.1 record.2) rest (view.stamped position record region)

/-- The records as they lie, padding included, each when it has just been written. -/
def echo : Nat → List (UInt32 × Bytes) → Region → List (UInt32 × Bytes)
  | _, [], _ => []
  | position, record :: rest, region =>
    (record.1,
        (view.span (view.stamped position record region) position
          (Record.size record.1 record.2)).drop headerSize) ::
      echo (position + Record.size record.1 record.2) rest (view.stamped position record region)

variable (first second records : List (UInt32 × Bytes)) (position : Nat) (region : Region)

/-- Records leave their imprint one list after the other. -/
theorem imprint_append :
    view.imprint position (first ++ second) region =
      view.imprint (position + extent first) second (view.imprint position first region) := by
  induction first generalizing position region with
  | nil => rfl
  | cons record rest ih =>
    rw [List.cons_append, imprint, ih, extent, Nat.add_assoc, imprint]

/-- They are read back so, too. -/
theorem echo_append :
    view.echo position (first ++ second) region =
      view.echo position first region ++
        view.echo (position + extent first) second (view.imprint position first region) := by
  induction first generalizing position region with
  | nil => rfl
  | cons record rest ih =>
    rw [List.cons_append, echo, ih, extent, Nat.add_assoc, echo, imprint, List.cons_append]

@[simp]
theorem length_echo : (view.echo position records region).length = records.length := by
  induction records generalizing position region with
  | nil => rfl
  | cons record rest ih => rw [echo, List.length_cons, ih, List.length_cons]

/-- What a record reads back as does not depend on later ones. -/
theorem echo_take (count : Nat) :
    (view.echo position records region).take count =
      view.echo position (records.take count) region := by
  rcases Nat.lt_or_ge count records.length with hlt | hge
  · have hsplit := view.echo_append (records.take count) (records.drop count) position region
    rw [List.take_append_drop] at hsplit
    rw [hsplit, List.take_left' (by rw [length_echo, List.length_take, Nat.min_eq_left hlt.le])]
  · rw [List.take_of_length_le hge, List.take_of_length_le (by rwa [length_echo])]

end View

/-! ## Channels -/

namespace Channel

variable {view : View} {region : Region} {channel : Channel}

/-- In a ring bound to `region`, what the consumer gets to read are the records written, each as
it lay when it had just been written. -/
structure Echoes (view : View) (region : Region) (channel : Channel) : Prop where
  seen : ∀ number record,
    (view.echo view.readPos.toNat channel.journal.written region)[number]? = some record →
      Channel.seen view channel number = .ok record
  cells : ∀ address, view.dataStart ≤ address →
    channel.region.cells.get address =
      (view.imprint view.readPos.toNat channel.journal.written region).cells.get address

/-- A channel echoes from the time it is opened. -/
theorem echoes_opened (view : View) (region : Region) :
    Echoes view region (opened region view) where
  seen _ _ hsome := by simp [opened, View.echo] at hsome
  cells _ _ := rfl

variable {payload : Bytes} {recordType : UInt32}

/-- A record that was just written is read from where it lies. -/
theorem seen_written (h : Sound view channel) (hfits : channel.Fits recordType payload) :
    Channel.seen view (channel.step (.write payload recordType)) channel.journal.written.length =
      .ok (recordType,
        (view.span (channel.step (.write payload recordType)).region
          (view.readPos.toNat + extent channel.journal.written)
          (Record.size recordType payload)).drop headerSize) := by
  have hpopped : (channel.step (.write payload recordType)).journal.popped =
      channel.journal.popped := by
    rw [step_write_of_fits hfits]
  have hwritten : (channel.step (.write payload recordType)).journal.written =
      channel.journal.written ++ [(recordType, payload)] := by
    rw [step_write_of_fits hfits]
  rw [seen_of_ge (hpopped ▸ h.popped_le_written), inMemory, hwritten,
    List.getElem?_concat_length, position_append _ le_rfl, position, List.take_length]

namespace Echoes

/-- Whether a channel echoes depends on how it looks. -/
theorem congr {other : Channel} (h : Echoes view region channel)
    (halike : Alike view channel other) : Echoes view region other where
  seen number record hsome := by
    rw [← halike.written] at hsome
    have hlt := (List.getElem?_eq_some_iff.mp hsome).1
    rw [View.length_echo] at hlt
    rw [← halike.seen number hlt]
    exact h.seen number record hsome
  cells address hle := by
    rw [← halike.cells address hle, ← halike.written]
    exact h.cells address hle

/-- A record that is written lies where the ones before it end, on what they left there. -/
theorem write (h : Echoes view region channel) (hsound : Sound view channel)
    (hfits : channel.Fits recordType payload) :
    Echoes view region (channel.step (.write payload recordType)) := by
  let origin := view.readPos.toNat
  let written := channel.journal.written
  have hwritten : (channel.step (.write payload recordType)).journal.written =
      written ++ [(recordType, payload)] := by
    rw [step_write_of_fits hfits]
  have hcells : ∀ address, view.dataStart ≤ address →
      (channel.step (.write payload recordType)).region.cells.get address =
        (view.stamped (origin + extent written) (recordType, payload)
          (view.imprint origin written region)).cells.get address := by
    rw [step_write_of_fits hfits]
    dsimp only
    rw [hsound.place_producer, position, List.take_length]
    exact View.get_scatter_congr h.cells
  refine ⟨fun number record hsome => ?_, fun address hle => ?_⟩
  · rw [hwritten, View.echo_append] at hsome
    rcases Nat.lt_or_ge number written.length with hold | hnew
    · rw [hsound.seen_write hfits hold]
      rw [List.getElem?_append_left (by rwa [View.length_echo])] at hsome
      exact h.seen number record hsome
    · rw [List.getElem?_append_right (by rwa [View.length_echo]), View.length_echo] at hsome
      obtain rfl : number = written.length := by
        have hlt := (List.getElem?_eq_some_iff.mp hsome).1
        rw [View.length_echo, List.length_singleton] at hlt
        omega
      rw [Nat.sub_self, View.echo, List.getElem?_cons_zero] at hsome
      rw [seen_written hsound hfits, ← Option.some.inj hsome]
      have hspan : view.span (channel.step (.write payload recordType)).region
            (origin + extent written) (Record.size recordType payload) = _ :=
        View.span_congr fun i _ => hcells _ (Nat.le_add_right _ _)
      rw [hspan]
  · rw [hwritten, View.imprint_append]
    exact hcells address hle

/-- A channel goes on echoing whatever its two sides do. -/
theorem step (h : Echoes view region channel) (hsound : Sound view channel) (action : Action) :
    Echoes view region (channel.step action) := by
  by_cases hquiet : Quiet action
  · exact h.congr (hsound.alike_step hquiet)
  · simp only [Quiet, not_forall, not_not] at hquiet
    obtain ⟨payload, recordType, rfl⟩ := hquiet
    by_cases hfits : channel.Fits recordType payload
    · exact h.write hsound hfits
    · rw [step_write_of_not_fits hfits]
      exact h

/-- Whatever both sides do, what the consumer gets to read follows from the memory that the ring
was bound to and from the records written. -/
theorem run (h : Echoes view region channel) (hsound : Sound view channel)
    (actions : List Action) : Echoes view region (channel.run actions) := by
  induction actions generalizing channel with
  | nil => exact h
  | cons action rest ih => exact ih (h.step hsound action) (hsound.step action)

/-- What was read are the records written first. -/
theorem popped_eq (h : Echoes view region channel) (hsound : Sound view channel) :
    channel.journal.popped =
      (view.echo view.readPos.toNat
        (channel.journal.written.take channel.journal.popped.length) region).map .ok := by
  have hle := hsound.popped_le_written
  rw [← View.echo_take]
  apply List.ext_getElem
  · rw [List.length_map, List.length_take, View.length_echo, Nat.min_eq_left hle]
  · intro number hlt hlt'
    rw [List.getElem_map, List.getElem_take, ← seen_of_lt hlt]
    exact h.seen number _ (List.getElem?_eq_getElem _)

end Echoes

end Channel

end CacheMeter.Ring
