import CacheMeter.Bytes.Utf8
import CacheMeter.Counters

/-!
# Messages

What a ring record can say: that an entity was measured, that a monitoring
identifier was bound to a process or released, or that records were lost.

Main results:

- `Message` joins the four kinds; `Kind` is its counting label.
- `CommandName.text` reads a fixed-width process name up to its first NUL;
  `CommandName.text_eq_of_takeWhile_eq` says nothing after it matters.
-/

namespace CacheMeter

/-! ## Process names -/

/-- A process name as the kernel keeps it: sixteen bytes, padded with NUL. -/
abbrev CommandName := Vector UInt8 16

namespace CommandName

/-- The name whose first bytes are given, padded with NUL. -/
def ofBytes (bytes : Bytes) : CommandName :=
  Vector.ofFn fun i => bytes.getD i 0

/-- The bytes before the first NUL. -/
def visible (name : CommandName) : Bytes :=
  name.toList.takeWhile (fun byte => byte ≠ 0)

/-- The name as text. -/
def text (name : CommandName) : String :=
  name.visible.decodeLossy

theorem text_eq_of_takeWhile_eq {a b : CommandName} (h : a.visible = b.visible) :
    a.text = b.text := by
  rw [text, text, h]

end CommandName

/-! ## The kinds of message -/

/-- A monitoring identifier was bound to a process. -/
structure RmidAlloc where
  timestamp : UInt64
  rmid : UInt32
  command : CommandName
  processGroup : UInt32
deriving DecidableEq, Repr

/-- A monitoring identifier was released. -/
structure RmidFree where
  timestamp : UInt64
  rmid : UInt32
deriving DecidableEq, Repr

/-- The kernel dropped records because the ring was full. -/
structure LostNotice where
  id : UInt64
  lost : UInt64
deriving DecidableEq, Repr

/-- A decoded ring record. -/
inductive Message
  | measurement (m : Measurement)
  | rmidAlloc (update : RmidAlloc)
  | rmidFree (update : RmidFree)
  | lost (notice : LostNotice)
deriving DecidableEq, Repr

namespace Message

/-- The counting label of a message. -/
inductive Kind
  | measurement
  | rmidAlloc
  | rmidFree
  | lost
deriving DecidableEq, Repr

/-- Every kind, in the order of reports. -/
def Kind.all : List Kind := [.measurement, .rmidAlloc, .rmidFree, .lost]

theorem Kind.mem_all (kind : Kind) : kind ∈ Kind.all := by
  cases kind <;> simp [Kind.all]

/-- The name of a kind in reports. -/
def Kind.name : Kind → String
  | .measurement => "measurement"
  | .rmidAlloc => "rmid_alloc"
  | .rmidFree => "rmid_free"
  | .lost => "lost"

/-- The kind of a message. -/
def kind : Message → Kind
  | .measurement _ => .measurement
  | .rmidAlloc _ => .rmidAlloc
  | .rmidFree _ => .rmidFree
  | .lost _ => .lost

/-- When a message happened, as far as it says. -/
def timestamp? : Message → Option UInt64
  | .measurement m => some m.endTime
  | .rmidAlloc update => some update.timestamp
  | .rmidFree update => some update.timestamp
  | .lost _ => none

end Message

end CacheMeter
