import CacheMeter.Bytes.Word

/-!
# Memory cells

Numbered byte cells, all zero at first.  They are kept in a binary trie, in which a
cell that was never written takes no space.

Main results:

- `get_set`: a cell holds what was written to it last.
- `gather` and `scatter` read and write cells through an addressing function;
  `get_scatter_of_ne` says that cells not addressed keep their values.
-/

namespace CacheMeter.Ring

/-! ## The trie -/

/-- Byte cells.  A node holds cell 0; of the cells after it, those at even distance go
left and those at odd distance go right. -/
inductive Cells
  | blank
  | node (byte : UInt8) (left right : Cells)
deriving DecidableEq, Repr, Inhabited

namespace Cells

/-- Cell 0. -/
def root : Cells → UInt8
  | blank => 0
  | node byte _ _ => byte

/-- The cells 1, 3, 5, …. -/
def left : Cells → Cells
  | blank => blank
  | node _ left _ => left

/-- The cells 2, 4, 6, …. -/
def right : Cells → Cells
  | blank => blank
  | node _ _ right => right

/-- The byte in a cell. -/
def get : Cells → Nat → UInt8
  | blank, _ => 0
  | node byte _ _, 0 => byte
  | node _ left right, n + 1 => if n % 2 = 0 then left.get (n / 2) else right.get (n / 2)

/-- Write a byte to a cell. -/
def set (cells : Cells) (address : Nat) (byte : UInt8) : Cells :=
  match address with
  | 0 => node byte cells.left cells.right
  | n + 1 =>
    if n % 2 = 0 then node cells.root (cells.left.set (n / 2) byte) cells.right
    else node cells.root cells.left (cells.right.set (n / 2) byte)
termination_by address

theorem get_zero (cells : Cells) : cells.get 0 = cells.root := by
  cases cells <;> rfl

theorem get_succ (cells : Cells) (n : Nat) :
    cells.get (n + 1) =
      if n % 2 = 0 then cells.left.get (n / 2) else cells.right.get (n / 2) := by
  cases cells with
  | blank => simp [get, left, right]
  | node => rfl

/-- A cell holds what was written to it last. -/
theorem get_set (cells : Cells) (address other : Nat) (byte : UInt8) :
    (cells.set address byte).get other = if address = other then byte else cells.get other := by
  fun_induction set cells address byte generalizing other with
  | case1 cells =>
    cases other with
    | zero => rfl
    | succ k => simp [get, get_succ]
  | case2 cells n heven ih =>
    cases other with
    | zero => simp [get, get_zero]
    | succ k =>
      by_cases hk : k % 2 = 0
      · have hiff : n / 2 = k / 2 ↔ n + 1 = k + 1 := by omega
        simp only [get, get_succ, hk, if_true, ih, hiff]
      · have hne : ¬ n + 1 = k + 1 := by omega
        simp only [get, get_succ, hk, if_false, hne]
  | case3 cells n hodd ih =>
    cases other with
    | zero => simp [get, get_zero]
    | succ k =>
      by_cases hk : k % 2 = 0
      · have hne : ¬ n + 1 = k + 1 := by omega
        simp only [get, get_succ, hk, if_true, hne, if_false]
      · have hiff : n / 2 = k / 2 ↔ n + 1 = k + 1 := by omega
        simp only [get, get_succ, hk, if_false, ih, hiff]

end Cells

/-! ## Runs of cells -/

/-- The bytes in the cells `place 0`, `place 1`, …, `place (count - 1)`. -/
def gather (cells : Cells) (place : Nat → Nat) (count : Nat) : Bytes :=
  (List.range count).map fun i => cells.get (place i)

/-- Write bytes into the cells `place i`, `place (i + 1)`, …. -/
def scatter (place : Nat → Nat) : Nat → Bytes → Cells → Cells
  | _, [], cells => cells
  | i, byte :: rest, cells => scatter place (i + 1) rest (cells.set (place i) byte)

@[simp]
theorem length_gather (cells : Cells) (place : Nat → Nat) (count : Nat) :
    (gather cells place count).length = count := by
  simp [gather]

/-- A cell that no written byte is placed in keeps its value. -/
theorem get_scatter_of_ne {place : Nat → Nat} {i : Nat} {bytes : Bytes} {cells : Cells}
    {address : Nat} (h : ∀ k < bytes.length, place (i + k) ≠ address) :
    (scatter place i bytes cells).get address = cells.get address := by
  induction bytes generalizing i cells with
  | nil => rfl
  | cons byte rest ih =>
    have hhead : place i ≠ address := h 0 (by simp)
    have htail : ∀ k < rest.length, place (i + 1 + k) ≠ address := fun k hk => by
      have := h (k + 1) (by simpa using hk)
      rwa [Nat.add_assoc, Nat.add_comm 1 k]
    rw [scatter, ih htail, Cells.get_set, if_neg hhead]

end CacheMeter.Ring
