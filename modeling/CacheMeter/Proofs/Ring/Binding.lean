import Mathlib
import CacheMeter.Proofs.Ring.Allocation
import CacheMeter.Proofs.Ring.Enclosure

/-!
# Binding to sound geometries

A side binds to a region after five requirements were checked in order, the last of them with an
end of the data region that saturates instead of wrapping.  As no region takes up the whole address
space, saturating never hides that the data region does not fit.  Behind these requirements every
access is safe, and what was laid out for a ring meets them as soon as its capacity does.

Main results:

- Definition `View.requirements`: what is asked of a region, in order.
- Theorem `View.judged_bind`: binding is refused for the first requirement that is not met.
- Theorem `View.enclosed_of_met`: where they are met, every access stays in the data region.
- Theorem `Region.attach_allocate_iff`: to which of the regions laid out a side can bind.
- Theorem `View.bind_iff_sound`: exactly the sound geometries are bound, and they enclose every
  access.
-/

namespace CacheMeter.Ring

/-! ## Requirements in order -/

/-- Something that is asked for, and the refusal if it is not the case. -/
structure Requirement where
  holds : Prop
  refusal : Refusal

/-- The first requirement that is not met refuses; if all are met, the outcome is the view. -/
def Judged (view : View) : List Requirement → Except Refusal View → Prop
  | [], outcome => outcome = .ok view
  | requirement :: rest, outcome =>
    (requirement.holds → Judged view rest outcome) ∧
      (¬ requirement.holds → outcome = .error requirement.refusal)

namespace Judged

variable {view : View} {requirements : List Requirement} {outcome : Except Refusal View}

/-- One check, and what is judged behind it. -/
theorem check {condition holds : Prop} [Decidable condition] {refusal : Refusal}
    (hcondition : condition ↔ ¬ holds) (hrest : holds → Judged view requirements outcome) :
    Judged view ({ holds := holds, refusal := refusal } :: requirements)
      (if condition then .error refusal else outcome) := by
  refine ⟨?_, ?_⟩
  · intro hholds
    rw [if_neg (hcondition.not.mpr (not_not.mpr hholds))]
    exact hrest hholds
  · intro hfails
    rw [if_pos (hcondition.mpr hfails)]

theorem eq_ok_iff (h : Judged view requirements outcome) (bound : View) :
    outcome = .ok bound ↔ (∀ requirement ∈ requirements, requirement.holds) ∧ bound = view := by
  induction requirements with
  | nil =>
    rw [Judged] at h
    simp [h, eq_comm]
  | cons requirement rest ih =>
    rcases h with ⟨hmet, hnot⟩
    by_cases hholds : requirement.holds
    · simp [ih (hmet hholds), hholds]
    · simp [hnot hholds, hholds]

/-- A refusal is that of the first requirement that is not met. -/
theorem eq_error_iff (h : Judged view requirements outcome) (refusal : Refusal) :
    outcome = .error refusal ↔ ∃ before requirement after,
      requirements = before ++ requirement :: after ∧
        (∀ earlier ∈ before, earlier.holds) ∧ ¬ requirement.holds ∧
          requirement.refusal = refusal := by
  induction requirements with
  | nil =>
    rw [Judged] at h
    simp [h]
  | cons first rest ih =>
    rcases h with ⟨hmet, hnot⟩
    by_cases hholds : first.holds
    · rw [ih (hmet hholds)]
      constructor
      · rintro ⟨before, requirement, after, rfl, hbefore, hfails, hrefusal⟩
        refine ⟨first :: before, requirement, after, rfl, ?_, hfails, hrefusal⟩
        simpa [hholds] using hbefore
      · rintro ⟨before, requirement, after, hsplit, hbefore, hfails, hrefusal⟩
        cases before with
        | nil =>
          rw [List.nil_append, List.cons.injEq] at hsplit
          exact absurd (hsplit.1 ▸ hholds) hfails
        | cons earlier before =>
          rw [List.cons_append, List.cons.injEq] at hsplit
          exact ⟨before, requirement, after, hsplit.2,
            fun other hmem => hbefore other (List.mem_cons_of_mem _ hmem), hfails, hrefusal⟩
    · rw [hnot hholds, Except.error.injEq]
      constructor
      · intro hrefusal
        exact ⟨[], first, rest, rfl, by simp, hholds, hrefusal⟩
      · rintro ⟨before, requirement, after, hsplit, hbefore, -, hrefusal⟩
        cases before with
        | nil =>
          rw [List.nil_append, List.cons.injEq] at hsplit
          rw [hsplit.1, hrefusal]
        | cons earlier before =>
          rw [List.cons_append, List.cons.injEq] at hsplit
          have hearlier := hbefore earlier List.mem_cons_self
          exact absurd (hsplit.1 ▸ hearlier) hholds

end Judged

/-! ## What is asked of a region -/

/-- The memory of the region lies in the address space, behind the null address. -/
def Region.Placed (region : Region) : Prop :=
  ∀ skew, region.base = some skew →
    ∃ address, 0 < address ∧ address % 8 = skew % 8 ∧ address + region.size ≤ UInt64.size

namespace View

/-- What is asked of a region for a side to bind to data pages of the given number and size. -/
def requirements (region : Region) (dataPages : UInt32) (pageSize : UInt64) :
    List Requirement :=
  let capacity := dataPages.toNat * pageSize.toNat
  let dataStart := dataStartOf region pageSize
  [{ holds := region.base ≠ none ∧ region.size ≠ 0
     refusal := .noMemory },
    { holds := capacity < UInt64.size ∧ capacity.isPowerOfTwo ∧ 8 ≤ capacity
      refusal := .badCapacity },
    { holds := ∀ skew, region.base = some skew → skew % 8 = 0
      refusal := .misaligned },
    { holds := Metadata.size ≤ region.size
      refusal := .regionTooSmall region.size Metadata.size },
    { holds := Metadata.size ≤ dataStart ∧ dataStart + capacity < UInt64.size ∧
        dataStart + capacity ≤ region.size
      refusal := .regionTooSmall region.size (min (dataStart + capacity) maxWord) }]

/-- What a side that binds to the data pages sees. -/
def bound (region : Region) (dataPages : UInt32) (pageSize : UInt64) : View where
  dataStart := dataStartOf region pageSize
  capacity := dataPages.toNat * pageSize.toNat
  readPos := region.tail
  writePos := region.head

variable {region : Region} {dataPages : UInt32} {pageSize : UInt64}

/-- Aligned memory cannot begin in the first bytes of the address space, so it does not take up
all of it. -/
theorem size_lt_maxWord (hplaced : region.Placed) (hsome : region.base ≠ none)
    (haligned : ∀ skew, region.base = some skew → skew % 8 = 0) : region.size < maxWord := by
  obtain ⟨skew, hskew⟩ := Option.ne_none_iff_exists'.mp hsome
  obtain ⟨address, hpos, hmod, hend⟩ := hplaced skew hskew
  have haddress := haligned skew hskew
  unfold maxWord
  omega

/-- The requirements are checked in order. -/
theorem judged_bind (hplaced : region.Placed) (dataPages : UInt32) (pageSize : UInt64) :
    Judged (bound region dataPages pageSize) (requirements region dataPages pageSize)
      (bind region dataPages pageSize) := by
  have hword : maxWord + 1 = UInt64.size := rfl
  refine .check ?_ fun hmemory => .check ?_ fun hcapacity => .check ?_ fun haligned =>
    .check ?_ fun _ => .check ?_ fun _ => rfl
  · simp [Region.isEmpty, or_iff_not_imp_left]
  · simp only [Bool.or_eq_true, decide_eq_true_eq, Bool.not_eq_true', decide_eq_false_iff_not]
    by_cases hpow : (dataPages.toNat * pageSize.toNat).isPowerOfTwo
    · simp only [hpow, not_true, or_false, true_and]
      omega
    · simp only [hpow, not_false_iff, or_true, false_and, and_false]
  · obtain ⟨skew, hskew⟩ := Option.ne_none_iff_exists'.mp hmemory.1
    simp [Region.isAligned, hskew]
  · exact Nat.not_le.symm
  · -- The end saturates at a size that the region does not have.
    have hless := size_lt_maxWord hplaced hmemory.1 haligned
    simp only [Bool.or_eq_true, decide_eq_true_eq]
    omega

/-- Once it is bound, the data region encloses every access, wherever the cursors are. -/
theorem enclosed_of_met
    (hmet : ∀ requirement ∈ requirements region dataPages pageSize, requirement.holds)
    (readPos writePos : UInt64) :
    Enclosed { bound region dataPages pageSize with readPos := readPos, writePos := writePos }
      region := by
  have hword : maxWord + 1 = UInt64.size := rfl
  simp only [requirements, List.forall_mem_cons] at hmet
  obtain ⟨-, ⟨hless, hpow, hlarge⟩, -, -, ⟨hstart, -, hend⟩, -⟩ := hmet
  have hle : dataPages.toNat * pageSize.toNat ≤ maxWord := by omega
  unfold bound
  generalize dataStartOf region pageSize = dataStart at *
  exact enclosed hpow hle hlarge hstart hend

end View

/-! ## Memory laid out for a ring -/

namespace Region

variable {region : Region} {dataPages : UInt32} {pageSize : UInt64} {view : View}

/-- A side can bind to what was laid out exactly if the data pages are a power of two of bytes, at
least eight. -/
theorem attach_allocate_iff (h : allocate dataPages pageSize = .ok region) :
    (∃ view, View.attach region = .ok view) ↔
      (dataPages.toNat * pageSize.toNat).isPowerOfTwo ∧
        8 ≤ dataPages.toNat * pageSize.toNat := by
  have hlaid := laidOut_of_allocate h
  constructor
  · rintro ⟨view, hattach⟩
    obtain ⟨-, ⟨hpow, hlarge, -⟩, -, hview⟩ := View.attach_eq_ok_iff.mp hattach
    have hcapacity : view.capacity = dataPages.toNat * pageSize.toNat := by
      rw [hview, hlaid.dataPages_eq, hlaid.pageSize_eq]
    rw [hcapacity] at hpow hlarge
    exact ⟨hpow, hlarge⟩
  · rintro ⟨hpow, hlarge⟩
    exact ⟨_, hlaid.attach hpow hlarge⟩

/-- The data region is then the last of the memory. -/
theorem dataEnd_of_allocate (h : allocate dataPages pageSize = .ok region)
    (hattach : View.attach region = .ok view) :
    view.capacity = dataPages.toNat * pageSize.toNat ∧
      view.dataStart + view.capacity = region.size := by
  obtain ⟨hpow, hlarge⟩ := (attach_allocate_iff h).mp ⟨view, hattach⟩
  have hlaid := laidOut_of_allocate h
  rw [hlaid.attach hpow hlarge, Except.ok.injEq] at hattach
  rw [← hattach, hlaid.size_eq, Nat.mul_comm]
  exact ⟨rfl, rfl⟩

end Region

/-! ## Sound geometries -/

namespace View

/-- What binding to a region with data pages of a given number and size comes to. -/
structure BindsSound (region : Region) (dataPages : UInt32) (pageSize : UInt64) : Prop where
  /-- A side is bound exactly if all requirements are met, … -/
  eq_ok_iff : ∀ view, bind region dataPages pageSize = .ok view ↔
    (∀ requirement ∈ requirements region dataPages pageSize, requirement.holds) ∧
      view = bound region dataPages pageSize
  /-- … and otherwise refused for the first one that is not. -/
  eq_error_iff : ∀ refusal, bind region dataPages pageSize = .error refusal ↔
    ∃ before requirement after,
      requirements region dataPages pageSize = before ++ requirement :: after ∧
        (∀ earlier ∈ before, earlier.holds) ∧ ¬ requirement.holds ∧
          requirement.refusal = refusal
  /-- Its accesses stay in the data region, wherever its cursors are. -/
  enclosed : ∀ view, bind region dataPages pageSize = .ok view → ∀ readPos writePos,
    Enclosed { view with readPos := readPos, writePos := writePos } region

/-- What binding to memory that was laid out for a ring comes to. -/
structure BindsLaidOut (region : Region) (dataPages : UInt32) (pageSize : UInt64) : Prop where
  exists_iff : (∃ view, attach region = .ok view) ↔
    (dataPages.toNat * pageSize.toNat).isPowerOfTwo ∧ 8 ≤ dataPages.toNat * pageSize.toNat
  capacity_eq : ∀ view, attach region = .ok view →
    view.capacity = dataPages.toNat * pageSize.toNat
  dataEnd_eq : ∀ view, attach region = .ok view → view.dataStart + view.capacity = region.size

/-- A side binds to exactly the regions of a sound geometry, and its accesses stay in the data
region; what was laid out for a ring is bound exactly if it has a capacity that a ring can have. -/
theorem bind_iff_sound (region : Region) (dataPages : UInt32) (pageSize : UInt64) :
    (region.Placed → BindsSound region dataPages pageSize) ∧
      (Region.allocate dataPages pageSize = .ok region →
        BindsLaidOut region dataPages pageSize) := by
  constructor
  · intro hplaced
    have hjudged := judged_bind hplaced dataPages pageSize
    refine ⟨hjudged.eq_ok_iff, hjudged.eq_error_iff, ?_⟩
    intro view hbind
    obtain ⟨hmet, rfl⟩ := (hjudged.eq_ok_iff view).mp hbind
    exact enclosed_of_met hmet
  · intro hallocate
    exact ⟨Region.attach_allocate_iff hallocate,
      fun _ hattach => (Region.dataEnd_of_allocate hallocate hattach).1,
      fun _ hattach => (Region.dataEnd_of_allocate hallocate hattach).2⟩

/-- Four pages of eight bytes are laid out behind 134 pages of metadata and bound, and a side whose
cursors are round the end of all words still stays in the last 32 bytes; a region that advertises
data from the last 16 bytes of the address space on is refused. -/
theorem bind_iff_sound_smallPages :
    let laidOut := ((Region.zeroed 1104 0 4 8).store Metadata.dataOffsetOffset
      (Bytes.ofWord64 1072)).store Metadata.dataSizeOffset (Bytes.ofWord64 32)
    let astray := (Region.zeroed 1104 0 4 8).store Metadata.dataOffsetOffset
      (Bytes.ofWord64 18446744073709551600)
    let view : View := { dataStart := 1072, capacity := 32, readPos := 0, writePos := 0 }
    Region.allocate 4 8 = .ok laidOut ∧ attach laidOut = .ok view ∧
      view.dataStart + view.capacity = laidOut.size ∧ laidOut.Placed ∧
        Enclosed { view with readPos := 18446744073709551612, writePos := 20 } laidOut ∧
      astray.Placed ∧ BindsSound astray 4 8 ∧
        bind astray 4 8 = .error (.regionTooSmall 1104 maxWord) := by
  intro laidOut astray view
  have hallocate : Region.allocate 4 8 = .ok laidOut := by decide +kernel
  have hattach : attach laidOut = .ok view := by decide +kernel
  have hplaced : laidOut.Placed := fun skew hskew =>
    ⟨4096, by decide, by rw [← Option.some.inj hskew], by decide⟩
  have hastray : astray.Placed := fun skew hskew =>
    ⟨4096, by decide, by rw [← Option.some.inj hskew], by decide⟩
  rcases bind_iff_sound laidOut 4 8 with ⟨hsound, hlaidOut⟩
  exact ⟨hallocate, hattach, (hlaidOut hallocate).dataEnd_eq view hattach, hplaced,
    (hsound hplaced).enclosed view hattach _ _, hastray, (bind_iff_sound astray 4 8).1 hastray,
    by decide +kernel⟩

end View

end CacheMeter.Ring
