import Mathlib
import CacheMeter.Proofs.Merge.Reader

/-!
# One batch

While a batch is open the heap holds exactly the rings that have an unread record, each
under the key of that record.  So the records of a batch come out as the merge of the
queues that the rings contribute.

Main results:

- Structure `Merger.Keyed`: the heap agrees with the rings.
- Theorem `Merger.keyed_start`: opening a batch on a fresh merger establishes this.
- Theorem `Merger.Keyed.popped`: popping preserves it.
- Theorem `Merger.drain_merges`: a batch is a merge of the queues of all rings, whatever
  their data regions and cursors hold.
-/

namespace CacheMeter

open CacheMeter.Ring CacheMeter.Merge

namespace Merger

variable {merger : Merger} {memory : Memory} {ring : Nat}

/-! ## Readers by number -/

/-- A ring that there is not has no next record. -/
theorem headTime?_default (memory : Memory) : (default : Reader).headTime? memory = none :=
  rfl

/-- Below the number of rings a reader is what the array holds. -/
theorem reader_of_lt (h : ring < merger.readers.size) :
    merger.reader ring = merger.readers[ring] := by
  simp [reader, h]

/-- A ring that is not registered has nothing to read. -/
theorem reader_of_ge (h : merger.readers.size ≤ ring) : merger.reader ring = default := by
  simp [reader, h]

/-- A ring that is not empty is one of them. -/
theorem lt_size_of_full (h : (merger.reader ring).view.isEmpty = false) :
    ring < merger.readers.size := by
  by_contra hge
  rw [reader_of_ge (Nat.le_of_not_lt hge)] at h
  exact Bool.noConfusion h

/-! ## Agreement of heap and rings -/

/-- The heap holds exactly the rings that have an unread record, each under the key of
that record. -/
structure Keyed (merger : Merger) (memory : Memory) : Prop where
  valid : merger.heap.Valid
  key?_eq : ∀ ring, merger.heap.key? ring = (merger.reader ring).headTime? memory

/-- What the first entry says about the rings. -/
theorem Keyed.of_peek? (h : Keyed merger memory) {entry : Entry}
    (hpeek : merger.heap.peek? = some entry) :
    (merger.reader entry.ring).view.isEmpty = false ∧
      entry.time = ((merger.reader entry.ring).front memory entry.ring).time := by
  have hkey := h.valid.key?_of_peek? hpeek
  rw [h.key?_eq] at hkey
  have hfull : (merger.reader entry.ring).view.isEmpty = false := by
    by_contra hempty
    rw [Reader.headTime?_eq_none_iff.mpr (by simpa using hempty)] at hkey
    exact Option.some_ne_none _ hkey.symm
  rw [Reader.headTime?_of_full hfull entry.ring] at hkey
  exact ⟨hfull, (Option.some.inj hkey).symm⟩

/-- The merger is empty exactly if every ring is. -/
theorem Keyed.isEmpty_iff (h : Keyed merger memory) :
    merger.isEmpty = true ↔ ∀ ring, (merger.reader ring).view.isEmpty = true := by
  rw [Merger.isEmpty, IndexedHeap.Valid.isEmpty_iff_peek?, h.valid.peek?_eq_none_iff]
  apply forall_congr'
  intro ring
  rw [h.key?_eq, Reader.headTime?_eq_none_iff]

/-! ## Opening a batch -/

/-- The heap with a key for the ring, unless it has one already. -/
def enter (heap : IndexedHeap) (ring : Nat) (time? : Option UInt64) : IndexedHeap :=
  if heap.contains ring then heap
  else
    match time? with
    | some time => heap.set ring time
    | none => heap

/-- To enter the next record of a ring keeps the heap in order, and gives its ring a key. -/
theorem valid_enter {heap : IndexedHeap} (h : heap.Valid) (ring : Nat)
    (time? : Option UInt64) :
    (enter heap ring time?).Valid ∧ ∀ other, (enter heap ring time?).key? other =
      if ring = other then (heap.key? other).or time? else heap.key? other := by
  have hcontains := h.indexed.contains_eq_isSome ring
  unfold enter
  cases hkey : heap.key? ring with
  | some held =>
    rw [hkey, Option.isSome_some] at hcontains
    rw [if_pos hcontains]
    refine ⟨h, ?_⟩
    intro other
    split_ifs with hsame
    · rw [← hsame, hkey, Option.some_or]
    · rfl
  | none =>
    rw [hkey] at hcontains
    rw [if_neg (by simp [hcontains])]
    cases time? with
    | some time =>
      refine ⟨h.set ring time, ?_⟩
      intro other
      rw [h.key?_set]
      split_ifs with hsame
      · rw [← hsame, hkey, Option.none_or]
      · rfl
    | none =>
      refine ⟨h, ?_⟩
      intro other
      rw [Option.or_none, ite_self]

/-- Rings are entered one by one. -/
theorem seed_cons (memory : Memory) (reader : Reader) (ring : Nat)
    (rest : List (Reader × Nat)) (heap : IndexedHeap) :
    seed memory ((reader, ring) :: rest) heap =
      seed memory rest (enter heap ring (reader.headTime? memory)) :=
  rfl

/-- Seeding keys every listed ring that is not held already. -/
theorem valid_seed (memory : Memory) (readers : List Reader) (first : Nat)
    {heap : IndexedHeap} (h : heap.Valid) :
    (seed memory (readers.zipIdx first) heap).Valid ∧ ∀ ring,
      (seed memory (readers.zipIdx first) heap).key? ring =
        (heap.key? ring).or
          (if first ≤ ring then
            (readers[ring - first]?).bind fun reader => reader.headTime? memory
          else none) := by
  induction readers generalizing first heap with
  | nil =>
    refine ⟨h, ?_⟩
    intro ring
    simp [seed]
  | cons reader rest ih =>
    rcases valid_enter h first (reader.headTime? memory) with ⟨hvalid, hkey⟩
    rcases ih (first + 1) hvalid with ⟨hvalid', hkey'⟩
    rw [List.zipIdx_cons, seed_cons]
    refine ⟨hvalid', ?_⟩
    intro ring
    rw [hkey', hkey]
    rcases Nat.lt_trichotomy first ring with hlt | rfl | hgt
    · have hindex : ring - first = (ring - (first + 1)) + 1 := by omega
      rw [if_neg hlt.ne, if_pos (Nat.succ_le_of_lt hlt), if_pos hlt.le, hindex,
        List.getElem?_cons_succ]
    · rw [if_pos rfl, if_neg (by omega), if_pos le_rfl, Nat.sub_self,
        List.getElem?_cons_zero, Option.or_none, Option.bind_some]
    · rw [if_neg hgt.ne', if_neg (by omega), if_neg (by omega)]

/-- The merger after opening a batch. -/
def started (merger : Merger) (memory : Memory) : Merger :=
  let readers := merger.readers.map fun reader => reader.startRead memory
  { readers := readers
    heap := seed memory readers.toList.zipIdx merger.heap
    isOpen := true }

/-- A batch opens if there are rings and none is open. -/
theorem start_eq_started (hrings : merger.readers ≠ #[]) (hclosed : merger.isOpen = false) :
    merger.start memory = .ok (merger.started memory) := by
  have hsome : merger.readers.isEmpty = false := by simpa using hrings
  simp [start, started, hsome, hclosed]

/-- Every reader has seen then what is published. -/
theorem reader_started (merger : Merger) (memory : Memory) (hlt : ring < merger.readers.size) :
    (merger.started memory).reader ring = (merger.reader ring).startRead memory := by
  simp [reader, started, hlt]

/-- A batch keys the rings that are held already as they are held, and the others by
their current record. -/
theorem key?_started (hvalid : merger.heap.Valid) (ring : Nat) :
    (merger.started memory).heap.key? ring =
      (merger.heap.key? ring).or (((merger.started memory).reader ring).headTime? memory) := by
  have hseed := (valid_seed memory (merger.started memory).readers.toList 0 hvalid).2 ring
  rw [if_pos (Nat.zero_le ring), Nat.sub_zero] at hseed
  refine hseed.trans (congrArg _ ?_)
  rcases Nat.lt_or_ge ring (merger.started memory).readers.size with hlt | hge
  · rw [reader_of_lt hlt]
    simp [hlt]
  · rw [reader_of_ge hge, headTime?_default]
    simp [hge]

/-- The heap is in order when a batch opens. -/
theorem valid_started (hvalid : merger.heap.Valid) : (merger.started memory).heap.Valid :=
  (valid_seed memory (merger.started memory).readers.toList 0 hvalid).1

/-- Opening a batch on a fresh merger brings heap and rings into agreement. -/
theorem keyed_start (readers : Array Reader) (memory : Memory) :
    Keyed (started { readers := readers } memory) memory where
  valid := valid_started IndexedHeap.valid_empty
  key?_eq ring := by
    have hnone : ({ readers := readers } : Merger).heap.key? ring = none :=
      IndexedHeap.key?_empty ring
    rw [key?_started IndexedHeap.valid_empty, hnone, Option.none_or]

/-! ## Popping -/

/-- The merger after popping the current record of a ring. -/
def popped (merger : Merger) (memory : Memory) (ring : Nat) : Merger :=
  let behind := (merger.reader ring).popped memory
  { merger with
    readers := merger.readers.setIfInBounds ring behind
    heap := rekey merger.heap ring (behind.headTime? memory) }

/-- A pop does not close the batch. -/
@[simp]
theorem isOpen_popped (merger : Merger) (memory : Memory) (ring : Nat) :
    (merger.popped memory ring).isOpen = merger.isOpen := rfl

/-- It moves one reader. -/
theorem reader_popped (hlt : ring < merger.readers.size) (other : Nat) :
    (merger.popped memory ring).reader other =
      if ring = other then (merger.reader ring).popped memory else merger.reader other := by
  simp only [reader, popped, Array.getD_eq_getD_getElem?, Array.getElem?_setIfInBounds]
  split_ifs with hsame
  · rfl
  · rfl

/-- To give a ring its next key, or none, keeps the heap in order. -/
theorem valid_rekey {heap : IndexedHeap} (h : heap.Valid) (ring : Nat)
    (time? : Option UInt64) :
    (rekey heap ring time?).Valid ∧ ∀ other, (rekey heap ring time?).key? other =
      if ring = other then time? else heap.key? other := by
  cases time? with
  | some time => exact h.set_spec ring time
  | none => exact h.remove_spec ring

namespace Keyed

/-- After a pop every ring that is not empty has its key. -/
theorem popped (h : Keyed merger memory) (hlt : ring < merger.readers.size) :
    Keyed (merger.popped memory ring) memory where
  valid := (valid_rekey h.valid ring _).1
  key?_eq other := by
    rw [reader_popped hlt]
    refine ((valid_rekey h.valid ring _).2 other).trans ?_
    split_ifs
    · rfl
    · exact h.key?_eq other

/-- A pop takes the ring whose entry comes first. -/
theorem pop_eq_popped (h : Keyed merger memory) (hopen : merger.isOpen = true) {entry : Entry}
    (hpeek : merger.heap.peek? = some entry) :
    merger.pop memory = .ok (merger.popped memory entry.ring) := by
  have hfull := (h.of_peek? hpeek).1
  have hhead : merger.head = .ok entry := by simp [head, hopen, hpeek]
  rw [pop, hhead]
  dsimp only [Bind.bind, Except.bind]
  rw [Reader.pop_of_full hfull]
  rfl

/-- The current record is the front record of that ring. -/
theorem current_eq_front (h : Keyed merger memory) (hopen : merger.isOpen = true)
    {entry : Entry} (hpeek : merger.heap.peek? = some entry) :
    merger.current memory =
      .ok ((merger.reader entry.ring).front memory entry.ring) := by
  rcases h.of_peek? hpeek with ⟨hfull, htime⟩
  have hhead : merger.head = .ok entry := by simp [head, hopen, hpeek]
  rw [current, hhead]
  dsimp only [Bind.bind, Except.bind]
  rw [Reader.record?_of_full hfull entry.ring]
  dsimp only
  rw [htime, Reader.mk_front]

/-- The first entry's record is the least of the current records. -/
theorem rank_le_of_peek? (h : Keyed merger memory) {entry : Entry}
    (hpeek : merger.heap.peek? = some entry)
    (hfull : (merger.reader ring).view.isEmpty = false) :
    ((merger.reader entry.ring).front memory entry.ring).rank ≤
      ((merger.reader ring).front memory ring).rank := by
  have hkey := h.key?_eq ring
  rw [Reader.headTime?_of_full hfull ring] at hkey
  have hle := h.valid.le_of_peek? hpeek hkey
  have hentry : entry.rank =
      Entry.rank ⟨((merger.reader entry.ring).front memory entry.ring).time, entry.ring⟩ := by
    rw [← (h.of_peek? hpeek).2]
  rw [Reader.rank_front, Reader.rank_front, ← hentry]
  exact hle

end Keyed

/-! ## The number of pops -/

/-- Another reader in the place of one changes a total over the readers by the difference of
the two. -/
theorem sum_map_set (weight : Reader → Nat) {readers : List Reader} {before : Reader}
    (after : Reader) (h : readers[ring]? = some before) :
    ((readers.set ring after).map weight).sum + weight before =
      (readers.map weight).sum + weight after := by
  induction readers generalizing ring with
  | nil => simp at h
  | cons first rest ih =>
    cases ring with
    | zero =>
      rw [List.getElem?_cons_zero, Option.some.injEq] at h
      rw [h, List.set_cons_zero]
      simp only [List.map_cons, List.sum_cons]
      omega
    | succ ring =>
      have hrest := ih (by simpa using h)
      rw [List.set_cons_succ]
      simp only [List.map_cons, List.sum_cons]
      omega

/-- Popping changes a total over the readers by what it changes of the one that is popped. -/
theorem sum_map_popped (weight : Reader → Nat)
    (hfull : (merger.reader ring).view.isEmpty = false) (memory : Memory) :
    ((merger.popped memory ring).readers.toList.map weight).sum + weight (merger.reader ring) =
      (merger.readers.toList.map weight).sum +
        weight ((merger.reader ring).popped memory) := by
  have hlt := lt_size_of_full hfull
  have hreader : merger.readers.toList[ring]? = some (merger.reader ring) := by
    rw [reader_of_lt hlt]
    simp [hlt]
  have hset := sum_map_set weight ((merger.reader ring).popped memory) hreader
  simpa only [Merger.popped, Array.toList_setIfInBounds] using hset

/-- The backlog as a total. -/
theorem backlog_eq_sum (merger : Merger) :
    merger.backlog = (merger.readers.toList.map fun reader => reader.view.used).sum := by
  rw [backlog, List.sum, List.foldr_map]

/-- Every pop leaves fewer unread bytes. -/
theorem backlog_popped_lt (hfull : (merger.reader ring).view.isEmpty = false)
    (memory : Memory) :
    (merger.popped memory ring).backlog < merger.backlog := by
  have htotal := sum_map_popped (fun reader => reader.view.used) hfull memory
  have hview : ((merger.reader ring).popped memory).view.used <
      (merger.reader ring).view.used := View.used_popped_lt hfull _
  rw [backlog_eq_sum, backlog_eq_sum]
  omega

/-- Without unread bytes no ring has an unread record. -/
theorem isEmpty_of_backlog (h : merger.backlog = 0) (ring : Nat) :
    (merger.reader ring).view.isEmpty = true := by
  by_contra hsome
  have hfull : (merger.reader ring).view.isEmpty = false := by simpa using hsome
  have hless := backlog_popped_lt hfull #[]
  omega

/-! ## Draining a batch -/

/-- As long as an entry comes first, the batch is not at its end. -/
theorem isEmpty_eq_false_of_peek? {entry : Entry} (hpeek : merger.heap.peek? = some entry) :
    merger.isEmpty = false := by
  rw [Merger.isEmpty, ← Bool.not_eq_true, IndexedHeap.Valid.isEmpty_iff_peek?, hpeek]
  exact Option.some_ne_none entry

/-- From an empty merger nothing comes out. -/
theorem drainUpTo_of_isEmpty (hempty : merger.isEmpty = true) (memory : Memory) (limit : Nat) :
    merger.drainUpTo memory limit = { merger := merger } := by
  cases limit with
  | zero => rfl
  | succ limit => rw [drainUpTo, if_pos hempty]

/-- Otherwise the record of the first entry comes out, and behind it what comes out once its ring
is popped. -/
theorem Keyed.drainUpTo_succ (h : Keyed merger memory) (hopen : merger.isOpen = true)
    {entry : Entry} (hpeek : merger.heap.peek? = some entry) (limit : Nat) :
    merger.drainUpTo memory (limit + 1) =
      { (merger.popped memory entry.ring).drainUpTo memory limit with
        records := (merger.reader entry.ring).front memory entry.ring ::
          ((merger.popped memory entry.ring).drainUpTo memory limit).records } := by
  rw [drainUpTo, isEmpty_eq_false_of_peek? hpeek, h.current_eq_front hopen hpeek,
    h.pop_eq_popped hopen hpeek]
  rfl

/-- What draining an open batch gives: a merge of what the rings give by themselves, and
a merger without unread records that still agrees with the rings. -/
structure DrainsTo (memory : Memory) (merger : Merger) (drained : Drained) : Prop where
  refusal : drained.refusal = none
  isEmpty : drained.merger.isEmpty = true
  isOpen : drained.merger.isOpen = true
  keyed : Keyed drained.merger memory
  merges : Merges (fun ring => (merger.reader ring).alone memory ring) drained.records

/-- Nothing comes out of a batch at its end. -/
theorem Keyed.drainsTo_of_isEmpty (h : Keyed merger memory) (hopen : merger.isOpen = true)
    (hempty : merger.isEmpty = true) : DrainsTo memory merger { merger := merger } where
  refusal := rfl
  isEmpty := hempty
  isOpen := hopen
  keyed := h
  merges := .nil fun ring => Reader.alone_of_isEmpty (h.isEmpty_iff.mp hempty ring) ring

/-- All records come out of a batch if the limit is no less than its backlog. -/
theorem Keyed.drainsTo {limit : Nat} (h : Keyed merger memory) (hopen : merger.isOpen = true)
    (hlimit : merger.backlog ≤ limit) : DrainsTo memory merger (drainUpTo memory limit merger) := by
  induction limit generalizing merger with
  | zero =>
    exact h.drainsTo_of_isEmpty hopen
      (h.isEmpty_iff.mpr (isEmpty_of_backlog (Nat.le_zero.mp hlimit)))
  | succ limit ih =>
    cases hpeek : merger.heap.peek? with
    | none =>
      have hempty : merger.isEmpty = true := IndexedHeap.Valid.isEmpty_iff_peek?.mpr hpeek
      rw [drainUpTo_of_isEmpty hempty]
      exact h.drainsTo_of_isEmpty hopen hempty
    | some entry =>
      rcases h.of_peek? hpeek with ⟨hfull, -⟩
      have hlt := lt_size_of_full hfull
      have hless := backlog_popped_lt hfull memory
      rw [h.drainUpTo_succ hopen hpeek]
      obtain ⟨hrefusal, hdone, hstill, hkeyed, hmerges⟩ :=
        ih (h.popped hlt) hopen (by omega)
      refine ⟨hrefusal, hdone, hstill, hkeyed, .cons (Reader.alone_of_full hfull _) ?_ ?_⟩
      · intro ring front hfront
        have hring : (merger.reader ring).view.isEmpty = false := by
          by_contra hnone
          rw [Reader.alone_of_isEmpty (by simpa using hnone)] at hfront
          simp at hfront
        rw [Reader.alone_of_full hring, List.head?_cons, Option.some.injEq] at hfront
        rw [← hfront]
        exact h.rank_le_of_peek? hpeek hring
      · convert hmerges using 1
        funext ring
        rw [reader_popped hlt]
        by_cases hsame : ring = entry.ring
        · subst hsame
          rw [if_pos rfl]
          exact Function.update_self ..
        · rw [if_neg (Ne.symm hsame)]
          exact Function.update_of_ne hsame ..

/-! ## A whole batch -/

/-- The records that a ring holds up to the snapshot that opening a batch takes, read by
themselves. -/
def queues (readers : Array Reader) (memory : Memory) (ring : Nat) : List MergedRecord :=
  match readers[ring]? with
  | some reader => (reader.startRead memory).alone memory ring
  | none => []

/-- What a batch on a fresh merger gives. -/
structure MergesBatch (readers : Array Reader) (memory : Memory) (drained : Drained) : Prop where
  /-- Nothing was refused before all rings were empty. -/
  refusal : drained.refusal = none
  isEmpty : drained.merger.isEmpty = true
  /-- Restricted to a ring the records are those of the ring read by itself. -/
  filter_ring : ∀ ring,
    drained.records.filter (fun record => record.ring = ring) = queues readers memory ring
  /-- Each record is the least of the fronts of what is left in the rings. -/
  rank_le_front : ∀ before record after,
    drained.records = before ++ record :: after → ∀ ring front,
      ((queues readers memory ring).drop
          (before.filter fun record => record.ring = ring).length).head? = some front →
        record.rank ≤ front.rank
  /-- Records are keyed by their own type and payload, zero if they carry no time. -/
  keyed : ∀ record ∈ drained.records, record.Keyed
  /-- A record keyed zero at the front of a ring lets no positive key pass. -/
  time_eq_zero : ∀ before record after,
    drained.records = before ++ record :: after → ∀ ring front,
      ((queues readers memory ring).drop
          (before.filter fun record => record.ring = ring).length).head? = some front →
        front.time = 0 → record.time = 0
  /-- Samples with a timestamp come out in order if every ring has them in order. -/
  pairwise_carrying :
    (∀ ring, ((queues readers memory ring).filter MergedRecord.carriesTime).Pairwise
        fun a b => a.time ≤ b.time) →
      (drained.records.filter MergedRecord.carriesTime).Pairwise fun a b => a.time ≤ b.time

/-- What each ring has to give is what it had when the batch opened. -/
theorem alone_started (readers : Array Reader) (memory : Memory) :
    (fun ring => ((started { readers := readers } memory).reader ring).alone memory ring) =
      queues readers memory := by
  funext ring
  rcases Nat.lt_or_ge ring readers.size with hlt | hge
  · rw [reader_started { readers := readers } memory hlt]
    simp [queues, reader, hlt]
  · rw [reader_of_ge (by simpa [started] using hge), queues, Array.getElem?_eq_none hge]
    exact Reader.alone_of_isEmpty rfl ring

/-- All records of a queue say that they come from its ring. -/
theorem ring_of_mem_queues {readers : Array Reader} :
    ∀ ring, ∀ record ∈ queues readers memory ring, record.ring = ring := by
  intro ring record hmem
  rw [← alone_started] at hmem
  exact Reader.ring_of_mem_alone record hmem

/-- All of them have the time that their bytes say. -/
theorem keyed_of_mem_queues {readers : Array Reader} :
    ∀ ring, ∀ record ∈ queues readers memory ring, record.Keyed := by
  intro ring record hmem
  rw [← alone_started] at hmem
  exact Reader.keyed_of_mem_alone record hmem

/-- A batch over any rings, whatever their data regions and cursors hold, is opened, comes
to an end, and gives the merge of what the rings give by themselves. -/
theorem drain_merges (readers : Array Reader) (memory : Memory) (hrings : readers ≠ #[]) :
    ∃ merger : Merger, Merger.start { readers := readers } memory = .ok merger ∧
      MergesBatch readers memory (merger.drain memory) := by
  refine ⟨_, start_eq_started hrings rfl, ?_⟩
  obtain ⟨hrefusal, hempty, -, -, hmerges⟩ :=
    (keyed_start readers memory).drainsTo rfl (Nat.le_succ _)
  rw [alone_started] at hmerges
  exact
    { refusal := hrefusal
      isEmpty := hempty
      filter_ring := hmerges.filter_ring ring_of_mem_queues
      rank_le_front := by
        intro before record after hsplit ring front hfront
        exact hmerges.rank_le_front hsplit ring hfront
      keyed := by
        intro record hmem
        rcases hmerges.exists_of_mem hmem with ⟨ring, hring⟩
        exact keyed_of_mem_queues ring record hring
      time_eq_zero := by
        intro before record after hsplit ring front hfront hzero
        have hle := MergedRecord.time_le_of_rank_le (hmerges.rank_le_front hsplit ring hfront)
        rw [hzero] at hle
        exact UInt64.le_zero_iff.mp hle
      pairwise_carrying := hmerges.pairwise_carrying keyed_of_mem_queues }

/-- Two rings over one region of zeroes with sixteen bytes published: every header is
corrupt. -/
theorem drain_merges_zeroed :
    (#[{ region := 0, view := { dataStart := 1072, capacity := 32, readPos := 0, writePos := 0 } },
        { region := 0, view := { dataStart := 1072, capacity := 32, readPos := 8, writePos := 8 } }] :
        Array Reader) ≠ #[] ∧
      ∃ merger : Merger,
        Merger.start
            { readers :=
                #[{ region := 0
                    view := { dataStart := 1072, capacity := 32, readPos := 0, writePos := 0 } },
                  { region := 0
                    view := { dataStart := 1072, capacity := 32, readPos := 8, writePos := 8 } }] }
            #[(Region.zeroed 1104 0 4 8).publishHead 16] = .ok merger ∧
          MergesBatch
            #[{ region := 0
                view := { dataStart := 1072, capacity := 32, readPos := 0, writePos := 0 } },
              { region := 0
                view := { dataStart := 1072, capacity := 32, readPos := 8, writePos := 8 } }]
            #[(Region.zeroed 1104 0 4 8).publishHead 16]
            (merger.drain #[(Region.zeroed 1104 0 4 8).publishHead 16]) :=
  ⟨by decide, drain_merges _ _ (by decide)⟩

end Merger

end CacheMeter
