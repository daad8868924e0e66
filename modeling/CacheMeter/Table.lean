/-!
# Tables keyed by 32-bit identifiers

Monitored entities and monitoring identifiers are 32-bit numbers.  A table lists
its entries by ascending key, each key once, so that two tables with the same
entries are equal.

Main results:

- `get?_empty` and `get?_put` say what each operation does to a lookup.
- `ext_get?`: a table is determined by its lookups.
-/

namespace CacheMeter

/-! ## Ascending entry lists -/

namespace Table

variable {α : Type}

/-- The value stored under `key` in a list of entries. -/
def lookup (key : UInt32) : List (UInt32 × α) → Option α
  | [] => none
  | (k, value) :: rest => if k = key then some value else lookup key rest

/-- Store `value` under `key`, keeping the keys ascending. -/
def store (key : UInt32) (value : α) : List (UInt32 × α) → List (UInt32 × α)
  | [] => [(key, value)]
  | (k, old) :: rest =>
    if key < k then (key, value) :: (k, old) :: rest
    else if key = k then (key, value) :: rest
    else (k, old) :: store key value rest

/-- Keys strictly ascend along a list of entries. -/
def Ascending (entries : List (UInt32 × α)) : Prop :=
  entries.Pairwise (fun a b => a.1 < b.1)

instance (entries : List (UInt32 × α)) : Decidable (Ascending entries) :=
  inferInstanceAs (Decidable (entries.Pairwise (fun a b => a.1 < b.1)))

/-- A stored entry is the new one or one that was there before. -/
theorem mem_store {key : UInt32} {value : α} {entries : List (UInt32 × α)}
    {entry : UInt32 × α} (h : entry ∈ store key value entries) :
    entry = (key, value) ∨ entry ∈ entries := by
  induction entries with
  | nil => simpa [store] using h
  | cons head rest ih =>
    obtain ⟨k, old⟩ := head
    unfold store at h
    split at h
    · simpa using h
    · split at h
      · rcases List.mem_cons.mp h with rfl | h
        · exact Or.inl rfl
        · exact Or.inr (List.mem_cons_of_mem _ h)
      · rcases List.mem_cons.mp h with rfl | h
        · exact Or.inr List.mem_cons_self
        · rcases ih h with h | h
          · exact Or.inl h
          · exact Or.inr (List.mem_cons_of_mem _ h)

/-- To store a value keeps the keys ascending. -/
theorem ascending_store {key : UInt32} {value : α} {entries : List (UInt32 × α)}
    (h : Ascending entries) : Ascending (store key value entries) := by
  induction entries with
  | nil => simp [store, Ascending]
  | cons head rest ih =>
    obtain ⟨k, old⟩ := head
    obtain ⟨hk, hrest⟩ := List.pairwise_cons.mp h
    unfold store
    split
    next hlt =>
      refine List.pairwise_cons.mpr ⟨?_, h⟩
      intro entry hmem
      rcases List.mem_cons.mp hmem with rfl | hmem
      · exact hlt
      · exact UInt32.lt_trans hlt (hk entry hmem)
    next hge =>
      split
      next heq =>
        subst heq
        exact List.pairwise_cons.mpr ⟨hk, hrest⟩
      next hne =>
        refine List.pairwise_cons.mpr ⟨?_, ih hrest⟩
        intro entry hmem
        rcases mem_store hmem with rfl | hmem
        · exact UInt32.lt_of_le_of_ne (UInt32.not_lt.mp hge) (Ne.symm hne)
        · exact hk entry hmem

/-- What was stored is found under its key, and the rest as before. -/
theorem lookup_store (key key' : UInt32) (value : α) (entries : List (UInt32 × α)) :
    lookup key' (store key value entries) =
      if key = key' then some value else lookup key' entries := by
  induction entries with
  | nil => simp [store, lookup]
  | cons head rest ih =>
    obtain ⟨k, old⟩ := head
    unfold store
    split
    · simp [lookup]
    · split
      next heq =>
        subst heq
        by_cases h : key = key' <;> simp [lookup, h]
      next hne =>
        by_cases hk : k = key'
        · subst hk
          simp [lookup, hne]
        · simp [lookup, hk, ih]

/-- Nothing is stored under a key below all the keys present. -/
theorem lookup_eq_none_of_lt {key : UInt32} {entries : List (UInt32 × α)}
    (h : ∀ entry ∈ entries, key < entry.1) : lookup key entries = none := by
  induction entries with
  | nil => rfl
  | cons head rest ih =>
    have hhead := h head List.mem_cons_self
    have hne : ¬ head.1 = key := fun heq => by
      rw [heq] at hhead
      exact UInt32.lt_irrefl key hhead
    simp [lookup, hne, ih fun entry hmem => h entry (List.mem_cons_of_mem _ hmem)]

/-- Ascending entries under which the same is found are the same. -/
theorem eq_of_lookup_eq {left right : List (UInt32 × α)}
    (hleft : Ascending left) (hright : Ascending right)
    (h : ∀ key, lookup key left = lookup key right) : left = right := by
  induction left generalizing right with
  | nil =>
    cases right with
    | nil => rfl
    | cons head rest => simpa [lookup] using h head.1
  | cons head rest ih =>
    obtain ⟨k, value⟩ := head
    obtain ⟨hk, hrest⟩ := List.pairwise_cons.mp hleft
    cases right with
    | nil => simpa [lookup] using h k
    | cons head' rest' =>
      obtain ⟨k', value'⟩ := head'
      obtain ⟨hk', hrest'⟩ := List.pairwise_cons.mp hright
      have hnone : lookup k rest = none := lookup_eq_none_of_lt hk
      have hnone' : lookup k' rest' = none := lookup_eq_none_of_lt hk'
      have hkk : k = k' := by
        by_cases hlt : k < k'
        · have hall : ∀ entry ∈ (k', value') :: rest', k < entry.1 := by
            intro entry hmem
            rcases List.mem_cons.mp hmem with rfl | hmem
            · exact hlt
            · exact UInt32.lt_trans hlt (hk' entry hmem)
          have := h k
          rw [lookup_eq_none_of_lt hall] at this
          simp [lookup] at this
        · by_cases hgt : k' < k
          · have hall : ∀ entry ∈ (k, value) :: rest, k' < entry.1 := by
              intro entry hmem
              rcases List.mem_cons.mp hmem with rfl | hmem
              · exact hgt
              · exact UInt32.lt_trans hgt (hk entry hmem)
            have := h k'
            rw [lookup_eq_none_of_lt hall] at this
            simp [lookup] at this
          · exact UInt32.le_antisymm (UInt32.not_lt.mp hgt) (UInt32.not_lt.mp hlt)
      subst hkk
      have hvalue : value = value' := by simpa [lookup] using h k
      subst hvalue
      have htail : ∀ key, lookup key rest = lookup key rest' := by
        intro key
        by_cases hkey : k = key
        · subst hkey
          rw [hnone, hnone']
        · simpa [lookup, hkey] using h key
      rw [ih hrest hrest' htail]

end Table

/-! ## Tables -/

/-- A finite map from 32-bit identifiers, listed by ascending key. -/
structure Table (α : Type) where
  entries : List (UInt32 × α) := []
  ascending : Table.Ascending entries := by decide

namespace Table

variable {α : Type}

instance [DecidableEq α] : DecidableEq (Table α) := fun left right =>
  if h : left.entries = right.entries then
    isTrue (by cases left; cases right; cases h; rfl)
  else
    isFalse (fun heq => h (congrArg Table.entries heq))

/-- The table without entries. -/
def empty : Table α := ⟨[], List.Pairwise.nil⟩

instance : Inhabited (Table α) := ⟨empty⟩

instance : EmptyCollection (Table α) := ⟨empty⟩

/-- Whether the table has no entries. -/
def isEmpty (table : Table α) : Bool :=
  table.entries.isEmpty

/-- The value stored under `key`. -/
def get? (table : Table α) (key : UInt32) : Option α :=
  lookup key table.entries

/-- Store `value` under `key`, replacing what was there. -/
def put (table : Table α) (key : UInt32) (value : α) : Table α :=
  ⟨store key value table.entries, ascending_store table.ascending⟩

/-- The values in the order of their keys. -/
def values (table : Table α) : List α :=
  table.entries.map Prod.snd

/-- Nothing is found in the empty table. -/
@[simp]
theorem get?_empty (key : UInt32) : (empty : Table α).get? key = none := rfl

/-- What was put is found under its key, and the rest as before. -/
@[simp]
theorem get?_put (table : Table α) (key key' : UInt32) (value : α) :
    (table.put key value).get? key' = if key = key' then some value else table.get? key' :=
  lookup_store key key' value table.entries

/-- Two tables with the same lookups are equal. -/
theorem ext_get? {left right : Table α} (h : ∀ key, left.get? key = right.get? key) :
    left = right := by
  obtain ⟨entries, hleft⟩ := left
  obtain ⟨entries', hright⟩ := right
  have := eq_of_lookup_eq hleft hright h
  subst this
  rfl

end Table

end CacheMeter
