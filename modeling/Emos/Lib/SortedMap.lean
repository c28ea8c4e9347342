import Mathlib

set_option autoImplicit false

/- A finite map kept as an association list strictly sorted by key. It is the shape of an
   ordered search tree seen from outside: lookups, single-key updates, and iteration that
   visits the keys in increasing order. Sortedness is a field, so no map without it can be
   built, and distinct entries always carry distinct keys. -/
structure SortedMap (K V : Type) [LinearOrder K] where
  entries : List (K × V)
  sorted : entries.Pairwise (fun a b => a.1 < b.1)

namespace SortedMap

variable {K V : Type} [LinearOrder K]

def lookup (k : K) : List (K × V) → Option V
  | [] => none
  | (key, value) :: rest => if k = key then some value else lookup k rest

def insertEntry (k : K) (v : V) : List (K × V) → List (K × V)
  | [] => [(k, v)]
  | (key, value) :: rest =>
      if k < key then (k, v) :: (key, value) :: rest
      else if k = key then (k, v) :: rest
      else (key, value) :: insertEntry k v rest

theorem mem_insertEntry (k : K) (v : V) (entries : List (K × V)) (entry : K × V)
    (member : entry ∈ insertEntry k v entries) : entry = (k, v) ∨ entry ∈ entries := by
  induction entries with
  | nil => simpa [insertEntry] using member
  | cons head rest ih =>
      obtain ⟨key, value⟩ := head
      unfold insertEntry at member
      split_ifs at member with less same
      · simpa using member
      · simp only [List.mem_cons] at member
        rcases member with here | later
        · exact .inl here
        · exact .inr (List.mem_cons_of_mem _ later)
      · simp only [List.mem_cons] at member
        rcases member with here | later
        · exact .inr (by simp [here])
        · rcases ih later with new | old
          · exact .inl new
          · exact .inr (List.mem_cons_of_mem _ old)

theorem insertEntry_sorted (k : K) (v : V) (entries : List (K × V))
    (sorted : entries.Pairwise (fun a b => a.1 < b.1)) :
    (insertEntry k v entries).Pairwise (fun a b => a.1 < b.1) := by
  induction entries with
  | nil => simp [insertEntry]
  | cons head rest ih =>
      obtain ⟨key, value⟩ := head
      have above : ∀ entry ∈ rest, key < entry.1 := fun entry member => List.rel_of_pairwise_cons sorted member
      unfold insertEntry
      split_ifs with less same
      · refine sorted.cons fun entry member => ?_
        rcases List.mem_cons.mp member with here | later
        · simpa [here] using less
        · exact lt_trans less (above entry later)
      · subst same
        exact sorted.of_cons.cons above
      · refine (ih sorted.of_cons).cons fun entry member => ?_
        rcases mem_insertEntry k v rest entry member with new | old
        · subst new
          exact lt_of_le_of_ne (not_lt.mp less) (Ne.symm same)
        · exact above entry old

@[ext] theorem ext {m m' : SortedMap K V} (same : m.entries = m'.entries) : m = m' := by
  cases m
  cases m'
  cases same
  rfl

instance [DecidableEq K] [DecidableEq V] : DecidableEq (SortedMap K V) :=
  fun m m' => decidable_of_iff (m.entries = m'.entries) ⟨ext, congrArg entries⟩

def empty : SortedMap K V := ⟨[], .nil⟩

def get? (m : SortedMap K V) (k : K) : Option V := lookup k m.entries

def contains (m : SortedMap K V) (k : K) : Bool := (m.get? k).isSome

def insert (m : SortedMap K V) (k : K) (v : V) : SortedMap K V :=
  ⟨insertEntry k v m.entries, insertEntry_sorted k v m.entries m.sorted⟩

def erase (m : SortedMap K V) (k : K) : SortedMap K V :=
  ⟨m.entries.filter (fun entry => !decide (entry.1 = k)), m.sorted.filter _⟩

def modify (m : SortedMap K V) (k : K) (f : V → V) : SortedMap K V :=
  ⟨m.entries.map (fun entry => if entry.1 = k then (entry.1, f entry.2) else entry),
    List.Pairwise.map _ (fun a b order => by split_ifs <;> exact order) m.sorted⟩

def size (m : SortedMap K V) : Nat := m.entries.length

def keys (m : SortedMap K V) : List K := m.entries.map Prod.fst

def values (m : SortedMap K V) : List V := m.entries.map Prod.snd

theorem lookup_insertEntry (k k' : K) (v : V) (entries : List (K × V)) :
    lookup k' (insertEntry k v entries) = if k' = k then some v else lookup k' entries := by
  induction entries with
  | nil => simp [insertEntry, lookup]
  | cons head rest ih =>
      obtain ⟨key, value⟩ := head
      unfold insertEntry
      split_ifs with less same query <;> simp_all [lookup]

theorem lookup_filter (k k' : K) (entries : List (K × V)) :
    lookup k' (entries.filter (fun entry => !decide (entry.1 = k))) = if k' = k then none else lookup k' entries := by
  induction entries with
  | nil => simp [lookup]
  | cons head rest ih =>
      obtain ⟨key, value⟩ := head
      by_cases same : key = k <;> by_cases query : k' = key <;> simp_all [lookup]

theorem lookup_map (k k' : K) (f : V → V) (entries : List (K × V)) :
    lookup k' (entries.map (fun entry => if entry.1 = k then (entry.1, f entry.2) else entry)) =
      if k' = k then (lookup k' entries).map f else lookup k' entries := by
  induction entries with
  | nil => simp [lookup]
  | cons head rest ih =>
      obtain ⟨key, value⟩ := head
      by_cases same : key = k <;> by_cases query : k' = key <;> simp_all [lookup]

@[simp] theorem get?_empty (k : K) : (empty : SortedMap K V).get? k = none := rfl

@[simp] theorem get?_insert_self (m : SortedMap K V) (k : K) (v : V) : (m.insert k v).get? k = some v := by
  simp [get?, insert, lookup_insertEntry]

@[simp] theorem get?_insert_of_ne (m : SortedMap K V) (k k' : K) (v : V) (other : k' ≠ k) :
    (m.insert k v).get? k' = m.get? k' := by
  simp [get?, insert, lookup_insertEntry, other]

theorem get?_insert (m : SortedMap K V) (k k' : K) (v : V) :
    (m.insert k v).get? k' = if k' = k then some v else m.get? k' := by
  simp [get?, insert, lookup_insertEntry]

@[simp] theorem get?_erase_self (m : SortedMap K V) (k : K) : (m.erase k).get? k = none := by
  simp [get?, erase, lookup_filter]

@[simp] theorem get?_erase_of_ne (m : SortedMap K V) (k k' : K) (other : k' ≠ k) :
    (m.erase k).get? k' = m.get? k' := by
  simp [get?, erase, lookup_filter, other]

theorem get?_erase (m : SortedMap K V) (k k' : K) :
    (m.erase k).get? k' = if k' = k then none else m.get? k' := by
  simp [get?, erase, lookup_filter]

@[simp] theorem get?_modify_self (m : SortedMap K V) (k : K) (f : V → V) :
    (m.modify k f).get? k = (m.get? k).map f := by
  simp [get?, modify, lookup_map]

@[simp] theorem get?_modify_of_ne (m : SortedMap K V) (k k' : K) (f : V → V) (other : k' ≠ k) :
    (m.modify k f).get? k' = m.get? k' := by
  simp [get?, modify, lookup_map, other]

theorem get?_modify (m : SortedMap K V) (k k' : K) (f : V → V) :
    (m.modify k f).get? k' = if k' = k then (m.get? k').map f else m.get? k' := by
  simp [get?, modify, lookup_map]

theorem get?_modify_of_eq_some {m : SortedMap K V} {k k' : K} {f : V → V} {v : V} (found : m.get? k' = some v) :
    (m.modify k f).get? k' = some (if k' = k then f v else v) := by
  rw [get?_modify, found]
  split <;> rfl

theorem get?_modify_eq_some {m : SortedMap K V} {k k' : K} {f : V → V} {v : V}
    (found : (m.modify k f).get? k' = some v) : ∃ old, m.get? k' = some old ∧ v = if k' = k then f old else old := by
  rw [get?_modify] at found
  cases before : m.get? k' with
  | none => split at found <;> simp_all
  | some old => exact ⟨old, rfl, by split at found <;> simp_all⟩

theorem get?_modify_eq_none {m : SortedMap K V} {k k' : K} {f : V → V} (missing : m.get? k' = none) :
    (m.modify k f).get? k' = none := by
  rw [get?_modify, missing]
  split <;> rfl

@[simp] theorem get?_modify_isSome (m : SortedMap K V) (k k' : K) (f : V → V) :
    ((m.modify k f).get? k').isSome = (m.get? k').isSome := by
  rw [get?_modify]
  split <;> simp

theorem lookup_eq_some_iff {k : K} {v : V} {entries : List (K × V)} (sorted : entries.Pairwise (fun a b => a.1 < b.1)) :
    lookup k entries = some v ↔ (k, v) ∈ entries := by
  induction entries with
  | nil => simp [lookup]
  | cons head rest ih =>
      obtain ⟨key, value⟩ := head
      have above : ∀ entry ∈ rest, key < entry.1 := fun entry member => List.rel_of_pairwise_cons sorted member
      by_cases same : k = key
      · subst same
        have absent : (k, v) ∉ rest := fun member => lt_irrefl k (above _ member)
        simp [lookup, absent, eq_comm]
      · simp [lookup, same, ih sorted.of_cons]

theorem get?_eq_some_iff (m : SortedMap K V) (k : K) (v : V) : m.get? k = some v ↔ (k, v) ∈ m.entries :=
  lookup_eq_some_iff m.sorted

theorem erase_of_get?_eq_none {m : SortedMap K V} {k : K} (missing : m.get? k = none) : m.erase k = m := by
  ext1
  refine List.filter_eq_self.mpr fun entry member => ?_
  have other : entry.1 ≠ k := by
    rintro rfl
    rw [(get?_eq_some_iff m entry.1 entry.2).mpr member] at missing
    cases missing
  simpa using other

theorem mem_keys (m : SortedMap K V) (k : K) : k ∈ m.keys ↔ (m.get? k).isSome := by
  simp only [keys, List.mem_map, Option.isSome_iff_exists, get?_eq_some_iff]
  constructor
  · rintro ⟨⟨key, v⟩, member, rfl⟩
    exact ⟨v, member⟩
  · rintro ⟨v, member⟩
    exact ⟨(k, v), member, rfl⟩

theorem keys_nodup (m : SortedMap K V) : m.keys.Nodup :=
  (m.sorted.map Prod.fst (fun _ _ less => less)).imp ne_of_lt

theorem size_eq_card_keys (m : SortedMap K V) : m.size = m.keys.toFinset.card := by
  rw [List.toFinset_card_of_nodup m.keys_nodup, keys, List.length_map]
  rfl

theorem contains_iff (m : SortedMap K V) (k : K) : m.contains k = true ↔ ∃ v, m.get? k = some v := by
  simp [contains, Option.isSome_iff_exists]

end SortedMap
