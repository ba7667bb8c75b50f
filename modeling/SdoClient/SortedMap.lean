/-
Finite maps whose entries are kept in the order of their keys, each key once. Dictionaries and buses show their
contents in this order.

Main statements: what `find?` answers after each operation (`find?_insert`, `find?_erase`, `find?_modify`,
`find?_map`).
-/
namespace SdoClient

/-- a map as the list of its entries, keys strictly ascending -/
structure SortedMap (κ ν : Type) [LT κ] where
  entries : List (κ × ν)
  sorted : entries.Pairwise fun a b => a.1 < b.1

namespace SortedMap

variable {κ ν μ : Type} [LT κ]

@[ext] theorem ext {m n : SortedMap κ ν} (h : m.entries = n.entries) : m = n := by
  cases m
  cases n
  cases h
  rfl

instance [DecidableEq κ] [DecidableEq ν] : DecidableEq (SortedMap κ ν) := fun m n =>
  decidable_of_iff (m.entries = n.entries) ⟨ext, congrArg entries⟩

/-- the map without entries -/
def empty : SortedMap κ ν := ⟨[], .nil⟩

instance : Inhabited (SortedMap κ ν) := ⟨empty⟩

/-- the keys, ascending -/
def keys (m : SortedMap κ ν) : List κ := m.entries.map (·.1)

/-- the values, by ascending key -/
def values (m : SortedMap κ ν) : List ν := m.entries.map (·.2)

/-- the number of entries -/
def size (m : SortedMap κ ν) : Nat := m.entries.length

/-- the map with every value changed by a function that may look at the key -/
def map (m : SortedMap κ ν) (f : κ → ν → μ) : SortedMap κ μ :=
  ⟨m.entries.map fun e => (e.1, f e.1 e.2), m.sorted.map _ fun _ _ h => h⟩

theorem map_map {ρ : Type} (m : SortedMap κ ν) (f : κ → ν → μ) (g : κ → μ → ρ) :
    (m.map f).map g = m.map fun k v => g k (f k v) := by
  ext1
  exact List.map_map

section lookup

variable [DecidableEq κ]

/-- the first value at a key in a list of entries -/
def lookup (k : κ) : List (κ × ν) → Option ν
  | [] => none
  | e :: rest => if e.1 = k then some e.2 else lookup k rest

/-- the value at a key -/
def find? (m : SortedMap κ ν) (k : κ) : Option ν := lookup k m.entries

/-- the map without the entry at `k` -/
def erase (m : SortedMap κ ν) (k : κ) : SortedMap κ ν :=
  ⟨m.entries.filter fun e => e.1 ≠ k, m.sorted.filter _⟩

/-- the map with the value at `k` changed, if there is one -/
def modify (m : SortedMap κ ν) (k : κ) (f : ν → ν) : SortedMap κ ν :=
  m.map fun l v => if l = k then f v else v

theorem find?_erase (m : SortedMap κ ν) (k l : κ) :
    (m.erase k).find? l = if l = k then none else m.find? l := by
  simp only [find?, erase]
  induction m.entries with
  | nil => simp [lookup]
  | cons d rest ih =>
    by_cases hd : d.1 = k
    · rw [List.filter_cons_of_neg (by simpa using hd), ih]
      by_cases h : l = k
      · simp [h]
      · simp [h, lookup, hd, Ne.symm h]
    · rw [List.filter_cons_of_pos (by simpa using hd)]
      rw [lookup, lookup, ih]
      by_cases h : d.1 = l
      · simp [h, h ▸ hd]
      · simp [h]

theorem find?_map (m : SortedMap κ ν) (f : κ → ν → μ) (k : κ) :
    (m.map f).find? k = (m.find? k).map (f k) := by
  simp only [find?, map]
  induction m.entries with
  | nil => rfl
  | cons d rest ih =>
    by_cases h : d.1 = k
    · simp [lookup, h]
    · simp [lookup, h, ih]

theorem find?_modify (m : SortedMap κ ν) (k l : κ) (f : ν → ν) :
    (m.modify k f).find? l = if l = k then (m.find? l).map f else m.find? l := by
  rw [modify, find?_map]
  by_cases h : l = k <;> simp [h]

end lookup

/-! ## Insertion -/

section insertion

variable [DecidableLT κ]

/-- puts an entry in its place, in the stead of an entry of the same key -/
def place (k : κ) (v : ν) : List (κ × ν) → List (κ × ν)
  | [] => [(k, v)]
  | e :: rest =>
    if k < e.1 then (k, v) :: e :: rest
    else if e.1 < k then e :: place k v rest
    else (k, v) :: rest

theorem mem_place {k : κ} {v : ν} {l : List (κ × ν)} {e : κ × ν} (h : e ∈ place k v l) : e = (k, v) ∨ e ∈ l := by
  induction l with
  | nil => simpa [place] using h
  | cons d rest ih =>
    simp only [place] at h
    split at h
    · simpa using h
    · split at h
      · rcases List.mem_cons.mp h with h | h
        · exact .inr (by simp [h])
        · exact (ih h).imp_right (List.mem_cons_of_mem _)
      · rcases List.mem_cons.mp h with h | h
        · exact .inl h
        · exact .inr (List.mem_cons_of_mem _ h)

variable [LE κ] [Std.IsLinearOrder κ] [Std.LawfulOrderLT κ]

omit [DecidableLT κ] in
theorem eq_of_not_lt {a b : κ} (h : ¬ a < b) (h' : ¬ b < a) : a = b :=
  Std.le_antisymm (Std.not_lt.mp h') (Std.not_lt.mp h)

theorem sorted_place (k : κ) (v : ν) {l : List (κ × ν)} (h : l.Pairwise fun a b => a.1 < b.1) :
    (place k v l).Pairwise fun a b => a.1 < b.1 := by
  induction l with
  | nil => simp [place]
  | cons d rest ih =>
    rw [List.pairwise_cons] at h
    simp only [place]
    split
    · rename_i hk
      refine List.pairwise_cons.mpr ⟨fun e he => ?_, List.pairwise_cons.mpr h⟩
      rcases List.mem_cons.mp he with he | he
      · exact he ▸ hk
      · exact Std.lt_trans hk (h.1 e he)
    · split
      · rename_i hd
        refine List.pairwise_cons.mpr ⟨fun e he => ?_, ih h.2⟩
        rcases mem_place he with he | he
        · exact he ▸ hd
        · exact h.1 e he
      · rename_i hk hd
        have hkd := eq_of_not_lt hk hd
        exact List.pairwise_cons.mpr ⟨fun e he => hkd ▸ h.1 e he, h.2⟩

/-- the map with `v` at `k` -/
def insert (m : SortedMap κ ν) (k : κ) (v : ν) : SortedMap κ ν :=
  ⟨place k v m.entries, sorted_place k v m.sorted⟩

theorem find?_insert [DecidableEq κ] (m : SortedMap κ ν) (k l : κ) (v : ν) :
    (m.insert k v).find? l = if l = k then some v else m.find? l := by
  simp only [find?, insert]
  induction m.entries with
  | nil => simp [place, lookup, eq_comm]
  | cons d rest ih =>
    simp only [place]
    split
    · simp [lookup, eq_comm]
    · split
      · rename_i hd
        have hdk : d.1 ≠ k := fun e => Std.lt_irrefl (e ▸ hd)
        by_cases h : d.1 = l
        · simp [lookup, h, h ▸ hdk]
        · simp [lookup, h, ih]
      · rename_i hk hd
        have hkd := eq_of_not_lt hk hd
        by_cases h : l = k
        · simp [lookup, h]
        · have hd : d.1 ≠ l := fun e => h (e ▸ hkd.symm)
          simp [lookup, h, Ne.symm h, hd]

end insertion

end SortedMap

end SdoClient
