/-!
# Maps Where the First Write Stays

A finite map that keeps the first value written under a key and ignores every
later one. It records when something was first seen: which instantiations are
known and how far they are from a seed, or which were given up and why. The
entries stay in the order in which they were written.

## Main definitions

* `FirstMap`: A finite map, no key of which occurs twice.
* `FirstMap.insert`: Writes a value unless the key has one.
* `FirstMap.get?`, `FirstMap.contains`: Looking a key up.

## Theorems

* `FirstMap.contains_iff`, `FirstMap.contains_eq_false_iff`: A key is known exactly when
  an entry has it.
* `FirstMap.entries_insert`: What a write does to the entries.
* `FirstMap.insert_of_contains`: A second write changes nothing at all.
* `FirstMap.get?_empty`, `FirstMap.get?_insert`: What a write does to looking keys up.
* `FirstMap.keys_insert`, `FirstMap.mem_keys_insert`, `FirstMap.contains_insert_self`: What
  a write does to the keys.
* `FirstMap.contains_eq_isSome`, `FirstMap.contains_of_get?`, `FirstMap.mem_keys_iff`: A
  key is there exactly when it has a value.
* `FirstMap.find?_eq_some_iff_mem`, `FirstMap.get?_eq_some_iff`: Looking a key up gives the
  value of its entry.
* `FirstMap.map_entries`: The entries are the keys, each with its value.
-/

namespace Monomorph

/-- A finite map as entries in the order in which they were written, no two of
    which have the same key. -/
structure FirstMap (κ ν : Type) where
  entries : List (κ × ν)
  nodup : (entries.map Prod.fst).Nodup

namespace FirstMap

variable {κ ν : Type} [DecidableEq κ]

/-- The map without entries. -/
def empty : FirstMap κ ν where
  entries := []
  nodup := List.nodup_nil

instance : Inhabited (FirstMap κ ν) := ⟨empty⟩

/-- The keys in the order in which they were written. -/
def keys (m : FirstMap κ ν) : List κ :=
  m.entries.map Prod.fst

/-- Whether a key has a value. -/
def contains (m : FirstMap κ ν) (key : κ) : Bool :=
  m.entries.any fun entry => entry.1 = key

/-- The value of a key. -/
def get? (m : FirstMap κ ν) (key : κ) : Option ν :=
  (m.entries.find? fun entry => entry.1 = key).map Prod.snd

/-- How many keys have a value. -/
def size (m : FirstMap κ ν) : Nat :=
  m.entries.length

/-- Whether no key has a value. -/
def isEmpty (m : FirstMap κ ν) : Bool :=
  m.entries.isEmpty

/-- A key is known exactly when an entry has it. -/
@[simp]
theorem contains_iff (m : FirstMap κ ν) (key : κ) : m.contains key = true ↔ key ∈ m.keys := by
  simp [contains, keys]

@[simp]
theorem contains_eq_false_iff (m : FirstMap κ ν) (key : κ) :
    m.contains key = false ↔ key ∉ m.keys := by
  rw [← Bool.not_eq_true, contains_iff]

/-- Writes a value under a key, unless the key has one already. -/
def insert (m : FirstMap κ ν) (key : κ) (value : ν) : FirstMap κ ν :=
  if h : m.contains key = true then m
  else
    { entries := m.entries ++ [(key, value)]
      nodup := by
        have hnot : key ∉ m.entries.map Prod.fst := fun hmem => h ((contains_iff m key).mpr hmem)
        simp only [List.map_append, List.map_cons, List.map_nil]
        refine List.nodup_append.mpr ⟨m.nodup, by simp, ?_⟩
        rintro a ha b hb rfl
        rw [List.mem_singleton] at hb
        exact hnot (hb ▸ ha) }

/-- A write appends an entry for a new key and changes nothing for a known
    one. -/
@[simp]
theorem entries_insert (m : FirstMap κ ν) (key : κ) (value : ν) :
    (m.insert key value).entries =
      if m.contains key then m.entries else m.entries ++ [(key, value)] := by
  unfold insert
  split <;> simp_all

@[simp]
theorem insert_of_contains (m : FirstMap κ ν) (key : κ) (value : ν)
    (h : m.contains key = true) : m.insert key value = m := by
  unfold insert
  rw [dif_pos h]

@[simp]
theorem get?_empty (key : κ) : (empty : FirstMap κ ν).get? key = none :=
  rfl

theorem contains_eq_isSome (m : FirstMap κ ν) (key : κ) :
    m.contains key = (m.get? key).isSome := by
  simp only [contains, get?, Option.isSome_map, List.isSome_find?]

theorem contains_of_get? (m : FirstMap κ ν) (key : κ) (value : ν) (h : m.get? key = some value) :
    m.contains key = true := by
  rw [contains_eq_isSome, h, Option.isSome_some]

theorem mem_keys_iff (m : FirstMap κ ν) (key : κ) :
    key ∈ m.keys ↔ ∃ value, m.get? key = some value := by
  rw [← contains_iff, contains_eq_isSome, Option.isSome_iff_exists]

/-- After a write a key has the value it had before, and only if it had none the
    one that was written. -/
@[simp]
theorem get?_insert (m : FirstMap κ ν) (key k : κ) (value : ν) :
    (m.insert key value).get? k = (m.get? k).or (if k = key then some value else none) := by
  by_cases h : m.contains key = true
  · -- The write is ignored, and a key that was known keeps its value in front of the new one.
    rw [insert_of_contains m key value h]
    by_cases hk : k = key
    · rw [contains_eq_isSome, ← hk, Option.isSome_iff_exists] at h
      rcases h with ⟨v, hv⟩
      rw [hv, Option.some_or]
    · rw [if_neg hk, Option.or_none]
  · unfold get?
    rw [entries_insert, if_neg h, List.find?_append, Option.map_or, List.find?_singleton]
    by_cases hk : k = key
    · simp only [hk, decide_true, if_true, Option.map_some]
    · simp only [hk, Ne.symm hk, decide_false, if_false, Option.map_none, Bool.false_eq_true]

/-- A new key comes last. -/
theorem keys_insert (m : FirstMap κ ν) (key : κ) (value : ν) (h : m.contains key = false) :
    (m.insert key value).keys = m.keys ++ [key] := by
  rw [keys, entries_insert, h, if_neg Bool.false_ne_true, List.map_append]
  rfl

theorem mem_keys_insert (m : FirstMap κ ν) (key other : κ) (value : ν)
    (h : other ∈ (m.insert key value).keys) : other ∈ m.keys ∨ other = key := by
  cases hcontains : m.contains key with
  | true =>
      rw [insert_of_contains m key value hcontains] at h
      exact Or.inl h
  | false => rwa [keys_insert m key value hcontains, List.mem_append, List.mem_singleton] at h

@[simp]
theorem contains_insert_self (m : FirstMap κ ν) (key : κ) (value : ν) :
    (m.insert key value).contains key = true := by
  rw [contains_eq_isSome, get?_insert, if_pos rfl, Option.isSome_or, Option.isSome_some,
    Bool.or_true]

/-- Where no key occurs twice, the first entry with a key is the only one. -/
theorem find?_eq_some_iff_mem (key : κ) (value : ν) (entries : List (κ × ν))
    (hnodup : (entries.map Prod.fst).Nodup) :
    (entries.find? fun entry => entry.1 = key).map Prod.snd = some value ↔
      (key, value) ∈ entries := by
  induction entries with
  | nil => simp
  | cons entry rest ih =>
      rcases List.nodup_cons.mp hnodup with ⟨hnew, hrest⟩
      by_cases h : entry.1 = key
      · have hnot : (key, value) ∉ rest :=
          fun hmem => hnew (List.mem_map.mpr ⟨(key, value), hmem, h.symm⟩)
        rw [List.find?_cons_of_pos (by simp [h]), List.mem_cons, Option.map_some,
          Option.some.injEq]
        constructor
        · rintro rfl
          exact Or.inl (by rw [← h])
        · rintro (heq | hmem)
          · rw [← heq]
          · exact absurd hmem hnot
      · rw [List.find?_cons_of_neg (by simp [h]), ih hrest, List.mem_cons]
        constructor
        · exact Or.inr
        · rintro (heq | hmem)
          · exact absurd (congrArg Prod.fst heq).symm h
          · exact hmem

theorem get?_eq_some_iff (m : FirstMap κ ν) (key : κ) (value : ν) :
    m.get? key = some value ↔ (key, value) ∈ m.entries :=
  find?_eq_some_iff_mem key value m.entries m.nodup

/-- The entries are the keys, each with its value. -/
theorem map_entries {α : Type} (m : FirstMap κ ν) (other : ν) (f : κ × ν → α) :
    m.entries.map f = m.keys.map fun key => f (key, (m.get? key).getD other) := by
  rw [keys, List.map_map]
  refine List.map_congr_left fun entry hentry => ?_
  have hget : m.get? entry.1 = some entry.2 := (get?_eq_some_iff m entry.1 entry.2).mpr hentry
  rw [Function.comp_apply, hget, Option.getD_some]

end FirstMap

end Monomorph
