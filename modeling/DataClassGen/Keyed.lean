/-!
# Entries in the order of their keys

A finite map from names is the list of its entries, in the order of their keys and with no key
twice. Names are ordered by the code points of their characters. The same order and the same
insertion serve for sets of names.
-/

namespace DataClassGen

/-- The entry put among entries in the order of their keys, in place of one with the same key. -/
def insertByKey {α : Type} (key : String) (value : α) : List (String × α) → List (String × α)
  | [] => [(key, value)]
  | (k, v) :: rest =>
    if key < k then (key, value) :: (k, v) :: rest
    else if key = k then (key, value) :: rest
    else (k, v) :: insertByKey key value rest

/-- The entries without those of a key. -/
def eraseKey {α : Type} (key : String) (entries : List (String × α)) : List (String × α) :=
  entries.filter (·.1 != key)

/-- The name put among names in order, unless it is there already. -/
def insertName (name : String) : List String → List String
  | [] => [name]
  | n :: rest =>
    if name < n then name :: n :: rest
    else if name = n then n :: rest
    else n :: insertName name rest

/-- The names in order, each once. -/
def orderedNames (names : List String) : List String := names.foldl (fun ns n => insertName n ns) []

/-! ### What insertion and erasure do to look-up -/

theorem lookup_insertByKey_self {α : Type} (key : String) (value : α)
    (entries : List (String × α)) : (insertByKey key value entries).lookup key = some value := by
  induction entries with
  | nil => simp [insertByKey]
  | cons entry rest ih =>
    obtain ⟨k, v⟩ := entry
    simp only [insertByKey]
    split
    · simp
    · split
      · simp
      · next h => simp [List.lookup_cons, beq_false_of_ne h, ih]

theorem lookup_insertByKey_of_ne {α : Type} {key other : String} (h : other ≠ key) (value : α)
    (entries : List (String × α)) :
    (insertByKey key value entries).lookup other = entries.lookup other := by
  induction entries with
  | nil => simp [insertByKey, List.lookup_cons, beq_false_of_ne h]
  | cons entry rest ih =>
    obtain ⟨k, v⟩ := entry
    simp only [insertByKey]
    split
    · simp [List.lookup_cons, beq_false_of_ne h]
    · split
      · next hk => subst hk; simp [List.lookup_cons, beq_false_of_ne h]
      · simp only [List.lookup_cons]
        split
        · rfl
        · exact ih

theorem lookup_eraseKey_self {α : Type} (key : String) (entries : List (String × α)) :
    (eraseKey key entries).lookup key = none := by
  induction entries with
  | nil => rfl
  | cons entry rest ih =>
    obtain ⟨k, v⟩ := entry
    by_cases hk : k = key
    · subst hk
      simpa [eraseKey] using ih
    · have : (key == k) = false := beq_false_of_ne (Ne.symm hk)
      simp only [eraseKey, List.filter_cons, bne_iff_ne, ne_eq, hk, not_false_eq_true, if_true,
        List.lookup_cons, this]
      exact ih

theorem lookup_eraseKey_of_ne {α : Type} {key other : String} (h : other ≠ key)
    (entries : List (String × α)) :
    (eraseKey key entries).lookup other = entries.lookup other := by
  induction entries with
  | nil => rfl
  | cons entry rest ih =>
    obtain ⟨k, v⟩ := entry
    by_cases hk : k = key
    · subst hk
      simpa [eraseKey, List.lookup_cons, beq_false_of_ne h] using ih
    · simp only [eraseKey, List.filter_cons, bne_iff_ne, ne_eq, hk, not_false_eq_true, if_true,
        List.lookup_cons]
      split
      · rfl
      · exact ih

/-- Erasing a key that is there leaves fewer entries. -/
theorem length_eraseKey_lt {α : Type} {key : String} {entries : List (String × α)} {value : α}
    (h : entries.lookup key = some value) : (eraseKey key entries).length < entries.length := by
  induction entries with
  | nil => simp at h
  | cons entry rest ih =>
    obtain ⟨k, v⟩ := entry
    by_cases hk : k = key
    · subst hk
      have := List.length_filter_le (fun e : String × α => e.1 != k) rest
      simp only [eraseKey, List.filter_cons, bne_self_eq_false, List.length_cons]
      simpa using Nat.lt_succ_of_le this
    · have hb : (key == k) = false := beq_false_of_ne (Ne.symm hk)
      rw [List.lookup_cons, hb] at h
      have := ih h
      simp only [eraseKey, List.filter_cons, bne_iff_ne, ne_eq, hk, not_false_eq_true, if_true,
        List.length_cons]
      simpa [eraseKey] using this

/-- Erasing never adds entries. -/
theorem length_eraseKey_le {α : Type} (key : String) (entries : List (String × α)) :
    (eraseKey key entries).length ≤ entries.length := List.length_filter_le _ _

end DataClassGen
