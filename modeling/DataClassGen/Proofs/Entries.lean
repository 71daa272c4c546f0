import DataClassGen.Keyed
import Mathlib.Data.List.Nodup
import Mathlib.Data.List.Sort
import Mathlib.Data.String.Basic

/-!
# Entries with increasing keys

The maps of a run are lists of entries. Insertion and erasure keep their keys increasing, so that
no key stands twice, and an entry is in the list just when looking its key up gives its value.
Erasing several keys is filtering by key, which is how the effect of a longer step on a map is
written down. Names in order increase in the same way.
-/

namespace DataClassGen

variable {α : Type}

/-- The keys increase. -/
def Ordered (entries : List (String × α)) : Prop := entries.Pairwise fun a b => a.1 < b.1

instance (entries : List (String × α)) : Decidable (Ordered entries) :=
  inferInstanceAs (Decidable (entries.Pairwise fun a b => a.1 < b.1))

/-! ### Insertion -/

theorem mem_of_mem_insertByKey {key : String} {value : α} {entry : String × α} :
    ∀ {entries : List (String × α)}, entry ∈ insertByKey key value entries →
      entry = (key, value) ∨ entry ∈ entries
  | [], h => Or.inl (by simpa [insertByKey] using h)
  | (k, v) :: rest, h => by
    simp only [insertByKey] at h
    split at h
    · exact List.mem_cons.mp h
    · split at h
      · rcases List.mem_cons.mp h with h | h
        · exact Or.inl h
        · exact Or.inr (List.mem_cons_of_mem _ h)
      · rcases List.mem_cons.mp h with h | h
        · exact Or.inr (h ▸ List.mem_cons_self)
        · rcases mem_of_mem_insertByKey h with h | h
          · exact Or.inl h
          · exact Or.inr (List.mem_cons_of_mem _ h)

/-- The later of two insertions under one key is the one that counts. -/
theorem insertByKey_insertByKey (key : String) (value old : α) (entries : List (String × α)) :
    insertByKey key value (insertByKey key old entries) = insertByKey key value entries := by
  induction entries with
  | nil => simp [insertByKey]
  | cons entry rest ih =>
    obtain ⟨k, v⟩ := entry
    simp only [insertByKey]
    split
    · next hlt => simp [insertByKey]
    · split
      · next heq => simp [insertByKey]
      · next hlt hne =>
        rw [insertByKey, if_neg hlt, if_neg hne, ih]

/-- An entry whose key is greater than all others is put at the end. -/
theorem insertByKey_of_forall_lt {key : String} {value : α} {entries : List (String × α)}
    (h : ∀ e ∈ entries, e.1 < key) :
    insertByKey key value entries = entries ++ [(key, value)] := by
  induction entries with
  | nil => rfl
  | cons entry rest ih =>
    obtain ⟨k, v⟩ := entry
    have hk : k < key := h _ List.mem_cons_self
    rw [insertByKey, if_neg (not_lt_of_gt hk), if_neg (ne_of_gt hk),
      ih fun e he => h e (List.mem_cons_of_mem _ he)]
    rfl

namespace Ordered

theorem insert {entries : List (String × α)} (h : Ordered entries) (key : String) (value : α) :
    Ordered (insertByKey key value entries) := by
  induction entries with
  | nil => simp [insertByKey, Ordered]
  | cons entry rest ih =>
    obtain ⟨k, v⟩ := entry
    obtain ⟨hk, hrest⟩ := List.pairwise_cons.mp h
    simp only [insertByKey]
    split
    · next hlt =>
      refine List.pairwise_cons.mpr ⟨fun e he => ?_, h⟩
      rcases List.mem_cons.mp he with rfl | he
      · exact hlt
      · exact String.lt_trans hlt (hk e he)
    · split
      · next heq =>
        subst heq
        exact List.pairwise_cons.mpr ⟨hk, hrest⟩
      · next hlt hne =>
        refine List.pairwise_cons.mpr ⟨fun e he => ?_, ih hrest⟩
        rcases mem_of_mem_insertByKey he with rfl | he
        · exact lt_of_le_of_ne (not_lt.mp hlt) (Ne.symm hne)
        · exact hk e he

theorem filter {entries : List (String × α)} (h : Ordered entries) (keep : String × α → Bool) :
    Ordered (entries.filter keep) := List.Pairwise.filter keep h

theorem nodup_keys {entries : List (String × α)} (h : Ordered entries) :
    (entries.map (·.1)).Nodup :=
  List.pairwise_map.mpr (h.imp fun hlt => ne_of_lt hlt)

/-- Entries put one by one where their keys belong, when they come in order. -/
theorem foldl_insertByKey {entries : List (String × α)} (h : Ordered entries) :
    entries.foldl (fun found e => insertByKey e.1 e.2 found) [] = entries := by
  suffices hfold : ∀ (entries start : List (String × α)), Ordered (start ++ entries) →
      entries.foldl (fun found e => insertByKey e.1 e.2 found) start = start ++ entries from
    hfold entries [] h
  intro entries
  induction entries with
  | nil => exact fun start _ => (List.append_nil start).symm
  | cons entry rest ih =>
    obtain ⟨k, v⟩ := entry
    intro start hstart
    have hlast : insertByKey k v start = start ++ [(k, v)] :=
      insertByKey_of_forall_lt fun e he =>
        (List.pairwise_append.mp hstart).2.2 e he _ List.mem_cons_self
    rw [List.foldl_cons, hlast, ih _ (by simpa using hstart), List.append_assoc]
    rfl

/-- Looking up finds exactly the entries. -/
theorem lookup_eq_some_iff {entries : List (String × α)} (h : Ordered entries) (key : String)
    (value : α) : entries.lookup key = some value ↔ (key, value) ∈ entries := by
  induction entries with
  | nil => simp
  | cons entry rest ih =>
    obtain ⟨k, v⟩ := entry
    obtain ⟨hk, hrest⟩ := List.pairwise_cons.mp h
    by_cases hkey : key = k
    · subst hkey
      have hnot : (key, value) ∉ rest := fun hmem => String.lt_irrefl key (hk _ hmem)
      simp [hnot, eq_comm]
    · have hne : (key == k) = false := beq_false_of_ne hkey
      rw [List.lookup_cons, hne, ih hrest]
      simp [hkey]

/-- Entries that find the same under every key are the same. -/
theorem ext {entries entries' : List (String × α)} (h : Ordered entries) (h' : Ordered entries')
    (hlookup : ∀ key, entries.lookup key = entries'.lookup key) : entries = entries' := by
  have : Std.Irrefl fun a b : String × α => a.1 < b.1 := ⟨fun a => String.lt_irrefl a.1⟩
  have : Std.Antisymm fun a b : String × α => a.1 < b.1 :=
    ⟨fun a b hab hba => absurd (String.lt_trans hab hba) (String.lt_irrefl a.1)⟩
  refine List.Pairwise.eq_of_mem_iff h h' fun entry => ?_
  rw [← h.lookup_eq_some_iff, hlookup, h'.lookup_eq_some_iff]

end Ordered

/-- What is found is there. -/
theorem mem_of_lookup {entries : List (String × α)} {key : String} {value : α}
    (h : entries.lookup key = some value) : (key, value) ∈ entries := by
  induction entries with
  | nil => cases h
  | cons entry rest ih =>
    obtain ⟨k, v⟩ := entry
    by_cases hkey : key = k
    · subst hkey
      rw [List.lookup_cons_self] at h
      rw [Option.some.inj h]
      exact List.mem_cons_self
    · rw [List.lookup_cons, beq_false_of_ne hkey] at h
      exact List.mem_cons_of_mem _ (ih h)

/-- The keys are what something is found under. -/
theorem mem_keys_iff {entries : List (String × α)} {key : String} :
    key ∈ entries.map (·.1) ↔ entries.lookup key ≠ none := by
  induction entries with
  | nil => simp
  | cons entry rest ih =>
    obtain ⟨k, v⟩ := entry
    by_cases hkey : key = k
    · subst hkey
      simp
    · have hne : (key == k) = false := beq_false_of_ne hkey
      rw [List.map_cons, List.mem_cons, ih, List.lookup_cons, hne]
      simp [hkey]

/-! ### Erasure -/

/-- Keeping entries by their keys keeps what is found under those keys. -/
theorem lookup_filter (keep : String → Bool) (entries : List (String × α)) (key : String) :
    (entries.filter fun e => keep e.1).lookup key =
      if keep key then entries.lookup key else none := by
  induction entries with
  | nil => simp
  | cons entry rest ih =>
    obtain ⟨k, v⟩ := entry
    by_cases hkey : key = k
    · subst hkey
      by_cases hkeep : keep key = true
      · simp [hkeep]
      · simp only [List.filter_cons, hkeep, Bool.false_eq_true, if_false] at ih ⊢
        exact ih
    · have hne : (key == k) = false := beq_false_of_ne hkey
      by_cases hkeep : keep k = true
      · simp only [List.filter_cons, hkeep, if_true, List.lookup_cons, hne, ih]
      · simp only [List.filter_cons, hkeep, Bool.false_eq_true, if_false, List.lookup_cons, hne, ih]

/-- What is found after an erasure was found before. -/
theorem lookup_of_eraseKey {key other : String} {value : α} {entries : List (String × α)}
    (h : (eraseKey key entries).lookup other = some value) :
    entries.lookup other = some value := by
  by_cases hother : other = key
  · rw [hother, lookup_eraseKey_self] at h
    cases h
  · rwa [lookup_eraseKey_of_ne hother] at h

/-! ### Names in order -/

theorem mem_insertName {name other : String} {names : List String} :
    other ∈ insertName name names ↔ other = name ∨ other ∈ names := by
  induction names with
  | nil => simp [insertName]
  | cons first rest ih =>
    rw [insertName]
    split
    · exact List.mem_cons
    · split
      · next heq => simp [heq]
      · rw [List.mem_cons, ih, List.mem_cons, or_left_comm]

theorem pairwise_insertName {names : List String} (h : names.Pairwise (· < ·)) (name : String) :
    (insertName name names).Pairwise (· < ·) := by
  induction names with
  | nil => simp [insertName]
  | cons first rest ih =>
    obtain ⟨hfirst, hrest⟩ := List.pairwise_cons.mp h
    rw [insertName]
    split
    · next hlt =>
      refine List.pairwise_cons.mpr ⟨fun other hother => ?_, h⟩
      rcases List.mem_cons.mp hother with rfl | hother
      · exact hlt
      · exact String.lt_trans hlt (hfirst other hother)
    · split
      · exact h
      · next hlt hne =>
        refine List.pairwise_cons.mpr ⟨fun other hother => ?_, ih hrest⟩
        rcases mem_insertName.mp hother with rfl | hother
        · exact lt_of_le_of_ne (not_lt.mp hlt) (Ne.symm hne)
        · exact hfirst other hother

/-- Names put in order increase, and no name is lost or added. -/
theorem orderedNames_spec (names : List String) :
    (orderedNames names).Pairwise (· < ·) ∧ ∀ name, name ∈ orderedNames names ↔ name ∈ names := by
  suffices hfold : ∀ (names start : List String), start.Pairwise (· < ·) →
      (names.foldl (fun ns n => insertName n ns) start).Pairwise (· < ·) ∧
        ∀ name, name ∈ names.foldl (fun ns n => insertName n ns) start ↔
          name ∈ names ∨ name ∈ start by
    obtain ⟨hordered, hmem⟩ := hfold names [] List.Pairwise.nil
    exact ⟨hordered, fun name => by simpa [orderedNames] using hmem name⟩
  intro names
  induction names with
  | nil => exact fun start hstart => ⟨hstart, fun name => by simp⟩
  | cons first rest ih =>
    intro start hstart
    obtain ⟨hordered, hmem⟩ := ih (insertName first start) (pairwise_insertName hstart first)
    refine ⟨hordered, fun name => ?_⟩
    rw [List.foldl_cons, hmem, mem_insertName, List.mem_cons, or_left_comm, or_assoc]

end DataClassGen
