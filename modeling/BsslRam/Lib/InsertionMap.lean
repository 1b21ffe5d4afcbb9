import Mathlib.Data.List.Nodup

/-!
# Maps in the order of insertion

The `Map` of JavaScript: a list of entries with distinct keys.  Setting a key that
is there keeps its place, and a new key goes to the end.  The order only shows
when the entries are listed, so the laws below are about `get`.
-/

namespace BsslRam.Lib

structure InsertionMap (K V : Type*) where
  entries : List (K × V)
  nodup : (entries.map Prod.fst).Nodup

namespace InsertionMap

variable {K V : Type*} [DecidableEq K]

/-- The entries after `set`. -/
def setEntries (k : K) (v : V) : List (K × V) → List (K × V)
  | [] => [(k, v)]
  | (j, w) :: rest => if j = k then (k, v) :: rest else (j, w) :: setEntries k v rest

theorem mem_keys_setEntries {k a : K} {v : V} {entries : List (K × V)}
    (h : a ∈ (setEntries k v entries).map Prod.fst) : a = k ∨ a ∈ entries.map Prod.fst := by
  induction entries with
  | nil => exact Or.inl (List.mem_singleton.mp h)
  | cons entry rest ih =>
    obtain ⟨j, w⟩ := entry
    rw [setEntries] at h
    split at h
    · rcases List.mem_cons.mp h with heq | hrest
      · exact Or.inl heq
      · exact Or.inr (List.mem_cons_of_mem _ hrest)
    · rcases List.mem_cons.mp h with heq | hrest
      · exact Or.inr (heq ▸ List.mem_cons_self)
      · exact (ih hrest).imp_right (List.mem_cons_of_mem _)

theorem nodup_setEntries (k : K) (v : V) {entries : List (K × V)}
    (h : (entries.map Prod.fst).Nodup) : ((setEntries k v entries).map Prod.fst).Nodup := by
  induction entries with
  | nil => exact List.nodup_singleton _
  | cons entry rest ih =>
    obtain ⟨j, w⟩ := entry
    rw [List.map_cons, List.nodup_cons] at h
    rw [setEntries]
    split
    · rename_i heq
      rw [List.map_cons, List.nodup_cons]
      exact ⟨heq ▸ h.1, h.2⟩
    · rename_i hne
      rw [List.map_cons, List.nodup_cons]
      refine ⟨?_, ih h.2⟩
      intro hmem
      rcases mem_keys_setEntries hmem with heq | hrest
      · exact hne heq
      · exact h.1 hrest

def empty : InsertionMap K V := ⟨[], List.nodup_nil⟩

def get (m : InsertionMap K V) (k : K) : Option V := m.entries.lookup k

def has (m : InsertionMap K V) (k : K) : Bool := (m.get k).isSome

def set (m : InsertionMap K V) (k : K) (v : V) : InsertionMap K V where
  entries := setEntries k v m.entries
  nodup := nodup_setEntries k v m.nodup

def delete (m : InsertionMap K V) (k : K) : InsertionMap K V where
  entries := m.entries.filter (fun entry => entry.1 ≠ k)
  nodup := m.nodup.sublist (List.filter_sublist.map Prod.fst)

def filter (m : InsertionMap K V) (keep : V → Bool) : InsertionMap K V where
  entries := m.entries.filter (fun entry => keep entry.2)
  nodup := m.nodup.sublist (List.filter_sublist.map Prod.fst)

theorem lookup_cons (k a : K) (v : V) (rest : List (K × V)) :
    ((k, v) :: rest).lookup a = if a = k then some v else rest.lookup a := by
  rw [List.lookup_cons]
  by_cases h : a = k
  · rw [beq_iff_eq.mpr h, if_pos h]
  · rw [beq_eq_false_iff_ne.mpr h, if_neg h]

theorem lookup_of_not_mem {entries : List (K × V)} {k : K} (h : k ∉ entries.map Prod.fst) :
    entries.lookup k = none := by
  rw [List.lookup_eq_none_iff]
  intro entry hentry
  rw [bne_iff_ne]
  intro heq
  exact h (List.mem_map.mpr ⟨entry, hentry, heq.symm⟩)

theorem get_set (m : InsertionMap K V) (k a : K) (v : V) :
    (m.set k v).get a = if a = k then some v else m.get a := by
  show (setEntries k v m.entries).lookup a = if a = k then some v else m.entries.lookup a
  induction m.entries with
  | nil => rw [setEntries, lookup_cons]
  | cons entry rest ih =>
    obtain ⟨j, w⟩ := entry
    rw [setEntries, lookup_cons]
    split
    · rename_i hj
      rw [lookup_cons, hj]
      split <;> rfl
    · rename_i hj
      rw [lookup_cons, ih]
      by_cases ha : a = j
      · rw [if_pos ha, if_pos ha, if_neg (ha ▸ hj)]
      · rw [if_neg ha, if_neg ha]

theorem get_delete (m : InsertionMap K V) (k a : K) :
    (m.delete k).get a = if a = k then none else m.get a := by
  show (m.entries.filter (fun entry => entry.1 ≠ k)).lookup a =
    if a = k then none else m.entries.lookup a
  induction m.entries with
  | nil => simp
  | cons entry rest ih =>
    obtain ⟨j, w⟩ := entry
    rw [List.filter_cons, lookup_cons]
    by_cases hj : j = k
    · rw [if_neg (by simp [hj]), ih, hj]
      split <;> rfl
    · rw [if_pos (by simp [hj]), lookup_cons, ih]
      by_cases ha : a = j
      · rw [if_pos ha, if_pos ha, if_neg (ha ▸ hj)]
      · rw [if_neg ha, if_neg ha]

theorem lookup_filter {entries : List (K × V)} (hnodup : (entries.map Prod.fst).Nodup)
    (keep : V → Bool) (a : K) :
    (entries.filter (fun entry => keep entry.2)).lookup a = (entries.lookup a).filter keep := by
  induction entries with
  | nil => rfl
  | cons entry rest ih =>
    obtain ⟨j, w⟩ := entry
    rw [List.map_cons, List.nodup_cons] at hnodup
    rw [List.filter_cons, lookup_cons]
    by_cases hkeep : keep w = true
    · rw [if_pos hkeep, lookup_cons, ih hnodup.2]
      split
      · rw [Option.filter_some_pos hkeep]
      · rfl
    · rw [if_neg hkeep, ih hnodup.2]
      split
      · rename_i heq
        -- no other entry has the key
        rw [heq, lookup_of_not_mem hnodup.1, Option.filter_some, if_neg hkeep]
        rfl
      · rfl

theorem get_filter (m : InsertionMap K V) (keep : V → Bool) (a : K) :
    (m.filter keep).get a = (m.get a).filter keep :=
  lookup_filter m.nodup keep a

end InsertionMap

end BsslRam.Lib
