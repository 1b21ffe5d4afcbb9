import Mathlib

/-!
# Finite maps with decidable key equality

`std::collections::HashMap` is modelled by `Std.ExtTreeMap`.  A hash map has no
specified iteration order and shows nothing of its buckets, so two maps with
the same lookups are the same map.  `ExtTreeMap` has exactly that equality
(`ExtTreeMap.ext_getElem?`), and unlike a bare function it is finite and can be
listed and counted.

`Std` states the lookup laws with `compare k a = .eq`.  The lemmas below state
them with `k = a`, which is the form that every proof about a map of this
development rewrites with.
-/

namespace BsslRam.Lib

/-- A finite map with keys in `K`, for the `HashMap<K, V>` of the source. -/
abbrev Map (K V : Type) [Ord K] := Std.ExtTreeMap K V compare

namespace Map

variable {K V : Type} [Ord K] [Std.TransOrd K] [Std.LawfulEqOrd K]

/-- `HashMap::insert` read back. -/
theorem getElem?_insert [DecidableEq K] (m : Map K V) (k a : K) (v : V) :
    (m.insert k v)[a]? = if k = a then some v else m[a]? := by
  simp [Std.ExtTreeMap.getElem?_insert]

/-- `HashMap::remove` read back. -/
theorem getElem?_erase [DecidableEq K] (m : Map K V) (k a : K) :
    (m.erase k)[a]? = if k = a then none else m[a]? := by
  simp [Std.ExtTreeMap.getElem?_erase]

/-- The entries that `HashMap::retain` keeps when it looks at the key only. -/
def retainKeys (m : Map K V) (keep : K → Bool) : Map K V :=
  m.filter (fun k _ => keep k)

theorem getElem?_retainKeys (m : Map K V) (keep : K → Bool) (a : K) :
    (m.retainKeys keep)[a]? = if keep a then m[a]? else none := by
  cases hk : keep a with
  | false => simp [retainKeys, hk]
  | true => cases hm : m[a]? <;> simp [retainKeys, hk, hm]

/-- Removing a list of keys, one after the other. -/
theorem getElem?_foldl_erase [DecidableEq K] (ks : List K) (m : Map K V) (a : K) :
    (ks.foldl (fun m k => m.erase k) m)[a]? = if a ∈ ks then none else m[a]? := by
  induction ks generalizing m with
  | nil => rfl
  | cons k ks ih =>
    rw [List.foldl_cons, ih, getElem?_erase]
    by_cases hk : k = a
    · simp [hk]
    · simp [hk, Ne.symm hk]

theorem getElem?_foldl_insert_of_not_mem [DecidableEq K] {entries : List (K × V)} {a : K}
    (ha : a ∉ entries.map Prod.fst) (m : Map K V) :
    (entries.foldl (fun m entry => m.insert entry.1 entry.2) m)[a]? = m[a]? := by
  induction entries generalizing m with
  | nil => rfl
  | cons entry entries ih =>
    rw [List.map_cons, List.mem_cons, not_or] at ha
    rw [List.foldl_cons, ih ha.2, getElem?_insert, if_neg (Ne.symm ha.1)]

theorem getElem?_foldl_insert_of_mem [DecidableEq K] {entries : List (K × V)}
    (hnodup : (entries.map Prod.fst).Nodup) {a : K} {v : V} (hmem : (a, v) ∈ entries)
    (m : Map K V) :
    (entries.foldl (fun m entry => m.insert entry.1 entry.2) m)[a]? = some v := by
  induction entries generalizing m with
  | nil => cases hmem
  | cons entry entries ih =>
    rw [List.map_cons, List.nodup_cons] at hnodup
    rw [List.foldl_cons]
    rcases List.mem_cons.mp hmem with hhead | htail
    · subst hhead
      rw [getElem?_foldl_insert_of_not_mem hnodup.1, getElem?_insert, if_pos rfl]
    · exact ih hnodup.2 htail _

/-- A list that is made from the entries of a map, each with its key, has no key
twice. -/
theorem nodup_keys_filterMap {β : Type} (m : Map K V) (f : K × V → Option β) (key : β → K)
    (hkey : ∀ entry b, f entry = some b → key b = entry.1) :
    ((m.toList.filterMap f).map key).Nodup := by
  rw [List.Nodup, List.pairwise_map, List.pairwise_filterMap]
  refine (Std.ExtTreeMap.distinct_keys_toList (t := m)).imp ?_
  intro entry entry' hne b hb b' hb' heq
  apply hne
  rw [← hkey entry b hb, ← hkey entry' b' hb', heq]
  exact Std.ReflOrd.compare_self

theorem size_le_length {m : Map K V} {ks : List K} (h : ∀ k ∈ m, k ∈ ks) :
    m.size ≤ ks.length := by
  rw [← Std.ExtTreeMap.length_keys]
  apply List.Subperm.length_le
  apply List.subperm_of_subset Std.ExtTreeMap.nodup_keys
  intro k hk
  exact h k (Std.ExtTreeMap.mem_keys.mp hk)

/-- The length of a map counts its keys. -/
theorem size_eq_ncard (m : Map K V) : m.size = {k | k ∈ m}.ncard := by
  classical
  have hkeys : {k | k ∈ m} = (m.keys.toFinset : Set K) := by
    ext k
    rw [Set.mem_ofPred_eq, Finset.mem_coe, List.mem_toFinset, Std.ExtTreeMap.mem_keys]
  rw [hkeys, Set.ncard_coe_finset, List.toFinset_card_of_nodup Std.ExtTreeMap.nodup_keys,
    Std.ExtTreeMap.length_keys]

end Map

end BsslRam.Lib
