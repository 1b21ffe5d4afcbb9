import BsslRam.Lib.Map

/-!
# Hash tables of fixed capacity

A table that is allocated once for `cap` entries.  Writing to a key that it
holds always works.  A new key is refused when the table is full, and then the
table stays as it is.  Deleting makes room again.

`HasRoom` is the test that decides between the two.  Every lookup law below
names it, so that a proof about a table says where the capacity matters.
-/

namespace BsslRam.Lib

/-- A finite map that holds at most `cap` entries. -/
structure CappedMap (K V : Type) [Ord K] [Std.TransOrd K] (cap : Nat) where
  entries : Map K V
  size_le : entries.size ≤ cap

namespace CappedMap

variable {K V : Type} [Ord K] [Std.TransOrd K] {cap : Nat}

def empty : CappedMap K V cap where
  entries := ∅
  size_le := by simp

def lookup (m : CappedMap K V cap) (k : K) : Option V := m.entries[k]?

/-- A write to `k` goes through: the key is there, or the table is not full. -/
def HasRoom (m : CappedMap K V cap) (k : K) : Prop :=
  (m.lookup k).isSome = true ∨ m.entries.size < cap

instance (m : CappedMap K V cap) (k : K) : Decidable (m.HasRoom k) :=
  inferInstanceAs (Decidable (_ ∨ _))

theorem size_insert (m : CappedMap K V cap) (k : K) (v : V) :
    (m.entries.insert k v).size =
      if (m.lookup k).isSome = true then m.entries.size else m.entries.size + 1 := by
  rw [Std.ExtTreeMap.size_insert, Std.ExtTreeMap.contains_eq_isSome_getElem?]
  rfl

theorem size_insert_le {m : CappedMap K V cap} {k : K} (h : m.HasRoom k) (v : V) :
    (m.entries.insert k v).size ≤ cap := by
  have hle := m.size_le
  rw [size_insert]
  rcases h with hsome | hlt
  · rw [if_pos hsome]
    exact hle
  · split <;> omega

/-- Write `v` under `k`, unless that would need a new entry in a full table. -/
def update (m : CappedMap K V cap) (k : K) (v : V) : CappedMap K V cap :=
  if h : m.HasRoom k then ⟨m.entries.insert k v, size_insert_le h v⟩ else m

def delete (m : CappedMap K V cap) (k : K) : CappedMap K V cap where
  entries := m.entries.erase k
  size_le := Nat.le_trans Std.ExtTreeMap.size_erase_le m.size_le

@[simp] theorem lookup_empty (k : K) : (empty : CappedMap K V cap).lookup k = none := by
  simp [empty, lookup]

/-- A new key takes one more entry, until the table is full. -/
theorem size_update_of_new {m : CappedMap K V cap} {k : K} (hnew : m.lookup k = none) (v : V) :
    (m.update k v).entries.size = min cap (m.entries.size + 1) := by
  have hle := m.size_le
  have hsize := size_insert m k v
  rw [hnew] at hsize
  by_cases hlt : m.entries.size < cap
  · have hroom : m.HasRoom k := Or.inr hlt
    rw [update, dif_pos hroom]
    show (m.entries.insert k v).size = _
    rw [hsize]
    show m.entries.size + 1 = _
    omega
  · have hfull : ¬ m.HasRoom k := by
      intro hroom
      rcases hroom with hsome | hlt'
      · rw [hnew] at hsome
        cases hsome
      · exact hlt hlt'
    rw [update, dif_neg hfull]
    omega

section Lookup

variable [Std.LawfulEqOrd K] [DecidableEq K] (m : CappedMap K V cap) (k a : K)

theorem lookup_update (v : V) :
    (m.update k v).lookup a = if k = a ∧ m.HasRoom k then some v else m.lookup a := by
  by_cases hroom : m.HasRoom k
  · rw [update, dif_pos hroom]
    simp only [hroom, and_true]
    exact Map.getElem?_insert m.entries k a v
  · rw [update, dif_neg hroom, if_neg (fun h => hroom h.2)]

theorem lookup_delete :
    (m.delete k).lookup a = if k = a then none else m.lookup a :=
  Map.getElem?_erase m.entries k a

end Lookup

end CappedMap

end BsslRam.Lib
