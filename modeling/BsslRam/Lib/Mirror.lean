import Mathlib.Logic.Basic

/-!
# A mirror that is kept by notices

A source holds a value for each key and changes on its own.  Every change is
announced by a notice in a queue.  A reader takes the notices one by one, reads
the source as it is by then, and stores what it read in a mirror.  Between the
read and the store the source may change again.

A notice says that the key changed, or that it was cleared to the blank value;
for a cleared key the reader stores the blank value without a look.

`Synced` is the invariant: a key without a notice in the queue is right in the
mirror, or right in the hands of the reader.  The lemmas below are the rules for
the things that can happen: the source changes, a notice is taken, a value is
stored, somebody else writes the mirror.  When the queue is empty and the
reader's hands are, the mirror is the source (`Synced.mirror_eq`).
-/

namespace BsslRam.Lib.Mirror

variable {K V : Type*}

inductive Notice (K : Type*) where
  | changed (k : K)
  | cleared (k : K)

def Notice.key : Notice K → K
  | changed k | cleared k => k

/-- No notice in the queue is about `k`. -/
def Quiet (queue : List (Notice K)) (k : K) : Prop := ∀ n ∈ queue, n.key ≠ k

theorem quiet_cons {n : Notice K} {queue : List (Notice K)} {k : K} :
    Quiet (n :: queue) k ↔ n.key ≠ k ∧ Quiet queue k := by
  unfold Quiet
  rw [List.forall_mem_cons]

theorem quiet_append {front back : List (Notice K)} {k : K} :
    Quiet (front ++ back) k ↔ Quiet front k ∧ Quiet back k := by
  unfold Quiet
  rw [List.forall_mem_append]

/-- If the last notice about a key is that it was cleared, it is blank. -/
def ClearedBlank (blank : V) (source : K → V) (queue : List (Notice K)) : Prop :=
  ∀ k front back, queue = front ++ .cleared k :: back → Quiet back k → source k = blank

theorem clearedBlank_nil (blank : V) (source : K → V) : ClearedBlank blank source [] := by
  intro k front back hsplit
  exact absurd hsplit (by simp)

/-- The source changes at the key of a new notice, and to the blank value if the
notice says so. -/
theorem ClearedBlank.push {blank : V} {source source' : K → V} {queue : List (Notice K)}
    (h : ClearedBlank blank source queue) (n : Notice K)
    (hsame : ∀ k, n.key ≠ k → source' k = source k)
    (hblank : ∀ k, n = .cleared k → source' k = blank) :
    ClearedBlank blank source' (queue ++ [n]) := by
  intro k front back hsplit hquiet
  rcases List.eq_nil_or_concat back with hnil | ⟨back', last, hback⟩
  · rw [hnil] at hsplit
    have hlast : n = .cleared k := (List.append_inj' hsplit rfl).2 |> List.singleton_inj.mp
    exact hblank k hlast
  · rw [List.concat_eq_append] at hback
    rw [hback, ← List.cons_append, ← List.append_assoc] at hsplit
    obtain ⟨hqueue, hlast⟩ := List.append_inj' hsplit rfl
    rw [hback, quiet_append] at hquiet
    rw [List.singleton_inj.mp hlast] at hsame
    have hne : last.key ≠ k := hquiet.2 last (List.mem_singleton.mpr rfl)
    rw [hsame k hne]
    exact h k front back' hqueue hquiet.1

theorem ClearedBlank.pop {blank : V} {source : K → V} {n : Notice K}
    {queue : List (Notice K)} (h : ClearedBlank blank source (n :: queue)) :
    ClearedBlank blank source queue := by
  intro k front back hsplit hquiet
  exact h k (n :: front) back (by rw [hsplit, List.cons_append]) hquiet

/-- The reader holds something for `k`. -/
def Holds (hand : Option (K × V)) (k : K) : Prop := ∃ v, hand = some (k, v)

structure Synced (blank : V) (source : K → V) (queue : List (Notice K)) (mirror : K → V)
    (hand : Option (K × V)) : Prop where
  cleared : ClearedBlank blank source queue
  held : ∀ k v, hand = some (k, v) → Quiet queue k → v = source k
  stored : ∀ k, ¬ Holds hand k → Quiet queue k → mirror k = source k

namespace Synced

variable {blank : V} {source source' : K → V} {queue : List (Notice K)} {mirror mirror' : K → V}
  {hand : Option (K × V)}

/-- The source changes, and a notice says where. -/
theorem push (h : Synced blank source queue mirror hand) (n : Notice K)
    (hsame : ∀ k, n.key ≠ k → source' k = source k)
    (hblank : ∀ k, n = .cleared k → source' k = blank) :
    Synced blank source' (queue ++ [n]) mirror hand where
  cleared := h.cleared.push n hsame hblank
  held := by
    intro k v hhand hquiet
    rw [quiet_append] at hquiet
    rw [hsame k (hquiet.2 n (List.mem_singleton.mpr rfl))]
    exact h.held k v hhand hquiet.1
  stored := by
    intro k hfree hquiet
    rw [quiet_append] at hquiet
    rw [hsame k (hquiet.2 n (List.mem_singleton.mpr rfl))]
    exact h.stored k hfree hquiet.1

/-- The reader takes the next notice into empty hands.  A changed key is read now. -/
theorem take {n : Notice K} {v : V} (h : Synced blank source (n :: queue) mirror none)
    (hv : v = match n with | .changed k => source k | .cleared _ => blank) :
    Synced blank source queue mirror (some (n.key, v)) where
  cleared := h.cleared.pop
  held := by
    intro k w hhand hquiet
    obtain ⟨rfl, rfl⟩ : n.key = k ∧ v = w := by simpa using hhand
    cases n with
    | changed k => exact hv
    | cleared k =>
      -- the key was cleared and has not been heard of since
      exact hv.trans (h.cleared k [] queue rfl hquiet).symm
  stored := by
    intro k hfree hquiet
    have hne : n.key ≠ k := fun hk => hfree ⟨v, by rw [hk]⟩
    exact h.stored k (fun ⟨w, hw⟩ => by cases hw) (quiet_cons.mpr ⟨hne, hquiet⟩)

/-- The reader stores what it holds. -/
theorem store {k : K} {v : V} (h : Synced blank source queue mirror (some (k, v)))
    (hnew : mirror' k = v) (hold : ∀ j, k ≠ j → mirror' j = mirror j) :
    Synced blank source queue mirror' none where
  cleared := h.cleared
  held := by
    intro j w hhand
    cases hhand
  stored := by
    intro j _ hquiet
    by_cases hj : k = j
    · subst hj
      rw [hnew]
      exact h.held k v rfl hquiet
    · rw [hold j hj]
      refine h.stored j (fun ⟨w, hw⟩ => hj ?_) hquiet
      exact congrArg Prod.fst (Option.some.inj hw)

/-- Somebody else writes the mirror, and is right about every key that nothing is
under way for. -/
theorem overwrite (h : Synced blank source queue mirror hand)
    (hright : ∀ k, ¬ Holds hand k → Quiet queue k → mirror' k = source k) :
    Synced blank source queue mirror' hand where
  cleared := h.cleared
  held := h.held
  stored := hright

/-- With nothing under way, the mirror is the source. -/
theorem mirror_eq (h : Synced blank source [] mirror none) (k : K) : mirror k = source k :=
  h.stored k (fun ⟨_, hv⟩ => by cases hv) (fun _ hn => by cases hn)

end Synced

end BsslRam.Lib.Mirror
