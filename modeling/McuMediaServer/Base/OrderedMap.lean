import Std.Data.TreeMap.Lemmas
import Mathlib.Data.List.Induction
import Mathlib.Data.List.Perm.Basic
import Mathlib.Tactic.Common

/-!
# Ordered maps

A C++ `std::map` is a `Std.TreeMap` here. Its entries are listed in the order of their keys, so
`begin()` is the head of that list. The lemmas say how inserting, erasing and taking the first entry
change the list of entries.
-/

namespace OrderedMap

open Std

variable {κ β : Type*} [Ord κ] {m : TreeMap κ β}

/-- The first entry, `begin()`. -/
def first? (m : TreeMap κ β) : Option (κ × β) :=
  m.toList.head?

/-- The values, in the order of their keys. -/
def values (m : TreeMap κ β) : List β :=
  m.toList.map Prod.snd

theorem first?_eq_none : first? m = none ↔ m.toList = [] :=
  List.head?_eq_none_iff

variable [TransOrd κ]

variable {k : κ} {v : β}

theorem contains_of_getElem? (h : m[k]? = some v) : m.contains k = true := by
  rw [TreeMap.contains_eq_isSome_getElem?, h]
  rfl

theorem size_erase_lt (h : m[k]? = some v) : (m.erase k).size < m.size := by
  have hcontains := contains_of_getElem? h
  have hpos : m.size ≠ 0 := by
    intro hzero
    rw [TreeMap.contains_of_isEmpty] at hcontains
    · cases hcontains
    · rw [TreeMap.isEmpty_eq_size_eq_zero, hzero]
      rfl
  rw [TreeMap.size_erase, if_pos hcontains]
  omega

theorem size_insert_of_some {v w : β} (h : m[k]? = some v) : (m.insert k w).size = m.size := by
  rw [TreeMap.size_insert, if_pos (contains_of_getElem? h)]

variable [LawfulEqOrd κ]

theorem nodup_toList (m : TreeMap κ β) : m.toList.Nodup := by
  have h := m.distinct_keys_toList
  refine h.imp fun {a b} hab heq => ?_
  subst heq
  exact hab ReflCmp.compare_self

theorem mem_toList_iff : (k, v) ∈ m.toList ↔ m[k]? = some v :=
  TreeMap.mem_toList_iff_getElem?_eq_some

theorem mem_values_iff : v ∈ values m ↔ ∃ k : κ, m[k]? = some v := by
  constructor
  · intro h
    obtain ⟨⟨k, v'⟩, hmem, rfl⟩ := List.mem_map.1 h
    exact ⟨k, mem_toList_iff.1 hmem⟩
  · intro ⟨k, h⟩
    exact List.mem_map.2 ⟨(k, v), mem_toList_iff.2 h, rfl⟩

section Ite

variable [DecidableEq κ]

theorem getElem?_insert_ite (k a : κ) (v : β) :
    (m.insert k v)[a]? = if a = k then some v else m[a]? := by
  rw [TreeMap.getElem?_insert]
  exact if_congr (LawfulEqOrd.compare_eq_iff_eq.trans eq_comm) rfl rfl

theorem getElem?_erase_ite (k a : κ) : (m.erase k)[a]? = if a = k then none else m[a]? := by
  rw [TreeMap.getElem?_erase]
  exact if_congr (LawfulEqOrd.compare_eq_iff_eq.trans eq_comm) rfl rfl

end Ite

theorem toList_insert_perm (h : m[k]? = none) :
    List.Perm (m.insert k v).toList ((k, v) :: m.toList) := by
  refine (List.perm_ext_iff_of_nodup (nodup_toList _) ?_).2 fun ⟨k', v'⟩ => ?_
  · refine List.nodup_cons.2 ⟨fun hmem => ?_, nodup_toList m⟩
    rw [mem_toList_iff, h] at hmem
    cases hmem
  · rw [mem_toList_iff, TreeMap.getElem?_insert, List.mem_cons, mem_toList_iff]
    split
    case isTrue hk =>
      obtain rfl := LawfulEqCmp.eq_of_compare hk
      simp [h, eq_comm]
    case isFalse hk =>
      have hne : k' ≠ k := fun heq => hk (heq ▸ ReflCmp.compare_self)
      simp [hne]

theorem toList_erase_perm {rest : List (κ × β)} (h : m.toList = (k, v) :: rest) :
    List.Perm (m.erase k).toList rest := by
  have hnodup := nodup_toList m
  have hdistinct := m.distinct_keys_toList
  rw [h] at hnodup hdistinct
  refine (List.perm_ext_iff_of_nodup (nodup_toList _) (List.nodup_cons.1 hnodup).2).2
    fun ⟨k', v'⟩ => ?_
  have hmem : (k', v') ∈ m.toList ↔ (k', v') = (k, v) ∨ (k', v') ∈ rest := by
    rw [h, List.mem_cons]
  rw [mem_toList_iff] at hmem
  rw [mem_toList_iff, TreeMap.getElem?_erase]
  split
  case isTrue hk =>
    obtain rfl := LawfulEqCmp.eq_of_compare hk
    refine ⟨(fun h => nomatch h), fun hrest => ?_⟩
    exact absurd ReflCmp.compare_self ((List.pairwise_cons.1 hdistinct).1 (k, v') hrest)
  case isFalse hk =>
    have hne : (k', v') ≠ (k, v) := fun heq => hk (by cases heq; exact ReflCmp.compare_self)
    rw [hmem]
    simp [hne]

theorem getElem?_of_first? (h : first? m = some (k, v)) : m[k]? = some v :=
  mem_toList_iff.1 (List.mem_of_head? h)

theorem compare_first? {k k' : κ} {v v' : β} (h : first? m = some (k, v))
    (h' : m[k']? = some v') (hne : k' ≠ k) : compare k k' = .lt := by
  obtain ⟨rest, hrest⟩ := List.head?_eq_some_iff.1 h
  have hsorted := m.ordered_keys_toList
  rw [hrest] at hsorted
  rcases List.mem_cons.1 (hrest ▸ mem_toList_iff.2 h') with heq | hmem
  · cases heq
    exact absurd rfl hne
  · exact (List.pairwise_cons.1 hsorted).1 _ hmem

theorem values_insert_perm (h : m[k]? = none) : List.Perm (values (m.insert k v)) (v :: values m) :=
  (toList_insert_perm h).map _

theorem values_erase_perm (h : first? m = some (k, v)) :
    List.Perm (values m) (v :: values (m.erase k)) := by
  obtain ⟨rest, hrest⟩ := List.head?_eq_some_iff.1 h
  rw [values, hrest, List.map_cons]
  exact .cons _ ((toList_erase_perm hrest).map Prod.snd).symm

/-! ## Lists that grow in order -/

/-- A list ordered by a transitive relation stays so when an element above its last one is
appended. -/
theorem pairwise_concat {α : Type*} {r : α → α → Prop} {l : List α} {a : α} (hl : l.Pairwise r)
    (htrans : ∀ b c d, r b c → r c d → r b d)
    (hlast : ∀ last, l.getLast? = some last → r last a) : (l ++ [a]).Pairwise r := by
  refine List.pairwise_append.2 ⟨hl, List.pairwise_singleton r a, fun b hb c hc => ?_⟩
  rw [List.mem_singleton.1 hc]
  induction l using List.reverseRecOn with
  | nil => cases hb
  | append_singleton l last _ =>
    have hra := hlast last List.getLast?_concat
    rcases List.mem_append.1 hb with hb | hb
    · exact htrans b last a ((List.pairwise_append.1 hl).2.2 b hb last (List.mem_singleton_self _))
        hra
    · rwa [List.mem_singleton.1 hb]

end OrderedMap
