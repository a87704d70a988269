import McuMediaServer.Base.SortedMap

/-!
# Hash maps

A map whose entries may be listed in any order (`Iteration`). The entries themselves are kept in the
order of their keys, so that maps in which the same is looked up are equal.
-/

/-- A map from keys to values. -/
structure HashMap (κ β : Type) [LinearOrder κ] where
  entries : List (κ × β)
  sorted : SortedMap.Sorted entries

namespace HashMap

variable {κ β : Type} [LinearOrder κ]

def empty : HashMap κ β := ⟨[], List.Pairwise.nil⟩

def get? (m : HashMap κ β) (k : κ) : Option β := SortedMap.get? k m.entries

def put (m : HashMap κ β) (k : κ) (v : β) : HashMap κ β :=
  ⟨SortedMap.set k v m.entries, m.sorted.set k v⟩

/-- Put one entry after the other. -/
def putAll (m : HashMap κ β) (entries : List (κ × β)) : HashMap κ β :=
  entries.foldl (fun m e => m.put e.1 e.2) m

@[simp]
theorem get?_empty (k : κ) : (empty : HashMap κ β).get? k = none := rfl

theorem get?_put (m : HashMap κ β) (k k' : κ) (v : β) :
    (m.put k v).get? k' = if k' = k then some v else m.get? k' :=
  SortedMap.get?_set k k' v m.entries

variable {m : HashMap κ β}

theorem mem_entries {k : κ} {v : β} : (k, v) ∈ m.entries ↔ m.get? k = some v :=
  ⟨m.sorted.get?_of_mem, SortedMap.mem_of_get?⟩

@[simp]
theorem putAll_nil (m : HashMap κ β) : m.putAll [] = m := rfl

@[simp]
theorem putAll_concat (m : HashMap κ β) (entries : List (κ × β)) (e : κ × β) :
    m.putAll (entries ++ [e]) = (m.putAll entries).put e.1 e.2 :=
  List.foldl_append

theorem get?_putAll_of_notMem {entries : List (κ × β)} {k : κ}
    (h : k ∉ entries.map Prod.fst) : (m.putAll entries).get? k = m.get? k := by
  induction entries using List.reverseRecOn with
  | nil => rfl
  | append_singleton entries e ih =>
    rw [List.map_append, List.mem_append, not_or] at h
    rw [putAll_concat, get?_put, if_neg fun hk => h.2 (List.mem_singleton.2 hk), ih h.1]

/-- A key that is put gets one of the values with which it is. -/
theorem get?_putAll_of_mem {entries : List (κ × β)} {k : κ} (h : k ∈ entries.map Prod.fst) :
    ∃ v, (k, v) ∈ entries ∧ (m.putAll entries).get? k = some v := by
  induction entries using List.reverseRecOn with
  | nil => exact absurd h List.not_mem_nil
  | append_singleton entries e ih =>
    rw [putAll_concat, get?_put]
    by_cases hk : k = e.1
    · rw [if_pos hk, hk]
      exact ⟨e.2, List.mem_append_right _ (List.mem_singleton_self _), rfl⟩
    · rw [List.map_append, List.mem_append] at h
      obtain ⟨v, hv, hget⟩ := ih (h.resolve_right fun hlast => hk (List.mem_singleton.1 hlast))
      rw [if_neg hk]
      exact ⟨v, List.mem_append_left _ hv, hget⟩

/-- A way to list the entries of maps. -/
structure Iteration (κ β : Type) [LinearOrder κ] where
  entrySet : HashMap κ β → List (κ × β)
  perm : ∀ m, (entrySet m).Perm m.entries

/-- The order of the keys. -/
def Iteration.sorted (κ β : Type) [LinearOrder κ] : Iteration κ β := ⟨entries, fun _ => .refl _⟩

theorem Iteration.mem {it : Iteration κ β} {k : κ} {v : β} :
    (k, v) ∈ it.entrySet m ↔ m.get? k = some v :=
  (it.perm m).mem_iff.trans mem_entries

end HashMap
