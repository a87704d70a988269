import Mathlib.Data.List.Lex
import Mathlib.Data.List.Induction
import Mathlib.Data.List.Perm.Basic
import Mathlib.Data.List.Nodup
import Mathlib.Order.Lattice
import Mathlib.Tactic.Common

/-!
# Maps as sorted lists

A map whose values are of a type that contains such maps is a list of entries in the order of their
keys. The lemmas say what setting an entry does to what is looked up, and that a sorted list is
determined by what is looked up in it.
-/

namespace SortedMap

variable {κ β : Type*} [LinearOrder κ]

/-- Set the value of a key, in place or where the key belongs. -/
def set (k : κ) (v : β) : List (κ × β) → List (κ × β)
  | [] => [(k, v)]
  | e :: m => if k < e.1 then (k, v) :: e :: m else if k = e.1 then (k, v) :: m else e :: set k v m

/-- The value of a key. -/
def get? (k : κ) : List (κ × β) → Option β
  | [] => none
  | e :: m => if k = e.1 then some e.2 else get? k m

/-- The keys stand in order, none twice. -/
def Sorted (m : List (κ × β)) : Prop :=
  m.Pairwise fun a b => a.1 < b.1

variable {k k' : κ} {v : β} {m m' : List (κ × β)}

@[simp]
theorem get?_nil : get? k ([] : List (κ × β)) = none := rfl

@[simp]
theorem get?_cons (e : κ × β) : get? k (e :: m) = if k = e.1 then some e.2 else get? k m := rfl

theorem get?_eq_none_iff : get? k m = none ↔ ∀ e ∈ m, e.1 ≠ k := by
  induction m with
  | nil => simp
  | cons e m ih =>
    rw [get?_cons, List.forall_mem_cons, ← ih]
    by_cases h : k = e.1
    · simp [h]
    · simp [h, Ne.symm h]

theorem mem_of_get? (h : get? k m = some v) : (k, v) ∈ m := by
  induction m with
  | nil => cases h
  | cons e m ih =>
    rw [get?_cons] at h
    split at h
    case isTrue heq =>
      cases h
      subst heq
      exact List.mem_cons_self
    case isFalse => exact List.mem_cons_of_mem _ (ih h)

theorem isSome_get? : (get? k m).isSome ↔ k ∈ m.map Prod.fst := by
  rw [Option.isSome_iff_ne_none, Ne, get?_eq_none_iff]
  simp

attribute [local simp] set in
theorem get?_set (k k' : κ) (v : β) (m : List (κ × β)) :
    get? k' (set k v m) = if k' = k then some v else get? k' m := by
  induction m with
  | nil => rfl
  | cons e m ih =>
    rw [set]
    by_cases hlt : k < e.1
    · rw [if_pos hlt, get?_cons]
    · rw [if_neg hlt]
      by_cases heq : k = e.1
      · rw [if_pos heq, get?_cons, get?_cons]
        by_cases hk : k' = k
        · rw [if_pos hk, if_pos hk]
        · rw [if_neg hk, if_neg hk, if_neg fun h => hk (h.trans heq.symm)]
      · rw [if_neg heq, get?_cons, get?_cons, ih]
        by_cases hk : k' = e.1
        · rw [if_pos hk, if_neg fun h => heq (h.symm.trans hk), if_pos hk]
        · rw [if_neg hk, if_neg hk]

/-- Change the value of a key, if it has one. -/
def modify (k : κ) (f : β → β) (m : List (κ × β)) : List (κ × β) :=
  m.map fun e => if e.1 = k then (e.1, f e.2) else e

theorem get?_modify (k k' : κ) (f : β → β) (m : List (κ × β)) :
    get? k' (modify k f m) = if k' = k then (get? k' m).map f else get? k' m := by
  induction m with
  | nil => rw [modify, List.map_nil, get?_nil, Option.map_none, ite_self]
  | cons e m ih =>
    rw [modify, List.map_cons, ← modify, get?_cons, get?_cons, ih, apply_ite Prod.fst, ite_self]
    by_cases hk : k' = e.1
    · rw [if_pos hk, if_pos hk, Option.map_some, hk]
      split <;> rfl
    · rw [if_neg hk, if_neg hk]

@[simp]
theorem keys_modify (k : κ) (f : β → β) (m : List (κ × β)) :
    (modify k f m).map Prod.fst = m.map Prod.fst := by
  rw [modify, List.map_map]
  refine List.map_congr_left fun e _ => ?_
  rw [Function.comp_apply, apply_ite Prod.fst, ite_self]

theorem mem_set {e : κ × β} (h : e ∈ set k v m) : e = (k, v) ∨ e ∈ m := by
  induction m with
  | nil => exact .inl (List.mem_singleton.1 h)
  | cons a m ih =>
    rw [set] at h
    split_ifs at h with hlt heq
    · exact List.mem_cons.1 h
    · exact (List.mem_cons.1 h).imp_right (List.mem_cons_of_mem _)
    · rcases List.mem_cons.1 h with rfl | h
      · exact .inr List.mem_cons_self
      · exact (ih h).imp_right (List.mem_cons_of_mem _)

theorem Sorted.of_keys (hm : Sorted m) (hkeys : m'.map Prod.fst = m.map Prod.fst) : Sorted m' :=
  List.pairwise_map.1 (hkeys ▸ List.pairwise_map.2 hm)

theorem Sorted.set (hm : Sorted m) (k : κ) (v : β) : Sorted (SortedMap.set k v m) := by
  induction m with
  | nil => exact List.pairwise_singleton _ _
  | cons e m ih =>
    obtain ⟨he, hrest⟩ := List.pairwise_cons.1 hm
    rw [SortedMap.set]
    split_ifs with hlt heq
    · refine List.pairwise_cons.2 ⟨fun a ha => ?_, hm⟩
      rcases List.mem_cons.1 ha with rfl | ha
      · exact hlt
      · exact hlt.trans (he a ha)
    · subst heq
      exact List.pairwise_cons.2 ⟨he, hrest⟩
    · refine List.pairwise_cons.2 ⟨fun a ha => ?_, ih hrest⟩
      rcases mem_set ha with rfl | ha
      · exact lt_of_le_of_ne (not_lt.1 hlt) (Ne.symm heq)
      · exact he a ha

theorem get?_eq_none_of_forall_lt (h : ∀ e ∈ m, k < e.1) : get? k m = none :=
  get?_eq_none_iff.2 fun e he => (h e he).ne'

/-- **Extensionality.** Sorted lists in which the same is looked up are equal. -/
theorem Sorted.ext (hm : Sorted m) (hm' : Sorted m') (h : ∀ k, get? k m = get? k m') : m = m' := by
  induction m generalizing m' with
  | nil =>
    cases m' with
    | nil => rfl
    | cons e' m' =>
      have := h e'.1
      rw [get?_nil, get?_cons, if_pos rfl] at this
      cases this
  | cons e m ih =>
    cases m' with
    | nil =>
      have := h e.1
      rw [get?_nil, get?_cons, if_pos rfl] at this
      cases this
    | cons e' m' =>
      obtain ⟨he, hrest⟩ := List.pairwise_cons.1 hm
      obtain ⟨he', hrest'⟩ := List.pairwise_cons.1 hm'
      have hkey : e.1 = e'.1 := by
        rcases lt_trichotomy e.1 e'.1 with hlt | heq | hlt
        · have := h e.1
          rw [get?_cons, if_pos rfl, get?_cons, if_neg hlt.ne,
            get?_eq_none_of_forall_lt fun a ha => hlt.trans (he' a ha)] at this
          cases this
        · exact heq
        · have := h e'.1
          rw [get?_cons, get?_cons, if_pos rfl, if_neg hlt.ne,
            get?_eq_none_of_forall_lt fun a ha => hlt.trans (he a ha)] at this
          cases this
      have hvalue : e.2 = e'.2 := by
        have := h e.1
        rw [get?_cons, if_pos rfl, get?_cons, if_pos hkey] at this
        exact Option.some.inj this
      obtain rfl : e = e' := Prod.ext hkey hvalue
      refine congrArg (e :: ·) (ih hrest hrest' fun k => ?_)
      by_cases hk : k = e.1
      · rw [hk, get?_eq_none_of_forall_lt he, get?_eq_none_of_forall_lt he']
      · have := h k
        rwa [get?_cons, get?_cons, if_neg hk, if_neg hk] at this

/-- The map that entries make when they are set one after the other. -/
def ofEntries (entries : List (κ × β)) : List (κ × β) :=
  entries.foldl (fun m e => set e.1 e.2 m) []

@[simp]
theorem ofEntries_nil : ofEntries ([] : List (κ × β)) = [] := rfl

@[simp]
theorem ofEntries_concat (entries : List (κ × β)) (e : κ × β) :
    ofEntries (entries ++ [e]) = set e.1 e.2 (ofEntries entries) := by
  rw [ofEntries, List.foldl_append, List.foldl_cons, List.foldl_nil, ofEntries]

theorem sorted_ofEntries (entries : List (κ × β)) : Sorted (ofEntries entries) := by
  induction entries using List.reverseRecOn with
  | nil => exact List.Pairwise.nil
  | append_singleton entries e ih =>
    rw [ofEntries_concat]
    exact ih.set _ _

variable {entries : List (κ × β)}

theorem mem_of_mem_ofEntries {e : κ × β} (h : e ∈ ofEntries entries) : e ∈ entries := by
  induction entries using List.reverseRecOn with
  | nil => exact absurd h List.not_mem_nil
  | append_singleton entries a ih =>
    rw [ofEntries_concat] at h
    rcases mem_set h with rfl | h
    · exact List.mem_append_right _ (List.mem_singleton_self _)
    · exact List.mem_append_left _ (ih h)

theorem mem_keys_ofEntries : k ∈ (ofEntries entries).map Prod.fst ↔ k ∈ entries.map Prod.fst := by
  induction entries using List.reverseRecOn with
  | nil => rfl
  | append_singleton entries e ih =>
    rw [ofEntries_concat, ← isSome_get?, get?_set, List.map_append, List.mem_append, ← ih,
      ← isSome_get?]
    by_cases h : k = e.1 <;> simp [h]

/-- When each key is set to the value it has in a sorted list, and none is left out, the list comes
out. -/
theorem ofEntries_eq (hm : Sorted m) (hvalues : ∀ e ∈ entries, get? e.1 m = some e.2)
    (hkeys : ∀ k ∈ m.map Prod.fst, k ∈ entries.map Prod.fst) : ofEntries entries = m := by
  refine (sorted_ofEntries entries).ext hm fun k => ?_
  by_cases hk : k ∈ entries.map Prod.fst
  · obtain ⟨v, hv⟩ := Option.isSome_iff_exists.1 (isSome_get?.2 (mem_keys_ofEntries.2 hk))
    rw [hv, hvalues _ (mem_of_mem_ofEntries (mem_of_get? hv))]
  · have hnone : get? k (ofEntries entries) = none := by
      rw [← Option.not_isSome_iff_eq_none, isSome_get?, mem_keys_ofEntries]
      exact hk
    have hnone' : get? k m = none := by
      rw [← Option.not_isSome_iff_eq_none, isSome_get?]
      exact fun h => hk (hkeys k h)
    rw [hnone, hnone']

theorem Sorted.get?_of_mem (hm : Sorted m) {e : κ × β} (he : e ∈ m) : get? e.1 m = some e.2 := by
  induction m with
  | nil => exact absurd he List.not_mem_nil
  | cons a m ih =>
    obtain ⟨ha, hrest⟩ := List.pairwise_cons.1 hm
    rcases List.mem_cons.1 he with rfl | he
    · rw [get?_cons, if_pos rfl]
    · rw [get?_cons, if_neg (ha e he).ne', ih hrest he]

theorem Sorted.nodup_keys (hm : Sorted m) : (m.map Prod.fst).Nodup :=
  List.pairwise_map.2 (hm.imp fun h => h.ne)

theorem get?_map {γ : Type*} (f : β → γ) (k : κ) (m : List (κ × β)) :
    get? k (m.map fun e => (e.1, f e.2)) = (get? k m).map f := by
  induction m with
  | nil => rfl
  | cons e m ih =>
    rw [List.map_cons, get?_cons, get?_cons, ih]
    split <;> rfl

theorem get?_mapWithKey {γ : Type*} (f : κ → β → γ) (k : κ) (m : List (κ × β)) :
    get? k (m.map fun e => (e.1, f e.1 e.2)) = (get? k m).map (f k) := by
  induction m with
  | nil => rfl
  | cons e m ih =>
    rw [List.map_cons, get?_cons, get?_cons, ih]
    split
    case isTrue hk => rw [hk, Option.map_some]
    case isFalse => rfl

omit [LinearOrder κ] in
theorem keys_mapWithKey {γ : Type*} (f : κ → β → γ) (m : List (κ × β)) :
    (m.map fun e => (e.1, f e.1 e.2)).map Prod.fst = m.map Prod.fst := by
  rw [List.map_map]
  rfl

theorem exists_entries {keys : List κ} (h : ∀ k ∈ keys, (get? k m).isSome) :
    ∃ entries : List (κ × β), entries.map Prod.fst = keys ∧
      ∀ e ∈ entries, get? e.1 m = some e.2 := by
  induction keys with
  | nil => exact ⟨[], rfl, fun e he => absurd he List.not_mem_nil⟩
  | cons k keys ih =>
    obtain ⟨v, hv⟩ := Option.isSome_iff_exists.1 (h k List.mem_cons_self)
    obtain ⟨entries, hkeys, hvalues⟩ := ih fun k' hk' => h k' (List.mem_cons_of_mem _ hk')
    exact ⟨(k, v) :: entries, by rw [List.map_cons, hkeys], List.forall_mem_cons.2 ⟨hv, hvalues⟩⟩

/-- Entries of all keys, each once, are those of the map in another order. -/
theorem Sorted.perm (hm : Sorted m)
    (hvalues : ∀ e ∈ entries, get? e.1 m = some e.2) (hnodup : (entries.map Prod.fst).Nodup)
    (hkeys : ∀ k ∈ m.map Prod.fst, k ∈ entries.map Prod.fst) : entries.Perm m := by
  refine (List.perm_ext_iff_of_nodup (.of_map _ hnodup) (.of_map _ hm.nodup_keys)).2 fun e => ?_
  constructor
  · intro he
    exact mem_of_get? (hvalues e he)
  · intro he
    obtain ⟨e', he', heq⟩ := List.mem_map.1 (hkeys e.1 (List.mem_map_of_mem he))
    have hvalue := hvalues e' he'
    rw [heq, hm.get?_of_mem he] at hvalue
    rwa [show e = e' from Prod.ext heq.symm (Option.some.inj hvalue)]

/-! ## Windows -/

/-- Put an entry behind those whose key is not above, where a key may have several. -/
def insert (k : κ) (v : β) : List (κ × β) → List (κ × β)
  | [] => [(k, v)]
  | e :: m => if k < e.1 then (k, v) :: e :: m else e :: insert k v m

/-- The keys stand in order. -/
def Ordered (m : List (κ × β)) : Prop :=
  m.Pairwise fun a b => a.1 ≤ b.1

theorem Sorted.ordered (h : Sorted m) : Ordered m :=
  h.imp fun hlt => hlt.le

theorem insert_perm (k : κ) (v : β) (m : List (κ × β)) : (insert k v m).Perm ((k, v) :: m) := by
  induction m with
  | nil => exact .refl _
  | cons e m ih =>
    rw [insert]
    split
    · exact .refl _
    · exact (ih.cons e).trans (.swap (k, v) e m)

theorem Ordered.insert (h : Ordered m) (k : κ) (v : β) : Ordered (SortedMap.insert k v m) := by
  induction m with
  | nil => exact List.pairwise_singleton _ _
  | cons e m ih =>
    have hcons := List.pairwise_cons.1 h
    rw [SortedMap.insert]
    split
    case isTrue hlt =>
      refine List.pairwise_cons.2 ⟨fun a ha => ?_, h⟩
      rcases List.mem_cons.1 ha with rfl | ha
      · exact hlt.le
      · exact hlt.le.trans (hcons.1 a ha)
    case isFalse hge =>
      refine List.pairwise_cons.2 ⟨fun a ha => ?_, ih hcons.2⟩
      rcases List.mem_cons.1 ((insert_perm k v m).mem_iff.1 ha) with rfl | ha
      · exact le_of_not_gt hge
      · exact hcons.1 a ha

/-- Dropping entries from the front up to a key leaves those from the key on. -/
theorem Ordered.dropWhile_eq_filter (h : Ordered m) (limit : κ) :
    m.dropWhile (fun e => decide (e.1 < limit)) = m.filter fun e => decide (limit ≤ e.1) := by
  induction m with
  | nil => rfl
  | cons e m ih =>
    have hcons := List.pairwise_cons.1 h
    rcases lt_or_ge e.1 limit with hlt | hge
    · rw [List.dropWhile_cons_of_pos (by simpa using hlt),
        List.filter_cons_of_neg (by simpa using hlt), ih hcons.2]
    · have hall : ∀ a ∈ e :: m, decide (limit ≤ a.1) = true := by
        intro a ha
        rcases List.mem_cons.1 ha with rfl | ha
        · simpa using hge
        · simpa using hge.trans (hcons.1 a ha)
      rw [List.dropWhile_cons_of_neg (by simpa using hge), List.filter_eq_self.2 hall]

theorem get?_filter (p : κ → Bool) (k : κ) (m : List (κ × β)) :
    get? k (m.filter fun e => p e.1) = if p k then get? k m else none := by
  induction m with
  | nil => simp
  | cons e m ih =>
    rw [List.filter_cons]
    by_cases hk : k = e.1
    · subst hk
      by_cases hp : p e.1 <;> simp [hp, ih]
    · by_cases hp : p e.1 <;> simp [hp, ih, hk]

theorem Sorted.filter (h : Sorted m) (p : κ × β → Bool) : Sorted (m.filter p) :=
  List.Pairwise.filter p h

theorem Ordered.filter (h : Ordered m) (p : κ × β → Bool) : Ordered (m.filter p) :=
  List.Pairwise.filter p h

/-! ## Keys with several values -/

/-- A value of a key, behind those it has. -/
def push (k : κ) (v : β) (m : List (κ × List β)) : List (κ × List β) :=
  set k ((get? k m).getD [] ++ [v]) m

/-- The values that entries give to a key. -/
def valuesOf (k : κ) (entries : List (κ × β)) : List β :=
  (entries.filter fun e => k = e.1).map Prod.snd

theorem valuesOf_cons_self (k : κ) (v : β) (entries : List (κ × β)) :
    valuesOf k ((k, v) :: entries) = v :: valuesOf k entries := by
  rw [valuesOf, List.filter_cons_of_pos (by simp), List.map_cons, valuesOf]

theorem get?_push (k k' : κ) (v : β) (m : List (κ × List β)) :
    get? k' (push k v m) = if k' = k then some ((get? k m).getD [] ++ [v]) else get? k' m :=
  get?_set k k' _ m

/-- When entries are pushed one after the other, a key has the values that they give to it. -/
theorem get?_foldl_push (k : κ) (entries : List (κ × β)) :
    get? k (entries.foldl (fun m e => push e.1 e.2 m) []) =
      if valuesOf k entries = [] then none else some (valuesOf k entries) := by
  induction entries using List.reverseRecOn with
  | nil => rfl
  | append_singleton entries e ih =>
    rw [List.foldl_append, List.foldl_cons, List.foldl_nil, get?_push]
    have hvalues : valuesOf k (entries ++ [e]) =
        valuesOf k entries ++ if k = e.1 then [e.2] else [] := by
      rw [valuesOf, List.filter_append, List.map_append, List.filter_singleton, valuesOf]
      split <;> simp_all
    rw [hvalues]
    split
    case isTrue heq =>
      rw [← heq, ih, if_neg (List.append_ne_nil_of_right_ne_nil _ (List.cons_ne_nil _ _))]
      split
      case isTrue hnil => rw [hnil, Option.getD_none]
      case isFalse => rw [Option.getD_some]
    case isFalse => rw [List.append_nil, ih]

end SortedMap
