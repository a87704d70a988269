import Mathlib.Data.List.Basic
import Mathlib.Tactic.Common

/-!
# Rings of cells

A circular buffer of `size` cells holds a list: its `len` elements are in the cells from `ini` on,
and behind the last cell comes the first. The start may stand behind the last cell, which is the
same as standing on the first (`contents_mod`). What is taken from the front of the list is read
from `ini` on, and what is written behind it is appended, if there is room (`contents_write`,
`contents_writes`).
-/

namespace Ring

variable {α : Type*}

/-- The `n` cells from `start` on, in one piece. -/
def piece (data : Nat → α) (start n : Nat) : List α :=
  (List.range n).map fun i => data (start + i)

/-- The list that the ring holds. -/
def contents (data : Nat → α) (size ini len : Nat) : List α :=
  (List.range len).map fun i => data ((ini + i) % size)

variable {data data' : Nat → α} {size ini len : Nat}

@[simp]
theorem length_piece (data : Nat → α) (start n : Nat) : (piece data start n).length = n := by
  rw [piece, List.length_map, List.length_range]

@[simp]
theorem length_contents (data : Nat → α) (size ini len : Nat) :
    (contents data size ini len).length = len := by
  rw [contents, List.length_map, List.length_range]

theorem contents_add (data : Nat → α) (size ini m n : Nat) :
    contents data size ini (m + n) = contents data size ini m ++ contents data size (ini + m) n := by
  rw [contents, List.range_add, List.map_append, List.map_map]
  refine congrArg _ (List.map_congr_left fun i _ => ?_)
  rw [Function.comp_apply, Nat.add_assoc]

theorem contents_mod (data : Nat → α) (size ini len : Nat) :
    contents data size (ini % size) len = contents data size ini len :=
  List.map_congr_left fun i _ => by rw [Nat.mod_add_mod]

theorem contents_self (data : Nat → α) (size len : Nat) :
    contents data size size len = contents data size 0 len := by
  rw [← contents_mod data size size, Nat.mod_self]

theorem take_contents {n : Nat} (h : n ≤ len) :
    (contents data size ini len).take n = contents data size ini n := by
  obtain ⟨m, rfl⟩ := Nat.exists_eq_add_of_le h
  rw [contents_add, List.take_left' (length_contents ..)]

theorem drop_contents {n : Nat} (h : n ≤ len) :
    (contents data size ini len).drop n = contents data size (ini + n) (len - n) := by
  obtain ⟨m, rfl⟩ := Nat.exists_eq_add_of_le h
  rw [contents_add, List.drop_left' (length_contents ..), Nat.add_sub_cancel_left]

theorem contents_eq_piece (h : ini + len ≤ size) : contents data size ini len = piece data ini len :=
  List.map_congr_left fun i hi => by
    rw [Nat.mod_eq_of_lt (by have := List.mem_range.1 hi; omega)]

theorem contents_eq_pieces {first : Nat} (hfirst : ini + first = size) (hle : first ≤ len)
    (hlen : len ≤ size) :
    contents data size ini len = piece data ini first ++ piece data 0 (len - first) := by
  obtain ⟨rest, rfl⟩ := Nat.exists_eq_add_of_le hle
  rw [contents_add, contents_eq_piece (Nat.le_of_eq hfirst), hfirst, contents_self,
    contents_eq_piece (by omega), Nat.add_sub_cancel_left]

theorem add_mod_ne {i j : Nat} (hij : i < j) (hj : j < i + size) :
    (ini + i) % size ≠ (ini + j) % size := by
  intro heq
  have hzero := Nat.sub_mod_eq_zero_of_mod_eq heq.symm
  rw [Nat.add_sub_add_left, Nat.mod_eq_of_lt (by omega)] at hzero
  omega

/-- **Appending.** What is written into the cells behind the elements is appended to the list, as
long as it does not come round to them. -/
theorem contents_append {xs : List α} (hfit : len + xs.length ≤ size)
    (hin : ∀ j (h : j < xs.length), data' ((ini + len + j) % size) = xs[j])
    (hout : ∀ a, (∀ j < xs.length, a ≠ (ini + len + j) % size) → data' a = data a) :
    contents data' size ini (len + xs.length) = contents data size ini len ++ xs := by
  rw [contents_add]
  congr 1
  · refine List.map_congr_left fun i hi => hout _ fun j hj => ?_
    rw [Nat.add_assoc ini]
    exact add_mod_ne (by have := List.mem_range.1 hi; omega)
      (by have := List.mem_range.1 hi; omega)
  · refine List.ext_getElem (length_contents ..) fun j hj _ => ?_
    rw [length_contents] at hj
    rw [← hin j hj]
    simp only [contents, List.getElem_map, List.getElem_range]

/-- The cells from `dst` on get the elements of `xs`. -/
def write (data : Nat → α) (dst : Nat) (xs : List α) (a : Nat) : α :=
  (if dst ≤ a then xs[a - dst]? else none).getD (data a)

theorem write_of_lt {xs : List α} {dst j : Nat} (h : j < xs.length) :
    write data dst xs (dst + j) = xs[j] := by
  rw [write, if_pos (Nat.le_add_right _ _), Nat.add_sub_cancel_left, List.getElem?_eq_getElem h,
    Option.getD_some]

theorem write_of_not {xs : List α} {dst a : Nat} (h : ¬(dst ≤ a ∧ a < dst + xs.length)) :
    write data dst xs a = data a := by
  unfold write
  split
  case isTrue hle =>
    rw [List.getElem?_eq_none (by omega), Option.getD_none]
  case isFalse => rfl

theorem getElem_piece {inp : Nat → α} {start n j : Nat} (h : j < (piece inp start n).length) :
    (piece inp start n)[j] = inp (start + j) := by
  simp only [piece, List.getElem_map, List.getElem_range]

section Appending

variable {inp : Nat → α} {n e : Nat} (he : (ini + len) % size = e) (hfits : len + n ≤ size)

include he hfits

/-- What is written from the end on, without going behind the last cell, is appended. -/
theorem contents_write (hfree : e + n ≤ size) :
    contents (write data e (piece inp 0 n)) size ini (len + n) =
      contents data size ini len ++ piece inp 0 n := by
  have hcell {j : Nat} (hj : j < n) : (ini + len + j) % size = e + j := by
    rw [← Nat.mod_add_mod, he, Nat.mod_eq_of_lt (by omega)]
  have happend := @contents_append α data (write data e (piece inp 0 n)) size ini len
    (piece inp 0 n)
  simp only [length_piece] at happend
  refine happend hfits (fun j hj => ?_) (fun a ha => write_of_not ?_)
  · rw [hcell hj, write_of_lt]
  · rw [length_piece]
    rintro ⟨hle, hlt⟩
    refine ha (a - e) (by omega) ?_
    rw [hcell (by omega), Nat.add_sub_cancel' hle]

/-- What is written from the end on and goes on in the first cell is appended too. -/
theorem contents_writes {first : Nat} (hfirst : e + first = size) (hlt : first < n) :
    contents (write (write data e (piece inp 0 first)) 0 (piece inp first (n - first))) size ini
        (len + n) =
      contents data size ini len ++ piece inp 0 n := by
  have hlow {j : Nat} (hj : j < first) : (ini + len + j) % size = e + j := by
    rw [← Nat.mod_add_mod, he, Nat.mod_eq_of_lt (by omega)]
  have hhigh {j : Nat} (hj : first ≤ j) (hjn : j < n) :
      (ini + len + j) % size = 0 + (j - first) := by
    rw [← Nat.mod_add_mod, he, Nat.mod_eq_sub_mod (by omega), Nat.mod_eq_of_lt (by omega)]
    omega
  have happend := @contents_append α data
    (write (write data e (piece inp 0 first)) 0 (piece inp first (n - first))) size ini len
    (piece inp 0 n)
  simp only [length_piece] at happend
  refine happend hfits (fun j hj => ?_) (fun a ha => ?_)
  · rw [getElem_piece, Nat.zero_add]
    rcases Nat.lt_or_ge j first with hj' | hj'
    · rw [hlow hj', write_of_not (by rw [length_piece]; omega),
        write_of_lt (by rwa [length_piece]), getElem_piece, Nat.zero_add]
    · rw [hhigh hj' hj, write_of_lt (by rw [length_piece]; omega), getElem_piece,
        Nat.add_sub_cancel' hj']
  · rw [write_of_not, write_of_not]
    · rw [length_piece]
      rintro ⟨hle, hlt'⟩
      refine ha (a - e) (by omega) ?_
      rw [hlow (by omega), Nat.add_sub_cancel' hle]
    · rw [length_piece]
      rintro ⟨-, hlt'⟩
      refine ha (first + a) (by omega) ?_
      rw [hhigh (by omega) (by omega)]
      omega

end Appending

end Ring
