import McuMediaServer.Base.Bytes
import Mathlib.Data.List.Flatten
import Mathlib.Data.List.Forall2

/-!
# Serializers into a bounded buffer

A serializer is handed a buffer and returns how many bytes it says it wrote and the buffer after it.
It has no value when it writes past the end of the buffer, and a serializer that refuses returns 0
and leaves the buffer as it is. Serializers compose as the usual loops over `data + len` and
`size - len` do. `Encodes` says that a serializer writes given bytes at the start of every buffer
that can hold them and nothing else.
-/

/-- The returned length and the buffer afterwards, for a buffer. -/
abbrev ByteWriter := List UInt8 → Option (Nat × List UInt8)

namespace ByteWriter

/-- Overwrite the bytes from offset `off` on. -/
def putAt (off : Nat) (bytes buf : List UInt8) : Option (List UInt8) :=
  if off + bytes.length ≤ buf.length then
    some (buf.take off ++ bytes ++ buf.drop (off + bytes.length))
  else
    none

/-- Write bytes at the start, whatever the size of the buffer. -/
def put (bytes : List UInt8) : ByteWriter := fun buf => do
  return (bytes.length, ← putAt 0 bytes buf)

/-- Write nothing. -/
def skip : ByteWriter := fun buf => some (0, buf)

/-- Refuse a buffer of less than `n` bytes. -/
def check (n : Nat) (w : ByteWriter) : ByteWriter := fun buf =>
  if buf.length < n then some (0, buf) else w buf

/-- Run one serializer and the next one on what the first left of the buffer. -/
def andThen (w v : ByteWriter) : ByteWriter := fun buf => do
  let (n, buf) ← w buf
  let (m, rest) ← v (buf.drop n)
  return (n + m, buf.take n ++ rest)

/-- Run serializers one after the other. -/
def seq (ws : List ByteWriter) : ByteWriter := ws.foldr andThen skip

/-- The serializer writes exactly these bytes. -/
def Encodes (w : ByteWriter) (bytes : List UInt8) : Prop :=
  ∀ buf, bytes.length ≤ buf.length →
    w buf = some (bytes.length, bytes ++ buf.drop bytes.length)

section PutAt

variable {off : Nat} {bytes buf buf' : List UInt8}

theorem putAt_eq_some (h : off + bytes.length ≤ buf.length) :
    putAt off bytes buf = some (buf.take off ++ bytes ++ buf.drop (off + bytes.length)) :=
  if_pos h

theorem putAt_over {old : List UInt8} (pre post : List UInt8) (hold : old.length = bytes.length) :
    putAt pre.length bytes (pre ++ old ++ post) = some (pre ++ bytes ++ post) := by
  have hlen : pre.length + bytes.length = (pre ++ old).length := by
    rw [List.length_append, hold]
  have hroom : (pre ++ old).length ≤ (pre ++ old ++ post).length := by
    simp only [List.length_append]
    exact Nat.le_add_right _ _
  rw [putAt_eq_some (hlen ▸ hroom), hlen, List.drop_left, List.append_assoc pre old,
    List.take_left]

theorem length_of_putAt (h : putAt off bytes buf = some buf') : buf'.length = buf.length := by
  unfold putAt at h
  split at h
  · cases h
    simp only [List.length_append, List.length_take, List.length_drop]
    omega
  · cases h

theorem drop_of_putAt (h : putAt off bytes buf = some buf') {k : Nat}
    (hk : off + bytes.length ≤ k) : buf'.drop k = buf.drop k := by
  unfold putAt at h
  split at h
  case isTrue hlen =>
    cases h
    have hpre : (buf.take off ++ bytes).length = off + bytes.length := by
      rw [List.length_append, List.length_take]
      omega
    rw [List.drop_append, List.drop_eq_nil_of_le (by omega), hpre, List.drop_drop, List.nil_append,
      Nat.add_sub_cancel' hk]
  case isFalse => cases h

/-- Up to the end of the bytes written the buffer is what it was and then these bytes. -/
theorem take_of_putAt (h : putAt off bytes buf = some buf') :
    buf'.take (off + bytes.length) = buf.take off ++ bytes := by
  unfold putAt at h
  split at h
  case isTrue hlen =>
    cases h
    refine List.take_left' ?_
    rw [List.length_append, List.length_take]
    omega
  case isFalse => cases h

theorem take_of_putAt_of_le (h : putAt off bytes buf = some buf') {k : Nat} (hk : k ≤ off) :
    buf'.take k = buf.take k := by
  unfold putAt at h
  split at h
  case isTrue hlen =>
    cases h
    have hpre : k ≤ (buf.take off).length := by
      rw [List.length_take]
      omega
    rw [List.append_assoc, List.take_append_of_le_length hpre, List.take_take, Nat.min_eq_left hk]
  case isFalse => cases h

end PutAt

section Encodes

variable {w v : ByteWriter} {xs ys : List UInt8} {n : Nat}

theorem encodes_put (bytes : List UInt8) : Encodes (put bytes) bytes := by
  intro buf hlen
  rw [put, putAt_eq_some (by omega)]
  simp

theorem encodes_skip : Encodes skip [] := by
  intro buf _
  simp [skip]

theorem check_of_le {buf : List UInt8} (h : n ≤ buf.length) : check n w buf = w buf :=
  if_neg (Nat.not_lt.2 h)

theorem Encodes.check (h : Encodes w xs) (hn : n ≤ xs.length) : Encodes (check n w) xs := by
  intro buf hlen
  rw [check_of_le (hn.trans hlen), h buf hlen]

theorem Encodes.andThen (hw : Encodes w xs) (hv : Encodes v ys) :
    Encodes (andThen w v) (xs ++ ys) := by
  intro buf hlen
  rw [List.length_append] at hlen
  have hrest : ys.length ≤ (buf.drop xs.length).length := by
    rw [List.length_drop]
    omega
  simp [ByteWriter.andThen, hw buf (by omega), hv _ hrest, List.drop_drop]

theorem Encodes.andThen_eq_none {buf : List UInt8} (hw : Encodes w xs)
    (hlen : xs.length ≤ buf.length) (hv : v (buf.drop xs.length) = none) :
    ByteWriter.andThen w v buf = none := by
  simp [ByteWriter.andThen, hw buf hlen, hv]

theorem andThen_eq_none {buf : List UInt8} (hw : w buf = none) :
    ByteWriter.andThen w v buf = none := by
  simp [ByteWriter.andThen, hw]

theorem Encodes.seq {ws : List ByteWriter} {bss : List (List UInt8)}
    (h : List.Forall₂ Encodes ws bss) : Encodes (seq ws) bss.flatten := by
  induction h with
  | nil => exact encodes_skip
  | cons hw _ ih => exact hw.andThen ih

theorem Encodes.seq_map {α : Type} {f : α → ByteWriter} {g : α → List UInt8} {l : List α}
    (h : ∀ x ∈ l, Encodes (f x) (g x)) : Encodes (ByteWriter.seq (l.map f)) (l.flatMap g) := by
  rw [List.flatMap_def]
  refine Encodes.seq ?_
  rw [List.forall₂_map_left_iff, List.forall₂_map_right_iff, List.forall₂_same]
  exact h

theorem Encodes.unique_of_check (hc : Encodes (ByteWriter.check n w) xs) (h : Encodes w ys) :
    xs = ys := by
  have hbuf := List.length_replicate (n := n + xs.length + ys.length) (a := (0 : UInt8))
  have h1 := hc (List.replicate (n + xs.length + ys.length) 0) (by omega)
  rw [check_of_le (by omega), h _ (by omega)] at h1
  obtain ⟨hlen, heq⟩ := Prod.mk.inj (Option.some.inj h1)
  exact (List.append_inj heq hlen).1.symm

end Encodes

end ByteWriter
