import McuMediaServer.Amf.Data
import Mathlib.Data.List.Induction

/-!
# Wide strings, written and read again

`UTF8Parser` counts the bytes of a string in a `DWORD` and writes them to a buffer. The bytes may be
cut in any way into the pieces that `Parse` takes one after the other: a character that is cut is
carried over. `roundTrips_iff_utf8Size` says that the string comes back exactly if its bytes can be
counted.
-/

namespace McuMediaServer

namespace Amf

namespace UTF8Parser

/-- There is no value when the loop never ends: its index is a `DWORD`. The fields that reading uses
are left as they are. Reference: `amf.cpp:314`. -/
def setWString (p : UTF8Parser) (str : WString) : Option UTF8Parser :=
  if str.length < 2 ^ 32 then
    some { p with value := str, utf8size := utf8Size str % 2 ^ 32 }
  else
    none

/-- The pieces are taken one after the other; returns how many bytes have been. -/
def parseAll (p : UTF8Parser) (chunks : List (List UInt8)) : UTF8Parser × Nat :=
  chunks.foldl (fun s chunk => ((s.1.parse chunk).1, s.2 + (s.1.parse chunk).2)) (p, 0)

/-- A string is written to every buffer with room for it, in as many bytes as it is counted with,
and read again from them in all pieces. -/
def RoundTrips (s : WString) : Prop :=
  ∃ p, setWString {} s = some p ∧ ∀ buffer : List UInt8, p.utf8size ≤ buffer.length →
    buffer.length < 2 ^ 32 → ∃ bytes, bytes.length = p.utf8size ∧
      UTF8Parser.serialize p.value 0 buffer.length buffer =
        some (p.utf8size, bytes ++ buffer.drop p.utf8size) ∧
      ∀ chunks, chunks.flatten = bytes →
        ∃ q, parseAll (setSize {} bytes.length) chunks = (q, bytes.length) ∧ q.isParsed ∧ q.value = s

/-! ## Writing -/

theorem length_le_utf8Size (s : WString) : s.length ≤ utf8Size s := by
  induction s with
  | nil => exact le_rfl
  | cons w s ih =>
    have := charSize_pos w
    rw [List.length_cons, utf8Size_cons]
    omega

/-! ## Reading in pieces -/

theorem utf8size_parseByte (p : UTF8Parser) (c : UInt8) :
    (p.parseByte c).utf8size = p.utf8size ∧ (p.parseByte c).len = p.len := by
  unfold parseByte
  dsimp only
  split_ifs <;> exact ⟨rfl, rfl⟩

theorem utf8size_foldl (p : UTF8Parser) (data : List UInt8) :
    (data.foldl parseByte p).utf8size = p.utf8size ∧ (data.foldl parseByte p).len = p.len := by
  induction data generalizing p with
  | nil => exact ⟨rfl, rfl⟩
  | cons c data ih =>
    obtain ⟨hsize, hlen⟩ := utf8size_parseByte p c
    rw [List.foldl_cons, (ih _).1, (ih _).2, hsize, hlen]
    exact ⟨rfl, rfl⟩

theorem foldl_len (p : UTF8Parser) (n : Nat) (data : List UInt8) :
    data.foldl parseByte { p with len := n } = { data.foldl parseByte p with len := n } := by
  induction data generalizing p with
  | nil => rfl
  | cons c data ih =>
    have hstep : ({ p with len := n } : UTF8Parser).parseByte c = { p.parseByte c with len := n } := by
      unfold parseByte
      dsimp only [push]
      split_ifs <;> rfl
    rw [List.foldl_cons, List.foldl_cons, hstep, ih]

theorem parse_eq (p : UTF8Parser) (data : List UInt8) {copy : Nat}
    (hcopy : min (p.utf8size - p.len) data.length = copy) :
    p.parse data = ({ (data.take copy).foldl parseByte p with len := p.len + copy }, copy) := by
  rw [parse]
  dsimp only
  rw [hcopy, (utf8size_foldl p (data.take copy)).2]

/-- **Cuts.** Two pieces are read as they are together. -/
theorem parse_append (p : UTF8Parser) (xs ys : List UInt8) :
    p.parse (xs ++ ys) =
      (((p.parse xs).1.parse ys).1, (p.parse xs).2 + ((p.parse xs).1.parse ys).2) := by
  generalize hx : min (p.utf8size - p.len) xs.length = cx
  generalize hy : min (p.utf8size - (p.len + cx)) ys.length = cy
  have hcopy : min (p.utf8size - p.len) (xs ++ ys).length = cx + cy := by
    rw [List.length_append]
    omega
  have hxs : xs.take (cx + cy) = xs.take cx := List.take_eq_take_iff.2 (by omega)
  have hys : ys.take (cx + cy - xs.length) = ys.take cy := List.take_eq_take_iff.2 (by omega)
  have hsize := (utf8size_foldl p (xs.take cx)).1
  have hcopyy : min (((xs.take cx).foldl parseByte p).utf8size - (p.len + cx)) ys.length = cy := by
    rw [hsize]
    exact hy
  rw [parse_eq p _ hcopy, parse_eq p xs hx]
  dsimp only
  rw [parse_eq _ ys hcopyy, List.take_append, hxs, hys,
    List.foldl_append]
  have hfold := foldl_len ((xs.take cx).foldl parseByte p) (p.len + cx) (ys.take cy)
  rw [hfold]
  dsimp only
  rw [Nat.add_assoc]

theorem parseAll_eq (p : UTF8Parser) (chunks : List (List UInt8)) :
    parseAll p chunks = p.parse chunks.flatten := by
  induction chunks using List.reverseRecOn with
  | nil =>
    have hcopy : min (p.utf8size - p.len) ([] : List (List UInt8)).flatten.length = 0 := by
      rw [List.flatten_nil, List.length_nil, Nat.min_zero]
    rw [parse_eq p _ hcopy]
    rfl
  | append_singleton chunks chunk ih =>
    rw [parseAll] at ih ⊢
    rw [List.foldl_append, List.foldl_cons, List.foldl_nil, ih, List.flatten_append,
      List.flatten_singleton, parse_append]

theorem consumed (size : Nat) (chunks : List (List UInt8)) :
    (parseAll (setSize {} size) chunks).2 = min size chunks.flatten.length := by
  rw [parseAll_eq, parse_eq _ _ rfl]
  rfl

/-! ## Round trips -/

theorem roundTrips_of_lt {s : WString} (hs : ∀ w ∈ s, w ≤ lastCodePoint)
    (hlt : utf8Size s < 2 ^ 32) : RoundTrips s := by
  have hlength := length_encode hs
  have hmod := Nat.mod_eq_of_lt hlt
  refine ⟨{ value := s, utf8size := utf8Size s }, ?_, fun buffer hfits hbuffer => ?_⟩
  · rw [setWString, if_pos (Nat.lt_of_le_of_lt (length_le_utf8Size s) hlt), hmod]
  · refine ⟨encode s, hlength, ?_, fun chunks hchunks => ?_⟩
    · dsimp only at hfits ⊢
      have hroom : 0 + (encode s).length ≤ buffer.length := by omega
      rw [UTF8Parser.serialize, hmod, if_neg (not_lt.2 hfits), ByteWriter.putAt_eq_some hroom,
        List.take_zero, List.nil_append, Nat.zero_add, hlength, hmod]
      rfl
    · obtain ⟨q, hq, hparsed, hvalue⟩ := parse_encode hs []
      rw [List.append_nil] at hq
      rw [parseAll_eq, hchunks, hlength]
      exact ⟨q, hq, hparsed, hvalue⟩

theorem lt_of_roundTrips {s : WString} (hs : ∀ w ∈ s, w ≤ lastCodePoint) (h : RoundTrips s) :
    utf8Size s < 2 ^ 32 := by
  obtain ⟨p, hp, hbuffers⟩ := h
  rw [setWString] at hp
  split at hp
  case isFalse => cases hp
  case isTrue =>
    obtain rfl := Option.some.inj hp
    dsimp only at hbuffers
    have hmod : utf8Size s % 2 ^ 32 < 2 ^ 32 := Nat.mod_lt _ (Nat.two_pow_pos 32)
    obtain ⟨bytes, -, hserialize, -⟩ := hbuffers (List.replicate (utf8Size s % 2 ^ 32) 0)
      (by rw [List.length_replicate]) (by rw [List.length_replicate]; exact hmod)
    refine by_contra fun hge => ?_
    have hroom : ¬0 + (encode s).length ≤
        (List.replicate (utf8Size s % 2 ^ 32) (0 : UInt8)).length := by
      rw [List.length_replicate, length_encode hs]
      omega
    rw [UTF8Parser.serialize, List.length_replicate, if_neg (lt_irrefl _), ByteWriter.putAt,
      if_neg hroom] at hserialize
    cases hserialize

/-- **Wide strings.** A string of code points is written in as many bytes as it is counted with and
read again from all pieces of them exactly if the bytes can be counted in a `DWORD`; and whatever
the bytes are, as many are taken as the size says. -/
theorem roundTrips_iff_utf8Size {s : WString} (hs : ∀ w ∈ s, w ≤ lastCodePoint) :
    (RoundTrips s ∧ ∀ size chunks,
        (parseAll (setSize {} size) chunks).2 = min size chunks.flatten.length) ↔
      utf8Size s < 2 ^ 32 := by
  rw [and_iff_left consumed]
  exact ⟨lt_of_roundTrips hs, roundTrips_of_lt hs⟩

/-- Characters of one to four bytes. -/
theorem roundTrips_sizes :
    (RoundTrips [0x41, 0xe9, 0x20ac, 0x10000] ∧ ∀ size chunks,
        (parseAll (setSize {} size) chunks).2 = min size chunks.flatten.length) ↔
      utf8Size [0x41, 0xe9, 0x20ac, 0x10000] < 2 ^ 32 :=
  roundTrips_iff_utf8Size (by decide)

/-- The 2^32 bytes of 2^30 characters are counted with 0. -/
theorem not_roundTrips_replicate : ¬RoundTrips (List.replicate (2 ^ 30) 0x10000) := by
  intro h
  have hlt := lt_of_roundTrips (fun w hw => List.eq_of_mem_replicate hw ▸ by decide) h
  rw [utf8Size, List.map_replicate, List.sum_replicate_nat] at hlt
  exact absurd hlt (by decide)

end UTF8Parser

end Amf

end McuMediaServer
