import McuMediaServer.Base.Bytes

/-!
# Wide strings and UTF-8

Strings are kept as wide characters and go over the wire as UTF-8. The parser takes the bytes of a
string as they come and replaces what it cannot decode by a dot.
-/

namespace McuMediaServer

namespace Amf

/-- A `std::wstring`, its characters as numbers. -/
abbrev WString := List Nat

/-- The last code point. -/
def lastCodePoint : Nat := 0x10ffff

/-- How many bytes a character is counted with. Reference: `amf.cpp:314`. -/
def charSize (w : Nat) : Nat :=
  if w ≤ 0x7f then 1 else if w ≤ 0x7ff then 2 else if w ≤ 0xffff then 3 else 4

/-- How many bytes the characters are counted with. -/
def utf8Size (s : WString) : Nat :=
  (s.map charSize).sum

/-- The bytes of a character. Reference: `amf.cpp:370`. -/
def encodeChar (w : Nat) : List UInt8 :=
  if w ≤ 0x7f then
    [.ofNat w]
  else if w ≤ 0x7ff then
    [.ofNat (0xc0 + w / 2 ^ 6 % 2 ^ 5), .ofNat (0x80 + w % 2 ^ 6)]
  else if w ≤ 0xffff then
    [.ofNat (0xe0 + w / 2 ^ 12 % 2 ^ 4), .ofNat (0x80 + w / 2 ^ 6 % 2 ^ 6),
      .ofNat (0x80 + w % 2 ^ 6)]
  else if w ≤ lastCodePoint then
    [.ofNat (0xf0 + w / 2 ^ 18 % 2 ^ 3), .ofNat (0x80 + w / 2 ^ 12 % 2 ^ 6),
      .ofNat (0x80 + w / 2 ^ 6 % 2 ^ 6), .ofNat (0x80 + w % 2 ^ 6)]
  else
    [0x2e]

/-- The bytes of a string. -/
def encode (s : WString) : List UInt8 :=
  s.flatMap encodeChar

/-- Reference: `amf.h:54`. The size is `(DWORD)-1` until it is known, `bytes` counts the bytes that
are still owed to the character begun in `w`. -/
structure UTF8Parser where
  value : WString := []
  utf8size : Nat := 2 ^ 32 - 1
  bytes : Nat := 0
  len : Nat := 0
  w : Nat := 0
  deriving DecidableEq, Repr

namespace UTF8Parser

/-- Reference: `amf.cpp:200`. -/
def setSize (p : UTF8Parser) (size : Nat) : UTF8Parser :=
  { p with utf8size := size }

def push (p : UTF8Parser) (w : Nat) : UTF8Parser :=
  { p with value := p.value ++ [w] }

/-- Reference: `amf.cpp:231`. -/
def parseByte (p : UTF8Parser) (byte : UInt8) : UTF8Parser :=
  let c := byte.toNat
  if c ≤ 0x7f then
    let p := if p.bytes ≠ 0 then { p.push 0x2e with bytes := 0 } else p
    p.push c
  else if c ≤ 0xbf then
    if p.bytes ≠ 0 then
      let p := { p with w := p.w * 2 ^ 6 + c % 2 ^ 6, bytes := p.bytes - 1 }
      if p.bytes = 0 then p.push p.w else p
    else
      p.push 0x2e
  else if c ≤ 0xdf then
    { p with bytes := 1, w := c % 2 ^ 5 }
  else if c ≤ 0xef then
    { p with bytes := 2, w := c % 2 ^ 4 }
  else if c ≤ 0xf7 then
    { p with bytes := 3, w := c % 2 ^ 3 }
  else
    { p.push 0x2e with bytes := 0 }

/-- Take what is missing of the string; returns how much. Reference: `amf.cpp:220`. -/
def parse (p : UTF8Parser) (data : List UInt8) : UTF8Parser × Nat :=
  let copy := min (p.utf8size - p.len) data.length
  let p := (data.take copy).foldl parseByte p
  ({ p with len := p.len + copy }, copy)

/-- Reference: `amf.cpp:289`. -/
def isParsed (p : UTF8Parser) : Bool :=
  p.len = p.utf8size

end UTF8Parser

/-! ## Sizes -/

@[simp]
theorem utf8Size_nil : utf8Size [] = 0 := rfl

@[simp]
theorem utf8Size_append (s t : WString) : utf8Size (s ++ t) = utf8Size s + utf8Size t := by
  simp [utf8Size]

@[simp]
theorem utf8Size_cons (w : Nat) (s : WString) : utf8Size (w :: s) = charSize w + utf8Size s := rfl

theorem charSize_pos (w : Nat) : 0 < charSize w := by
  unfold charSize
  split_ifs <;> omega

variable {s : WString}

theorem utf8Size_eq_zero : utf8Size s = 0 ↔ s = [] := by
  cases s with
  | nil => simp
  | cons w s =>
    have := charSize_pos w
    simp only [utf8Size_cons, reduceCtorEq, iff_false]
    omega

theorem length_encodeChar {w : Nat} (hw : w ≤ lastCodePoint) :
    (encodeChar w).length = charSize w := by
  unfold encodeChar charSize
  split_ifs <;> rfl

theorem length_encode (hs : ∀ w ∈ s, w ≤ lastCodePoint) : (encode s).length = utf8Size s := by
  induction s with
  | nil => rfl
  | cons w s ih =>
    rw [encode, List.flatMap_cons, List.length_append, ← encode,
      length_encodeChar (hs w List.mem_cons_self), ih fun v hv => hs v (List.mem_cons_of_mem _ hv),
      utf8Size_cons]

/-! ## Decoding what has been encoded -/

variable {c : Nat}

namespace UTF8Parser

variable {p : UTF8Parser} {data : List UInt8}

theorem foldl_ascii (hc : c ≤ 0x7f) (hp : p.bytes = 0) :
    (.ofNat c :: data).foldl parseByte p = data.foldl parseByte (p.push c) := by
  have htoNat : (UInt8.ofNat c).toNat = c := by
    rw [UInt8.toNat_ofNat']
    omega
  simp [parseByte, htoNat, hc, hp]

theorem foldl_continuation (hc : c < 2 ^ 6) (hp : 1 < p.bytes) :
    (.ofNat (0x80 + c) :: data).foldl parseByte p =
      data.foldl parseByte { p with w := p.w * 2 ^ 6 + c, bytes := p.bytes - 1 } := by
  have htoNat : (UInt8.ofNat (0x80 + c)).toNat = 0x80 + c := by
    rw [UInt8.toNat_ofNat']
    omega
  have hmod : (0x80 + c) % 2 ^ 6 = c := by omega
  rw [List.foldl_cons]
  simp only [parseByte, htoNat, hmod]
  rw [if_neg (by omega), if_pos (by omega), if_pos (by omega), if_neg (by omega)]

theorem foldl_last (hc : c < 2 ^ 6) (hp : p.bytes = 1) :
    (.ofNat (0x80 + c) :: data).foldl parseByte p =
      data.foldl parseByte
        { p with value := p.value ++ [p.w * 2 ^ 6 + c], w := p.w * 2 ^ 6 + c, bytes := 0 } := by
  have htoNat : (UInt8.ofNat (0x80 + c)).toNat = 0x80 + c := by
    rw [UInt8.toNat_ofNat']
    omega
  have hmod : (0x80 + c) % 2 ^ 6 = c := by omega
  rw [List.foldl_cons]
  simp only [parseByte, htoNat, hmod]
  rw [if_neg (by omega), if_pos (by omega), if_pos (by omega), if_pos (by omega), push]
  simp [hp]

theorem foldl_lead2 (hc : c < 2 ^ 5) : (.ofNat (0xc0 + c) :: data).foldl parseByte p =
      data.foldl parseByte { p with bytes := 1, w := c } := by
  have htoNat : (UInt8.ofNat (0xc0 + c)).toNat = 0xc0 + c := by
    rw [UInt8.toNat_ofNat']
    omega
  have hmod : (0xc0 + c) % 2 ^ 5 = c := by omega
  rw [List.foldl_cons]
  simp only [parseByte, htoNat, hmod]
  rw [if_neg (by omega), if_neg (by omega), if_pos (by omega)]

theorem foldl_lead3 (hc : c < 2 ^ 4) : (.ofNat (0xe0 + c) :: data).foldl parseByte p =
      data.foldl parseByte { p with bytes := 2, w := c } := by
  have htoNat : (UInt8.ofNat (0xe0 + c)).toNat = 0xe0 + c := by
    rw [UInt8.toNat_ofNat']
    omega
  have hmod : (0xe0 + c) % 2 ^ 4 = c := by omega
  rw [List.foldl_cons]
  simp only [parseByte, htoNat, hmod]
  rw [if_neg (by omega), if_neg (by omega), if_neg (by omega), if_pos (by omega)]

theorem foldl_lead4 (hc : c < 2 ^ 3) : (.ofNat (0xf0 + c) :: data).foldl parseByte p =
      data.foldl parseByte { p with bytes := 3, w := c } := by
  have htoNat : (UInt8.ofNat (0xf0 + c)).toNat = 0xf0 + c := by
    rw [UInt8.toNat_ofNat']
    omega
  have hmod : (0xf0 + c) % 2 ^ 3 = c := by omega
  rw [List.foldl_cons]
  simp only [parseByte, htoNat, hmod]
  rw [if_neg (by omega), if_neg (by omega), if_neg (by omega), if_neg (by omega), if_pos (by omega)]

theorem foldl_encodeChar {w : Nat} (hw : w ≤ lastCodePoint) (hp : p.bytes = 0) :
    ∃ w', (encodeChar w).foldl parseByte p =
      { p with value := p.value ++ [w], bytes := 0, w := w' } := by
  have hlast : w ≤ 0x10ffff := hw
  unfold encodeChar
  split_ifs with h1 h2 h3
  · refine ⟨p.w, ?_⟩
    rw [foldl_ascii h1 hp, List.foldl_nil, push, ← hp]
  · refine ⟨w, ?_⟩
    have hvalue : w / 2 ^ 6 % 2 ^ 5 * 2 ^ 6 + w % 2 ^ 6 = w := by omega
    rw [foldl_lead2 (Nat.mod_lt _ (by decide)), foldl_last (Nat.mod_lt _ (by decide)) rfl,
      List.foldl_nil]
    simp only [hvalue]
  · refine ⟨w, ?_⟩
    have hvalue : (w / 2 ^ 12 % 2 ^ 4 * 2 ^ 6 + w / 2 ^ 6 % 2 ^ 6) * 2 ^ 6 + w % 2 ^ 6 = w := by
      omega
    rw [foldl_lead3 (Nat.mod_lt _ (by decide)),
      foldl_continuation (Nat.mod_lt _ (by decide)) (by simp),
      foldl_last (Nat.mod_lt _ (by decide)) rfl, List.foldl_nil]
    simp only [hvalue]
  · refine ⟨w, ?_⟩
    have hvalue : ((w / 2 ^ 18 % 2 ^ 3 * 2 ^ 6 + w / 2 ^ 12 % 2 ^ 6) * 2 ^ 6 +
        w / 2 ^ 6 % 2 ^ 6) * 2 ^ 6 + w % 2 ^ 6 = w := by omega
    rw [foldl_lead4 (Nat.mod_lt _ (by decide)),
      foldl_continuation (Nat.mod_lt _ (by decide)) (by simp),
      foldl_continuation (Nat.mod_lt _ (by decide)) (by simp),
      foldl_last (Nat.mod_lt _ (by decide)) rfl, List.foldl_nil]
    simp only [hvalue]

theorem foldl_encode (hs : ∀ w ∈ s, w ≤ lastCodePoint) (hp : p.bytes = 0) :
    ∃ w', (encode s).foldl parseByte p =
      { p with value := p.value ++ s, bytes := 0, w := w' } := by
  induction s generalizing p with
  | nil => exact ⟨p.w, by simp [encode, ← hp]⟩
  | cons w s ih =>
    obtain ⟨v, hv⟩ := foldl_encodeChar (hs w List.mem_cons_self) hp
    obtain ⟨w', hw'⟩ := ih (p := { p with value := p.value ++ [w], bytes := 0, w := v })
      (fun u hu => hs u (List.mem_cons_of_mem _ hu)) rfl
    refine ⟨w', ?_⟩
    rw [encode, List.flatMap_cons, List.foldl_append, hv, ← encode, hw']
    simp

theorem parse_encode (hs : ∀ w ∈ s, w ≤ lastCodePoint) (rest : List UInt8) :
    ∃ p : UTF8Parser, (setSize {} (utf8Size s)).parse (encode s ++ rest) = (p, utf8Size s) ∧
      p.isParsed ∧ p.value = s := by
  have hlen := length_encode hs
  obtain ⟨w', hw'⟩ := foldl_encode (p := setSize {} (utf8Size s)) hs rfl
  have hcopy : min (utf8Size s - 0) (encode s ++ rest).length = utf8Size s := by
    rw [List.length_append]
    omega
  have htake : (encode s ++ rest).take (utf8Size s) = encode s := by
    rw [← hlen, List.take_left]
  refine ⟨{ value := s, utf8size := utf8Size s, len := utf8Size s, w := w' }, ?_, by simp [isParsed],
    rfl⟩
  simp only [setSize] at hw' ⊢
  simp only [parse, hcopy, htake, hw']
  simp

end UTF8Parser

/-! ## How much can be decoded from a number of bytes -/

namespace UTF8Parser

/-- The string decoded so far is counted with at most `n` bytes, and so will be the character that
is begun in `w`. -/
def Within (p : UTF8Parser) (n : Nat) : Prop :=
  p.bytes = 0 ∧ utf8Size p.value ≤ n ∨
    ∃ t, p.bytes < t ∧ t ≤ 4 ∧ utf8Size p.value + (t - p.bytes) ≤ n ∧
      p.w < 2 ^ (5 * t + 1 - 6 * p.bytes)

variable {p : UTF8Parser} {n : Nat}

theorem Within.utf8Size_le (h : p.Within n) : utf8Size p.value ≤ n := by
  rcases h with ⟨-, h⟩ | ⟨t, -, -, h, -⟩ <;> omega

/-- A character of `t` bytes is counted with no more. -/
theorem charSize_le {w t : Nat} (h2 : 2 ≤ t) (h4 : t ≤ 4) (hw : w < 2 ^ (5 * t + 1)) :
    charSize w ≤ t := by
  unfold charSize
  obtain rfl | rfl | rfl : t = 2 ∨ t = 3 ∨ t = 4 := by omega
  · split_ifs <;> omega
  · split_ifs <;> omega
  · split_ifs <;> omega

theorem Within.parseByte (h : p.Within n) (c : UInt8) : (p.parseByte c).Within (n + 1) := by
  have hle := h.utf8Size_le
  have hdot : charSize 0x2e = 1 := rfl
  have hbegun (hb : p.bytes ≠ 0) : utf8Size p.value + 1 ≤ n := by
    rcases h with ⟨hzero, -⟩ | ⟨t, hlt, -, hsize, -⟩
    · exact absurd hzero hb
    · omega
  simp only [UTF8Parser.parseByte]
  by_cases h1 : c.toNat ≤ 0x7f
  · have hc : charSize c.toNat = 1 := if_pos h1
    rw [if_pos h1]
    left
    by_cases hb : p.bytes ≠ 0
    · have := hbegun hb
      rw [if_pos hb]
      simp [push, hdot, hc]
      omega
    · rw [if_neg hb]
      simp [push, hc, not_not.1 hb]
      omega
  rw [if_neg h1]
  by_cases h2 : c.toNat ≤ 0xbf
  · rw [if_pos h2]
    by_cases hb : p.bytes ≠ 0
    · obtain ⟨t, hlt, h4, hsize, hw⟩ : ∃ t, p.bytes < t ∧ t ≤ 4 ∧
          utf8Size p.value + (t - p.bytes) ≤ n ∧ p.w < 2 ^ (5 * t + 1 - 6 * p.bytes) :=
        h.resolve_left fun hzero => hb hzero.1
      have hexp : 5 * t + 1 - 6 * (p.bytes - 1) = 5 * t + 1 - 6 * p.bytes + 6 := by omega
      have hw' : p.w * 2 ^ 6 + c.toNat % 2 ^ 6 < 2 ^ (5 * t + 1 - 6 * (p.bytes - 1)) := by
        rw [hexp, Nat.pow_add]
        have := Nat.mod_lt c.toNat (show 0 < 2 ^ 6 by decide)
        omega
      rw [if_pos hb]
      by_cases hlast : p.bytes - 1 = 0
      · rw [hlast, Nat.mul_zero, Nat.sub_zero] at hw'
        have hsize' := charSize_le (by omega) h4 hw'
        rw [if_pos hlast]
        left
        simp only [push, hlast, utf8Size_append, utf8Size_cons, utf8Size_nil, true_and]
        omega
      · rw [if_neg hlast]
        exact .inr ⟨t, by simp only; omega, h4, by simp only; omega, hw'⟩
    · rw [if_neg hb]
      left
      simp [push, hdot, not_not.1 hb]
      omega
  rw [if_neg h2]
  have hmod (k : Nat) : c.toNat % 2 ^ k < 2 ^ k := Nat.mod_lt _ (Nat.two_pow_pos k)
  by_cases h3 : c.toNat ≤ 0xdf
  · rw [if_pos h3]
    exact .inr ⟨2, by simp, by simp, by simp only; omega, hmod 5⟩
  rw [if_neg h3]
  by_cases h4 : c.toNat ≤ 0xef
  · rw [if_pos h4]
    exact .inr ⟨3, by simp, by simp, by simp only; omega, hmod 4⟩
  rw [if_neg h4]
  by_cases h5 : c.toNat ≤ 0xf7
  · rw [if_pos h5]
    exact .inr ⟨4, by simp, by simp, by simp only; omega, hmod 3⟩
  · rw [if_neg h5]
    left
    simp [push, hdot]
    omega

theorem Within.foldl (data : List UInt8) (h : p.Within n) :
    (data.foldl UTF8Parser.parseByte p).Within (n + data.length) := by
  induction data generalizing p n with
  | nil => exact h
  | cons c data ih =>
    rw [List.foldl_cons, List.length_cons, Nat.add_comm data.length, ← Nat.add_assoc]
    exact ih (h.parseByte c)

end UTF8Parser

end Amf

end McuMediaServer
