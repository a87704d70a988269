import McuMediaServer.BitReader

/-!
# Exponential Golomb codes

A number is written as its successor in binary, behind as many zeros as there are bits behind the
first one. The decoder counts the zeros and reads as many bits behind the one. When there are none
it asks the reader for no bits, which shifts a word by its width.
-/

namespace McuMediaServer

open ByteSeq BitReader

/-- A computation ends without a fault, in a value with a property. -/
def Returns {ε α : Type} (x : Except ε α) (P : α → Prop) : Prop :=
  ∃ a, x = .ok a ∧ P a

section Returns

variable {ε α : Type} {P : α → Prop}

theorem returns_ok {a : α} : Returns (.ok a : Except ε α) P ↔ P a := by
  constructor
  · rintro ⟨b, hb, hP⟩
    cases hb
    exact hP
  · intro hP
    exact ⟨a, rfl, hP⟩

theorem returns_bind {β : Type} {x : Except ε β} {f : β → Except ε α} :
    Returns (x >>= f) P ↔ ∃ b, x = .ok b ∧ Returns (f b) P := by
  cases x with
  | error e =>
    constructor
    · rintro ⟨a, ha, -⟩
      cases ha
    · rintro ⟨b, hb, -⟩
      cases hb
  | ok b =>
    constructor
    · intro h
      exact ⟨b, rfl, h⟩
    · rintro ⟨b', hb, h⟩
      cases hb
      exact h

theorem not_returns_error {e : ε} : ¬ Returns (.error e : Except ε α) P := by
  rintro ⟨a, ha, -⟩
  cases ha

end Returns

/-! ## The decoder -/

namespace ExpGolombDecoder

/-- How many zeros there are before the next one. Reference: `bitstream.h:404`. -/
def countZeros (reader : BitReader) (len : Nat) : Except BitFault (Nat × BitReader) :=
  match h : reader.get 1 with
  | .error e => .error e
  | .ok (bit, reader) =>
    if bit = 0 then countZeros reader ((len + 1) % 2 ^ 32) else .ok (len, reader)
termination_by reader.weight
decreasing_by exact weight_get (by decide) (by decide) h

theorem countZeros_eq {r r' : BitReader} {bit len : Nat} (h : r.get 1 = .ok (bit, r')) :
    countZeros r len =
      if bit = 0 then countZeros r' ((len + 1) % 2 ^ 32) else .ok (len, r') := by
  rw [countZeros]
  split
  · rename_i e herror
    rw [h] at herror
    cases herror
  · rename_i bit' r'' hok
    rw [h] at hok
    cases hok
    rfl

/-- The sum is a `DWORD`. Reference: `bitstream.h:399`. -/
def decode (reader : BitReader) : Except BitFault (Nat × BitReader) := do
  let (len, reader) ← countZeros reader 0
  let (value, reader) ← reader.get len
  let power ← shl32 1 len
  return ((power + 2 ^ 32 - 1 + value) % 2 ^ 32, reader)

/-- The integer of a `DWORD`. -/
def toInt (v : Nat) : Int :=
  if v < 2 ^ 31 then v else (v : Int) - 2 ^ 32

/-- The number is halved, and negated if it is even. Reference: `bitstream.h:413`. -/
def decodeSE (reader : BitReader) : Except BitFault (Int × BitReader) := do
  let (codeNum, reader) ← decode reader
  return (toInt (if codeNum % 2 = 1 then codeNum / 2 else (2 ^ 32 - codeNum / 2) % 2 ^ 32), reader)

end ExpGolombDecoder

/-! ## The codes -/

/-- The code of a number, `ue(v)`. -/
def ueBits (k : Nat) : List Bool :=
  List.replicate (k + 1).log2 false ++ toBits ((k + 1).log2 + 1) (k + 1)

/-- The number of an integer, `se(v)`: the positive ones are the odd numbers. -/
def seNumber (v : Int) : Nat :=
  if 0 < v then (2 * v - 1).toNat else (-2 * v).toNat

theorem toBits_log2 (k : Nat) :
    toBits ((k + 1).log2 + 1) (k + 1) = true :: toBits (k + 1).log2 (k + 1) := by
  have hle : 2 ^ (k + 1).log2 ≤ k + 1 := Nat.log2_self_le (Nat.succ_ne_zero k)
  have hlt := @Nat.lt_log2_self (k + 1)
  have hdiv : (k + 1) / 2 ^ (k + 1).log2 = 1 := by
    rw [Nat.div_eq_iff (Nat.two_pow_pos _)]
    rw [Nat.pow_succ] at hlt
    omega
  rw [toBits, Nat.testBit_eq_decide_div_mod_eq, hdiv]
  rfl

section Decode

variable {r : BitReader} {total n v k : Nat} {rest : List Bool}

theorem get_toBits (h : r.Holds total (toBits n v ++ rest)) (hpos : 0 < n) (hn : n < 32)
    (hv : v < 2 ^ n) : ∃ r', r.get n = .ok (v, r') ∧ r'.Holds total rest := by
  obtain ⟨r', hget, hr'⟩ := h.get hpos (Nat.le_of_lt hn) (by simp) fun _ => hn
  have htake : (toBits n v ++ rest).take n = toBits n v := List.take_left' (length_toBits n v)
  have hdrop : (toBits n v ++ rest).drop n = rest := List.drop_left' (length_toBits n v)
  rw [htake, ofBits_toBits, Nat.mod_eq_of_lt hv] at hget
  rw [hdrop] at hr'
  exact ⟨r', hget, hr'⟩

theorem countZeros_spec (len : Nat) (h : r.Holds total (List.replicate n false ++ true :: rest))
    (hlen : len + n < 2 ^ 32) :
    ∃ r', ExpGolombDecoder.countZeros r len = .ok (len + n, r') ∧ r'.Holds total rest := by
  induction n generalizing r len with
  | zero =>
    obtain ⟨r', hget, hr'⟩ := get_toBits (n := 1) (v := 1) h (by decide) (by decide) (by decide)
    exact ⟨r', ExpGolombDecoder.countZeros_eq hget, hr'⟩
  | succ n ih =>
    obtain ⟨r', hget, hr'⟩ := get_toBits (n := 1) (v := 0) h (by decide) (by decide) (by decide)
    obtain ⟨r₁, hcount, hr₁⟩ := ih ((len + 1) % 2 ^ 32) hr' (by omega)
    refine ⟨r₁, ?_, hr₁⟩
    rw [ExpGolombDecoder.countZeros_eq hget, if_pos rfl, hcount, Nat.mod_eq_of_lt (by omega)]
    congr 2
    omega

theorem decode_ueBits (h : r.Holds total (ueBits k ++ rest)) (hk : k < 2 ^ 32 - 1) :
    ∃ r', r'.Holds total rest ∧
      ExpGolombDecoder.decode r = if k = 0 then .error .shift else .ok (k, r') := by
  have hle : 2 ^ (k + 1).log2 ≤ k + 1 := Nat.log2_self_le (Nat.succ_ne_zero k)
  have hlt := @Nat.lt_log2_self (k + 1)
  have hlog : (k + 1).log2 < 32 := (Nat.log2_lt (Nat.succ_ne_zero k)).2 (by omega)
  rw [ueBits, toBits_log2, List.append_assoc, List.cons_append] at h
  obtain ⟨r₁, hcount, hr₁⟩ := countZeros_spec 0 h (by omega)
  rw [Nat.zero_add] at hcount
  by_cases hzero : k = 0
  · subst hzero
    have hlog0 : (0 + 1).log2 = 0 := by decide
    rw [hlog0] at hcount hr₁
    refine ⟨r₁, hr₁, ?_⟩
    rw [if_pos rfl, ExpGolombDecoder.decode, hcount]
    simp only [bind, Except.bind]
    rw [BitReader.get, if_neg (Nat.not_lt_zero _), BitReader.getCached, top32, if_pos (by decide),
      shr32, if_neg (by decide)]
    rfl
  · have hpos : 0 < (k + 1).log2 := (Nat.le_log2 (Nat.succ_ne_zero k)).2 (by omega)
    rw [← toBits_mod] at hr₁
    obtain ⟨r', hget, hr'⟩ := get_toBits hr₁ hpos hlog (Nat.mod_lt _ (Nat.two_pow_pos _))
    refine ⟨r', hr', ?_⟩
    rw [if_neg hzero, ExpGolombDecoder.decode, hcount]
    simp only [bind, Except.bind, hget]
    rw [shl32, if_pos hlog, Nat.one_shiftLeft]
    simp only [pure, Except.pure]
    -- the first bit is the power, the others are what is behind it
    have hmod : (k + 1) % 2 ^ (k + 1).log2 = k + 1 - 2 ^ (k + 1).log2 := by
      rw [Nat.pow_succ] at hlt
      rw [Nat.mod_eq_sub_mod hle, Nat.mod_eq_of_lt (by omega)]
    rw [hmod]
    congr 2
    omega

end Decode

section Binds

variable {r : BitReader} {total n v k : Nat} {rest : List Bool}

/-- **Read a field.** What follows goes on behind it. -/
theorem returns_get (h : r.Holds total (toBits n v ++ rest)) (hpos : 0 < n) (hn : n < 32)
    (hv : v < 2 ^ n) : ∃ r', r'.Holds total rest ∧
      ∀ {α : Type} (f : Nat × BitReader → Except BitFault α) (P : α → Prop),
        Returns (r.get n >>= f) P ↔ Returns (f (v, r')) P := by
  obtain ⟨r', hget, hr'⟩ := get_toBits h hpos hn hv
  refine ⟨r', hr', ?_⟩
  intro α f P
  rw [hget]
  rfl

/-- **Read a code.** What follows goes on behind it, unless it is the one of zero. -/
theorem returns_decode (h : r.Holds total (ueBits k ++ rest)) (hk : k < 2 ^ 32 - 1) :
    ∃ r', r'.Holds total rest ∧
      ∀ {α : Type} (f : Nat × BitReader → Except BitFault α) (P : α → Prop),
        Returns (ExpGolombDecoder.decode r >>= f) P ↔ k ≠ 0 ∧ Returns (f (k, r')) P := by
  obtain ⟨r', hr', hdecode⟩ := decode_ueBits h hk
  refine ⟨r', hr', ?_⟩
  intro α f P
  rw [hdecode]
  by_cases hzero : k = 0
  · rw [if_pos hzero]
    constructor
    · intro hret
      exact absurd hret not_returns_error
    · rintro ⟨hne, -⟩
      exact absurd hzero hne
  · rw [if_neg hzero]
    constructor
    · intro hret
      exact ⟨hzero, hret⟩
    · rintro ⟨-, hret⟩
      exact hret

end Binds

/-! ## What the decoder inverts -/

/-- The code of a number is decoded to it, wherever it is read and whatever follows. -/
def Inverts (k : Nat) : Prop :=
  ∀ (r : BitReader) (total : Nat) (rest : List Bool), r.Holds total (ueBits k ++ rest) →
    ∃ r', ExpGolombDecoder.decode r = .ok (k, r') ∧ r'.Holds total rest

/-- The code of a number is decoded to the integer that it stands for. -/
def InvertsSigned (k : Nat) : Prop :=
  ∀ (r : BitReader) (total : Nat) (rest : List Bool), r.Holds total (ueBits k ++ rest) →
    ∃ r', ExpGolombDecoder.decodeSE r = .ok ((-1) ^ (k + 1) * ((k + 1) / 2 : Nat), r') ∧
      r'.Holds total rest

/-- Where no bit is set the reader throws. -/
def ThrowsOnZeros : Prop :=
  ∀ (r : BitReader) (total n : Nat), r.Holds total (List.replicate n false) →
    ExpGolombDecoder.decode r = .error .pastEnd ∧ ExpGolombDecoder.decodeSE r = .error .pastEnd

section Inverts

variable {r : BitReader} {total n k : Nat} {rest : List Bool}

theorem countZeros_of_error {e : BitFault} {len : Nat} (h : r.get 1 = .error e) :
    ExpGolombDecoder.countZeros r len = .error e := by
  rw [ExpGolombDecoder.countZeros]
  split
  · rename_i e' herror
    rw [h] at herror
    exact herror.symm
  · rename_i bit r' hok
    rw [h] at hok
    cases hok

theorem countZeros_zeros (len : Nat) (h : r.Holds total (List.replicate n false)) :
    ExpGolombDecoder.countZeros r len = .error .pastEnd := by
  induction n generalizing r len with
  | zero =>
    have hlen := h.length
    have hend : r.PastEnd 1 := by
      rw [pastEnd_iff (by decide) (by decide), ← List.length_eq_zero_iff]
      rw [List.replicate_zero, List.length_nil] at hlen
      omega
    exact countZeros_of_error hend.get
  | succ n ih =>
    obtain ⟨r', hget, hr'⟩ := get_toBits (n := 1) (v := 0) h (by decide) (by decide) (by decide)
    rw [ExpGolombDecoder.countZeros_eq hget, if_pos rfl]
    exact ih _ hr'

theorem throwsOnZeros : ThrowsOnZeros := by
  intro r total n h
  have hdecode : ExpGolombDecoder.decode r = .error .pastEnd := by
    rw [ExpGolombDecoder.decode, countZeros_zeros 0 h]
    rfl
  refine ⟨hdecode, ?_⟩
  rw [ExpGolombDecoder.decodeSE, hdecode]
  rfl

theorem decodeSE_ueBits (h : r.Holds total (ueBits k ++ rest)) (hk : k < 2 ^ 32 - 1) :
    ∃ r', r'.Holds total rest ∧ ExpGolombDecoder.decodeSE r =
      if k = 0 then .error .shift
      else .ok (if k % 2 = 1 then ((k / 2 : Nat) : Int) else -((k / 2 : Nat) : Int), r') := by
  obtain ⟨r', hr', hdecode⟩ := decode_ueBits h hk
  refine ⟨r', hr', ?_⟩
  rw [ExpGolombDecoder.decodeSE, hdecode]
  by_cases hzero : k = 0
  · rw [if_pos hzero, if_pos hzero]
    rfl
  · rw [if_neg hzero, if_neg hzero]
    simp only [bind, Except.bind, pure, Except.pure]
    congr 2
    rw [ExpGolombDecoder.toInt]
    split_ifs <;> omega

theorem signed_eq (k : Nat) :
    (-1 : Int) ^ (k + 1) * ((k + 1) / 2 : Nat) =
      if k % 2 = 1 then (((k + 1) / 2 : Nat) : Int) else -((k / 2 : Nat) : Int) := by
  rcases Nat.mod_two_eq_zero_or_one k with heven | hodd
  · rw [Odd.neg_one_pow (Nat.odd_iff.2 (by omega)), if_neg (by omega)]
    omega
  · rw [Even.neg_one_pow (Nat.even_iff.2 (by omega)), if_pos hodd, one_mul]

theorem exists_byteBits (bits : List Bool) : ∃ bytes rest, byteBits bytes = bits ++ rest := by
  induction hn : bits.length using Nat.strong_induction_on generalizing bits with
  | _ n ih =>
    have hbyte (byte : List Bool) (hlen : byte.length = 8) :
        byteBits [UInt8.ofNat (ofBits byte)] = byte := by
      have hlt := ofBits_lt byte
      rw [hlen] at hlt
      rw [byteBits, List.flatMap_singleton, UInt8.toNat_ofNat', Nat.mod_eq_of_lt hlt, ← hlen,
        toBits_ofBits]
    rcases Nat.lt_or_ge bits.length 8 with hshort | hlong
    · refine ⟨[UInt8.ofNat (ofBits (bits ++ List.replicate (8 - bits.length) false))],
        List.replicate (8 - bits.length) false, ?_⟩
      apply hbyte
      rw [List.length_append, List.length_replicate]
      omega
    · obtain ⟨bytes, rest, hbytes⟩ := ih (bits.drop 8).length (by simp; omega) (bits.drop 8) rfl
      refine ⟨UInt8.ofNat (ofBits (bits.take 8)) :: bytes, rest, ?_⟩
      have htake : (bits.take 8).length = 8 := by simp; omega
      rw [← List.singleton_append, byteBits_append, hbyte _ htake, hbytes, ← List.append_assoc,
        List.take_append_drop]

theorem exists_holds (bits : List Bool) :
    ∃ (r : BitReader) (total : Nat) (rest : List Bool), r.Holds total (bits ++ rest) := by
  obtain ⟨bytes, rest, hbytes⟩ := exists_byteBits bits
  exact ⟨_, bytes.length, rest, hbytes ▸ holds_new bytes⟩

end Inverts

/-- A number with a code of at most 63 bits. -/
abbrev CodeNumber := Fin (2 ^ 32 - 1)

/-- **Codes are inverted but for that of zero, and as integers those of the even numbers.** -/
theorem inverts_iff (k : CodeNumber) :
    (Inverts k ↔ k.val ≠ 0) ∧ (InvertsSigned k ↔ k.val ≠ 0 ∧ k.val % 2 = 0) ∧ ThrowsOnZeros := by
  obtain ⟨r₀, total₀, rest₀, h₀⟩ := exists_holds (ueBits k)
  refine ⟨⟨fun hinv hzero => ?_, fun hne r total rest h => ?_⟩,
    ⟨fun hinv => ?_, fun hne r total rest h => ?_⟩, throwsOnZeros⟩
  · obtain ⟨r', -, hdecode⟩ := decode_ueBits h₀ k.isLt
    obtain ⟨r'', hok, -⟩ := hinv r₀ total₀ rest₀ h₀
    rw [hdecode, if_pos hzero] at hok
    cases hok
  · obtain ⟨r', hr', hdecode⟩ := decode_ueBits h k.isLt
    exact ⟨r', by rw [hdecode, if_neg hne], hr'⟩
  · obtain ⟨r', -, hdecode⟩ := decodeSE_ueBits h₀ k.isLt
    obtain ⟨r'', hok, -⟩ := hinv r₀ total₀ rest₀ h₀
    rw [hdecode, signed_eq] at hok
    have hne : k.val ≠ 0 := by
      intro hzero
      rw [if_pos hzero] at hok
      cases hok
    refine ⟨hne, ?_⟩
    rw [if_neg hne] at hok
    have hvalue := congrArg Prod.fst (Except.ok.inj hok)
    dsimp only at hvalue
    split_ifs at hvalue <;> omega
  · obtain ⟨r', hr', hdecode⟩ := decodeSE_ueBits h k.isLt
    refine ⟨r', ?_, hr'⟩
    rw [hdecode, if_neg hne.1, signed_eq, if_neg (by omega), if_neg (by omega)]

/-- The integer of the number one is one, and zero is decoded. -/
theorem not_inverts_one : ¬ ∀ k : CodeNumber, Inverts k ∧ InvertsSigned k ∧ ThrowsOnZeros := by
  intro h
  obtain ⟨-, hsigned, -⟩ := h ⟨1, by decide⟩
  have hholds : Holds ⟨[0x40], 0, 0, 0⟩ 1 (ueBits 1 ++ List.replicate 5 false) := holds_new [0x40]
  obtain ⟨r', hdecode, -⟩ := hsigned _ _ _ hholds
  have hzero : (ExpGolombDecoder.decodeSE ⟨[0x40], 0, 0, 0⟩).map Prod.fst = .ok 0 := by
    decide +kernel
  rw [hdecode] at hzero
  cases hzero

end McuMediaServer
