import McuMediaServer.Base.Bits
import McuMediaServer.Rtp.Packet
import Mathlib.Algebra.Ring.Nat

/-!
# Redundant payloads

The payload of a redundant packet starts with a list of block headers of four bytes and a last
header of one byte for the primary block; the redundant blocks and the primary one follow without
gaps. `RTPRedundantPacket` reads the headers without looking at the length of the payload and sums
the lengths of the blocks. It puts the two high bits of a length six places up and not eight, so
that only lengths below 256 are right, and gives the timestamp of a block as a byte.

`rfcHeaders` is the list as the format defines it, with a header as one word of 32 bits.
`parsedOrNone_iff` says for which payloads the blocks are those of the format.
-/

namespace McuMediaServer

open ByteSeq

/-- A redundant block. `ini` is its offset behind the headers. Reference: `rtp.h:505`. -/
structure RedHeader where
  type : Nat
  codec : Nat
  offset : Nat
  ini : Nat
  size : Nat
  deriving DecidableEq, Repr

/-- Reference: `rtp.h:512`. -/
def RedHeader.new (type offset ini size : Nat) : RedHeader :=
  { type, codec := type, offset, ini, size }

/-- A redundant packet, with offsets into its payload for the pointers. Reference: `rtp.h:481`. -/
structure RTPRedundantPacket where
  headers : List RedHeader
  primaryType : Nat
  primaryCodec : Nat := 0
  /-- A `DWORD`. -/
  primarySize : Nat
  primaryData : Nat
  redundantData : Nat
  deriving DecidableEq, Repr

/-- The loop over the headers, from the one at offset `i` on; the blocks before it take `skip`
bytes, a `WORD`. Gives the headers, the primary type and the two counters. There is no value when a
header is read behind the payload. Reference: `rtp.cpp:1399`. -/
def readHeaders : List UInt8 → Nat → Nat → Option (List RedHeader × Nat × Nat × Nat)
  | [], _, _ => none
  | b :: payload, i, skip =>
    if b.toNat >>> 7 = 0 then
      some ([], b.toNat &&& 0x7F, i, skip)
    else
      match payload with
      | b1 :: b2 :: b3 :: payload =>
        let type := b.toNat &&& 0x7F
        let offset := (b1.toNat <<< 6 ||| b2.toNat >>> 2) % 2 ^ 16
        let size := ((b2.toNat &&& 0x03) <<< 6 ||| b3.toNat) % 2 ^ 16
        (readHeaders payload (i + 4) ((skip + size) % 2 ^ 16)).map fun (headers, rest) =>
          (.new type offset skip size :: headers, rest)
      | _ => none

namespace RTPRedundantPacket

/-- The constructor, on the payload of its packet. Reference: `rtp.cpp:1379`. -/
def parse (payload : List UInt8) : Option RTPRedundantPacket :=
  (readHeaders payload 0 0).map fun (headers, primaryType, i, skip) =>
    let redundantData := i + 1
    { headers, primaryType, redundantData
      primaryData := redundantData + skip
      primarySize := (payload.length + (2 ^ 32 - (i + 1)) + (2 ^ 32 - skip)) % 2 ^ 32 }

variable (p : RTPRedundantPacket)

/-- A `BYTE`. Reference: `rtp.h:495`. -/
def getRedundantCount : Nat := p.headers.length % 2 ^ 8

/-- The timestamp of the packet less the offset, as a `BYTE`. Reference: `rtp.h:501`. -/
def getRedundantTimestamp (timestamp : UInt32) (i : Nat) : Nat :=
  match p.headers[i]? with
  | some header => (timestamp.toNat + (2 ^ 32 - header.offset)) % 2 ^ 32 % 2 ^ 8
  | none => 0

/-- Where the redundant blocks and the primary one are, as offset and size. -/
def ranges : List (Nat × Nat) :=
  p.headers.map (fun h => (p.redundantData + h.ini, h.size)) ++ [(p.primaryData, p.primarySize)]

end RTPRedundantPacket

/-! ## The format -/

/-- The headers as words of 32 bits, and what is behind the last header. -/
def rfcHeaders : List UInt8 → Option (List Nat × List UInt8)
  | [] => none
  | b :: payload =>
    if b < 0x80 then
      some ([], payload)
    else
      match payload with
      | b1 :: b2 :: b3 :: payload =>
        (rfcHeaders payload).map fun (words, rest) => (ofBytes [b, b1, b2, b3] :: words, rest)
      | _ => none

/-- The fields of a header: seven bits of type, 14 bits of timestamp offset, ten bits of length. -/
def rfcType (word : Nat) : Nat := word / 2 ^ 24 % 2 ^ 7
def rfcOffset (word : Nat) : Nat := word / 2 ^ 10 % 2 ^ 14
def rfcLength (word : Nat) : Nat := word % 2 ^ 10

/-- Ranges that follow one another from `start` to `fin`: in order, disjoint and without gaps. -/
def Tiles : Nat → List (Nat × Nat) → Nat → Prop
  | start, [], fin => start = fin
  | start, (ini, size) :: ranges, fin => ini = start ∧ Tiles (ini + size) ranges fin

/-- The blocks are those of the headers, with their timestamps, and with the primary block they are
all bytes behind the headers. -/
structure RTPRedundantPacket.Faithful (p : RTPRedundantPacket) (timestamp : UInt32)
    (words : List Nat) (total : Nat) : Prop where
  types : p.headers.map (·.type) = words.map rfcType
  offsets : p.headers.map (·.offset) = words.map rfcOffset
  sizes : p.headers.map (·.size) = words.map rfcLength
  tiles : Tiles (4 * words.length + 1) p.ranges total
  timestamps : ∀ i word, words[i]? = some word →
    p.getRedundantTimestamp timestamp i = (timestamp.toNat + (2 ^ 32 - rfcOffset word)) % 2 ^ 32

/-- The payload is parsed without reading behind it, and gives the blocks of the format or none. -/
def ParsedOrNone (payload : List UInt8) (timestamp : UInt32) : Prop :=
  ∃ p, RTPRedundantPacket.parse payload = some p ∧ (p.headers = [] ∨
    ∃ words rest, rfcHeaders payload = some (words, rest) ∧
      p.Faithful timestamp words payload.length)

/-- The header list ends in the payload, and if there are redundant blocks they fit, have lengths
below 256 and timestamps below 256. -/
def SmallBlocks (payload : List UInt8) (timestamp : UInt32) : Prop :=
  ∃ words rest, rfcHeaders payload = some (words, rest) ∧
    (words = [] ∨
      (∀ word ∈ words, rfcLength word < 2 ^ 8 ∧
        (timestamp.toNat + (2 ^ 32 - rfcOffset word)) % 2 ^ 32 < 2 ^ 8) ∧
      (words.map rfcLength).sum ≤ rest.length)

/-! ## The loop -/

section Loop

variable {payload rest : List UInt8} {words : List Nat} {i skip : Nat}

/-- The length the code reads. -/
def codeLength (word : Nat) : Nat := (word / 2 ^ 8 % 2 ^ 2) <<< 6 ||| word % 2 ^ 8

theorem codeLength_lt (word : Nat) : codeLength word < 2 ^ 8 := by
  refine Nat.or_lt_two_pow ?_ (Nat.mod_lt _ (by decide))
  rw [Nat.shiftLeft_eq]
  omega

theorem codeLength_eq_iff (word : Nat) : codeLength word = rfcLength word ↔
    rfcLength word < 2 ^ 8 := by
  constructor
  · intro h
    rw [← h]
    exact codeLength_lt word
  · intro h
    unfold rfcLength at *
    have hhigh : word / 2 ^ 8 % 2 ^ 2 = 0 := by omega
    rw [codeLength, hhigh, Nat.zero_shiftLeft, Nat.zero_or]
    omega

/-- What the loop makes of the headers. -/
def redHeaders : Nat → List Nat → List RedHeader
  | _, [] => []
  | skip, word :: words =>
    .new (rfcType word) (rfcOffset word) skip (codeLength word) ::
      redHeaders ((skip + codeLength word) % 2 ^ 16) words

/-- Where the blocks end, as the loop counts. -/
def skipAfter (skip : Nat) (words : List Nat) : Nat :=
  words.foldl (fun skip word => (skip + codeLength word) % 2 ^ 16) skip

theorem fields_ofBytes (b b1 b2 b3 : UInt8) :
    b.toNat &&& 0x7F = rfcType (ofBytes [b, b1, b2, b3]) ∧
    (b1.toNat <<< 6 ||| b2.toNat >>> 2) % 2 ^ 16 = rfcOffset (ofBytes [b, b1, b2, b3]) ∧
    ((b2.toNat &&& 0x03) <<< 6 ||| b3.toNat) % 2 ^ 16 =
      codeLength (ofBytes [b, b1, b2, b3]) := by
  have := b.toNat_lt
  have := b1.toNat_lt
  have h2 := b2.toNat_lt
  have := b3.toNat_lt
  have hword : ofBytes [b, b1, b2, b3] =
      ((b.toNat * 2 ^ 8 + b1.toNat) * 2 ^ 8 + b2.toNat) * 2 ^ 8 + b3.toNat := by
    simp [ofBytes]
  have hand7 : b.toNat &&& 0x7F = b.toNat % 2 ^ 7 := Nat.and_two_pow_sub_one_eq_mod _ 7
  have hand2 : b2.toNat &&& 0x03 = b2.toNat % 2 ^ 2 := Nat.and_two_pow_sub_one_eq_mod _ 2
  have hlow : b2.toNat >>> 2 = b2.toNat / 2 ^ 2 := Nat.shiftRight_eq_div_pow _ _
  refine ⟨?_, ?_, ?_⟩
  · rw [hand7, hword, rfcType]
    omega
  · rw [hlow, shiftLeft_or_of_lt (by omega), hword, rfcOffset]
    omega
  · have hhigh : ofBytes [b, b1, b2, b3] / 2 ^ 8 % 2 ^ 2 = b2.toNat % 2 ^ 2 := by
      rw [hword]
      omega
    have hbyte : ofBytes [b, b1, b2, b3] % 2 ^ 8 = b3.toNat := by
      rw [hword]
      omega
    have hlt := codeLength_lt (ofBytes [b, b1, b2, b3])
    rw [codeLength, hhigh, hbyte] at hlt ⊢
    rw [hand2]
    exact Nat.mod_eq_of_lt (by omega)

theorem ge_iff_shiftRight (b : UInt8) : b < 0x80 ↔ b.toNat >>> 7 = 0 := by
  have := b.toNat_lt
  rw [UInt8.lt_iff_toNat_lt, Nat.shiftRight_eq_div_pow]
  change b.toNat < 128 ↔ _
  omega

theorem readHeaders_eq (payload : List UInt8) (i skip : Nat) :
    (∀ words rest, rfcHeaders payload = some (words, rest) →
      payload.length = 4 * words.length + 1 + rest.length ∧
      ∃ primaryType, readHeaders payload i skip =
        some (redHeaders skip words, primaryType, i + 4 * words.length, skipAfter skip words)) ∧
    (rfcHeaders payload = none → readHeaders payload i skip = none) := by
  induction payload using rfcHeaders.induct generalizing i skip with
  | case1 => simp [rfcHeaders, readHeaders]
  | case2 b payload hlast =>
    unfold rfcHeaders readHeaders
    rw [if_pos hlast, if_pos ((ge_iff_shiftRight b).1 hlast)]
    refine ⟨?_, fun h => nomatch h⟩
    rintro words rest h
    cases h
    refine ⟨?_, _, rfl⟩
    rw [List.length_cons, List.length_nil]
    omega
  | case3 b hmore b1 b2 b3 payload ih =>
    obtain ⟨htype, hoffset, hsize⟩ := fields_ofBytes b b1 b2 b3
    have hmore' := fun h => hmore ((ge_iff_shiftRight b).2 h)
    rw [rfcHeaders, readHeaders, if_neg hmore, if_neg hmore']
    simp only [htype, hoffset, hsize]
    obtain ⟨hsome, hnone⟩ := ih (i + 4)
      ((skip + codeLength (ofBytes [b, b1, b2, b3])) % 2 ^ 16)
    constructor
    · intro words rest h
      rw [Option.map_eq_some_iff] at h
      obtain ⟨⟨words', rest'⟩, hwords, heq⟩ := h
      cases heq
      obtain ⟨hlength, primaryType, hread⟩ := hsome words' rest' hwords
      refine ⟨?_, primaryType, ?_⟩
      · simp only [List.length_cons]
        omega
      · rw [hread, List.length_cons]
        simp only [Option.map_some, redHeaders, skipAfter, List.foldl_cons]
        congr 4
        omega
    · intro h
      rw [Option.map_eq_none_iff] at h
      rw [hnone h]
      rfl
  | case4 b payload hmore hshort =>
    have hmore' := fun h => hmore ((ge_iff_shiftRight b).2 h)
    unfold rfcHeaders readHeaders
    rw [if_neg hmore, if_neg hmore']
    split
    case h_1 => exact absurd rfl (hshort _ _ _ _)
    case h_2 => simp

@[simp]
theorem map_type_redHeaders (skip : Nat) (words : List Nat) :
    (redHeaders skip words).map (·.type) = words.map rfcType := by
  induction words generalizing skip with
  | nil => rfl
  | cons word words ih => rw [redHeaders, List.map_cons, List.map_cons, ih]; rfl

@[simp]
theorem map_offset_redHeaders (skip : Nat) (words : List Nat) :
    (redHeaders skip words).map (·.offset) = words.map rfcOffset := by
  induction words generalizing skip with
  | nil => rfl
  | cons word words ih => rw [redHeaders, List.map_cons, List.map_cons, ih]; rfl

@[simp]
theorem map_size_redHeaders (skip : Nat) (words : List Nat) :
    (redHeaders skip words).map (·.size) = words.map codeLength := by
  induction words generalizing skip with
  | nil => rfl
  | cons word words ih => rw [redHeaders, List.map_cons, List.map_cons, ih]; rfl

end Loop

section Ranges

variable {base start fin skip size : Nat} {ranges : List (Nat × Nat)} {words : List Nat}

theorem Tiles.add_sum (h : Tiles start ranges fin) : start + (ranges.map Prod.snd).sum = fin := by
  induction ranges generalizing start with
  | nil => exact h
  | cons range ranges ih =>
    obtain ⟨rfl, hrest⟩ := h
    rw [List.map_cons, List.sum_cons, ← Nat.add_assoc]
    exact ih hrest

theorem tiles_redHeaders (hsum : skip + (words.map codeLength).sum < 2 ^ 16) :
    Tiles (base + skip) ((redHeaders skip words).map (fun h => (base + h.ini, h.size)) ++
      [(base + skipAfter skip words, size)]) (base + skip + (words.map codeLength).sum + size) ∧
    skipAfter skip words = skip + (words.map codeLength).sum := by
  induction words generalizing skip with
  | nil => exact ⟨⟨rfl, rfl⟩, rfl⟩
  | cons word words ih =>
    rw [List.map_cons, List.sum_cons] at hsum ⊢
    have hmod : (skip + codeLength word) % 2 ^ 16 = skip + codeLength word :=
      Nat.mod_eq_of_lt (by omega)
    obtain ⟨htiles, hskip⟩ := @ih (skip + codeLength word) (by omega)
    have hafter : skipAfter skip (word :: words) = skipAfter (skip + codeLength word) words := by
      rw [skipAfter, List.foldl_cons, hmod]
      rfl
    rw [hafter, redHeaders, hmod, List.map_cons, List.cons_append]
    refine ⟨⟨rfl, ?_⟩, by omega⟩
    have hstart : base + skip + (codeLength word + (words.map codeLength).sum) + size =
        base + (skip + codeLength word) + (words.map codeLength).sum + size := by omega
    rw [hstart]
    change Tiles (base + skip + codeLength word) _ _
    rw [Nat.add_assoc]
    exact htiles

end Ranges

/-! ## Payloads -/

/-- What the constructor makes of the headers. -/
def ofWords (words : List Nat) (primaryType total : Nat) : RTPRedundantPacket where
  headers := redHeaders 0 words
  primaryType := primaryType
  redundantData := 4 * words.length + 1
  primaryData := 4 * words.length + 1 + skipAfter 0 words
  primarySize := (total + (2 ^ 32 - (4 * words.length + 1)) + (2 ^ 32 - skipAfter 0 words)) % 2 ^ 32

section OfWords

variable {words : List Nat} {primaryType total i word : Nat} {timestamp : UInt32}

theorem ofWords_headers_eq_nil : (ofWords words primaryType total).headers = [] ↔ words = [] := by
  cases words with
  | nil => exact iff_of_true rfl rfl
  | cons word words => exact iff_of_false (fun h => nomatch h) fun h => nomatch h

theorem getRedundantTimestamp_ofWords (h : words[i]? = some word) :
    (ofWords words primaryType total).getRedundantTimestamp timestamp i =
      (timestamp.toNat + (2 ^ 32 - rfcOffset word)) % 2 ^ 32 % 2 ^ 8 := by
  have hoffset : ((redHeaders 0 words).map (·.offset))[i]? = some (rfcOffset word) := by
    rw [map_offset_redHeaders, List.getElem?_map, h]
    rfl
  rw [List.getElem?_map, Option.map_eq_some_iff] at hoffset
  obtain ⟨header, hheader, hword⟩ := hoffset
  have hget : (ofWords words primaryType total).headers[i]? = some header := hheader
  rw [RTPRedundantPacket.getRedundantTimestamp, hget]
  simp only [hword]

theorem ofWords_faithful_iff {rest : Nat} (hlength : total = 4 * words.length + 1 + rest)
    (htotal : total < 2 ^ 16) :
    (ofWords words primaryType total).Faithful timestamp words total ↔
      (∀ word ∈ words, rfcLength word < 2 ^ 8 ∧
        (timestamp.toNat + (2 ^ 32 - rfcOffset word)) % 2 ^ 32 < 2 ^ 8) ∧
      (words.map rfcLength).sum ≤ rest := by
  constructor
  · intro h
    have hsizes : words.map codeLength = words.map rfcLength :=
      (map_size_redHeaders 0 words).symm.trans h.sizes
    have hsum := h.tiles.add_sum
    have hsnd : ((ofWords words primaryType total).ranges.map Prod.snd).sum =
        (words.map rfcLength).sum + (ofWords words primaryType total).primarySize := by
      rw [← hsizes, ← map_size_redHeaders 0 words, RTPRedundantPacket.ranges, List.map_append,
        List.sum_append, List.map_map]
      rfl
    refine ⟨fun word hword => ⟨?_, ?_⟩, by omega⟩
    · rw [← codeLength_eq_iff]
      exact List.map_inj_left.1 hsizes word hword
    · obtain ⟨i, hi⟩ := List.mem_iff_getElem?.1 hword
      rw [← h.timestamps i word hi, getRedundantTimestamp_ofWords hi]
      exact Nat.mod_lt _ (by decide)
  · rintro ⟨hsmall, hfits⟩
    have hsizes : words.map codeLength = words.map rfcLength :=
      List.map_congr_left fun word hword => (codeLength_eq_iff word).2 (hsmall word hword).1
    obtain ⟨htiles, hskip⟩ := @tiles_redHeaders (4 * words.length + 1) 0
      (ofWords words primaryType total).primarySize words (by rw [hsizes]; omega)
    have hprimary : (ofWords words primaryType total).primarySize =
        rest - (words.map rfcLength).sum := by
      change (total + (2 ^ 32 - (4 * words.length + 1)) + (2 ^ 32 - skipAfter 0 words)) % 2 ^ 32 = _
      rw [hskip, hsizes]
      omega
    refine ⟨map_type_redHeaders 0 words, map_offset_redHeaders 0 words, ?_, ?_, ?_⟩
    · rw [← hsizes]
      exact map_size_redHeaders 0 words
    · have hfin : 4 * words.length + 1 + 0 + (words.map codeLength).sum +
          (ofWords words primaryType total).primarySize = total := by
        rw [hsizes, hprimary]
        omega
      rw [hfin] at htiles
      exact htiles
    · intro i word hi
      rw [getRedundantTimestamp_ofWords hi]
      exact Nat.mod_eq_of_lt (hsmall word (List.mem_of_getElem? hi)).2

end OfWords

/-- **Redundant payloads.** -/
theorem parsedOrNone_iff {payload : List UInt8} (timestamp : UInt32)
    (h : payload.length < 2 ^ 16) :
    ParsedOrNone payload timestamp ↔ SmallBlocks payload timestamp := by
  obtain ⟨hsome, hnone⟩ := readHeaders_eq payload 0 0
  cases hwords : rfcHeaders payload with
  | none =>
    refine iff_of_false ?_ ?_
    · rintro ⟨p, hp, -⟩
      rw [RTPRedundantPacket.parse, hnone hwords] at hp
      cases hp
    · rintro ⟨words, rest, heq, -⟩
      rw [hwords] at heq
      cases heq
  | some found =>
    obtain ⟨words, rest⟩ := found
    obtain ⟨hlength, primaryType, hread⟩ := hsome words rest hwords
    have hparse : RTPRedundantPacket.parse payload =
        some (ofWords words primaryType payload.length) := by
      rw [RTPRedundantPacket.parse, hread, Nat.zero_add]
      rfl
    have hfaithful := @ofWords_faithful_iff words primaryType payload.length timestamp _
      hlength h
    constructor
    · rintro ⟨p, hp, hblocks⟩
      rw [hparse] at hp
      cases hp
      refine ⟨words, rest, hwords, ?_⟩
      rcases hblocks with hnil | ⟨words', rest', heq, hblocks⟩
      · exact .inl (ofWords_headers_eq_nil.1 hnil)
      · rw [hwords] at heq
        cases heq
        exact .inr (hfaithful.1 hblocks)
    · rintro ⟨words', rest', heq, hsmall⟩
      rw [hwords] at heq
      cases heq
      refine ⟨_, hparse, ?_⟩
      rcases hsmall with rfl | hsmall
      · exact .inl rfl
      · exact .inr ⟨words, rest, hwords, hfaithful.2 hsmall⟩

/-- A text block of two bytes and a primary one, at timestamp 1010. -/
theorem parsedOrNone_small_iff :
    ParsedOrNone [0xE3, 0x0F, 0xA0, 2, 0x62, 104, 105, 33] 1010 ↔
      SmallBlocks [0xE3, 0x0F, 0xA0, 2, 0x62, 104, 105, 33] 1010 :=
  parsedOrNone_iff 1010 (by decide)

/-- At timestamp 5000 the block's timestamp, 4000, does not fit a byte. -/
theorem not_parsedOrNone_timestamp :
    ¬ParsedOrNone [0xE3, 0x0F, 0xA0, 2, 0x62, 104, 105, 33] 5000 := by
  rintro ⟨p, hp, hnil | ⟨words, rest, hwords, hfaithful⟩⟩
  · cases hp
    cases hnil
  · cases hp
    cases hwords
    have := hfaithful.timestamps 0 _ rfl
    exact absurd this (by decide)

end McuMediaServer
