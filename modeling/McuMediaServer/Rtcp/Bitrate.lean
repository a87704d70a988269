import McuMediaServer.Base.Significand
import McuMediaServer.Rtcp.Fields

/-!
# Bitrates in feedback

The request to keep a bitrate (TMMBR) and the estimate of the receiver (REMB) carry a bitrate of 32
bits as an exponent and a mantissa of 17 or 18 bits. Both search the exponent from below with a
mask that is shifted as an `int`, so that the mask loses bits from some exponent on. Bitrates above
the last mask that is whole get the exponent zero and a mantissa that does not fit, and where all
bits of the mantissa are set the search goes one exponent too far for the bitrates right above
(`Significand.Gap`). The bitrates that are kept are exactly the others.
-/

namespace McuMediaServer

open ByteSeq ByteWriter Significand

/-- `mask << i` as an `int`, that wraps and takes the count modulo 32, compared as a `DWORD`. -/
def shiftedMask (mask i : Nat) : Nat := mask * 2 ^ (i % 32) % 2 ^ 32

/-- The first of 64 exponents whose mask is not below the bitrate, zero if there is none. -/
def searchExp (mask : Nat) (bitrate : UInt32) : UInt8 :=
  .ofNat (((List.range 64).find? fun i => bitrate.toNat ≤ shiftedMask mask i).getD 0)

namespace TempMaxMediaStreamBitrateField

/-- Reference: `rtp.h:1078`. -/
def setBitrate (bitrate : UInt32) (f : TempMaxMediaStreamBitrateField) :
    TempMaxMediaStreamBitrateField :=
  let maxTotalBitrateExp := searchExp 0x001FFFF bitrate
  { f with
    maxTotalBitrateExp
    maxTotalBitrateMantissa := bitrate >>> maxTotalBitrateExp.toUInt32 }

/-- Reference: `rtp.h:1048`. -/
def ofBitrate (ssrc bitrate : UInt32) (overhead : UInt16) : TempMaxMediaStreamBitrateField :=
  setBitrate bitrate ⟨ssrc, 0, 0, overhead⟩

/-- Reference: `rtp.h:1097`. -/
def getBitrate (f : TempMaxMediaStreamBitrateField) : UInt32 :=
  f.maxTotalBitrateMantissa <<< f.maxTotalBitrateExp.toUInt32

end TempMaxMediaStreamBitrateField

namespace ApplicationLayerFeeedbackField

/-- Reference: `rtp.h:1495`. -/
def bitrateExp (bitrate : UInt32) : UInt8 := searchExp 0x003FFFF bitrate

/-- Reference: `rtp.h:1508`. -/
def bitrateMantissa (bitrate : UInt32) : UInt32 := bitrate >>> (bitrateExp bitrate).toUInt32

/-- The payload of an estimate. -/
def remb (ssrcs : List UInt32) (bitrate : UInt32) : List UInt8 :=
  be1 'R'.toNat ++ be1 'E'.toNat ++ be1 'M'.toNat ++ be1 'B'.toNat ++ be1 ssrcs.length ++
  be1 ((bitrateExp bitrate).toNat <<< 2 ||| ((bitrateMantissa bitrate).toNat >>> 16 &&& 0x03)) ++
  be1 ((bitrateMantissa bitrate).toNat >>> 8) ++ be1 (bitrateMantissa bitrate).toNat ++
  ssrcs.flatMap fun ssrc => be4 ssrc.toNat

/-- The length is a `WORD`. There is no value when it is too small for the payload, which is then
written past the memory. Reference: `rtp.h:1476`. -/
def createReceiverEstimatedMaxBitrate (ssrcs : List UInt32) (bitrate : UInt32) :
    Option ApplicationLayerFeeedbackField :=
  if h : (remb ssrcs bitrate).length < 2 ^ 16 then
    some ⟨⟨remb ssrcs bitrate, h⟩⟩
  else
    none

/-- The bitrate the listener is called with, if the field is an estimate. Reference:
`rtpsession.cpp:2059`. -/
def onReceiverEstimatedMaxBitrate (f : ApplicationLayerFeeedbackField) : Option UInt32 := do
  let payload := f.payload.data
  if 8 < payload.length then
    let r ← get1 payload 0
    let e ← get1 payload 1
    let m ← get1 payload 2
    let b ← get1 payload 3
    if r = 'R'.toNat ∧ e = 'E'.toNat ∧ m = 'M'.toNat ∧ b = 'B'.toNat then
      let b5 ← get1 payload 5
      let b6 ← get1 payload 6
      let b7 ← get1 payload 7
      let exp := b5 >>> 2
      let mantisa := ((b5 &&& 0x03) <<< 8 ||| b6) <<< 8 ||| b7
      return .ofNat mantisa <<< .ofNat exp
    else none
  else none

end ApplicationLayerFeeedbackField

/-! ## The search -/

section Search

variable {w : Nat} {b : UInt32}

/-- The shifted mask of `w` ones is whole as long as its last bit is below `2 ^ 32`. -/
theorem shiftedMask_of_le (hw : 0 < w) {i : Nat} (h : w + i ≤ 32) :
    shiftedMask (2 ^ w - 1) i = top w i := by
  have hpow : 2 ^ (w + i) ≤ 2 ^ 32 := Nat.pow_le_pow_right (by decide) h
  have htop := top_lt_pow w i
  rw [shiftedMask, Nat.mod_eq_of_lt (show i < 32 by omega), ← top, Nat.mod_eq_of_lt (by omega)]

/-- No shifted mask is above the last whole one: what is shifted out leaves `2 ^ 32 - 2 ^ i`. -/
theorem shiftedMask_le (hw : 0 < w) (h : w ≤ 32) (i : Nat) :
    shiftedMask (2 ^ w - 1) i ≤ top w (32 - w) := by
  have hlast := top_add w (32 - w)
  rw [show w + (32 - w) = 32 by omega] at hlast
  rw [shiftedMask, ← top]
  generalize hj : i % 32 = j
  have hlt : j < 32 := hj ▸ Nat.mod_lt i (by decide)
  rcases Nat.le_total j (32 - w) with hle | hle
  · exact (Nat.mod_le _ _).trans (top_le_top hle)
  · have hadd := top_add w j
    have hsplit : 2 ^ (w + j) = 2 ^ 32 * (2 ^ (w + j - 32) - 1) + 2 ^ 32 := by
      have hone : 1 ≤ 2 ^ (w + j - 32) := Nat.one_le_two_pow
      rw [← Nat.mul_succ, Nat.succ_eq_add_one, Nat.sub_add_cancel hone, ← pow_add]
      congr 1
      omega
    have hsmall : 2 ^ j < 2 ^ 32 := Nat.pow_lt_pow_right (by decide) hlt
    have hpow : 2 ^ (32 - w) ≤ 2 ^ j := Nat.pow_le_pow_right (by decide) hle
    have hpos : 0 < 2 ^ j := by positivity
    have hrest : top w j = 2 ^ 32 * (2 ^ (w + j - 32) - 1) + (2 ^ 32 - 2 ^ j) := by omega
    rw [hrest, Nat.mul_add_mod, Nat.mod_eq_of_lt (by omega)]
    omega

theorem isExp_searchExp (hw : 0 < w) (h : w ≤ 32) (hb : b.toNat ≤ top w (32 - w)) :
    IsExp w (searchExp (2 ^ w - 1) b).toNat b.toNat ∧
      w + (searchExp (2 ^ w - 1) b).toNat ≤ 32 := by
  have hex : ∃ i, b.toNat ≤ shiftedMask (2 ^ w - 1) i :=
    ⟨32 - w, by rwa [shiftedMask_of_le hw (by omega)]⟩
  have hfirst : Nat.find hex ≤ 32 - w :=
    Nat.find_min' hex (by rwa [shiftedMask_of_le hw (by omega)])
  have hfind : (List.range 64).find? (fun i => b.toNat ≤ shiftedMask (2 ^ w - 1) i) =
      some (Nat.find hex) := by
    rw [List.find?_range_eq_some]
    refine ⟨decide_eq_true (Nat.find_spec hex), List.mem_range.2 (by omega), fun k hk => ?_⟩
    simpa using Nat.find_min hex hk
  have hnat : (searchExp (2 ^ w - 1) b).toNat = Nat.find hex := by
    rw [searchExp, hfind, Option.getD_some, UInt8.toNat_ofNat', Nat.mod_eq_of_lt (by omega)]
  rw [hnat]
  refine ⟨⟨?_, fun k hk => ?_⟩, by omega⟩
  · rw [← shiftedMask_of_le hw (by omega)]
    exact Nat.find_spec hex
  · rw [← shiftedMask_of_le hw (by omega)]
    exact Nat.lt_of_not_le (Nat.find_min hex hk)

theorem searchExp_eq_zero (hw : 0 < w) (h : w ≤ 32) (hb : top w (32 - w) < b.toNat) :
    searchExp (2 ^ w - 1) b = 0 := by
  have hfind : (List.range 64).find? (fun i => b.toNat ≤ shiftedMask (2 ^ w - 1) i) = none := by
    rw [List.find?_eq_none]
    intro i _
    have := shiftedMask_le hw h i
    simp only [decide_eq_true_eq]
    omega
  rw [searchExp, hfind]
  rfl

end Search

/-! ## What is kept -/

/-- A way to store a bitrate: the bits of its mantissa, what is stored and the bitrate that is read
back from the bytes. -/
structure BitrateCode where
  bits : Nat
  exp : UInt32 → UInt8
  mantissa : UInt32 → UInt32
  received : UInt32 → Option UInt32

namespace BitrateCode

/-- The parts fit their fields, and the bitrate read back is less by less than a unit. -/
structure Fits (c : BitrateCode) (bitrate : UInt32) : Prop where
  exp_lt : (c.exp bitrate).toNat < 2 ^ 6
  mantissa_lt : (c.mantissa bitrate).toNat < 2 ^ c.bits
  received : ∃ d, c.received bitrate = some d ∧ d.toNat ≤ bitrate.toNat ∧
    bitrate.toNat < d.toNat + 2 ^ (c.exp bitrate).toNat

/-- Both bitrates fit, and the larger one is not read back as the smaller. -/
structure Keeps (c : BitrateCode) (a b : UInt32) : Prop where
  fst : c.Fits a
  snd : c.Fits b
  order : a.toNat ≤ b.toNat → ∀ d e, c.received a = some d → c.received b = some e →
    d.toNat ≤ e.toNat

/-- The parts are the ones the search finds, and are read back if they fit. -/
structure Searches (c : BitrateCode) : Prop where
  one_lt_bits : 1 < c.bits
  bits_le : c.bits ≤ 32
  exp_eq : ∀ b, c.exp b = searchExp (2 ^ c.bits - 1) b
  mantissa_eq : ∀ b, c.mantissa b = b >>> (c.exp b).toUInt32
  received_eq : ∀ b, (c.exp b).toNat < 2 ^ 6 → (c.mantissa b).toNat < 2 ^ c.bits →
    c.received b = some (c.mantissa b <<< (c.exp b).toUInt32)

namespace Searches

variable {c : BitrateCode} {a b : UInt32}

theorem isExp (h : c.Searches) (hb : b.toNat ≤ top c.bits (32 - c.bits)) :
    IsExp c.bits (c.exp b).toNat b.toNat ∧ c.bits + (c.exp b).toNat ≤ 32 := by
  rw [h.exp_eq]
  exact isExp_searchExp (Nat.lt_of_succ_lt h.one_lt_bits) h.bits_le hb

theorem toNat_mantissa (h : c.Searches) (hb : b.toNat ≤ top c.bits (32 - c.bits)) :
    (c.mantissa b).toNat = b.toNat / 2 ^ (c.exp b).toNat := by
  have hexp := (h.isExp hb).2
  have := h.one_lt_bits
  rw [h.mantissa_eq, UInt32.toNat_shiftRight, UInt8.toNat_toUInt32, Nat.shiftRight_eq_div_pow,
    Nat.mod_eq_of_lt (show (c.exp b).toNat < 32 by omega)]

theorem received_eq_trunc (h : c.Searches) (hb : b.toNat ≤ top c.bits (32 - c.bits)) :
    ∃ d, c.received b = some d ∧ d.toNat = trunc (c.exp b).toNat b.toNat := by
  obtain ⟨hexp, hle⟩ := h.isExp hb
  have hmantissa := h.toNat_mantissa hb
  have := h.one_lt_bits
  have htrunc := trunc_le (c.exp b).toNat b.toNat
  have hlt := b.toNat_lt
  refine ⟨_, h.received_eq b (by omega) (hmantissa ▸ hexp.div_lt), ?_⟩
  rw [UInt32.toNat_shiftLeft, UInt8.toNat_toUInt32, Nat.shiftLeft_eq, hmantissa,
    Nat.mod_eq_of_lt (show (c.exp b).toNat < 32 by omega), ← trunc, Nat.mod_eq_of_lt (by omega)]

theorem fits_iff (h : c.Searches) : c.Fits b ↔ b.toNat ≤ top c.bits (32 - c.bits) := by
  constructor
  · intro hfits
    by_contra hb
    have hw := Nat.lt_of_succ_lt h.one_lt_bits
    have hzero := searchExp_eq_zero hw h.bits_le (Nat.lt_of_not_le hb)
    have hlt := hfits.mantissa_lt
    rw [h.mantissa_eq, h.exp_eq, hzero, UInt32.toNat_shiftRight] at hlt
    have hmono := top_le_top (w := c.bits) (Nat.zero_le (32 - c.bits))
    have hadd := top_add c.bits 0
    simp at hlt hadd
    omega
  · intro hb
    obtain ⟨hexp, hle⟩ := h.isExp hb
    obtain ⟨d, hd, htrunc⟩ := h.received_eq_trunc hb
    refine ⟨by omega, ?_, d, hd, ?_, ?_⟩
    · rw [h.toNat_mantissa hb]
      exact hexp.div_lt
    · rw [htrunc]
      exact trunc_le _ _
    · rw [htrunc]
      exact lt_trunc_add _ _

theorem keeps_iff (h : c.Searches) :
    c.Keeps a b ↔ a.toNat ≤ top c.bits (32 - c.bits) ∧ b.toNat ≤ top c.bits (32 - c.bits) ∧
      ¬Gap c.bits a.toNat b.toNat := by
  constructor
  · intro hkeeps
    have ha := h.fits_iff.1 hkeeps.fst
    have hb := h.fits_iff.1 hkeeps.snd
    refine ⟨ha, hb, fun hgap => ?_⟩
    obtain ⟨d, hd, hda⟩ := h.received_eq_trunc ha
    obtain ⟨e, he, hdb⟩ := h.received_eq_trunc hb
    have hab : a.toNat ≤ b.toNat := by
      obtain ⟨i, -, hlt, -⟩ := hgap
      exact Nat.le_of_lt hlt
    have hle := hkeeps.order hab d e hd he
    rw [hda, hdb] at hle
    exact (trunc_le_trunc_iff h.one_lt_bits (h.isExp ha).1 (h.isExp hb).1 hab).1 hle hgap
  · rintro ⟨ha, hb, hgap⟩
    refine ⟨h.fits_iff.2 ha, h.fits_iff.2 hb, fun hab d e hd he => ?_⟩
    obtain ⟨d', hd', hda⟩ := h.received_eq_trunc ha
    obtain ⟨e', he', hdb⟩ := h.received_eq_trunc hb
    rw [hd] at hd'
    rw [he] at he'
    cases hd'
    cases he'
    rw [hda, hdb]
    exact (trunc_le_trunc_iff h.one_lt_bits (h.isExp ha).1 (h.isExp hb).1 hab).2 hgap

end Searches

end BitrateCode

/-! ## The request -/

namespace TempMaxMediaStreamBitrateField

/-- The request with its bitrate as the receiver reads it. -/
def bitrateCode (ssrc : UInt32) (overhead : UInt16) : BitrateCode where
  bits := 17
  exp bitrate := (ofBitrate ssrc bitrate overhead).maxTotalBitrateExp
  mantissa bitrate := (ofBitrate ssrc bitrate overhead).maxTotalBitrateMantissa
  received bitrate := do
    let f := ofBitrate ssrc bitrate overhead
    let parsed ← parse f.bytes f.getSize
    let (received, _) ← parsed
    return received.getBitrate

variable {ssrc : UInt32} {overhead : UInt16}

theorem searches_bitrateCode : (bitrateCode ssrc overhead).Searches where
  one_lt_bits := show 1 < 17 by decide
  bits_le := show 17 ≤ 32 by decide
  exp_eq _ := rfl
  mantissa_eq _ := rfl
  received_eq b hexp hmantissa := by
    have hparse := (ofBitrate ssrc b overhead).parse_bytes [] (Nat.le_refl _)
    rw [List.append_nil] at hparse
    change (ofBitrate ssrc b overhead).maxTotalBitrateExp.toNat < 2 ^ 6 at hexp
    change (ofBitrate ssrc b overhead).maxTotalBitrateMantissa.toNat < 2 ^ 17 at hmantissa
    simp only [bitrateCode, hparse, Option.bind_eq_bind, Option.bind_some, pure]
    have hself : (ofBitrate ssrc b overhead).onWire.getBitrate =
        (ofBitrate ssrc b overhead).getBitrate := by
      simp only [getBitrate, onWire]
      rw [Nat.mod_eq_of_lt hexp, Nat.mod_eq_of_lt hmantissa, UInt32.ofNat_toNat,
        UInt8.ofNat_toNat]
    rw [hself]
    rfl

end TempMaxMediaStreamBitrateField

/-! ## The estimate -/

namespace ApplicationLayerFeeedbackField

/-- The estimate with its bitrate as the receiver reads it. -/
def bitrateCode (ssrcs : List UInt32) : BitrateCode where
  bits := 18
  exp := bitrateExp
  mantissa := bitrateMantissa
  received bitrate := do
    let f ← createReceiverEstimatedMaxBitrate ssrcs bitrate
    let parsed ← parse f.bytes f.getSize
    let (received, _) ← parsed
    received.onReceiverEstimatedMaxBitrate

variable {ssrcs : List UInt32} {b : UInt32}

theorem length_remb : (remb ssrcs b).length = 8 + 4 * ssrcs.length := by
  have hsum : (ssrcs.flatMap fun ssrc => be4 ssrc.toNat).length = 4 * ssrcs.length := by
    induction ssrcs with
    | nil => rfl
    | cons ssrc ssrcs ih =>
      rw [List.flatMap_cons, List.length_append, length_be4, ih, List.length_cons]
      omega
  simp only [remb, List.length_append, length_be1, hsum]

theorem onReceiverEstimatedMaxBitrate_remb (h : (remb ssrcs b).length < 2 ^ 16)
    (hexp : (bitrateExp b).toNat < 2 ^ 6) (hmantissa : (bitrateMantissa b).toNat < 2 ^ 18) :
    onReceiverEstimatedMaxBitrate ⟨⟨remb ssrcs b, h⟩⟩ =
      if ssrcs = [] then none else some (bitrateMantissa b <<< (bitrateExp b).toUInt32) := by
  have hlen := @length_remb ssrcs b
  unfold onReceiverEstimatedMaxBitrate
  simp only
  rcases ssrcs with _ | ⟨ssrc, ssrcs⟩
  · rw [if_neg (by rw [hlen]; decide), if_pos rfl]
  · rw [List.length_cons] at hlen
    rw [if_pos (by omega), if_neg (List.cons_ne_nil _ _)]
    have hand (n : Nat) : n &&& 0x03 = n % 2 ^ 2 := Nat.and_two_pow_sub_one_eq_mod n 2
    have hr : get1 (remb (ssrc :: ssrcs) b) 0 = some 'R'.toNat := by
      simp [remb, get1_be1]
    have he : get1 (remb (ssrc :: ssrcs) b) 1 = some 'E'.toNat := by
      simp [remb, get1_append, get1_be1]
    have hm : get1 (remb (ssrc :: ssrcs) b) 2 = some 'M'.toNat := by
      simp [remb, get1_append, get1_be1]
    have hb : get1 (remb (ssrc :: ssrcs) b) 3 = some 'B'.toNat := by
      simp [remb, get1_append, get1_be1]
    have h5 : get1 (remb (ssrc :: ssrcs) b) 5 = some ((bitrateExp b).toNat * 2 ^ 2 +
        (bitrateMantissa b).toNat / 2 ^ 16) := by
      have hlt : (bitrateMantissa b).toNat / 2 ^ 16 < 2 ^ 2 := by omega
      have hbyte : (bitrateExp b).toNat * 2 ^ 2 + (bitrateMantissa b).toNat / 2 ^ 16 < 2 ^ 8 := by
        omega
      rw [remb, hand, Nat.shiftRight_eq_div_pow, Nat.mod_eq_of_lt hlt, shiftLeft_or_of_lt hlt]
      simp [get1_append, get1_be1]
      omega
    have h6 : get1 (remb (ssrc :: ssrcs) b) 6 =
        some ((bitrateMantissa b).toNat / 2 ^ 8 % 2 ^ 8) := by
      simp [remb, get1_append, get1_be1, Nat.shiftRight_eq_div_pow]
    have h7 : get1 (remb (ssrc :: ssrcs) b) 7 = some ((bitrateMantissa b).toNat % 2 ^ 8) := by
      simp [remb, get1_append, get1_be1]
    rw [hr, he, hm, hb, h5, h6, h7]
    simp only [Option.bind_eq_bind, Option.bind_some, hand, Nat.shiftRight_eq_div_pow, pure,
      and_self, if_true]
    have hhigh : ((bitrateExp b).toNat * 2 ^ 2 + (bitrateMantissa b).toNat / 2 ^ 16) % 2 ^ 2 =
        (bitrateMantissa b).toNat / 2 ^ 16 := by omega
    have hshift : ((bitrateExp b).toNat * 2 ^ 2 + (bitrateMantissa b).toNat / 2 ^ 16) / 2 ^ 2 =
        (bitrateExp b).toNat := by omega
    have hall : ((bitrateMantissa b).toNat / 2 ^ 16 * 2 ^ 8 +
        (bitrateMantissa b).toNat / 2 ^ 8 % 2 ^ 8) * 2 ^ 8 + (bitrateMantissa b).toNat % 2 ^ 8 =
        (bitrateMantissa b).toNat := by omega
    rw [hhigh, hshift, shiftLeft_or_of_lt (Nat.mod_lt _ (by decide)),
      shiftLeft_or_of_lt (Nat.mod_lt _ (by decide)), hall, UInt32.ofNat_toNat]
    have hexp' : UInt32.ofNat (bitrateExp b).toNat = (bitrateExp b).toUInt32 :=
      UInt32.toNat.inj (by simp)
    rw [hexp']

theorem parse_bytes_remb (h : (remb ssrcs b).length < 2 ^ 16) :
    parse (bytes ⟨⟨remb ssrcs b, h⟩⟩) (getSize ⟨⟨remb ssrcs b, h⟩⟩) =
      some (some (⟨⟨remb ssrcs b, h⟩⟩, getSize ⟨⟨remb ssrcs b, h⟩⟩)) := by
  refine parse_bytes _ ?_
  change (remb ssrcs b).length % 4 = 0
  rw [length_remb]
  omega

theorem searches_bitrateCode (hne : ssrcs ≠ []) (hlen : 8 + 4 * ssrcs.length < 2 ^ 16) :
    (bitrateCode ssrcs).Searches where
  one_lt_bits := show 1 < 18 by decide
  bits_le := show 18 ≤ 32 by decide
  exp_eq _ := rfl
  mantissa_eq _ := rfl
  received_eq b hexp hmantissa := by
    have hlength : (remb ssrcs b).length < 2 ^ 16 := by rwa [length_remb]
    simp only [bitrateCode, createReceiverEstimatedMaxBitrate, dif_pos hlength,
      parse_bytes_remb hlength, Option.bind_eq_bind, Option.bind_some]
    rw [onReceiverEstimatedMaxBitrate_remb hlength hexp hmantissa, if_neg hne]

theorem not_fits_bitrateCode (h : ¬(ssrcs ≠ [] ∧ 8 + 4 * ssrcs.length < 2 ^ 16)) :
    ¬(bitrateCode ssrcs).Fits b := by
  rintro ⟨hexp, hmantissa, d, hd, -⟩
  by_cases hlen : 8 + 4 * ssrcs.length < 2 ^ 16
  · obtain rfl : ssrcs = [] := by
      by_contra hne
      exact h ⟨hne, hlen⟩
    have hlength : (remb [] b).length < 2 ^ 16 := by rwa [length_remb]
    simp only [bitrateCode, createReceiverEstimatedMaxBitrate, dif_pos hlength,
      parse_bytes_remb hlength, Option.bind_eq_bind, Option.bind_some] at hd
    rw [onReceiverEstimatedMaxBitrate_remb hlength hexp hmantissa, if_pos rfl] at hd
    cases hd
  · have hlength : ¬(remb ssrcs b).length < 2 ^ 16 := by rwa [length_remb]
    simp only [bitrateCode, createReceiverEstimatedMaxBitrate, dif_neg hlength,
      Option.bind_eq_bind, Option.bind_none] at hd
    cases hd

end ApplicationLayerFeeedbackField

/-! ## Both -/

/-- The request and the estimate keep both bitrates and their order. -/
structure BitratesKept (ssrc : UInt32) (overhead : UInt16) (ssrcs : List UInt32)
    (a b : UInt32) : Prop where
  request : (TempMaxMediaStreamBitrateField.bitrateCode ssrc overhead).Keeps a b
  estimate : (ApplicationLayerFeeedbackField.bitrateCode ssrcs).Keeps a b

/-- The bitrates are not above the last whole mask, the second is not in the gap behind the first,
and the estimate is for some streams that its length can say. -/
structure Storable (ssrcs : List UInt32) (a b : UInt32) : Prop where
  fst_le : a ≤ 0xFFFF8000
  snd_le : b ≤ 0xFFFF8000
  not_gap : ¬Gap 17 a.toNat b.toNat ∧ ¬Gap 18 a.toNat b.toNat
  streams : ssrcs ≠ [] ∧ 8 + 4 * ssrcs.length < 2 ^ 16

/-- **Bitrates.** -/
theorem bitratesKept_iff_storable (ssrc : UInt32) (overhead : UInt16) (ssrcs : List UInt32)
    (a b : UInt32) : BitratesKept ssrc overhead ssrcs a b ↔ Storable ssrcs a b := by
  have hrequest := @TempMaxMediaStreamBitrateField.searches_bitrateCode ssrc overhead
  have htop : top 17 (32 - 17) = 0xFFFF8000 := by decide
  have htop' : top 18 (32 - 18) = 0xFFFFC000 := by decide
  have hle (n : UInt32) : n ≤ 0xFFFF8000 ↔ n.toNat ≤ 0xFFFF8000 := UInt32.le_iff_toNat_le
  constructor
  · rintro ⟨hreq, hest⟩
    have hstreams : ssrcs ≠ [] ∧ 8 + 4 * ssrcs.length < 2 ^ 16 := by
      by_contra h
      exact ApplicationLayerFeeedbackField.not_fits_bitrateCode h hest.fst
    have hestimate := ApplicationLayerFeeedbackField.searches_bitrateCode hstreams.1 hstreams.2
    obtain ⟨ha, hb, hgap⟩ := hrequest.keeps_iff.1 hreq
    obtain ⟨-, -, hgap'⟩ := hestimate.keeps_iff.1 hest
    exact ⟨(hle a).2 (htop ▸ ha), (hle b).2 (htop ▸ hb), ⟨hgap, hgap'⟩, hstreams⟩
  · rintro ⟨ha, hb, ⟨hgap, hgap'⟩, hstreams⟩
    have hestimate := ApplicationLayerFeeedbackField.searches_bitrateCode hstreams.1 hstreams.2
    have ha' := (hle a).1 ha
    have hb' := (hle b).1 hb
    refine ⟨hrequest.keeps_iff.2 ⟨htop ▸ ha', htop ▸ hb', hgap⟩, hestimate.keeps_iff.2 ⟨?_, ?_, hgap'⟩⟩
    · exact htop' ▸ ha'.trans (by omega)
    · exact htop' ▸ hb'.trans (by omega)

/-- The request for 262143 is read back as less than the one for 262142. -/
theorem not_bitratesKept_order : ¬BitratesKept 1 0 [1] 262142 262143 := by
  intro h
  have hle := h.request.order (by decide) 262142 262140 (by rfl) (by rfl)
  exact absurd hle (by decide)

end McuMediaServer
