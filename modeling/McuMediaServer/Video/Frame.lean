import McuMediaServer.Base.Writer

/-!
# Video frames

A frame is a buffer that grows as media is appended, with notes on how the media came in RTP
packets: a slice of the frame for each packet, and a prefix of at most 16 bytes in front of it. An
operation has no value when it writes outside the buffer or outside the prefix of a note.
-/

namespace McuMediaServer

open ByteSeq ByteWriter

/-- The payload of an RTP packet, which is in the packet's buffer of 1700 bytes behind the 12 bytes
of the header. Reference: `rtp.h:249` and `rtp.h:387`. -/
structure RTPPayload where
  data : List UInt8
  length_le : data.length ≤ 1700 - 12

theorem RTPPayload.length_lt (payload : RTPPayload) : payload.data.length < 2 ^ 31 :=
  Nat.lt_of_le_of_lt payload.length_le (by decide)

/-- How a packet is made of a prefix and a slice of the frame. Reference: `media.h:22`. -/
structure RtpPacketization where
  pos : Nat
  size : Nat
  prefixData : List UInt8
  prefixLen_le : prefixData.length ≤ 16

namespace RtpPacketization

/-- The prefix is copied into an array of 16 bytes. Reference: `media.h:25`. -/
def new (pos size : Nat) (prefixData : List UInt8) : Option RtpPacketization :=
  if h : prefixData.length ≤ 16 then some ⟨pos, size, prefixData, h⟩ else none

/-- Reference: `media.h:41`. -/
def getTotalLength (rtp : RtpPacketization) : Nat :=
  (rtp.size + rtp.prefixData.length) % 2 ^ 32

end RtpPacketization

/-- A frame: what has been allocated, how much of it is media, the notes on packets and whether the
frame is intra coded. Reference: `media.h:97` and `video.h:59`. -/
structure VideoFrame where
  buffer : List UInt8
  length : Nat
  rtpInfo : List RtpPacketization
  isIntra : Bool

namespace VideoFrame

/-- A frame of `size` bytes. Reference: `media.h:70`. -/
def new (size : Nat) : VideoFrame := ⟨List.replicate size 0, 0, [], false⟩

variable (f : VideoFrame)

/-- The buffer is given another size; what it holds is kept as far as there is room. Reference:
`media.h:153`. -/
def alloc (size : Nat) : VideoFrame :=
  { f with buffer := f.buffer.take size ++ List.replicate (size - f.buffer.length) 0 }

/-- Reference: `media.h:173`. -/
def appendMedia (data : List UInt8) : Option VideoFrame := do
  let needed := (data.length + f.length) % 2 ^ 32
  let f := if f.buffer.length < needed then f.alloc (needed * 3 % 2 ^ 32 / 2) else f
  let buffer ← putAt f.length data f.buffer
  return { f with buffer := buffer, length := (f.length + data.length) % 2 ^ 32 }

/-- Reference: `media.h:126`. -/
def addRtpPacket (pos size : Nat) (prefixData : List UInt8) : Option VideoFrame := do
  let rtp ← RtpPacketization.new pos size prefixData
  return { f with rtpInfo := f.rtpInfo ++ [rtp] }

/-- Reference: `video.h:57`. -/
def setIntra : VideoFrame := { f with isIntra := true }

/-- The media of the frame. -/
def media : List UInt8 := f.buffer.take f.length

/-- The media is inside the buffer, and the size of the buffer is a `DWORD`. -/
structure Inv : Prop where
  length_le : f.length ≤ f.buffer.length
  size_lt : f.buffer.length < 2 ^ 32

/-- The size of the buffer once `needed` bytes of media are in it. -/
def grown (room needed : Nat) : Nat := if needed ≤ room then room else 3 * needed / 2

/-- There is room for pieces of media, or the buffer can be enlarged where there is none: three
times the new length has to be a `DWORD`. -/
def CanAppend : (room length : Nat) → List (List UInt8) → Prop
  | _, _, [] => True
  | room, length, piece :: pieces =>
    (length + piece.length ≤ room ∨ 3 * (length + piece.length) < 2 ^ 32) ∧
      CanAppend (grown room (length + piece.length)) (length + piece.length) pieces

/-- The size of the buffer once pieces of media are in it. -/
def roomAfter : (room length : Nat) → List (List UInt8) → Nat
  | room, _, [] => room
  | room, length, piece :: pieces =>
    roomAfter (grown room (length + piece.length)) (length + piece.length) pieces

instance decidableCanAppend : ∀ room length pieces, Decidable (CanAppend room length pieces)
  | _, _, [] => isTrue trivial
  | room, length, piece :: pieces =>
    have := decidableCanAppend (grown room (length + piece.length)) (length + piece.length) pieces
    inferInstanceAs (Decidable (_ ∧ _))

section Room

variable {room length : Nat}

theorem canAppend_append (xs ys : List (List UInt8)) :
    CanAppend room length (xs ++ ys) ↔ CanAppend room length xs ∧
      CanAppend (roomAfter room length xs) (length + xs.flatten.length) ys := by
  induction xs generalizing room length with
  | nil => simp [CanAppend, roomAfter]
  | cons x xs ih =>
    rw [List.cons_append, CanAppend, CanAppend, roomAfter, ih, and_assoc, List.flatten_cons,
      List.length_append, Nat.add_assoc]

theorem roomAfter_append (xs ys : List (List UInt8)) :
    roomAfter room length (xs ++ ys) =
      roomAfter (roomAfter room length xs) (length + xs.flatten.length) ys := by
  induction xs generalizing room length with
  | nil => simp [roomAfter]
  | cons x xs ih =>
    rw [List.cons_append, roomAfter, roomAfter, ih, List.flatten_cons, List.length_append,
      Nat.add_assoc]

theorem le_roomAfter (pieces : List (List UInt8)) : room ≤ roomAfter room length pieces := by
  induction pieces generalizing room length with
  | nil => exact Nat.le_refl _
  | cons piece pieces ih =>
    refine Nat.le_trans ?_ ih
    rw [grown]
    split <;> omega

/-- A frame that stays below a third of what a `DWORD` can count always has room. -/
theorem canAppend_of_lt {pieces : List (List UInt8)}
    (h : 3 * (length + pieces.flatten.length) < 2 ^ 32) : CanAppend room length pieces := by
  induction pieces generalizing room length with
  | nil => trivial
  | cons piece pieces ih =>
    rw [List.flatten_cons, List.length_append] at h
    exact ⟨.inr (by omega), ih (by omega)⟩

end Room

section Lemmas

variable {f} {data : List UInt8}

theorem Inv.setIntra (h : f.Inv) : f.setIntra.Inv := ⟨h.length_le, h.size_lt⟩

theorem Inv.length_media (h : f.Inv) : f.media.length = f.length := by
  rw [media, List.length_take, Nat.min_eq_left h.length_le]

/-- What appending pieces of media and noting packets does to a frame. -/
structure Appended (f f' : VideoFrame) (pieces : List (List UInt8))
    (notes : List RtpPacketization) : Prop where
  inv : f'.Inv
  media : f'.media = f.media ++ pieces.flatten
  length : f'.length = f.length + pieces.flatten.length
  room : f'.buffer.length = roomAfter f.buffer.length f.length pieces
  rtpInfo : f'.rtpInfo = f.rtpInfo ++ notes

namespace Appended

variable {f' f'' : VideoFrame} {pieces others : List (List UInt8)}
  {notes others' : List RtpPacketization}

theorem refl (h : f.Inv) : Appended f f [] [] :=
  ⟨h, by rw [List.flatten_nil, List.append_nil], rfl, rfl, (List.append_nil _).symm⟩

theorem trans (h : Appended f f' pieces notes) (h' : Appended f' f'' others others') :
    Appended f f'' (pieces ++ others) (notes ++ others') := by
  refine ⟨h'.inv, ?_, ?_, ?_, ?_⟩
  · rw [h'.media, h.media, List.flatten_append, List.append_assoc]
  · rw [h'.length, h.length, List.flatten_append, List.length_append, Nat.add_assoc]
  · rw [h'.room, h.room, h.length, roomAfter_append]
  · rw [h'.rtpInfo, h.rtpInfo, List.append_assoc]

theorem canAppend (h : Appended f f' pieces notes) :
    CanAppend f.buffer.length f.length (pieces ++ others) ↔
      CanAppend f.buffer.length f.length pieces ∧
        CanAppend f'.buffer.length f'.length others := by
  rw [canAppend_append, h.room, h.length]

theorem setIntra_left (h : Appended f.setIntra f' pieces notes) : Appended f f' pieces notes :=
  ⟨h.inv, h.media, h.length, h.room, h.rtpInfo⟩

theorem le_room (h : Appended f f' pieces notes) : f.buffer.length ≤ f'.buffer.length := by
  rw [h.room]
  exact le_roomAfter pieces

end Appended

theorem appended_of_addRtpPacket (h : f.Inv) {f' : VideoFrame} {pos size : Nat}
    {prefixData : List UInt8} (hadd : f.addRtpPacket pos size prefixData = some f') :
    ∃ hle, Appended f f' [] [⟨pos, size, prefixData, hle⟩] := by
  rw [addRtpPacket, RtpPacketization.new] at hadd
  by_cases hle : prefixData.length ≤ 16
  · rw [dif_pos hle] at hadd
    obtain rfl := Option.some.inj hadd
    exact ⟨hle, ⟨h.length_le, h.size_lt⟩, by simp [media], rfl, rfl, rfl⟩
  · rw [dif_neg hle] at hadd
    cases hadd

theorem isSome_addRtpPacket {pos size : Nat} {prefixData : List UInt8} :
    (f.addRtpPacket pos size prefixData).isSome ↔ prefixData.length ≤ 16 := by
  rw [addRtpPacket, RtpPacketization.new]
  by_cases hle : prefixData.length ≤ 16
  · rw [dif_pos hle]
    exact iff_of_true rfl hle
  · rw [dif_neg hle]
    exact iff_of_false (by simp) hle

theorem alloc_length (size : Nat) : (f.alloc size).length = f.length := rfl

@[simp]
theorem length_alloc (size : Nat) : (f.alloc size).buffer.length = size := by
  rw [alloc, List.length_append, List.length_take, List.length_replicate]
  omega

theorem take_alloc {n size : Nat} (hn : n ≤ f.buffer.length) (hsize : n ≤ size) :
    (f.alloc size).buffer.take n = f.buffer.take n := by
  rw [alloc, List.take_append_of_le_length (by rw [List.length_take]; omega), List.take_take,
    Nat.min_eq_left hsize]

theorem appended_of_putAt {f f₀ : VideoFrame} {buffer : List UInt8}
    (hbuffer : f₀.buffer.take f.length = f.buffer.take f.length)
    (hroom : f₀.buffer.length = grown f.buffer.length (f.length + data.length))
    (hlt : f₀.buffer.length < 2 ^ 32) (hle : f.length + data.length ≤ f₀.buffer.length)
    (hput : putAt f.length data f₀.buffer = some buffer) :
    Appended f { f with buffer := buffer, length := (f.length + data.length) % 2 ^ 32 }
      [data] [] := by
  have hlength := length_of_putAt hput
  have hmod : (f.length + data.length) % 2 ^ 32 = f.length + data.length :=
    Nat.mod_eq_of_lt (by omega)
  refine ⟨⟨?_, ?_⟩, ?_, ?_, ?_, (List.append_nil _).symm⟩
  · simp only [hmod, hlength]
    exact hle
  · simp only [hlength]
    exact hlt
  · have hlen : (f₀.buffer.take f.length ++ data).length = f.length + data.length := by
      rw [List.length_append, List.length_take, Nat.min_eq_left (by omega)]
    rw [putAt_eq_some hle] at hput
    obtain rfl := Option.some.inj hput
    simp only [media, hmod, List.flatten_cons, List.flatten_nil, List.append_nil]
    rw [List.take_left' hlen, hbuffer]
  · rw [List.flatten_singleton]
    exact hmod
  · simp only [hlength, hroom, roomAfter]

theorem appendMedia_appended (h : f.Inv) (hroom : f.length + data.length ≤ f.buffer.length ∨
    3 * (f.length + data.length) < 2 ^ 32) :
    ∃ f', f.appendMedia data = some f' ∧ Appended f f' [data] [] := by
  obtain ⟨hle, hlt⟩ := h
  have hneeded : (data.length + f.length) % 2 ^ 32 = f.length + data.length := by
    rw [Nat.mod_eq_of_lt (by omega), Nat.add_comm]
  rw [appendMedia, hneeded]
  by_cases hfits : f.length + data.length ≤ f.buffer.length
  · rw [if_neg (Nat.not_lt.2 hfits)]
    have hput := putAt_eq_some hfits
    refine ⟨_, by rw [hput]; rfl, ?_⟩
    exact appended_of_putAt rfl (if_pos hfits).symm hlt hfits hput
  · have hsize : (f.length + data.length) * 3 % 2 ^ 32 / 2 = 3 * (f.length + data.length) / 2 := by
      rw [Nat.mod_eq_of_lt (by omega), Nat.mul_comm]
    rw [if_pos (Nat.lt_of_not_le hfits), hsize]
    have hput := @putAt_eq_some f.length data (f.alloc (3 * (f.length + data.length) / 2)).buffer
      (by rw [length_alloc]; omega)
    refine ⟨_, by rw [alloc_length, hput]; rfl, ?_⟩
    exact appended_of_putAt (take_alloc hle (by omega))
      (by rw [length_alloc, grown, if_neg hfits]) (by rw [length_alloc]; omega)
      (by rw [length_alloc]; omega) hput

theorem room_of_appendMedia (h : f.Inv) (hdata : data.length < 2 ^ 31)
    (hsome : (f.appendMedia data).isSome) :
    f.length + data.length ≤ f.buffer.length ∨ 3 * (f.length + data.length) < 2 ^ 32 := by
  obtain ⟨hle, hlt⟩ := h
  have hfits {buffer : List UInt8} (h : (putAt f.length data buffer).isSome) :
      f.length + data.length ≤ buffer.length := by
    by_contra hno
    rw [putAt, if_neg hno] at h
    cases h
  by_contra hno
  rw [not_or] at hno
  rw [appendMedia] at hsome
  by_cases hneeded : f.buffer.length < (data.length + f.length) % 2 ^ 32
  · rw [if_pos hneeded] at hsome
    have hroom := hfits (isSome_of_bind hsome)
    have hsum : data.length + f.length < 2 ^ 32 := by omega
    rw [length_alloc, Nat.mod_eq_of_lt hsum] at hroom
    have hwraps := Nat.mod_add_div ((data.length + f.length) * 3) (2 ^ 32)
    have hturns : 0 < (data.length + f.length) * 3 / 2 ^ 32 := Nat.div_pos (by omega) (by omega)
    omega
  · rw [if_neg hneeded] at hsome
    have hroom := hfits (isSome_of_bind hsome)
    omega

theorem isSome_appendMedia (h : f.Inv) (hdata : data.length < 2 ^ 31) :
    (f.appendMedia data).isSome ↔ CanAppend f.buffer.length f.length [data] := by
  constructor
  · intro hsome
    exact ⟨room_of_appendMedia h hdata hsome, trivial⟩
  · intro hcan
    obtain ⟨f', hf', -⟩ := appendMedia_appended h hcan.1
    rw [hf']
    rfl

theorem appended_of_appendMedia (h : f.Inv) (hdata : data.length < 2 ^ 31) {f' : VideoFrame}
    (happend : f.appendMedia data = some f') : Appended f f' [data] [] := by
  have hroom := room_of_appendMedia h hdata (by rw [happend]; rfl)
  obtain ⟨f₀, hf₀, happended⟩ := appendMedia_appended h hroom
  obtain rfl := Option.some.inj (happend.symm.trans hf₀)
  exact happended

theorem isSome_appendMedia_bind {α : Type} {g : VideoFrame → Option α} {C : Prop}
    {others : List (List UInt8)} (h : f.Inv) (hdata : data.length < 2 ^ 31)
    (hg : ∀ f', Appended f f' [data] [] →
      ((g f').isSome ↔ CanAppend f'.buffer.length f'.length others ∧ C)) :
    (f.appendMedia data >>= g).isSome ↔
      CanAppend f.buffer.length f.length (data :: others) ∧ C := by
  cases happend : f.appendMedia data with
  | none =>
    have hno : ¬ CanAppend f.buffer.length f.length [data] := by
      rw [← isSome_appendMedia h hdata, happend]
      simp
    refine iff_of_false (by simp) ?_
    intro hcan
    exact hno ((canAppend_append [data] others).1 hcan.1).1
  | some f' =>
    have happended := appended_of_appendMedia h hdata happend
    have hcan := (isSome_appendMedia h hdata).1 (by rw [happend]; rfl)
    rw [Option.bind_eq_bind, Option.bind_some, hg f' happended, ← List.singleton_append,
      happended.canAppend, and_iff_right hcan]

end Lemmas

end VideoFrame

end McuMediaServer
