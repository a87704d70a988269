import McuMediaServer.Text.Receivers

/-!
# Text from metadata

`MediaBridgeSession::onMetaData` sends the text of a message on as a packet of text. The size that
it gives for the payload is that of the text in UTF-8, the bytes are those of the wide characters.
`bridges_iff` says for which messages this makes no difference, and what happens to messages that do
not have the two strings that they are read for.
-/

namespace McuMediaServer

open ByteSeq
open Amf (WString AMFData UTF8Parser utf8Size encode encodeChar charSize lastCodePoint)

namespace MediaBridgeSession

/-- Reference: `codecs.h:94`. -/
def codecT140 : UInt32 := 106

/-- The media that a packet has room for. Reference: `rtp.h:246`. -/
def maxMediaLength : Nat := 1700 - 12

/-- The bytes of a wide character in memory. -/
def wcharBytes (w : Nat) : List UInt8 :=
  [.ofNat w, .ofNat (w / 2 ^ 8), .ofNat (w / 2 ^ 16), .ofNat (w / 2 ^ 24)]

/-- A string in memory, with the null character behind it. Reference: `amf.cpp:853`, `GetWChar`. -/
def getWChar (s : WString) : List UInt8 := (s ++ [0]).flatMap wcharBytes

/-- The size that a string has been announced with. Reference: `amf.cpp:858`. -/
def getUTF8Size (s : WString) : Nat := utf8Size s % 2 ^ 16

/-- A parameter is taken for a string, whatever it is: there is no value when it is not one, or
when it is missing. Reference: `rtmpmessage.cpp:718`, `GetParams`. -/
def getString (message : RTMPMetaData) (i : Nat) : Option WString :=
  match message.params[i]? with
  | some (.string value) => some value
  | _ => none

/-- Reference: `mediabridgesession.cpp:1283`. -/
def textPacket (now : UInt32) (payload : List UInt8) : RTPPacket :=
  { ssrc := 0, type := 106, mark := false, seqNum := 0, timestamp := now, codec := codecT140
    payload }

/-- The packet that is sent for a message, or none. There is no value when a parameter is not a
string, bytes outside of a string are read, or the payload does not fit, for the length of the
packet is then not set. Reference: `mediabridgesession.cpp:1271`. -/
def onMetaData (sendingText : Bool) (now : UInt32) (publishedMetaData : RTMPMetaData) :
    Option (Option RTPPacket) :=
  if sendingText then do
    let name ← getString publishedMetaData 0
    if name = onText then do
      let str ← getString publishedMetaData 1
      if maxMediaLength < getUTF8Size str then none
      else do
        let payload ← slice (getWChar str) 0 (getUTF8Size str)
        return some (textPacket now payload)
    else
      return none
  else
    some none

/-- A Unicode code point other than a surrogate. -/
def CodePoint (w : Nat) : Prop := w ≤ lastCodePoint ∧ ¬(0xd800 ≤ w ∧ w ≤ 0xdfff)

/-- The packet carries the text, and whoever receives it sends the same text on. -/
def Carries (packet : RTPPacket) (s : WString) : Prop :=
  packet.payload = encode s ∧
    ∀ (behind : RTPPacket → Nat → UInt8) (clock : RTPPacket → Nat → QWORD) (lastSeq : Nat)
      (rtp : RTPPacket) (hcodec : rtp.codec ≠ codecT140RED), rtp.payload = packet.payload →
        (recText behind clock lastSeq (.plain rtp hcodec)).2.filterMap (·.text?) = [s]

/-- What is asked of a message: a text that fits a packet is carried by the packet that is sent, and
a message without the strings it is read for is ignored. -/
structure Bridges (sendingText : Bool) (message : RTMPMetaData) : Prop where
  carries : sendingText → ∀ s, getString message 0 = some onText → getString message 1 = some s →
    (∀ w ∈ s, CodePoint w) → utf8Size s ≤ maxMediaLength → ∀ now, ∃ packet,
      onMetaData sendingText now message = some (some packet) ∧ Carries packet s
  ignores : (getString message 0 = none ∨ getString message 0 = some onText ∧ getString message 1 = none) →
    ∀ now, onMetaData sendingText now message = some none

/-- An ASCII character other than the null character, or no character at all. -/
def Short (s : WString) : Prop := s.length ≤ 1 ∧ ∀ w ∈ s, 0 < w ∧ w ≤ 0x7f

/-- The strings that a message is read for are there, and the second one is short. -/
def Bridgeable (message : RTMPMetaData) : Prop :=
  ∃ name, getString message 0 = some name ∧ (name = onText → ∃ s, getString message 1 = some s ∧
    ((∀ w ∈ s, CodePoint w) → utf8Size s ≤ maxMediaLength → Short s))

section Bridge

variable {s : WString} {w : Nat} {message : RTMPMetaData}

theorem length_getWChar (s : WString) : (getWChar s).length = 4 * s.length + 4 := by
  induction s with
  | nil => rfl
  | cons w s ih =>
    have hcons : getWChar (w :: s) = wcharBytes w ++ getWChar s := rfl
    rw [hcons, List.length_append, ih, List.length_cons]
    change 4 + _ = _
    omega

theorem utf8Size_le_length (s : WString) : utf8Size s ≤ 4 * s.length := by
  induction s with
  | nil => exact Nat.le_refl _
  | cons w s ih =>
    have hle : charSize w ≤ 4 := by
      unfold charSize
      split_ifs <;> decide
    rw [Amf.utf8Size_cons, List.length_cons]
    omega

theorem onMetaData_text {now : UInt32} (hname : getString message 0 = some onText)
    (hstr : getString message 1 = some s) (hfits : utf8Size s ≤ maxMediaLength) :
    ∃ packet, onMetaData true now message = some (some packet) ∧
      packet.payload = (getWChar s).take (utf8Size s) := by
  have hsize : getUTF8Size s = utf8Size s := by
    rw [maxMediaLength] at hfits
    exact Nat.mod_eq_of_lt (by omega)
  have hslice : slice (getWChar s) 0 (utf8Size s) = some ((getWChar s).take (utf8Size s)) := by
    have hle := utf8Size_le_length s
    rw [slice, if_pos (by rw [length_getWChar]; omega), List.drop_zero]
  refine ⟨textPacket now ((getWChar s).take (utf8Size s)), ?_, rfl⟩
  rw [onMetaData, if_pos rfl, hname, Option.bind_eq_bind, Option.bind_some, if_pos rfl, hstr,
    Option.bind_some, hsize, if_neg (Nat.not_lt.2 hfits), hslice]
  rfl

theorem recText_encode (hs : ∀ w ∈ s, CodePoint w)
    {behind : RTPPacket → Nat → UInt8} {clock : RTPPacket → Nat → QWORD} {lastSeq : Nat}
    {rtp : RTPPacket} (hcodec : rtp.codec ≠ codecT140RED) (hpayload : rtp.payload = encode s) :
    (recText behind clock lastSeq (.plain rtp hcodec)).2.filterMap (·.text?) =
      [s.takeWhile (· ≠ 0)] := by
  have hlast : ∀ w ∈ s, w ≤ lastCodePoint := fun w hw => (hs w hw).1
  obtain ⟨p, hparse, -, hvalue⟩ := UTF8Parser.parse_encode hlast []
  rw [List.append_nil, ← Amf.length_encode hlast] at hparse
  change List.filterMap _ (List.mapIdx (fun i frame => TextFrame.toMetaData (clock _ i) frame)
    [TextFrame.ofBytes 0 rtp.payload]) = _
  rw [filterMap_text?_mapIdx, List.map_singleton, hpayload, TextFrame.getWChar, TextFrame.ofBytes,
    hparse, hvalue]

theorem exists_encodeChar (hpos : 0 < w) (hw : w ≤ lastCodePoint) :
    ∃ byte rest, encodeChar w = byte :: rest ∧ byte ≠ 0 := by
  have hne {n : Nat} (hn : 0 < n) (hlt : n < 256) : UInt8.ofNat n ≠ 0 := by
    intro hzero
    have htoNat := congrArg UInt8.toNat hzero
    rw [UInt8.toNat_ofNat', UInt8.toNat_zero] at htoNat
    omega
  unfold encodeChar
  split_ifs
  · exact ⟨_, _, rfl, hne hpos (by omega)⟩
  · exact ⟨_, _, rfl, hne (by omega) (by omega)⟩
  · exact ⟨_, _, rfl, hne (by omega) (by omega)⟩
  · exact ⟨_, _, rfl, hne (by omega) (by omega)⟩

theorem short_of_take (hs : ∀ w ∈ s, CodePoint w) (hpos : ∀ w ∈ s, 0 < w)
    (h : (getWChar s).take (utf8Size s) = encode s) : Short s := by
  cases s with
  | nil => exact ⟨Nat.zero_le _, by simp⟩
  | cons w s =>
    have hw := hpos w List.mem_cons_self
    have hlast : w ≤ 0x10ffff := (hs w List.mem_cons_self).1
    have hcons : getWChar (w :: s) = wcharBytes w ++ getWChar s := rfl
    rw [hcons, encode, List.flatMap_cons, ← encode, Amf.utf8Size_cons] at h
    have hbyte (k : Nat) (hk : k < charSize w + utf8Size s) :
        (wcharBytes w ++ getWChar s)[k]? = (encodeChar w ++ encode s)[k]? := by
      rw [← h, List.getElem?_take_of_lt hk]
    have hne {n m : Nat} (hm : m < 2 ^ 7) (heq : UInt8.ofNat m = .ofNat (0x80 + n % 2 ^ 6)) :
        False := by
      have htoNat := congrArg UInt8.toNat heq
      rw [UInt8.toNat_ofNat', UInt8.toNat_ofNat'] at htoNat
      omega
    unfold charSize encodeChar at hbyte
    split_ifs at hbyte with h1 h2 h3
    · -- Behind an ASCII character there are null bytes, which begin no other character.
      cases s with
      | nil => exact ⟨Nat.le_refl _, by simpa using ⟨hw, h1⟩⟩
      | cons v s =>
        have hv : v ∈ w :: v :: s := List.mem_cons_of_mem _ List.mem_cons_self
        obtain ⟨byte, rest, hencode, hnull⟩ := exists_encodeChar (hpos v hv) (hs v hv).1
        have hsize := Amf.charSize_pos v
        have hsecond := hbyte 1 (by rw [Amf.utf8Size_cons]; omega)
        rw [encode, List.flatMap_cons, hencode] at hsecond
        have hzero : UInt8.ofNat (w / 2 ^ 8) = byte := Option.some.inj hsecond
        rw [Nat.div_eq_of_lt (by omega)] at hzero
        exact absurd hzero.symm hnull
    · have hsecond := Option.some.inj (hbyte 1 (by omega))
      exact absurd hsecond fun heq => hne (by omega) heq
    · have hthird := Option.some.inj (hbyte 2 (by omega))
      exact absurd hthird fun heq => hne (by omega) heq
    · have hfourth := Option.some.inj (hbyte 3 (by omega))
      exact absurd hfourth fun heq => hne (by omega) heq
    · exact absurd hlast (by unfold lastCodePoint at *; omega)

theorem take_of_short (h : Short s) : (getWChar s).take (utf8Size s) = encode s := by
  obtain ⟨hlen, hascii⟩ := h
  match s with
  | [] => rfl
  | [w] =>
    obtain ⟨-, hw⟩ := hascii w List.mem_cons_self
    have hsize : utf8Size [w] = 1 := by
      rw [Amf.utf8Size_cons, charSize, if_pos hw]
      rfl
    rw [hsize, encode, List.flatMap_singleton, encodeChar, if_pos hw]
    rfl

theorem carries_iff (hs : ∀ w ∈ s, CodePoint w) {packet : RTPPacket}
    (hpayload : packet.payload = (getWChar s).take (utf8Size s)) :
    Carries packet s ↔ Short s := by
  constructor
  · rintro ⟨hencode, hforward⟩
    have hne : (textPacket 0 packet.payload).codec ≠ codecT140RED := by
      change codecT140 ≠ codecT140RED
      decide
    have hsent := hforward (fun _ _ => 0) (fun _ _ => 0) 0 (textPacket 0 packet.payload) hne rfl
    have hencode' : (textPacket 0 packet.payload).payload = encode s := hencode
    rw [recText_encode hs hne hencode', List.singleton_inj, List.takeWhile_eq_self_iff] at hsent
    refine short_of_take hs ?_ (hpayload.symm.trans hencode)
    intro w hw
    exact Nat.pos_of_ne_zero (of_decide_eq_true (hsent w hw))
  · intro hshort
    have hencode := hpayload.trans (take_of_short hshort)
    refine ⟨hencode, ?_⟩
    intro behind clock lastSeq rtp hcodec hrtp
    rw [recText_encode hs hcodec (hrtp.trans hencode), List.singleton_inj,
      List.takeWhile_eq_self_iff]
    intro w hw
    exact decide_eq_true (hshort.2 w hw).1.ne'

theorem onMetaData_missing (h : getString message 0 = none ∨
    getString message 0 = some onText ∧ getString message 1 = none) (now : UInt32) :
    onMetaData true now message = none := by
  rw [onMetaData, if_pos rfl]
  rcases h with hname | ⟨hname, hstr⟩
  · rw [hname]
    rfl
  · rw [hname, Option.bind_eq_bind, Option.bind_some, if_pos rfl, hstr]
    rfl

end Bridge

/-- **A message is bridged if and only if no text is sent at all, or it has the strings that it is
read for and its text is a single ASCII character or none.** -/
theorem bridges_iff (sendingText : Bool) (message : RTMPMetaData) :
    Bridges sendingText message ↔ sendingText = false ∨ Bridgeable message := by
  cases sendingText with
  | false =>
    refine iff_of_true ⟨?_, fun _ now => rfl⟩ (.inl rfl)
    intro hno
    cases hno
  | true =>
    rw [or_iff_right Bool.noConfusion]
    constructor
    · rintro ⟨hcarries, hignores⟩
      -- A message without its strings would have to be ignored.
      have hpresent {P : Prop} (hmissing : getString message 0 = none ∨
          getString message 0 = some onText ∧ getString message 1 = none) : P := by
        have hread := hignores hmissing 0
        rw [onMetaData_missing hmissing] at hread
        cases hread
      cases hname : getString message 0 with
      | none => exact hpresent (.inl hname)
      | some name =>
        refine ⟨name, hname, ?_⟩
        rintro rfl
        cases hstr : getString message 1 with
        | none => exact hpresent (.inr ⟨hname, hstr⟩)
        | some s =>
          refine ⟨s, rfl, ?_⟩
          intro hs hfits
          obtain ⟨packet, hsent, hcarry⟩ := hcarries rfl s hname hstr hs hfits 0
          obtain ⟨packet', hsent', hpayload⟩ := onMetaData_text hname hstr hfits
          obtain rfl := Option.some.inj (Option.some.inj (hsent.symm.trans hsent'))
          exact (carries_iff hs hpayload).1 hcarry
    · rintro ⟨name, hname, htext⟩
      constructor
      · intro _ s hname' hstr hs hfits now
        obtain ⟨packet, hsent, hpayload⟩ := onMetaData_text hname' hstr hfits
        refine ⟨packet, hsent, (carries_iff hs hpayload).2 ?_⟩
        obtain ⟨s', hstr', hshort⟩ := htext (Option.some.inj (hname.symm.trans hname'))
        obtain rfl := Option.some.inj (hstr.symm.trans hstr')
        exact hshort hs hfits
      · rintro (hmissing | ⟨hname', hmissing⟩)
        · rw [hmissing] at hname
          cases hname
        · obtain ⟨s, hstr, -⟩ := htext (Option.some.inj (hname.symm.trans hname'))
          rw [hmissing] at hstr
          cases hstr

/-- The text of two letters. -/
theorem not_bridges_hi :
    ¬ ∀ (sendingText : Bool) (message : RTMPMetaData), Bridges sendingText message := by
  intro h
  obtain ⟨packet, hsent, hencode, -⟩ := (h true ⟨0, [.string onText, .string [0x48, 0x69]]⟩).carries
    rfl [0x48, 0x69] rfl rfl (by simp [CodePoint, lastCodePoint]) (by decide) 0
  have hpayload : (onMetaData true 0 ⟨0, [.string onText, .string [0x48, 0x69]]⟩) =
      some (some (textPacket 0 [0x48, 0x00])) := by
    decide
  rw [hpayload] at hsent
  cases hsent
  revert hencode
  decide

end MediaBridgeSession

end McuMediaServer
