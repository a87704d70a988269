import McuMediaServer.Base.Run
import McuMediaServer.Stun.RoundTrip

/-!
# STUN datagrams that are accepted

`Parse` walks over the attributes of a datagram, which tile the bytes behind the header when it
accepts them. The fingerprint is read behind the loop from a position, whatever the length of its
attribute is. `parsesSafely_iff` says for which datagrams this is no harm.
-/

namespace McuMediaServer

open ByteSeq ByteWriter

namespace STUNMessage

/-! ## What may be accepted -/

/-- Nothing follows a fingerprint, and only a fingerprint follows a message integrity. -/
def InOrder (as : List Attribute) : Prop :=
  as.Pairwise fun a b => a.type ≠ Attribute.fingerPrint ∧
    (a.type = Attribute.messageIntegrity → b.type = Attribute.fingerPrint)

/-- The attributes tile the bytes behind the header, and the value of a fingerprint is the one of
the bytes in front of it, which are all but the last eight. -/
structure Accepted (data : List UInt8) (as : List Attribute) : Prop where
  tiles : Encoded as (data.drop 20)
  inOrder : InOrder as
  fingerprint_eq : ∀ a ∈ as, a.type = Attribute.fingerPrint →
    a.attr = be4 (fingerprint (data.take (data.length - 8)))

/-- The parser ends, reads only inside the bytes, and returns only what may be accepted. -/
def ParsesSafely (data : List UInt8) : Prop :=
  ∃ result, parse data = some result ∧ ∀ m ∈ result, Accepted data m.attributes

/-- The attribute whose type, length and value are at a place. -/
def LiesAt (data : List UInt8) (i : Nat) (a : Attribute) : Prop :=
  ∃ pre post, data = pre ++ a.bytes [] ++ post ∧ pre.length = i

/-- Behind a fingerprint with a value of another length than 4 there are not the four bytes that
would be taken for the fingerprint, but some bytes are there. -/
def ChecksFingerprint (data : List UInt8) : Prop :=
  ∀ as a, isSTUN data = some true → Encoded (as ++ [a]) (data.drop 20) → InOrder (as ++ [a]) →
    a.type = Attribute.fingerPrint → a.attr.length ≠ 4 →
      a.attr.length ≠ 0 ∧ (data.drop (data.length - a.fullSize + 4)).take 4 ≠
        be4 (fingerprint (data.take (data.length - a.fullSize)))

/-- There is an attribute at a place, which is neither message integrity nor fingerprint. -/
def Passes (data : List UInt8) (i : Nat) : Prop :=
  ∃ a, LiesAt data i a ∧ a.IsPlain

/-- The place behind an attribute: the end of the datagram may be rounded up to 2^32, which is 0. -/
def placeBehind (data : List UInt8) (i : Nat) : Nat :=
  pad32 ((i + 4 + (get2 data (i + 2)).getD 0) % 2 ^ 32) % 2 ^ 32

/-- A datagram of almost 2^32 bytes does not lead back to its start again and again. -/
def Leaves (data : List UInt8) : Prop :=
  isSTUN data = some true → data.length < 2 ^ 32 - 3 ∨
    ∃ n, ¬Passes data ((placeBehind data)^[n] 20)

/-! ## One turn of the loop -/

/-- The variables behind an attribute. -/
def ParseState.next (s : ParseState) (a : Attribute) : ParseState where
  i := pad32 ((s.i + 4 + a.attr.length) % 2 ^ 32) % 2 ^ 32
  hasMessageIntegrity :=
    s.hasMessageIntegrity || a.type.toNat == Attribute.messageIntegrity.toNat
  posFingerprint := if a.type.toNat = Attribute.fingerPrint.toNat then some s.i else none
  attributes := s.attributes ++ [a]

/-- The attribute is not refused because of the ones in front of it. -/
def ParseState.Allows (s : ParseState) (a : Attribute) : Prop :=
  s.posFingerprint = none ∧ (s.hasMessageIntegrity = true → a.type = Attribute.fingerPrint)

section Turns

variable {data : List UInt8} {s : ParseState} {a : Attribute} {i : Nat}

theorem length_bytes_nil (a : Attribute) : (a.bytes []).length = 4 + a.attr.length := by
  simp [Attribute.bytes]
  omega

theorem LiesAt.le (h : LiesAt data i a) : i + 4 + a.attr.length ≤ data.length := by
  obtain ⟨pre, post, rfl, rfl⟩ := h
  rw [List.length_append, List.length_append, length_bytes_nil]
  omega

theorem LiesAt.get2_type (h : LiesAt data i a) : get2 data i = some a.type.toNat := by
  obtain ⟨pre, post, rfl, rfl⟩ := h
  rw [List.append_assoc, get2_append le_rfl, Nat.sub_self, Attribute.bytes]
  simp only [List.append_assoc]
  rw [get2_be2, Nat.mod_eq_of_lt a.type.toNat_lt]

theorem LiesAt.get2_length (h : LiesAt data i a) : get2 data (i + 2) = some a.attr.length := by
  obtain ⟨pre, post, rfl, rfl⟩ := h
  rw [List.append_assoc, get2_append (Nat.le_add_right _ _), Nat.add_sub_cancel_left,
    Attribute.bytes]
  simp only [List.append_assoc]
  rw [get2_append (by simp), length_be2, Nat.sub_self, get2_be2, Nat.mod_eq_of_lt a.size_lt]

theorem LiesAt.read_eq (h : LiesAt data i a) :
    Attribute.read a.type.toNat data (i + 4) a.attr.length = some a := by
  have hle := h.le
  obtain ⟨pre, post, rfl, rfl⟩ := h
  have hsplit : pre ++ a.bytes [] ++ post =
      (pre ++ be2 a.type.toNat ++ be2 a.attr.length) ++ (a.attr ++ post) := by
    simp [Attribute.bytes]
  have hvalue : ((pre ++ a.bytes [] ++ post).drop (pre.length + 4)).take a.attr.length =
      a.attr := by
    rw [hsplit, List.drop_left' (by simp), List.take_left' rfl]
  rw [Attribute.read, dif_pos ⟨hle, a.size_lt⟩]
  simp only [hvalue, UInt16.ofNat_toNat]

theorem exists_liesAt {type len : Nat} (htype : get2 data i = some type)
    (hlen : get2 data (i + 2) = some len) (hle : i + 4 + len ≤ data.length) :
    ∃ a, LiesAt data i a ∧ a.type.toNat = type ∧ a.attr.length = len := by
  have hvalue : ((data.drop (i + 4)).take len).length = len := by
    rw [List.length_take, List.length_drop]
    omega
  have htoNat : (UInt16.ofNat type).toNat = type := by
    rw [UInt16.toNat_ofNat', Nat.mod_eq_of_lt (get2_lt htype)]
  have hsplit : data.take (i + 4 + len) = data.take i ++ (data.drop i).take 2 ++
      (data.drop (i + 2)).take 2 ++ (data.drop (i + 4)).take len := by
    rw [List.take_add, show i + 4 = i + 2 + 2 from rfl, List.take_add, List.take_add]
  obtain ⟨a, ha, hattr⟩ : ∃ a : Attribute, a.type.toNat = type ∧
      a.attr = (data.drop (i + 4)).take len :=
    ⟨⟨.ofNat type, (data.drop (i + 4)).take len, by rw [hvalue]; exact get2_lt hlen⟩, htoNat, rfl⟩
  refine ⟨a, ⟨data.take i, data.drop (i + 4 + len), ?_, ?_⟩, ha, by rw [hattr, hvalue]⟩
  · rw [Attribute.bytes, ha, hattr, hvalue, be2_of_get2 htype, be2_of_get2 hlen, List.append_nil,
      ← List.append_assoc, ← List.append_assoc, ← hsplit, List.take_append_drop]
  · rw [List.length_take]
    omega

theorem parseAttributes_liesAt (h : LiesAt data s.i a) (hallows : s.Allows a) (fuel : Nat) :
    parseAttributes data (fuel + 1) s = parseAttributes data fuel (s.next a) := by
  have hle := h.le
  have hallowed :
      ¬(s.hasMessageIntegrity && a.type.toNat != Attribute.fingerPrint.toNat) = true := by
    intro hrefused
    rw [Bool.and_eq_true, bne_iff_ne] at hrefused
    exact hrefused.2 (congrArg UInt16.toNat (hallows.2 hrefused.1))
  have hfirst : ¬data.length < s.i + 4 := by omega
  have hlast : ¬s.posFingerprint.isSome = true := by simp [hallows.1]
  rw [parseAttributes, if_neg hfirst]
  simp only [Option.bind_eq_bind, h.get2_type, h.get2_length, Option.bind_some,
    if_neg (not_lt.2 hle), if_neg hlast, if_neg hallowed, h.read_eq]
  rfl

theorem parseAttributes_cases (hroom : s.i + 4 ≤ data.length) (fuel : Nat) :
    (∃ a, LiesAt data s.i a ∧ s.Allows a ∧
      parseAttributes data (fuel + 1) s = parseAttributes data fuel (s.next a)) ∨
    (parseAttributes data (fuel + 1) s = some none ∧ ∀ a, LiesAt data s.i a → ¬s.Allows a) := by
  obtain ⟨type, htype⟩ := Option.isSome_iff_exists.1 ((isSome_get2 data s.i).2 (by omega))
  obtain ⟨len, hlen⟩ := Option.isSome_iff_exists.1 ((isSome_get2 data (s.i + 2)).2 (by omega))
  by_cases hadded : ∃ a, LiesAt data s.i a ∧ s.Allows a
  · obtain ⟨a, hat, hallows⟩ := hadded
    exact .inl ⟨a, hat, hallows, parseAttributes_liesAt hat hallows fuel⟩
  · refine .inr ⟨?_, fun a hat hallows => hadded ⟨a, hat, hallows⟩⟩
    rw [parseAttributes, if_neg (not_lt.2 hroom)]
    simp only [Option.bind_eq_bind, htype, hlen, Option.bind_some]
    split
    case isTrue => rfl
    case isFalse hle =>
      obtain ⟨a, hat, rfl, rfl⟩ := exists_liesAt htype hlen (not_lt.1 hle)
      split
      case isTrue => rfl
      case isFalse hlast =>
        split
        case isTrue => rfl
        case isFalse hallowed =>
          refine absurd ⟨a, hat, ?_, fun hmi => ?_⟩ hadded
          · simpa using hlast
          · rw [hmi, Bool.true_and, bne_iff_ne, ne_eq, not_not] at hallowed
            exact UInt16.toNat_inj.1 hallowed

theorem ParseState.i_next (hmod : s.i % 4 = 0) (hlt : s.i + a.fullSize < 2 ^ 32) :
    (s.next a).i = s.i + a.fullSize := by
  have h := pad32_next hmod a
  rw [Nat.mod_eq_of_lt (show s.i < 2 ^ 32 by omega), Nat.mod_eq_of_lt hlt] at h
  exact h

theorem ParseState.i_next_mod : (s.next a).i % 4 = 0 := by
  have h := pad32_mod ((s.i + 4 + a.attr.length) % 2 ^ 32)
  dsimp only [next]
  omega

theorem ParseState.posFingerprint_next :
    (s.next a).posFingerprint = if a.type = Attribute.fingerPrint then some s.i else none := by
  simp only [next, UInt16.toNat_inj]

theorem ParseState.hasMessageIntegrity_next :
    (s.next a).hasMessageIntegrity = true ↔
      s.hasMessageIntegrity = true ∨ a.type = Attribute.messageIntegrity := by
  rw [next, Bool.or_eq_true, beq_iff_eq, UInt16.toNat_inj]

end Turns

/-! ## What the loop accepts -/

/-- The place of the last attribute, if that is a fingerprint. -/
def positionOf (data : List UInt8) (pos : Option Nat) (as : List Attribute) : Option Nat :=
  as.getLast?.elim pos fun a =>
    if a.type = Attribute.fingerPrint then some (data.length - a.fullSize) else none

/-- From one state to another at the end of the datagram attributes are added, which tile the bytes
and are in order, behind the ones there are. -/
structure Adds (data : List UInt8) (s s' : ParseState) (as : List Attribute) : Prop where
  attributes : s'.attributes = s.attributes ++ as
  tiles : Encoded as (data.drop s.i)
  inOrder : InOrder as
  last : s.posFingerprint.isSome = true → as = []
  only : s.hasMessageIntegrity = true → ∀ a ∈ as, a.type = Attribute.fingerPrint
  position : s'.posFingerprint = positionOf data s.posFingerprint as

section Loop

variable {data : List UInt8} {s s' : ParseState} {as : List Attribute}

theorem positionOf_cons {a : Attribute} {i : Nat} (hend : i + attributesSize (a :: as) = data.length)
    (pos : Option Nat) : positionOf data
        (if a.type = Attribute.fingerPrint then some i else none) as =
      positionOf data pos (a :: as) := by
  cases as with
  | nil =>
    rw [attributesSize_cons] at hend
    have hplace : data.length - a.fullSize = i := by
      have : attributesSize [] = 0 := rfl
      omega
    simp [positionOf, hplace]
  | cons b as =>
    rw [positionOf, positionOf, List.getLast?_cons_cons, List.getLast?_cons]
    rfl

theorem encoded_cons_drop {a : Attribute} {i : Nat} (hat : LiesAt data i a)
    (hle : i + a.fullSize ≤ data.length) (hrest : Encoded as (data.drop (i + a.fullSize))) :
    Encoded (a :: as) (data.drop i) := by
  have hsize : 4 + a.attr.length ≤ a.fullSize := le_pad32 _
  obtain ⟨pre, post, rfl, rfl⟩ := hat
  rw [List.append_assoc] at hrest hle ⊢
  rw [List.length_append, List.length_append, length_bytes_nil] at hle
  obtain ⟨padding, rest, rfl, hpadding⟩ : ∃ xs ys, post = xs ++ ys ∧
      xs.length = a.fullSize - (4 + a.attr.length) :=
    ⟨_, _, (List.take_append_drop (a.fullSize - (4 + a.attr.length)) post).symm, by
      rw [List.length_take]; omega⟩
  have hbytes : a.bytes [] ++ (padding ++ rest) = a.bytes padding ++ rest := by
    simp [Attribute.bytes]
  have hlength : (a.bytes padding).length = a.fullSize := by
    simp only [Attribute.bytes, List.length_append, length_be2]
    omega
  rw [hbytes, ← List.append_assoc, List.drop_left' (by rw [List.length_append, hlength])] at hrest
  rw [hbytes, List.drop_left' rfl]
  exact .cons hlength hrest

theorem liesAt_of_encoded {a : Attribute} {i : Nat} (h : Encoded (a :: as) (data.drop i))
    (hle : i ≤ data.length) :
    LiesAt data i a ∧ i + a.fullSize ≤ data.length ∧
      Encoded as (data.drop (i + a.fullSize)) := by
  generalize hrest : data.drop i = rest at h
  cases h with
  | @cons a as padding bs hsize hbs =>
    have hdata : data = data.take i ++ (a.bytes padding ++ bs) := by
      rw [← hrest, List.take_append_drop]
    have hi : (data.take i).length = i := by
      rw [List.length_take]
      omega
    generalize data.take i = pre at hdata hi
    subst hdata hi
    refine ⟨⟨pre, padding ++ bs, by simp [Attribute.bytes], rfl⟩, ?_, ?_⟩
    · simp only [List.length_append, hsize]
      omega
    · rwa [← List.append_assoc, List.drop_left' (by rw [List.length_append, hsize])]

theorem Adds.nil (hend : s.i = data.length) : Adds data s s [] where
  attributes := (List.append_nil _).symm
  tiles := by
    rw [hend, List.drop_length]
    exact .nil
  inOrder := List.Pairwise.nil
  last _ := rfl
  only _ a ha := absurd ha List.not_mem_nil
  position := rfl

theorem Adds.cons {a : Attribute} (hmod : s.i % 4 = 0) (hlt : data.length < 2 ^ 32)
    (hat : LiesAt data s.i a) (hallows : s.Allows a) (hle : s.i + a.fullSize ≤ data.length)
    (h : Adds data (s.next a) s' as) : Adds data s s' (a :: as) := by
  have hi := ParseState.i_next hmod (Nat.lt_of_le_of_lt hle hlt)
  have htiles := h.tiles
  rw [hi] at htiles
  have hnone (hfp : a.type = Attribute.fingerPrint) : as = [] :=
    h.last (by rw [ParseState.posFingerprint_next, if_pos hfp]; rfl)
  have hend : s.i + attributesSize (a :: as) = data.length := by
    have hlength := htiles.length_eq
    rw [List.length_drop] at hlength
    rw [attributesSize_cons]
    omega
  refine ⟨?_, encoded_cons_drop hat hle htiles, List.pairwise_cons.2 ⟨fun b hb => ⟨?_, ?_⟩,
    h.inOrder⟩, ?_, ?_, ?_⟩
  · rw [h.attributes, ParseState.next, List.append_assoc, List.singleton_append]
  · intro hfp
    rw [hnone hfp] at hb
    exact List.not_mem_nil hb
  · exact fun hmi => h.only (ParseState.hasMessageIntegrity_next.2 (.inr hmi)) b hb
  · intro hsome
    rw [hallows.1] at hsome
    cases hsome
  · intro hmi b hb
    rcases List.mem_cons.1 hb with rfl | hb
    · exact hallows.2 hmi
    · exact h.only (ParseState.hasMessageIntegrity_next.2 (.inl hmi)) b hb
  · rw [h.position, ParseState.posFingerprint_next, positionOf_cons hend]

theorem parseAttributes_sound (hdata : data.length % 4 = 0) (hlt : data.length < 2 ^ 32)
    {fuel : Nat} (hmod : s.i % 4 = 0) (h : parseAttributes data fuel s = some (some s'))
    (hend : s'.i = data.length) : ∃ as, Adds data s s' as := by
  induction fuel generalizing s with
  | zero =>
    rw [parseAttributes] at h
    split at h
    · cases h
      exact ⟨[], .nil hend⟩
    · cases h
  | succ fuel ih =>
    rcases Nat.lt_or_ge data.length (s.i + 4) with hroom | hroom
    · rw [parseAttributes_of_lt hroom] at h
      cases h
      exact ⟨[], .nil hend⟩
    · rcases parseAttributes_cases hroom fuel with ⟨a, hat, hallows, hstep⟩ | ⟨hstep, -⟩
      · have hsize : s.i + a.fullSize ≤ data.length := by
          have hfits := hat.le
          have hpad := pad32_lt (4 + a.attr.length)
          have hfull := a.fullSize_mod
          rw [Attribute.fullSize] at hfull ⊢
          omega
        obtain ⟨as, has⟩ := ih ParseState.i_next_mod (hstep ▸ h)
        exact ⟨a :: as, has.cons hmod hlt hat hallows hsize⟩
      · rw [hstep] at h
        cases h

theorem parseAttributes_complete (hlt : data.length < 2 ^ 32) (fuel : Nat) (hmod : s.i % 4 = 0)
    (hle : s.i ≤ data.length) (htiles : Encoded as (data.drop s.i)) (horder : InOrder as)
    (hlast : s.posFingerprint.isSome = true → as = [])
    (honly : s.hasMessageIntegrity = true → ∀ a ∈ as, a.type = Attribute.fingerPrint) :
    ∃ s', parseAttributes data (as.length + fuel) s = some (some s') ∧ s'.i = data.length ∧
      Adds data s s' as := by
  induction as generalizing s with
  | nil =>
    have hend := htiles.length_eq
    rw [List.length_drop, show attributesSize [] = 0 from rfl] at hend
    exact ⟨s, parseAttributes_of_lt (by omega) _, by omega, .nil (by omega)⟩
  | cons a as ih =>
    obtain ⟨hat, hsize, hrest⟩ := liesAt_of_encoded htiles hle
    obtain ⟨hfirst, horder⟩ := List.pairwise_cons.1 horder
    have hi := ParseState.i_next hmod (Nat.lt_of_le_of_lt hsize hlt)
    have hallows : s.Allows a := by
      refine ⟨?_, fun hmi => honly hmi a List.mem_cons_self⟩
      exact Option.not_isSome_iff_eq_none.1 fun hsome => absurd (hlast hsome) (List.cons_ne_nil a as)
    have hlast' (hsome : (s.next a).posFingerprint.isSome = true) : as = [] := by
      refine List.eq_nil_iff_forall_not_mem.2 fun b hb => (hfirst b hb).1 ?_
      rw [ParseState.posFingerprint_next] at hsome
      by_contra hne
      rw [if_neg hne] at hsome
      cases hsome
    have honly' (hmi : (s.next a).hasMessageIntegrity = true) :
        ∀ b ∈ as, b.type = Attribute.fingerPrint := by
      intro b hb
      rcases ParseState.hasMessageIntegrity_next.1 hmi with hmi | hmi
      · exact honly hmi b (List.mem_cons_of_mem a hb)
      · exact (hfirst b hb).2 hmi
    obtain ⟨s', hloop, hend, hadds⟩ :=
      ih ParseState.i_next_mod (hi ▸ hsize) (by rwa [hi]) horder hlast' honly'
    refine ⟨s', ?_, hend, hadds.cons hmod hlt hat hallows hsize⟩
    rw [List.length_cons, Nat.add_right_comm, parseAttributes_liesAt hat hallows, hloop]

end Loop

/-! ## When the loop ends -/

section Ends

variable {data : List UInt8} {s : ParseState}

theorem isSome_parseAttributes_of_fingerprint (hpos : s.posFingerprint.isSome = true) (fuel : Nat) :
    (parseAttributes data (fuel + 1) s).isSome = true := by
  rcases Nat.lt_or_ge data.length (s.i + 4) with hroom | hroom
  · rw [parseAttributes_of_lt hroom]
    rfl
  · rcases parseAttributes_cases hroom fuel with ⟨a, -, hallows, -⟩ | ⟨hstep, -⟩
    · rw [hallows.1] at hpos
      cases hpos
    · rw [hstep]
      rfl

theorem isSome_parseAttributes_of_integrity (hmi : s.hasMessageIntegrity = true) (fuel : Nat) :
    (parseAttributes data (fuel + 2) s).isSome = true := by
  rcases Nat.lt_or_ge data.length (s.i + 4) with hroom | hroom
  · rw [parseAttributes_of_lt hroom]
    rfl
  · rcases parseAttributes_cases hroom (fuel + 1) with ⟨a, -, hallows, hstep⟩ | ⟨hstep, -⟩
    · rw [hstep]
      refine isSome_parseAttributes_of_fingerprint ?_ fuel
      rw [ParseState.posFingerprint_next, if_pos (hallows.2 hmi)]
      rfl
    · rw [hstep]
      rfl

theorem isSome_parseAttributes_of_lt (hlt : data.length < 2 ^ 32 - 3) {fuel : Nat}
    (hfuel : data.length < s.i + 4 * (fuel + 1)) :
    (parseAttributes data fuel s).isSome = true := by
  induction fuel generalizing s with
  | zero =>
    rw [parseAttributes_of_lt (by omega)]
    rfl
  | succ fuel ih =>
    rcases Nat.lt_or_ge data.length (s.i + 4) with hroom | hroom
    · rw [parseAttributes_of_lt hroom]
      rfl
    · rcases parseAttributes_cases hroom fuel with ⟨a, hat, -, hstep⟩ | ⟨hstep, -⟩
      · have hfits := hat.le
        have hpad := pad32_lt (s.i + 4 + a.attr.length)
        have hle := le_pad32 (s.i + 4 + a.attr.length)
        have hi : (s.next a).i = pad32 (s.i + 4 + a.attr.length) := by
          rw [ParseState.next, Nat.mod_eq_of_lt (show s.i + 4 + a.attr.length < 2 ^ 32 by omega),
            Nat.mod_eq_of_lt (by omega)]
        rw [hstep]
        exact ih (by omega)
      · rw [hstep]
        rfl

theorem parseAttributes_of_passes {i : Nat} (h : Passes data i) (as : List Attribute) :
    ∃ bs, ∀ fuel, parseAttributes data (fuel + 1) ⟨i, false, none, as⟩ =
      parseAttributes data fuel ⟨placeBehind data i, false, none, bs⟩ := by
  obtain ⟨a, hat, hne, hne'⟩ := h
  refine ⟨as ++ [a], fun fuel => ?_⟩
  have hallows : ParseState.Allows ⟨i, false, none, as⟩ a := ⟨rfl, fun hmi => by cases hmi⟩
  have hmi : (a.type.toNat == Attribute.messageIntegrity.toNat) = false :=
    beq_false_of_ne fun heq => hne (UInt16.toNat_inj.1 heq)
  have hfp : a.type.toNat ≠ Attribute.fingerPrint.toNat :=
    fun heq => hne' (UInt16.toNat_inj.1 heq)
  rw [parseAttributes_liesAt hat hallows, ParseState.next, placeBehind, hat.get2_length,
    Option.getD_some, hmi, if_neg hfp, Bool.or_false]

theorem parseAttributes_eq_none {i : Nat} (h : ∀ n, Passes data ((placeBehind data)^[n] i))
    (fuel : Nat) (as : List Attribute) : parseAttributes data fuel ⟨i, false, none, as⟩ = none := by
  induction fuel generalizing i as with
  | zero =>
    obtain ⟨a, hat, -⟩ := h 0
    have hle : i + 4 + a.attr.length ≤ data.length := hat.le
    rw [parseAttributes, if_neg (by dsimp only; omega)]
  | succ fuel ih =>
    have hpasses : Passes data i := h 0
    obtain ⟨bs, hstep⟩ := parseAttributes_of_passes hpasses as
    rw [hstep fuel]
    exact ih (fun n => h (n + 1)) bs

theorem isSome_parseAttributes_of_not_passes {i : Nat} (hnot : ¬Passes data i) (fuel : Nat)
    (as : List Attribute) :
    (parseAttributes data (fuel + 3) ⟨i, false, none, as⟩).isSome = true := by
  rcases Nat.lt_or_ge data.length (i + 4) with hroom | hroom
  · rw [parseAttributes_of_lt hroom]
    rfl
  · rcases @parseAttributes_cases data ⟨i, false, none, as⟩ hroom (fuel + 2)
      with ⟨a, hat, -, hstep⟩ | ⟨hstep, -⟩
    · rw [hstep]
      by_cases hfp : a.type = Attribute.fingerPrint
      · refine isSome_parseAttributes_of_fingerprint ?_ (fuel + 1)
        rw [ParseState.posFingerprint_next, if_pos hfp]
        rfl
      · have hmi : a.type = Attribute.messageIntegrity := by
          by_contra hmi
          exact hnot ⟨a, hat, hmi, hfp⟩
        exact isSome_parseAttributes_of_integrity (ParseState.hasMessageIntegrity_next.2 (.inr hmi))
          fuel
    · rw [hstep]
      rfl

theorem isSome_parseAttributes_of_iterate {n i : Nat}
    (h : ¬Passes data ((placeBehind data)^[n] i)) (fuel : Nat) (as : List Attribute) :
    (parseAttributes data (n + fuel + 3) ⟨i, false, none, as⟩).isSome = true := by
  induction n generalizing i as with
  | zero => exact isSome_parseAttributes_of_not_passes h (0 + fuel) as
  | succ n ih =>
    by_cases hpasses : Passes data i
    · obtain ⟨bs, hstep⟩ := parseAttributes_of_passes hpasses as
      rw [show n + 1 + fuel + 3 = n + fuel + 3 + 1 by omega, hstep]
      exact ih h bs
    · exact isSome_parseAttributes_of_not_passes hpasses (n + 1 + fuel) as

theorem exists_not_passes_le (h : ∃ n, ¬Passes data ((placeBehind data)^[n] 20)) :
    ∃ n ≤ data.length - 3, ¬Passes data ((placeBehind data)^[n] 20) := by
  have hmem (i : Nat) (hi : Passes data i) : i ∈ Finset.range (data.length - 3) := by
    obtain ⟨a, hat, -⟩ := hi
    have := hat.le
    rw [Finset.mem_range]
    omega
  obtain ⟨n, hn, hnot⟩ := StepRun.exists_iterate_le_card hmem h
  exact ⟨n, by rwa [Finset.card_range] at hn, hnot⟩

theorem isSome_parseAttributes_iff (hstun : isSTUN data = some true) (hroom : 20 ≤ data.length) :
    (parseAttributes data data.length ⟨20, false, none, []⟩).isSome = true ↔ Leaves data := by
  constructor
  · intro hsome _
    by_contra hnot
    rw [not_or, not_exists] at hnot
    rw [parseAttributes_eq_none (fun n => not_not.1 (hnot.2 n))] at hsome
    cases hsome
  · intro h
    rcases h hstun with hlt | hleaves
    · exact isSome_parseAttributes_of_lt hlt (by dsimp only; omega)
    · obtain ⟨n, hn, hnot⟩ := exists_not_passes_le hleaves
      have hfuel : data.length = n + (data.length - 3 - n) + 3 := by omega
      rw [hfuel]
      exact isSome_parseAttributes_of_iterate hnot _ []

end Ends

/-! ## What is behind the loop -/

/-- What is returned behind the loop. -/
def conclude (data : List UInt8) (build : List Attribute → STUNMessage) :
    Option ParseState → Option (Option STUNMessage)
  | none => some none
  | some s =>
    if s.i ≠ data.length then
      some none
    else
      (checkFingerprint data s.posFingerprint).map fun same =>
        if same then some (build s.attributes) else none

section Parse

variable {data : List UInt8}

theorem length_of_isSTUN (hstun : isSTUN data = some true) : 20 ≤ data.length := by
  by_contra hlt
  rw [isSTUN, if_pos (not_le.1 hlt)] at hstun
  cases hstun

theorem isSome_isSTUN (data : List UInt8) : (isSTUN data).isSome = true := by
  rw [isSTUN]
  split
  case isTrue => rfl
  case isFalse hle =>
    refine isSome_bind ((isSome_get1 data 0).2 (by omega)) fun _ => ?_
    exact isSome_bind ((isSome_slice data 4 4).2 (by omega)) fun _ => rfl

theorem parse_of_not_isSTUN (hstun : isSTUN data = some false) : parse data = some none := by
  rw [parse, hstun]
  rfl

theorem parse_of_isSTUN (hstun : isSTUN data = some true) :
    ∃ build : List Attribute → STUNMessage, (∀ as, (build as).attributes = as) ∧
      parse data =
        (parseAttributes data data.length ⟨20, false, none, []⟩).bind (conclude data build) := by
  have hroom := length_of_isSTUN hstun
  obtain ⟨field, hfield⟩ := Option.isSome_iff_exists.1 ((isSome_get2 data 0).2 (by omega))
  obtain ⟨high, hhigh⟩ := Option.isSome_iff_exists.1 ((isSome_get1 data 0).2 (by omega))
  obtain ⟨low, hlow⟩ := Option.isSome_iff_exists.1 ((isSome_get1 data 1).2 (by omega))
  obtain ⟨transId, htransId⟩ := Option.isSome_iff_exists.1 ((isSome_slice data 8 12).2 (by omega))
  have hlength := length_of_slice htransId
  refine ⟨fun as => ⟨Fin.ofNat 4 (typeOfField high low), Fin.ofNat (2 ^ 12) (methodOfField field),
    transId, as, hlength⟩, fun _ => rfl, ?_⟩
  rw [parse]
  simp only [hstun, hfield, hhigh, hlow, htransId, Option.bind_eq_bind, Option.bind_some,
    Bool.not_true, Bool.false_eq_true, if_false, dif_pos hlength]
  refine congrArg _ (funext fun r => ?_)
  cases r with
  | none => rfl
  | some s =>
    dsimp only [conclude]
    rcases eq_or_ne s.i data.length with hend | hend
    · rw [if_neg (not_not.2 hend), if_neg (not_not.2 hend)]
      cases checkFingerprint data s.posFingerprint with
      | none => rfl
      | some same => cases same <;> rfl
    · rw [if_pos hend, if_pos hend]
      rfl

theorem checkFingerprint_some (pos : Nat) (hroom : pos + 8 ≤ data.length) :
    ∃ same, checkFingerprint data (some pos) = some same ∧
      (same = true ↔ (data.drop (pos + 4)).take 4 = be4 (fingerprint (data.take pos))) := by
  obtain ⟨announced, hannounced⟩ :=
    Option.isSome_iff_exists.1 ((isSome_get4 data (pos + 4)).2 (by omega))
  have hbytes := be4_of_get4 hannounced
  have hlt := get4_lt hannounced
  have hlt' : fingerprint (data.take pos) < 2 ^ 32 := UInt32.toNat_lt _
  refine ⟨announced == fingerprint (data.take pos), ?_, ?_⟩
  · rw [checkFingerprint, hannounced]
    rfl
  · rw [beq_iff_eq, ← hbytes]
    refine ⟨fun heq => by rw [heq], fun heq => ?_⟩
    have h := congrArg (fun bytes => get4 bytes 0) heq
    simp only [get4_be4_self, Option.some.injEq] at h
    omega

theorem checkFingerprint_none (pos : Nat) (hroom : data.length < pos + 8) :
    checkFingerprint data (some pos) = none := by
  have hnone : get4 data (pos + 4) = none :=
    Option.not_isSome_iff_eq_none.1 fun hsome => by
      have := (isSome_get4 data (pos + 4)).1 hsome
      omega
  rw [checkFingerprint, hnone]
  rfl

theorem value_of_encoded {as : List Attribute} {a : Attribute} {i : Nat}
    (h : Encoded (as ++ [a]) (data.drop i)) (hle : i ≤ data.length) :
    i + a.fullSize ≤ data.length ∧
      (data.drop (data.length - a.fullSize + 4)).take a.attr.length = a.attr := by
  induction as generalizing i with
  | nil =>
    obtain ⟨hat, hsize, hrest⟩ := liesAt_of_encoded h hle
    have hend := hrest.length_eq
    rw [List.length_drop, show attributesSize [] = 0 from rfl] at hend
    refine ⟨hsize, ?_⟩
    rw [show data.length - a.fullSize + 4 = i + 4 by omega]
    obtain ⟨pre, post, rfl, rfl⟩ := hat
    have hsplit : pre ++ a.bytes [] ++ post =
        (pre ++ be2 a.type.toNat ++ be2 a.attr.length) ++ (a.attr ++ post) := by
      simp [Attribute.bytes]
    rw [hsplit, List.drop_left' (by simp), List.take_left' rfl]
  | cons b as ih =>
    obtain ⟨-, hsize, hrest⟩ := liesAt_of_encoded h hle
    obtain ⟨hle', hvalue⟩ := ih hrest hsize
    exact ⟨by omega, hvalue⟩

end Parse

/-! ## The datagrams that are parsed safely -/

section Safety

variable {data : List UInt8} {s : ParseState} {as : List Attribute} {a : Attribute}

theorem i_mod_of_parseAttributes {fuel : Nat} {s' : ParseState} (hmod : s.i % 4 = 0)
    (h : parseAttributes data fuel s = some (some s')) : s'.i % 4 = 0 := by
  induction fuel generalizing s with
  | zero =>
    rw [parseAttributes] at h
    split at h
    · cases h
      exact hmod
    · cases h
  | succ fuel ih =>
    rcases Nat.lt_or_ge data.length (s.i + 4) with hroom | hroom
    · rw [parseAttributes_of_lt hroom] at h
      cases h
      exact hmod
    · rcases parseAttributes_cases hroom fuel with ⟨a, -, -, hstep⟩ | ⟨hstep, -⟩
      · exact ih ParseState.i_next_mod (hstep ▸ h)
      · rw [hstep] at h
        cases h

theorem loop_sound (hlt : data.length < 2 ^ 32)
    (h : parseAttributes data data.length ⟨20, false, none, []⟩ = some (some s))
    (hend : s.i = data.length) : Encoded s.attributes (data.drop 20) ∧ InOrder s.attributes ∧
      s.posFingerprint = positionOf data none s.attributes := by
  have hmod := i_mod_of_parseAttributes rfl h
  obtain ⟨as, has⟩ := parseAttributes_sound (hend ▸ hmod) hlt rfl h hend
  have hattributes := has.attributes
  rw [List.nil_append] at hattributes
  rw [hattributes]
  exact ⟨has.tiles, has.inOrder, has.position⟩

theorem loop_complete (hlt : data.length < 2 ^ 32) (hroom : 20 ≤ data.length)
    (htiles : Encoded as (data.drop 20)) (horder : InOrder as) :
    ∃ s, parseAttributes data data.length ⟨20, false, none, []⟩ = some (some s) ∧
      s.i = data.length ∧ s.attributes = as := by
  have hfuel : data.length = as.length + (data.length - as.length) := by
    have hle := htiles.length_le
    rw [List.length_drop] at hle
    omega
  obtain ⟨s, hloop, hend, hadds⟩ := @parseAttributes_complete data ⟨20, false, none, []⟩ as hlt
    (data.length - as.length) rfl hroom htiles horder (fun h => by cases h) (fun h => by cases h)
  rw [← hfuel] at hloop
  exact ⟨s, hloop, hend, hadds.attributes⟩

theorem mem_of_inOrder (horder : InOrder (as ++ [a])) {b : Attribute} (hb : b ∈ as ++ [a])
    (hfp : b.type = Attribute.fingerPrint) : b = a := by
  rcases List.mem_append.1 hb with hb | hb
  · exact absurd hfp ((List.pairwise_append.1 horder).2.2 b hb a List.mem_cons_self).1
  · exact List.mem_singleton.1 hb

theorem checks_iff (htiles : Encoded (as ++ [a]) (data.drop 20)) (horder : InOrder (as ++ [a]))
    (hroom : 20 ≤ data.length) (hfp : a.type = Attribute.fingerPrint)
    {build : List Attribute → STUNMessage} (hbuild : ∀ as, (build as).attributes = as) :
    (∃ result, (checkFingerprint data (some (data.length - a.fullSize))).map
        (fun same => if same then some (build (as ++ [a])) else none) = some result ∧
          ∀ m ∈ result, Accepted data m.attributes) ↔
      (a.attr.length ≠ 4 → a.attr.length ≠ 0 ∧
        (data.drop (data.length - a.fullSize + 4)).take 4 ≠
          be4 (fingerprint (data.take (data.length - a.fullSize)))) := by
  obtain ⟨hsize, hvalue⟩ := value_of_encoded htiles hroom
  have hpad := le_pad32 (4 + a.attr.length)
  have hfull := a.fullSize_mod
  rcases Nat.eq_zero_or_pos a.attr.length with hzero | hpos
  · have hfour : a.fullSize = 4 := by rw [Attribute.fullSize, hzero]; rfl
    rw [checkFingerprint_none _ (by omega), Option.map_none]
    constructor
    · rintro ⟨_, h, -⟩
      cases h
    · intro h
      exact absurd hzero (h (by omega)).1
  · have hread : data.length - a.fullSize + 8 ≤ data.length := by
      rw [Attribute.fullSize] at hfull hsize ⊢
      omega
    obtain ⟨same, hcheck, hsame⟩ := checkFingerprint_some _ hread
    rw [hcheck, Option.map_some]
    rcases eq_or_ne a.attr.length 4 with hfour | hfour
    · refine iff_of_true ⟨_, rfl, fun m hm => ?_⟩ fun h => absurd hfour h
      have height : a.fullSize = 8 := by rw [Attribute.fullSize, hfour]; rfl
      cases same with
      | false => cases hm
      | true =>
        obtain rfl := Option.some.inj hm
        rw [hfour, hsame.1 rfl, height] at hvalue
        rw [hbuild]
        refine ⟨htiles, horder, fun b hb hb' => ?_⟩
        rw [mem_of_inOrder horder hb hb', hvalue]
    · have hnot {m : STUNMessage} (hm : m.attributes = as ++ [a]) :
          ¬Accepted data m.attributes := by
        intro hacc
        have hattr := hacc.fingerprint_eq a (by rw [hm]; simp) hfp
        exact hfour (by rw [hattr, length_be4])
      change _ ↔ (_ → _ ∧ ¬_ = _)
      rw [← hsame]
      refine ⟨fun hex _ => ⟨by omega, fun htrue => ?_⟩, fun h => ?_⟩
      · obtain ⟨result, hresult, hacc⟩ := hex
        rw [if_pos htrue] at hresult
        obtain rfl := Option.some.inj hresult
        exact hnot (hbuild _) (hacc _ rfl)
      · refine ⟨none, ?_, fun m hm => by cases hm⟩
        rw [if_neg (h hfour).2]

/-- **Acceptance.** A datagram is parsed to an end, without a read outside, and accepted only as it
may be exactly if it does not lead back to its start again and again, and a fingerprint at its end
of another length than four is not empty and is not taken for the right one. -/
theorem parsesSafely_iff (hlt : data.length < 2 ^ 32) :
    ParsesSafely data ↔ ChecksFingerprint data ∧ Leaves data := by
  obtain ⟨stun, hstun⟩ := Option.isSome_iff_exists.1 (isSome_isSTUN data)
  cases stun with
  | false =>
    refine iff_of_true ⟨none, parse_of_not_isSTUN hstun, fun m hm => by cases hm⟩
      ⟨fun as a h => ?_, fun h => ?_⟩ <;> rw [hstun] at h <;> cases h
  | true =>
    have hroom := length_of_isSTUN hstun
    have hends := isSome_parseAttributes_iff hstun hroom
    obtain ⟨build, hbuild, hparse⟩ := parse_of_isSTUN hstun
    rw [ParsesSafely, hparse, ← hends]
    cases hloop : parseAttributes data data.length ⟨20, false, none, []⟩ with
    | none => exact iff_of_false (fun ⟨_, h, _⟩ => by cases h) fun h => by cases h.2
    | some result =>
      rw [and_iff_left (show (some result).isSome = true from rfl), Option.bind_some]
      have hfound {as : List Attribute} (htiles : Encoded as (data.drop 20)) (horder : InOrder as) :
          ∃ s, result = some s ∧ s.i = data.length ∧ s.attributes = as := by
        obtain ⟨s, hs, hend, has⟩ := loop_complete hlt hroom htiles horder
        exact ⟨s, Option.some.inj (hloop.symm.trans hs), hend, has⟩
      cases result with
      | none =>
        refine iff_of_true ⟨none, rfl, fun m hm => by cases hm⟩ fun as a _ htiles horder => ?_
        obtain ⟨s, hs, -⟩ := hfound htiles horder
        cases hs
      | some s =>
        rw [conclude]
        rcases eq_or_ne s.i data.length with hend | hend
        · rw [if_neg (not_not.2 hend)]
          obtain ⟨htiles, horder, hpos⟩ := loop_sound hlt hloop hend
          have hself {as : List Attribute} (htiles : Encoded as (data.drop 20))
              (horder : InOrder as) : s.attributes = as := by
            obtain ⟨t, ht, -, has⟩ := hfound htiles horder
            rwa [← Option.some.inj ht] at has
          rcases List.eq_nil_or_concat' s.attributes with hnil | ⟨front, a, hlast⟩
          · rw [hpos, hnil]
            refine iff_of_true ⟨_, rfl, fun m hm => ?_⟩ fun as a _ htiles horder => ?_
            · obtain rfl := Option.some.inj hm
              rw [hbuild]
              exact ⟨hnil ▸ htiles, List.Pairwise.nil, fun b hb => absurd hb List.not_mem_nil⟩
            · have h := hself htiles horder
              rw [hnil] at h
              exact absurd h.symm (List.append_ne_nil_of_right_ne_nil as (List.cons_ne_nil a []))
          · rw [hlast] at htiles horder hpos ⊢
            rw [positionOf, List.getLast?_concat, Option.elim_some] at hpos
            by_cases hfp : a.type = Attribute.fingerPrint
            · rw [hpos, if_pos hfp, checks_iff htiles horder hroom hfp hbuild]
              refine ⟨fun h as b _ htiles' horder' _ => ?_,
                fun h => h front a hstun htiles horder hfp⟩
              have heq := hself htiles' horder'
              rw [hlast] at heq
              obtain ⟨-, rfl⟩ := List.append_singleton_inj.1 heq
              exact h
            · rw [hpos, if_neg hfp]
              refine iff_of_true ⟨_, rfl, fun m hm => ?_⟩ fun as b _ htiles' horder' hfp' => ?_
              · obtain rfl := Option.some.inj hm
                rw [hbuild]
                refine ⟨htiles, horder, fun b hb hb' => absurd ?_ hfp⟩
                rw [← mem_of_inOrder horder hb hb', hb']
              · have heq := hself htiles' horder'
                rw [hlast] at heq
                obtain ⟨-, rfl⟩ := List.append_singleton_inj.1 heq
                exact absurd hfp' hfp
        · rw [if_pos hend]
          refine iff_of_true ⟨none, rfl, fun m hm => by cases hm⟩ fun as a _ htiles horder => ?_
          obtain ⟨t, ht, hend', -⟩ := hfound htiles horder
          obtain rfl := Option.some.inj ht
          exact absurd hend' hend

/-- The header of a binding request, and given bytes behind it. -/
def datagram (rest : List UInt8) : List UInt8 :=
  [0x00, 0x01, 0x00, 0x00] ++ magicCookie ++ List.replicate 12 0 ++ rest

/-- A fingerprint with no value is in its place. -/
theorem parsesSafely_emptyFingerprint : ParsesSafely (datagram [0x80, 0x28, 0x00, 0x00]) ↔
    ChecksFingerprint (datagram [0x80, 0x28, 0x00, 0x00]) ∧
      Leaves (datagram [0x80, 0x28, 0x00, 0x00]) :=
  parsesSafely_iff (by decide)

/-- It is read behind the end of the datagram. -/
theorem not_parsesSafely_emptyFingerprint :
    ¬ParsesSafely (datagram [0x80, 0x28, 0x00, 0x00]) := by
  rintro ⟨result, h, -⟩
  have hnone : parse (datagram [0x80, 0x28, 0x00, 0x00]) = none := by decide
  rw [hnone] at h
  cases h

end Safety

end STUNMessage

end McuMediaServer
