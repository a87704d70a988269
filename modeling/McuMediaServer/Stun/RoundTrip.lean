import McuMediaServer.Stun.Message

/-!
# STUN messages are read back

Both writers lay out a header and the attributes, padded with whatever is in the buffer, and the
parser reads the same message back. The sizes are computed in numbers of 16 and 32 bits, which is
right as long as the length behind the header has 16 bits.
-/

namespace McuMediaServer

open ByteSeq ByteWriter

namespace STUNMessage

/-! ## Sizes -/

/-- The size of an attribute with its header and padding. -/
def Attribute.fullSize (a : Attribute) : Nat := pad32 (4 + a.attr.length)

theorem Attribute.fullSize_mod (a : Attribute) : a.fullSize % 4 = 0 := pad32_mod _

theorem Attribute.four_le_fullSize (a : Attribute) : 4 ≤ a.fullSize :=
  (Nat.le_add_right _ _).trans (le_pad32 _)

/-- The size of the attributes. -/
def attributesSize (as : List Attribute) : Nat := (as.map Attribute.fullSize).sum

@[simp]
theorem attributesSize_cons (a : Attribute) (as : List Attribute) :
    attributesSize (a :: as) = a.fullSize + attributesSize as := by
  simp [attributesSize]

@[simp]
theorem attributesSize_append (as bs : List Attribute) :
    attributesSize (as ++ bs) = attributesSize as + attributesSize bs := by
  simp [attributesSize]

theorem attributesSize_mod (as : List Attribute) : attributesSize as % 4 = 0 := by
  induction as with
  | nil => rfl
  | cons a as ih =>
    have := a.fullSize_mod
    rw [attributesSize_cons]
    omega

/-- The size of the message with integrity and fingerprint. -/
def fullSize (m : STUNMessage) : Nat := 52 + attributesSize m.attributes

theorem pad32_next {n : Nat} (hn : n % 4 = 0) (a : Attribute) :
    pad32 ((n % 2 ^ 32 + 4 + a.attr.length) % 2 ^ 32) % 2 ^ 32 = (n + a.fullSize) % 2 ^ 32 := by
  have hsum : (n % 2 ^ 32 + 4 + a.attr.length) % 2 ^ 32 = (n + (4 + a.attr.length)) % 2 ^ 32 := by
    omega
  rw [hsum, pad32_mod_two_pow, pad32_add hn, Attribute.fullSize]

/-- `GetSize` is the size, modulo 2^32. -/
theorem getSize_eq (m : STUNMessage) : m.getSize = m.fullSize % 2 ^ 32 := by
  have key (as : List Attribute) : ∀ n, n % 4 = 0 →
      as.foldl (fun size a => pad32 ((size + 4 + a.attr.length) % 2 ^ 32) % 2 ^ 32) (n % 2 ^ 32) =
        (n + attributesSize as) % 2 ^ 32 := by
    induction as with
    | nil => exact fun n _ => rfl
    | cons a as ih =>
      intro n hn
      have hmod := a.fullSize_mod
      rw [List.foldl_cons, pad32_next hn, ih _ (by omega), attributesSize_cons, Nat.add_assoc]
  exact key m.attributes 52 rfl

/-! ## The field of method and class -/

section Field

variable (m : STUNMessage)

theorem msgTypeField_eq : m.msgTypeField = m.method.val / 2 ^ 7 * 2 ^ 9 + (m.type.val / 2 * 2 ^ 8 +
    (m.method.val / 2 ^ 4 % 2 ^ 3 * 2 ^ 5 + (m.type.val % 2 * 2 ^ 4 + m.method.val % 2 ^ 4))) := by
  have hmethod := m.method.isLt
  have htype := m.type.isLt
  have h1 : m.method.val &&& 0x0f80 = (m.method.val / 2 ^ 7 % 2 ^ 5) <<< 7 := land_mask _ 5 7
  have h2 : m.method.val &&& 0x0070 = (m.method.val / 2 ^ 4 % 2 ^ 3) <<< 4 := land_mask _ 3 4
  have h3 : m.method.val &&& 0x000f = m.method.val % 2 ^ 4 := Nat.and_two_pow_sub_one_eq_mod _ 4
  have h4 : m.type.val &&& 0x02 = (m.type.val / 2 % 2) <<< 1 := land_mask _ 1 1
  have h5 : m.type.val &&& 0x01 = m.type.val % 2 := Nat.and_two_pow_sub_one_eq_mod _ 1
  have hhigh : m.method.val / 2 ^ 7 % 2 ^ 5 = m.method.val / 2 ^ 7 := Nat.mod_eq_of_lt (by omega)
  have hclass : m.type.val / 2 % 2 = m.type.val / 2 := Nat.mod_eq_of_lt (by omega)
  rw [msgTypeField, h1, h2, h3, h4, h5, hhigh, hclass]
  have h6 : m.method.val / 2 ^ 4 % 2 ^ 3 < 2 ^ 3 := Nat.mod_lt _ (by omega)
  have h7 : m.method.val % 2 ^ 4 < 2 ^ 4 := Nat.mod_lt _ (by omega)
  generalize m.method.val / 2 ^ 4 % 2 ^ 3 = b at *
  generalize m.method.val % 2 ^ 4 = c at *
  generalize m.method.val / 2 ^ 7 = a at *
  have h8 : m.type.val / 2 < 2 := by omega
  have h9 : m.type.val % 2 < 2 := by omega
  generalize m.type.val / 2 = d at *
  generalize m.type.val % 2 = e at *
  have hsort : a <<< 7 <<< 2 ||| b <<< 4 <<< 1 ||| c ||| d <<< 1 <<< 7 ||| e <<< 4 =
      a <<< 9 ||| (d <<< 8 ||| (b <<< 5 ||| (e <<< 4 ||| c))) := by
    simp only [← Nat.shiftLeft_add]
    ac_rfl
  rw [hsort, shiftLeft_or_of_lt (show c < 2 ^ 4 from h7),
    shiftLeft_or_of_lt (show e * 2 ^ 4 + c < 2 ^ 5 by omega),
    shiftLeft_or_of_lt (show b * 2 ^ 5 + (e * 2 ^ 4 + c) < 2 ^ 8 by omega),
    shiftLeft_or_of_lt (show d * 2 ^ 8 + (b * 2 ^ 5 + (e * 2 ^ 4 + c)) < 2 ^ 9 by omega)]

theorem methodOfField_eq (field : Nat) : methodOfField field =
    field / 2 ^ 9 % 2 ^ 5 * 2 ^ 7 + (field / 2 ^ 5 % 2 ^ 3 * 2 ^ 4 + field % 2 ^ 4) := by
  have h1 : field &&& 0x000f = field % 2 ^ 4 := Nat.and_two_pow_sub_one_eq_mod _ 4
  have h2 : field &&& 0x00e0 = (field / 2 ^ 5 % 2 ^ 3) <<< 5 := land_mask _ 3 5
  have h3 : field &&& 0x3E00 = (field / 2 ^ 9 % 2 ^ 5) <<< 9 := land_mask _ 5 9
  rw [methodOfField, h1, h2, h3]
  have h4 : field % 2 ^ 4 < 2 ^ 4 := Nat.mod_lt _ (by omega)
  have h5 : field / 2 ^ 5 % 2 ^ 3 < 2 ^ 3 := Nat.mod_lt _ (by omega)
  generalize field / 2 ^ 9 % 2 ^ 5 = a at *
  generalize field / 2 ^ 5 % 2 ^ 3 = b at *
  generalize field % 2 ^ 4 = c at *
  have hsort : c ||| b <<< 5 >>> 1 ||| a <<< 9 >>> 2 = a <<< 7 ||| (b <<< 4 ||| c) := by
    rw [show b <<< 5 = b <<< 4 <<< 1 from Nat.shiftLeft_add b 4 1,
      show a <<< 9 = a <<< 7 <<< 2 from Nat.shiftLeft_add a 7 2, Nat.shiftLeft_shiftRight,
      Nat.shiftLeft_shiftRight]
    ac_rfl
  rw [hsort, shiftLeft_or_of_lt h4, shiftLeft_or_of_lt (show b * 2 ^ 4 + c < 2 ^ 7 by omega)]

theorem methodOfField_msgTypeField : methodOfField m.msgTypeField = m.method.val := by
  have hmethod := m.method.isLt
  have htype := m.type.isLt
  have hsplit : m.method.val = m.method.val / 2 ^ 7 * 2 ^ 7 +
      (m.method.val / 2 ^ 4 % 2 ^ 3 * 2 ^ 4 + m.method.val % 2 ^ 4) := by omega
  have h1 : m.method.val / 2 ^ 7 < 2 ^ 5 := by omega
  have h2 : m.method.val / 2 ^ 4 % 2 ^ 3 < 2 ^ 3 := by omega
  have h3 : m.method.val % 2 ^ 4 < 2 ^ 4 := by omega
  have h4 : m.type.val / 2 < 2 := by omega
  have h5 : m.type.val % 2 < 2 := by omega
  rw [methodOfField_eq, msgTypeField_eq]
  generalize m.method.val / 2 ^ 7 = a at *
  generalize m.method.val / 2 ^ 4 % 2 ^ 3 = b at *
  generalize m.method.val % 2 ^ 4 = c at *
  generalize m.type.val / 2 = d at *
  generalize m.type.val % 2 = e at *
  have hhigh : (a * 2 ^ 9 + (d * 2 ^ 8 + (b * 2 ^ 5 + (e * 2 ^ 4 + c)))) / 2 ^ 9 = a := by omega
  have hmid : (a * 2 ^ 9 + (d * 2 ^ 8 + (b * 2 ^ 5 + (e * 2 ^ 4 + c)))) / 2 ^ 5 =
      (a * 2 + d) * 2 ^ 3 + b := by omega
  have hlow : (a * 2 ^ 9 + (d * 2 ^ 8 + (b * 2 ^ 5 + (e * 2 ^ 4 + c)))) % 2 ^ 4 = c := by omega
  rw [hhigh, hmid, hlow, hsplit, Nat.mod_eq_of_lt h1, Nat.mul_add_mod_of_lt h2]

theorem typeOfField_msgTypeField :
    typeOfField (m.msgTypeField / 2 ^ 8) (m.msgTypeField % 2 ^ 8) = m.type.val := by
  have htype := m.type.isLt
  have h1 (x : Nat) : x &&& 0x01 = x % 2 := Nat.and_two_pow_sub_one_eq_mod _ 1
  have h2 (x : Nat) : x &&& 0x10 = (x / 2 ^ 4 % 2) <<< 4 := land_mask _ 1 4
  rw [typeOfField, h1, h2, Nat.shiftLeft_shiftRight, shiftLeft_or_of_lt (show _ < 2 ^ 1 by omega), msgTypeField_eq]
  omega

theorem msgTypeField_lt : m.msgTypeField < 2 ^ 14 := by
  have hmethod := m.method.isLt
  have htype := m.type.isLt
  rw [msgTypeField_eq]
  omega

theorem msgTypeField_land : m.msgTypeField / 2 ^ 8 &&& 0xC0 = 0 := by
  have h := m.msgTypeField_lt
  have h1 (x : Nat) : x &&& 0xC0 = (x / 2 ^ 6 % 2 ^ 2) <<< 6 := land_mask _ 2 6
  rw [h1, show m.msgTypeField / 2 ^ 8 / 2 ^ 6 % 2 ^ 2 = 0 by omega, Nat.zero_shiftLeft]

end Field

/-! ## What the writers lay out -/

theorem exists_append {n : Nat} {xs : List UInt8} (h : n ≤ xs.length) :
    ∃ ys zs, xs = ys ++ zs ∧ ys.length = n :=
  ⟨_, _, (List.take_append_drop n xs).symm, List.length_take_of_le h⟩

/-- The bytes of an attribute; its padding is what the buffer held. -/
def Attribute.bytes (a : Attribute) (padding : List UInt8) : List UInt8 :=
  be2 a.type.toNat ++ be2 a.attr.length ++ a.attr ++ padding

/-- The bytes are those of the attributes, with some padding. -/
inductive Encoded : List Attribute → List UInt8 → Prop
  | nil : Encoded [] []
  | cons {a as padding bs} (hsize : (a.bytes padding).length = a.fullSize)
      (hrest : Encoded as bs) : Encoded (a :: as) (a.bytes padding ++ bs)

variable {bs : List UInt8} {as : List Attribute}

theorem Encoded.length_eq (h : Encoded as bs) : bs.length = attributesSize as := by
  induction h with
  | nil => rfl
  | cons hsize _ ih => rw [List.length_append, hsize, ih, attributesSize_cons]

section Writing

variable {pre old : List UInt8}

theorem putAt_attribute (a : Attribute) (post : List UInt8) (hold : old.length = 4 + a.attr.length) :
    ∃ d d', putAt pre.length (be2 a.type.toNat) (pre ++ old ++ post) = some d ∧
      putAt (pre.length + 2) (be2 a.attr.length) d = some d' ∧
        putAt (pre.length + 4) a.attr d' = some (pre ++ a.bytes [] ++ post) := by
  obtain ⟨type, old, rfl, htype⟩ := exists_append (show 2 ≤ old.length by omega)
  rw [List.length_append] at hold
  obtain ⟨size, attr, rfl, hsize⟩ := exists_append (show 2 ≤ old.length by omega)
  rw [List.length_append] at hold
  refine ⟨pre ++ be2 a.type.toNat ++ (size ++ attr) ++ post,
    pre ++ be2 a.type.toNat ++ be2 a.attr.length ++ attr ++ post, ?_, ?_, ?_⟩
  · have hlen : type.length = (be2 a.type.toNat).length := by simp [htype]
    simpa using putAt_over pre (size ++ attr ++ post) hlen
  · have hlen : size.length = (be2 a.attr.length).length := by simp [hsize]
    simpa using putAt_over (pre ++ be2 a.type.toNat) (attr ++ post) hlen
  · have hlen : attr.length = a.attr.length := by omega
    simpa [Attribute.bytes, Nat.add_assoc] using
      putAt_over (pre ++ be2 a.type.toNat ++ be2 a.attr.length) post hlen

theorem putAt_value (a : Attribute) (post : List UInt8) (hold : old.length = 4 + a.attr.length) :
    ∃ d d', putAt (pre.length + 4) a.attr (pre ++ old ++ post) = some d ∧
      putAt pre.length (be2 a.type.toNat) d = some d' ∧
        putAt (pre.length + 2) (be2 a.attr.length) d' = some (pre ++ a.bytes [] ++ post) := by
  obtain ⟨type, old, rfl, htype⟩ := exists_append (show 2 ≤ old.length by omega)
  rw [List.length_append] at hold
  obtain ⟨size, attr, rfl, hsize⟩ := exists_append (show 2 ≤ old.length by omega)
  rw [List.length_append] at hold
  refine ⟨pre ++ type ++ size ++ a.attr ++ post,
    pre ++ be2 a.type.toNat ++ size ++ a.attr ++ post, ?_, ?_, ?_⟩
  · have hlen : attr.length = a.attr.length := by omega
    simpa [htype, hsize, Nat.add_assoc] using putAt_over (pre ++ type ++ size) post hlen
  · have hlen : type.length = (be2 a.type.toNat).length := by simp [htype]
    simpa using putAt_over pre (size ++ a.attr ++ post) hlen
  · have hlen : size.length = (be2 a.attr.length).length := by simp [hsize]
    simpa [Attribute.bytes] using putAt_over (pre ++ be2 a.type.toNat) (a.attr ++ post) hlen

theorem writeAttribute_over (a : Attribute) (post : List UInt8) (hmod : pre.length % 4 = 0)
    (hold : old.length = a.fullSize) (hlt : pre.length + old.length < 2 ^ 32) :
    ∃ padding, (a.bytes padding).length = a.fullSize ∧
      writeAttribute (pre.length, pre ++ old ++ post) a =
        some (pre.length + a.fullSize, pre ++ a.bytes padding ++ post) := by
  have hle : 4 + a.attr.length ≤ old.length := hold ▸ le_pad32 _
  obtain ⟨old, padding, rfl, hattr⟩ := exists_append (show 4 + a.attr.length ≤ old.length by omega)
  rw [List.length_append] at hold hlt
  obtain ⟨d, d', h1, h2, h3⟩ := @putAt_attribute pre old a (padding ++ post) hattr
  have hnext : pad32 ((pre.length + 4 + a.attr.length) % 2 ^ 32) % 2 ^ 32 =
      pre.length + a.fullSize := by
    have h := pad32_next hmod a
    rw [Nat.mod_eq_of_lt (show pre.length < 2 ^ 32 by omega)] at h
    rw [h, Nat.mod_eq_of_lt (hold ▸ hlt)]
  have hbytes (xs : List UInt8) : pre ++ a.bytes [] ++ (padding ++ xs) =
      pre ++ a.bytes padding ++ xs := by
    simp [Attribute.bytes]
  refine ⟨padding, ?_, ?_⟩
  · simp only [Attribute.bytes, List.length_append, length_be2]
    omega
  · rw [writeAttribute, show pre ++ (old ++ padding) ++ post = pre ++ old ++ (padding ++ post) by simp]
    simp only [Option.bind_eq_bind, Nat.mod_eq_of_lt (show pre.length + 2 < 2 ^ 32 by omega), h1, h2,
      h3, hnext, hbytes, Option.bind_some]
    rfl

theorem foldlM_writeAttribute (as : List Attribute) (post : List UInt8)
    (hmod : pre.length % 4 = 0) (hold : old.length = attributesSize as)
    (hlt : pre.length + old.length < 2 ^ 32) :
    ∃ bs, Encoded as bs ∧ as.foldlM writeAttribute (pre.length, pre ++ old ++ post) =
      some (pre.length + bs.length, pre ++ bs ++ post) := by
  induction as generalizing pre old with
  | nil =>
    obtain rfl : old = [] := List.eq_nil_of_length_eq_zero hold
    exact ⟨[], .nil, rfl⟩
  | cons a as ih =>
    rw [attributesSize_cons] at hold
    obtain ⟨first, old, rfl, hfirst⟩ := exists_append (show a.fullSize ≤ old.length by omega)
    rw [List.length_append] at hold hlt
    obtain ⟨padding, hsize, hwrite⟩ :=
      writeAttribute_over a (old ++ post) hmod hfirst (by omega)
    have hlen : (pre ++ a.bytes padding).length = pre.length + a.fullSize := by
      rw [List.length_append, hsize]
    have hmod' := a.fullSize_mod
    obtain ⟨bs, hbs, hloop⟩ :=
      @ih (pre ++ a.bytes padding) old (by omega) (by omega) (by omega)
    refine ⟨a.bytes padding ++ bs, .cons hsize hbs, ?_⟩
    rw [hlen] at hloop
    rw [List.foldlM_cons, show pre ++ (first ++ old) ++ post = pre ++ first ++ (old ++ post) by simp,
      hwrite]
    simp only [Option.bind_eq_bind, Option.bind_some]
    rw [show pre ++ a.bytes padding ++ (old ++ post) = pre ++ a.bytes padding ++ old ++ post by simp,
      hloop, List.length_append, hsize]
    simp [Nat.add_assoc]

end Writing

/-- The header, with a length. -/
def header (m : STUNMessage) (length : Nat) : List UInt8 :=
  be2 m.msgTypeField ++ be2 length ++ magicCookie ++ m.transId

variable {data : List UInt8}

section Messages

variable (m : STUNMessage)

@[simp]
theorem length_header (length : Nat) : (m.header length).length = 20 := by
  simp [header, magicCookie, m.length_transId]

theorem writeHeader_over (msgSize : Nat) {old : List UInt8} (post : List UInt8)
    (hold : old.length = 20) :
    m.writeHeader msgSize (old ++ post) = some (m.header (wordSub msgSize 20) ++ post) := by
  obtain ⟨type, old, rfl, htype⟩ := exists_append (show 2 ≤ old.length by omega)
  rw [List.length_append] at hold
  obtain ⟨size, old, rfl, hsize⟩ := exists_append (show 2 ≤ old.length by omega)
  rw [List.length_append] at hold
  obtain ⟨cookie, transId, rfl, hcookie⟩ := exists_append (show 4 ≤ old.length by omega)
  rw [List.length_append] at hold
  have h1 : putAt 0 (be2 m.msgTypeField) (type ++ (size ++ (cookie ++ transId)) ++ post) =
      some (be2 m.msgTypeField ++ (size ++ (cookie ++ transId)) ++ post) := by
    have hlen : type.length = (be2 m.msgTypeField).length := by simp [htype]
    simpa using putAt_over [] (size ++ (cookie ++ transId) ++ post) hlen
  have h2 : putAt 2 (be2 (wordSub msgSize 20))
      (be2 m.msgTypeField ++ (size ++ (cookie ++ transId)) ++ post) =
        some (be2 m.msgTypeField ++ be2 (wordSub msgSize 20) ++ (cookie ++ transId) ++ post) := by
    have hlen : size.length = (be2 (wordSub msgSize 20)).length := by simp [hsize]
    simpa using putAt_over (be2 m.msgTypeField) (cookie ++ transId ++ post) hlen
  have h3 : putAt 4 magicCookie
      (be2 m.msgTypeField ++ be2 (wordSub msgSize 20) ++ (cookie ++ transId) ++ post) =
        some (be2 m.msgTypeField ++ be2 (wordSub msgSize 20) ++ magicCookie ++ transId ++ post) := by
    have hlen : cookie.length = magicCookie.length := hcookie
    simpa using putAt_over (be2 m.msgTypeField ++ be2 (wordSub msgSize 20)) (transId ++ post) hlen
  have h4 : putAt 8 m.transId
      (be2 m.msgTypeField ++ be2 (wordSub msgSize 20) ++ magicCookie ++ transId ++ post) =
        some (m.header (wordSub msgSize 20) ++ post) := by
    have hlen : transId.length = m.transId.length := by rw [m.length_transId]; omega
    simpa [header, magicCookie] using
      putAt_over (be2 m.msgTypeField ++ be2 (wordSub msgSize 20) ++ magicCookie) post hlen
  simp only [writeHeader, Option.bind_eq_bind, h1, h2, h3, h4, Option.bind_some]

theorem putAt_header (length length' : Nat) (post : List UInt8) :
    putAt 2 (be2 length') (m.header length ++ post) = some (m.header length' ++ post) := by
  have hlen : (be2 length).length = (be2 length').length := by simp
  simpa [header] using
    putAt_over (be2 m.msgTypeField) (magicCookie ++ m.transId ++ post) hlen

theorem nonAuthenticatedFingerPrint_eq
    (hle : 20 + attributesSize m.attributes ≤ data.length) (hlt : data.length < 2 ^ 32) :
    ∃ bs, Encoded m.attributes bs ∧ m.nonAuthenticatedFingerPrint data =
      some (some (20 + bs.length,
        m.header (wordSub (dwordSub m.getSize 32 % 2 ^ 16) 20) ++ bs ++
          data.drop (20 + bs.length))) := by
  obtain ⟨front, data, rfl, hfront⟩ := exists_append (show 20 ≤ data.length by omega)
  rw [List.length_append] at hle hlt
  obtain ⟨old, post, rfl, hold⟩ := exists_append (show attributesSize m.attributes ≤ data.length by omega)
  rw [List.length_append] at hlt
  generalize hlength : wordSub (dwordSub m.getSize 32 % 2 ^ 16) 20 = length
  obtain ⟨bs, hbs, hloop⟩ := @foldlM_writeAttribute (m.header length) old m.attributes post
    (by simp) hold (by simp; omega)
  have hlen := hbs.length_eq
  have hcheck : ¬(front ++ (old ++ post)).length < dwordSub m.getSize 32 % 2 ^ 16 := by
    have hsize := m.getSize_eq
    rw [fullSize] at hsize
    rw [dwordSub]
    simp only [List.length_append]
    split <;> omega
  have hdrop : (front ++ (old ++ post)).drop (20 + bs.length) = post := by
    rw [← List.append_assoc, List.drop_left' (by simp; omega)]
  refine ⟨bs, hbs, ?_⟩
  rw [nonAuthenticatedFingerPrint, if_neg hcheck, hdrop, writeHeader_over m _ _ hfront, hlength,
    ← List.append_assoc]
  simp only [length_header] at hloop
  simp only [Option.bind_eq_bind, Option.bind_some, hloop]
  rfl

/-- The attribute of the message integrity. -/
def integrity (hmac : HMACSHA1) (pwd data : List UInt8) : Attribute :=
  ⟨Attribute.messageIntegrity, hmac.digest pwd data, by rw [hmac.length_digest]; omega⟩

/-- The attribute of the fingerprint. -/
def fingerprintOf (data : List UInt8) : Attribute :=
  ⟨Attribute.fingerPrint, be4 (fingerprint data), by simp⟩

theorem fullSize_integrity (hmac : HMACSHA1) (pwd data : List UInt8) :
    (integrity hmac pwd data).fullSize = 24 := by
  rw [Attribute.fullSize, integrity, hmac.length_digest]
  rfl

theorem fullSize_fingerprintOf (data : List UInt8) : (fingerprintOf data).fullSize = 8 := by
  rw [Attribute.fullSize, fingerprintOf, length_be4]
  rfl

/-- What is in front of the fingerprint. -/
def sealed (hmac : HMACSHA1) (pwd bs : List UInt8) : List UInt8 :=
  let msgSize := m.getSize % 2 ^ 16
  m.header (wordSub msgSize 20) ++ bs ++
    (integrity hmac pwd (m.header (wordSub msgSize 28) ++ bs)).bytes []

theorem authenticatedFingerPrint_eq (hmac : HMACSHA1) (pwd : List UInt8)
    (hle : m.fullSize ≤ data.length) (hlt : data.length < 2 ^ 32) :
    ∃ bs, Encoded m.attributes bs ∧ m.authenticatedFingerPrint hmac pwd data =
      some (some (52 + bs.length, m.sealed hmac pwd bs ++
        (fingerprintOf (m.sealed hmac pwd bs)).bytes [] ++ data.drop (52 + bs.length))) := by
  rw [fullSize] at hle
  obtain ⟨front, data, rfl, hfront⟩ := exists_append (show 20 ≤ data.length by omega)
  rw [List.length_append] at hle hlt
  obtain ⟨old, data, rfl, hold⟩ := exists_append (show attributesSize m.attributes ≤ data.length by omega)
  rw [List.length_append] at hle hlt
  obtain ⟨mi, data, rfl, hmi⟩ := exists_append (show 24 ≤ data.length by omega)
  rw [List.length_append] at hle hlt
  obtain ⟨fp, post, rfl, hfp⟩ := exists_append (show 8 ≤ data.length by omega)
  rw [List.length_append] at hlt
  generalize hlength : wordSub (m.getSize % 2 ^ 16) 20 = length
  obtain ⟨bs, hbs, hloop⟩ := @foldlM_writeAttribute (m.header length) old m.attributes
    (mi ++ fp ++ post) (by simp) hold (by simp; omega)
  have hlen := hbs.length_eq
  have hcheck : ¬(front ++ (old ++ (mi ++ (fp ++ post)))).length < m.getSize % 2 ^ 16 := by
    have hsize := m.getSize_eq
    rw [fullSize] at hsize
    simp only [List.length_append]
    omega
  have hdrop : (front ++ (old ++ (mi ++ (fp ++ post)))).drop (52 + bs.length) = post := by
    rw [← List.append_assoc, ← List.append_assoc, ← List.append_assoc,
      List.drop_left' (by simp; omega)]
  have hdigest := hmac.length_digest pwd (m.header (wordSub (m.getSize % 2 ^ 16) 28) ++ bs)
  have hseal : m.sealed hmac pwd bs = m.header length ++ bs ++
      (integrity hmac pwd (m.header (wordSub (m.getSize % 2 ^ 16) 28) ++ bs)).bytes [] := by
    rw [sealed, hlength]
  generalize hlength' : wordSub (m.getSize % 2 ^ 16) 28 = length' at hdigest hseal
  have h1 : putAt 2 (be2 length') (m.header length ++ bs ++ (mi ++ (fp ++ post))) =
      some (m.header length' ++ bs ++ mi ++ (fp ++ post)) := by
    simpa using m.putAt_header length length' (bs ++ (mi ++ (fp ++ post)))
  have h2 : slice (m.header length' ++ bs ++ mi ++ (fp ++ post)) 0 (20 + bs.length) =
      some (m.header length' ++ bs) := by
    have h := @slice_left (m.header length' ++ bs) (mi ++ (fp ++ post))
    rw [List.length_append, length_header] at h
    rw [List.append_assoc _ mi, h]
  obtain ⟨d1, d2, h3, h4, h5⟩ := @putAt_value (m.header length' ++ bs) mi
    (integrity hmac pwd (m.header length' ++ bs)) (fp ++ post) (by rw [hmi, integrity, hdigest])
  have h6 : putAt 2 (be2 length) (m.header length' ++ bs ++
      (integrity hmac pwd (m.header length' ++ bs)).bytes [] ++ (fp ++ post)) =
        some (m.sealed hmac pwd bs ++ fp ++ post) := by
    simpa [hseal] using m.putAt_header length' length
      (bs ++ (integrity hmac pwd (m.header length' ++ bs)).bytes [] ++ (fp ++ post))
  have hsealed : (m.sealed hmac pwd bs).length = 20 + bs.length + 24 := by
    simp [hseal, Attribute.bytes, integrity, hdigest, Nat.add_assoc]
  have h7 : slice (m.sealed hmac pwd bs ++ fp ++ post) 0 (20 + bs.length + 24) =
      some (m.sealed hmac pwd bs) := by
    rw [List.append_assoc, ← hsealed, slice_left]
  obtain ⟨d3, d4, h8, h9, h10⟩ := @putAt_attribute (m.sealed hmac pwd bs) fp
    (fingerprintOf (m.sealed hmac pwd bs)) post (by rw [hfp]; simp [fingerprintOf])
  simp only [List.length_append, length_header, hsealed] at h3 h4 h5 h8 h9 h10 hloop
  simp only [integrity, fingerprintOf, hdigest] at h3 h4 h5 h6 h8 h9 h10
  rw [length_be4] at h9
  have hi1 : (20 + bs.length + 2) % 2 ^ 32 = 20 + bs.length + 2 := Nat.mod_eq_of_lt (by omega)
  have hmod := attributesSize_mod m.attributes
  have hi2 : pad32 ((20 + bs.length + 4 + 20) % 2 ^ 32) % 2 ^ 32 = 20 + bs.length + 24 := by
    rw [pad32_of_mod (by omega) (by omega)]
  have hi3 : (20 + bs.length + 24 + 2) % 2 ^ 32 = 20 + bs.length + 24 + 2 :=
    Nat.mod_eq_of_lt (by omega)
  have hi4 : (20 + bs.length + 24 + 4) % 2 ^ 32 = 20 + bs.length + 24 + 4 :=
    Nat.mod_eq_of_lt (by omega)
  have hi5 : pad32 ((20 + bs.length + 24 + 8) % 2 ^ 32) % 2 ^ 32 = 52 + bs.length := by
    rw [pad32_of_mod (by omega) (by omega)]
    omega
  refine ⟨bs, hbs, ?_⟩
  rw [authenticatedFingerPrint, if_neg hcheck, hdrop, writeHeader_over m _ _ hfront, hlength, hlength',
    ← List.append_assoc (m.header length)]
  rw [List.append_assoc mi] at hloop
  simp only [Option.bind_eq_bind, Option.bind_some, hloop, h1, h2, h3, h4, hi1, hdigest, h5, hi2, h6,
    h7, h8, hi3, h9, hi4, h10, hi5]
  rfl

end Messages

/-! ## What the parser reads -/

section Parsing

variable {pre post padding : List UInt8} {s : ParseState} {a : Attribute}

theorem parseAttributes_bytes (fuel : Nat) (hi : s.i = pre.length) (hmod : pre.length % 4 = 0)
    (hlt : (pre ++ a.bytes padding ++ post).length < 2 ^ 32)
    (hsize : (a.bytes padding).length = a.fullSize) (hfp : s.posFingerprint = none)
    (hmi : s.hasMessageIntegrity = true → a.type = Attribute.fingerPrint) :
    parseAttributes (pre ++ a.bytes padding ++ post) (fuel + 1) s =
      parseAttributes (pre ++ a.bytes padding ++ post) fuel
        { i := pre.length + a.fullSize
          hasMessageIntegrity :=
            s.hasMessageIntegrity || a.type.toNat == Attribute.messageIntegrity.toNat
          posFingerprint :=
            if a.type.toNat = Attribute.fingerPrint.toNat then some s.i else none
          attributes := s.attributes ++ [a] } := by
  have hle : 4 + a.attr.length ≤ a.fullSize := le_pad32 _
  have hlen : (pre ++ a.bytes padding ++ post).length = pre.length + a.fullSize + post.length := by
    rw [List.length_append, List.length_append, hsize]
  have htype : get2 (pre ++ a.bytes padding ++ post) s.i = some a.type.toNat := by
    rw [hi, List.append_assoc, get2_append (Nat.le_refl _), Nat.sub_self, Attribute.bytes]
    simp only [List.append_assoc]
    rw [get2_be2, Nat.mod_eq_of_lt a.type.toNat_lt]
  have hattrLen : get2 (pre ++ a.bytes padding ++ post) (s.i + 2) = some a.attr.length := by
    rw [hi, List.append_assoc, get2_append (by omega), Nat.add_sub_cancel_left, Attribute.bytes]
    simp only [List.append_assoc]
    rw [get2_append (by simp), length_be2, Nat.sub_self, get2_be2, Nat.mod_eq_of_lt a.size_lt]
  have hread : Attribute.read a.type.toNat (pre ++ a.bytes padding ++ post) (s.i + 4)
      a.attr.length = some a := by
    have hdrop : ((pre ++ a.bytes padding ++ post).drop (s.i + 4)).take a.attr.length = a.attr := by
      have hsplit : pre ++ a.bytes padding ++ post =
          (pre ++ be2 a.type.toNat ++ be2 a.attr.length) ++ (a.attr ++ (padding ++ post)) := by
        simp [Attribute.bytes]
      rw [hsplit, List.drop_left' (by simp [hi]), List.take_left' rfl]
    rw [Attribute.read, dif_pos ⟨by omega, a.size_lt⟩]
    simp only [hdrop, UInt16.ofNat_toNat]
  have hnext : pad32 ((s.i + 4 + a.attr.length) % 2 ^ 32) % 2 ^ 32 = pre.length + a.fullSize := by
    have h := pad32_next hmod a
    rw [Nat.mod_eq_of_lt (show pre.length < 2 ^ 32 by omega)] at h
    rw [hi, h, Nat.mod_eq_of_lt (by omega)]
  have hallowed : ¬(s.hasMessageIntegrity && a.type.toNat != Attribute.fingerPrint.toNat) = true := by
    intro h
    rw [Bool.and_eq_true, bne_iff_ne] at h
    exact h.2 (congrArg UInt16.toNat (hmi h.1))
  have hfirst : ¬(pre ++ a.bytes padding ++ post).length < s.i + 4 := by omega
  have hsecond : ¬(pre ++ a.bytes padding ++ post).length < s.i + 4 + a.attr.length := by omega
  have hlast : ¬s.posFingerprint.isSome = true := by simp [hfp]
  rw [parseAttributes, if_neg hfirst]
  simp only [Option.bind_eq_bind, htype, hattrLen, Option.bind_some, if_neg hsecond, if_neg hlast,
    if_neg hallowed, hread, hnext]

/-- Message integrity and fingerprint have a place of their own. -/
def Attribute.IsPlain (a : Attribute) : Prop :=
  a.type ≠ messageIntegrity ∧ a.type ≠ fingerPrint

instance (a : Attribute) : Decidable a.IsPlain :=
  inferInstanceAs (Decidable (_ ∧ _))

theorem parseAttributes_encoded (h : Encoded as bs)
    (hplain : ∀ a ∈ as, a.IsPlain) (fuel : Nat) (hi : s.i = pre.length)
    (hmod : pre.length % 4 = 0) (hlt : (pre ++ bs ++ post).length < 2 ^ 32)
    (hfp : s.posFingerprint = none) (hmi : s.hasMessageIntegrity = false) :
    parseAttributes (pre ++ bs ++ post) (as.length + fuel) s =
      parseAttributes (pre ++ bs ++ post) fuel
        ⟨pre.length + bs.length, false, none, s.attributes ++ as⟩ := by
  induction h generalizing pre s with
  | nil =>
    obtain ⟨i, mi, fp, attributes⟩ := s
    simp only at hi hfp hmi
    subst hi hfp hmi
    simp
  | @cons a as padding bs hsize hrest ih =>
    obtain ⟨hne, hne'⟩ := hplain a List.mem_cons_self
    have hmi' : (a.type.toNat == Attribute.messageIntegrity.toNat) = false :=
      beq_false_of_ne fun heq => hne (UInt16.toNat_inj.1 heq)
    have hfp' : a.type.toNat ≠ Attribute.fingerPrint.toNat := fun heq => hne' (UInt16.toNat_inj.1 heq)
    have hsplit : pre ++ (a.bytes padding ++ bs) ++ post = pre ++ a.bytes padding ++ (bs ++ post) := by
      simp
    have hsplit' : pre ++ (a.bytes padding ++ bs) ++ post = pre ++ a.bytes padding ++ bs ++ post := by
      simp
    have hstep := parseAttributes_bytes (as.length + fuel) hi hmod (hsplit ▸ hlt) hsize hfp
      (fun h => absurd h (by rw [hmi]; simp))
    have hmod' := a.fullSize_mod
    have hpre : (pre ++ a.bytes padding).length = pre.length + a.fullSize := by
      rw [List.length_append, hsize]
    have hih := @ih (pre ++ a.bytes padding)
      ⟨pre.length + a.fullSize, false, none, s.attributes ++ [a]⟩
      (fun b hb => hplain b (List.mem_cons_of_mem a hb)) hpre.symm (by omega) (hsplit' ▸ hlt) rfl rfl
    rw [hmi, hmi', if_neg hfp', Bool.or_false, ← hsplit] at hstep
    rw [List.length_cons, show as.length + 1 + fuel = as.length + fuel + 1 by omega, hstep, hsplit',
      hih, hpre, List.length_append, hsize]
    simp [Nat.add_assoc]

end Parsing

section Parsed

variable (m : STUNMessage)

theorem parse_header {length : Nat} {rest : List UInt8} {s : ParseState}
    (hloop : parseAttributes (m.header length ++ rest) (m.header length ++ rest).length
      ⟨20, false, none, []⟩ = some (some s))
    (hi : s.i = (m.header length ++ rest).length)
    (hcheck : checkFingerprint (m.header length ++ rest) s.posFingerprint = some true) :
    parse (m.header length ++ rest) = some (some { m with attributes := s.attributes }) := by
  have hlt := m.msgTypeField_lt
  have hhead : m.header length ++ rest =
      be2 m.msgTypeField ++ (be2 length ++ (magicCookie ++ (m.transId ++ rest))) := by
    simp [header]
  have hfield : get2 (m.header length ++ rest) 0 = some m.msgTypeField := by
    rw [hhead, get2_be2, Nat.mod_eq_of_lt (by omega)]
  have hhigh : get1 (m.header length ++ rest) 0 = some (m.msgTypeField / 2 ^ 8) := by
    rw [hhead, be2, List.append_assoc, get1_be1, Nat.mod_eq_of_lt (by omega)]
  have hlow : get1 (m.header length ++ rest) 1 = some (m.msgTypeField % 2 ^ 8) := by
    rw [hhead, be2, List.append_assoc, get1_append (by simp), length_be1, Nat.sub_self, get1_be1]
  have hcookie : slice (m.header length ++ rest) 4 4 = some magicCookie := by
    have h := @slice_left magicCookie (m.transId ++ rest)
    rw [hhead, slice_append (by simp), length_be2, slice_append (by simp), length_be2]
    exact h
  have htransId : slice (m.header length ++ rest) 8 12 = some m.transId := by
    have h := @slice_left m.transId rest
    rw [m.length_transId] at h
    rw [hhead, slice_append (by simp), length_be2, slice_append (by simp), length_be2,
      slice_append (by simp [magicCookie])]
    exact h
  have hstun : isSTUN (m.header length ++ rest) = some true := by
    have h20 : ¬(m.header length ++ rest).length < 20 := by simp
    rw [isSTUN, if_neg h20]
    simpa [hhigh, hcookie] using m.msgTypeField_land
  rw [parse]
  simp only [Option.bind_eq_bind, hstun, Option.bind_some, hfield, hhigh, hlow, htransId, hloop,
    hcheck, Bool.not_true, Bool.false_eq_true, if_false, hi, ne_eq, not_true_eq_false,
    dif_pos m.length_transId]
  simp only [typeOfField_msgTypeField, methodOfField_msgTypeField, Fin.ofNat_val_eq_self]
  rfl

theorem parseAttributes_of_lt {s : ParseState} (h : data.length < s.i + 4)
    (fuel : Nat) : parseAttributes data fuel s = some (some s) := by
  cases fuel <;> rw [parseAttributes, if_pos h]

theorem Encoded.length_le (h : Encoded as bs) : as.length ≤ bs.length := by
  induction h with
  | nil => exact Nat.le_refl 0
  | @cons a as padding bs hsize hrest ih =>
    have := a.four_le_fullSize
    rw [List.length_cons, List.length_append, hsize]
    omega

theorem parse_encoded {length : Nat} (h : Encoded m.attributes bs)
    (hplain : ∀ a ∈ m.attributes, a.IsPlain) (hlt : (m.header length ++ bs).length < 2 ^ 32) :
    parse (m.header length ++ bs) = some (some m) := by
  obtain ⟨fuel, hfuel⟩ : ∃ fuel, (m.header length ++ bs).length = m.attributes.length + fuel :=
    ⟨_, (Nat.add_sub_cancel' (h.length_le.trans (by simp))).symm⟩
  have hloop := @parseAttributes_encoded _ _ (m.header length) [] ⟨20, false, none, []⟩ h hplain fuel
    (by simp) (by simp) (by simpa using hlt) rfl rfl
  rw [List.append_nil, ← hfuel] at hloop
  exact m.parse_header (hloop.trans (parseAttributes_of_lt (by simp) fuel)) (by simp) rfl

theorem parse_sealed (hmac : HMACSHA1) (pwd : List UInt8)
    (h : Encoded m.attributes bs) (hplain : ∀ a ∈ m.attributes, a.IsPlain)
    (hlt : 52 + bs.length < 2 ^ 32) :
    ∃ mi fp : Attribute, mi.type = Attribute.messageIntegrity ∧ fp.type = Attribute.fingerPrint ∧
      parse (m.sealed hmac pwd bs ++ (fingerprintOf (m.sealed hmac pwd bs)).bytes []) =
        some (some { m with attributes := m.attributes ++ [mi, fp] }) := by
  generalize hmi : integrity hmac pwd (m.header (wordSub (m.getSize % 2 ^ 16) 28) ++ bs) = mi
  generalize hfp : fingerprintOf (m.sealed hmac pwd bs) = fp
  have hmiType : mi.type = Attribute.messageIntegrity := hmi ▸ rfl
  have hfpType : fp.type = Attribute.fingerPrint := hfp ▸ rfl
  have hmiSize : mi.fullSize = 24 := hmi ▸ fullSize_integrity ..
  have hfpSize : fp.fullSize = 8 := hfp ▸ fullSize_fingerprintOf _
  have hmiLength : (mi.bytes []).length = 24 := by
    rw [← hmi]
    simp [Attribute.bytes, integrity, hmac.length_digest]
  have hfpLength : (fp.bytes []).length = 8 := by
    rw [← hfp]
    simp [Attribute.bytes, fingerprintOf]
  refine ⟨mi, fp, hmiType, hfpType, ?_⟩
  have hseal : m.sealed hmac pwd bs = m.header (wordSub (m.getSize % 2 ^ 16) 20) ++ bs ++
      mi.bytes [] := by
    rw [sealed, hmi]
  generalize m.sealed hmac pwd bs = front at hseal hfp ⊢
  generalize wordSub (m.getSize % 2 ^ 16) 20 = length at hseal
  have hfront : front.length = 20 + bs.length + 24 := by
    rw [hseal]
    simp [hmiLength]
    omega
  have hmod := h.length_eq ▸ attributesSize_mod m.attributes
  obtain ⟨fuel, hfuel⟩ : ∃ fuel, (front ++ fp.bytes []).length = m.attributes.length + (fuel + 2) :=
    ⟨(front ++ fp.bytes []).length - m.attributes.length - 2, by
      have := h.length_le
      rw [List.length_append]
      omega⟩
  have hdata : front ++ fp.bytes [] = m.header length ++ bs ++ (mi.bytes [] ++ fp.bytes []) := by
    rw [hseal]
    simp
  have hdata' : front ++ fp.bytes [] = m.header length ++ bs ++ mi.bytes [] ++ fp.bytes [] := by
    rw [hseal]
  have hsize : (front ++ fp.bytes []).length < 2 ^ 32 := by
    rw [List.length_append, hfpLength]
    omega
  have hpre : (m.header length ++ bs).length = 20 + bs.length := by simp
  have h1 := @parseAttributes_encoded _ _ (m.header length) (mi.bytes [] ++ fp.bytes [])
    ⟨20, false, none, []⟩ h hplain (fuel + 2) (by simp) (by simp) (hdata ▸ hsize) rfl rfl
  have h2 := @parseAttributes_bytes (m.header length ++ bs) (fp.bytes []) []
    ⟨20 + bs.length, false, none, m.attributes⟩ mi (fuel + 1) hpre.symm (by omega)
    (hdata' ▸ hsize) (by omega) rfl (fun h => nomatch h)
  have h3 := @parseAttributes_bytes front [] [] ⟨front.length, true, none, m.attributes ++ [mi]⟩ fp
    fuel rfl (by omega) (by simpa using hsize) (by omega) rfl (fun _ => hfpType)
  have hne : ¬Attribute.messageIntegrity.toNat = Attribute.fingerPrint.toNat := by decide
  simp only [hmiType, if_neg hne, Bool.false_or, beq_self_eq_true, hmiSize, hpre] at h2
  simp only [hfpType, if_true, Bool.true_or, hfpSize, List.append_nil] at h3
  rw [length_header, ← hdata, ← hfuel, List.nil_append] at h1
  rw [← hdata', ← hfront] at h2
  have hloop := h1.trans (h2.trans (h3.trans (parseAttributes_of_lt (by simp [hfpLength]) fuel)))
  have hcheck : checkFingerprint (front ++ fp.bytes []) (some front.length) = some true := by
    have hlt' : fingerprint front < 2 ^ 32 := UInt32.toNat_lt _
    have hvalue : fp.bytes [] = (be2 fp.type.toNat ++ be2 fp.attr.length) ++
        (be4 (fingerprint front) ++ []) := by
      rw [← hfp]
      simp [Attribute.bytes, fingerprintOf]
    have hget : get4 (front ++ fp.bytes []) (front.length + 4) = some (fingerprint front) := by
      rw [get4_append (by omega), Nat.add_sub_cancel_left, hvalue, get4_append (by simp)]
      simp only [List.length_append, length_be2, Nat.sub_self, get4_be4, Nat.mod_eq_of_lt hlt']
    simp [checkFingerprint, hget]
  have hall : front ++ fp.bytes [] = m.header length ++ (bs ++ (mi.bytes [] ++ fp.bytes [])) := by
    rw [hdata, List.append_assoc]
  have hparse := m.parse_header (hall ▸ hloop) (by rw [← hall]; simp [hfpLength]) (hall ▸ hcheck)
  rw [hall, hparse, List.append_assoc]
  rfl

end Parsed

/-! ## Sizes of what is parsed -/

theorem size_of_parseAttributes (hdata : data.length % 4 = 0)
    (hlt : data.length < 2 ^ 32) {fuel : Nat} {s s' : ParseState} (hmod : s.i % 4 = 0)
    (h : parseAttributes data fuel s = some (some s')) :
    ∃ as, s'.attributes = s.attributes ++ as ∧ s'.i = s.i + attributesSize as := by
  induction fuel generalizing s with
  | zero =>
    rw [parseAttributes] at h
    split at h
    · cases h
      exact ⟨[], by simp, rfl⟩
    · cases h
  | succ fuel ih =>
    rw [parseAttributes] at h
    split at h
    · cases h
      exact ⟨[], by simp, rfl⟩
    · simp only [Option.bind_eq_bind, Option.bind_eq_some_iff] at h
      obtain ⟨attrType, -, attrLen, -, h⟩ := h
      split at h
      · cases h
      · split at h
        · cases h
        · split at h
          · cases h
          · simp only [Option.bind_eq_some_iff] at h
            obtain ⟨a, hread, h⟩ := h
            have hlen : a.attr.length = attrLen := by
              unfold Attribute.read at hread
              split at hread
              case isTrue hle =>
                cases hread
                rw [List.length_take, List.length_drop]
                omega
              case isFalse => cases hread
            have hnext : pad32 ((s.i + 4 + attrLen) % 2 ^ 32) % 2 ^ 32 = s.i + a.fullSize := by
              have hle := pad32_lt (4 + attrLen)
              have hmod' := a.fullSize_mod
              have h := pad32_next hmod a
              rw [Nat.mod_eq_of_lt (show s.i < 2 ^ 32 by omega), hlen] at h
              rw [Attribute.fullSize, hlen] at hmod' h ⊢
              rw [h, Nat.mod_eq_of_lt (by omega)]
            have hmod' := a.fullSize_mod
            have hmod'' : (s.i + a.fullSize) % 4 = 0 := by omega
            obtain ⟨as, has, hi⟩ := ih (by rwa [hnext]) h
            refine ⟨a :: as, by rw [has, List.append_assoc, List.singleton_append], ?_⟩
            rw [hi, hnext, attributesSize_cons, Nat.add_assoc]

theorem size_of_parse {m : STUNMessage} (hdata : data.length % 4 = 0)
    (hlt : data.length < 2 ^ 32) (h : parse data = some (some m)) :
    20 + attributesSize m.attributes = data.length := by
  rw [parse] at h
  simp only [Option.bind_eq_bind, Option.bind_eq_some_iff] at h
  obtain ⟨stun, -, h⟩ := h
  split at h
  · cases h
  · simp only [Option.bind_eq_some_iff] at h
    obtain ⟨field, -, high, -, low, -, transId, -, s, hloop, h⟩ := h
    split at h
    · cases h
    · split at h
      · cases h
      · simp only [Option.bind_eq_some_iff] at h
        obtain ⟨checked, -, h⟩ := h
        split at h
        · cases h
        · split at h
          · cases h
            obtain ⟨as, has, hi⟩ := size_of_parseAttributes hdata hlt (by rfl) hloop
            rw [List.nil_append] at has
            simp only [ne_eq, Decidable.not_not] at *
            rw [has]
            omega
          · cases h

/-! ## The round trip -/

/-- What a writer owes for a message of `size` bytes, unless it refuses the buffer: it stays inside
the buffer, says how much it has written, has put the right length into the header, and the parser
accepts the bytes as a message of which `P` holds. -/
def Delivers (write : List UInt8 → Option (Option (Nat × List UInt8))) (size : Nat)
    (P : STUNMessage → Prop) (data : List UInt8) : Prop :=
  ∃ result, write data = some result ∧ ∀ r ∈ result,
    r.1 = size ∧ r.1 ≤ data.length ∧ r.2.length = data.length ∧ r.2.drop r.1 = data.drop r.1 ∧
      get2 r.2 2 = some (r.1 - 20) ∧ ∃ m', parse (r.2.take r.1) = some (some m') ∧ P m'

/-- The same message, with one message integrity and one fingerprint behind its attributes. -/
def IsSealed (m m' : STUNMessage) : Prop :=
  m'.type = m.type ∧ m'.method = m.method ∧ m'.transId = m.transId ∧
    ∃ mi fp : Attribute, mi.type = Attribute.messageIntegrity ∧ fp.type = Attribute.fingerPrint ∧
      m'.attributes = m.attributes ++ [mi, fp]

/-- The buffer is refused, or it holds the message and the length behind the header has 16 bits. -/
def Fits (size room : Nat) : Prop :=
  room < size % 2 ^ 16 ∨ size ≤ room ∧ size < 2 ^ 16 + 20

instance (size room : Nat) : Decidable (Fits size room) :=
  inferInstanceAs (Decidable (_ ∨ _ ∧ _))

section Delivers

variable (m : STUNMessage)

theorem fullSize_mod : m.fullSize % 4 = 0 := by
  have := attributesSize_mod m.attributes
  rw [fullSize]
  omega

theorem getSize_mod_word : m.getSize % 2 ^ 16 = m.fullSize % 2 ^ 16 := by
  rw [getSize_eq]
  omega

theorem dwordSub_getSize_mod_word :
    dwordSub m.getSize 32 % 2 ^ 16 = (m.fullSize - 32) % 2 ^ 16 := by
  rw [getSize_eq, dwordSub, fullSize]
  split <;> omega

theorem authenticatedFingerPrint_of_lt (hmac : HMACSHA1) (pwd : List UInt8)
    (h : data.length < m.fullSize % 2 ^ 16) :
    m.authenticatedFingerPrint hmac pwd data = some none := by
  rw [authenticatedFingerPrint, if_pos (by rwa [getSize_mod_word])]
  rfl

theorem nonAuthenticatedFingerPrint_of_lt (h : data.length < (m.fullSize - 32) % 2 ^ 16) :
    m.nonAuthenticatedFingerPrint data = some none := by
  rw [nonAuthenticatedFingerPrint, if_pos (by rwa [dwordSub_getSize_mod_word])]
  rfl

theorem lt_of_authenticatedFingerPrint {hmac : HMACSHA1} {pwd data : List UInt8}
    (h : m.authenticatedFingerPrint hmac pwd data = some none) :
    data.length < m.fullSize % 2 ^ 16 := by
  rw [← getSize_mod_word]
  by_contra hle
  rw [authenticatedFingerPrint, if_neg hle] at h
  simp [Option.bind_eq_some_iff] at h

theorem lt_of_nonAuthenticatedFingerPrint (h : m.nonAuthenticatedFingerPrint data = some none) :
    data.length < (m.fullSize - 32) % 2 ^ 16 := by
  rw [← dwordSub_getSize_mod_word]
  by_contra hle
  rw [nonAuthenticatedFingerPrint, if_neg hle] at h
  simp [Option.bind_eq_some_iff] at h

theorem get2_header (length : Nat) (rest : List UInt8) :
    get2 (m.header length ++ rest) 2 = some (length % 2 ^ 16) := by
  have hhead : m.header length ++ rest =
      be2 m.msgTypeField ++ (be2 length ++ (magicCookie ++ (m.transId ++ rest))) := by
    simp [header]
  rw [hhead, get2_append (by simp), length_be2, Nat.sub_self, get2_be2]

theorem wordSub_of_fits {size : Nat} (h20 : 20 ≤ size) (h : size < 2 ^ 16 + 20) :
    wordSub (size % 2 ^ 16) 20 % 2 ^ 16 = size - 20 := by
  unfold wordSub
  split <;> omega

theorem delivers_of_parse {write : List UInt8 → Option (Option (Nat × List UInt8))} {n length : Nat}
    {P : STUNMessage → Prop} {rest data : List UInt8} {m' : STUNMessage}
    (hwrite : write data = some (some (n, m.header length ++ rest ++ data.drop n)))
    (hlen : (m.header length ++ rest).length = n) (hle : n ≤ data.length)
    (hlength : length % 2 ^ 16 = n - 20)
    (hparse : parse (m.header length ++ rest) = some (some m')) (hP : P m') :
    Delivers write n P data := by
  refine ⟨_, hwrite, fun r hr => ?_⟩
  obtain rfl := Option.some.inj hr
  have hdrop : (m.header length ++ rest ++ data.drop n).drop n = data.drop n :=
    List.drop_left' hlen
  have htake : (m.header length ++ rest ++ data.drop n).take n = m.header length ++ rest :=
    List.take_left' hlen
  refine ⟨rfl, hle, ?_, hdrop, ?_, m', ?_, hP⟩
  · rw [List.length_append, hlen, List.length_drop]
    exact Nat.add_sub_cancel' hle
  · rw [List.append_assoc, get2_header, hlength]
  · rw [htake, hparse]

theorem authenticatedFingerPrint_delivers_iff (hplain : ∀ a ∈ m.attributes, a.IsPlain)
    (hmac : HMACSHA1) (pwd : List UInt8) (hlt : data.length < 2 ^ 32) :
    Delivers (m.authenticatedFingerPrint hmac pwd) m.getSize m.IsSealed data ↔
      Fits m.fullSize data.length := by
  constructor
  · intro ⟨result, hwrite, hresult⟩
    cases result with
    | none => exact .inl (m.lt_of_authenticatedFingerPrint hwrite)
    | some r =>
      obtain ⟨hn, hle, hlen, -, hget, m', hparse, -, -, -, mi, fp, -, -, hattrs⟩ := hresult r rfl
      have htake : (r.2.take r.1).length = r.1 := by
        rw [List.length_take]
        omega
      have hmod := m.fullSize_mod
      have hsize := size_of_parse (by rw [htake, hn, getSize_eq]; omega) (by omega) hparse
      have hmi := mi.four_le_fullSize
      have hfp := fp.four_le_fullSize
      have hshort := get2_lt hget
      rw [htake, hattrs, attributesSize_append, attributesSize_cons, attributesSize_cons, hn,
        getSize_eq] at hsize
      rw [hn, getSize_eq] at hle hshort
      rw [fullSize] at hsize hle hshort
      refine .inr ⟨?_, ?_⟩
      · rw [fullSize]
        omega
      · rw [fullSize]
        omega
  · rintro (hrefused | ⟨hle, hshort⟩)
    · exact ⟨none, m.authenticatedFingerPrint_of_lt hmac pwd hrefused, fun r hr => nomatch hr⟩
    · obtain ⟨bs, hbs, hwrite⟩ := m.authenticatedFingerPrint_eq hmac pwd hle hlt
      have hsize : 52 + bs.length = m.fullSize := by rw [hbs.length_eq, fullSize]
      have hget : m.getSize = m.fullSize := by
        rw [getSize_eq, Nat.mod_eq_of_lt (by omega)]
      obtain ⟨mi, fp, hmi, hfp, hparse⟩ := m.parse_sealed hmac pwd hbs hplain (by omega)
      have hlength := @wordSub_of_fits m.fullSize (by rw [fullSize]; omega) hshort
      have hlen : (m.sealed hmac pwd bs ++
          (fingerprintOf (m.sealed hmac pwd bs)).bytes []).length = m.fullSize := by
        simp [sealed, Attribute.bytes, integrity, fingerprintOf, hmac.length_digest]
        omega
      rw [sealed] at hwrite hparse hlen
      simp only [List.append_assoc] at hwrite hparse hlen
      rw [hsize] at hwrite
      rw [hget] at hwrite hparse hlen ⊢
      simp only [← List.append_assoc _ _ (data.drop _)] at hwrite
      exact m.delivers_of_parse (by simpa using hwrite) hlen hle hlength hparse
        ⟨rfl, rfl, rfl, mi, fp, hmi, hfp, rfl⟩

theorem nonAuthenticatedFingerPrint_delivers_iff (hplain : ∀ a ∈ m.attributes, a.IsPlain)
    (hlt : data.length < 2 ^ 32) :
    Delivers m.nonAuthenticatedFingerPrint (dwordSub m.getSize 32) (· = m) data ↔
      Fits (m.fullSize - 32) data.length := by
  constructor
  · intro ⟨result, hwrite, hresult⟩
    cases result with
    | none => exact .inl (m.lt_of_nonAuthenticatedFingerPrint hwrite)
    | some r =>
      obtain ⟨hn, hle, hlen, -, hget, m', hparse, rfl⟩ := hresult r rfl
      have htake : (r.2.take r.1).length = r.1 := by
        rw [List.length_take]
        omega
      have hmod := m'.fullSize_mod
      have hmod' : r.1 % 4 = 0 := by
        rw [hn, getSize_eq, dwordSub]
        split <;> omega
      have hsize := size_of_parse (by rw [htake, hmod']) (by omega) hparse
      have hshort := get2_lt hget
      rw [htake] at hsize
      refine .inr ⟨?_, ?_⟩
      · rw [fullSize]
        omega
      · rw [fullSize]
        omega
  · rintro (hrefused | ⟨hle, hshort⟩)
    · exact ⟨none, m.nonAuthenticatedFingerPrint_of_lt hrefused, fun r hr => nomatch hr⟩
    · rw [fullSize] at hle hshort
      obtain ⟨bs, hbs, hwrite⟩ := m.nonAuthenticatedFingerPrint_eq (by omega) hlt
      have hlength := hbs.length_eq
      have hsize : dwordSub m.getSize 32 = 20 + bs.length := by
        rw [getSize_eq, fullSize, Nat.mod_eq_of_lt (by omega), dwordSub, if_pos (by omega)]
        omega
      have hheader := @wordSub_of_fits (20 + bs.length) (by omega) (by omega)
      have hparse := @parse_encoded bs m (wordSub ((20 + bs.length) % 2 ^ 16) 20) hbs hplain
        (by rw [List.length_append, length_header]; omega)
      rw [hsize] at hwrite ⊢
      exact m.delivers_of_parse hwrite (by simp) (by omega) hheader hparse rfl

/-- **Round trips of STUN messages.** Both writers deliver the message exactly when they refuse the
buffer or the buffer holds the message and its length behind the header has 16 bits. Reference:
`stunmessage.cpp:194` and `stunmessage.cpp:243`. -/
theorem fingerPrint_delivers_iff (hplain : ∀ a ∈ m.attributes, a.IsPlain) (hmac : HMACSHA1)
    (pwd data : List UInt8) (hlt : data.length < 2 ^ 32) :
    (Delivers (m.authenticatedFingerPrint hmac pwd) m.getSize m.IsSealed data ↔
        Fits m.fullSize data.length) ∧
      (Delivers m.nonAuthenticatedFingerPrint (dwordSub m.getSize 32) (· = m) data ↔
        Fits (m.fullSize - 32) data.length) :=
  ⟨m.authenticatedFingerPrint_delivers_iff hplain hmac pwd hlt,
    m.nonAuthenticatedFingerPrint_delivers_iff hplain hlt⟩

end Delivers

/-- A digest of 20 zeros. -/
def zeroDigest : HMACSHA1 := ⟨fun _ _ => List.replicate 20 0, fun _ _ => List.length_replicate⟩

theorem length_priority : [(2 : UInt8), 0, 0, 0xFF].length < 2 ^ 16 := by decide

theorem length_useCandidate : ([] : List UInt8).length < 2 ^ 16 := by decide

theorem request_lt : 0 < 4 := by decide

theorem binding_lt : 1 < 2 ^ 12 := by decide

/-- A binding request with a priority and the empty attribute of a candidate that is used. -/
def bindingRequest : STUNMessage :=
  ⟨⟨0, request_lt⟩, ⟨1, binding_lt⟩, List.replicate 12 7,
    [⟨0x0024, [2, 0, 0, 0xFF], length_priority⟩, ⟨0x0025, [], length_useCandidate⟩], rfl⟩

/-- A buffer of an Ethernet frame holds the request. -/
theorem bindingRequest_delivers :
    (Delivers (bindingRequest.authenticatedFingerPrint zeroDigest []) bindingRequest.getSize
        bindingRequest.IsSealed (List.replicate 1500 0) ↔ Fits bindingRequest.fullSize 1500) ∧
      (Delivers bindingRequest.nonAuthenticatedFingerPrint (dwordSub bindingRequest.getSize 32)
        (· = bindingRequest) (List.replicate 1500 0) ↔ Fits (bindingRequest.fullSize - 32) 1500) := by
  have h := bindingRequest.fingerPrint_delivers_iff (by decide) zeroDigest [] (List.replicate 1500 0)
    (by rw [List.length_replicate]; decide)
  rwa [List.length_replicate] at h

theorem longest_lt : 65535 < 2 ^ 16 := by decide

/-- A user name of `n` bytes. -/
def userName (n : Nat) (h : n < 2 ^ 16) : Attribute :=
  ⟨0x0006, List.replicate n 0x61, by rwa [List.length_replicate]⟩

theorem fullSize_userName (n : Nat) (h : n < 2 ^ 16) : (userName n h).fullSize = pad32 (4 + n) := by
  rw [Attribute.fullSize, userName, List.length_replicate]

theorem fullSize_of_attributes_eq {m : STUNMessage} {a : Attribute} (h : m.attributes = [a]) :
    m.fullSize = 52 + a.fullSize := by
  rw [fullSize, h, attributesSize_cons]
  rfl

/-- A binding request whose user name fills an attribute. -/
def longRequest : STUNMessage :=
  ⟨⟨0, request_lt⟩, ⟨1, binding_lt⟩, List.replicate 12 7, [userName 65535 longest_lt], rfl⟩

/-- Such a message is larger than 2^16 bytes and is written over the end of the buffer. -/
theorem not_delivers_longRequest :
    ¬Delivers (longRequest.authenticatedFingerPrint zeroDigest []) longRequest.getSize
      longRequest.IsSealed (List.replicate 1500 0) := by
  have hsize : longRequest.fullSize = 65592 := by
    rw [@fullSize_of_attributes_eq longRequest _ rfl, fullSize_userName]
    rfl
  have hplain : ∀ a ∈ longRequest.attributes, a.IsPlain := by
    intro a ha
    obtain rfl := List.mem_singleton.1 ha
    have hne : (0x0006 : UInt16) ≠ Attribute.messageIntegrity ∧
        (0x0006 : UInt16) ≠ Attribute.fingerPrint := by decide
    exact hne
  rw [authenticatedFingerPrint_delivers_iff _ hplain _ _ (by rw [List.length_replicate]; decide),
    hsize, List.length_replicate]
  decide

end STUNMessage

end McuMediaServer
