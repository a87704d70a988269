import McuMediaServer.BitReader
import Mathlib.Algebra.Ring.Nat

/-!
# The round trip of bit fields

Fields put with `BitWritter` and flushed are read back with `BitReader`. `Holds` says of a writer
which bits it has been given: those of the bytes written and those of the cache. A put appends its
bits (`Holds.put_of_fits`, `Holds.put_of_spills`) unless it starts where the cache is full, for then
the masks are shifted by 32, or the buffer is at its end. Reading takes the bits off again; what
fails there is the end of the stream, which the reader does not notice while a last incomplete word
has not been loaded. `bitFields_roundTrip_iff` puts these conditions together.
-/

namespace McuMediaServer

open ByteSeq

/-- A value and the number of bits it is written with. -/
structure BitField where
  width : Nat
  value : Nat
  width_pos : 0 < width
  width_le : width ≤ 32
  deriving Repr

/-- The bits of fields, one after the other. -/
def fieldBits (fields : List BitField) : List Bool :=
  fields.flatMap fun f => toBits f.width f.value

/-- How many bits fields take. -/
def fieldWidth (fields : List BitField) : Nat :=
  (fieldBits fields).length

@[simp]
theorem fieldBits_nil : fieldBits [] = [] := rfl

@[simp]
theorem fieldBits_cons (f : BitField) (fields : List BitField) :
    fieldBits (f :: fields) = toBits f.width f.value ++ fieldBits fields :=
  List.flatMap_cons

@[simp]
theorem fieldWidth_nil : fieldWidth [] = 0 := rfl

@[simp]
theorem fieldWidth_cons (f : BitField) (fields : List BitField) :
    fieldWidth (f :: fields) = f.width + fieldWidth fields := by
  simp [fieldWidth]

/-! ## Writing -/

namespace BitWritter

variable {w : BitWritter} {size n v : Nat} {bits : List Bool}

/-- The writer over a buffer of `size` bytes has been given the bits. The bytes written are whole
words, and the last word stays in the cache even when it is full. -/
structure Holds (w : BitWritter) (size : Nat) (bits : List Bool) : Prop where
  inCache : ∃ pending, w.cached = pending.length ∧ w.cache = ofBits pending ∧
    bits = byteBits (w.data.take w.bufferLen) ++ pending
  length_data : w.data.length = size
  bufferSize_add : w.bufferSize + w.bufferLen = size
  bufferLen_eq : w.bufferLen = 4 * ((bits.length - 1) / 32)

theorem holds_new (data : List UInt8) : Holds { data } data.length [] where
  inCache := ⟨[], rfl, rfl, by simp [byteBits]⟩
  length_data := rfl
  bufferSize_add := rfl
  bufferLen_eq := rfl

theorem Holds.cached_eq (h : w.Holds size bits) :
    w.cached = bits.length - 32 * ((bits.length - 1) / 32) := by
  obtain ⟨pending, hcached, -, hbits⟩ := h.inCache
  have hdata := h.length_data
  have hsize := h.bufferSize_add
  have hlen := h.bufferLen_eq
  have hlength := congrArg List.length hbits
  rw [List.length_append, length_byteBits, List.length_take] at hlength
  omega

theorem Holds.put_of_fits (h : w.Holds size bits) (hn : 0 < n) (hn32 : n < 32)
    (hfits : n + w.cached ≤ 32) (v : Nat) :
    ∃ w', w.put n v = .ok w' ∧ w'.Holds size (bits ++ toBits n v) := by
  have hcached := h.cached_eq
  obtain ⟨pending, hpending, hcache, hbits⟩ := h.inCache
  have hlt : w.cache < 2 ^ w.cached := by
    rw [hcache, hpending]
    exact ofBits_lt pending
  refine ⟨_, put_of_le v hn hn32 hfits hlt, ⟨pending ++ toBits n v, ?_, ?_, ?_⟩, h.length_data,
    h.bufferSize_add, ?_⟩
  · rw [List.length_append, length_toBits, ← hpending]
  · rw [ofBits_append, ofBits_toBits, length_toBits, ← hcache]
  · rw [← List.append_assoc, ← hbits]
  · have := h.bufferLen_eq
    rw [List.length_append, length_toBits]
    change w.bufferLen = _
    omega

/-- Writing the cache out appends its bytes, if the bytes left are as many, counted in bits modulo
`2 ^ 32`. -/
theorem take_write (h : w.Holds size bits) {bytes : List UInt8}
    (hle : w.bufferLen + bytes.length ≤ size) :
    (w.write bytes).data.take (w.write bytes).bufferLen = w.data.take w.bufferLen ++ bytes ∧
      (w.write bytes).data.length = size ∧
      (w.write bytes).bufferSize + (w.write bytes).bufferLen = size := by
  have hdata := h.length_data
  have hsize := h.bufferSize_add
  simp only [write]
  refine ⟨?_, ?_, by omega⟩
  · rw [List.take_append_of_le_length (by simp; omega),
      List.take_of_length_le (by simp)]
  · simp
    omega

theorem mask_eq (hn : n ≤ 32) (hpos : 0 < n) : shr32 0xFFFFFFFF (32 - n) = .ok (2 ^ n - 1) := by
  have hall : ∀ m ≤ 32, 0xFFFFFFFF >>> (32 - m) = 2 ^ m - 1 := by decide
  rw [shr32, if_pos (by omega), hall n hn]

theorem Holds.put_of_spills (h : w.Holds size bits) (hn : n ≤ 32) (hspills : 32 < n + w.cached)
    (hfull : w.cached < 32) (hroom : ¬w.bufferSize * 8 % 2 ^ 32 < 32) (v : Nat) :
    ∃ w', w.put n v = .ok w' ∧ w'.Holds size (bits ++ toBits n v) := by
  have hcached := h.cached_eq
  have hsize := h.bufferSize_add
  obtain ⟨pending, hpending, hcache, hbits⟩ := h.inCache
  obtain ⟨a, ha⟩ : ∃ a, 32 - w.cached = a := ⟨_, rfl⟩
  obtain ⟨b, hb⟩ : ∃ b, n - a = b := ⟨_, rfl⟩
  have hcached' : w.cached = 32 - a := by omega
  -- The word is the bits of the cache and the first `a` of the new ones.
  have hword : w.cache * 2 ^ a + v / 2 ^ b % 2 ^ a = ofBits (pending ++ toBits a (v / 2 ^ b)) := by
    rw [ofBits_append, ofBits_toBits, length_toBits, hcache]
  have hwordLen : (pending ++ toBits a (v / 2 ^ b)).length = 32 := by
    rw [List.length_append, length_toBits]
    omega
  have hwordLt := ofBits_lt (pending ++ toBits a (v / 2 ^ b))
  rw [hwordLen] at hwordLt
  have hcacheLt : w.cache * 2 ^ a < 2 ^ 32 := by omega
  have hput : w.put n v = .ok { w.write (be4 (ofBits (pending ++ toBits a (v / 2 ^ b)))) with
      cache := v % 2 ^ b, cached := b } := by
    have hmask : shr32 0xFFFFFFFF w.cached = .ok (2 ^ a - 1) := by
      rw [hcached']
      exact mask_eq (by omega) (by omega)
    rw [put, if_pos hspills]
    simp only [ha, hb, hmask, mask_eq (show b ≤ 32 by omega) (by omega)]
    rw [shl32, if_pos (by omega), shr32, if_pos (by omega)]
    simp only [bind, Except.bind, flushCache, pure, Except.pure]
    rw [if_neg (by decide), if_neg hroom]
    simp only [Nat.and_two_pow_sub_one_eq_mod, Nat.shiftLeft_eq, Nat.shiftRight_eq_div_pow,
      Nat.mod_eq_of_lt hcacheLt]
    rw [← Nat.shiftLeft_eq, ← Nat.shiftLeft_add_eq_or_of_lt (Nat.mod_lt _ (Nat.two_pow_pos a)),
      Nat.shiftLeft_eq, hword]
    rfl
  have hlen : w.bufferLen + (be4 (ofBits (pending ++ toBits a (v / 2 ^ b)))).length ≤ size := by
    rw [length_be4]
    omega
  obtain ⟨htake, hdata, hroom'⟩ := take_write h hlen
  refine ⟨_, hput, ⟨toBits b v, (length_toBits b v).symm, (ofBits_toBits b v).symm, ?_⟩, hdata,
    hroom', ?_⟩
  · have hsplit : toBits n v = toBits a (v / 2 ^ b) ++ toBits b v := by
      rw [← toBits_add]
      congr 1
      omega
    have hself := toBits_ofBits (pending ++ toBits a (v / 2 ^ b))
    rw [hwordLen] at hself
    change _ = byteBits ((w.write _).data.take (w.write _).bufferLen) ++ _
    rw [htake, byteBits_append, byteBits_be4, hself, hbits, hsplit]
    simp only [List.append_assoc]
  · have := h.bufferLen_eq
    rw [List.length_append, length_toBits]
    change w.bufferLen + (be4 _).length = _
    rw [length_be4]
    omega

theorem put_of_full (hn : 0 < n) (hfull : w.cached = 32) (v : Nat) :
    w.put n v = .error .shift := by
  have hmask : shr32 0xFFFFFFFF 32 = .error .shift := rfl
  have hlow : shr32 v n = .ok (v >>> n) ∨ shr32 v n = .error .shift := by
    unfold shr32
    split
    · exact .inl rfl
    · exact .inr rfl
  rw [put, if_pos (by omega), hfull, hmask]
  rcases hlow with hlow | hlow
  · simp [shl32, hlow, bind, Except.bind]
  · simp [shl32, hlow, bind, Except.bind]

theorem put_of_spills_pastEnd (hn : n ≤ 32) (hspills : 32 < n + w.cached) (hfull : w.cached < 32)
    (hroom : w.bufferSize * 8 % 2 ^ 32 < 32) (v : Nat) : w.put n v = .error .pastEnd := by
  rw [put, if_pos hspills]
  simp only [shl32, shr32, bind, Except.bind, flushCache]
  rw [if_pos (show 32 - w.cached < 32 by omega), if_pos (show n - (32 - w.cached) < 32 by omega),
    if_pos hfull]
  simp only
  rw [if_neg (by decide), if_pos hroom]

theorem put_of_whole (hfits : 32 + w.cached ≤ 32) (v : Nat) : w.put 32 v = .error .shift := by
  rw [put, if_neg (by omega)]
  rfl

/-- When a put after `s` bits does not shift by 32: it does not start at the end of a word, and a
whole word is not put first. -/
def OffEdge (s : Nat) (f : BitField) : Prop :=
  if s = 0 then f.width ≠ 32 else s % 32 ≠ 0

instance (s : Nat) (f : BitField) : Decidable (OffEdge s f) :=
  inferInstanceAs (Decidable (if s = 0 then f.width ≠ 32 else s % 32 ≠ 0))

theorem Holds.put_iff (h : w.Holds size bits) (hroom : w.bufferLen ≤ size % 2 ^ 29)
    (f : BitField) :
    (OffEdge bits.length f ∧ 4 * ((bits.length + f.width - 1) / 32) ≤ size % 2 ^ 29 →
      ∃ w', w.put f.width f.value = .ok w' ∧
        w'.Holds size (bits ++ toBits f.width f.value)) ∧
    (¬(OffEdge bits.length f ∧ 4 * ((bits.length + f.width - 1) / 32) ≤ size % 2 ^ 29) →
      ∃ e, w.put f.width f.value = .error e) := by
  have hcached := h.cached_eq
  have hlen := h.bufferLen_eq
  have hsize := h.bufferSize_add
  have hpos := f.width_pos
  have hle := f.width_le
  unfold OffEdge
  constructor
  · rintro ⟨hedge, hspace⟩
    rcases Nat.lt_or_ge 32 (f.width + w.cached) with hspills | hfits
    · refine h.put_of_spills hle hspills ?_ ?_ f.value
      · split at hedge <;> omega
      · omega
    · refine h.put_of_fits hpos ?_ hfits f.value
      split at hedge <;> omega
  · intro hnot
    rcases Nat.lt_or_ge w.cached 32 with hfull | hfull
    · rcases Nat.lt_or_ge 32 (f.width + w.cached) with hspills | hfits
      · have hspace : ¬4 * ((bits.length + f.width - 1) / 32) ≤ size % 2 ^ 29 := by
          refine fun hspace => hnot ⟨?_, hspace⟩
          split <;> omega
        exact ⟨.pastEnd, put_of_spills_pastEnd hle hspills hfull (by omega) f.value⟩
      · have hwhole : f.width = 32 := by
          by_contra hne
          refine hnot ⟨?_, ?_⟩
          · split <;> omega
          · omega
        refine ⟨.shift, ?_⟩
        rw [hwhole] at hfits ⊢
        exact put_of_whole hfits f.value
    · exact ⟨.shift, put_of_full hpos (by omega) f.value⟩

/-- What the puts of fields shift by, when they start after `s` bits. -/
def OffEdges (s : Nat) : List BitField → Prop
  | [] => True
  | f :: fields => OffEdge s f ∧ OffEdges (s + f.width) fields

/-- Put fields one after the other. -/
def putAll (w : BitWritter) (fields : List BitField) : Except BitFault BitWritter :=
  fields.foldlM (fun w f => w.put f.width f.value) w

/-- **Puts.** -/
theorem Holds.putAll_iff (h : w.Holds size bits) (hroom : w.bufferLen ≤ size % 2 ^ 29)
    (fields : List BitField) :
    (OffEdges bits.length fields ∧
        4 * ((bits.length + fieldWidth fields - 1) / 32) ≤ size % 2 ^ 29 →
      ∃ w', w.putAll fields = .ok w' ∧ w'.Holds size (bits ++ fieldBits fields)) ∧
    (¬(OffEdges bits.length fields ∧
        4 * ((bits.length + fieldWidth fields - 1) / 32) ≤ size % 2 ^ 29) →
      ∃ e, w.putAll fields = .error e) := by
  induction fields generalizing w bits with
  | nil =>
    refine ⟨fun _ => ⟨w, rfl, by simpa using h⟩, fun hnot => absurd ⟨trivial, ?_⟩ hnot⟩
    rw [fieldWidth_nil, Nat.add_zero, ← h.bufferLen_eq]
    exact hroom
  | cons f fields ih =>
    obtain ⟨hput, hfail⟩ := h.put_iff hroom f
    have hlength : (bits ++ toBits f.width f.value).length = bits.length + f.width := by
      rw [List.length_append, length_toBits]
    by_cases hfirst : OffEdge bits.length f ∧
        4 * ((bits.length + f.width - 1) / 32) ≤ size % 2 ^ 29
    · obtain ⟨w₁, hw₁, hholds⟩ := hput hfirst
      have hlen := hholds.bufferLen_eq
      rw [hlength] at hlen
      have hrest := ih hholds (by omega)
      have hrun : w.putAll (f :: fields) = w₁.putAll fields := by
        rw [putAll, List.foldlM_cons, hw₁]
        rfl
      rw [hrun, OffEdges, fieldWidth_cons, fieldBits_cons, ← List.append_assoc, ← Nat.add_assoc]
      rw [hlength] at hrest
      refine ⟨fun hall => hrest.1 ⟨hall.1.2, hall.2⟩, fun hnot => hrest.2 fun hall => ?_⟩
      exact hnot ⟨⟨hfirst.1, hall.1⟩, hall.2⟩
    · obtain ⟨e, he⟩ := hfail hfirst
      have hrun : w.putAll (f :: fields) = .error e := by
        rw [putAll, List.foldlM_cons, he]
        rfl
      refine ⟨fun hall => absurd ⟨hall.1.1, ?_⟩ hfirst, fun _ => ⟨e, hrun⟩⟩
      have := hall.2
      rw [fieldWidth_cons] at this
      omega

/-- The zeros that make the bits whole bytes. -/
def padding (s : Nat) : Nat := (8 - s % 8) % 8

theorem Holds.align (h : w.Holds size bits) :
    ∃ w', w.align = .ok w' ∧
      w'.Holds size (bits ++ List.replicate (padding bits.length) false) := by
  have hcached := h.cached_eq
  by_cases hwhole : w.cached % 8 = 0
  · refine ⟨w, by rw [BitWritter.align, if_pos hwhole], ?_⟩
    have hzero : padding bits.length = 0 := by
      unfold padding
      omega
    rw [hzero, List.replicate_zero, List.append_nil]
    exact h
  · have hpos : 0 < padding bits.length := by
      unfold padding
      omega
    have hfits : padding bits.length + w.cached ≤ 32 := by
      unfold padding
      omega
    obtain ⟨w', hput, hholds⟩ := h.put_of_fits hpos (by unfold padding; omega) hfits 0
    rw [toBits_zero_right] at hholds
    refine ⟨w', ?_, hholds⟩
    rw [BitWritter.align, if_neg hwhole, ← hput]
    -- Each branch puts up to the next whole byte.
    split
    · congr 1
      unfold padding
      omega
    · split
      · congr 1
        unfold padding
        omega
      · split
        · congr 1
          unfold padding
          omega
        · congr 1
          unfold padding
          omega

theorem length_padded (s : Nat) : s + padding s = 8 * ((s + 7) / 8) := by
  unfold padding
  omega

theorem Holds.flushCache_eq (h : w.Holds size bits) (hwhole : bits.length % 8 = 0)
    (hroom : ¬w.bufferSize * 8 % 2 ^ 32 < w.cached) :
    ∃ w', w.flushCache = .ok w' ∧ byteBits (w'.data.take w'.bufferLen) = bits := by
  have hcached := h.cached_eq
  have hsize := h.bufferSize_add
  obtain ⟨pending, hpending, hcache, hbits⟩ := h.inCache
  have hlt : w.cached ≤ 32 := by omega
  have hself := toBits_ofBits pending
  rw [← hpending, ← hcache] at hself
  have hwrite (bytes : List UInt8) (hlen : 8 * bytes.length = w.cached)
      (heq : byteBits bytes = pending) :
      byteBits ((w.write bytes).data.take (w.write bytes).bufferLen) = bits := by
    obtain ⟨htake, -, -⟩ := @take_write _ _ _ h bytes (by omega)
    rw [htake, byteBits_append, heq, hbits]
  rw [flushCache]
  rcases Nat.eq_zero_or_pos w.cached with hzero | hsome
  · refine ⟨w, if_pos hzero, ?_⟩
    rw [hbits, List.length_eq_zero_iff.1 (hpending.symm.trans hzero), List.append_nil]
  · rw [if_neg (by omega), if_neg hroom]
    refine ⟨_, rfl, ?_⟩
    have hcases : w.cached = 8 ∨ w.cached = 16 ∨ w.cached = 24 ∨ w.cached = 32 := by omega
    rcases hcases with hc | hc | hc | hc <;> rw [hc] at hself hwrite <;> simp only [hc]
    · exact hwrite (be1 w.cache) (by simp) (by rw [byteBits_be1, hself])
    · exact hwrite (be2 w.cache) (by simp) (by rw [byteBits_be2, hself])
    · exact hwrite (be3 w.cache) (by simp) (by rw [byteBits_be3, hself])
    · exact hwrite (be4 w.cache) (by simp) (by rw [byteBits_be4, hself])

/-- **Flush.** The bytes written are those of the bits and the padding. -/
theorem Holds.flush_iff (h : w.Holds size bits) (hroom : w.bufferLen ≤ size % 2 ^ 29) :
    ((bits.length + 7) / 8 ≤ size % 2 ^ 29 →
      ∃ w', w.flush = .ok w' ∧ byteBits (w'.data.take w'.bufferLen) =
        bits ++ List.replicate (padding bits.length) false) ∧
    (¬(bits.length + 7) / 8 ≤ size % 2 ^ 29 → ∃ e, w.flush = .error e) := by
  obtain ⟨w₁, halign, hholds⟩ := h.align
  have hcached := hholds.cached_eq
  have hlen := hholds.bufferLen_eq
  have hsize := hholds.bufferSize_add
  have hbuffer := h.bufferLen_eq
  have hpadded := length_padded bits.length
  rw [List.length_append, List.length_replicate] at hcached hlen
  have hflush : w.flush = w₁.flushCache := by
    rw [flush, halign]
    rfl
  rw [hflush]
  constructor
  · intro hspace
    refine hholds.flushCache_eq ?_ ?_
    · rw [List.length_append, List.length_replicate]
      omega
    · omega
  · intro hspace
    refine ⟨.pastEnd, ?_⟩
    rw [flushCache, if_neg (by omega), if_pos (by omega)]

end BitWritter

/-! ## Reading -/

namespace BitReader

variable {r : BitReader} {total n : Nat} {bits : List Bool}

/-- What the reader of a stream of `total` bytes says after `pos` bits, and what reads do there. -/
structure Accounts (r : BitReader) (total pos : Nat) : Prop where
  left : r.left = 8 * total - pos
  getPos : r.getPos = pos
  peek_skip : ∀ n v r', 0 < n → n ≤ 32 → r.get n = .ok (v, r') →
    r.peek n = .ok v ∧ r.skip n = .ok r'
  pastEnd : ∀ n, 0 < n → n ≤ 32 → 8 * total - pos < n → r.PastEnd n

/-- Fields are read back, and the reader accounts for them at every one. -/
def ReadsBack (total : Nat) : BitReader → Nat → List BitField → Prop
  | r, pos, [] => r.Accounts total pos
  | r, pos, f :: fields => r.Accounts total pos ∧
      ∃ r', r.get f.width = .ok (f.value % 2 ^ f.width, r') ∧
        ReadsBack total r' (pos + f.width) fields

/-- The stream ends with a whole word, its last bytes have been loaded, or a word is left. -/
def TailLoaded (total pos : Nat) : Prop :=
  total % 4 = 0 ∨ 32 * (total / 4) < pos ∨ pos + 32 ≤ 8 * total

/-- `TailLoaded` before each field and behind the last. -/
def TailsLoaded (total : Nat) : Nat → List BitField → Prop
  | pos, [] => TailLoaded total pos
  | pos, f :: fields => TailLoaded total pos ∧ TailsLoaded total (pos + f.width) fields

theorem Holds.accounts_iff (h : r.Holds total bits) (htotal : total < 2 ^ 29) :
    r.Accounts total (8 * total - bits.length) ↔ TailLoaded total (8 * total - bits.length) := by
  have hlength := h.length
  have hcached := h.cached_lt
  have hloaded := h.cached_le
  have hbuffer := h.length_buffer
  constructor
  · intro haccounts
    by_contra htail
    unfold TailLoaded at htail
    have hend := haccounts.pastEnd 32 (by decide) (Nat.le_refl 32) (by omega)
    have hnil := ((pastEnd_iff (by decide) (Nat.le_refl 32)).1 hend).2
    have := h.cached_tail hnil (by omega)
    rw [hnil] at hlength hbuffer
    simp only [List.length_nil] at hlength hbuffer
    omega
  · intro htail
    refine ⟨?_, ?_, fun n v r' hpos hn hget => peek_skip_of_get hpos hn hget, ?_⟩
    · rw [BitReader.left]
      omega
    · rw [BitReader.getPos]
      omega
    · intro n hpos hn hleft
      rw [pastEnd_iff hpos hn]
      refine ⟨by omega, ?_⟩
      by_contra hne
      have halign := h.aligned.resolve_right hne
      have hsome := List.length_pos_iff.2 hne
      unfold TailLoaded at htail
      omega

/-- **Reads.** Fields put off the edges are read back if the tail is loaded in time. -/
theorem Holds.readsBack_iff (htotal : total < 2 ^ 29) (fields : List BitField)
    {rest : List Bool} (h : r.Holds total (fieldBits fields ++ rest))
    (hedges : BitWritter.OffEdges (8 * total - (fieldBits fields ++ rest).length) fields) :
    ReadsBack total r (8 * total - (fieldBits fields ++ rest).length) fields ↔
      TailsLoaded total (8 * total - (fieldBits fields ++ rest).length) fields := by
  induction fields generalizing r with
  | nil => exact h.accounts_iff htotal
  | cons f fields ih =>
    have hpos := f.width_pos
    have hlength := h.length
    have hbuffer := h.length_buffer
    obtain ⟨hedge, hedges⟩ := hedges
    refine and_congr (h.accounts_iff htotal) ?_
    have hword : r.cached = 0 → f.width < 32 := by
      intro hzero
      have hle := f.width_le
      unfold BitWritter.OffEdge at hedge
      split at hedge
      · omega
      · rcases h.aligned with halign | hnil
        · omega
        · rw [hnil] at hlength
          simp at hlength
          omega
    obtain ⟨r', hget, hholds⟩ := h.get (n := f.width) hpos f.width_le (by simp) hword
    have hsplit : fieldBits (f :: fields) ++ rest =
        toBits f.width f.value ++ (fieldBits fields ++ rest) := by
      rw [fieldBits_cons, List.append_assoc]
    have htake : (fieldBits (f :: fields) ++ rest).take f.width = toBits f.width f.value := by
      rw [hsplit]
      exact List.take_left' (length_toBits _ _)
    have hdrop : (fieldBits (f :: fields) ++ rest).drop f.width = fieldBits fields ++ rest := by
      rw [hsplit]
      exact List.drop_left' (length_toBits _ _)
    have hat : 8 * total - (fieldBits (f :: fields) ++ rest).length + f.width =
        8 * total - (fieldBits fields ++ rest).length := by
      have hlen : (fieldBits (f :: fields) ++ rest).length =
          f.width + (fieldBits fields ++ rest).length := by
        rw [hsplit, List.length_append, length_toBits]
      have hloaded := h.cached_le
      omega
    rw [htake, ofBits_toBits] at hget
    rw [hdrop] at hholds
    rw [hat] at hedges ⊢
    rw [← ih hholds hedges]
    constructor
    · rintro ⟨r₁, hr₁, hrest⟩
      rw [hget] at hr₁
      cases hr₁
      exact hrest
    · intro hrest
      exact ⟨r', hget, hrest⟩

end BitReader

/-! ## Both -/

/-- The bytes of fields put into a buffer and flushed. -/
def flushedBytes (data : List UInt8) (fields : List BitField) : Except BitFault (List UInt8) := do
  let w ← BitWritter.putAll { data } fields
  let w ← w.flush
  return w.data.take w.bufferLen

/-- What is put and flushed is read back. -/
def RoundTrips (data : List UInt8) (fields : List BitField) : Prop :=
  ∃ bytes, flushedBytes data fields = .ok bytes ∧
    BitReader.ReadsBack bytes.length ⟨bytes, 0, 0, 0⟩ 0 fields

/-- The conditions of the round trip. -/
structure Tractable (size : Nat) (fields : List BitField) : Prop where
  offEdges : BitWritter.OffEdges 0 fields
  room : (fieldWidth fields + 7) / 8 ≤ size % 2 ^ 29
  tailsLoaded : BitReader.TailsLoaded ((fieldWidth fields + 7) / 8) 0 fields

/-- **The round trip.** -/
theorem bitFields_roundTrip_iff (data : List UInt8) (fields : List BitField) :
    RoundTrips data fields ↔ Tractable data.length fields := by
  have hnew := BitWritter.holds_new data
  obtain ⟨hput, hnoput⟩ := hnew.putAll_iff (Nat.zero_le _) fields
  rw [List.length_nil, Nat.zero_add] at hput hnoput
  by_cases hputs : BitWritter.OffEdges 0 fields ∧
      4 * ((fieldWidth fields - 1) / 32) ≤ data.length % 2 ^ 29
  · obtain ⟨w, hw, hholds⟩ := hput hputs
    rw [List.nil_append] at hholds
    have hbufferLen := hholds.bufferLen_eq
    obtain ⟨hflush, hnoflush⟩ := hholds.flush_iff (by rw [hbufferLen]; exact hputs.2)
    by_cases hroom : (fieldWidth fields + 7) / 8 ≤ data.length % 2 ^ 29
    · obtain ⟨w', hw', hbits⟩ := hflush hroom
      have hbytes : flushedBytes data fields = .ok (w'.data.take w'.bufferLen) := by
        rw [flushedBytes, hw]
        simp only [bind, Except.bind, hw', pure, Except.pure]
      have hlength := congrArg List.length hbits
      rw [length_byteBits, List.length_append, List.length_replicate,
        BitWritter.length_padded] at hlength
      have htotal : (w'.data.take w'.bufferLen).length = (fieldWidth fields + 7) / 8 :=
        Nat.eq_of_mul_eq_mul_left (by decide) hlength
      have hreader := BitReader.holds_new (w'.data.take w'.bufferLen)
      rw [hbits, htotal] at hreader
      have hstart : 8 * ((fieldWidth fields + 7) / 8) - (fieldBits fields ++
          List.replicate (BitWritter.padding (fieldBits fields).length) false).length = 0 := by
        rw [List.length_append, List.length_replicate, BitWritter.length_padded]
        exact Nat.sub_self _
      have hread := hreader.readsBack_iff (by omega) fields (hstart ▸ hputs.1)
      rw [hstart] at hread
      constructor
      · rintro ⟨bytes, hok, hback⟩
        rw [hbytes] at hok
        cases hok
        rw [htotal] at hback
        exact ⟨hputs.1, hroom, hread.1 hback⟩
      · intro htractable
        refine ⟨_, hbytes, ?_⟩
        rw [htotal]
        exact hread.2 htractable.tailsLoaded
    · obtain ⟨e, he⟩ := hnoflush hroom
      refine iff_of_false ?_ fun htractable => hroom htractable.room
      rintro ⟨bytes, hok, -⟩
      rw [flushedBytes, hw] at hok
      simp only [bind, Except.bind, he] at hok
      cases hok
  · obtain ⟨e, he⟩ := hnoput hputs
    refine iff_of_false ?_ fun htractable => hputs ⟨htractable.offEdges, ?_⟩
    · rintro ⟨bytes, hok, -⟩
      rw [flushedBytes, he] at hok
      cases hok
    · have := htractable.room
      omega

/-- A field of eight bits, with only its byte left: a read of nine bits returns. -/
theorem not_roundTrips_eight : ¬RoundTrips [0] [⟨8, 5, by decide, by decide⟩] := by
  rintro ⟨bytes, hok, haccounts, -⟩
  cases hok
  have hend := haccounts.pastEnd 9 (by decide) (by decide) (by decide)
  exact absurd hend.get (by decide)

end McuMediaServer
