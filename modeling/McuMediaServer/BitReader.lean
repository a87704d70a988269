import McuMediaServer.Base.Bits
import McuMediaServer.BitStream

/-!
# The bit reader

`BitReader` takes bit fields off a byte buffer through a 32-bit cache, whose first `cached` bits are
the ones loaded and not yet read. A read that needs more bits than the cache holds takes those and
loads the next four bytes, or what is left of the buffer. `Holds` says which bits are left; a read
within them takes the first ones (`Holds.get`). The end of the stream is only noticed when nothing
is left in the buffer (`get_eq_pastEnd_iff`): a read that needs more bits than a last load gives
returns.
-/

namespace McuMediaServer

open ByteSeq

/-- `x >> (32 - n)` on 32-bit words, for a shift that is unsigned. -/
def top32 (x n : Nat) : Except BitFault Nat :=
  if n ≤ 32 then shr32 x (32 - n) else .error .shift

/-- A reader. Reference: `bitstream.h:14`, class `BitReader`. -/
structure BitReader where
  /-- What is left of the buffer; `bufferLen` is its length. -/
  buffer : List UInt8
  /-- How many bytes have been loaded. -/
  bufferPos : Nat := 0
  /-- A 32-bit word. -/
  cache : Nat := 0
  /-- A byte. -/
  cached : Nat := 0
  deriving DecidableEq, Repr

namespace BitReader

/-- Load the next bytes. Reference: `bitstream.h:95`, `Cache`. -/
def loadCache (r : BitReader) : Except BitFault BitReader :=
  match r.buffer with
  | b0 :: b1 :: b2 :: b3 :: buffer =>
    .ok ⟨buffer, r.bufferPos + 4, ofBytes [b0, b1, b2, b3], 32⟩
  | [b0, b1, b2] => .ok ⟨[], r.bufferPos + 3, ofBytes [b0, b1, b2] <<< 8, 24⟩
  | [b0, b1] => .ok ⟨[], r.bufferPos + 2, ofBytes [b0, b1] <<< 16, 16⟩
  | [b0] => .ok ⟨[], r.bufferPos + 1, ofBytes [b0] <<< 24, 8⟩
  | [] => .error .pastEnd

/-- What would be loaded. Reference: `bitstream.h:149`. -/
def peekNextCached (r : BitReader) : Except BitFault Nat :=
  match r.buffer with
  | b0 :: b1 :: b2 :: b3 :: _ => .ok (ofBytes [b0, b1, b2, b3])
  | [b0, b1, b2] => .ok (ofBytes [b0, b1, b2] <<< 8)
  | [b0, b1] => .ok (ofBytes [b0, b1] <<< 16)
  | [b0] => .ok (ofBytes [b0] <<< 24)
  | [] => .error .pastEnd

/-- Reference: `bitstream.h:170`. -/
def skipCached (r : BitReader) (n : Nat) : Except BitFault BitReader := do
  let cache ← shl32 r.cache n
  return { r with cache, cached := (r.cached + (2 ^ 8 - n % 2 ^ 8)) % 2 ^ 8 }

/-- Reference: `bitstream.h:179`. -/
def getCached (r : BitReader) (n : Nat) : Except BitFault (Nat × BitReader) := do
  let ret ← top32 r.cache n
  let r ← r.skipCached n
  return (ret, r)

/-- Reference: `bitstream.h:27`. -/
def get (r : BitReader) (n : Nat) : Except BitFault (Nat × BitReader) :=
  if r.cached < n then do
    let a := (n - r.cached) % 2 ^ 8
    let ret ← top32 r.cache n
    let r ← r.loadCache
    let (low, r) ← r.getCached a
    return (ret ||| low, r)
  else
    r.getCached n

/-- Reference: `bitstream.h:52`. -/
def skip (r : BitReader) (n : Nat) : Except BitFault BitReader :=
  if r.cached < n then do
    let a := (n - r.cached) % 2 ^ 8
    let r ← r.loadCache
    r.skipCached a
  else
    r.skipCached n

/-- Reference: `bitstream.h:72`. -/
def peek (r : BitReader) (n : Nat) : Except BitFault Nat :=
  if r.cached < n then do
    let a := (n - r.cached) % 2 ^ 8
    let ret ← top32 r.cache n
    let next ← r.peekNextCached
    let low ← top32 next a
    return ret ||| low
  else
    top32 r.cache n

/-- The sum is a `DWORD`. Reference: `bitstream.h:67`. -/
def left (r : BitReader) : Nat :=
  (r.cached + r.buffer.length * 8) % 2 ^ 32

/-- A `DWORD`. Reference: `bitstream.h:90`. -/
def getPos (r : BitReader) : Nat :=
  (r.bufferPos * 8 + (2 ^ 32 - r.cached)) % 2 ^ 32

/-- What a reader can still give, more than a bit for each bit: it grows less with every read. -/
def weight (r : BitReader) : Nat :=
  2 ^ 8 * r.buffer.length + r.cached

section Weight

variable {r r' : BitReader} {n v : Nat}

theorem cached_of_skipCached (h : r.skipCached n = .ok r') :
    r'.buffer = r.buffer ∧ r'.cached = (r.cached + (2 ^ 8 - n % 2 ^ 8)) % 2 ^ 8 := by
  rw [skipCached] at h
  cases hshift : shl32 r.cache n with
  | error e => simp [hshift, bind, Except.bind] at h
  | ok cache =>
    simp only [hshift, bind, Except.bind, pure, Except.pure, Except.ok.injEq] at h
    obtain rfl := h
    exact ⟨rfl, rfl⟩

theorem skipCached_of_getCached (h : r.getCached n = .ok (v, r')) : r.skipCached n = .ok r' := by
  rw [getCached] at h
  cases htop : top32 r.cache n with
  | error e => simp [htop, bind, Except.bind] at h
  | ok ret =>
    cases hskip : r.skipCached n with
    | error e => simp [htop, hskip, bind, Except.bind] at h
    | ok r₁ =>
      simp only [htop, hskip, bind, Except.bind, pure, Except.pure, Except.ok.injEq,
        Prod.mk.injEq] at h
      rw [h.2]

theorem length_of_loadCache (h : r.loadCache = .ok r') :
    r'.buffer.length < r.buffer.length := by
  rw [loadCache] at h
  split at h
  case h_5 => cases h
  all_goals
    rename_i hbuffer
    obtain rfl := Except.ok.inj h
    rw [hbuffer]
    simp only [List.length_cons, List.length_nil]
    omega

theorem weight_skip (hpos : 0 < n) (hn : n ≤ 32) (h : r.skip n = .ok r') :
    r'.weight < r.weight := by
  rw [skip] at h
  split at h
  case isTrue hmore =>
    cases hload : r.loadCache with
    | error e => simp [hload, bind, Except.bind] at h
    | ok r₁ =>
      simp only [hload, bind, Except.bind] at h
      obtain ⟨hbuffer, hcached⟩ := cached_of_skipCached h
      have hlen := length_of_loadCache hload
      rw [weight, weight, hbuffer, hcached]
      omega
  case isFalse hmore =>
    obtain ⟨hbuffer, hcached⟩ := cached_of_skipCached h
    rw [weight, weight, hbuffer, hcached]
    omega

theorem weight_get (hpos : 0 < n) (hn : n ≤ 32) (h : r.get n = .ok (v, r')) :
    r'.weight < r.weight := by
  rw [get] at h
  split at h
  case isTrue hmore =>
    cases htop : top32 r.cache n with
    | error e => simp [htop, bind, Except.bind] at h
    | ok ret =>
      cases hload : r.loadCache with
      | error e => simp [htop, hload, bind, Except.bind] at h
      | ok r₁ =>
        simp only [htop, hload, bind, Except.bind] at h
        cases hget : r₁.getCached ((n - r.cached) % 2 ^ 8) with
        | error e =>
          simp only [hget] at h
          cases h
        | ok p =>
          obtain ⟨low, r₂⟩ := p
          simp only [hget, pure, Except.pure, Except.ok.injEq, Prod.mk.injEq] at h
          obtain ⟨-, rfl⟩ := h
          obtain ⟨hbuffer, hcached⟩ := cached_of_skipCached (skipCached_of_getCached hget)
          have hlen := length_of_loadCache hload
          rw [weight, weight, hbuffer, hcached]
          omega
  case isFalse hmore =>
    obtain ⟨hbuffer, hcached⟩ := cached_of_skipCached (skipCached_of_getCached h)
    rw [weight, weight, hbuffer, hcached]
    omega

end Weight

/-! ## The bits of the cache -/

/-- The loaded bits that have not been read are the first ones of the cache; the others are zero. -/
structure InCache (r : BitReader) (bits : List Bool) : Prop where
  cached : r.cached = bits.length
  le : bits.length ≤ 32
  cache : r.cache = ofBits bits * 2 ^ (32 - bits.length)

section Cache

variable {r : BitReader} {bits : List Bool} {n : Nat}

theorem top32_of_pos (hpos : 0 < n) (hn : n ≤ 32) (x : Nat) :
    top32 x n = .ok (x / 2 ^ (32 - n)) := by
  rw [top32, if_pos hn, shr32, if_pos (by omega), Nat.shiftRight_eq_div_pow]

theorem InCache.top32_of_le (h : r.InCache bits) (hpos : 0 < n) (hle : n ≤ bits.length) :
    top32 r.cache n = .ok (ofBits (bits.take n)) := by
  have hlen := h.le
  have hsplit := ofBits_append (bits.take n) (bits.drop n)
  have hlt := ofBits_lt (bits.drop n)
  rw [List.take_append_drop, List.length_drop] at hsplit
  rw [List.length_drop] at hlt
  have hpow : 2 ^ (32 - n) = 2 ^ (32 - bits.length) * 2 ^ (bits.length - n) := by
    rw [← Nat.pow_add]
    congr 1
    omega
  rw [top32_of_pos hpos (by omega), h.cache, hpow, Nat.mul_comm, Nat.mul_div_mul_left _ _
    (Nat.two_pow_pos _), hsplit, Nat.mul_comm, Nat.mul_add_div (Nat.two_pow_pos _),
    Nat.div_eq_of_lt hlt, Nat.add_zero]

theorem InCache.top32_of_ge (h : r.InCache bits) (hpos : 0 < n) (hn : n ≤ 32)
    (hge : bits.length ≤ n) : top32 r.cache n = .ok (ofBits bits * 2 ^ (n - bits.length)) := by
  have hpow : 2 ^ (32 - bits.length) = 2 ^ (32 - n) * 2 ^ (n - bits.length) := by
    rw [← Nat.pow_add]
    congr 1
    omega
  rw [top32_of_pos hpos hn, h.cache, hpow, Nat.mul_left_comm, Nat.mul_div_cancel_left _
    (Nat.two_pow_pos _)]

theorem InCache.skipCached (h : r.InCache bits) (hn : n < 32) (hle : n ≤ bits.length) :
    ∃ cache, r.skipCached n = .ok { r with cache, cached := bits.length - n } ∧
      InCache { r with cache, cached := bits.length - n } (bits.drop n) := by
  have hlen := h.le
  have hsplit := ofBits_append (bits.take n) (bits.drop n)
  have hlt := ofBits_lt (bits.drop n)
  rw [List.take_append_drop, List.length_drop] at hsplit
  rw [List.length_drop] at hlt
  have hcached : (r.cached + (2 ^ 8 - n % 2 ^ 8)) % 2 ^ 8 = bits.length - n := by
    rw [h.cached]
    omega
  refine ⟨(r.cache <<< n) % 2 ^ 32, ?_, ⟨(List.length_drop ..).symm, ?_, ?_⟩⟩
  · rw [BitReader.skipCached, shl32, if_pos hn, hcached]
    rfl
  · rw [List.length_drop]
    omega
  · have hpow : 2 ^ (32 - bits.length) * 2 ^ n = 2 ^ (32 - (bits.length - n)) := by
      rw [← Nat.pow_add]
      congr 1
      omega
    have hword : 2 ^ (bits.length - n) * 2 ^ (32 - (bits.length - n)) = 2 ^ 32 := by
      rw [← Nat.pow_add]
      congr 1
      omega
    have hmul : (ofBits (bits.take n) * 2 ^ (bits.length - n) + ofBits (bits.drop n)) *
        2 ^ (32 - (bits.length - n)) = 2 ^ 32 * ofBits (bits.take n) +
          ofBits (bits.drop n) * 2 ^ (32 - (bits.length - n)) := by
      rw [Nat.add_mul, Nat.mul_assoc, hword, Nat.mul_comm (ofBits (bits.take n))]
    have hsmall : ofBits (bits.drop n) * 2 ^ (32 - (bits.length - n)) < 2 ^ 32 := by
      rw [← hword]
      exact Nat.mul_lt_mul_of_pos_right hlt (Nat.two_pow_pos _)
    change (r.cache <<< n) % 2 ^ 32 = _
    rw [Nat.shiftLeft_eq, h.cache, Nat.mul_assoc, hpow, hsplit, hmul, Nat.mul_add_mod,
      Nat.mod_eq_of_lt hsmall, List.length_drop]

theorem InCache.getCached (h : r.InCache bits) (hpos : 0 < n) (hn : n < 32)
    (hle : n ≤ bits.length) :
    ∃ r', r.getCached n = .ok (ofBits (bits.take n), r') ∧ r'.InCache (bits.drop n) ∧
      r'.buffer = r.buffer ∧ r'.bufferPos = r.bufferPos := by
  obtain ⟨cache, hskip, hcache⟩ := h.skipCached hn hle
  refine ⟨_, ?_, hcache, rfl, rfl⟩
  rw [BitReader.getCached, h.top32_of_le hpos hle, hskip]
  rfl

end Cache

/-! ## The bits of the stream -/

section Stream

variable {r : BitReader} {total n : Nat} {bits : List Bool}

theorem loadCache_of_ne_nil (h : r.buffer ≠ []) :
    ∃ word r', r.loadCache = .ok r' ∧ r.peekNextCached = .ok r'.cache ∧
      r'.InCache (byteBits word) ∧ r.buffer = word ++ r'.buffer ∧
      r'.bufferPos = r.bufferPos + word.length ∧ word.length = min 4 r.buffer.length := by
  obtain ⟨buffer, bufferPos, cache, cached⟩ := r
  have hload (word : List UInt8) (hword : word.length ≤ 4) (buffer : List UInt8) (pos : Nat) :
      InCache ⟨buffer, pos, ofBytes word * 2 ^ (32 - 8 * word.length), 8 * word.length⟩
        (byteBits word) :=
    ⟨(length_byteBits word).symm, by rw [length_byteBits]; omega,
      by rw [length_byteBits, ofBits_byteBits]⟩
  match buffer, h with
  | b0 :: b1 :: b2 :: b3 :: rest, _ =>
    refine ⟨[b0, b1, b2, b3], _, rfl, rfl, ?_, rfl, rfl, by simp⟩
    simpa using hload [b0, b1, b2, b3] (by simp) rest (bufferPos + 4)
  | [b0, b1, b2], _ =>
    refine ⟨[b0, b1, b2], _, rfl, rfl, ?_, rfl, rfl, rfl⟩
    rw [Nat.shiftLeft_eq]
    exact hload [b0, b1, b2] (by simp) [] (bufferPos + 3)
  | [b0, b1], _ =>
    refine ⟨[b0, b1], _, rfl, rfl, ?_, rfl, rfl, rfl⟩
    rw [Nat.shiftLeft_eq]
    exact hload [b0, b1] (by simp) [] (bufferPos + 2)
  | [b0], _ =>
    refine ⟨[b0], _, rfl, rfl, ?_, rfl, rfl, rfl⟩
    rw [Nat.shiftLeft_eq]
    exact hload [b0] (by simp) [] (bufferPos + 1)

/-- The reader of a stream of `total` bytes has the given bits left: some in its cache, and those of
the bytes that have not been loaded. Loads are at whole words, and each is made to read some of its
bits. -/
structure Holds (r : BitReader) (total : Nat) (bits : List Bool) : Prop where
  inCache : ∃ loaded, r.InCache loaded ∧ loaded.length < 32 ∧
    bits = loaded ++ byteBits r.buffer
  length_buffer : r.bufferPos + r.buffer.length = total
  aligned : r.bufferPos % 4 = 0 ∨ r.buffer = []
  cached_le : r.cached ≤ 8 * r.bufferPos
  cached_tail : r.buffer = [] → total % 4 ≠ 0 → r.cached < 8 * (total % 4)

theorem Holds.length (h : r.Holds total bits) :
    bits.length = r.cached + 8 * r.buffer.length := by
  obtain ⟨loaded, hloaded, -, rfl⟩ := h.inCache
  rw [List.length_append, length_byteBits, hloaded.cached]

theorem Holds.cached_lt (h : r.Holds total bits) : r.cached < 32 := by
  obtain ⟨loaded, hloaded, hlt, -⟩ := h.inCache
  rw [hloaded.cached]
  exact hlt

theorem holds_new (bytes : List UInt8) : Holds ⟨bytes, 0, 0, 0⟩ bytes.length (byteBits bytes) where
  inCache := ⟨[], ⟨rfl, by simp, by simp⟩, by simp, rfl⟩
  length_buffer := Nat.zero_add _
  aligned := .inl rfl
  cached_le := Nat.le_refl 0
  cached_tail hnil hmod := by
    have hlen : bytes.length = 0 := List.length_eq_zero_iff.2 hnil
    rw [hlen] at hmod
    exact absurd rfl hmod

/-- **Read.** A read within the bits left takes the first ones. A read of a whole word does so only
if the cache is not empty, and then the word is not shifted out at once. -/
theorem Holds.get (h : r.Holds total bits) (hpos : 0 < n) (hn : n ≤ 32) (hle : n ≤ bits.length)
    (hword : r.cached = 0 → n < 32) :
    ∃ r', r.get n = .ok (ofBits (bits.take n), r') ∧ r'.Holds total (bits.drop n) := by
  obtain ⟨loaded, hloaded, hlt, rfl⟩ := h.inCache
  rcases Nat.lt_or_ge loaded.length n with hmore | hin
  · -- The rest comes from the next load.
    have hbuffer : r.buffer ≠ [] := by
      rintro hnil
      rw [hnil, List.length_append] at hle
      simp only [byteBits, List.flatMap_nil, List.length_nil] at hle
      omega
    obtain ⟨word, r₁, hload, -, hcache, hsplit, hat, hlen⟩ := loadCache_of_ne_nil hbuffer
    have hleft : n - loaded.length ≤ (byteBits word).length := by
      rw [List.length_append, length_byteBits] at hle
      rw [length_byteBits]
      omega
    have ha : (n - r.cached) % 2 ^ 8 = n - loaded.length := by
      rw [hloaded.cached]
      omega
    have ha32 : n - loaded.length < 32 := by
      have := hloaded.cached
      omega
    obtain ⟨r', hget, hcache', hbuf', hpos'⟩ := hcache.getCached (by omega) ha32 hleft
    refine ⟨r', ?_, ⟨⟨_, hcache', ?_, ?_⟩, ?_, ?_, ?_, ?_⟩⟩
    · have hlow := ofBits_lt ((byteBits word).take (n - loaded.length))
      rw [List.length_take, Nat.min_eq_left hleft] at hlow
      rw [BitReader.get, if_pos (by rw [hloaded.cached]; exact hmore), ha,
        hloaded.top32_of_ge hpos hn (Nat.le_of_lt hmore), hload]
      simp only [bind, Except.bind, hget, pure, Except.pure]
      rw [hsplit, byteBits_append, List.take_append, List.take_of_length_le (Nat.le_of_lt hmore),
        List.take_append_of_le_length hleft, ofBits_append, List.length_take,
        Nat.min_eq_left hleft, ← Nat.shiftLeft_eq, Nat.shiftLeft_add_eq_or_of_lt hlow]
    · rw [List.length_drop, length_byteBits]
      omega
    · rw [hsplit, byteBits_append, hbuf', List.drop_append, List.drop_of_length_le
        (Nat.le_of_lt hmore), List.nil_append, List.drop_append_of_le_length hleft]
    · have := h.length_buffer
      rw [hbuf', hpos', hat]
      rw [hsplit, List.length_append] at this
      omega
    · have hlen' := congrArg List.length hsplit
      rw [List.length_append] at hlen'
      rw [hbuf', hpos', hat]
      rcases Nat.lt_or_ge r.buffer.length 4 with hshort | hlong
      · right
        exact List.length_eq_zero_iff.1 (by omega)
      · left
        have := h.aligned.resolve_right hbuffer
        omega
    · rw [hcache'.cached, List.length_drop, length_byteBits, hpos', hat]
      omega
    · intro hnil hmod
      have halign := h.aligned.resolve_right hbuffer
      have hall := h.length_buffer
      have hlen' := congrArg List.length hsplit
      rw [hbuf'] at hnil
      rw [hnil, List.append_nil] at hlen'
      rw [hcache'.cached, List.length_drop, length_byteBits]
      omega
  · obtain ⟨r', hget, hcache', hbuf', hpos'⟩ := hloaded.getCached hpos (by omega) hin
    refine ⟨r', ?_, ⟨⟨_, hcache', ?_, ?_⟩, ?_, ?_, ?_, ?_⟩⟩
    · rw [BitReader.get, if_neg (by rw [hloaded.cached]; omega), hget,
        List.take_append_of_le_length hin]
    · rw [List.length_drop]
      omega
    · rw [hbuf', List.drop_append_of_le_length hin]
    · rw [hbuf', hpos']
      exact h.length_buffer
    · rw [hbuf', hpos']
      exact h.aligned
    · have := h.cached_le
      rw [hloaded.cached] at this
      rw [hcache'.cached, List.length_drop, hpos']
      omega
    · intro hnil hmod
      have := h.cached_tail (hbuf' ▸ hnil) hmod
      rw [hloaded.cached] at this
      rw [hcache'.cached, List.length_drop]
      omega

/-! ## Peeking, skipping and the end -/

variable {v : Nat} {r' : BitReader}

theorem loadCache_nil (h : r.buffer = []) :
    r.loadCache = .error .pastEnd ∧ r.peekNextCached = .error .pastEnd := by
  rw [loadCache, peekNextCached, h]
  exact ⟨rfl, rfl⟩

theorem skipCached_ne_pastEnd : r.skipCached n ≠ .error .pastEnd := by
  rw [skipCached, shl32]
  split <;> simp [bind, Except.bind, pure, Except.pure]

theorem skip_of_getCached (hpos : 0 < n) (hn : n ≤ 32) (h : r.getCached n = .ok (v, r')) :
    top32 r.cache n = .ok v ∧ r.skipCached n = .ok r' := by
  rw [getCached, top32_of_pos hpos hn] at h
  rw [top32_of_pos hpos hn]
  cases hskip : r.skipCached n with
  | error e => simp [hskip, bind, Except.bind] at h
  | ok r₁ =>
    simp only [hskip, bind, Except.bind, pure, Except.pure, Except.ok.injEq, Prod.mk.injEq] at h
    obtain ⟨rfl, rfl⟩ := h
    exact ⟨rfl, rfl⟩

theorem peek_skip_of_get (hpos : 0 < n) (hn : n ≤ 32) (h : r.get n = .ok (v, r')) :
    r.peek n = .ok v ∧ r.skip n = .ok r' := by
  unfold get at h
  unfold peek skip
  split at h
  case isTrue hmore =>
    rw [if_pos hmore, if_pos hmore]
    have ha : 0 < (n - r.cached) % 2 ^ 8 ∧ (n - r.cached) % 2 ^ 8 ≤ 32 := by omega
    generalize (n - r.cached) % 2 ^ 8 = a at ha h ⊢
    rw [top32_of_pos hpos hn] at h ⊢
    by_cases hbuffer : r.buffer = []
    · simp only [loadCache_nil hbuffer, bind, Except.bind] at h
      cases h
    · obtain ⟨word, r₁, hload, hpeek, -⟩ := loadCache_of_ne_nil hbuffer
      simp only [hload, bind, Except.bind] at h
      cases hcached : r₁.getCached a with
      | error e => simp [hcached] at h
      | ok p =>
        obtain ⟨low, r₂⟩ := p
        obtain ⟨htop, hskip⟩ := skip_of_getCached ha.1 ha.2 hcached
        simp only [hcached, pure, Except.pure, Except.ok.injEq, Prod.mk.injEq] at h
        obtain ⟨rfl, rfl⟩ := h
        simp [hload, hpeek, htop, hskip, bind, Except.bind, pure, Except.pure]
  case isFalse hin =>
    rw [if_neg hin, if_neg hin]
    exact skip_of_getCached hpos hn h

/-- The three ways to ask for `n` bits throw. -/
structure PastEnd (r : BitReader) (n : Nat) : Prop where
  get : r.get n = .error .pastEnd
  peek : r.peek n = .error .pastEnd
  skip : r.skip n = .error .pastEnd

theorem pastEnd_iff (hpos : 0 < n) (hn : n ≤ 32) :
    r.PastEnd n ↔ r.cached < n ∧ r.buffer = [] := by
  constructor
  · intro h
    have hskip := h.skip
    unfold BitReader.skip at hskip
    split at hskip
    case isTrue hmore =>
      refine ⟨hmore, ?_⟩
      by_contra hbuffer
      obtain ⟨word, r₁, hload, -⟩ := loadCache_of_ne_nil hbuffer
      simp only [hload, bind, Except.bind] at hskip
      exact skipCached_ne_pastEnd hskip
    case isFalse hin => exact absurd hskip skipCached_ne_pastEnd
  · rintro ⟨hmore, hbuffer⟩
    obtain ⟨hload, hpeek⟩ := loadCache_nil hbuffer
    refine ⟨?_, ?_, ?_⟩
    · rw [BitReader.get, if_pos hmore, top32_of_pos hpos hn, hload]
      rfl
    · rw [BitReader.peek, if_pos hmore, top32_of_pos hpos hn, hpeek]
      rfl
    · rw [BitReader.skip, if_pos hmore, hload]
      rfl

end Stream

end BitReader

end McuMediaServer
