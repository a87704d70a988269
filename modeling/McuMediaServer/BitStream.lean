import McuMediaServer.Base.Bytes

/-!
# The bit writer

`BitWritter` packs bit fields into a byte buffer through a 32-bit cache. The bits put so far and not
yet written are the low `cached` bits of the cache; `Put` shifts new bits in and `Flush` pads the
cache to whole bytes and writes it out, most significant bit first.
-/

namespace McuMediaServer

open ByteSeq

/-- What stops a write: the end of the buffer, for which the writer throws, and a shift of a 32-bit
word by 32 bits, which has no defined result. Reference: `bitstream.h:236`. -/
inductive BitFault where
  | pastEnd
  | shift
  deriving DecidableEq, Repr

/-- `x << n` on 32-bit words. -/
def shl32 (x n : Nat) : Except BitFault Nat :=
  if n < 32 then .ok ((x <<< n) % 2 ^ 32) else .error .shift

/-- `x >> n` on 32-bit words. -/
def shr32 (x n : Nat) : Except BitFault Nat :=
  if n < 32 then .ok (x >>> n) else .error .shift

/-- A writer over the buffer `data`. Reference: `bitstream.h:200`, class `BitWritter`. -/
structure BitWritter where
  /-- The buffer, as far as it has been written and beyond. -/
  data : List UInt8
  /-- How many bytes have been written. -/
  bufferLen : Nat := 0
  /-- How many bytes are left. -/
  bufferSize : Nat := data.length
  /-- A 32-bit word. -/
  cache : Nat := 0
  cached : Nat := 0
  deriving DecidableEq, Repr

namespace BitWritter

/-- Start over at the beginning of the buffer. Reference: `bitstream.h:211`, `Reset`. -/
def reset (w : BitWritter) : BitWritter :=
  { data := w.data }

/-- Write bytes at the current position. Reference: `bitstream.h:238`. -/
def write (w : BitWritter) (bytes : List UInt8) : BitWritter :=
  { w with
    data := w.data.take w.bufferLen ++ bytes ++ w.data.drop (w.bufferLen + bytes.length)
    bufferLen := w.bufferLen + bytes.length
    bufferSize := w.bufferSize - bytes.length }

/-- Write the cache out when it holds whole bytes. The bits left in the buffer are counted in a
`DWORD`. Reference: `bitstream.h:229`, `FlushCache`. -/
def flushCache (w : BitWritter) : Except BitFault BitWritter :=
  if w.cached = 0 then
    .ok w
  else if w.bufferSize * 8 % 2 ^ 32 < w.cached then
    .error .pastEnd
  else
    let bytes := match w.cached with
      | 32 => be4 w.cache
      | 24 => be3 w.cache
      | 16 => be2 w.cache
      | 8 => be1 w.cache
      | _ => []
    .ok { w.write bytes with cached := 0 }

/-- Put the low `n` bits of `v`. Reference: `bitstream.h:287`, `Put`. -/
def put (w : BitWritter) (n v : Nat) : Except BitFault BitWritter :=
  if 32 < n + w.cached then do
    let a := 32 - w.cached
    let b := n - a
    let high ← shl32 w.cache a
    let low ← shr32 v b
    let mask ← shr32 0xFFFFFFFF w.cached
    let w ← flushCache { w with cache := high ||| (low &&& mask), cached := 32 }
    let mask ← shr32 0xFFFFFFFF (32 - b)
    return { w with cache := v &&& mask, cached := b }
  else do
    let high ← shl32 w.cache n
    let mask ← shr32 0xFFFFFFFF (32 - n)
    return { w with cache := high ||| (v &&& mask), cached := w.cached + n }

/-- Pad the cache with zero bits up to whole bytes. Reference: `bitstream.h:272`, `Align`. -/
def align (w : BitWritter) : Except BitFault BitWritter :=
  if w.cached % 8 = 0 then .ok w
  else if 24 < w.cached then w.put (32 - w.cached) 0
  else if 16 < w.cached then w.put (24 - w.cached) 0
  else if 8 < w.cached then w.put (16 - w.cached) 0
  else w.put (8 - w.cached) 0

/-- Write everything put so far. Reference: `bitstream.h:222`, `Flush`. -/
def flush (w : BitWritter) : Except BitFault BitWritter := do
  let w ← w.align
  w.flushCache

variable {w : BitWritter}

theorem put_of_le {n : Nat} (v : Nat) (hn : 0 < n) (hn32 : n < 32) (hfit : n + w.cached ≤ 32)
    (hcache : w.cache < 2 ^ w.cached) :
    w.put n v = .ok { w with
      cache := w.cache * 2 ^ n + v % 2 ^ n
      cached := w.cached + n } := by
  have hmask : 0xFFFFFFFF >>> (32 - n) = 2 ^ n - 1 := by
    have hall : ∀ m < 32, 0xFFFFFFFF >>> (32 - m) = 2 ^ m - 1 := by decide
    exact hall n hn32
  have hlt : w.cache * 2 ^ n < 2 ^ 32 := calc
    w.cache * 2 ^ n < 2 ^ w.cached * 2 ^ n :=
      Nat.mul_lt_mul_of_pos_right hcache (Nat.two_pow_pos n)
    _ = 2 ^ (w.cached + n) := (Nat.pow_add ..).symm
    _ ≤ 2 ^ 32 := Nat.pow_le_pow_right (by decide) (by omega)
  rw [put, if_neg (by omega), shl32, if_pos hn32, shr32, if_pos (by omega)]
  simp only [bind, Except.bind, pure, Except.pure, hmask, Nat.and_two_pow_sub_one_eq_mod,
    Nat.shiftLeft_eq, Nat.mod_eq_of_lt hlt]
  rw [← Nat.shiftLeft_eq, Nat.shiftLeft_add_eq_or_of_lt (Nat.mod_lt _ (Nat.two_pow_pos n))]

theorem flush_sixteen (hcached : w.cached = 16) (hsize : w.bufferSize = 2) :
    w.flush = .ok { w.write (be2 w.cache) with cached := 0 } := by
  have halign : w.align = .ok w := by rw [align, hcached, if_pos (by decide)]
  rw [flush, halign]
  simp only [bind, Except.bind]
  rw [flushCache, hcached, hsize, if_neg (by decide), if_neg (by decide)]
  rfl

end BitWritter

end McuMediaServer
