import McuMediaServer.Base.Ring
import McuMediaServer.Base.Run
import Mathlib.Algebra.Order.Ring.Int

/-!
# The circular buffer

`fifo<T,S>` keeps its elements in an array of `S` and counts in `int`s: where they start, where they
end and how many there are. `remove` may leave the start at `S`, which does no harm. What is wrong
is the check of `push` whether there is room, whose sum can overflow; and no operation checks that
a length is not negative.

`refines_iff` says of which sequences of operations the buffer is a queue of at most `S` elements.
-/

namespace McuMediaServer

open StepRun

/-- The size of an array, which is an `int`. -/
abbrev FifoSize := { S : Nat // 0 < S ∧ S < 2 ^ 31 }

/-- An `int`. -/
abbrev CInt := { l : Int // -2 ^ 31 ≤ l ∧ l < 2 ^ 31 }

/-- What a computation gives when it is stored in an `int`. -/
def int (x : Int) : Int := x.bmod (2 ^ 32)

/-- What a computation gives when it is stored in an `unsigned int`. -/
def unsigned (x : Int) : Int := x % 2 ^ 32

theorem int_eq {x : Int} (h : -2 ^ 31 ≤ x) (h' : x < 2 ^ 31) : int x = x :=
  Int.bmod_eq_of_le (by omega) (by omega)

theorem unsigned_eq {x : Int} (h : 0 ≤ x) (h' : x < 2 ^ 32) : unsigned x = x :=
  Int.emod_eq_of_lt h h'

/-! ## Queues -/

/-- What a client does. The elements that it pushes are in its own memory. -/
inductive FifoOperation (T : Type*) where
  | push (inp : Nat → T) (l : CInt)
  | pop (l : CInt)
  | peek (l : CInt)
  | remove (l : CInt)
  | clear

/-- What an operation returns, and the elements that it copies out. -/
structure FifoResult (T : Type*) where
  returned : Int := 0
  out : List T := []
  deriving DecidableEq, Repr

namespace FifoOperation

variable {T : Type*} (S : FifoSize)

/-- The first `l` elements of a queue are there. -/
def There (queue : List T) (l : Int) : Prop := 0 ≤ l ∧ l ≤ queue.length

instance (queue : List T) (l : Int) : Decidable (There queue l) :=
  inferInstanceAs (Decidable (_ ∧ _))

/-- What an operation does to a queue of at most `S` elements, and what it returns. -/
def onQueue (queue : List T) : FifoOperation T → List T × FifoResult T
  | .push inp l =>
    if 0 ≤ l.1 ∧ queue.length + l.1 ≤ S.1 then
      (queue ++ Ring.piece inp 0 l.1.toNat, { returned := l })
    else
      (queue, {})
  | .pop l =>
    if There queue l then
      (queue.drop l.1.toNat, { returned := l, out := queue.take l.1.toNat })
    else
      (queue, {})
  | .peek l =>
    if There queue l then
      (queue, { returned := l, out := queue.take l.1.toNat })
    else
      (queue, {})
  | .remove l => if There queue l then (queue.drop l.1.toNat, { returned := l }) else (queue, {})
  | .clear => ([], {})

/-- The queue after a sequence of operations, and what the last of them returned. -/
def queueRun (ops : List (FifoOperation T)) : List T × FifoResult T :=
  run (fun t op => op.onQueue S t.1) ([], {}) ops

/-- Operations on which the buffer is a queue: the length is not negative, and what is pushed can be
counted together with what is there. -/
def Proper (queue : List T) : FifoOperation T → Prop
  | .push _ l => 0 ≤ l.1 ∧ queue.length + l.1 < 2 ^ 31
  | .pop l | .peek l | .remove l => 0 ≤ l.1
  | .clear => True

theorem queueRun_concat (bs : List (FifoOperation T)) (op : FifoOperation T) :
    queueRun S (bs ++ [op]) = op.onQueue S (queueRun S bs).1 := by
  rw [queueRun, run_concat]
  rfl

end FifoOperation

/-! ## The buffer -/

/-- Reference: `fifo.h:6`. -/
structure Fifo (T : Type*) where
  data : Nat → T
  ini : Int := 0
  endPos : Int := 0
  len : Int := 0

namespace Fifo

variable {T : Type*} (S : FifoSize)

/-- `memcpy` out of the array. There is no value when the elements do not lie within it; to `memcpy`
a negative number is a huge one. -/
def copyOut (data : Nat → T) (start n : Int) : Option (List T) :=
  if 0 ≤ start ∧ 0 ≤ n ∧ start + n ≤ S.1 then
    some (Ring.piece data start.toNat n.toNat)
  else
    none

/-- `memcpy` of the elements of `inp` from `start` on into the array. -/
def copyIn (data : Nat → T) (dst : Int) (inp : Nat → T) (start n : Int) : Option (Nat → T) :=
  if 0 ≤ dst ∧ 0 ≤ n ∧ dst + n ≤ S.1 then
    some (Ring.write data dst.toNat (Ring.piece inp start.toNat n.toNat))
  else
    none

/-- Reference: `fifo.h:23`. -/
def push (q : Fifo T) (inp : Nat → T) (l : Int) : Option (Fifo T × FifoResult T) :=
  if S.1 < int (q.len + l) then
    some (q, {})
  else
    let free := int (S.1 - q.endPos)
    if free ≥ l then do
      let data ← copyIn S q.data q.endPos inp 0 l
      let endPos := int (q.endPos + l)
      let endPos := if endPos = S.1 then 0 else endPos
      some ({ q with data, endPos, len := int (q.len + l) }, { returned := l })
    else do
      let data ← copyIn S q.data q.endPos inp 0 free
      let data ← copyIn S data 0 inp free (int (l - free))
      some ({ q with data, endPos := int (l - free), len := int (q.len + l) }, { returned := l })

/-- The space behind the start is `unsigned`, and so is what is compared with it and computed from
it. Reference: `fifo.h:84`. -/
def pop (q : Fifo T) (l : Int) (remove : Bool) : Option (Fifo T × FifoResult T) :=
  if q.len < l then
    some (q, {})
  else
    let total := unsigned (S.1 - q.ini)
    if total ≥ unsigned l then do
      let out ← copyOut S q.data q.ini l
      let ini := if remove then int (q.ini + l) else q.ini
      let ini := if ini = S.1 then 0 else ini
      let len := if remove then int (q.len - l) else q.len
      some ({ q with ini, len }, { returned := l, out })
    else do
      let out ← copyOut S q.data q.ini total
      let out' ← copyOut S q.data 0 (unsigned (l - total))
      some ({ q with
        ini := if remove then int (unsigned (l - total)) else q.ini
        len := if remove then int (q.len - l) else q.len }, { returned := l, out := out ++ out' })

/-- Reference: `fifo.h:122`. -/
def remove (q : Fifo T) (l : Int) : Fifo T × FifoResult T :=
  if q.len < l then
    (q, {})
  else
    let total := int (S.1 - q.ini)
    let ini := if total ≥ l then int (q.ini + l) else int (l - total)
    ({ q with ini, len := int (q.len - l) }, { returned := l })

/-- Reference: `fifo.h:150`. -/
def length (q : Fifo T) : Int := q.len

/-- Reference: `fifo.h:155`. -/
def clear (q : Fifo T) : Fifo T := { q with ini := q.endPos, len := 0 }

/-- An operation of a client. There is no value when something outside the array is accessed. -/
def operate (q : Fifo T) : FifoOperation T → Option (Fifo T × FifoResult T)
  | .push inp l => q.push S inp l
  | .pop l => q.pop S l true
  | .peek l => q.pop S l false
  | .remove l => some (q.remove S l)
  | .clear => some (q.clear, {})

/-- The buffer after a sequence of operations, and what the last of them returned. At first there is
anything in the array. -/
def operateAll (data : Nat → T) (ops : List (FifoOperation T)) : Option (Fifo T × FifoResult T) :=
  ops.foldlM (fun t op => t.1.operate S op) ({ data }, {})

/-- After each operation the buffer has as many elements as the queue, and the operation returned
what it returns for the queue; nothing outside the array is accessed. -/
def Refines (data : Nat → T) (ops : List (FifoOperation T)) : Prop :=
  ∀ bs, bs <+: ops → ∃ t, operateAll S data bs = some t ∧
    t.2 = (FifoOperation.queueRun S bs).2 ∧
    t.1.length = (FifoOperation.queueRun S bs).1.length

/-! ## What the buffer holds -/

/-- The buffer holds the elements of a queue from cell `i` to before cell `e`. The start may be at
`S`. -/
structure HoldsAt (q : Fifo T) (queue : List T) (i e : Nat) : Prop where
  ini : q.ini = i
  endPos : q.endPos = e
  len : q.len = queue.length
  ini_le : i ≤ S.1
  end_eq : (i + queue.length) % S.1 = e
  fits : queue.length ≤ S.1
  contents : Ring.contents q.data S i queue.length = queue

def Holds (q : Fifo T) (queue : List T) : Prop := ∃ i e, HoldsAt S q queue i e

variable {S : FifoSize} {data inp : Nat → T} {q : Fifo T} {i e n start : Nat} {queue : List T}

theorem HoldsAt.end_lt (h : HoldsAt S q queue i e) : e < S.1 :=
  h.end_eq ▸ Nat.mod_lt _ S.2.1

theorem holds_new (data : Nat → T) : Holds S { data } [] :=
  ⟨0, 0, rfl, rfl, rfl, Nat.zero_le _, Nat.zero_mod _, Nat.zero_le _, rfl⟩

theorem copyOut_of_le (h : start + n ≤ S.1) :
    copyOut S data start n = some (Ring.piece data start n) := by
  rw [copyOut, if_pos (by omega), Int.toNat_natCast, Int.toNat_natCast]

theorem copyIn_of_le {dst : Nat} (h : dst + n ≤ S.1) :
    copyIn S data dst inp start n = some (Ring.write data dst (Ring.piece inp start n)) := by
  rw [copyIn, if_pos (by omega), Int.toNat_natCast, Int.toNat_natCast, Int.toNat_natCast]

/-! ## The operations -/

theorem HoldsAt.end_add (h : HoldsAt S q queue i e) (n : Nat) :
    (i + (queue.length + n)) % S.1 = (e + n) % S.1 := by
  rw [← Nat.add_assoc, ← Nat.mod_add_mod, h.end_eq]

theorem push_of_fits (h : Holds S q queue) (hfits : queue.length + n ≤ S.1) :
    ∃ q', q.push S inp n = some (q', { returned := n }) ∧
      Holds S q' (queue ++ Ring.piece inp 0 n) := by
  obtain ⟨i, e, h⟩ := h
  obtain ⟨hpos, hlt⟩ := S.2
  have hes := h.end_lt
  have hlength : (queue ++ Ring.piece inp 0 n).length = queue.length + n := by
    rw [List.length_append, Ring.length_piece]
  have hsum : int (q.len + n) = ((queue.length + n : Nat) : Int) := by
    rw [h.len, int_eq (by omega) (by omega), Nat.cast_add]
  have hfree : int ((S.1 : Int) - e) = ((S.1 - e : Nat) : Int) := by
    rw [int_eq (by omega) (by omega), Nat.cast_sub (Nat.le_of_lt hes)]
  rw [push, hsum, if_neg (by omega)]
  simp only [h.endPos, hfree]
  split
  case isTrue hroom =>
    have hend := int_eq (x := (e : Int) + n) (by omega) (by omega)
    have hin := @copyIn_of_le T S q.data inp n 0 e (by omega)
    rw [Nat.cast_zero] at hin
    rw [hin, hend]
    refine ⟨_, rfl, i, (e + n) % S.1, h.ini, ?_, hlength ▸ rfl, h.ini_le, ?_, hlength ▸ hfits, ?_⟩
    · change (if (e : Int) + n = S.1 then (0 : Int) else e + n) = ((e + n) % S.1 : Nat)
      split
      case isTrue hwrap =>
        rw [show e + n = S.1 by omega, Nat.mod_self, Nat.cast_zero]
      case isFalse hwrap =>
        rw [Nat.mod_eq_of_lt (by omega), Nat.cast_add]
    · rw [hlength, h.end_add]
    · have hcontents := @Ring.contents_write T q.data _ _ _ inp _ _ h.end_eq hfits (by omega)
      rwa [h.contents, ← hlength] at hcontents
  case isFalse hroom =>
    have hrest : int (n - ((S.1 - e : Nat) : Int)) = ((n - (S.1 - e) : Nat) : Int) := by
      rw [int_eq (by omega) (by omega)]
      omega
    have hin := @copyIn_of_le T S q.data inp (S.1 - e) 0 e (by omega)
    have hin' := @copyIn_of_le T S (Ring.write q.data e (Ring.piece inp 0 (S.1 - e))) inp
      (n - (S.1 - e)) (S.1 - e) 0 (by omega)
    rw [Nat.cast_zero] at hin hin'
    rw [hrest, hin, Option.bind_eq_bind, Option.bind_some, hin']
    refine ⟨_, rfl, i, n - (S.1 - e), h.ini, rfl, hlength ▸ rfl, h.ini_le, ?_, hlength ▸ hfits, ?_⟩
    · rw [hlength, h.end_add, Nat.mod_eq_sub_mod (by omega), Nat.mod_eq_of_lt (by omega)]
      omega
    · have hfirst : e + (S.1 - e) = S.1 := by omega
      have hcontents := @Ring.contents_writes T q.data _ _ _ inp _ _ h.end_eq hfits _ hfirst
        (by omega)
      rwa [h.contents, ← hlength] at hcontents

theorem push_of_not_fits (h : Holds S q queue) (hnot : S.1 < queue.length + n)
    (hsum : queue.length + n < 2 ^ 31) : q.push S inp n = some (q, {}) := by
  obtain ⟨i, e, h⟩ := h
  rw [push, h.len, int_eq (by omega) (by omega), if_pos (by omega)]

theorem HoldsAt.drop (h : HoldsAt S q queue i e) (hn : n ≤ queue.length) {i' : Nat}
    (hile : i' ≤ S.1) (hi' : i' % S.1 = (i + n) % S.1) :
    HoldsAt S { q with ini := i', len := (queue.length - n : Nat) } (queue.drop n) i' e where
  ini := rfl
  endPos := h.endPos
  len := by rw [List.length_drop]
  ini_le := hile
  end_eq := by
    rw [List.length_drop, ← Nat.mod_add_mod, hi', Nat.mod_add_mod, ← h.end_eq]
    congr 1
    omega
  fits := Nat.le_trans (List.length_drop ▸ Nat.sub_le ..) h.fits
  contents := by
    conv_rhs => rw [← h.contents]
    rw [Ring.drop_contents hn, ← Ring.contents_mod _ _ (i + n), ← hi', Ring.contents_mod,
      List.length_drop]

theorem HoldsAt.wrap (h : HoldsAt S q queue i e) {i' : Nat} (hile : i' ≤ S.1)
    (hi' : i' % S.1 = i % S.1) : HoldsAt S { q with ini := i' } queue i' e where
  ini := rfl
  endPos := h.endPos
  len := h.len
  ini_le := hile
  end_eq := by rw [← Nat.mod_add_mod, hi', Nat.mod_add_mod, h.end_eq]
  fits := h.fits
  contents := by
    conv_rhs => rw [← h.contents]
    rw [← Ring.contents_mod, hi', Ring.contents_mod]

theorem ite_self_mod (i size : Nat) : (if i = size then 0 else i) % size = i % size := by
  split
  case isTrue heq => rw [heq, Nat.zero_mod, Nat.mod_self]
  case isFalse => rfl

theorem cast_wrap (i size : Nat) :
    (if (i : Int) = size then 0 else (i : Int)) = ((if i = size then 0 else i : Nat) : Int) := by
  split <;> split <;> omega

theorem pop_of_le (h : Holds S q queue) (hn : n ≤ queue.length) (remove : Bool) :
    ∃ q', q.pop S n remove = some (q', { returned := n, out := queue.take n }) ∧
      Holds S q' (if remove then queue.drop n else queue) := by
  obtain ⟨i, e, h⟩ := h
  obtain ⟨hpos, hlt⟩ := S.2
  have hfits := h.fits
  have hile := h.ini_le
  have htake : Ring.contents q.data S i n = queue.take n := by
    conv_rhs => rw [← h.contents]
    rw [Ring.take_contents hn]
  have htotal : unsigned ((S.1 : Int) - i) = ((S.1 - i : Nat) : Int) := by
    rw [unsigned_eq (by omega) (by omega), Nat.cast_sub hile]
  have hlen : int ((queue.length : Int) - n) = ((queue.length - n : Nat) : Int) := by
    rw [int_eq (by omega) (by omega), Nat.cast_sub hn]
  rw [pop, h.len, if_neg (by omega), unsigned_eq (x := (n : Int)) (by omega) (by omega)]
  simp only [h.ini, htotal, hlen]
  split
  case isTrue hroom =>
    have hend := int_eq (x := (i : Int) + n) (by omega) (by omega)
    rw [copyOut_of_le (by omega), hend, ← htake, Ring.contents_eq_piece (by omega)]
    cases remove with
    | true =>
      refine ⟨_, rfl, if i + n = S.1 then 0 else i + n, e, ?_⟩
      have hle : (if i + n = S.1 then 0 else i + n) ≤ S.1 := by split <;> omega
      have hheld := h.drop hn hle (ite_self_mod _ _)
      rwa [← cast_wrap] at hheld
    | false =>
      refine ⟨_, rfl, if i = S.1 then 0 else i, e, ?_⟩
      have hle : (if i = S.1 then 0 else i) ≤ S.1 := by split <;> omega
      have hheld := h.wrap hle (ite_self_mod _ _)
      rwa [← cast_wrap, h.len] at hheld
  case isFalse hroom =>
    have hrest : unsigned ((n : Int) - ((S.1 - i : Nat) : Int)) =
        ((n - (S.1 - i) : Nat) : Int) := by
      rw [unsigned_eq (by omega) (by omega)]
      omega
    have hout := @copyOut_of_le T S q.data (n - (S.1 - i)) 0 (by omega)
    rw [Nat.cast_zero] at hout
    have hfirst : i + (S.1 - i) = S.1 := by omega
    rw [hrest, copyOut_of_le (by omega), hout, int_eq (by omega) (by omega), ← htake,
      Ring.contents_eq_pieces hfirst (by omega) (by omega)]
    cases remove with
    | true =>
      refine ⟨_, rfl, n - (S.1 - i), e, h.drop hn (by omega) ?_⟩
      rw [show i + n = n - (S.1 - i) + S.1 by omega, Nat.add_mod_right]
    | false =>
      refine ⟨_, rfl, i, e, ?_⟩
      rw [← h.ini, ← h.len]
      exact h

theorem pop_of_lt (h : Holds S q queue) (hn : queue.length < n) (remove : Bool) :
    q.pop S n remove = some (q, {}) := by
  obtain ⟨i, e, h⟩ := h
  rw [pop, h.len, if_pos (by omega)]

theorem remove_of_le (h : Holds S q queue) (hn : n ≤ queue.length) :
    ∃ q', q.remove S n = (q', { returned := n }) ∧ Holds S q' (queue.drop n) := by
  obtain ⟨i, e, h⟩ := h
  obtain ⟨hpos, hlt⟩ := S.2
  have hfits := h.fits
  have hile := h.ini_le
  have htotal : int ((S.1 : Int) - i) = ((S.1 - i : Nat) : Int) := by
    rw [int_eq (by omega) (by omega), Nat.cast_sub hile]
  have hlen : int ((queue.length : Int) - n) = ((queue.length - n : Nat) : Int) := by
    rw [int_eq (by omega) (by omega), Nat.cast_sub hn]
  rw [remove, h.len, if_neg (by omega)]
  simp only [h.ini, htotal, hlen]
  split
  case isTrue hroom =>
    refine ⟨_, rfl, i + n, e, ?_⟩
    rw [int_eq (by omega) (by omega)]
    exact h.drop hn (by omega) rfl
  case isFalse hroom =>
    have hini : int ((n : Int) - ((S.1 - i : Nat) : Int)) = ((n - (S.1 - i) : Nat) : Int) := by
      rw [int_eq (by omega) (by omega)]
      omega
    refine ⟨_, rfl, n - (S.1 - i), e, ?_⟩
    rw [hini]
    refine h.drop hn (by omega) ?_
    rw [show i + n = n - (S.1 - i) + S.1 by omega, Nat.add_mod_right]

theorem remove_of_lt (h : Holds S q queue) (hn : queue.length < n) : q.remove S n = (q, {}) := by
  obtain ⟨i, e, h⟩ := h
  rw [remove, h.len, if_pos (by omega)]

theorem holds_clear (h : Holds S q queue) : Holds S q.clear [] := by
  obtain ⟨i, e, h⟩ := h
  exact ⟨e, e, h.endPos, h.endPos, rfl, Nat.le_of_lt h.end_lt, Nat.mod_eq_of_lt h.end_lt,
    Nat.zero_le _, rfl⟩

/-! ## Lengths that an operation does not check -/

variable {t : Fifo T × FifoResult T}

theorem returned_push {l : Int} (ht : q.push S inp l = some t)
    (hcheck : int (q.len + l) ≤ S.1) : t.2.returned = l := by
  rw [push, if_neg (by omega)] at ht
  dsimp only at ht
  split at ht
  · obtain ⟨data, -, ht⟩ := Option.bind_eq_some_iff.1 ht
    rw [← Option.some.inj ht]
  · obtain ⟨data, -, ht⟩ := Option.bind_eq_some_iff.1 ht
    obtain ⟨data', -, ht⟩ := Option.bind_eq_some_iff.1 ht
    rw [← Option.some.inj ht]

theorem push_of_neg {l : Int} (h : Holds S q queue) (hl : -2 ^ 31 ≤ l) (hneg : l < 0) :
    q.push S inp l = none := by
  obtain ⟨i, e, h⟩ := h
  have hlt := S.2.2
  have hes := h.end_lt
  have hfits := h.fits
  rw [push, h.len, int_eq (by omega) (by omega), if_neg (by omega)]
  simp only [h.endPos]
  rw [int_eq (x := (S.1 : Int) - e) (by omega) (by omega), if_pos (by omega), copyIn,
    if_neg (by omega)]
  rfl

theorem length_out_pop {l : Int} {remove : Bool} (h : Holds S q queue)
    (hl : -2 ^ 31 ≤ l) (hneg : l < 0) (ht : q.pop S l remove = some t) :
    t.2.out ≠ [] := by
  obtain ⟨i, e, h⟩ := h
  have hlt := S.2.2
  have hile := h.ini_le
  have htotal : unsigned ((S.1 : Int) - i) = ((S.1 - i : Nat) : Int) := by
    rw [unsigned_eq (by omega) (by omega), Nat.cast_sub hile]
  have hl' : unsigned l = l + 2 ^ 32 := by
    rw [unsigned, ← Int.add_emod_right, Int.emod_eq_of_lt (by omega) (by omega)]
  have hrest : unsigned (l - ((S.1 - i : Nat) : Int)) = l - ((S.1 - i : Nat) : Int) + 2 ^ 32 := by
    rw [unsigned, ← Int.add_emod_right, Int.emod_eq_of_lt (by omega) (by omega)]
  rw [pop, h.len, if_neg (by omega)] at ht
  simp only [h.ini, htotal, hl', hrest] at ht
  rw [if_neg (by omega)] at ht
  obtain ⟨out, hout, ht⟩ := Option.bind_eq_some_iff.1 ht
  obtain ⟨out', hout', ht⟩ := Option.bind_eq_some_iff.1 ht
  rw [← Option.some.inj ht]
  rw [copyOut] at hout'
  split at hout'
  case isFalse => cases hout'
  case isTrue =>
    refine List.append_ne_nil_of_right_ne_nil _ (List.ne_nil_of_length_pos ?_)
    rw [← Option.some.inj hout', Ring.length_piece]
    omega

theorem len_remove {l : Int} (h : Holds S q queue) (hl : -2 ^ 31 ≤ l) (hneg : l < 0) :
    (q.remove S l).1.len ≠ queue.length := by
  obtain ⟨i, e, h⟩ := h
  have hlt := S.2.2
  have hfits := h.fits
  rw [remove, h.len, if_neg (by omega)]
  show int ((queue.length : Int) - l) ≠ queue.length
  rw [int, Int.bmod_def]
  split <;> omega

/-! ## Runs -/

theorem operate_of_proper (h : Holds S q queue) {op : FifoOperation T} (hp : op.Proper queue) :
    ∃ q', q.operate S op = some (q', (op.onQueue S queue).2) ∧
      Holds S q' (op.onQueue S queue).1 := by
  cases op with
  | push inp l =>
    obtain ⟨l, hl⟩ := l
    obtain ⟨hnonneg, hsum⟩ : 0 ≤ l ∧ queue.length + l < 2 ^ 31 := hp
    obtain ⟨n, rfl⟩ := Int.eq_ofNat_of_zero_le hnonneg
    dsimp only [FifoOperation.onQueue]
    split
    case isTrue hfits => exact push_of_fits h (by omega)
    case isFalse hnot => exact ⟨q, push_of_not_fits h (by omega) (by omega), h⟩
  | pop l =>
    obtain ⟨l, hl⟩ := l
    obtain ⟨n, rfl⟩ := Int.eq_ofNat_of_zero_le hp
    dsimp only [FifoOperation.onQueue]
    split
    case isTrue hthere => exact pop_of_le h (Int.ofNat_le.1 hthere.2) true
    case isFalse hnot =>
      exact ⟨q, pop_of_lt h (by rw [FifoOperation.There] at hnot; omega) true, h⟩
  | peek l =>
    obtain ⟨l, hl⟩ := l
    obtain ⟨n, rfl⟩ := Int.eq_ofNat_of_zero_le hp
    dsimp only [FifoOperation.onQueue]
    split
    case isTrue hthere => exact pop_of_le h (Int.ofNat_le.1 hthere.2) false
    case isFalse hnot =>
      exact ⟨q, pop_of_lt h (by rw [FifoOperation.There] at hnot; omega) false, h⟩
  | remove l =>
    obtain ⟨l, hl⟩ := l
    obtain ⟨n, rfl⟩ := Int.eq_ofNat_of_zero_le hp
    dsimp only [FifoOperation.onQueue]
    split
    case isTrue hthere =>
      obtain ⟨q', hq', hheld⟩ := remove_of_le h (Int.ofNat_le.1 hthere.2)
      exact ⟨q', congrArg some hq', hheld⟩
    case isFalse hnot =>
      exact ⟨q, congrArg some (remove_of_lt h (by rw [FifoOperation.There] at hnot; omega)), h⟩
  | clear => exact ⟨q.clear, rfl, holds_clear h⟩

theorem proper_of_operate (h : Holds S q queue) {op : FifoOperation T}
    (ht : q.operate S op = some t) (hresult : t.2 = (op.onQueue S queue).2)
    (hlength : t.1.length = (op.onQueue S queue).1.length) : op.Proper queue := by
  have hfits : queue.length ≤ S.1 := by
    obtain ⟨i, e, h⟩ := h
    exact h.fits
  have hlen : q.len = queue.length := by
    obtain ⟨i, e, h⟩ := h
    exact h.len
  have hlt := S.2.2
  cases op with
  | push inp l =>
    obtain ⟨l, hl⟩ := l
    refine by_contra fun hnot => ?_
    replace hnot : ¬(0 ≤ l ∧ queue.length + l < 2 ^ 31) := hnot
    rcases lt_or_ge l 0 with hneg | hnonneg
    · rw [operate, push_of_neg h hl.1 hneg] at ht
      cases ht
    · have hsum : int (q.len + l) = q.len + l - 2 ^ 32 := by
        rw [int, Int.bmod_def, hlen]
        split <;> omega
      have hreturned := returned_push (show q.push S inp l = some t from ht) (by omega)
      rw [hresult, FifoOperation.onQueue, if_neg (by dsimp only; omega)] at hreturned
      change (0 : Int) = l at hreturned
      omega
  | pop l | peek l =>
    obtain ⟨l, hl⟩ := l
    refine le_of_not_gt fun hneg => length_out_pop h hl.1 hneg ht ?_
    rw [hresult, FifoOperation.onQueue, if_neg fun hthere => not_le_of_gt hneg hthere.1]
  | remove l =>
    obtain ⟨l, hl⟩ := l
    refine le_of_not_gt fun hneg => len_remove h hl.1 hneg ?_
    rw [FifoOperation.onQueue, if_neg fun hthere => not_le_of_gt hneg hthere.1] at hlength
    rw [← hlength, ← Option.some.inj ht]
    rfl
  | clear => trivial

/-- **The buffer is a queue** exactly as long as no operation has a negative length and what is
pushed can be counted, in an `int`, together with what is there. -/
theorem refines_iff (S : FifoSize) (data : Nat → T) (ops : List (FifoOperation T)) :
    Refines S data ops ↔
      ∀ bs op, bs ++ [op] <+: ops → op.Proper (FifoOperation.queueRun S bs).1 := by
  refine forall_prefix_foldlM_iff
    (I := fun bs (t : Fifo T × FifoResult T) => t.2 = (FifoOperation.queueRun S bs).2 ∧
      Holds S t.1 (FifoOperation.queueRun S bs).1)
    (P := fun bs (t : Fifo T × FifoResult T) => t.2 = (FifoOperation.queueRun S bs).2 ∧
      t.1.length = (FifoOperation.queueRun S bs).1.length)
    ⟨rfl, holds_new data⟩ ?_ ?_ ?_ ops
  · rintro bs t ⟨hresult, i, e, h⟩
    exact ⟨hresult, h.len⟩
  · rintro bs t op ⟨-, h⟩ hp
    obtain ⟨q', hq', hheld⟩ := operate_of_proper h hp
    refine ⟨_, hq', ?_⟩
    rw [FifoOperation.queueRun_concat]
    exact ⟨rfl, hheld⟩
  · rintro bs t op u ⟨-, h⟩ hu ⟨hresult, hlength⟩
    rw [FifoOperation.queueRun_concat] at hresult hlength
    exact proper_of_operate h hu hresult hlength

/-- The sum of one element and 2^31 - 1 is negative, so that there seems to be room. -/
theorem not_refines_push :
    ¬ Refines ⟨8, by decide⟩ (fun _ => 0)
      [.push (fun i => i) ⟨1, by decide⟩, .push (fun i => i) ⟨2 ^ 31 - 1, by decide⟩] := by
  intro h
  obtain ⟨t, ht, -⟩ := h _ (List.prefix_refl _)
  have hnone : (operateAll (T := Nat) ⟨8, by decide⟩ (fun _ => 0)
      [.push (fun i => i) ⟨1, by decide⟩, .push (fun i => i) ⟨2 ^ 31 - 1, by decide⟩]).isNone := by
    decide
  rw [ht] at hnone
  cases hnone

end Fifo

end McuMediaServer
