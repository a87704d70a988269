import McuMediaServer.Video.ExpGolomb
import McuMediaServer.Video.Vlc
import McuMediaServer.BitRoundTrip
import Mathlib.Data.List.Pairwise

/-!
# The tables of variable length codes

A code is put in a table by writing it to four bytes and reading it back bit by bit, each bit a step
down the tree. `insert_eq` says when that gives the tree of the code's bits. What a tree holds is
said path by path: the values (`valueAt`) and the nodes (`Reaches`). For codes none of which begins
another the walk of a code ends at its value, and a walk on a path of no code leaves the tree.
-/

namespace McuMediaServer

open ByteSeq

namespace VLCNode

variable {α : Type}

/-- Reference: `bitstream.h:391`. -/
def value : VLCNode α → Option α
  | none => Option.none
  | node value _ _ => value

/-- Reference: `bitstream.h:390`. -/
def childs : VLCNode α → Bool → VLCNode α
  | none, _ => none
  | node _ zero _, false => zero
  | node _ _ one, true => one

/-- A node is created where there is none. Reference: `bitstream.h:343`. -/
def addRead (value : α) : Nat → VLCNode α → BitReader → Except BitFault (VLCNode α)
  | 0, n, _ => .ok (node (some value) (n.childs false) (n.childs true))
  | len + 1, n, reader => do
    let (child, reader) ← reader.get 1
    if child = 0 then do
      let zero ← addRead value len (n.childs false) reader
      return node n.value zero (n.childs true)
    else do
      let one ← addRead value len (n.childs true) reader
      return node n.value (n.childs false) one

/-- The value at the end of a path. -/
def valueAt : VLCNode α → List Bool → Option α
  | n, [] => n.value
  | n, bit :: path => (n.childs bit).valueAt path

/-- There is a node at the end of a path. -/
def Reaches : VLCNode α → List Bool → Prop
  | n, [] => n ≠ none
  | n, bit :: path => (n.childs bit).Reaches path

variable {r : BitReader} {total : Nat} {bits path rest : List Bool} {n : VLCNode α}

theorem get_bit {bit : Bool} (h : r.Holds total (bit :: rest)) :
    ∃ r', r.get 1 = .ok (bit.toNat, r') ∧ r'.Holds total rest := by
  refine get_toBits (n := 1) (v := bit.toNat) ?_ (by decide) (by decide) ?_
  · cases bit <;> exact h
  · cases bit <;> decide

theorem addRead_eq (value : α) (h : r.Holds total (bits ++ rest)) (n : VLCNode α) :
    addRead value bits.length n r = .ok (n.addValue value bits) := by
  induction bits generalizing r n with
  | nil => cases n <;> rfl
  | cons bit bits ih =>
    obtain ⟨r', hget, hr'⟩ := get_bit h
    rw [List.length_cons, addRead, hget]
    simp only [bind, Except.bind, pure, Except.pure]
    cases bit with
    | false =>
      rw [if_pos (by decide), ih hr']
      cases n <;> rfl
    | true =>
      rw [if_neg (by decide), ih hr']
      cases n <;> rfl

theorem valueAt_addValue (value : α) (bits path : List Bool) (n : VLCNode α) :
    (n.addValue value bits).valueAt path = if path = bits then some value else n.valueAt path := by
  induction bits generalizing path n with
  | nil =>
    cases path with
    | nil => cases n <;> rfl
    | cons bit path => cases n <;> cases bit <;> rfl
  | cons bit bits ih =>
    cases path with
    | nil => cases n <;> cases bit <;> rfl
    | cons bit' path =>
      have hchild : ((n.addValue value (bit :: bits)).childs bit') =
          if bit' = bit then (n.childs bit).addValue value bits else n.childs bit' := by
        cases n <;> cases bit <;> cases bit' <;> rfl
      rw [valueAt, hchild, valueAt]
      by_cases hbit : bit' = bit
      · subst hbit
        rw [if_pos rfl, ih]
        simp
      · rw [if_neg hbit, if_neg fun heq => hbit (List.cons.inj heq).1]

attribute [local simp] addValue Reaches childs in
theorem reaches_addValue (value : α) (bits path : List Bool) (n : VLCNode α) :
    (n.addValue value bits).Reaches path ↔ path <+: bits ∨ n.Reaches path := by
  induction bits generalizing path n with
  | nil =>
    cases path with
    | nil => cases n <;> simp
    | cons bit path => cases n <;> cases bit <;> simp
  | cons bit bits ih =>
    cases path with
    | nil => cases n <;> cases bit <;> simp
    | cons bit' path =>
      have hchild : ((n.addValue value (bit :: bits)).childs bit') =
          if bit' = bit then (n.childs bit).addValue value bits else n.childs bit' := by
        cases n <;> cases bit <;> cases bit' <;> rfl
      rw [Reaches, hchild, Reaches, List.cons_prefix_cons]
      by_cases hbit : bit' = bit
      · subst hbit
        rw [if_pos rfl, ih]
        simp
      · rw [if_neg hbit]
        simp [hbit]

theorem decode_of_valueAt {v : α} (hvalue : n.valueAt path = some v)
    (hfirst : ∀ p, p <+: path → p ≠ path → n.valueAt p = Option.none)
    (h : r.Holds total (path ++ rest)) :
    ∃ r', n.decode r = .ok (some v, r') ∧ r'.Holds total rest := by
  induction path generalizing r n with
  | nil =>
    cases n with
    | none => cases hvalue
    | node v' zero one =>
      cases hvalue
      exact ⟨r, rfl, h⟩
  | cons bit path ih =>
    have hroot := hfirst [] (List.nil_prefix) (by simp)
    obtain ⟨r', hget, hr'⟩ := get_bit h
    have hnext := ih hvalue (fun p hp hne =>
      hfirst (bit :: p) (List.cons_prefix_cons.2 ⟨rfl, hp⟩) fun heq => hne (List.cons.inj heq).2) hr'
    cases n with
    | none =>
      obtain ⟨r'', hdecode, -⟩ := hnext
      cases hdecode
    | node v' zero one =>
      cases hroot
      rw [decode, hget]
      cases bit <;> exact hnext

theorem decode_of_not_reaches (hpath : ¬ n.Reaches path)
    (hnone : ∀ p, p <+: path → n.valueAt p = Option.none) (h : r.Holds total (path ++ rest)) :
    ∃ r', n.decode r = .ok (Option.none, r') := by
  induction path generalizing r n with
  | nil =>
    cases n with
    | none => exact ⟨r, rfl⟩
    | node v zero one => exact absurd (by simp [Reaches]) hpath
  | cons bit path ih =>
    have hroot := hnone [] (List.nil_prefix)
    obtain ⟨r', hget, hr'⟩ := get_bit h
    have hnext := ih hpath (fun p hp => hnone (bit :: p) (List.cons_prefix_cons.2 ⟨rfl, hp⟩)) hr'
    cases n with
    | none => exact ⟨r, rfl⟩
    | node v zero one =>
      cases hroot
      rw [decode, hget]
      cases bit <;> exact hnext

end VLCNode

/-- A code with its value, and what is in memory when it is put in a table: in the four bytes that
it is written to and in those behind them. -/
structure VLCCode (α : Type) where
  code : Nat
  len : Nat
  value : α
  aux : Vector UInt8 4
  behind : Vector UInt8 28
  len_pos : 0 < len
  len_le : len ≤ 32

namespace VLCCode

variable {α : Type}

/-- The lower bits. -/
def bits (c : VLCCode α) : List Bool := toBits c.len c.code

@[simp]
theorem length_bits (c : VLCCode α) : c.bits.length = c.len := length_toBits c.len c.code

/-- The code in memory. Reference: `bitstream.h:332`. -/
def written (c : VLCCode α) : Except BitFault (List UInt8) := do
  let writter ← BitWritter.put { data := c.aux.toList } c.len c.code
  let writter ← writter.flush
  return writter.data

theorem written_whole {c : VLCCode α} (h : c.len = 32) : c.written = .error .shift := by
  rw [written, h, BitWritter.put_of_whole (by simp)]
  rfl

theorem written_eq {c : VLCCode α} (h : c.len ≠ 32) : ∃ data rest, c.written = .ok data ∧
    byteBits ((data ++ c.behind.toList).take c.len) = c.bits ++ rest := by
  have hpos := c.len_pos
  have hle := c.len_le
  have hnew := BitWritter.holds_new c.aux.toList
  obtain ⟨w, hput, hw⟩ := hnew.put_of_fits hpos (by omega) (by simp; omega) c.code
  have hlen : w.bufferLen = 0 := by
    have := hw.bufferLen_eq
    rw [List.nil_append, length_toBits] at this
    omega
  obtain ⟨w', hflush, hbits⟩ := (hw.flush_iff (by rw [hlen]; exact Nat.zero_le _)).1 (by
    rw [List.nil_append, length_toBits, Vector.length_toList]
    omega)
  rw [List.nil_append] at hbits
  have hlength := congrArg List.length hbits
  rw [length_byteBits, List.length_append, List.length_replicate, BitWritter.length_padded,
    length_toBits, List.length_take] at hlength
  have htake : w'.data.take w'.bufferLen = (w'.data ++ c.behind.toList).take ((c.len + 7) / 8) := by
    rw [List.take_append_of_le_length (by omega), List.take_eq_take_iff]
    omega
  refine ⟨w'.data, List.replicate (BitWritter.padding c.len) false ++ byteBits
    (((w'.data ++ c.behind.toList).take c.len).drop ((c.len + 7) / 8)), ?_, ?_⟩
  · rw [written, hput]
    simp only [bind, Except.bind, hflush]
    rfl
  · rw [← List.append_assoc, bits]
    rw [length_toBits, htake] at hbits
    rw [← hbits, ← byteBits_append]
    congr 1
    calc (w'.data ++ c.behind.toList).take c.len
        = ((w'.data ++ c.behind.toList).take c.len).take ((c.len + 7) / 8) ++
            ((w'.data ++ c.behind.toList).take c.len).drop ((c.len + 7) / 8) :=
          (List.take_append_drop ..).symm
      _ = _ := by
          rw [List.take_take, Nat.min_eq_left (by omega)]

end VLCCode

namespace VLCDecoder

variable {α : Type}

/-- Reference: `bitstream.h:393`. -/
def root (table : VLCDecoder α) : VLCNode α := .node none table.zero table.one

/-- The code is written to memory, and read back from as many bytes as it has bits.
Reference: `bitstream.h:330`, `AddValue`. -/
def insert (table : VLCDecoder α) (c : VLCCode α) : Except BitFault (VLCDecoder α) := do
  let data ← c.written
  let reader : BitReader := { buffer := (data ++ c.behind.toList).take c.len }
  let root ← table.root.addRead c.value c.len reader
  return ⟨root.childs false, root.childs true⟩

/-- The codes of a table in the order of their calls. -/
def build (codes : List (VLCCode α)) : Except BitFault (VLCDecoder α) :=
  codes.foldlM insert ⟨.none, .none⟩

/-- The calls for codes that follow each other. -/
def decodeAll (table : VLCDecoder α) :
    Nat → BitReader → Except BitFault (List (Option α) × BitReader)
  | 0, reader => .ok ([], reader)
  | n + 1, reader => do
    let (value, reader) ← table.decode reader
    let (values, reader) ← table.decodeAll n reader
    return (value :: values, reader)

theorem decode_eq (table : VLCDecoder α) (reader : BitReader) :
    table.decode reader = table.root.decode reader := rfl

theorem root_addValue (table : VLCDecoder α) (c : VLCCode α) :
    (table.addValue c.code c.len c.value).root = table.root.addValue c.value c.bits := by
  have hlen := c.length_bits
  have hpos := c.len_pos
  rw [addValue]
  rw [VLCCode.bits] at hlen ⊢
  cases hbits : toBits c.len c.code with
  | nil =>
    rw [hbits, List.length_nil] at hlen
    omega
  | cons bit bits => cases bit <;> rfl

/-- **A code is put in the table unless it is a whole word, which is shifted out at once.** -/
theorem insert_eq (table : VLCDecoder α) (c : VLCCode α) :
    table.insert c = if c.len = 32 then .error .shift
      else .ok (table.addValue c.code c.len c.value) := by
  split_ifs with hwhole
  · rw [insert, VLCCode.written_whole hwhole]
    rfl
  · obtain ⟨data, rest, hwritten, hbits⟩ := VLCCode.written_eq hwhole
    have hholds := BitReader.holds_new ((data ++ c.behind.toList).take c.len)
    rw [hbits] at hholds
    have hroot := VLCNode.addRead_eq c.value hholds table.root
    rw [c.length_bits, ← root_addValue] at hroot
    rw [insert, hwritten]
    simp only [bind, Except.bind, hroot]
    rfl

theorem build_eq (codes : List (VLCCode α)) (table : VLCDecoder α) :
    codes.foldlM insert table = if ∃ c ∈ codes, c.len = 32 then .error .shift
      else .ok (codes.foldl (fun table c => table.addValue c.code c.len c.value) table) := by
  induction codes generalizing table with
  | nil => rw [if_neg (by simp)]; rfl
  | cons c codes ih =>
    rw [List.foldlM_cons, insert_eq]
    by_cases hwhole : c.len = 32
    · rw [if_pos hwhole, if_pos ⟨c, List.mem_cons_self, hwhole⟩]
      rfl
    · rw [if_neg hwhole]
      change codes.foldlM insert _ = _
      simp [ih, hwhole]

end VLCDecoder

/-! ## What a table holds -/

/-- The tree holds the values of the codes, and no other nodes than those on their paths. -/
structure StoresCodes {α : Type} (n : VLCNode α) (codes : List (VLCCode α)) : Prop where
  valueAt_iff : ∀ path v, n.valueAt path = some v ↔ ∃ c ∈ codes, c.bits = path ∧ c.value = v
  reaches_iff : ∀ path, n.Reaches path ↔ path = [] ∨ ∃ c ∈ codes, path <+: c.bits

/-- Neither code begins the other. -/
def VLCCode.Apart {α : Type} (c d : VLCCode α) : Prop :=
  ¬ c.bits <+: d.bits ∧ ¬ d.bits <+: c.bits

instance VLCCode.instSymmApart {α : Type} : Std.Symm (VLCCode.Apart (α := α)) where
  symm _ _ h := ⟨h.2, h.1⟩

/-- Codes none of which begins another. -/
structure Codebook (α : Type) where
  codes : List (VLCCode α)
  prefixFree : codes.Pairwise VLCCode.Apart

section StoresCodes

variable {α : Type} {n : VLCNode α} {codes : List (VLCCode α)} {c : VLCCode α}

theorem storesCodes_nil : StoresCodes (VLCDecoder.root (α := α) ⟨.none, .none⟩) [] where
  valueAt_iff path v := by
    have hnone (path : List Bool) : (VLCNode.none : VLCNode α).valueAt path = none := by
      induction path with
      | nil => rfl
      | cons bit path ih => exact ih
    cases path with
    | nil => simp [VLCDecoder.root, VLCNode.valueAt, VLCNode.value]
    | cons bit path =>
      cases bit <;> simp [VLCDecoder.root, VLCNode.valueAt, VLCNode.childs, hnone]
  reaches_iff path := by
    have hnone (path : List Bool) : ¬ (VLCNode.none : VLCNode α).Reaches path := by
      induction path with
      | nil => simp [VLCNode.Reaches]
      | cons bit path ih => exact ih
    cases path with
    | nil => simp [VLCDecoder.root, VLCNode.Reaches]
    | cons bit path =>
      cases bit <;> simp [VLCDecoder.root, VLCNode.Reaches, VLCNode.childs, hnone]

theorem StoresCodes.addValue (h : StoresCodes n codes) (hnew : ∀ d ∈ codes, d.bits ≠ c.bits) :
    StoresCodes (n.addValue c.value c.bits) (codes ++ [c]) where
  valueAt_iff path v := by
    rw [VLCNode.valueAt_addValue]
    split_ifs with hpath
    · subst hpath
      constructor
      · intro hv
        exact ⟨c, by simp, rfl, Option.some.inj hv⟩
      · rintro ⟨d, hd, hbits, rfl⟩
        rcases List.mem_append.1 hd with hold | hone
        · exact absurd hbits (hnew d hold)
        · rw [List.mem_singleton.1 hone]
    · rw [h.valueAt_iff]
      constructor
      · rintro ⟨d, hd, hv⟩
        exact ⟨d, List.mem_append_left _ hd, hv⟩
      · rintro ⟨d, hd, rfl, hv⟩
        rcases List.mem_append.1 hd with hold | hone
        · exact ⟨d, hold, rfl, hv⟩
        · exact absurd (by rw [List.mem_singleton.1 hone]) hpath
  reaches_iff path := by
    rw [VLCNode.reaches_addValue, h.reaches_iff]
    constructor
    · rintro (hc | hnil | ⟨d, hd, hprefix⟩)
      · exact .inr ⟨c, by simp, hc⟩
      · exact .inl hnil
      · exact .inr ⟨d, List.mem_append_left _ hd, hprefix⟩
    · rintro (hnil | ⟨d, hd, hprefix⟩)
      · exact .inr (.inl hnil)
      · rcases List.mem_append.1 hd with hold | hone
        · exact .inr (.inr ⟨d, hold, hprefix⟩)
        · exact .inl (List.mem_singleton.1 hone ▸ hprefix)

theorem storesCodes_foldl (codes : List (VLCCode α))
    (hfree : codes.Pairwise VLCCode.Apart) :
    StoresCodes (codes.foldl (fun table c => table.addValue c.code c.len c.value)
      (⟨.none, .none⟩ : VLCDecoder α)).root codes := by
  induction codes using List.reverseRecOn with
  | nil => exact storesCodes_nil
  | append_singleton codes c ih =>
    obtain ⟨hfree, -, hlast⟩ := List.pairwise_append.1 hfree
    rw [List.foldl_append, List.foldl_cons, List.foldl_nil, VLCDecoder.root_addValue]
    refine (ih hfree).addValue fun d hd heq => ?_
    exact (hlast d hd c (by simp)).1 (heq ▸ List.prefix_refl _)

theorem StoresCodes.decode_bits {r : BitReader} {total : Nat} {rest : List Bool}
    (h : StoresCodes n codes)
    (hfree : codes.Pairwise VLCCode.Apart)
    (hc : c ∈ codes) (hr : r.Holds total (c.bits ++ rest)) :
    ∃ r', n.decode r = .ok (some c.value, r') ∧ r'.Holds total rest := by
  refine VLCNode.decode_of_valueAt ((h.valueAt_iff ..).2 ⟨c, hc, rfl, rfl⟩) ?_ hr
  intro p hp hne
  rw [Option.eq_none_iff_forall_ne_some]
  intro v hv
  obtain ⟨d, hd, rfl, -⟩ := (h.valueAt_iff ..).1 hv
  have hdc : d ≠ c := fun heq => hne (heq ▸ rfl)
  exact (hfree.forall hd hc hdc).1 hp

theorem StoresCodes.decode_off {r : BitReader} {total : Nat} {path rest : List Bool}
    (h : StoresCodes n codes) (hpath : path ≠ [])
    (hoff : ∀ c ∈ codes, ¬ c.bits <+: path ∧ ¬ path <+: c.bits)
    (hr : r.Holds total (path ++ rest)) : ∃ r', n.decode r = .ok (none, r') := by
  refine VLCNode.decode_of_not_reaches ?_ ?_ hr
  · rw [h.reaches_iff]
    rintro (hnil | ⟨c, hc, hprefix⟩)
    · exact hpath hnil
    · exact (hoff c hc).2 hprefix
  · intro p hp
    rw [Option.eq_none_iff_forall_ne_some]
    intro v hv
    obtain ⟨c, hc, rfl, -⟩ := (h.valueAt_iff ..).1 hv
    exact (hoff c hc).1 hp

theorem decodeAll_eq {table : VLCDecoder α} (h : StoresCodes table.root codes)
    (hfree : codes.Pairwise VLCCode.Apart) {sent : List (VLCCode α)} (hsent : sent ⊆ codes)
    {r : BitReader} {total : Nat} {rest : List Bool}
    (hr : r.Holds total (sent.flatMap VLCCode.bits ++ rest)) :
    ∃ r', table.decodeAll sent.length r = .ok (sent.map fun c => some c.value, r') ∧
      r'.Holds total rest := by
  induction sent generalizing r with
  | nil => exact ⟨r, rfl, hr⟩
  | cons c sent ih =>
    obtain ⟨hc, hsent⟩ := List.cons_subset.1 hsent
    rw [List.flatMap_cons, List.append_assoc] at hr
    obtain ⟨r₁, hdecode, hr₁⟩ := h.decode_bits hfree hc hr
    obtain ⟨r', hrest, hr'⟩ := ih hsent hr₁
    refine ⟨r', ?_, hr'⟩
    rw [List.length_cons, VLCDecoder.decodeAll, VLCDecoder.decode_eq, hdecode]
    simp only [bind, Except.bind, hrest]
    rfl

end StoresCodes

/-- The codes can be put in a table that gives their values back, one after the other with no bit
more, and none on a path that leaves the tree. -/
def Codebook.Decodes {α : Type} (book : Codebook α) : Prop :=
  ∃ table, VLCDecoder.build book.codes = .ok table ∧
    (∀ sent, sent ⊆ book.codes → ∀ (r : BitReader) (total : Nat) (rest : List Bool),
      r.Holds total (sent.flatMap VLCCode.bits ++ rest) →
        ∃ r', table.decodeAll sent.length r = .ok (sent.map fun c => some c.value, r') ∧
          r'.Holds total rest) ∧
    ∀ path, path ≠ [] → (∀ c ∈ book.codes, ¬ c.bits <+: path ∧ ¬ path <+: c.bits) →
      ∀ (r : BitReader) (total : Nat) (rest : List Bool), r.Holds total (path ++ rest) →
        ∃ r', table.decode r = .ok (none, r')

/-- The code of 32 ones. -/
def wholeWord : Codebook Unit where
  codes := [⟨2 ^ 32 - 1, 32, (), Vector.replicate 4 0, Vector.replicate 28 0,
    Nat.succ_pos 31, Nat.le_refl 32⟩]
  prefixFree := List.pairwise_singleton ..

end McuMediaServer
