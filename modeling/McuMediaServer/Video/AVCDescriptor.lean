import McuMediaServer.Base.Bytes

/-!
# AVC decoder configurations

A configuration has a few bytes and two counted lists of parameter sets, each with its size in front.
What is written is read back unless the length of NAL units needs more than two bits. Reading never
leaves the buffer, but of a record that is cut off the sets in front of the cut stay in the
descriptor.
-/

namespace McuMediaServer

open ByteSeq

/-- Parameter sets of one kind, with the count and the sum of the sizes that are kept beside them.
Reference: `avcdescriptor.h:59`. -/
structure ParameterSets where
  data : List (List UInt8)
  num : Nat
  totalSizes : Nat
  num_eq : num = data.length % 2 ^ 8
  totalSizes_eq : totalSizes = (data.map List.length).sum % 2 ^ 32

namespace ParameterSets

/-- Reference: `avcdescriptor.cpp:163`. -/
def clear : ParameterSets := ⟨[], 0, 0, rfl, rfl⟩

theorem add_num_eq (sets : ParameterSets) (data : List UInt8) :
    (sets.num + 1) % 2 ^ 8 = (sets.data ++ [data]).length % 2 ^ 8 := by
  rw [sets.num_eq, List.length_append, List.length_singleton]
  omega

theorem add_totalSizes_eq (sets : ParameterSets) (data : List UInt8) :
    (sets.totalSizes + data.length) % 2 ^ 32 =
      ((sets.data ++ [data]).map List.length).sum % 2 ^ 32 := by
  rw [sets.totalSizes_eq, List.map_append, List.sum_append, List.map_singleton, List.sum_singleton]
  omega

/-- Reference: `avcdescriptor.cpp:104` and `avcdescriptor.cpp:147`. -/
def add (sets : ParameterSets) (data : List UInt8) : ParameterSets :=
  ⟨sets.data ++ [data], (sets.num + 1) % 2 ^ 8, (sets.totalSizes + data.length) % 2 ^ 32,
    sets.add_num_eq data, sets.add_totalSizes_eq data⟩

theorem eq_of_data {sets sets' : ParameterSets} (h : sets.data = sets'.data) : sets = sets' := by
  obtain ⟨data, num, total, hnum, htotal⟩ := sets
  obtain ⟨data', num', total', hnum', htotal'⟩ := sets'
  cases h
  cases hnum.trans hnum'.symm
  cases htotal.trans htotal'.symm
  rfl

/-- The size of a set, which is kept in a `WORD`. Reference: `avcdescriptor.h:60`. -/
def sizeOf (set : List UInt8) : Nat := set.length % 2 ^ 16

/-- Reference: `avcdescriptor.cpp:214`. -/
def write (sets : ParameterSets) : List UInt8 :=
  (sets.data.take sets.num).flatMap fun set => be2 (sizeOf set) ++ set.take (sizeOf set)

/-- Sets are read behind a position as long as they are inside the buffer; the result says whether
all were. The position stays far below what a `DWORD` can count. Reference: `avcdescriptor.cpp:47`
and `avcdescriptor.cpp:73`. -/
def read (buffer : List UInt8) : (num pos : Nat) → ParameterSets → Option (Bool × Nat × ParameterSets)
  | 0, pos, sets => some (true, pos, sets)
  | num + 1, pos, sets =>
    if buffer.length < pos + 2 then some (false, pos, sets)
    else do
      let length ← get2 buffer pos
      if buffer.length < pos + 2 + length then some (false, pos, sets)
      else do
        let data ← slice buffer (pos + 2) length
        read buffer num (pos + length + 2) (sets.add data)

end ParameterSets

/-- Reference: `avcdescriptor.h:52`. -/
structure AVCDescriptor where
  configurationVersion : UInt8
  avcProfileIndication : UInt8
  profileCompatibility : UInt8
  avcLevelIndication : UInt8
  nalUnitLength : UInt8
  sps : ParameterSets
  pps : ParameterSets

namespace AVCDescriptor

variable (d : AVCDescriptor)

/-- Reference: `avcdescriptor.h:43`. -/
def getSize : Nat :=
  (7 + 2 * (d.sps.num + d.pps.num) + d.pps.totalSizes + d.sps.totalSizes) % 2 ^ 32

/-- What is written, unless there is too little room. Reference: `avcdescriptor.cpp:199`. -/
def serialize (bufferLength : Nat) : Option (List UInt8) :=
  if bufferLength < d.getSize then none
  else
    some ([d.configurationVersion, d.avcProfileIndication, d.profileCompatibility,
      d.avcLevelIndication, d.nalUnitLength ||| 0xFC, .ofNat d.sps.num ||| 0xE0] ++ d.sps.write ++
      .ofNat d.pps.num :: d.pps.write)

/-- Whether all could be read, and the descriptor. There is no value when a byte outside the buffer
is read. Reference: `avcdescriptor.cpp:28`. -/
def parse (buffer : List UInt8) : Option (Bool × AVCDescriptor) :=
  if buffer.length < 7 then some (false, d)
  else do
    let configurationVersion ← buffer[0]?
    let avcProfileIndication ← buffer[1]?
    let profileCompatibility ← buffer[2]?
    let avcLevelIndication ← buffer[3]?
    let nalUnitLength ← buffer[4]?
    let num ← buffer[5]?
    let (ok, pos, sps) ← ParameterSets.read buffer (num &&& 0x1F).toNat 6 .clear
    let d : AVCDescriptor := ⟨configurationVersion, avcProfileIndication, profileCompatibility,
      avcLevelIndication, nalUnitLength &&& 0x03, sps, .clear⟩
    if ok then
      if buffer.length < pos + 1 then some (false, d)
      else do
        let num ← buffer[pos]?
        let (ok, _, pps) ← ParameterSets.read buffer num.toNat (pos + 1) .clear
        some (ok, { d with pps := pps })
    else
      some (false, d)

/-! ## What is asked of it -/

/-- Parameter sets as many and as long as a configuration can have. -/
structure Limited : Prop where
  numSPS : d.sps.data.length ≤ 31
  numPPS : d.pps.data.length ≤ 255
  sizeSPS : ∀ set ∈ d.sps.data, set.length < 2 ^ 16
  sizePPS : ∀ set ∈ d.pps.data, set.length < 2 ^ 16

/-- Wherever there is room, as many bytes are written as `GetSize` says, and they are read as this
descriptor, whatever was there before. -/
def RoundTrips : Prop :=
  ∀ bufferLength, d.getSize ≤ bufferLength → ∃ bytes, d.serialize bufferLength = some bytes ∧
    bytes.length = d.getSize ∧ ∀ old : AVCDescriptor, old.parse bytes = some (true, d)

/-- How many parameter sets of the first kind a configuration announces. -/
def announced (buffer : List UInt8) : Nat := ((buffer[5]?).getD 0 &&& 0x1F).toNat

/-- None of the lists holds some sets but not all: there are those from before when the buffer has
not been looked at, and else none or all that were announced of the first kind, and none of the
second. -/
def NoPartial (buffer : List UInt8) (old new : AVCDescriptor) : Prop :=
  if buffer.length < 7 then new = old
  else (new.sps.data = [] ∨ new.sps.data.length = announced buffer) ∧ new.pps.data = []

end AVCDescriptor

/-! ## Records -/

/-- Sets with their sizes in front. -/
def records (sets : List (List UInt8)) : List UInt8 :=
  sets.flatMap fun set => be2 set.length ++ set

/-- Whether there are so many complete records in front. -/
def StartsWith (count : Nat) (data : List UInt8) : Prop :=
  ∃ sets rest, sets.length = count ∧ (∀ set ∈ sets, set.length < 2 ^ 16) ∧
    data = records sets ++ rest

section Records

variable {data rest : List UInt8} {sets : List (List UInt8)} {count : Nat}

theorem records_cons (set : List UInt8) (sets : List (List UInt8)) :
    records (set :: sets) = be2 set.length ++ (set ++ records sets) := by
  rw [records, List.flatMap_cons, ← records, List.append_assoc]

theorem record_inj {set set' rest' : List UInt8} (hset : set.length < 2 ^ 16)
    (hset' : set'.length < 2 ^ 16)
    (h : be2 set.length ++ (set ++ rest) = be2 set'.length ++ (set' ++ rest')) :
    set = set' ∧ rest = rest' := by
  have hlength : set.length = set'.length := by
    have hget := congrArg (get2 · 0) h
    simp only [get2_be2, Nat.mod_eq_of_lt hset, Nat.mod_eq_of_lt hset'] at hget
    exact Option.some.inj hget
  rw [hlength] at h
  exact List.append_inj (List.append_cancel_left h) hlength

theorem startsWith_cons {set : List UInt8} (hset : set.length < 2 ^ 16) :
    StartsWith (count + 1) (be2 set.length ++ (set ++ rest)) ↔ StartsWith count rest := by
  constructor
  · rintro ⟨sets, rest', hcount, hsets, h⟩
    cases sets with
    | nil => cases hcount
    | cons set' sets =>
      rw [List.forall_mem_cons] at hsets
      rw [records_cons, List.append_assoc, List.append_assoc] at h
      obtain ⟨rfl, rfl⟩ := record_inj hset hsets.1 h
      exact ⟨sets, rest', Nat.succ.inj hcount, hsets.2, rfl⟩
  · rintro ⟨sets, rest', hcount, hsets, rfl⟩
    refine ⟨set :: sets, rest', by rw [List.length_cons, hcount], ?_, ?_⟩
    · exact List.forall_mem_cons.2 ⟨hset, hsets⟩
    · rw [records_cons, List.append_assoc, List.append_assoc]

theorem StartsWith.mono {count' : Nat} (h : StartsWith count data) (hle : count' ≤ count) :
    StartsWith count' data := by
  obtain ⟨sets, rest, hcount, hsets, rfl⟩ := h
  refine ⟨sets.take count', records (sets.drop count') ++ rest, ?_, ?_, ?_⟩
  · rw [List.length_take, hcount, Nat.min_eq_left hle]
  · exact fun set hset => hsets set (List.mem_of_mem_take hset)
  · rw [← List.append_assoc, records, records, records, ← List.flatMap_append,
      List.take_append_drop]

theorem startsWith_records (hsets : ∀ set ∈ sets, set.length < 2 ^ 16) (hlast : ¬StartsWith 1 rest) :
    StartsWith count (records sets ++ rest) ↔ count ≤ sets.length := by
  constructor
  · induction sets generalizing count with
    | nil =>
      intro h
      by_contra hcount
      exact hlast (h.mono (by rw [List.length_nil] at hcount; omega))
    | cons set sets ih =>
      rw [List.forall_mem_cons] at hsets
      intro h
      cases count with
      | zero => exact Nat.zero_le _
      | succ count =>
        rw [records_cons, List.append_assoc, List.append_assoc, startsWith_cons hsets.1] at h
        exact Nat.succ_le_succ (ih hsets.2 h)
  · intro hle
    exact StartsWith.mono ⟨sets, rest, rfl, hsets, rfl⟩ hle

theorem records_inj {sets' : List (List UInt8)} {rest' : List UInt8}
    (hsets : ∀ set ∈ sets, set.length < 2 ^ 16) (hsets' : ∀ set ∈ sets', set.length < 2 ^ 16)
    (hcount : sets.length = sets'.length) (h : records sets ++ rest = records sets' ++ rest') :
    sets = sets' ∧ rest = rest' := by
  induction sets generalizing sets' with
  | nil =>
    rw [List.length_eq_zero_iff.1 hcount.symm] at h ⊢
    exact ⟨rfl, h⟩
  | cons set sets ih =>
    cases sets' with
    | nil => cases hcount
    | cons set' sets' =>
      rw [List.forall_mem_cons] at hsets hsets'
      simp only [records_cons, List.append_assoc] at h
      obtain ⟨rfl, hrest⟩ := record_inj hsets.1 hsets'.1 h
      obtain ⟨rfl, rfl⟩ := ih hsets.2 hsets'.2 (Nat.succ.inj hcount) hrest
      exact ⟨rfl, rfl⟩

theorem length_records_cons (set : List UInt8) (sets : List (List UInt8)) :
    (records (set :: sets)).length = 2 + set.length + (records sets).length := by
  rw [records_cons, List.length_append, List.length_append, length_be2, Nat.add_assoc]

end Records

/-! ## Reading -/

namespace ParameterSets

/-- Sets that are added one after the other. -/
def addAll (sets : ParameterSets) (datas : List (List UInt8)) : ParameterSets :=
  datas.foldl add sets

@[simp]
theorem data_addAll (sets : ParameterSets) (datas : List (List UInt8)) :
    (sets.addAll datas).data = sets.data ++ datas := by
  induction datas generalizing sets with
  | nil => exact (List.append_nil _).symm
  | cons data datas ih =>
    rw [addAll, List.foldl_cons, ← addAll, ih, add, List.append_assoc]
    rfl

section Read

variable {buffer rest : List UInt8} {num pos : Nat} {sets : ParameterSets}

theorem get2_of_drop {size : Nat} (hsize : size < 2 ^ 16) (h : buffer.drop pos = be2 size ++ rest)
    (hpos : pos ≤ buffer.length) : get2 buffer pos = some size := by
  have hbuffer : buffer = buffer.take pos ++ (be2 size ++ rest) := by
    rw [← h, List.take_append_drop]
  have hlength : (buffer.take pos).length = pos := by
    rw [List.length_take, Nat.min_eq_left hpos]
  rw [hbuffer, get2_append (by rw [hlength]), hlength, Nat.sub_self, get2_be2,
    Nat.mod_eq_of_lt hsize]

theorem slice_of_drop {data : List UInt8} {n : Nat} (h : buffer.drop pos = data ++ rest)
    (hn : data.length = n) (hpos : pos + n ≤ buffer.length) : slice buffer pos n = some data := by
  rw [slice, if_pos hpos, h, List.take_left' hn]

theorem read_succ {set : List UInt8} (hset : set.length < 2 ^ 16)
    (h : buffer.drop pos = be2 set.length ++ (set ++ rest)) :
    read buffer (num + 1) pos sets =
      read buffer num (pos + (2 + set.length)) (sets.add set) ∧
      buffer.drop (pos + (2 + set.length)) = rest ∧ pos + (2 + set.length) ≤ buffer.length := by
  have hlength := congrArg List.length h
  rw [List.length_drop, List.length_append, List.length_append, length_be2] at hlength
  have hdrop : buffer.drop (pos + 2) = set ++ rest := by
    rw [← List.drop_drop, h, List.drop_left' (length_be2 _)]
  refine ⟨?_, ?_, by omega⟩
  · rw [read, if_neg (by omega), get2_of_drop hset h (by omega), Option.bind_eq_bind,
      Option.bind_some, if_neg (by omega), slice_of_drop hdrop rfl (by omega),
      Option.bind_eq_bind, Option.bind_some, show pos + set.length + 2 = pos + (2 + set.length) by omega]
  · rw [← Nat.add_assoc, ← List.drop_drop, hdrop, List.drop_left' rfl]

theorem read_of_not_startsWith (h : ¬StartsWith 1 (buffer.drop pos)) :
    read buffer (num + 1) pos sets = some (false, pos, sets) := by
  rw [read]
  by_cases hshort : buffer.length < pos + 2
  · rw [if_pos hshort]
  · rw [if_neg hshort]
    obtain ⟨length, hlength⟩ := Option.isSome_iff_exists.1
      ((@isSome_get2 buffer pos).2 (by omega))
    rw [hlength, Option.bind_eq_bind, Option.bind_some]
    by_cases hcut : buffer.length < pos + 2 + length
    · rw [if_pos hcut]
    · have hdata : (buffer.drop (pos + 2)).length = buffer.length - (pos + 2) := List.length_drop
      have hset : ((buffer.drop (pos + 2)).take length).length = length := by
        rw [List.length_take, hdata]
        omega
      refine absurd ⟨[(buffer.drop (pos + 2)).take length], (buffer.drop (pos + 2)).drop length, rfl,
        ?_, ?_⟩ h
      · intro set hset'
        rw [List.mem_singleton.1 hset', hset]
        exact get2_lt hlength
      · rw [records_cons, records, List.flatMap_nil, List.append_nil, hset, be2_of_get2 hlength,
          List.append_assoc, List.take_append_drop, ← List.drop_drop, List.take_append_drop]

theorem read_spec (hpos : pos ≤ buffer.length) :
    ∃ datas rest, buffer.drop pos = records datas ++ rest ∧
      (∀ data ∈ datas, data.length < 2 ^ 16) ∧ datas.length ≤ num ∧
      (datas.length < num → ¬StartsWith 1 rest) ∧
      read buffer num pos sets = some (decide (datas.length = num), pos + (records datas).length,
        sets.addAll datas) := by
  induction num generalizing pos sets with
  | zero => exact ⟨[], buffer.drop pos, rfl, by simp, le_refl _, by simp, rfl⟩
  | succ num ih =>
    by_cases hstarts : StartsWith 1 (buffer.drop pos)
    · obtain ⟨datas, rest, hone, hdatas, hdrop⟩ := hstarts
      obtain ⟨data, rfl⟩ := List.length_eq_one_iff.1 hone
      rw [List.forall_mem_singleton] at hdatas
      rw [records_cons, List.append_assoc, List.append_assoc] at hdrop
      obtain ⟨hread, hdrop', hpos'⟩ := @read_succ _ _ num _ sets _ hdatas hdrop
      obtain ⟨datas, rest', hrecords, hshort, hle, hlast, hspec⟩ := @ih _ (sets.add data) hpos'
      refine ⟨data :: datas, rest', ?_, List.forall_mem_cons.2 ⟨hdatas, hshort⟩,
        Nat.succ_le_succ hle, fun hlt => hlast (Nat.lt_of_succ_lt_succ hlt), ?_⟩
      · rw [hdrop, records_cons, List.append_assoc, List.append_assoc, ← hrecords, hdrop']
      · rw [hread, hspec, length_records_cons, List.length_cons, Nat.add_assoc pos]
        simp only [Nat.add_right_cancel_iff]
        rfl
    · exact ⟨[], buffer.drop pos, rfl, by simp, Nat.zero_le _, fun _ => hstarts,
        read_of_not_startsWith hstarts⟩

theorem read_records {datas : List (List UInt8)} (hshort : ∀ data ∈ datas, data.length < 2 ^ 16)
    (h : buffer.drop pos = records datas ++ rest) :
    read buffer datas.length pos sets =
      some (true, pos + (records datas).length, sets.addAll datas) := by
  induction datas generalizing pos sets with
  | nil => rfl
  | cons data datas ih =>
    rw [List.forall_mem_cons] at hshort
    rw [records_cons, List.append_assoc, List.append_assoc] at h
    obtain ⟨hread, hdrop, -⟩ := @read_succ _ _ datas.length _ sets _ hshort.1 h
    rw [List.length_cons, hread, ih hshort.2 hdrop, length_records_cons, Nat.add_assoc pos]
    rfl

end Read

theorem write_eq {sets : ParameterSets} (hnum : sets.data.length < 2 ^ 8)
    (hshort : ∀ set ∈ sets.data, set.length < 2 ^ 16) : sets.write = records sets.data := by
  rw [write, sets.num_eq, Nat.mod_eq_of_lt hnum, List.take_length, records]
  refine List.flatMap_congr fun set hset => ?_
  rw [sizeOf, Nat.mod_eq_of_lt (hshort set hset), List.take_length]

end ParameterSets

theorem length_records (sets : List (List UInt8)) :
    (records sets).length = 2 * sets.length + (sets.map List.length).sum := by
  induction sets with
  | nil => rfl
  | cons set sets ih =>
    rw [length_records_cons, ih, List.length_cons, List.map_cons, List.sum_cons]
    omega

namespace AVCDescriptor

variable {d : AVCDescriptor}

section RoundTrip

theorem sum_lengths_le {sets : List (List UInt8)} (h : ∀ set ∈ sets, set.length < 2 ^ 16) :
    (sets.map List.length).sum ≤ sets.length * 2 ^ 16 := by
  induction sets with
  | nil => exact Nat.le_refl _
  | cons set sets ih =>
    rw [List.forall_mem_cons] at h
    have := ih h.2
    rw [List.map_cons, List.sum_cons, List.length_cons]
    omega

theorem getSize_of_limited (h : d.Limited) :
    d.getSize = 7 + (records d.sps.data).length + (records d.pps.data).length := by
  have hsps := sum_lengths_le h.sizeSPS
  have hpps := sum_lengths_le h.sizePPS
  have hsps' := h.numSPS
  have hpps' := h.numPPS
  rw [getSize, d.sps.num_eq, d.pps.num_eq, d.sps.totalSizes_eq, d.pps.totalSizes_eq,
    length_records, length_records]
  omega

theorem masked_count {n : Nat} (h : n ≤ 31) : ((.ofNat n ||| 0xE0 : UInt8) &&& 0x1F).toNat = n := by
  have hall : ∀ n : Fin 32, ((.ofNat n.val ||| 0xE0 : UInt8) &&& 0x1F).toNat = n.val := by decide
  exact hall ⟨n, by omega⟩

theorem masked_length (n : UInt8) : (n ||| 0xFC) &&& 0x03 = n ↔ n.toNat < 4 := by
  have hall : ∀ n : Fin 256, ((.ofNat n.val ||| 0xFC : UInt8) &&& 0x03 = .ofNat n.val) ↔ n.val < 4 := by
    decide +kernel
  have hn := hall ⟨n.toNat, n.toNat_lt⟩
  rwa [UInt8.ofNat_toNat] at hn

theorem parse_serialize (h : d.Limited) (old : AVCDescriptor) {bufferLength : Nat}
    (hroom : d.getSize ≤ bufferLength) :
    ∃ bytes, d.serialize bufferLength = some bytes ∧ bytes.length = d.getSize ∧
      old.parse bytes = some (true, { d with nalUnitLength := (d.nalUnitLength ||| 0xFC) &&& 0x03 }) := by
  have hsps := h.numSPS
  have hpps := h.numPPS
  rw [serialize, if_neg (by omega), ParameterSets.write_eq (by omega) h.sizeSPS,
    ParameterSets.write_eq (by omega) h.sizePPS]
  refine ⟨_, rfl, ?_, ?_⟩
  · rw [getSize_of_limited h, List.length_append, List.length_append, List.length_cons]
    simp only [List.length_cons, List.length_nil]
    omega
  · generalize hbytes : [d.configurationVersion, d.avcProfileIndication, d.profileCompatibility,
      d.avcLevelIndication, d.nalUnitLength ||| 0xFC, .ofNat d.sps.num ||| 0xE0] ++
      records d.sps.data ++ .ofNat d.pps.num :: records d.pps.data = bytes
    have hcons : bytes = d.configurationVersion :: d.avcProfileIndication ::
        d.profileCompatibility :: d.avcLevelIndication :: (d.nalUnitLength ||| 0xFC) ::
        (.ofNat d.sps.num ||| 0xE0) ::
        (records d.sps.data ++ .ofNat d.pps.num :: records d.pps.data) := by
      rw [← hbytes]
      simp
    have hlength : bytes.length = 7 + (records d.sps.data).length + (records d.pps.data).length := by
      rw [hcons]
      simp only [List.length_cons, List.length_append]
      omega
    have hnum : d.sps.num = d.sps.data.length := by
      rw [d.sps.num_eq, Nat.mod_eq_of_lt (by omega)]
    have hnum' : (UInt8.ofNat d.pps.num).toNat = d.pps.data.length := by
      rw [d.pps.num_eq, UInt8.toNat_ofNat']
      omega
    have hdrop : bytes.drop 6 =
        records d.sps.data ++ .ofNat d.pps.num :: records d.pps.data := by
      rw [hcons]
      rfl
    have hdrop' : bytes.drop (6 + (records d.sps.data).length + 1) = records d.pps.data ++ [] := by
      rw [Nat.add_assoc, ← List.drop_drop, hdrop, ← List.drop_drop, List.drop_left' rfl,
        List.append_nil]
      rfl
    have hcount : bytes[6 + (records d.sps.data).length]? = some (.ofNat d.pps.num) := by
      rw [← List.getElem?_drop, hdrop, List.getElem?_append_right (le_refl _), Nat.sub_self]
      rfl
    have hsps' := @ParameterSets.read_records bytes _ 6 .clear _ h.sizeSPS hdrop
    have hpps' := @ParameterSets.read_records bytes _ _ .clear _ h.sizePPS hdrop'
    rw [parse, if_neg (by omega)]
    have hbyte : bytes[0]? = some d.configurationVersion ∧
        bytes[1]? = some d.avcProfileIndication ∧ bytes[2]? = some d.profileCompatibility ∧
        bytes[3]? = some d.avcLevelIndication ∧ bytes[4]? = some (d.nalUnitLength ||| 0xFC) ∧
        bytes[5]? = some (.ofNat d.sps.num ||| 0xE0) := by
      rw [hcons]
      exact ⟨rfl, rfl, rfl, rfl, rfl, rfl⟩
    obtain ⟨h0, h1, h2, h3, h4, h5⟩ := hbyte
    rw [h0, h1, h2, h3, h4, h5]
    simp only [Option.bind_eq_bind, Option.bind_some]
    rw [masked_count (by omega), hnum, hsps', Option.bind_some]
    dsimp only
    rw [if_pos rfl, if_neg (by omega), hcount, Option.bind_some, hnum', hpps', Option.bind_some]
    have hs : ParameterSets.clear.addAll d.sps.data = d.sps :=
      ParameterSets.eq_of_data (ParameterSets.data_addAll _ _)
    have hp : ParameterSets.clear.addAll d.pps.data = d.pps :=
      ParameterSets.eq_of_data (ParameterSets.data_addAll _ _)
    rw [hs, hp]

theorem roundTrips_iff (h : d.Limited) : d.RoundTrips ↔ d.nalUnitLength.toNat < 4 := by
  rw [← masked_length]
  constructor
  · intro hround
    obtain ⟨bytes, hbytes, -, hparse⟩ := hround d.getSize (le_refl _)
    obtain ⟨bytes', hbytes', -, hparse'⟩ := parse_serialize h d (le_refl d.getSize)
    obtain rfl := Option.some.inj (hbytes.symm.trans hbytes')
    have hd := (hparse d).symm.trans hparse'
    exact (congrArg (fun r : Bool × AVCDescriptor => r.2.nalUnitLength) (Option.some.inj hd)).symm
  · intro heq bufferLength hroom
    obtain ⟨bytes, hbytes, hlength, -⟩ := parse_serialize h d hroom
    refine ⟨bytes, hbytes, hlength, ?_⟩
    intro old
    obtain ⟨bytes', hbytes', -, hparse⟩ := parse_serialize h old hroom
    obtain rfl := Option.some.inj (hbytes.symm.trans hbytes')
    rw [hparse, heq]

end RoundTrip

/-! ## What is left of a record that is cut off -/

/-- A record that is cut off is cut off in front of its first set of a kind, or behind the last one.
-/
def WellCut (buffer : List UInt8) : Prop :=
  (StartsWith 1 (buffer.drop 6) → StartsWith (announced buffer) (buffer.drop 6)) ∧
    ∀ sets count rest, sets.length = announced buffer → (∀ set ∈ sets, set.length < 2 ^ 16) →
      buffer.drop 6 = records sets ++ count :: rest →
      StartsWith 1 rest → StartsWith count.toNat rest

section Parse

variable {buffer : List UInt8}

theorem cut_iff {datas : List (List UInt8)} {rest : List UInt8} {num : Nat}
    (hshort : ∀ data ∈ datas, data.length < 2 ^ 16) (hlt : datas.length < num)
    (hlast : ¬StartsWith 1 rest) :
    (StartsWith 1 (records datas ++ rest) → StartsWith num (records datas ++ rest)) ↔ datas = [] := by
  rw [startsWith_records hshort hlast, startsWith_records hshort hlast]
  rw [← List.length_eq_zero_iff]
  omega

theorem parse_spec (d : AVCDescriptor) (buffer : List UInt8) :
    ∃ ok d', d.parse buffer = some (ok, d') ∧
      ((ok = false → NoPartial buffer d d') ↔ WellCut buffer) := by
  by_cases hlen : buffer.length < 7
  · refine ⟨false, d, by rw [parse, if_pos hlen], iff_of_true (fun _ => by rw [NoPartial, if_pos hlen])
      ⟨?_, ?_⟩⟩
    · rintro ⟨sets, rest, hone, -, hdrop⟩
      obtain ⟨set, rfl⟩ := List.length_eq_one_iff.1 hone
      have hlength := congrArg List.length hdrop
      rw [List.length_drop, List.length_append, length_records_cons] at hlength
      omega
    · intro sets count rest hsets hshort hdrop hstarts
      have hlength := congrArg List.length hdrop
      rw [List.length_drop, List.length_append, List.length_cons] at hlength
      obtain ⟨sets', rest', hone, -, rfl⟩ := hstarts
      obtain ⟨set, rfl⟩ := List.length_eq_one_iff.1 hone
      rw [List.length_append, length_records_cons] at hlength
      omega
  · have hbyte (i : Nat) (hi : i < 7) : ∃ b, buffer[i]? = some b :=
      ⟨buffer[i], List.getElem?_eq_getElem (by omega)⟩
    obtain ⟨b0, h0⟩ := hbyte 0 (by omega)
    obtain ⟨b1, h1⟩ := hbyte 1 (by omega)
    obtain ⟨b2, h2⟩ := hbyte 2 (by omega)
    obtain ⟨b3, h3⟩ := hbyte 3 (by omega)
    obtain ⟨b4, h4⟩ := hbyte 4 (by omega)
    obtain ⟨b5, h5⟩ := hbyte 5 (by omega)
    have hannounced : announced buffer = (b5 &&& 0x1F).toNat := by
      rw [announced, h5]
      rfl
    obtain ⟨datas, rest, hdrop, hshort, hle, hlast, hread⟩ :=
      @ParameterSets.read_spec buffer (b5 &&& 0x1F).toNat 6 .clear (by omega)
    have hclear (datas : List (List UInt8)) : (ParameterSets.clear.addAll datas).data = datas :=
      ParameterSets.data_addAll _ _
    rw [parse, if_neg hlen, h0, h1, h2, h3, h4, h5]
    simp only [Option.bind_eq_bind, Option.bind_some]
    rw [hread, Option.bind_some]
    dsimp only
    by_cases hall : datas.length = (b5 &&& 0x1F).toNat
    · rw [decide_eq_true hall, if_pos rfl]
      have hfirst : StartsWith 1 (buffer.drop 6) →
          StartsWith (announced buffer) (buffer.drop 6) := by
        intro _
        exact ⟨datas, rest, hall.trans hannounced.symm, hshort, hdrop⟩
      have hunique {sets : List (List UInt8)} {rest' : List UInt8}
          (hsets : sets.length = announced buffer) (hshort' : ∀ set ∈ sets, set.length < 2 ^ 16)
          (hdrop' : buffer.drop 6 = records sets ++ rest') : rest' = rest :=
        (records_inj hshort' hshort (by rw [hsets, hannounced, hall])
          (hdrop'.symm.trans hdrop)).2
      have hlength := congrArg List.length hdrop
      rw [List.length_drop, List.length_append] at hlength
      cases rest with
      | nil =>
        rw [List.length_nil] at hlength
        rw [if_pos (by omega)]
        refine ⟨_, _, rfl, iff_of_true (fun _ => ?_) ⟨hfirst, ?_⟩⟩
        · rw [NoPartial, if_neg hlen]
          exact ⟨.inr (by rw [hclear, hall, hannounced]), rfl⟩
        · intro sets count rest hsets hshort' hdrop'
          cases hunique hsets hshort' hdrop'
      | cons count rest =>
        rw [List.length_cons] at hlength
        have hcount : buffer[6 + (records datas).length]? = some count := by
          rw [← List.getElem?_drop, hdrop, List.getElem?_append_right (le_refl _), Nat.sub_self]
          rfl
        have hdrop' : buffer.drop (6 + (records datas).length + 1) = rest := by
          rw [Nat.add_assoc, ← List.drop_drop, hdrop, ← List.drop_drop, List.drop_left' rfl]
          rfl
        obtain ⟨datas', rest', hrest, hshort', hle', hlast', hread'⟩ :=
          @ParameterSets.read_spec buffer count.toNat (6 + (records datas).length + 1) .clear
            (by omega)
        rw [hdrop'] at hrest
        rw [if_neg (by omega), hcount, Option.bind_some, hread', Option.bind_some]
        refine ⟨_, _, rfl, ?_⟩
        have hcut : WellCut buffer ↔ (StartsWith 1 rest → StartsWith count.toNat rest) := by
          constructor
          · intro hwell
            exact hwell.2 datas count rest (hall.trans hannounced.symm) hshort hdrop
          · intro hrest'
            refine ⟨hfirst, ?_⟩
            intro sets count' rest'' hsets hshort'' hdrop''
            cases hunique hsets hshort'' hdrop''
            exact hrest'
        rw [hcut]
        by_cases hall' : datas'.length = count.toNat
        · refine iff_of_true ?_ ?_
          · rw [decide_eq_true hall']
            exact fun hno => absurd hno.symm Bool.false_ne_true
          · intro _
            exact ⟨datas', rest', hall', hshort', hrest⟩
        · have hlt : datas'.length < count.toNat := Nat.lt_of_le_of_ne hle' hall'
          rw [decide_eq_false hall', hrest, cut_iff hshort' hlt (hlast' hlt), imp_iff_right rfl,
            NoPartial, if_neg hlen]
          show (_ ∨ _) ∧ (ParameterSets.clear.addAll datas').data = [] ↔ _
          rw [hclear datas', hclear datas, hall, hannounced]
          exact and_iff_right (.inr rfl)
    · have hlt : datas.length < (b5 &&& 0x1F).toNat := Nat.lt_of_le_of_ne hle hall
      rw [decide_eq_false hall, if_neg Bool.false_ne_true]
      refine ⟨_, _, rfl, ?_⟩
      have hsecond : ∀ sets count rest', sets.length = announced buffer →
          (∀ set ∈ sets, set.length < 2 ^ 16) → buffer.drop 6 = records sets ++ count :: rest' →
          StartsWith 1 rest' → StartsWith count.toNat rest' := by
        intro sets count rest' hsets hshort' hdrop'
        have hstarts : StartsWith sets.length (buffer.drop 6) :=
          ⟨sets, count :: rest', rfl, hshort', hdrop'⟩
        rw [hdrop, startsWith_records hshort (hlast hlt), hsets, hannounced] at hstarts
        omega
      rw [WellCut, and_iff_left hsecond, hannounced, hdrop, cut_iff hshort hlt (hlast hlt),
        imp_iff_right rfl, NoPartial, if_neg hlen]
      show (_ ∨ _) ∧ ParameterSets.clear.data = [] ↔ _
      rw [hclear datas, hannounced, and_iff_left (show ParameterSets.clear.data = [] from rfl)]
      exact or_iff_left hall

end Parse

/-- A descriptor comes back as it was if and only if the length of NAL units has two bits, and a
record that cannot be read leaves no list with some of its sets if and only if it is cut off in
front of the first set of a kind or behind the last one. -/
theorem configurations_iff (d : AVCDescriptor) (buffer : List UInt8) :
    (d.Limited → (d.RoundTrips ↔ d.nalUnitLength.toNat < 4)) ∧
      ∃ ok d', d.parse buffer = some (ok, d') ∧
        ((ok = false → NoPartial buffer d d') ↔ WellCut buffer) := by
  constructor
  · intro h
    exact roundTrips_iff h
  · exact parse_spec d buffer

/-- A descriptor with one set of each kind. -/
def oneOfEach : AVCDescriptor :=
  ⟨1, 66, 0, 30, 3, ParameterSets.clear.add [0x67, 66], ParameterSets.clear.add [0x68]⟩

theorem roundTrips_oneOfEach : oneOfEach.RoundTrips :=
  ((configurations_iff oneOfEach []).1 ⟨by decide, by decide, by decide, by decide⟩).2 (by decide)

/-- A descriptor without parameter sets whose NAL units have a length of five bytes. -/
def longLength : AVCDescriptor := ⟨1, 66, 0, 30, 4, .clear, .clear⟩

/-- A record of two parameter sets that is cut off behind the first one. -/
def cutOff : List UInt8 := [1, 66, 0, 30, 0xFF, 0xE2, 0, 1, 0x67]

/-- The length comes back as 0, and of what is cut off the first set stays. -/
theorem not_configurations :
    (longLength.Limited ∧ ¬longLength.RoundTrips) ∧
      ¬∃ ok d', longLength.parse cutOff = some (ok, d') ∧
        (ok = false → NoPartial cutOff longLength d') := by
  refine ⟨⟨⟨by decide, by decide, by decide, by decide⟩, ?_⟩, ?_⟩
  · intro h
    obtain ⟨bytes, hbytes, -, hparse⟩ := h longLength.getSize (le_refl _)
    cases hbytes
    cases hparse longLength
  · rintro ⟨ok, d', hd', hno⟩
    cases hd'
    obtain ⟨h | h, -⟩ := hno rfl
    · cases h
    · cases h

end AVCDescriptor

end McuMediaServer
