import McuMediaServer.Amf.Parser

/-!
# What is written is read back

The bytes of a value, without the sizes of the source: what the serializers write when nothing is
too long and no name is set twice. The serializers write these bytes, and the parser reads the value
back from them.
-/

namespace McuMediaServer

namespace Amf

open ByteSeq ByteWriter

/-! ## Bytes of a value -/

/-- The bytes of an entry of a map. -/
def entryBytes (key : WString) (value : List UInt8) : List UInt8 :=
  be2 (utf8Size key) ++ encode key ++ value

mutual

/-- The bytes of a value. The properties of an object come in the order they were added in. -/
def AMFData.bytes : AMFData → List UInt8
  | .number value => [0x00] ++ be8 value.toNat
  | .boolean value => [0x01, if value then 1 else 0]
  | .string value => [0x02] ++ be2 (utf8Size value) ++ encode value
  | .object properties order =>
    [0x03] ++ order.flatMap (fun key =>
      ((SortedMap.get? key (valueBytes properties)).map (entryBytes key)).getD []) ++
      [0x00, 0x00, 0x09]
  | .null => [0x05]
  | .ecmaArray elements =>
    [0x08] ++ be4 elements.length ++
      (valueBytes elements).flatMap (fun e => entryBytes e.1 e.2) ++ [0x00, 0x00, 0x09]
  | _ => [0x0D]

/-- The bytes of the values of a map. -/
def valueBytes : List (WString × AMFData) → List (WString × List UInt8)
  | [] => []
  | (key, value) :: rest => (key, value.bytes) :: valueBytes rest

end

theorem valueBytes_eq (entries : List (WString × AMFData)) :
    valueBytes entries = entries.map fun e => (e.1, e.2.bytes) := by
  induction entries with
  | nil => rfl
  | cons e entries ih => rw [valueBytes, ih, List.map_cons]

/-! ## Values that calls build -/

/-- The values that are built from numbers, booleans, strings of code points, null, and calls of
`AddProperty` on objects and arrays. -/
inductive Built : AMFData → Prop
  | number (value : UInt64) : Built (.number value)
  | boolean (value : Bool) : Built (.boolean value)
  | string {value : WString} (hvalue : ∀ w ∈ value, w ≤ lastCodePoint) : Built (.string value)
  | null : Built .null
  | object {calls : List (WString × AMFData)}
      (hkeys : ∀ call ∈ calls, ∀ w ∈ call.1, w ≤ lastCodePoint)
      (hvalues : ∀ call ∈ calls, Built call.2) : Built (AMFObject.ofCalls calls)
  | ecmaArray {calls : List (WString × AMFData)}
      (hkeys : ∀ call ∈ calls, ∀ w ∈ call.1, w ≤ lastCodePoint)
      (hvalues : ∀ call ∈ calls, Built call.2) : Built (AMFEcmaArray.ofCalls calls)

mutual

/-- Nothing in the value is too long for the size in front of it, no property has been added twice
and none without a name. -/
def AMFData.Faithful : AMFData → Prop
  | .string value => utf8Size value < 2 ^ 16
  | .object properties order => order.Nodup ∧ AllFaithful properties
  | .ecmaArray elements => AllFaithful elements
  | _ => True

/-- All entries of a map are faithful. -/
def AllFaithful : List (WString × AMFData) → Prop
  | [] => True
  | (key, value) :: rest =>
    (key ≠ [] ∧ utf8Size key < 2 ^ 16 ∧ value.Faithful) ∧ AllFaithful rest

end

theorem allFaithful_iff {entries : List (WString × AMFData)} : AllFaithful entries ↔
    ∀ e ∈ entries, e.1 ≠ [] ∧ utf8Size e.1 < 2 ^ 16 ∧ e.2.Faithful := by
  induction entries with
  | nil => simp [AllFaithful]
  | cons e entries ih => rw [AllFaithful, List.forall_mem_cons, ih]

/-! ## Writing -/

section Writing

/-- Over as many bytes of a buffer the serializer writes these bytes, and nothing else. -/
def Serializer.Writes (w : Serializer) (bytes : List UInt8) : Prop :=
  ∀ pre old post : List UInt8, ∀ size, old.length = bytes.length → bytes.length ≤ size →
    size < 2 ^ 32 →
      w pre.length size (pre ++ old ++ post) = some (bytes.length, pre ++ bytes ++ post)

variable {pre old post bytes : List UInt8}

theorem writes_checked (bytes : List UInt8) : (checked bytes).Writes bytes := by
  intro pre old post size hold hsize _
  rw [checked, if_neg (by omega), putAt_over _ _ hold]
  rfl

theorem writes_utf8 {s : WString} (hs : ∀ w ∈ s, w ≤ lastCodePoint) (hlen : utf8Size s < 2 ^ 16) :
    (UTF8Parser.serialize s).Writes (encode s) := by
  have hlength := length_encode hs
  intro pre old post size hold hsize _
  have hmod : utf8Size s % 2 ^ 32 = utf8Size s := Nat.mod_eq_of_lt (by omega)
  have hmod' : (encode s).length % 2 ^ 32 = (encode s).length := by rw [hlength, hmod]
  rw [UTF8Parser.serialize, if_neg (by omega), putAt_over _ _ hold, hmod']
  rfl

theorem writes_u16 {n : Nat} (hn : n < 2 ^ 16) :
    (U16Parser.serialize (n % 2 ^ 16)).Writes (be2 n) := by
  rw [Nat.mod_eq_of_lt hn]
  exact writes_checked _

theorem all_writes {ws : List Serializer} {bss : List (List UInt8)}
    (h : List.Forall₂ Serializer.Writes ws bss) (post : List UInt8) {start size len : Nat}
    (hpre : pre.length = start + len) (hold : old.length = bss.flatten.length)
    (hsize : len + bss.flatten.length ≤ size) (hlt : size < 2 ^ 32) :
    Serializer.all ws start size (len, pre ++ old ++ post) =
      some (len + bss.flatten.length, pre ++ bss.flatten ++ post) := by
  induction h generalizing len pre old with
  | nil =>
    rw [List.flatten_nil, List.length_nil, List.length_eq_zero_iff] at hold
    subst hold
    rfl
  | @cons w bs ws bss hw _ ih =>
    rw [List.flatten_cons, List.length_append] at hold hsize ⊢
    have hminus : minus size len = size - len := if_pos (by omega)
    have hmod : (len + bs.length) % 2 ^ 32 = len + bs.length := Nat.mod_eq_of_lt (by omega)
    have hfirst : (old.take bs.length).length = bs.length := by
      rw [List.length_take]
      omega
    have hsplit : pre ++ old ++ post = pre ++ old.take bs.length ++ (old.drop bs.length ++ post) := by
      rw [List.append_assoc, List.append_assoc, ← List.append_assoc (old.take _),
        List.take_append_drop]
    have hstep := hw pre (old.take bs.length) (old.drop bs.length ++ post) (size - len) hfirst
      (by omega) (by omega)
    rw [Serializer.all, List.foldlM_cons, Serializer.next]
    simp only [hminus, ← hpre, hsplit, hstep, hmod, Option.bind_eq_bind, Option.bind_some, pure]
    rw [← Serializer.all, ← List.append_assoc (pre ++ bs),
      ih (by rw [List.length_append]; omega) (by rw [List.length_drop]; omega) (by omega)]
    simp only [List.append_assoc, Nat.add_assoc]

theorem writes_entry {key : WString} (hkey : ∀ w ∈ key, w ≤ lastCodePoint)
    (hlen : utf8Size key < 2 ^ 16) {w : Serializer} (hw : w.Writes bytes) :
    List.Forall₂ Serializer.Writes (entrySerializers key w)
      [be2 (utf8Size key), encode key, bytes] :=
  .cons (writes_u16 hlen) (.cons (writes_utf8 hkey hlen) (.cons hw .nil))

end Writing

/-! ## Objects by their entries -/

section Object

variable {properties entries : List (WString × AMFData)}
  (hvalues : ∀ e ∈ entries, SortedMap.get? e.1 properties = some e.2)
include hvalues

theorem bytes_object : (AMFData.object properties (entries.map Prod.fst)).bytes =
    [0x03] ++ (entries.map fun e => entryBytes e.1 e.2.bytes).flatten ++ [0x00, 0x00, 0x09] := by
  rw [AMFData.bytes, valueBytes_eq, List.flatMap_map, List.flatMap_def]
  congr 3
  refine List.map_congr_left fun e he => ?_
  rw [SortedMap.get?_map, hvalues e he]
  rfl

theorem mapM_serializers :
    ((entries.map Prod.fst).mapM fun key =>
      (SortedMap.get? key (serializers properties)).map fun value => entrySerializers key value) =
      some (entries.map fun e => entrySerializers e.1 e.2.serialize) := by
  rw [serializers_eq, List.mapM_map]
  induction entries with
  | nil => rfl
  | cons e entries ih =>
    obtain ⟨he, hrest⟩ := List.forall_mem_cons.1 hvalues
    rw [List.mapM_cons, Function.comp_apply, SortedMap.get?_map, he, ih hrest]
    rfl

end Object

theorem exists_entries_ofCalls (calls : List (WString × AMFData)) :
    ∃ entries : List (WString × AMFData), entries.map Prod.fst = calls.map Prod.fst ∧
      (∀ e ∈ entries, SortedMap.get? e.1 (SortedMap.ofEntries calls) = some e.2) ∧
      ∀ e ∈ entries, e ∈ SortedMap.ofEntries calls := by
  obtain ⟨entries, hkeys, hvalues⟩ := SortedMap.exists_entries
    (m := SortedMap.ofEntries calls)
    fun k hk => SortedMap.isSome_get?.2 (SortedMap.mem_keys_ofEntries.2 hk)
  exact ⟨entries, hkeys, hvalues, fun e he => SortedMap.mem_of_get? (hvalues e he)⟩

theorem perm_ofCalls {calls entries : List (WString × AMFData)}
    (hkeys : entries.map Prod.fst = calls.map Prod.fst)
    (hvalues : ∀ e ∈ entries, SortedMap.get? e.1 (SortedMap.ofEntries calls) = some e.2)
    (hnodup : (calls.map Prod.fst).Nodup) : entries.Perm (SortedMap.ofEntries calls) :=
  (SortedMap.sorted_ofEntries calls).perm hvalues (hkeys ▸ hnodup) fun _ hk =>
    hkeys ▸ SortedMap.mem_keys_ofEntries.1 hk

/-! ## Sizes of faithful values -/

theorem length_entryBytes {key : WString} (hkey : ∀ w ∈ key, w ≤ lastCodePoint)
    (value : List UInt8) :
    (entryBytes key value).length = 2 + utf8Size key + value.length := by
  rw [entryBytes, List.length_append, List.length_append, length_be2, length_encode hkey]

/-- Sums of terms that agree as `DWORD`s agree as `DWORD`s. -/
theorem sum_map_mod_congr {α : Type*} {f g : α → Nat} {l : List α} {m : Nat}
    (h : ∀ a ∈ l, f a % m = g a % m) : (l.map f).sum % m = (l.map g).sum % m := by
  induction l with
  | nil => rfl
  | cons a l ih =>
    obtain ⟨ha, hl⟩ := List.forall_mem_cons.1 h
    rw [List.map_cons, List.map_cons, List.sum_cons, List.sum_cons, Nat.add_mod, ha, ih hl,
      ← Nat.add_mod]

mutual

/-- The size of a value before it is cut to a `DWORD`. -/
def AMFData.fullSize : AMFData → Nat
  | .number _ => 9
  | .boolean _ => 2
  | .string value => 3 + utf8Size value
  | .object properties _ => 4 + fullSizes properties
  | .ecmaArray elements => 8 + fullSizes elements
  | _ => 1

/-- The sizes of the entries of a map. -/
def fullSizes : List (WString × AMFData) → Nat
  | [] => 0
  | (key, value) :: rest => 2 + utf8Size key + value.fullSize + fullSizes rest

end

theorem fullSizes_eq (entries : List (WString × AMFData)) : fullSizes entries =
    (entries.map fun e => 2 + utf8Size e.1 + e.2.fullSize).sum := by
  induction entries with
  | nil => rfl
  | cons e entries ih => rw [fullSizes, ih, List.map_cons, List.sum_cons]

variable {v : AMFData}

/-- The size of a value that calls have built is its full size as a `DWORD`. -/
theorem getSize_eq_fullSize (hb : Built v) : v.getSize = v.fullSize % 2 ^ 32 := by
  have hentries {calls : List (WString × AMFData)}
      (ih : ∀ call ∈ calls, call.2.getSize = call.2.fullSize % 2 ^ 32) :
      getSizes (SortedMap.ofEntries calls) % 2 ^ 32 =
        fullSizes (SortedMap.ofEntries calls) % 2 ^ 32 := by
    rw [getSizes_eq, fullSizes_eq]
    refine sum_map_mod_congr fun e he => ?_
    rw [ih e (SortedMap.mem_of_mem_ofEntries he)]
    omega
  induction hb with
  | number | boolean | null => rfl
  | string =>
    simp only [AMFData.getSize, AMFData.fullSize]
    omega
  | object _ _ ih =>
    have := hentries ih
    rw [AMFObject.ofCalls_eq]
    simp only [AMFData.getSize, AMFData.fullSize]
    omega
  | ecmaArray _ _ ih =>
    have := hentries ih
    rw [AMFEcmaArray.ofCalls_eq]
    simp only [AMFData.getSize, AMFData.fullSize]
    omega

theorem sum_fullSize_eq {entries : List (WString × AMFData)}
    (hkeys : ∀ e ∈ entries, ∀ w ∈ e.1, w ≤ lastCodePoint)
    (hsize : ∀ e ∈ entries, e.2.bytes.length = e.2.fullSize) :
    (entries.map fun e => entryBytes e.1 e.2.bytes).flatten.length =
      (entries.map fun e => 2 + utf8Size e.1 + e.2.fullSize).sum := by
  rw [List.length_flatten, List.map_map]
  refine congrArg List.sum (List.map_congr_left fun e he => ?_)
  rw [Function.comp_apply, length_entryBytes (hkeys e he), hsize e he]

/-- **Sizes.** The bytes of a faithful value are as many as its full size. -/
theorem length_bytes (hb : Built v) (hf : v.Faithful) : v.bytes.length = v.fullSize := by
  induction hb with
  | number | boolean | null => rfl
  | string hvalue =>
    simp only [AMFData.fullSize, AMFData.bytes, List.length_append, length_be2,
      length_encode hvalue, List.length_singleton]
  | @object calls hkeys _ ih =>
    rw [AMFObject.ofCalls_eq, AMFData.Faithful, allFaithful_iff] at hf
    obtain ⟨entries, hnames, hvalues, hmem⟩ := exists_entries_ofCalls calls
    have hperm := perm_ofCalls hnames hvalues hf.1
    have hcalls (e) (he : e ∈ entries) : e ∈ calls :=
      SortedMap.mem_of_mem_ofEntries (hmem e he)
    have hsum := sum_fullSize_eq (fun e he => hkeys e (hcalls e he))
      fun e he => ih e (hcalls e he) (hf.2 e (hmem e he)).2.2
    rw [AMFObject.ofCalls_eq, ← hnames, bytes_object hvalues, AMFData.fullSize, fullSizes_eq,
      ← (hperm.map _).sum_nat, ← hsum]
    simp only [List.length_append, List.length_cons, List.length_nil]
    omega
  | @ecmaArray calls hkeys _ ih =>
    rw [AMFEcmaArray.ofCalls_eq, AMFData.Faithful, allFaithful_iff] at hf
    have hsum := sum_fullSize_eq
      (fun e he => hkeys e (SortedMap.mem_of_mem_ofEntries he))
      fun e he => ih e (SortedMap.mem_of_mem_ofEntries he) (hf e he).2.2
    rw [AMFEcmaArray.ofCalls_eq, AMFData.fullSize, fullSizes_eq, ← hsum, AMFData.bytes,
      valueBytes_eq, List.flatMap_map, List.flatMap_def]
    simp only [List.length_append, List.length_cons, List.length_nil, length_be4]
    omega

/-- The size of a faithful value is the length of its bytes as a `DWORD`. -/
theorem getSize_eq (hb : Built v) (hf : v.Faithful) : v.getSize = v.bytes.length % 2 ^ 32 := by
  rw [getSize_eq_fullSize hb, length_bytes hb hf]

/-! ## Writing faithful values -/

theorem writes_entries {entries : List (WString × AMFData)}
    (hkeys : ∀ e ∈ entries, ∀ w ∈ e.1, w ≤ lastCodePoint)
    (hlen : ∀ e ∈ entries, utf8Size e.1 < 2 ^ 16)
    (hw : ∀ e ∈ entries, e.2.serialize.Writes e.2.bytes) :
    ∃ bss : List (List UInt8),
      List.Forall₂ Serializer.Writes
        (entries.map fun e => entrySerializers e.1 e.2.serialize).flatten bss ∧
      bss.flatten = (entries.map fun e => entryBytes e.1 e.2.bytes).flatten := by
  induction entries with
  | nil => exact ⟨[], .nil, rfl⟩
  | cons e entries ih =>
    obtain ⟨hkey, hkeys⟩ := List.forall_mem_cons.1 hkeys
    obtain ⟨hl, hlen⟩ := List.forall_mem_cons.1 hlen
    obtain ⟨he, hw⟩ := List.forall_mem_cons.1 hw
    obtain ⟨bss, hbss, hflat⟩ := ih hkeys hlen hw
    refine ⟨_, List.rel_append (writes_entry hkey hl he) hbss, ?_⟩
    rw [List.flatten_append, hflat, List.map_cons, List.flatten_cons, entryBytes]
    simp

theorem writes_between {ws : List Serializer} {bss : List (List UInt8)} (marker : UInt8)
    (h : List.Forall₂ Serializer.Writes ws bss) :
    Serializer.Writes (fun start size buf => do
      let buf ← ByteWriter.putAt start [marker] buf
      let (len, buf) ← Serializer.all ws start size (1, buf)
      let buf ← ByteWriter.putAt (start + len) [0x00, 0x00, 0x09] buf
      return ((len + 3) % 2 ^ 32, buf)) ([marker] ++ bss.flatten ++ [0x00, 0x00, 0x09]) := by
  intro pre old post size hold hsize hlt
  simp only [List.length_append, List.length_cons, List.length_nil] at hold hsize
  -- the parts of the buffer that the three parts are written over
  obtain ⟨first, old, rfl⟩ : ∃ first rest, old = first :: rest :=
    List.exists_cons_of_length_pos (by omega)
  obtain ⟨mid, last, rfl, hmid⟩ : ∃ mid last, old = mid ++ last ∧ mid.length = bss.flatten.length :=
    ⟨old.take bss.flatten.length, old.drop bss.flatten.length, (List.take_append_drop _ _).symm, by
      rw [List.length_take, Nat.min_eq_left]
      simp only [List.length_cons] at hold
      omega⟩
  have hlast : last.length = 3 := by
    simp only [List.length_cons, List.length_append] at hold
    omega
  have hmarker : ByteWriter.putAt pre.length [marker] (pre ++ (first :: (mid ++ last)) ++ post) =
      some (pre ++ [marker] ++ mid ++ (last ++ post)) := by
    have hone : [first].length = [marker].length := rfl
    simpa using putAt_over pre (mid ++ last ++ post) hone
  have hall : Serializer.all ws pre.length size (1, pre ++ [marker] ++ mid ++ (last ++ post)) =
      some (1 + bss.flatten.length, pre ++ [marker] ++ bss.flatten ++ (last ++ post)) :=
    all_writes h _ (by simp) hmid (by omega) hlt
  have hend : ByteWriter.putAt (pre.length + (1 + bss.flatten.length)) [0x00, 0x00, 0x09]
      (pre ++ [marker] ++ bss.flatten ++ (last ++ post)) =
      some (pre ++ [marker] ++ bss.flatten ++ [0x00, 0x00, 0x09] ++ post) := by
    have hthree : last.length = [(0x00 : UInt8), 0x00, 0x09].length := hlast
    have h := putAt_over (pre ++ [marker] ++ bss.flatten) post hthree
    rw [List.append_assoc _ last post] at h
    rw [← h]
    congr 1
    simp only [List.length_append, List.length_singleton, Nat.add_assoc]
  have hmod : (1 + bss.flatten.length + 3) % 2 ^ 32 = 1 + bss.flatten.length + 3 :=
    Nat.mod_eq_of_lt (by omega)
  simp only [hmarker, hall, hend, hmod, Option.bind_eq_bind, Option.bind_some, pure]
  simp
  omega

/-- **Writing.** The serializer of a faithful value writes its bytes. -/
theorem writes_bytes (hb : Built v) (hf : v.Faithful) : v.serialize.Writes v.bytes := by
  induction hb with
  | number | boolean | null => exact writes_checked _
  | @string value hvalue =>
    have hlength := length_encode hvalue
    have hshort : utf8Size value < 2 ^ 16 := hf
    have hmod : (utf8Size value % 2 ^ 32 + 2 + 1) % 2 ^ 32 = utf8Size value + 3 := by omega
    intro pre old post size hold hsize hlt
    simp only [AMFData.bytes, List.length_append, length_be2, List.length_singleton] at hold hsize
    obtain ⟨first, old, rfl⟩ : ∃ first rest, old = first :: rest :=
      List.exists_cons_of_length_pos (by omega)
    have hmarker : ByteWriter.putAt pre.length [0x02] (pre ++ (first :: old) ++ post) =
        some (pre ++ [0x02] ++ old ++ post) := by
      have hone : [first].length = [(0x02 : UInt8)].length := rfl
      simpa using putAt_over pre (old ++ post) hone
    have hstart : (pre ++ [0x02]).length = pre.length + 1 := by simp
    have hlen : [be2 (utf8Size value), encode value].flatten.length = 2 + utf8Size value := by
      simp [hlength]
    have hold' : old.length = [be2 (utf8Size value), encode value].flatten.length := by
      simp only [List.length_cons] at hold
      omega
    have hall := all_writes
      (.cons (writes_u16 hshort) (.cons (writes_utf8 hvalue hshort) .nil)) post hstart
      hold' (by omega) hlt
    rw [AMFData.serialize, AMFString.serialize, hmod, if_neg (by omega), hmarker]
    simp only [Option.bind_eq_bind, Option.bind_some, hall, AMFData.bytes]
    simp
    omega
  | @object calls hkeys _ ih =>
    rw [AMFObject.ofCalls_eq, AMFData.Faithful, allFaithful_iff] at hf
    obtain ⟨entries, hnames, hvalues, hmem⟩ := exists_entries_ofCalls calls
    have hcalls (e) (he : e ∈ entries) : e ∈ calls :=
      SortedMap.mem_of_mem_ofEntries (hmem e he)
    obtain ⟨bss, hbss, hflat⟩ := writes_entries
      (fun e he => hkeys e (hcalls e he)) (fun e he => (hf.2 e (hmem e he)).2.1)
      fun e he => ih e (hcalls e he) (hf.2 e (hmem e he)).2.2
    rw [AMFObject.ofCalls_eq, ← hnames, bytes_object hvalues, ← hflat]
    have hwrites := writes_between 0x03 hbss
    intro pre old post size hold hsize hlt
    rw [← hwrites pre old post size hold hsize hlt, AMFData.serialize, AMFObject.serialize]
    simp only [mapM_serializers hvalues, Option.bind_eq_bind, Option.bind_some]
  | @ecmaArray calls hkeys hvalues ih =>
    have hb := Built.ecmaArray hkeys hvalues
    have hsize' := getSize_eq hb hf
    rw [AMFEcmaArray.ofCalls_eq] at hf hsize' ⊢
    rw [AMFData.Faithful, allFaithful_iff] at hf
    obtain ⟨bss, hbss, hflat⟩ := writes_entries
      (fun e he => hkeys e (SortedMap.mem_of_mem_ofEntries he)) (fun e he => (hf e he).2.1)
      fun e he => ih e (SortedMap.mem_of_mem_ofEntries he) (hf e he).2.2
    have hwrites := writes_between 0x08
      (.cons (writes_checked (be4 (SortedMap.ofEntries calls).length)) hbss)
    have hbytes : (AMFData.ecmaArray (SortedMap.ofEntries calls)).bytes =
        [0x08] ++ (be4 (SortedMap.ofEntries calls).length :: bss).flatten ++ [0x00, 0x00, 0x09] := by
      rw [AMFData.bytes, valueBytes_eq, List.flatMap_map, List.flatMap_def, List.flatten_cons, hflat]
      simp
    rw [hbytes] at hsize' ⊢
    intro pre old post size hold hsize hlt
    rw [← hwrites pre old post size hold hsize hlt, AMFData.serialize, AMFEcmaArray.serialize,
      if_neg (by omega), serializers_eq, List.map_map]
    simp only [List.length_map]
    rfl

/-! ## Reading numbers and strings -/

theorem parse_number (bs : List UInt8) (q : Nat) (rest : List UInt8) :
    NumberParser.parse ⟨bs.length, q <<< (bs.length * 8)⟩ (bs ++ rest) =
      (⟨0, bs.foldl (fun v b => v * 2 ^ 8 + b.toNat) q⟩, bs.length) := by
  induction bs generalizing q with
  | nil =>
    cases rest with
    | nil => simp [NumberParser.parse]
    | cons b rest => simp [NumberParser.parse]
  | cons b bs ih =>
    have hvalue : q <<< ((bs.length + 1) * 8) ||| b.toNat <<< (bs.length * 8) =
        (q * 2 ^ 8 + b.toNat) <<< (bs.length * 8) := by
      rw [← shiftLeft_or_of_lt b.toNat_lt, Nat.shiftLeft_or_distrib, ← Nat.shiftLeft_add,
        Nat.add_mul, Nat.one_mul, Nat.add_comm 8]
    rw [List.length_cons, List.cons_append, NumberParser.parse, if_neg (Nat.succ_ne_zero _)]
    simp only [Nat.add_sub_cancel, hvalue, ih, List.foldl_cons]

theorem parse_be2 (n : Nat) (rest : List UInt8) :
    U16Parser.new.parse (be2 n ++ rest) = (⟨0, n % 2 ^ 16⟩, 2) := by
  have h := parse_number (be2 n) 0 rest
  rw [Nat.zero_shiftLeft, length_be2] at h
  rw [U16Parser.new, h]
  simp only [be2, be1, List.foldl_append, List.foldl_cons, List.foldl_nil, UInt8.toNat_ofNat']
  congr 2
  omega

theorem parse_be4 (n : Nat) (rest : List UInt8) :
    U32Parser.new.parse (be4 n ++ rest) = (⟨0, n % 2 ^ 32⟩, 4) := by
  have h := parse_number (be4 n) 0 rest
  rw [Nat.zero_shiftLeft, length_be4] at h
  rw [U32Parser.new, h]
  simp only [be4, be2, be1, List.foldl_append, List.foldl_cons, List.foldl_nil, UInt8.toNat_ofNat']
  congr 2
  omega

theorem parse_be8 (n : Nat) (rest : List UInt8) :
    AMFNumber.new.parse (be8 n ++ rest) = (⟨0, n % 2 ^ 64⟩, 8) := by
  have h := parse_number (be8 n) 0 rest
  rw [Nat.zero_shiftLeft, length_be8] at h
  rw [AMFNumber.new, h]
  simp only [be8, be4, be2, be1, List.foldl_append, List.foldl_cons, List.foldl_nil,
    UInt8.toNat_ofNat']
  congr 2
  omega

theorem parse_string {value : WString} (hvalue : ∀ w ∈ value, w ≤ lastCodePoint)
    (hlen : utf8Size value < 2 ^ 16) (rest : List UInt8) :
    ∃ p : StringParser, AMFString.new.parse (be2 (utf8Size value) ++ encode value ++ rest) =
        (p, 2 + utf8Size value) ∧
      p.isParsed ∧ p.getWString = value ∧ p.getUTF8Size = utf8Size value := by
  obtain ⟨utf8, hparse, hparsed, hstring⟩ := UTF8Parser.parse_encode hvalue rest
  have hmod : utf8Size value % 2 ^ 16 = utf8Size value := Nat.mod_eq_of_lt hlen
  have hsize : AMFString.new.parseSize (be2 (utf8Size value) ++ (encode value ++ rest)) =
      (⟨⟨0, utf8Size value⟩, UTF8Parser.setSize {} (utf8Size value)⟩, 2) := by
    rw [StringParser.parseSize, AMFString.new, parse_be2, hmod]
    rfl
  have hdrop : (be2 (utf8Size value) ++ (encode value ++ rest)).drop 2 = encode value ++ rest := by
    rw [← length_be2 (utf8Size value), List.drop_left]
  rw [List.append_assoc, StringParser.parse, hsize]
  simp only [hdrop]
  by_cases hnil : encode value ++ rest = []
  · have hempty : value = [] := by
      have := length_encode hvalue
      rw [(List.append_eq_nil_iff.1 hnil).1] at this
      exact utf8Size_eq_zero.1 this.symm
    subst hempty
    rw [if_pos hnil]
    exact ⟨_, rfl, rfl, rfl, rfl⟩
  · rw [if_neg hnil]
    simp only [hparse]
    exact ⟨_, rfl, hparsed, hstring, rfl⟩

/-! ## Reading faithful values -/

/-- The value is read from its bytes in front of any others, given some fuel. -/
def Reads (v : AMFData) : Prop :=
  ∀ fuel rest, 4 * v.bytes.length ≤ fuel →
    ∃ object, AMFParser.parse fuel none (v.bytes ++ rest) = some (object, v.bytes.length) ∧
      object.getObject = some v

/-- What the loops over names and values share: the names and values of the entries are read, one
turn each, and then the end marker. -/
structure ReadsEntries (entries : List (WString × AMFData)) : Prop where
  keys : ∀ e ∈ entries, ∀ w ∈ e.1, w ≤ lastCodePoint
  names : ∀ e ∈ entries, e.1 ≠ [] ∧ utf8Size e.1 < 2 ^ 16
  reads : ∀ e ∈ entries, Reads e.2

/-- The bytes of entries. -/
def entriesBytes (entries : List (WString × AMFData)) : List UInt8 :=
  (entries.map fun e => entryBytes e.1 e.2.bytes).flatten

theorem parse_endName (rest : List UInt8) :
    ∃ key : StringParser, AMFString.new.parse ([0x00, 0x00] ++ (0x09 :: rest)) = (key, 2) ∧
      key.isParsed ∧ key.getUTF8Size = 0 := by
  obtain ⟨key, hparse, hparsed, -, hsize⟩ := parse_string
    (fun w hw => absurd hw List.not_mem_nil) (by decide) (0x09 :: rest)
  exact ⟨key, hparse, hparsed, hsize⟩

theorem ReadsEntries.cons {e : WString × AMFData} {entries : List (WString × AMFData)}
    (h : ReadsEntries (e :: entries)) (rest : List UInt8) :
    ReadsEntries entries ∧
      ∃ key : StringParser, ∃ data,
        entriesBytes (e :: entries) ++ rest ≠ [] ∧
        AMFString.new.parse (entriesBytes (e :: entries) ++ rest) = (key, 2 + utf8Size e.1) ∧
        (entriesBytes (e :: entries) ++ rest).drop (2 + utf8Size e.1) = data ∧ data ≠ [] ∧
        key.isParsed ∧ key.getWString = e.1 ∧ key.getUTF8Size ≠ 0 ∧
        data.drop e.2.bytes.length = entriesBytes entries ++ rest ∧
        (entriesBytes (e :: entries)).length =
          2 + utf8Size e.1 + e.2.bytes.length + (entriesBytes entries).length ∧
        ∀ fuel, 4 * e.2.bytes.length ≤ fuel →
          ∃ object, AMFParser.parse fuel none data = some (object, e.2.bytes.length) ∧
            object.getObject = some e.2 := by
  obtain ⟨hkeys, hnames, hreads⟩ := h
  obtain ⟨hkey, hkeys⟩ := List.forall_mem_cons.1 hkeys
  obtain ⟨⟨hne, hlen⟩, hnames⟩ := List.forall_mem_cons.1 hnames
  obtain ⟨hread, hreads⟩ := List.forall_mem_cons.1 hreads
  have hbytes : entriesBytes (e :: entries) ++ rest =
      be2 (utf8Size e.1) ++ encode e.1 ++ (e.2.bytes ++ (entriesBytes entries ++ rest)) := by
    simp only [entriesBytes, List.map_cons, List.flatten_cons, entryBytes, List.append_assoc]
  have hlength : 2 + utf8Size e.1 = (be2 (utf8Size e.1) ++ encode e.1).length := by
    rw [List.length_append, length_be2, length_encode hkey]
  have hbytes_ne (v : AMFData) : v.bytes ≠ [] := by
    cases v <;> simp [AMFData.bytes]
  obtain ⟨key, hparse, hparsed, hstring, hsize⟩ := parse_string hkey hlen
    (e.2.bytes ++ (entriesBytes entries ++ rest))
  refine ⟨⟨hkeys, hnames, hreads⟩, key, _, ?_, ?_, rfl, ?_, hparsed, hstring, ?_, ?_, ?_, ?_⟩
  · rw [hbytes]
    exact List.append_ne_nil_of_right_ne_nil _
      (List.append_ne_nil_of_left_ne_nil (hbytes_ne e.2) _)
  · rw [hbytes, hparse]
  · rw [hbytes, hlength, List.drop_left]
    exact List.append_ne_nil_of_left_ne_nil (hbytes_ne e.2) _
  · rw [hsize]
    exact fun hzero => hne (utf8Size_eq_zero.1 hzero)
  · rw [hbytes, hlength, List.drop_left, List.drop_left]
  · rw [entriesBytes, List.map_cons, List.flatten_cons, List.length_append, length_entryBytes hkey]
    rfl
  · intro fuel hfuel
    rw [hbytes, hlength, List.drop_left]
    exact hread fuel _ hfuel

theorem parse_properties {entries : List (WString × AMFData)} (h : ReadsEntries entries)
    (fuel : Nat) (properties : List (WString × AMFData)) (order : List WString)
    (rest : List UInt8) (hfuel : 4 * ((entriesBytes entries).length + 2) ≤ fuel) :
    ∃ key, AMFObject.parse fuel AMFString.new false properties order none
        (entriesBytes entries ++ ([0x00, 0x00, 0x09] ++ rest)) =
      some (.object key true (entries.foldl (fun m e => SortedMap.set e.1 e.2 m) properties)
        (order ++ entries.map Prod.fst) none, (entriesBytes entries).length + 3) := by
  induction entries generalizing fuel properties order with
  | nil =>
    obtain ⟨fuel, rfl⟩ : ∃ n, fuel = n + 2 := ⟨fuel - 2, by omega⟩
    obtain ⟨key, hparse, hkey, hsize⟩ := parse_endName rest
    have hnil : entriesBytes [] ++ ([0x00, 0x00, 0x09] ++ rest) = [0x00, 0x00] ++ (0x09 :: rest) :=
      rfl
    refine ⟨key, ?_⟩
    rw [List.map_nil, List.append_nil, List.foldl_nil, hnil,
      AMFObject.parse_key (by simp) rfl hparse,
      show List.drop 2 ([0x00, 0x00] ++ (0x09 :: rest)) = 0x09 :: rest from rfl,
      AMFObject.parse_end rest hkey hsize]
    rfl
  | cons e entries ih =>
    obtain ⟨hentries, key, data, hne, hparse, hdrop, hne', hkey, hname, hsize, hdrop', hlen, hvalue⟩ :=
      h.cons ([0x00, 0x00, 0x09] ++ rest)
    obtain ⟨fuel, rfl⟩ : ∃ n, fuel = n + 2 := ⟨fuel - 2, by omega⟩
    obtain ⟨object, hobject, hget⟩ := hvalue fuel (by omega)
    obtain ⟨key', hloop⟩ := ih hentries fuel (SortedMap.set e.1 e.2 properties) (order ++ [e.1])
      (by omega)
    refine ⟨key', ?_⟩
    rw [AMFObject.parse_key hne rfl hparse, hdrop,
      AMFObject.parse_value hne' hkey hsize hobject hget, hname, hdrop', hloop]
    simp only [Option.map_some, List.foldl_cons, List.map_cons, List.append_assoc, hlen,
      List.singleton_append, Nat.add_assoc]

theorem parse_elements {entries : List (WString × AMFData)} (h : ReadsEntries entries)
    (fuel : Nat) {num : NumberParser} (hnum : num.isParsed)
    (elements : List (WString × AMFData)) (rest : List UInt8)
    (hfuel : 4 * ((entriesBytes entries).length + 2) ≤ fuel) :
    ∃ key, AMFEcmaArray.parse fuel num AMFString.new false elements none
        (entriesBytes entries ++ ([0x00, 0x00, 0x09] ++ rest)) =
      some (.ecmaArray num key true (entries.foldl (fun m e => SortedMap.set e.1 e.2 m) elements)
        none, (entriesBytes entries).length + 3) := by
  induction entries generalizing fuel elements with
  | nil =>
    obtain ⟨fuel, rfl⟩ : ∃ n, fuel = n + 2 := ⟨fuel - 2, by omega⟩
    obtain ⟨key, hparse, hkey, hsize⟩ := parse_endName rest
    have hnil : entriesBytes [] ++ ([0x00, 0x00, 0x09] ++ rest) = [0x00, 0x00] ++ (0x09 :: rest) :=
      rfl
    refine ⟨key, ?_⟩
    rw [List.foldl_nil, hnil,
      AMFEcmaArray.parse_key (by simp) hnum rfl hparse,
      show List.drop 2 ([0x00, 0x00] ++ (0x09 :: rest)) = 0x09 :: rest from rfl,
      AMFEcmaArray.parse_end rest hnum hkey hsize]
    rfl
  | cons e entries ih =>
    obtain ⟨hentries, key, data, hne, hparse, hdrop, hne', hkey, hname, hsize, hdrop', hlen, hvalue⟩ :=
      h.cons ([0x00, 0x00, 0x09] ++ rest)
    obtain ⟨fuel, rfl⟩ : ∃ n, fuel = n + 2 := ⟨fuel - 2, by omega⟩
    obtain ⟨object, hobject, hget⟩ := hvalue fuel (by omega)
    obtain ⟨key', hloop⟩ := ih hentries fuel (SortedMap.set e.1 e.2 elements) (by omega)
    refine ⟨key', ?_⟩
    rw [AMFEcmaArray.parse_key hne hnum rfl hparse, hdrop,
      AMFEcmaArray.parse_value hne' hnum hkey hsize hobject hget, hname, hdrop', hloop]
    simp only [Option.map_some, List.foldl_cons, hlen, Nat.add_assoc]

/-- **Reading.** A faithful value is read from its bytes. -/
theorem reads_bytes (hb : Built v) (hf : v.Faithful) : Reads v := by
  induction hb with
  | number value =>
    intro fuel rest hfuel
    obtain ⟨fuel, rfl⟩ : ∃ n, fuel = n + 2 := ⟨fuel - 2, by simp [AMFData.bytes] at hfuel; omega⟩
    have hparse : AMFData.parse (fuel + 1) (.number AMFNumber.new) (be8 value.toNat ++ rest) =
        some (.number ⟨0, value.toNat % 2 ^ 64⟩, 8) := by
      simp only [AMFData.parse, parse_be8]
    refine ⟨.number ⟨0, value.toNat % 2 ^ 64⟩, ?_, ?_⟩
    · rw [AMFData.bytes, List.append_assoc, List.singleton_append, AMFParser.parse_marker rfl hparse,
        List.length_append, length_be8]
      rfl
    · have hmod : value.toNat % 2 ^ 64 = value.toNat := Nat.mod_eq_of_lt value.toNat_lt
      rw [hmod]
      simp [AMFParsing.getObject, NumberParser.isParsed]
  | boolean value =>
    intro fuel rest hfuel
    obtain ⟨fuel, rfl⟩ : ∃ n, fuel = n + 2 := ⟨fuel - 2, by simp [AMFData.bytes] at hfuel; omega⟩
    refine ⟨.boolean (some value), ?_, rfl⟩
    cases value <;> rfl
  | @string value hvalue =>
    intro fuel rest hfuel
    obtain ⟨fuel, rfl⟩ : ∃ n, fuel = n + 2 := ⟨fuel - 2, by simp [AMFData.bytes] at hfuel; omega⟩
    obtain ⟨p, hp, hparsed, hstring, -⟩ := parse_string hvalue hf rest
    have hparse : AMFData.parse (fuel + 1) (.string AMFString.new)
        (be2 (utf8Size value) ++ encode value ++ rest) = some (.string p, 2 + utf8Size value) := by
      simp only [AMFData.parse, hp]
    refine ⟨.string p, ?_, by simp [AMFParsing.getObject, hparsed, hstring]⟩
    rw [AMFData.bytes, List.append_assoc, List.append_assoc, List.singleton_append,
      ← List.append_assoc, AMFParser.parse_marker rfl hparse]
    simp only [List.length_append, length_be2, length_encode hvalue, List.length_singleton]
    congr 2
    omega
  | null =>
    intro fuel rest hfuel
    obtain ⟨fuel, rfl⟩ : ∃ n, fuel = n + 2 := ⟨fuel - 2, by simp [AMFData.bytes] at hfuel; omega⟩
    exact ⟨.empty .null, rfl, rfl⟩
  | @object calls hkeys _ ih =>
    rw [AMFObject.ofCalls_eq, AMFData.Faithful, allFaithful_iff] at hf
    obtain ⟨entries, hnames, hvalues, hmem⟩ := exists_entries_ofCalls calls
    have hcalls (e) (he : e ∈ entries) : e ∈ calls :=
      SortedMap.mem_of_mem_ofEntries (hmem e he)
    have hmap : SortedMap.ofEntries entries = SortedMap.ofEntries calls :=
      SortedMap.ofEntries_eq (SortedMap.sorted_ofEntries calls) hvalues fun k hk =>
        hnames ▸ SortedMap.mem_keys_ofEntries.1 hk
    have hentries : ReadsEntries entries :=
      ⟨fun e he => hkeys e (hcalls e he), fun e he => ⟨(hf.2 e (hmem e he)).1,
        (hf.2 e (hmem e he)).2.1⟩, fun e he => ih e (hcalls e he) (hf.2 e (hmem e he)).2.2⟩
    rw [AMFObject.ofCalls_eq, ← hnames]
    intro fuel rest hfuel
    rw [bytes_object hvalues, ← entriesBytes] at hfuel ⊢
    simp only [List.length_append, List.length_cons, List.length_nil] at hfuel
    obtain ⟨fuel, rfl⟩ : ∃ n, fuel = n + 2 := ⟨fuel - 2, by omega⟩
    obtain ⟨key, hloop⟩ := parse_properties hentries fuel [] [] rest (by omega)
    have hparse : AMFData.parse (fuel + 1) (.object AMFString.new false [] [] none)
        (entriesBytes entries ++ ([0x00, 0x00, 0x09] ++ rest)) = _ := hloop
    refine ⟨.object key true (SortedMap.ofEntries entries) (entries.map Prod.fst) none, ?_, ?_⟩
    · rw [List.append_assoc, List.append_assoc, List.singleton_append,
        AMFParser.parse_marker rfl hparse]
      simp only [List.length_append, List.length_cons, List.length_nil]
      congr 2
      omega
    · rw [AMFParsing.getObject, if_pos rfl, hmap]
  | @ecmaArray calls hkeys _ ih =>
    rw [AMFEcmaArray.ofCalls_eq] at hf ⊢
    rw [AMFData.Faithful, allFaithful_iff] at hf
    have hmap : SortedMap.ofEntries (SortedMap.ofEntries calls) = SortedMap.ofEntries calls :=
      SortedMap.ofEntries_eq (SortedMap.sorted_ofEntries calls)
        (fun e he => (SortedMap.sorted_ofEntries calls).get?_of_mem he) fun k hk => hk
    have hentries : ReadsEntries (SortedMap.ofEntries calls) :=
      ⟨fun e he => hkeys e (SortedMap.mem_of_mem_ofEntries he),
        fun e he => ⟨(hf e he).1, (hf e he).2.1⟩,
        fun e he => ih e (SortedMap.mem_of_mem_ofEntries he) (hf e he).2.2⟩
    have hbytes : (AMFData.ecmaArray (SortedMap.ofEntries calls)).bytes =
        [0x08] ++ (be4 (SortedMap.ofEntries calls).length ++
          (entriesBytes (SortedMap.ofEntries calls) ++ [0x00, 0x00, 0x09])) := by
      rw [AMFData.bytes, valueBytes_eq, List.flatMap_map, List.flatMap_def, entriesBytes]
      simp only [List.append_assoc]
    intro fuel rest hfuel
    rw [hbytes] at hfuel ⊢
    generalize SortedMap.ofEntries calls = elements at *
    simp only [List.length_append, List.length_cons, List.length_nil, length_be4] at hfuel
    obtain ⟨fuel, rfl⟩ : ∃ n, fuel = n + 3 := ⟨fuel - 3, by omega⟩
    have hparsed : (⟨0, elements.length % 2 ^ 32⟩ : NumberParser).isParsed := rfl
    obtain ⟨key, hloop⟩ := parse_elements hentries fuel hparsed [] rest (by omega)
    have hnum := parse_be4 elements.length (entriesBytes elements ++ ([0x00, 0x00, 0x09] ++ rest))
    have hdrop : (be4 elements.length ++ (entriesBytes elements ++ ([0x00, 0x00, 0x09] ++ rest))).drop
        4 = entriesBytes elements ++ ([0x00, 0x00, 0x09] ++ rest) := by
      rw [← length_be4 elements.length, List.drop_left]
    have hparse : AMFData.parse (fuel + 2) (.ecmaArray U32Parser.new AMFString.new false [] none)
        (be4 elements.length ++ (entriesBytes elements ++ ([0x00, 0x00, 0x09] ++ rest))) =
        some (.ecmaArray ⟨0, elements.length % 2 ^ 32⟩ key true (SortedMap.ofEntries elements) none,
          4 + ((entriesBytes elements).length + 3)) := by
      rw [AMFData.parse, AMFEcmaArray.parse_num (by simp) rfl hnum, hdrop, hloop]
      rfl
    refine ⟨.ecmaArray ⟨0, elements.length % 2 ^ 32⟩ key true elements none, ?_, ?_⟩
    · rw [List.append_assoc, List.append_assoc, List.append_assoc, List.singleton_append,
        AMFParser.parse_marker rfl hparse, hmap]
      simp only [List.length_append, List.length_cons, List.length_nil, length_be4]
      congr 2
      omega
    · simp [AMFParsing.getObject, NumberParser.isParsed]

/-! ## Round trips -/

/-- In every buffer that can hold as many bytes as the value says it takes, the serializer writes
exactly these, and the parser takes all of them and returns the value. -/
def RoundTrips (v : AMFData) : Prop :=
  ∃ bytes, bytes.length = v.getSize ∧
    (∀ buf, v.getSize ≤ buf.length → buf.length < 2 ^ 32 →
      v.serialize 0 buf.length buf = some (v.getSize, bytes ++ buf.drop v.getSize)) ∧
    ∃ object, AMFParser.parseData none bytes = some (object, v.getSize) ∧
      object.getObject = some v

theorem roundTrips_of_faithful (hb : Built v) (hf : v.Faithful)
    (hlen : v.bytes.length < 2 ^ 32) : RoundTrips v := by
  have hsize : v.getSize = v.bytes.length :=
    (getSize_eq hb hf).trans (Nat.mod_eq_of_lt hlen)
  refine ⟨v.bytes, hsize.symm, fun buf hroom hlt => ?_, ?_⟩
  · have hwrites := writes_bytes hb hf [] (buf.take v.getSize) (buf.drop v.getSize) buf.length
      (by rw [List.length_take, Nat.min_eq_left hroom, hsize]) (hsize ▸ hroom) hlt
    rw [List.length_nil, List.nil_append, List.nil_append, List.take_append_drop] at hwrites
    rw [hwrites, hsize]
  · obtain ⟨object, hparse, hget⟩ := reads_bytes hb hf (4 * (v.bytes.length + 1)) [] (by omega)
    rw [List.append_nil] at hparse
    exact ⟨object, hsize ▸ hparse, hget⟩

end Amf

end McuMediaServer
