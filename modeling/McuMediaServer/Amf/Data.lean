import McuMediaServer.Base.SortedMap
import McuMediaServer.Base.Writer
import McuMediaServer.Amf.Utf8

/-!
# AMF values

The values of the Action Message Format, the properties of an object and the elements of an array
kept in a map from their names, and how they are measured and written. Only some kinds of values are
written as what they are.
-/

namespace McuMediaServer

namespace Amf

open ByteSeq

/-- Reference: `amf.h:81`. A number is kept as its 64 bits, a date as the 8 bytes of its
`time_t`. -/
inductive AMFData where
  | number (value : UInt64)
  | boolean (value : Bool)
  | string (value : WString)
  | object (properties : List (WString × AMFData)) (propertiesOrder : List WString)
  | movieClip
  | null
  | undefined
  | ecmaArray (elements : List (WString × AMFData))
  | strictArray (elements : List AMFData)
  | date (value : List UInt8)
  | longString (value : WString)
  | unsupported
  | recordSet
  | xmlDocument (value : WString)

/-- Set a property of an object and add its name to the order. Reference: `amf.cpp:1157`. -/
def AMFObject.addProperty (o : List (WString × AMFData) × List WString) (key : WString)
    (value : AMFData) : List (WString × AMFData) × List WString :=
  (SortedMap.set key value o.1, o.2 ++ [key])

/-- The object that calls of `AddProperty` build. -/
def AMFObject.ofCalls (calls : List (WString × AMFData)) : AMFData :=
  let o := calls.foldl (fun o call => AMFObject.addProperty o call.1 call.2) ([], [])
  .object o.1 o.2

/-- Set an element of an array. Reference: `amf.cpp:1461`. -/
def AMFEcmaArray.addProperty (elements : List (WString × AMFData)) (key : WString)
    (value : AMFData) : List (WString × AMFData) :=
  SortedMap.set key value elements

/-- The array that calls of `AddProperty` build. -/
def AMFEcmaArray.ofCalls (calls : List (WString × AMFData)) : AMFData :=
  .ecmaArray (calls.foldl (fun elements call => AMFEcmaArray.addProperty elements call.1 call.2) [])

theorem AMFObject.ofCalls_eq (calls : List (WString × AMFData)) :
    AMFObject.ofCalls calls = .object (SortedMap.ofEntries calls) (calls.map Prod.fst) := by
  have key : calls.foldl (fun o call => AMFObject.addProperty o call.1 call.2) ([], []) =
      (SortedMap.ofEntries calls, calls.map Prod.fst) := by
    induction calls using List.reverseRecOn with
    | nil => rfl
    | append_singleton calls call ih =>
      rw [List.foldl_append, ih, SortedMap.ofEntries_concat, List.map_append]
      rfl
  simp only [AMFObject.ofCalls, key]

theorem AMFEcmaArray.ofCalls_eq (calls : List (WString × AMFData)) :
    AMFEcmaArray.ofCalls calls = .ecmaArray (SortedMap.ofEntries calls) := rfl

/-! ## Sizes -/

mutual

/-- How many bytes a value is said to take, a `DWORD`. Kinds that are not written take the one byte
of the default. Reference: `amf.cpp:572`, `amf.cpp:711`, `amf.cpp:794`, `amf.cpp:903`,
`amf.cpp:1173` and `amf.cpp:1484`. -/
def AMFData.getSize : AMFData → Nat
  | .number _ => 9
  | .boolean _ => 2
  | .string value => (utf8Size value % 2 ^ 32 + 2 + 1) % 2 ^ 32
  | .object properties _ => (4 + getSizes properties) % 2 ^ 32
  | .ecmaArray elements => (8 + getSizes elements) % 2 ^ 32
  | .xmlDocument value => (utf8Size value % 2 ^ 32 + 2 + 1) % 2 ^ 32
  | _ => 1

/-- The loop over the entries of a map. -/
def getSizes : List (WString × AMFData) → Nat
  | [] => 0
  | (key, value) :: rest => 2 + utf8Size key % 2 ^ 32 + value.getSize + getSizes rest

end

/-! ## Writing -/

/-- A serializer is handed an offset into a buffer, the size it may write and the buffer. It says
how many bytes it wrote, as a `DWORD`; it has no value when it writes outside of the buffer. -/
abbrev Serializer := Nat → Nat → List UInt8 → Option (Nat × List UInt8)

/-- The `DWORD` for an error. -/
def failed : Nat := 2 ^ 32 - 1

/-- The difference of two `DWORD`s. -/
def minus (a b : Nat) : Nat :=
  if b ≤ a then a - b else a + (2 ^ 32 - b)

/-- Write `data + len` with `size - len` left and add what is returned to `len`. -/
def Serializer.next (w : Serializer) (start size : Nat) (st : Nat × List UInt8) :
    Option (Nat × List UInt8) := do
  let (n, buf) ← w (start + st.1) (minus size st.1) st.2
  return ((st.1 + n) % 2 ^ 32, buf)

/-- Serializers one after the other. -/
def Serializer.all (ws : List Serializer) (start size : Nat) (st : Nat × List UInt8) :
    Option (Nat × List UInt8) :=
  ws.foldlM (fun st w => w.next start size st) st

/-- A serializer of so many bytes that refuses a smaller buffer with an error. -/
def checked (bytes : List UInt8) : Serializer := fun start size buf =>
  if size < bytes.length then
    some (failed, buf)
  else do
    return (bytes.length, ← ByteWriter.putAt start bytes buf)

/-- Reference: `amf.cpp:50`. -/
def U16Parser.serialize (value : Nat) : Serializer := checked (be2 value)

/-- Reference: `amf.cpp:106`. -/
def U32Parser.serialize (value : Nat) : Serializer := checked (be4 value)

/-- Nothing is written when the buffer is too small. Reference: `amf.cpp:360`. -/
def UTF8Parser.serialize (value : WString) : Serializer := fun start size buf =>
  if size < utf8Size value % 2 ^ 32 then
    some (0, buf)
  else do
    return ((encode value).length % 2 ^ 32, ← ByteWriter.putAt start (encode value) buf)

/-- Reference: `amf.cpp:909`. -/
def AMFString.serialize (value : WString) : Serializer := fun start size buf =>
  if size < (utf8Size value % 2 ^ 32 + 2 + 1) % 2 ^ 32 then
    some (failed, buf)
  else do
    let buf ← ByteWriter.putAt start [0x02] buf
    Serializer.all [U16Parser.serialize (utf8Size value % 2 ^ 16), UTF8Parser.serialize value] start
      size (1, buf)

/-- The name and the value of an entry. Reference: `amf.cpp:1208`. -/
def entrySerializers (key : WString) (value : Serializer) : List Serializer :=
  [U16Parser.serialize (utf8Size key % 2 ^ 16), UTF8Parser.serialize key, value]

/-- The entries of the names in the order, each looked up in the map; nothing is checked. Reference:
`amf.cpp:1191`. -/
def AMFObject.serialize (properties : List (WString × Serializer)) (order : List WString) :
    Serializer := fun start size buf => do
  let buf ← ByteWriter.putAt start [0x03] buf
  let entries ← order.mapM fun key =>
    (SortedMap.get? key properties).map fun value => entrySerializers key value
  let (len, buf) ← Serializer.all entries.flatten start size (1, buf)
  let buf ← ByteWriter.putAt (start + len) [0x00, 0x00, 0x09] buf
  return ((len + 3) % 2 ^ 32, buf)

/-- The entries of the map. Reference: `amf.cpp:1501`. -/
def AMFEcmaArray.serialize (getSize : Nat) (elements : List (WString × Serializer)) : Serializer :=
  fun start size buf =>
    if size < getSize then
      some (0, buf)
    else do
      let buf ← ByteWriter.putAt start [0x08] buf
      let entries := elements.map fun e => entrySerializers e.1 e.2
      let (len, buf) ← Serializer.all (U32Parser.serialize elements.length :: entries.flatten) start
        size (1, buf)
      let buf ← ByteWriter.putAt (start + len) [0x00, 0x00, 0x09] buf
      return ((len + 3) % 2 ^ 32, buf)

mutual

/-- Kinds that have no serializer of their own are written as unsupported. Reference:
`amf.cpp:556`, `amf.cpp:716`, `amf.cpp:781` and `amf.cpp:1682`. -/
def AMFData.serialize : AMFData → Serializer
  | .number value => checked ([0x00] ++ be8 value.toNat)
  | .boolean value => checked [0x01, if value then 1 else 0]
  | .string value => AMFString.serialize value
  | .object properties order => AMFObject.serialize (serializers properties) order
  | .null => checked [0x05]
  | .ecmaArray elements =>
    AMFEcmaArray.serialize (AMFData.ecmaArray elements).getSize (serializers elements)
  | .xmlDocument value => AMFString.serialize value
  | _ => checked [0x0D]

/-- The serializers of the values of a map. -/
def serializers : List (WString × AMFData) → List (WString × Serializer)
  | [] => []
  | (key, value) :: rest => (key, value.serialize) :: serializers rest

end

/-! ## Maps entry by entry -/

theorem getSizes_eq (entries : List (WString × AMFData)) : getSizes entries =
    (entries.map fun e => 2 + utf8Size e.1 % 2 ^ 32 + e.2.getSize).sum := by
  induction entries with
  | nil => rfl
  | cons e entries ih => rw [getSizes, ih, List.map_cons, List.sum_cons]

theorem serializers_eq (entries : List (WString × AMFData)) :
    serializers entries = entries.map fun e => (e.1, e.2.serialize) := by
  induction entries with
  | nil => rfl
  | cons e entries ih => rw [serializers, ih, List.map_cons]

end Amf

end McuMediaServer
