import McuMediaServer.BitReader

/-!
# Variable length codes

The codes of a table are kept in a binary tree. A code is decoded by a walk from the root that reads
a bit at each node, to a node with a value or out of the tree.
-/

namespace McuMediaServer

open ByteSeq

/-- A node of the tree, or none. Reference: `bitstream.h:381`. -/
inductive VLCNode (α : Type) where
  | none
  | node (value : Option α) (zero one : VLCNode α)

namespace VLCNode

variable {α : Type}

/-- Reference: `bitstream.h:343`. -/
def addValue (value : α) : List Bool → VLCNode α → VLCNode α
  | [], none => node (some value) none none
  | [], node _ zero one => node (some value) zero one
  | false :: code, none => node Option.none (addValue value code none) none
  | true :: code, none => node Option.none none (addValue value code none)
  | false :: code, node v zero one => node v (addValue value code zero) one
  | true :: code, node v zero one => node v zero (addValue value code one)

/-- No value when the walk leaves the tree. Reference: `bitstream.h:365`. -/
def decode : VLCNode α → BitReader → Except BitFault (Option α × BitReader)
  | none, reader => .ok (.none, reader)
  | node (some value) _ _, reader => .ok (some value, reader)
  | node .none zero one, reader => do
    let (v, reader) ← reader.get 1
    if v = 0 then zero.decode reader else one.decode reader

theorem weight_decode {node : VLCNode α} {r r' : BitReader} {value : Option α}
    (h : node.decode r = .ok (value, r')) : r'.weight ≤ r.weight := by
  induction node generalizing r with
  | none =>
    cases h
    exact Nat.le_refl _
  | node v zero one ihzero ihone =>
    cases v with
    | some v =>
      cases h
      exact Nat.le_refl _
    | none =>
      rw [decode] at h
      cases hget : r.get 1 with
      | error e => simp [hget, bind, Except.bind] at h
      | ok p =>
        obtain ⟨bit, r₁⟩ := p
        have hlt := BitReader.weight_get (by decide) (by decide) hget
        simp only [hget, bind, Except.bind] at h
        split at h
        · exact (ihzero h).trans (Nat.le_of_lt hlt)
        · exact (ihone h).trans (Nat.le_of_lt hlt)

end VLCNode

/-- A table, whose root has no value because no code is empty. Reference: `bitstream.h:327`. -/
structure VLCDecoder (α : Type) where
  zero : VLCNode α
  one : VLCNode α

namespace VLCDecoder

variable {α : Type}

/-- Reference: `bitstream.h:330`. -/
def addValue (table : VLCDecoder α) (code len : Nat) (value : α) : VLCDecoder α :=
  match toBits len code with
  | [] => table
  | false :: bits => { table with zero := table.zero.addValue value bits }
  | true :: bits => { table with one := table.one.addValue value bits }

/-- The table of some entries with their lengths and codes. -/
def ofEntries (entries : List (α × Nat × Nat)) : VLCDecoder α :=
  entries.foldl (fun table entry => table.addValue entry.2.2 entry.2.1 entry.1) ⟨.none, .none⟩

/-- Reference: `bitstream.h:359`. -/
def decode (table : VLCDecoder α) (reader : BitReader) :
    Except BitFault (Option α × BitReader) := do
  let (v, reader) ← reader.get 1
  if v = 0 then table.zero.decode reader else table.one.decode reader

theorem weight_decode {table : VLCDecoder α} {r r' : BitReader} {value : Option α}
    (h : table.decode r = .ok (value, r')) : r'.weight < r.weight := by
  rw [decode] at h
  cases hget : r.get 1 with
  | error e => simp [hget, bind, Except.bind] at h
  | ok p =>
    obtain ⟨bit, r₁⟩ := p
    have hlt := BitReader.weight_get (by decide) (by decide) hget
    simp only [hget, bind, Except.bind] at h
    split at h
    · exact (VLCNode.weight_decode h).trans_lt hlt
    · exact (VLCNode.weight_decode h).trans_lt hlt

end VLCDecoder

end McuMediaServer
