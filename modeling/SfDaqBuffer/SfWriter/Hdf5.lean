/-
What the writer relies on of HDF5, which is not part of the repository. A dataset has a number of
rows; an image is a row that is written as one chunk. The laws are the documented effects of the
calls that stay inside the dataset and inside the selected array.
-/
import SfDaqBuffer.Core.Formats

namespace SfDaqBuffer.SfWriter

/-- `selectHyperslab` on an array of `dims` entries. -/
structure Hyperslab where
  dims : UInt64
  count : UInt64
  start : UInt64
  stride : UInt64

/-- The selected entries lie inside the array. -/
def Hyperslab.Within (h : Hyperslab) : Prop :=
  0 < h.stride.toNat ∧ ∀ k < h.count.toNat, h.start.toNat + k * h.stride.toNat < h.dims.toNat

structure Hdf5 where
  Dataset : Type → Type
  extent : {α : Type} → Dataset α → UInt64
  read : {α : Type} → Dataset α → Nat → Option α
  create : (α : Type) → UInt64 → Dataset α
  writeChunk : {α : Type} → Dataset α → UInt64 → α → Dataset α
  writeSelected : {α : Type} → Dataset α → Hyperslab → (Nat → α) → Dataset α
  extent_create : ∀ (α : Type) (n : UInt64), extent (create α n) = n
  extent_writeChunk : ∀ {α : Type} (d : Dataset α) (offset : UInt64) (row : α),
    extent (writeChunk d offset row) = extent d
  read_writeChunk : ∀ {α : Type} (d : Dataset α) (offset : UInt64) (row : α), offset < extent d →
    ∀ k, read (writeChunk d offset row) k = if k = offset.toNat then some row else read d k
  read_writeSelected : ∀ {α : Type} (d : Dataset α) (h : Hyperslab) (array : Nat → α), h.Within →
    extent d = h.count → ∀ k < h.count.toNat,
      read (writeSelected d h array) k = some (array (h.start.toNat + k * h.stride.toNat))

/-- Datasets as maps from row numbers. -/
def Hdf5.rows : Hdf5 where
  Dataset α := UInt64 × (Nat → Option α)
  extent d := d.1
  read d := d.2
  create _ n := (n, fun _ => none)
  writeChunk d offset row := (d.1, Function.update d.2 offset.toNat (some row))
  writeSelected d h array := (d.1, fun k => some (array (h.start.toNat + k * h.stride.toNat)))
  extent_create _ _ := rfl
  extent_writeChunk _ _ _ := rfl
  read_writeChunk d offset row _ k := Function.update_apply d.2 offset.toNat (some row) k
  read_writeSelected _ _ _ _ _ _ _ := rfl

end SfDaqBuffer.SfWriter
