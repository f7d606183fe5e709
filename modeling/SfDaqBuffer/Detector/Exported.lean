/-
From the packets of all modules to the rows of an HDF5 file: an `sf_writer` that runs on the buffer of a
detector at rest exports, for each pulse, what the packets of the pulse carried.
-/
import SfDaqBuffer.Detector.Persisted
import SfDaqBuffer.SfWriter.ExportedFile

namespace SfDaqBuffer.Detector

open Posix CoreBuffer BufferUtils DiskBuffer UdpRecv LossyFrame SfWriter SfUtils

variable {g : Geometry}

/-! ## The frames of a pulse -/

section

variable {H : Hdf5} {j : Retrieval} {start s : State g} {es : List Event} {frames : Nat → List LossyFrame}

end

end SfDaqBuffer.Detector
