/-
sf_stream next to the live path: it receives the image metadata that jf_assembler sends, takes the
address of the image in the RAM buffer and sends what is there then. Messages may wait or be lost.
-/
import SfDaqBuffer.LivePath.System

namespace SfDaqBuffer.SfStream

open CoreBuffer

/-! ## ZmqLiveSender -/

inductive Socket
  | streamvis
  | live
  deriving DecidableEq, Repr

/-- A header, with the fields that vary, and the image unless the message is a reduced one. -/
structure SentMessage (g : Geometry) where
  socket : Socket
  frame : UInt64
  isGoodFrame : UInt32
  daqRec : UInt32
  pulseId : UInt64
  shape : Nat × Nat
  image : Option (Fin g.imageBytes → UInt8)

variable {g : Geometry}

def message (socket : Socket) (image : ImageMetadata) (data : Fin g.imageBytes → UInt8) (full : Bool) :
    SentMessage g where
  socket := socket
  frame := image.frameIndex
  isGoodFrame := image.isGoodImage
  daqRec := image.daqRec
  pulseId := image.pulseId
  shape := if full then (g.nModules * 512, 1024) else (2, 2)
  image := if full then some data else none

/-- `send`, when `rand` selects the full image for streamvis or not, and for the live analysis or
not; the socket of the latter may refuse the message. -/
def send (image : ImageMetadata) (data : Fin g.imageBytes → UInt8) (streamvis : Bool) (live : Option Bool) :
    List (SentMessage g) :=
  message .streamvis image data streamvis ::
    match live with
    | none => []
    | some full => [message .live image data full]

/-! ## The system -/

/-- The call that sf_stream executes next. -/
inductive StreamPhase
  | receive
  | send (image : ImageMetadata)
  deriving DecidableEq, Repr

structure State (g : Geometry) where
  live : LivePath.State g
  messages : List ImageMetadata
  phase : StreamPhase
  sent : List (SentMessage g)

/-- `drop i` loses message `i`. -/
inductive Action
  | live (action : LivePath.Action)
  | drop (i : Nat)
  | receive
  | send (streamvis : Bool) (live : Option Bool)

/-- What jf_assembler sends in a step of the live path from `s` to `s'`. -/
def assembled (a : LivePath.Action) (s s' : LivePath.State g) : List ImageMetadata :=
  match a, s.assembler, s'.assembler with
  | .assembler, .assembling _, .receiving => [s'.imageMeta]
  | _, _, _ => []

def step (a : Action) (s : State g) : Option (State g) :=
  match a with
  | .live action => do
    let live ← LivePath.step action s.live
    return { s with live := live, messages := s.messages ++ assembled action s.live live }
  | .drop i => some { s with messages := s.messages.eraseIdx i }
  | .receive =>
    match s.phase, s.messages with
    | .receive, image :: messages => some { s with messages := messages, phase := .send image }
    | _, _ => none
  | .send streamvis live =>
    match s.phase with
    | .receive => none
    | .send image => do
      -- the pointer of `read_image` is followed when the image is sent
      let data ← s.live.buffer.load (s.live.buffer.readImage image.pulseId) g.imageBytes
      return { s with phase := .receive, sent := s.sent ++ send image data streamvis live }

structure Init (s : State g) : Prop where
  live : LivePath.Init s.live
  messages : s.messages = []
  phase : s.phase = .receive
  sent : s.sent = []

end SfDaqBuffer.SfStream
