/-
The threads of sf-writer: one `read_buffer` thread for each module and the main thread, sharing an
`ImageAssembler`. Each atomic operation is a step, and copying one frame of a block is a step.
The state remembers which module processed which block in a slot since the slot was last freed;
that history is not part of the program.
-/
import SfDaqBuffer.Lib.Runs
import SfDaqBuffer.SfWriter.ImageAssembler

namespace SfDaqBuffer.SfWriter

open ImageAssembler

/-- The parameters of a run: the modules, the consecutive block ids `buffer_blocks`, and the
blocks that `get_block` delivers. -/
structure Request where
  nModules : Nat
  firstBlock : Nat
  nBlocks : Nat
  getBlock : UInt64 → Nat → BufferBinaryBlock
  nModules_pos : 1 ≤ nModules
  firstBlock_pos : 1 ≤ firstBlock
  blocks_lt : firstBlock + nBlocks ≤ 2 ^ 64

/-- `buffer_blocks[k]`. -/
def Request.block (c : Request) (k : Nat) : UInt64 := UInt64.ofNat (c.firstBlock + k)

/-! ## Thread states -/

/-- Where a reader is in its round: in `is_slot_free` before the compare-exchange or before the
status load, before `get_block`, in the loop of `process`, or before its `fetch_sub`. -/
inductive ReaderPhase
  | acquire
  | checkStatus (slotBunchId : UInt64)
  | getBlock
  | copying (i : Fin bufferBlockSize)
  | release
  deriving DecidableEq

structure Reader where
  pos : Nat
  phase : ReaderPhase
  blockBuffer : BufferBinaryBlock

/-- Where the main thread is in its round: polling `is_slot_full`, before `get_metadata_buffer`,
in `write`, or before one of the stores of `free_slot`. -/
inductive MainPhase
  | poll
  | getMetadata
  | write
  | resetStatus
  | resetBunchId
  deriving DecidableEq

structure MainThread where
  pos : Nat
  phase : MainPhase

structure State where
  assembler : ImageAssembler
  readers : Nat → Reader
  main : MainThread
  processed : Nat → List (Nat × UInt64)

/-! ## Steps -/

def State.setReader (s : State) (m : Nat) (r : Reader) : State :=
  { s with readers := Function.update s.readers m r }

@[simp] theorem State.setReader_self (s : State) (m : Nat) (r : Reader) : (s.setReader m r).readers m = r :=
  Function.update_self ..

theorem State.setReader_other (s : State) {m q : Nat} (h : q ≠ m) (r : Reader) :
    (s.setReader m r).readers q = s.readers q := Function.update_of_ne h ..

/-- The step of the reader of module `m` at block `b`. -/
def readerStep (c : Request) (m : Nat) (s : State) (r : Reader) (b : UInt64) : State :=
  match r.phase with
  | .acquire =>
    match s.assembler.tryAcquire b with
    | (true, _, ia) => { s.setReader m { r with phase := .getBlock } with assembler := ia }
    | (false, seen, ia) => { s.setReader m { r with phase := .checkStatus seen } with assembler := ia }
  | .checkStatus seen =>
    if s.assembler.isFreeFor b seen then s.setReader m { r with phase := .getBlock }
    else s.setReader m { r with phase := .acquire }
  | .getBlock =>
    s.setReader m { r with phase := .copying 0, blockBuffer := c.getBlock b m }
  | .copying i =>
    let next := if h : (i : Nat) + 1 < bufferBlockSize then .copying ⟨i + 1, h⟩ else .release
    { s.setReader m { r with phase := next } with assembler := s.assembler.copyFrame b m r.blockBuffer i }
  | .release =>
    { s.setReader m { r with pos := r.pos + 1, phase := .acquire } with
      assembler := s.assembler.releaseModule b
      processed := Function.update s.processed (slotId b) (s.processed (slotId b) ++ [(m, b)]) }

/-- The step of the main thread at block `b`. -/
def mainStep (s : State) (b : UInt64) : State :=
  match s.main.phase with
  | .poll =>
    if s.assembler.isSlotFull b then { s with main := { s.main with phase := .getMetadata } } else s
  | .getMetadata =>
    { s with assembler := (s.assembler.getMetadataBuffer b).2, main := { s.main with phase := .write } }
  | .write => { s with main := { s.main with phase := .resetStatus } }
  | .resetStatus =>
    { s with assembler := s.assembler.resetStatus b, main := { s.main with phase := .resetBunchId } }
  | .resetBunchId =>
    { s with
      assembler := s.assembler.resetBunchId b
      main := ⟨s.main.pos + 1, .poll⟩
      processed := Function.update s.processed (slotId b) [] }

inductive Thread
  | reader (iModule : Nat)
  | main
  deriving DecidableEq

/-- One step of a thread that has blocks left. -/
def step (c : Request) : Thread → State → Option State
  | .reader m, s =>
    if m < c.nModules ∧ (s.readers m).pos < c.nBlocks then
      some (readerStep c m s (s.readers m) (c.block (s.readers m).pos))
    else none
  | .main, s => if s.main.pos < c.nBlocks then some (mainStep s (c.block s.main.pos)) else none

/-- All threads at their first block, with a new assembler. -/
structure Init (c : Request) (s : State) : Prop where
  assembler : ∃ imageBuffer metaBuffer frameMetaBuffer bufferStatus bufferBunchId,
    s.assembler = .new c.nModules imageBuffer metaBuffer frameMetaBuffer bufferStatus bufferBunchId
  readers : ∀ m, (s.readers m).pos = 0 ∧ (s.readers m).phase = .acquire
  main : s.main = ⟨0, .poll⟩
  processed : ∀ slot, s.processed slot = []

abbrev Reachable (c : Request) : State → Prop := Runs.Reachable (Init c) (step c)

end SfDaqBuffer.SfWriter
