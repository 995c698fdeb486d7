import TTLock.Cli.Timed

set_option autoImplicit false

/-! # A link of whole frames

What a connection is to a driver, if one forgets about the clock and about how bytes are cut up: the frames
that are still to come, and the outcome of each chunk that is written. -/

namespace TTLock

structure FrameLink (ε : Type) where
  frames : List (List UInt8)
  /-- The outcome of each chunk that is written. -/
  chunkWrites : List (Except ε Unit)
  /-- What a write ends with when there is no outcome left. -/
  gone : ε
  /-- What a wait ends with when there is no frame left. -/
  atEnd : ε

namespace FrameLink

variable {ε : Type}

/-- Write so many chunks, up to the first that fails. -/
def writeChunks (gone : ε) : (chunks : Nat) → List (Except ε Unit) → Except ε Unit × List (Except ε Unit)
  | 0, chunkWrites => (.ok (), chunkWrites)
  | _ + 1, [] => (.error gone, [])
  | _ + 1, .error e :: chunkWrites => (.error e, chunkWrites)
  | chunks + 1, .ok () :: chunkWrites => writeChunks gone chunks chunkWrites

/-- How many chunks a frame is written in. -/
def chunksOf (frame : List UInt8) : Nat := (frame.length + WRITE_CHUNK - 1) / WRITE_CHUNK

def writeFrame (frame : List UInt8) (self : FrameLink ε) : Except ε Unit × FrameLink ε :=
  let (result, chunkWrites) := writeChunks self.gone (chunksOf frame) self.chunkWrites
  (result, { self with chunkWrites })

/-- Every frame is handled at the same clock. -/
def nextFrame (clock : Int) (self : FrameLink ε) : Except ε (Int × List UInt8) × FrameLink ε :=
  match self.frames with
  | [] => (.error self.atEnd, self)
  | frame :: frames => (.ok (clock, frame), { self with frames })

def transport (clock : Int) : Transport ε (FrameLink ε) where
  writeFrame := writeFrame
  nextFrame := nextFrame clock

end FrameLink

namespace BleConnection

end BleConnection

end TTLock
