import TTLock.Core.Packet

set_option autoImplicit false

/-! # Reassembly of frames from notification chunks (`ttlock-core/src/framing.rs`)

Frames are recognized by the `7f5a` magic and the length field at byte 11, not by their terminator,
and yielded without it. -/

namespace TTLock

def HEADER_LEN : Nat := 12

structure FrameAssembler where
  buffer : List UInt8
deriving DecidableEq, Repr

namespace FrameAssembler

def new : FrameAssembler := ⟨[]⟩

def push (self : FrameAssembler) (bytes : List UInt8) : FrameAssembler := ⟨self.buffer ++ bytes⟩

/-- Drop leading bytes until the buffer starts with the magic, or could once more data arrives. -/
def resync (self : FrameAssembler) : FrameAssembler :=
  let start := match (self.buffer.zip self.buffer.tail).findIdx? (· == (0x7f, 0x5a)) with
    | some position => position
    | none => if self.buffer.getLast? = some 0x7f then self.buffer.length - 1
        else self.buffer.length
  ⟨self.buffer.drop start⟩

/-- Pop the next complete frame, if one has been assembled. -/
def nextFrame (self : FrameAssembler) : Option (List UInt8) × FrameAssembler :=
  let self := self.resync
  if hlen : self.buffer.length < HEADER_LEN then (none, self)
  else
    have : 11 < self.buffer.length := Nat.lt_of_lt_of_le (by decide) (Nat.le_of_not_lt hlen)
    let payloadLen := self.buffer[11].toNat
    let frameLen := HEADER_LEN + payloadLen + 1
    let wireLen := frameLen + CRLF.length
    if self.buffer.length < wireLen then (none, self)
    else (some ((self.buffer.take wireLen).take frameLen), ⟨self.buffer.drop wireLen⟩)

end FrameAssembler

end TTLock
