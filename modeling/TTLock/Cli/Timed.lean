import TTLock.Cli.Transport
import TTLock.Core.Framing

set_option autoImplicit false

/-! # Driving an operation against the clock (`ttlock/src/ble.rs`)

The loops of `run_op` with the instants at which things happen. Clocks and durations are nanoseconds;
only calls of the link and the pause before a re-send take time. Every write is logged with what was
read behind it. `BleConnection` is the link of the program. -/

namespace TTLock

def RESPONSE_TIMEOUT : Nat := 10000000000
def CRC_RETRY_DELAY : Nat := 200000000
def WRITE_CHUNK_DELAY : Nat := 20000000
def WRITE_CHUNK : Nat := 20

/-- `trait Link`, told what the clock says when a method is called and telling what it says when the
    method returns. -/
structure TimedLink (τ : Type) where
  writeFrame : List UInt8 → (now : Nat) → τ → Except CliError Unit × Nat × τ
  nextFrame : (timeout now : Nat) → τ → Except CliError (List UInt8) × Nat × τ

/-! ## The log -/

/-- A call of `next_frame`. -/
structure TimedRead where
  askedAt : Nat
  timeout : Nat
  returnedAt : Nat
deriving DecidableEq, Repr

/-- A call of `write_frame`, the reads behind it, and when it was resolved: by a step, by a re-send or
    by an error. -/
structure Sending where
  began : Nat
  ended : Nat
  reads : List TimedRead
  resolved : Nat
deriving DecidableEq, Repr

/-- A `Step::Write` of the operation: its frame is sent until a step comes of it, or an error. -/
structure WriteStep where
  began : Nat
  sendings : List Sending
  ended : Nat
deriving DecidableEq, Repr

/-- What a write step leads to. -/
structure Exchanged (σ T τ : Type) where
  result : Except CliError (Step T)
  self : σ
  now : Nat
  link : τ
  sendings : List Sending

/-- A call of `run_op`. There is no result yet if it is not over. -/
structure TimedRun (σ T τ : Type) where
  result : Option (Except CliError T)
  self : σ
  now : Nat
  link : τ
  steps : List WriteStep

/-! ## The loops of `run_op` -/

namespace TimedLink

section

variable {σ T τ : Type} (L : TimedLink τ) (op : Operation σ T) (wallClock : Nat → Int)

/-- The inner loop, behind a write that went on from `began` to `ended` and the `reads` made since.
    Where re-sends are left, `resend` is what one leads to. -/
def readReply (resend : Option (Nat → σ → Nat → τ → Exchanged σ T τ)) (began ended : Nat) :
    (strayLeft : Nat) → (reads : List TimedRead) → σ → (now : Nat) → τ → Exchanged σ T τ
  | strayLeft, reads, self, now, link =>
      -- the deadline covers the whole wait, not each read
      let deadline := ended + RESPONSE_TIMEOUT
      let remaining := deadline - now
      if remaining = 0 then ⟨.error .timeout, self, now, link, [⟨began, ended, reads, now⟩]⟩
      else match L.nextFrame remaining now link with
        | (.error e, returned, link) =>
            let reads := reads ++ [⟨now, remaining, returned⟩]
            ⟨.error e, self, returned, link, [⟨began, ended, reads, returned⟩]⟩
        | (.ok raw, returned, link) =>
            let reads := reads ++ [⟨now, remaining, returned⟩]
            match (op.handleFrame (wallClock returned) raw).call self with
            | (.ok next, self) => ⟨.ok next, self, returned, link, [⟨began, ended, reads, returned⟩]⟩
            | (.error e, self) => match e.isStaleFrame, strayLeft with
              -- not our reply: discard it and keep reading, without re-sending
              | true, left + 1 => readReply resend began ended left reads self returned link
              | _, _ => match e.isRetryable, resend with
                | true, some resend =>
                    let rest := resend strayLeft self (returned + CRC_RETRY_DELAY) link
                    { rest with sendings := ⟨began, ended, reads, returned⟩ :: rest.sendings }
                | _, _ =>
                    ⟨.error (.core e), self, returned, link, [⟨began, ended, reads, returned⟩]⟩

/-- The loop around it: write a frame and wait for what answers it. -/
def exchange (frame : List UInt8) :
    (crcLeft strayLeft : Nat) → σ → (now : Nat) → τ → Exchanged σ T τ
  | 0, strayLeft, self, now, link => match L.writeFrame frame now link with
    | (.error e, ended, link) => ⟨.error e, self, ended, link, [⟨now, ended, [], ended⟩]⟩
    | (.ok (), ended, link) => readReply L op wallClock none now ended strayLeft [] self ended link
  | left + 1, strayLeft, self, now, link => match L.writeFrame frame now link with
    | (.error e, ended, link) => ⟨.error e, self, ended, link, [⟨now, ended, [], ended⟩]⟩
    | (.ok (), ended, link) =>
        readReply L op wallClock (some (exchange frame left)) now ended strayLeft [] self ended link

/-- The outer loop, for at most `fuel` frames. -/
def drive : (fuel : Nat) → Step T → σ → (now : Nat) → τ → TimedRun σ T τ
  | _, .done output, self, now, link => ⟨some (.ok output), self, now, link, []⟩
  | 0, .write _, self, now, link => ⟨none, self, now, link, []⟩
  | fuel + 1, .write frame, self, now, link =>
      let exchanged := exchange L op wallClock frame CRC_RETRIES MAX_STRAY_FRAMES self now link
      let step : WriteStep := ⟨now, exchanged.sendings, exchanged.now⟩
      match exchanged.result with
      | .error e => ⟨some (.error e), exchanged.self, exchanged.now, exchanged.link, [step]⟩
      | .ok next =>
          let rest := drive fuel next exchanged.self exchanged.now exchanged.link
          { rest with steps := step :: rest.steps }

/-- `run_op`. -/
def runOp (fuel : Nat) (self : σ) (now : Nat) (link : τ) : TimedRun σ T τ :=
  match op.start.call self with
  | (.error e, self) => ⟨some (.error (.core e)), self, now, link, []⟩
  | (.ok step, self) => drive L op wallClock fuel step self now link

end

end TimedLink

/-! ## The connection -/

/-- What the stack hands to the notification stream. -/
structure Notification where
  arrivesAt : Nat
  /-- Whether it comes from the characteristic that replies come on. -/
  isReply : Bool
  value : List UInt8
deriving DecidableEq, Repr

/-- A connection, by what is still to come: the notifications, the end of their stream if it ends, and
    the outcome of each chunk that is written with the time it takes. -/
structure BleConnection where
  assembler : FrameAssembler
  notifications : List Notification
  closesAt : Option Nat
  chunkWrites : List (Except CliError Unit × Nat)
deriving DecidableEq

namespace BleConnection

/-- Waiting for a notification until the deadline when no more are to come. -/
def awaitEnd (closesAt : Option Nat) (deadline now : Nat) : CliError × Nat :=
  match closesAt with
  | some closed => if closed ≤ deadline then (.disconnected, max now closed) else (.timeout, deadline)
  | none => (.timeout, deadline)

/-- The loop of `next_frame`: what it returns and when, the assembler, and the notifications that are
    left. -/
def awaitFrame (closesAt : Option Nat) (deadline : Nat) : List Notification → FrameAssembler →
    (now : Nat) → Except CliError (List UInt8) × Nat × FrameAssembler × List Notification
  | notifications, assembler, now => match assembler.nextFrame with
    | (some frame, assembler) => (.ok frame, now, assembler, notifications)
    | (none, assembler) =>
        if now ≥ deadline then (.error .timeout, now, assembler, notifications)
        else match notifications with
          | [] =>
              let (e, returned) := awaitEnd closesAt deadline now
              (.error e, returned, assembler, [])
          | notification :: rest =>
              if notification.arrivesAt ≤ deadline then
                let assembler :=
                  if notification.isReply then assembler.push notification.value else assembler
                awaitFrame closesAt deadline rest assembler (max now notification.arrivesAt)
              else (.error .timeout, deadline, assembler, notifications)

def nextFrame (timeout now : Nat) (self : BleConnection) :
    Except CliError (List UInt8) × Nat × BleConnection :=
  let (result, returned, assembler, notifications) :=
    awaitFrame self.closesAt (now + timeout) self.notifications self.assembler now
  (result, returned, { self with assembler, notifications })

/-- `write_chunks`, for so many chunks. -/
def writeChunks : (chunks : Nat) → List (Except CliError Unit × Nat) → (now : Nat) →
    Except CliError Unit × Nat × List (Except CliError Unit × Nat)
  | 0, chunkWrites, now => (.ok (), now, chunkWrites)
  | _ + 1, [], now => (.error .disconnected, now, [])
  | _ + 1, (.error e, taken) :: chunkWrites, now => (.error e, now + taken, chunkWrites)
  | chunks + 1, (.ok (), taken) :: chunkWrites, now =>
      writeChunks chunks chunkWrites (now + taken + WRITE_CHUNK_DELAY)

def writeFrame (frame : List UInt8) (now : Nat) (self : BleConnection) :
    Except CliError Unit × Nat × BleConnection :=
  let chunks := (frame.length + WRITE_CHUNK - 1) / WRITE_CHUNK
  let (result, returned, chunkWrites) := writeChunks chunks self.chunkWrites now
  (result, returned, { self with chunkWrites })

/-- `impl Link for BleConnection`. -/
def timedLink : TimedLink BleConnection where
  writeFrame := writeFrame
  nextFrame := nextFrame

end BleConnection

end TTLock
