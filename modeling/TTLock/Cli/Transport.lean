import TTLock.Cli.Ble
import TTLock.Lib.Retry

set_option autoImplicit false

/-! # Driving an operation over any transport (`ttlock/src/ble.rs`)

The loops of `run_op` over anything that can write a frame and wait for the next one, whose answers
may depend on what was written to it. `runOp` over a `Link`, whose answers are decided beforehand, is
one case of it. -/

namespace TTLock

/-- `trait Link`, as methods on a state `τ` that fail with `ε`. A frame arrives with the clock it is
    handled at. How long to wait for it is left to the transport, which sees when a frame was written. -/
structure Transport (ε τ : Type) where
  writeFrame : List UInt8 → τ → Except ε Unit × τ
  nextFrame : τ → Except ε (Int × List UInt8) × τ

/-! ## The loops of `run_op` -/

namespace Transport

section

variable {σ T τ : Type} (L : Transport CliError τ) (op : Operation σ T)

/-- The inner loop, with so many frames that may still be discarded. Where re-sends are left, `resend`
    is what one leads to. -/
def readReply (resend : Option (Nat → σ → τ → Except CliError (Step T) × σ × τ)) :
    (strayLeft : Nat) → σ → τ → Except CliError (Step T) × σ × τ
  | strayLeft, self, link => match L.nextFrame link with
    | (.error e, link) => (.error e, self, link)
    | (.ok (now, raw), link) => match (op.handleFrame now raw).call self with
      | (.ok next, self) => (.ok next, self, link)
      | (.error e, self) => match e.isStaleFrame, strayLeft with
        -- not our reply: discard it and keep reading, without re-sending
        | true, left + 1 => readReply resend left self link
        | _, _ => match e.isRetryable, resend with
          | true, some resend => resend strayLeft self link
          | _, _ => (.error (.core e), self, link)

/-- The loop around it: write a frame and wait for what answers it. Neither count starts afresh when
    the frame is sent again. -/
def exchange (frame : List UInt8) :
    (crcLeft strayLeft : Nat) → σ → τ → Except CliError (Step T) × σ × τ
  | 0, strayLeft, self, link => match L.writeFrame frame link with
    | (.error e, link) => (.error e, self, link)
    | (.ok (), link) => readReply L op none strayLeft self link
  | left + 1, strayLeft, self, link => match L.writeFrame frame link with
    | (.error e, link) => (.error e, self, link)
    | (.ok (), link) => readReply L op (some (exchange frame left)) strayLeft self link

/-- The outer loop, for at most `fuel` frames. -/
def drive : (fuel : Nat) → Step T → σ → τ → Option (Except CliError T × σ × τ)
  | _, .done output, self, link => some (.ok output, self, link)
  | 0, .write _, _, _ => none
  | fuel + 1, .write frame, self, link =>
      match exchange L op frame CRC_RETRIES MAX_STRAY_FRAMES self link with
      | (.error e, self, link) => some (.error e, self, link)
      | (.ok next, self, link) => drive fuel next self link

/-- `run_op`. -/
def runOp (fuel : Nat) (self : σ) (link : τ) : Option (Except CliError T × σ × τ) :=
  match op.start.call self with
  | (.error e, self) => some (.error (.core e), self, link)
  | (.ok step, self) => drive L op fuel step self link

end

end Transport

/-! ## Two transports -/

/-- A `Link` as a transport, with the frames it was handed so far. -/
structure Recorded where
  link : Link
  written : List (List UInt8)
deriving DecidableEq

def Recorded.transport : Transport CliError Recorded where
  writeFrame frame self := match self.link.writes with
    | [] => (.error .disconnected, { self with written := self.written ++ [frame] })
    | outcome :: writes =>
        (outcome, { link := { self.link with writes }, written := self.written ++ [frame] })
  nextFrame self := match self.link.reads with
    | [] => (.error .timeout, self)
    | outcome :: reads => (outcome, { self with link := { self.link with reads } })

/-- A transport that replays a script, and what was written to it and read from it so far. A write
    always succeeds, a read past the end fails. -/
structure ScriptedLink where
  script : List (List UInt8)
  events : List (Retry.Event (List UInt8) (List UInt8))
deriving DecidableEq

/-- Every frame is handled at the same clock. -/
def ScriptedLink.transport {ε : Type} (timeout : ε) (now : Int) : Transport ε ScriptedLink where
  writeFrame frame self := (.ok (), { self with events := self.events ++ [.sent frame] })
  nextFrame self := match self.script with
    | [] => (.error timeout, self)
    | raw :: script => (.ok (now, raw), { script, events := self.events ++ [.got raw] })

end TTLock
