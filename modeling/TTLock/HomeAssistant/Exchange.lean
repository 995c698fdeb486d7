import TTLock.Cli.Transport

set_option autoImplicit false

/-! # Driving an operation from Home Assistant (`custom_components/ttlock_ble/coordinator.py`)

`_async_drive` and `_async_exchange` over any transport, with the exceptions the binding turns the
core's errors into (`ttlock-py/src/lib.rs`). Chunking and pacing a write are the transport's, and so is
the deadline. -/

namespace TTLock

/-- The exception classes of the binding. The last two are subclasses of the first. -/
inductive PyClass where
  | ttlockError
  | crcMismatch
  | unexpectedCommand
deriving DecidableEq, Repr

/-- An exception of the binding, and the error its text is taken from. -/
structure PyErr where
  cls : PyClass
  error : TtlockError
deriving DecidableEq, Repr

def toPyerr (error : TtlockError) : PyErr :=
  match error with
  | .crcMismatch _ _ => ⟨.crcMismatch, error⟩
  | .unexpectedCommand _ _ => ⟨.unexpectedCommand, error⟩
  | _ => ⟨.ttlockError, error⟩

/-- What the coordinator raises, and what it is raised from. -/
inductive HaError where
  | ttlock (err : PyErr)
  | homeAssistantError (cause : PyErr)
  /-- `_TransientError`: no response in time. -/
  | transient
  /-- Whatever the Bluetooth stack raises. -/
  | bleak (rendered : String)
  /-- "CRC retry loop exited without a result". -/
  | assertion
deriving DecidableEq

namespace HomeAssistant

variable {σ T τ : Type} (client : Transport HaError τ) (op : Operation σ T)

/-- The loop that waits for a response, with so many frames that may still be discarded: the response,
    or `none` for the frame is to be sent again. -/
def awaitResponse (lastAttempt : Bool) :
    (strayLeft : Nat) → σ → τ → Except HaError (Option (Step T)) × σ × τ
  | strayLeft, self, link => match client.nextFrame link with
    | (.error e, link) => (.error e, self, link)
    | (.ok (now, frame), link) => match (op.handleFrame now frame).call self with
      | (.ok step, self) => (.ok (some step), self, link)
      | (.error e, self) => match (toPyerr e).cls with
        | .unexpectedCommand => match strayLeft with
          | 0 => (.error (.ttlock (toPyerr e)), self, link)
          | left + 1 => awaitResponse lastAttempt left self link
        | .crcMismatch =>
            if lastAttempt then (.error (.ttlock (toPyerr e)), self, link)
            else (.ok none, self, link)
        | .ttlockError => (.error (.ttlock (toPyerr e)), self, link)

/-- `_async_exchange`, with so many attempts left. Each begins with a count of no stray frames. -/
def asyncExchange (payload : List UInt8) :
    (attempts : Nat) → σ → τ → Except HaError (Step T) × σ × τ
  | 0, self, link => (.error .assertion, self, link)
  | left + 1, self, link => match client.writeFrame payload link with
    | (.error e, link) => (.error e, self, link)
    | (.ok (), link) =>
        match awaitResponse client op (left = 0) MAX_STRAY_FRAMES self link with
        | (.error e, self, link) => (.error e, self, link)
        | (.ok (some step), self, link) => (.ok step, self, link)
        | (.ok none, self, link) => asyncExchange payload left self link

/-- The loop of `_async_drive`, for at most `fuel` frames. -/
def asyncSteps : (fuel : Nat) → Step T → σ → τ → Option (Except HaError T × σ × τ)
  | _, .done output, self, link => some (.ok output, self, link)
  | 0, .write _, _, _ => none
  | fuel + 1, .write payload, self, link =>
      match asyncExchange client op payload (CRC_RETRIES + 1) self link with
      | (.error e, self, link) => some (.error e, self, link)
      | (.ok step, self, link) => asyncSteps fuel step self link

/-- Only the binding's exceptions are given a new face. -/
def raised : HaError → HaError
  | .ttlock err => .homeAssistantError err
  | e => e

/-- `_async_drive`, once it is notified of frames. -/
def asyncDrive (fuel : Nat) (self : σ) (link : τ) : Option (Except HaError T × σ × τ) :=
  let driven : Option (Except HaError T × σ × τ) := match op.start.call self with
    | (.error e, self) => some (.error (.ttlock (toPyerr e)), self, link)
    | (.ok step, self) => asyncSteps client op fuel step self link
  driven.map fun (result, self, link) => (result.mapError raised, self, link)

end HomeAssistant

end TTLock
