import TTLock.Cli.Broker
import TTLock.Cli.LockLink
import TTLock.Cli.Proofs.Acknowledged

set_option autoImplicit false

/-! # The daemon between a broker and a lock

The worker with the broker on one side and the lock itself on the other. What a call of `actuate` comes to is
what its loops make of the lock's answers over a new connection (`actuateOver`). The scan is stopped while it
runs, so what happens meanwhile is only put in the queue, and a call is one step. Publications are retained
at once, as for a `Bridge`, and nobody but the daemon moves the bolt. -/

namespace TTLock

/-- `actuate` over any transport. `connected` is the state a new connection is in; if none is made, the
    transport is left as it was. -/
def actuateOver {τ : Type} (C : Cipher) (hexDecode : String → Except String (List UInt8))
    (L : Transport CliError τ) (fuel : Nat) (opts : ConnectOpts) (action : Actuation)
    (around : Surroundings) (connected : Link → τ) (link : τ) : Option (Except CliError Unit × τ) :=
  match prepare hexDecode opts action around with
  | .error e => some (.error e, link)
  | .ok (connection, op) =>
      (L.runOp (ActuateOp.operation C) fuel op (connected connection)).map fun (result, _, link) =>
        (result.bind fun () => BleConnection.disconnect connection, link)

/-- The version the operation is driven with: the one `select_and_connect` returns. There is none if it
    fails, or if the keys cannot be read. -/
def drivenVersion (hexDecode : String → Except String (List UInt8)) (opts : ConnectOpts)
    (action : Actuation) (around : Surroundings) : Option LockVersion :=
  (prepare hexDecode opts action around).toOption.map fun (_, op) => op.version

/-- A call of `actuate` that has returned. -/
structure PastCall where
  action : Actuation
  version : Option LockVersion
  result : Except CliError Unit
deriving DecidableEq

structure DaemonRun where
  bridge : Bridge
  /-- The last connection to the lock. -/
  link : LockLink
  returned : List PastCall
deriving DecidableEq

inductive DaemonEvent where
  /-- Anything but the end of an actuation. -/
  | bridge (action : BridgeAction)
  /-- `actuate` runs for `blind`, over a connection on which this becomes of the frames. -/
  | actuate (around : Surroundings) (fate : Nat → Fate) (script : List Delivery) (blind : Duration)
      (nowMs : UInt64)

namespace DaemonRun

/-- A new daemon. The broker may retain anything, and the lock may be in any state. -/
def init (retained : Retained) (session : LockSession) : DaemonRun :=
  { bridge := .init retained, link := .new session [], returned := [] }

variable (C : Cipher) (hexDecode : String → Except String (List UInt8)) (lock : PairedLock)
  (connect : ConnectOpts) (offlineAfter : Duration)

def step (self : DaemonRun) : DaemonEvent → Option DaemonRun
  | .bridge (.worker (.actuated ..)) => none
  | .bridge action => (self.bridge.step offlineAfter action).map fun bridge => { self with bridge }
  | .actuate around fate script blind nowMs => match self.bridge.worker.activity with
      | .waiting | .publishing .. => none
      | .actuating action => do
          -- a handshake and an actuation: no more than two frames to send
          let (result, link) ← actuateOver C hexDecode
            (LockLink.transport .timeout .disconnected C lock fate) 2 connect action around
            (fun _ => .new self.link.session script) self.link
          let bridge ← self.bridge.step offlineAfter (.worker (.actuated result.toBool blind nowMs))
          let version := drivenVersion hexDecode connect action around
          return { bridge, link, returned := self.returned ++ [⟨action, version, result⟩] }

end DaemonRun

end TTLock
