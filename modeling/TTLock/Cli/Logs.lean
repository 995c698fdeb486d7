import TTLock.Cli.Actuate
import TTLock.Cli.Oplog

set_option autoImplicit false

/-! # The logs command (`ttlock/src/oplog.rs`, `ttlock/src/main.rs`)

How records are rendered, and the command that prints what a walk hands over. The sink takes whatever
is written to it, one entry for each `writeln!`; what goes to stderr is kept the same way. -/

namespace TTLock

/-! ## Rendering -/

/-- How to render records. -/
inductive Format where
  /-- One JSON object per line, written as each record arrives. -/
  | jsonl
  /-- A single JSON array. Buffers until the walk finishes. -/
  | json
  | text
deriving DecidableEq, Repr

inductive JsonScalar where
  | null
  | number (value : Nat)
  | string (text : String)
deriving DecidableEq, Repr

/-- A `serde_json` object without nesting, its fields in the order they were inserted. -/
structure JsonObject where
  fields : List (String × JsonScalar)
deriving DecidableEq, Repr

/-- How other crates spell what a record holds. -/
structure Spelling where
  /-- `chrono`'s `Display` of a date and time. -/
  dateTime : NaiveDateTime → String
  /-- `hex::encode`. -/
  hexEncode : List UInt8 → String
  /-- `serde_json`'s `Display` of an object. -/
  compact : JsonObject → String
  /-- `serde_json::to_string_pretty` of an array of objects. -/
  pretty : List JsonObject → String

namespace Oplog

variable (S : Spelling)

def toJson (record : LogRecord) : JsonObject :=
  let operation := match record.description with
    | some name => .string name
    | none => .null
  let passcode := match record.passcode with
    | some passcode => [("passcode", .string passcode)]
    | none => []
  let tail := if record.tail.isEmpty then [] else [("tail", .string (S.hexEncode record.tail))]
  ⟨[("sequence", .number record.sequence.get.toNat), ("code", .number record.code.toNat),
    ("operation", operation), ("at", .string (S.dateTime record.atTime)),
    ("battery", .number record.battery.get.toNat)] ++ passcode ++ tail⟩

/-- `format!` with `:>width`. -/
def alignRight (width : Nat) (text : String) : String :=
  String.ofList (List.leftpad width ' ' text.toList)

/-- One record as an aligned line. -/
def toText (record : LogRecord) : String :=
  let name := record.description.getD s!"unknown code {record.code}"
  let passcode := match record.passcode with
    | some code => s!"  passcode={code}"
    | none => ""
  alignRight 6 (toString record.sequence.get) ++ "  " ++ S.dateTime record.atTime ++ "  " ++
    alignRight 3 (toString record.battery.get) ++ "%  [" ++ alignRight 3 (toString record.code) ++
    "] " ++ name ++ passcode

/-- Write one record to the sink. -/
def emit (sink : List String) (record : LogRecord) : Format → Except CliError Unit × List String
  | .jsonl => (.ok (), sink ++ [S.compact (toJson S record)])
  | .text => (.ok (), sink ++ [toText S record])
  -- buffered by the caller into one array
  | .json => (.ok (), sink)

end Oplog

/-! ## The command -/

structure LogsOpts where
  connect : ConnectOpts
  /-- `from` in the source. -/
  startFrom : Option UInt16
  sinceLastRead : Bool
  limit : Option Nat
  format : Format
  noWarn : Bool
deriving DecidableEq, Repr

/-- Where the walk starts. -/
def LogsOpts.start (self : LogsOpts) : Except CliError LogCursor :=
  if self.sinceLastRead then .ok .sinceLastRead
  else match self.startFrom with
    | some value => match Sequence.new value with
      | some sequence => .ok (.after sequence)
      -- 0xffff is the sentinel, so it cannot also be a position
      | none => .error (.core (.message (s!"--from {value} is the reserved 'since last read' sentinel; " ++
          "use --since-last-read if that is what you meant")))
    | none => .ok .beginning

/-- In seconds. -/
def SECRET_WARNING_PAUSE : Nat := 5

/-- What `warn_before_printing_secrets` prints before it pauses. -/
def secretWarning : String :=
  "\nThis prints keypad passcodes in plaintext. A `keyboard password unlock`\n" ++
  "record contains the code that was typed, including codes belonging to\n" ++
  "other people, so whatever this output lands in becomes as sensitive as\n" ++
  "lockData.json.\n\n" ++
  s!"Starting in {SECRET_WARNING_PAUSE} seconds — Ctrl-C to cancel, --no-warn to skip this.\n"

/-- The line a finished walk is reported by. -/
def Walk.report (self : Walk) : String :=
  match self.ending with
  | .exhausted => s!"read {self.records} record(s); log exhausted."
  | .limitReached | .refused =>
      let reason :=
        if self.ending = .refused then "the lock refused the cursor twice"
        else "the limit was reached"
      let resume := match self.resumeFrom with
        | some sequence => s!" Resume with --from {sequence.get}."
        | none => ""
      s!"read {self.records} record(s); stopped because {reason}." ++ resume

/-- How `logs` reaches a lock, over which link, and how it leaves it. -/
structure Radio (τ : Type) where
  selectAndConnect : ConnectOpts → Except CliError (τ × LockVersion × LockData)
  link : Transport CliError τ
  disconnect : τ → Except CliError Unit

/-- The radio of a Bluetooth stack with these answers. -/
def Surroundings.radio (self : Surroundings) : Radio Recorded where
  selectAndConnect opts := do
    let (connection, version, lockData) ← TTLock.selectAndConnect opts self
    return (⟨connection, []⟩, version, lockData)
  link := Recorded.transport
  disconnect link := BleConnection.disconnect link.link

/-- What the callback of `logs` keeps. -/
structure LogsOutput where
  sink : List String
  collected : List JsonObject
deriving DecidableEq, Repr

/-- A call of `logs` that has returned, by its result and what it wrote. -/
structure Logged where
  result : Except CliError Unit
  stdout : List String
  stderr : List String
deriving DecidableEq

section

variable {τ : Type} (C : Cipher) (chrono : Chrono) (S : Spelling)
  (hexDecode : String → Except String (List UInt8)) (radio : Radio τ)

/-- The callback of `logs`. -/
def logsCallback (format : Format) (record : LogRecord) (output : LogsOutput) :
    Except CliError Unit × LogsOutput :=
  if format = .json then
    (.ok (), { output with collected := output.collected ++ [Oplog.toJson S record] })
  else
    let (result, sink) := Oplog.emit S output.sink record format
    (result, { output with sink })

/-- What `logs` connects to, and the key it reads with. -/
def logsConnect (connect : ConnectOpts) : Except CliError (τ × LockVersion × AesKey) := do
  let (connection, version, lockData) ← radio.selectAndConnect connect
  let aesKey ← (lockData.aesKey hexDecode).mapError .core
  return (connection, version, aesKey)

/-- Read the operate log, for at most `fuel` pages. -/
def logs (opts : LogsOpts) (fuel : Nat) : Option Logged :=
  match opts.start with
  | .error e => some ⟨.error e, [], []⟩
  | .ok start =>
      let stderr := if opts.noWarn then [] else [secretWarning]
      match logsConnect hexDecode radio opts.connect with
      | .error e => some ⟨.error e, [], stderr⟩
      | .ok (connection, version, aesKey) =>
          match Oplog.walk C chrono radio.link aesKey version start opts.limit
            (logsCallback S opts.format) fuel connection ⟨[], []⟩ with
          | none => none
          | some (outcome, connection, ⟨sink, collected⟩) =>
              match radio.disconnect connection, outcome with
              | .error e, _ | .ok (), .error e => some ⟨.error e, sink, stderr⟩
              | .ok (), .ok outcome =>
                  let stdout := if opts.format = .json then sink ++ [S.pretty collected] else sink
                  some ⟨.ok (), stdout, stderr ++ [outcome.report]⟩

end

end TTLock
