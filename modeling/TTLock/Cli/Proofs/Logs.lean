import TTLock.Cli.Logs
import TTLock.Cli.Proofs.Actuate
import TTLock.Cli.Proofs.Limit

set_option autoImplicit false

/-! # What the logs command puts out

The callback of `logs` writes a record at once, or keeps it for the array that is written behind the
walk. In between the connection is closed and the result of the walk is looked at, and either can end
the command. Streamed records are all put out whatever happens; an array is put out exactly if nothing
fails. -/

namespace TTLock

section

variable (S : Spelling)

/-- These lines put out these records. -/
def Renders (records : List LogRecord) (lines : List String) : Format → Prop
  | .jsonl => lines = records.map fun record => S.compact (Oplog.toJson S record)
  | .text => lines = records.map (Oplog.toText S)
  -- an array, or nothing at all for nothing
  | .json => lines = [S.pretty (records.map (Oplog.toJson S))] ∨ records = [] ∧ lines = []

/-- What the callback has written and kept behind these records. -/
def outputOf (records : List LogRecord) : Format → LogsOutput
  | .jsonl => ⟨records.map fun record => S.compact (Oplog.toJson S record), []⟩
  | .text => ⟨records.map (Oplog.toText S), []⟩
  | .json => ⟨[], records.map (Oplog.toJson S)⟩

theorem outputOf_nil (format : Format) : outputOf S [] format = ⟨[], []⟩ := by
  cases format <;> rfl

/-- The callback never fails, and its state says which records it was handed. -/
theorem logsCallback_simulates (format : Format) :
    Oplog.Simulates (fun records output => output = outputOf S records format) Oplog.collect
      (logsCallback S format) := by
  rintro record records _ rfl
  cases format <;> simp [logsCallback, Oplog.emit, Oplog.collect, outputOf]

theorem renders_outputOf {format : Format} (hformat : format ≠ .json) (records : List LogRecord) :
    Renders S records (outputOf S records format).sink format := by
  cases format with
  | jsonl => rfl
  | json => exact absurd rfl hformat
  | text => rfl

end

section

variable {τ : Type} (C : Cipher) (chrono : Chrono) (S : Spelling)
  (hexDecode : String → Except String (List UInt8)) (radio : Radio τ) (opts : LogsOpts) (fuel : Nat)

/-- The walk that `logs` makes: how it ends, the link behind it, and the records it hands to its
    callback. `none` if `logs` does not come to it. -/
def logsWalk : Option (Except CliError Walk × τ × List LogRecord) :=
  match opts.start, logsConnect hexDecode radio opts.connect with
  | .ok start, .ok (connection, version, aesKey) =>
      Oplog.walk C chrono radio.link aesKey version start opts.limit Oplog.collect fuel connection []
  | _, _ => none

/-- The records that are handed to the callback. -/
def handed : List LogRecord :=
  (logsWalk C chrono hexDecode radio opts fuel).elim [] fun walked => walked.2.2

/-- The walk and the disconnect behind it report no error. -/
def EndsCleanly : Prop :=
  ∃ walk link records, logsWalk C chrono hexDecode radio opts fuel = some (.ok walk, link, records) ∧
    radio.disconnect link = .ok ()

variable {opts fuel} {logged : Logged}

/-- What `logs` has written when it returns. -/
theorem logs_cases (h : logs C chrono S hexDecode radio opts fuel = some logged) :
    (logsWalk C chrono hexDecode radio opts fuel = none ∧ logged.stdout = []) ∨
    ∃ outcome link records,
      logsWalk C chrono hexDecode radio opts fuel = some (outcome, link, records) ∧
      ((∃ walk, outcome = .ok walk) ∧ radio.disconnect link = .ok () ∧
          logged.stdout = (outputOf S records opts.format).sink ++
            (if opts.format = .json then [S.pretty (outputOf S records opts.format).collected] else []) ∨
        ¬((∃ walk, outcome = .ok walk) ∧ radio.disconnect link = .ok ()) ∧
          logged.stdout = (outputOf S records opts.format).sink) := by
  revert h
  unfold logs logsWalk
  rcases opts.start with e | start
  · intro h
    obtain rfl := Option.some.inj h
    exact .inl ⟨rfl, rfl⟩
  rcases logsConnect hexDecode radio opts.connect with e | ⟨connection, version, aesKey⟩
  · intro h
    obtain rfl := Option.some.inj h
    exact .inl ⟨rfl, rfl⟩
  intro h
  dsimp only at h ⊢
  rcases Oplog.walkPages_simulates (logsCallback_simulates S opts.format) opts.limit
    (Oplog.fetchPage C chrono radio.link aesKey version) fuel start none 0 connection
    (outputOf_nil S opts.format).symm with ⟨hnone, hnone'⟩ |
      ⟨outcome, link, records, _, rfl, hwalk, hwalk'⟩
  · rw [Oplog.walk, hnone'] at h
    cases h
  · rw [Oplog.walk, hwalk'] at h
    refine .inr ⟨outcome, link, records, hwalk, ?_⟩
    dsimp only at h
    rcases hdisconnect : radio.disconnect link with e | _
    · rw [hdisconnect] at h
      obtain rfl := Option.some.inj h
      exact .inr ⟨(fun hboth => by cases hboth.2), rfl⟩
    · rw [hdisconnect] at h
      rcases outcome with e | walk
      · obtain rfl := Option.some.inj h
        refine .inr ⟨?_, rfl⟩
        rintro ⟨⟨walk, hwalk⟩, -⟩
        cases hwalk
      · obtain rfl := Option.some.inj h
        refine .inl ⟨⟨walk, rfl⟩, rfl, ?_⟩
        dsimp only
        split
        · rfl
        · exact (List.append_nil _).symm

/-- **Every record that is read is put out**, unless an array is asked for, there is something to put
    in, and the walk or the disconnect fails. -/
theorem logs_renders_handed_iff (h : logs C chrono S hexDecode radio opts fuel = some logged) :
    Renders S (handed C chrono hexDecode radio opts fuel) logged.stdout opts.format ↔
      opts.format ≠ .json ∨ handed C chrono hexDecode radio opts fuel = [] ∨
        EndsCleanly C chrono hexDecode radio opts fuel := by
  unfold handed EndsCleanly
  rcases logs_cases C chrono S hexDecode radio h with ⟨hwalk, hstdout⟩ |
    ⟨outcome, link, records, hwalk, hends⟩
  · rw [hwalk, hstdout]
    refine iff_of_true ?_ (.inr (.inl rfl))
    cases opts.format with
    | jsonl => rfl
    | json => exact .inr ⟨rfl, rfl⟩
    | text => rfl
  · rw [hwalk]
    dsimp only [Option.elim]
    by_cases hformat : opts.format = .json
    · rw [hformat] at hends ⊢
      rw [or_iff_right (not_not_intro rfl)]
      rcases hends with ⟨⟨walk, rfl⟩, hdisconnect, hstdout⟩ | ⟨hfails, hstdout⟩
      · exact iff_of_true (.inl hstdout) (.inr ⟨walk, link, records, rfl, hdisconnect⟩)
      · -- nothing was written
        rw [hstdout]
        constructor
        · rintro (hlines | ⟨hnil, -⟩)
          · cases hlines
          · exact .inl hnil
        · rintro (hnil | ⟨walk, link', records', hsome, hdisconnect⟩)
          · exact .inr ⟨hnil, rfl⟩
          · cases hsome
            exact absurd ⟨⟨walk, rfl⟩, hdisconnect⟩ hfails
    · refine iff_of_true ?_ (.inl hformat)
      have hstdout : logged.stdout = (outputOf S records opts.format).sink := by
        rcases hends with ⟨-, -, hstdout⟩ | ⟨-, hstdout⟩
        · rw [hstdout, if_neg hformat, List.append_nil]
        · exact hstdout
      rw [hstdout]
      exact renders_outputOf S hformat records

end

/-! ## A page that arrives before something fails -/

open Oplog (sampleChrono samplePage sampleEnd sampleRecord)
open WorkerRun (sampleConnect sampleHex sampleSurroundings)

def JsonScalar.spelled : JsonScalar → String
  | .null => "null"
  | .number value => toString value
  | .string text => "\"" ++ text ++ "\""

def JsonObject.sorted (self : JsonObject) : List (String × JsonScalar) :=
  self.fields.mergeSort fun a b => decide (a.1 ≤ b.1)

def twoDigits (n : Nat) : String := String.ofList (List.leftpad 2 '0' (toString n).toList)

/-- The real spelling of years with four digits and texts that need no escapes. -/
def sampleSpelling : Spelling where
  dateTime t :=
    "-".intercalate [toString t.year, twoDigits t.month, twoDigits t.day] ++ " " ++
      ":".intercalate [twoDigits t.hour, twoDigits t.minute, twoDigits t.second]
  hexEncode bytes := String.join (bytes.map fun byte =>
    String.ofList [Nat.digitChar (byte.toNat / 16), Nat.digitChar (byte.toNat % 16)])
  compact o :=
    "\x7b" ++ ",".intercalate (o.sorted.map fun (name, value) => "\"" ++ name ++ "\":" ++ value.spelled) ++
      "\x7d"
  pretty objects :=
    let entry (o : JsonObject) : String := "  \x7b\n" ++ ",\n".intercalate (o.sorted.map fun (name, value) =>
      "    \"" ++ name ++ "\": " ++ value.spelled) ++ "\n  \x7d"
    if objects.isEmpty then "[]" else "[\n" ++ ",\n".intercalate (objects.map entry) ++ "\n]"

def sampleLogsOpts (format : Format) : LogsOpts :=
  { connect := sampleConnect, startFrom := none, sinceLastRead := false, limit := none, format
    noWarn := true }

/-- A lock that is reached, sends these frames and is left with this outcome. -/
def deliveringSurroundings (frames : List (List UInt8)) (disconnect : Except String Unit) :
    Surroundings :=
  let reached := sampleSurroundings "AA:BB:CC:DD:EE:FF"
  { reached with
    attempt := fun k =>
      { reached.attempt k with
        dial :=
          { (reached.attempt k).dial with
            link :=
              { writes := List.replicate 2 (.ok ())
                reads := frames.map fun raw => .ok (0, raw)
                disconnect } } } }

def sampleLogs (format : Format) (frames : List (List UInt8)) (disconnect : Except String Unit) :
    Option Logged :=
  logs aes128Cbc sampleChrono sampleSpelling sampleHex (deliveringSurroundings frames disconnect).radio
    (sampleLogsOpts format) 2

def sampleHanded (format : Format) (frames : List (List UInt8)) (disconnect : Except String Unit) :
    List LogRecord :=
  handed aes128Cbc sampleChrono sampleHex (deliveringSurroundings frames disconnect).radio
    (sampleLogsOpts format) 2

example : (sampleLogs .text [samplePage 10 [47]] (.ok ())).map Logged.stdout =
    some ["    10  2026-07-30 11:59:46   62%  [ 47] keypad lock"] := by decide +kernel

/-- A streamed record is put out although the link falls silent behind it. -/
theorem streamed_record_put_out :
    ∃ logged, sampleLogs .text [samplePage 10 [47]] (.ok ()) = some logged ∧
      Renders sampleSpelling (sampleHanded .text [samplePage 10 [47]] (.ok ())) logged.stdout .text := by
  obtain ⟨logged, hlogged⟩ : ∃ logged, sampleLogs .text [samplePage 10 [47]] (.ok ()) = some logged :=
    Option.isSome_iff_exists.1 (by decide +kernel)
  exact ⟨logged, hlogged, (logs_renders_handed_iff aes128Cbc sampleChrono sampleSpelling sampleHex
    (deliveringSurroundings [samplePage 10 [47]] (.ok ())).radio hlogged).2 (.inl (by decide))⟩

/-- The log is read to its end, and nothing of it is put out because the connection could not be
    closed. -/
theorem collected_record_lost :
    let frames := [samplePage 10 [47], sampleEnd]
    let disconnect : Except String Unit := .error "org.bluez.Error.Failed"
    ∃ logged, sampleLogs .json frames disconnect = some logged ∧ logged.stdout = [] ∧
      sampleHanded .json frames disconnect = [sampleRecord ⟨10, by decide⟩ 47] ∧
      ¬Renders sampleSpelling (sampleHanded .json frames disconnect) logged.stdout .json := by
  intro frames disconnect
  have hstdout : (sampleLogs .json frames disconnect).map Logged.stdout = some [] := by
    decide +kernel
  have hhanded : sampleHanded .json frames disconnect = [sampleRecord ⟨10, by decide⟩ 47] := by
    decide +kernel
  obtain ⟨logged, hlogged, hnothing⟩ := Option.map_eq_some_iff.1 hstdout
  refine ⟨logged, hlogged, hnothing, hhanded, ?_⟩
  rw [hnothing, hhanded]
  rintro (hlines | ⟨hnil, -⟩)
  · cases hlines
  · cases hnil

end TTLock
