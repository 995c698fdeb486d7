import TTLock.Cli.Transport
import TTLock.Core.Oplog

set_option autoImplicit false

/-! # Walking the operate log (`ttlock/src/oplog.rs`)

The walk over the pages of the log, on top of `run_op`. What the callback collects is the state `κ`
that its calls pass on; a callback that fails ends the walk. -/

namespace TTLock

/-- How a walk stopped. -/
inductive Ending where
  | exhausted
  /-- The lock refused the cursor twice running. -/
  | refused
  | limitReached
deriving DecidableEq, Repr

/-- What a walk did. -/
structure Walk where
  records : Nat
  ending : Ending
  /-- The cursor to resume from, when the walk did not reach the end. -/
  resumeFrom : Option Sequence
deriving DecidableEq, Repr

namespace Oplog

section

variable {τ : Type} (C : Cipher) (chrono : Chrono) (L : Transport CliError τ) (aesKey : AesKey)
  (version : LockVersion)

/-- `run_op` on a fresh `LogPageOp`, which writes one frame. -/
def readPage (cursor : LogCursor) (link : τ) : Option (Except CliError LogPage × τ) :=
  (L.runOp (LogPageOp.operation C chrono) 1 (.new aesKey version cursor) link).map
    fun (result, _, link) => (result, link)

/-- Fetch one page, retrying a refused cursor once. `none` for a page that was refused twice. -/
def fetchPage (cursor : LogCursor) (link : τ) : Option (Except CliError (Option LogPage) × τ) :=
  match readPage C chrono L aesKey version cursor link with
  | none => none
  | some (.ok page, link) => some (.ok (some page), link)
  | some (.error (.core (.commandFailed _ _)), link) =>
      match readPage C chrono L aesKey version cursor link with
      | none => none
      | some (.ok page, link) => some (.ok (some page), link)
      | some (.error (.core (.commandFailed _ _)), link) => some (.ok none, link)
      | some (.error e, link) => some (.error e, link)
  | some (.error e, link) => some (.error e, link)

end

section

variable {κ : Type} (onRecord : LogRecord → κ → Except CliError Unit × κ) (limit : Option Nat)

/-- The loop over the records of a page: how many were handed over in all, and whether that is the
    limit. -/
def deliver : (records : Nat) → List LogRecord → κ → Except CliError (Nat × Bool) × κ
  | records, [], seen => (.ok (records, false), seen)
  | records, record :: rest, seen => match onRecord record seen with
    | (.error e, seen) => (.error e, seen)
    | (.ok (), seen) =>
        if limit.any fun max => records + 1 ≥ max then (.ok (records + 1, true), seen)
        else deliver (records + 1) rest seen

variable {τ : Type} (fetch : LogCursor → τ → Option (Except CliError (Option LogPage) × τ))

/-- The loop over the pages, for at most `fuel` of them. -/
def walkPages : (fuel : Nat) → (cursor : LogCursor) → (last : Option Sequence) → (records : Nat) →
    τ → κ → Option (Except CliError Walk × τ × κ)
  | 0, _, _, _, _, _ => none
  | fuel + 1, cursor, last, records, link, seen => match fetch cursor link with
    | none => none
    | some (.error e, link) => some (.error e, link, seen)
    | some (.ok none, link) => some (.ok ⟨records, .refused, last⟩, link, seen)
    | some (.ok (some page), link) => match deliver onRecord limit records page.records seen with
      | (.error e, seen) => some (.error e, link, seen)
      -- resume from the page before this one, which is read again as a whole
      | (.ok (records, true), seen) => some (.ok ⟨records, .limitReached, last⟩, link, seen)
      | (.ok (records, false), seen) => match page.next with
        | none => some (.ok ⟨records, .exhausted, none⟩, link, seen)
        | some next =>
            -- a page that advances nowhere would spin forever
            if last = some next then some (.ok ⟨records, .refused, last⟩, link, seen)
            else walkPages fuel (.after next) (some next) records link seen

end

/-- `walk`, for at most `fuel` pages. -/
def walk {τ κ : Type} (C : Cipher) (chrono : Chrono) (L : Transport CliError τ) (aesKey : AesKey)
    (version : LockVersion) (start : LogCursor) (limit : Option Nat)
    (onRecord : LogRecord → κ → Except CliError Unit × κ) (fuel : Nat) (link : τ) (seen : κ) :
    Option (Except CliError Walk × τ × κ) :=
  walkPages onRecord limit (fetchPage C chrono L aesKey version) fuel start none 0 link seen

/-- A callback that keeps every record it is handed. -/
def collect (record : LogRecord) (seen : List LogRecord) : Except CliError Unit × List LogRecord :=
  (.ok (), seen ++ [record])

end Oplog

end TTLock
