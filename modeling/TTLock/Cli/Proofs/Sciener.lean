import TTLock.Cli.Sciener
import TTLock.Core.Proofs.Sciener

set_option autoImplicit false

/-! # Which rows spoil an import

The query keeps the rows whose MAC and AES key are not `NULL`; the conversion wants them not blank as
well, and refuses the row. In between lies the row with a blank in it, and one is enough. -/

namespace TTLock

/-- Present and not blank. -/
def SqlValue.filled : SqlValue → Bool
  | .text value => !(trim value).isEmpty
  | .null | .integer _ | .other => false

/-- The rows that are worth importing. -/
def ZkeyRow.usable (self : ZkeyRow) : Bool := self.zlockmac.filled && self.zaeskeystr.filled

theorem ZkeyRow.selected_of_usable {row : ZkeyRow} (h : row.usable = true) : row.selected = true := by
  have hnull : ∀ value : SqlValue, value.filled = true → value ≠ .null := by
    rintro value hfilled rfl
    simp [SqlValue.filled] at hfilled
  rw [usable, Bool.and_eq_true] at h
  simp [selected, hnull _ h.1, hnull _ h.2]

section

variable {hexEncode : List UInt8 → String} {base64Decode : String → Except String (List UInt8)}
  {debug : String → String} {utf8Error : List UInt8 → String} {invalidType : Nat → SqlValue → String}

/-- A text column whose text is not blank is filled. -/
theorem SqlValue.filled_of_getText {render : SqlValue → String} {value : SqlValue}
    {text : Option String} {kept : String} (h : value.getText render = .ok text)
    (hkept : nonBlank text = some kept) : value.filled = true := by
  cases value with
  | null =>
      obtain rfl := Except.ok.inj h
      simp [nonBlank] at hkept
  | integer value => simp [getText] at h
  | text value =>
      obtain rfl := Except.ok.inj h
      obtain ⟨hsome, hfilled⟩ := Option.filter_eq_some_iff.1 hkept
      obtain rfl := Option.some.inj hsome
      exact hfilled
  | other => simp [getText] at h

/-- **A row that is converted is usable.** -/
theorem ZkeyRow.usable_of_toLockData {row : ZkeyRow} {lock : LockData}
    (h : row.toLockData hexEncode base64Decode debug utf8Error invalidType = .ok lock) :
    row.usable = true := by
  rw [toLockData, Fallible.bind_eq_ok_iff] at h
  obtain ⟨columns, hread, hconverted⟩ := h
  rw [Fallible.mapError_eq_ok_iff] at hconverted
  obtain ⟨hmac, ⟨csv, -, hcsv, -⟩, -⟩ := ScienerKeyRow.intoLockData_eq_ok hconverted
  simp only [read, Fallible.bind_eq_ok_iff] at hread
  obtain ⟨lockMac, hlockMac, aesKeyCsv, haesKeyCsv, _, -, _, -, _, -, _, -, hcolumns⟩ := hread
  obtain rfl := Except.ok.inj hcolumns
  rw [usable, Bool.and_eq_true]
  exact ⟨SqlValue.filled_of_getText hlockMac hmac, SqlValue.filled_of_getText haesKeyCsv hcsv⟩

/-- **Which rows spoil an import.** If every usable row can be read and converted, the import gives
    exactly their entries in table order iff no row is selected that is not usable: none whose MAC and
    AES key are both there and one of them is blank. -/
theorem import_usable_rows_iff {zkey : List ZkeyRow}
    (husable : ∀ row ∈ zkey, row.usable = true →
      ∃ lock, row.toLockData hexEncode base64Decode debug utf8Error invalidType = .ok lock) :
    (∃ locks, lockDataFromConnection hexEncode base64Decode debug utf8Error invalidType zkey =
        .ok locks ∧
      List.Forall₂ (fun row lock =>
        row.toLockData hexEncode base64Decode debug utf8Error invalidType = .ok lock)
        (zkey.filter ZkeyRow.usable) locks) ↔
    ∀ row ∈ zkey, row.zlockmac ≠ .null → row.zaeskeystr ≠ .null → row.usable = true := by
  have hselected : ∀ row : ZkeyRow,
      row.selected = true ↔ row.zlockmac ≠ .null ∧ row.zaeskeystr ≠ .null := by
    intro row
    simp [ZkeyRow.selected]
  constructor
  · rintro ⟨locks, himport, -⟩ row hrow hmac haes
    obtain ⟨lock, hlock⟩ := Fallible.exists_ok_of_mapM_eq_ok himport
      (List.mem_filter.2 ⟨hrow, (hselected row).2 ⟨hmac, haes⟩⟩)
    exact ZkeyRow.usable_of_toLockData hlock
  · intro hall
    have hsame : zkey.filter ZkeyRow.selected = zkey.filter ZkeyRow.usable := by
      refine List.filter_congr fun row hrow => Bool.eq_iff_iff.2 ⟨fun h => ?_, fun h => ?_⟩
      · obtain ⟨hmac, haes⟩ := (hselected row).1 h
        exact hall row hrow hmac haes
      · exact ZkeyRow.selected_of_usable h
    obtain ⟨locks, hlocks⟩ := Fallible.exists_forall₂ (fun row hrow => by
      obtain ⟨hmem, husableRow⟩ := List.mem_filter.1 hrow
      exact husable row hmem husableRow : ∀ row ∈ zkey.filter ZkeyRow.usable, ∃ lock,
        row.toLockData hexEncode base64Decode debug utf8Error invalidType = .ok lock)
    refine ⟨locks, ?_, hlocks⟩
    rw [lockDataFromConnection, hsame]
    exact Fallible.mapM_eq_ok_iff.2 hlocks

end

/-- A row with this AES key. -/
def sampleZkeyRow (aesKey : SqlValue) : ZkeyRow :=
  { zlockmac := .text "AA:BB:CC:DD:EE:FF", zaeskeystr := aesKey, zadminps := .null, zlockkey := .null
    zautolocktime := .null, zrssi := .integer (-60) }

def sampleAesKey : SqlValue := .text "00,11,22,33,44,55,66,77,88,99,aa,bb,cc,dd,ee,ff"

/-- The entry of a row with that key. -/
def sampleImported : LockData :=
  { address := "AA:BB:CC:DD:EE:FF"
    battery := -1
    rssi := -60
    autoLockTime := -1
    lockedStatus := -1
    privateData := { aesKey := some "00112233445566778899aabbccddeeff", unlockKey := none } }

/-- One row of a database, as it is converted with the real engines. -/
def sampleToLockData : ZkeyRow → Except CliError LockData :=
  ZkeyRow.toLockData (HexEngine.standard id).encode (Base64Engine.standard id).decode id (fun _ => "")
    fun _ _ => ""

def sampleImport : List ZkeyRow → Except CliError (List LockData) :=
  lockDataFromConnection (HexEngine.standard id).encode (Base64Engine.standard id).decode id
    (fun _ => "") fun _ _ => ""

theorem sampleToLockData_sampleAesKey :
    sampleToLockData (sampleZkeyRow sampleAesKey) = .ok sampleImported := by decide +kernel

/-- A row without an AES key is no harm. -/
theorem import_with_null_row :
    let zkey := [sampleZkeyRow .null, sampleZkeyRow sampleAesKey]
    (∃ locks, sampleImport zkey = .ok locks ∧
      List.Forall₂ (fun row lock => sampleToLockData row = .ok lock) (zkey.filter ZkeyRow.usable) locks) ↔
    ∀ row ∈ zkey, row.zlockmac ≠ .null → row.zaeskeystr ≠ .null → row.usable = true := by
  intro zkey
  have hconverted : ∀ row ∈ zkey, row.usable = true → ∃ lock, sampleToLockData row = .ok lock := by
    intro row hrow husable
    rcases List.mem_cons.1 hrow with rfl | hrow
    · exact absurd husable (by decide)
    · obtain rfl := List.mem_singleton.1 hrow
      exact ⟨sampleImported, sampleToLockData_sampleAesKey⟩
  exact import_usable_rows_iff hconverted

/-- A row with a blank AES key ends the import. -/
theorem import_spoiled_by_blank_row :
    let zkey := [sampleZkeyRow (.text " "), sampleZkeyRow sampleAesKey]
    zkey.filter ZkeyRow.usable = [sampleZkeyRow sampleAesKey] ∧
      sampleToLockData (sampleZkeyRow sampleAesKey) = .ok sampleImported ∧
      sampleImport zkey = .error (.core (.missingLockData "ZAESKEYSTR")) := by
  intro zkey
  exact ⟨by decide +kernel, sampleToLockData_sampleAesKey, by decide +kernel⟩

end TTLock
