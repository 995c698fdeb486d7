import TTLock.Cli.Import
import TTLock.Core.Proofs.LockFile
import TTLock.Core.Proofs.Sciener

set_option autoImplicit false

/-! # From the app's database to a command's keys

A command that is given an imported file uses the keys of the row that is for its address. -/

namespace TTLock

/-- An entry is for its address, and for any if none is given. -/
def LockData.isFor (address : Option String) (lock : LockData) : Bool :=
  address.all fun target => eqIgnoreAsciiCase lock.address target

def ZkeyRow.isFor (address : Option String) (row : ZkeyRow) : Bool :=
  address.all fun target => match row.zlockmac with
    | .text mac => eqIgnoreAsciiCase mac target
    | .null | .integer _ | .other => false

/-- The first row the query keeps that is for this address. -/
def rowFor (zkey : List ZkeyRow) (address : Option String) : Option ZkeyRow :=
  (zkey.filter ZkeyRow.selected).find? (ZkeyRow.isFor address)

theorem selectLock_eq_ok_iff {locks : List LockData} {address : Option String} {lock : LockData} :
    selectLock locks address = .ok lock ↔ locks.find? (LockData.isFor address) = some lock := by
  cases address with
  | none => cases locks <;> simp [selectLock, LockData.isFor]
  | some target =>
      have hsame : LockData.isFor (some target) = fun lock => eqIgnoreAsciiCase lock.address target := rfl
      rw [selectLock, hsame]
      cases locks.find? fun lock => eqIgnoreAsciiCase lock.address target <;> simp

section

variable {hexEncode : List UInt8 → String} {base64Decode : String → Except String (List UInt8)}
  {debug : String → String} {utf8Error : List UInt8 → String} {invalidType : Nat → SqlValue → String}

/-- An imported entry has nothing that a file would lose. -/
theorem ScienerKeyRow.intoLockData_bare {row : ScienerKeyRow} {lock : LockData}
    (h : row.intoLockData hexEncode base64Decode debug utf8Error = .ok lock) :
    lock.privateData.pwdInfo = none ∧ lock.operationLog = [] := by
  simp only [intoLockData, Fallible.bind_eq_ok_iff] at h
  obtain ⟨_, -, _, -, _, -, _, -, _, -, hlock⟩ := h
  obtain rfl := Except.ok.inj hlock
  exact ⟨rfl, rfl⟩

/-- What a converted row has and becomes: its address, and the two keys. -/
theorem ZkeyRow.toLockData_eq_ok {row : ZkeyRow} {lock : LockData}
    (h : row.toLockData hexEncode base64Decode debug utf8Error invalidType = .ok lock) :
    ∃ columns, row.read invalidType = .ok columns ∧
      columns.intoLockData hexEncode base64Decode debug utf8Error = .ok lock := by
  rw [toLockData, Fallible.bind_eq_ok_iff] at h
  obtain ⟨columns, hread, hconverted⟩ := h
  exact ⟨columns, hread, Fallible.mapError_eq_ok_iff.1 hconverted⟩

theorem ZkeyRow.zlockmac_of_toLockData {row : ZkeyRow} {lock : LockData}
    (h : row.toLockData hexEncode base64Decode debug utf8Error invalidType = .ok lock) :
    row.zlockmac = .text lock.address := by
  obtain ⟨columns, hread, hconverted⟩ := ZkeyRow.toLockData_eq_ok h
  have hmac := (ScienerKeyRow.intoLockData_eq_ok hconverted).1
  simp only [read, Fallible.bind_eq_ok_iff] at hread
  obtain ⟨lockMac, hlockMac, _, -, _, -, _, -, _, -, _, -, hcolumns⟩ := hread
  obtain rfl := Except.ok.inj hcolumns
  obtain ⟨hsome, -⟩ := Option.filter_eq_some_iff.1 hmac
  dsimp only at hsome
  subst hsome
  cases hvalue : row.zlockmac with
  | text value =>
      rw [hvalue] at hlockMac
      exact congrArg SqlValue.text (Option.some.inj (Except.ok.inj hlockMac))
  | null | integer | other =>
      rw [hvalue] at hlockMac
      cases hlockMac

/-- A credential that is decoded to a number is the unlock key, unless it is zero. -/
theorem unlockKey_eq_ok_iff {text : Option String} {lock : LockData}
    (h : text.mapM (decodeBase64Credential base64Decode debug utf8Error) = .ok lock.privateData.unlockKey)
    (unlockKey : UnlockKey) :
    lock.unlockKey = .ok unlockKey ↔ ∃ t, text = some t ∧
      decodeBase64Credential base64Decode debug utf8Error t = .ok unlockKey.get := by
  rcases Fallible.optionMapM_eq_ok_iff.1 h with ⟨rfl, hmissing⟩ | ⟨t, value, rfl, hvalue, hdecoded⟩
  · rw [LockData.unlockKey, hmissing]
    exact iff_of_false (by simp) (by simp)
  · obtain ⟨hzero, hkey⟩ := LockData.unlockKey_of_some hvalue
    have hright : (∃ t', some t = some t' ∧
        decodeBase64Credential base64Decode debug utf8Error t' = .ok unlockKey.get) ↔
        value = unlockKey.get := by
      constructor
      · rintro ⟨t', ⟨⟩, heq⟩
        exact Except.ok.inj (hdecoded.symm.trans heq)
      · rintro rfl
        exact ⟨t, rfl, hdecoded⟩
    rw [hright]
    by_cases hv : value = 0
    · -- a key of zero is in the file, and is refused when it is read
      rw [hzero hv]
      exact iff_of_false (by simp) fun heq => unlockKey.ne_zero (heq ▸ hv)
    · obtain ⟨key, hok, rfl⟩ := hkey hv
      rw [hok, Except.ok.injEq]
      refine ⟨congrArg UnlockKey.get, fun heq => ?_⟩
      cases key
      cases unlockKey
      cases heq
      rfl

/-- The entries of an import go through a file unharmed. -/
theorem loadLockData_imported {json : SerdeJson} (hjson : json.Lawful) {zkey : List ZkeyRow}
    {locks : List LockData}
    (h : List.Forall₂ (fun row lock =>
      ZkeyRow.toLockData hexEncode base64Decode debug utf8Error invalidType row = .ok lock) zkey locks) :
    loadLockData json (.ok (lockFile json locks)) = .ok locks := by
  have hbare : ∀ lock ∈ locks, lock.privateData.pwdInfo = none ∧ lock.operationLog = [] := by
    intro lock hlock
    obtain ⟨row, hconverted⟩ := Fallible.exists_of_forall₂ h hlock
    obtain ⟨columns, -, hinto⟩ := ZkeyRow.toLockData_eq_ok hconverted
    exact ScienerKeyRow.intoLockData_bare hinto
  have hfileable : ∀ lock ∈ locks, lock.Fileable json := by
    intro lock hlock
    obtain ⟨hpwdInfo, hlog⟩ := hbare lock hlock
    exact ⟨by simp [hpwdInfo], by simp [hlog]⟩
  have hfiled : locks.map (LockData.filed json) = locks := by
    refine (List.map_congr_left fun lock hlock => ?_).trans (List.map_id _)
    rw [LockData.filed_eq_self_iff.2 (by simp [(hbare lock hlock).1])]
    rfl
  rw [loadLockData_lockFile hjson hfileable, hfiled]

/-- **From the app's database to a command's keys.** The text that is imported is loaded again, and for
    every address (or none) the entry that is selected is that of the first row the query keeps which is
    for it: its AES key is the bytes the row's tokens spell, and its unlock key what the row's credential
    is decoded to. Where there is no such row, nothing is selected. -/
theorem imported_file_serves {engine : HexEngine} (hengine : engine.Lawful) {json : SerdeJson}
    (hjson : json.Lawful) {zkey : List ZkeyRow} {text : String}
    (h : importCredentials json engine.encode base64Decode debug utf8Error invalidType zkey = .ok text) :
    ∃ locks, loadLockData json (.ok text) = .ok locks ∧ ∀ address,
      (rowFor zkey address = none → ∀ lock, selectLock locks address ≠ .ok lock) ∧
      ∀ row, rowFor zkey address = some row → ∃ lock columns csv key,
        selectLock locks address = .ok lock ∧ row.zlockmac = .text lock.address ∧
        row.read invalidType = .ok columns ∧
        nonBlank columns.aesKeyCsv = some csv ∧ lock.aesKey engine.decode = .ok key ∧
        List.Forall₂ SpellsHexByte (csvTokens csv) key.asBytes.toList ∧
        ∀ unlockKey, lock.unlockKey = .ok unlockKey ↔ ∃ credential,
          nonBlank columns.lockKey = some credential ∧
          decodeBase64Credential base64Decode debug utf8Error credential = .ok unlockKey.get := by
  rw [importCredentials, Fallible.bind_eq_ok_iff] at h
  obtain ⟨locks, hlocks, htext⟩ := h
  obtain rfl := Except.ok.inj htext
  rw [lockDataFromConnection, Fallible.mapM_eq_ok_iff] at hlocks
  refine ⟨locks, loadLockData_imported hjson hlocks, fun address => ?_⟩
  rcases Fallible.find?_forall₂ (p := ZkeyRow.isFor address) (q := LockData.isFor address) hlocks
    (fun row lock hconverted => by
      rw [ZkeyRow.isFor, LockData.isFor, ZkeyRow.zlockmac_of_toLockData hconverted]) with
    ⟨hnone, hnone'⟩ | ⟨row, lock, hrow, hlock, hconverted⟩
  · refine ⟨fun _ lock hlock => ?_, fun row hrow => ?_⟩
    · rw [selectLock_eq_ok_iff, hnone'] at hlock
      cases hlock
    · rw [rowFor, hnone] at hrow
      cases hrow
  · refine ⟨fun hnone => ?_, fun row' hrow' => ?_⟩
    · rw [rowFor, hrow] at hnone
      cases hnone
    · rw [rowFor, hrow] at hrow'
      obtain rfl := Option.some.inj hrow'
      obtain ⟨columns, hread, hinto⟩ := ZkeyRow.toLockData_eq_ok hconverted
      obtain ⟨-, ⟨csv, hex, hcsv, hhex, haesKey⟩, -, hunlockKey⟩ :=
        ScienerKeyRow.intoLockData_eq_ok hinto
      obtain ⟨bytes, htokens, hlen, rfl⟩ := aesKeyHexFromCsv_eq_ok hhex
      obtain ⟨key, hkey, hbytes⟩ := fromHex_encode hengine hlen
      refine ⟨lock, columns, csv, key, selectLock_eq_ok_iff.2 hlock,
        ZkeyRow.zlockmac_of_toLockData hconverted, hread, hcsv, ?_, hbytes ▸ htokens,
        unlockKey_eq_ok_iff hunlockKey⟩
      rw [LockData.aesKey, haesKey]
      exact hkey

end

/-- A row the query keeps: an administrator's key. -/
def keptZkeyRow : ZkeyRow :=
  { zlockmac := .text "AA:BB:CC:DD:EE:FF"
    zaeskeystr := .text "00,11,22,33,44,55,66,77,88,99,aa,bb,cc,dd,ee,ff"
    zadminps := .null
    zlockkey := .text "NjgsNjYsNjUsNzcsNjUsNzAsNjUsNjgsNjQsNjYsMTA="
    zautolocktime := .null
    zrssi := .integer (-60) }

/-- A database of two locks, one of them without a key. -/
def sampleZkey : List ZkeyRow :=
  [{ keptZkeyRow with zlockmac := .text "11:22:33:44:55:66", zaeskeystr := .null }, keptZkeyRow]

def sampleImportCredentials : List ZkeyRow → Except CliError String :=
  importCredentials (SerdeJson.standard id) (HexEngine.standard id).encode
    (Base64Engine.standard id).decode id (fun _ => "") fun _ _ => ""

theorem sampleImportCredentials_sampleZkey : ∃ text, sampleImportCredentials sampleZkey = .ok text := by
  have hok : (sampleImportCredentials sampleZkey).isOk = true := by decide +kernel
  cases h : sampleImportCredentials sampleZkey with
  | ok text => exact ⟨text, rfl⟩
  | error error =>
      rw [h] at hok
      cases hok

/-- An address in lower case finds the row that is kept, and its credential is the unlock key. -/
theorem imported_file_serves_kept_row : ∃ text locks lock unlockKey,
    sampleImportCredentials sampleZkey = .ok text ∧
    loadLockData (SerdeJson.standard id) (.ok text) = .ok locks ∧
    selectLock locks (some "aa:bb:cc:dd:ee:ff") = .ok lock ∧
    lock.unlockKey = .ok unlockKey ∧ unlockKey.get = 659525046 ∧
    ∀ skipped, selectLock locks (some "11:22:33:44:55:66") ≠ .ok skipped := by
  obtain ⟨text, htext⟩ := sampleImportCredentials_sampleZkey
  obtain ⟨locks, hload, hserves⟩ := imported_file_serves (HexEngine.standard_lawful id)
    (SerdeJson.standard_lawful id) htext
  have hrow : rowFor sampleZkey (some "aa:bb:cc:dd:ee:ff") = some keptZkeyRow := by decide +kernel
  obtain ⟨lock, columns, csv, key, hselect, -, hread, -, -, -, hunlockKey⟩ :=
    (hserves (some "aa:bb:cc:dd:ee:ff")).2 _ hrow
  have hlockKey : columns.lockKey = some "NjgsNjYsNjUsNzcsNjUsNzAsNjUsNjgsNjQsNjYsMTA=" := by
    simp only [ZkeyRow.read, Fallible.bind_eq_ok_iff] at hread
    obtain ⟨_, -, _, -, _, -, lockKey, hlockKey, _, -, _, -, hcolumns⟩ := hread
    obtain rfl := Except.ok.inj hcolumns
    exact (Except.ok.inj hlockKey).symm
  have hcredential : decodeBase64Credential (Base64Engine.standard id).decode id (fun _ => "")
      "NjgsNjYsNjUsNzcsNjUsNzAsNjUsNjgsNjQsNjYsMTA=" = .ok 659525046 := by decide +kernel
  have hkey : lock.unlockKey = .ok ⟨659525046, by decide⟩ :=
    (hunlockKey _).2 ⟨_, by rw [hlockKey]; decide +kernel, hcredential⟩
  exact ⟨text, locks, lock, _, htext, hload, hselect, hkey, rfl,
    (hserves (some "11:22:33:44:55:66")).1 (by decide +kernel)⟩

end TTLock
