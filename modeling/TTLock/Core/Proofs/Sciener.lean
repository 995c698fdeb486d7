import TTLock.Core.Proofs.Credential
import TTLock.Core.Sciener
import TTLock.Lib.Fallible

set_option autoImplicit false

/-! # An imported entry can be used

What the importer writes into an entry is what the accessors of the entry read out of it: the key
through two renderings in hexadecimal, and the unlock key as it was decoded. The importer does not ask
what the accessors ask, though: zero is decoded like any other value and refused when it is used. -/

namespace TTLock

/-! ## Tokens -/

/-- A token of hexadecimal digits, perhaps with a plus sign in front, and the byte they spell. -/
def SpellsHexByte (token : String) (byte : UInt8) : Prop :=
  digitsOf token.toList ≠ [] ∧
    ∃ values, List.Forall₂ (fun c n => Hex.value c = some n) (digitsOf token.toList) values ∧
      values.foldl (fun acc n => acc * 16 + n) 0 = byte.toNat

theorem u8FromHex_scan {value : Nat} {digits : List Char} {byte : UInt8} (hvalue : value ≤ 255)
    (h : u8FromHex.scan value digits = .ok byte) :
    ∃ values, List.Forall₂ (fun c n => Hex.value c = some n) digits values ∧
      values.foldl (fun acc n => acc * 16 + n) value = byte.toNat := by
  induction digits generalizing value with
  | nil =>
      have hbyte : UInt8.ofNat value = byte := Except.ok.inj h
      refine ⟨[], .nil, ?_⟩
      rw [← hbyte, UInt8.toNat_ofNat', Nat.mod_eq_of_lt (by omega)]
      rfl
  | cons c rest ih =>
      rw [u8FromHex.scan] at h
      cases hdigit : Hex.value c with
      | none => simp [hdigit] at h
      | some digit =>
          simp only [hdigit] at h
          split at h
          · simp at h
          · obtain ⟨values, hvalues, hfold⟩ := ih (by omega) h
            exact ⟨digit :: values, .cons hdigit hvalues, hfold⟩

theorem spellsHexByte_of_u8FromHex {token : String} {byte : UInt8} (h : u8FromHex token = .ok byte) :
    SpellsHexByte token byte := by
  rw [u8FromHex] at h
  rw [SpellsHexByte]
  split at h
  · simp at h
  · simp at h
  · next digits hne hchars =>
      rw [hchars, digitsOf]
      exact ⟨hne, u8FromHex_scan (by decide) h⟩
  · next digits hempty _ hplus =>
      have hdigits : token.toList = digitsOf token.toList := by
        rcases digitsOf_cases token.toList with hsame | hsigned
        · exact hsame
        · exact absurd hsigned (hplus _)
      rw [← hdigits]
      exact ⟨hempty, u8FromHex_scan (by decide) h⟩

/-! ## Hexadecimal engines -/

/-- The `hex` crate. -/
structure HexEngine where
  encode : List UInt8 → String
  decode : String → Except String (List UInt8)

/-- It inverts its own encoding, which is a text of hexadecimal digits. -/
structure HexEngine.Lawful (engine : HexEngine) : Prop where
  decode_encode : ∀ bytes, engine.decode (engine.encode bytes) = .ok bytes
  digits : ∀ bytes, ∀ c ∈ (engine.encode bytes).toList, (Hex.value c).isSome = true

/-- The real one, but for the texts of its errors. -/
def HexEngine.standard (describe : String → String) : HexEngine where
  encode bytes := String.ofList (Hex.encode bytes)
  decode text := match Hex.decode text.toList with
    | none => .error (describe text)
    | some bytes => .ok bytes

theorem HexEngine.standard_lawful (describe : String → String) : (standard describe).Lawful where
  decode_encode bytes := by
    rw [standard]
    dsimp only
    rw [String.toList_ofList, Hex.decode_encode]
  digits bytes := by
    rw [standard]
    dsimp only
    rw [String.toList_ofList]
    exact fun c hc => Hex.isSome_value_of_mem_encode hc

/-- A digit survives what `AesKey.fromHex` takes out. -/
theorem kept_of_hexDigit {c : Char} (h : (Hex.value c).isSome = true) :
    isWhitespace c = false ∧ c ≠ ':' := by
  have hrange : 48 ≤ c.toNat ∧ c.toNat ≤ 57 ∨ 97 ≤ c.toNat ∧ c.toNat ≤ 102 ∨
      65 ≤ c.toNat ∧ c.toNat ≤ 70 := by
    simp only [Hex.value] at h
    split at h
    · next hc => exact .inl hc
    · split at h
      · next hc => exact .inr (.inl hc)
      · split at h
        · next hc => exact .inr (.inr hc)
        · simp at h
  refine ⟨isWhitespace_of_printable (by omega) (by omega), ?_⟩
  rintro rfl
  have hcolon : ':'.toNat = 58 := rfl
  omega

/-- **The key is read back** from what the engine wrote of sixteen bytes. -/
theorem fromHex_encode {engine : HexEngine} (hengine : engine.Lawful) {bytes : List UInt8}
    (hlen : bytes.length = 16) :
    ∃ key, AesKey.fromHex engine.decode (engine.encode bytes) = .ok key ∧ key.asBytes.toList = bytes := by
  have hkept : (engine.encode bytes).toList.filter (fun c => !isWhitespace c && c != ':') =
      (engine.encode bytes).toList := by
    refine List.filter_eq_self.2 fun c hc => ?_
    obtain ⟨hspace, hcolon⟩ := kept_of_hexDigit (hengine.digits bytes c hc)
    simp [hspace, hcolon]
  refine ⟨⟨⟨bytes.toArray, by simpa using hlen⟩⟩, ?_, rfl⟩
  simp only [AesKey.fromHex, hkept, String.ofList_toList, hengine.decode_encode]
  exact dif_pos hlen

/-! ## Rows -/

theorem aesKeyHexFromCsv_eq_ok {hexEncode : List UInt8 → String} {debug : String → String}
    {csv hex : String} (h : aesKeyHexFromCsv hexEncode debug csv = .ok hex) :
    ∃ bytes, List.Forall₂ SpellsHexByte (csvTokens csv) bytes ∧ bytes.length = 16 ∧
      hex = hexEncode bytes := by
  rw [aesKeyHexFromCsv, Fallible.bind_eq_ok_iff] at h
  obtain ⟨bytes, hbytes, h⟩ := h
  rw [Fallible.mapM_eq_ok_iff] at hbytes
  refine ⟨bytes, hbytes.imp fun token byte hbyte => ?_, ?_⟩
  · exact spellsHexByte_of_u8FromHex (Fallible.mapError_eq_ok_iff.1 hbyte)
  · split at h
    · next hlen => exact ⟨hlen, (Except.ok.inj h).symm⟩
    · simp [throw, throwThe, MonadExceptOf.throw] at h

section Rows

variable {hexEncode : List UInt8 → String} {base64Decode : String → Except String (List UInt8)}
  {debug : String → String} {utf8Error : List UInt8 → String}

theorem okOr_eq_ok_iff {α : Type} {value : Option α} {error : TtlockError} {a : α} :
    okOr value error = .ok a ↔ value = some a := by
  cases value <;> simp [okOr]

/-- **What a row that is converted has**, and what it becomes. -/
theorem ScienerKeyRow.intoLockData_eq_ok {self : ScienerKeyRow} {lock : LockData}
    (h : self.intoLockData hexEncode base64Decode debug utf8Error = .ok lock) :
    nonBlank self.lockMac = some lock.address ∧
    (∃ csv hex, nonBlank self.aesKeyCsv = some csv ∧ aesKeyHexFromCsv hexEncode debug csv = .ok hex ∧
      lock.privateData.aesKey = some hex) ∧
    (nonBlank self.adminPs).mapM (decodeBase64Credential base64Decode debug utf8Error) =
      .ok lock.privateData.adminPs ∧
    (nonBlank self.lockKey).mapM (decodeBase64Credential base64Decode debug utf8Error) =
      .ok lock.privateData.unlockKey := by
  simp only [intoLockData, Fallible.bind_eq_ok_iff] at h
  obtain ⟨mac, hmac, hex?, hhex, hex, hsome, adminPs, hadminPs, unlockKey, hunlockKey, hlock⟩ := h
  obtain rfl := Except.ok.inj hlock
  rw [okOr_eq_ok_iff] at hmac hsome
  subst hsome
  refine ⟨hmac, ?_, hadminPs, hunlockKey⟩
  rcases Fallible.optionMapM_eq_ok_iff.1 hhex with ⟨-, hnone⟩ | ⟨csv, hex', hcsv, heq, hok⟩
  · simp at hnone
  · obtain rfl := Option.some.inj heq
    exact ⟨csv, hex, hcsv, hok, rfl⟩

/-- What the accessor makes of a decoded value. -/
theorem LockData.unlockKey_of_some {lock : LockData} {value : UInt32}
    (h : lock.privateData.unlockKey = some value) :
    (value = 0 → lock.unlockKey = .error .invalidUnlockKey) ∧
      (value ≠ 0 → ∃ key, lock.unlockKey = .ok key ∧ key.get = value) := by
  rw [unlockKey, h]
  dsimp only
  refine ⟨?_, fun hne => ?_⟩
  · rintro rfl
    rfl
  · rw [UnlockKey.new, dif_pos hne]
    exact ⟨⟨value, hne⟩, rfl, rfl⟩

/-- **An imported entry can be used**, unless its unlock key is zero. Its AES key is the bytes that the
    tokens of the row spell, in order; its unlock key is what the column is decoded to, if that is not
    zero; and it is missing only where the column is absent or blank. -/
theorem imported_entry_usable {engine : HexEngine} (hengine : engine.Lawful) {row : ScienerKeyRow}
    {lock : LockData}
    (h : row.intoLockData engine.encode base64Decode debug utf8Error = .ok lock) :
    (∃ csv key, nonBlank row.aesKeyCsv = some csv ∧ lock.aesKey engine.decode = .ok key ∧
      List.Forall₂ SpellsHexByte (csvTokens csv) key.asBytes.toList) ∧
    (∀ text, nonBlank row.lockKey = some text →
      ∃ value, decodeBase64Credential base64Decode debug utf8Error text = .ok value ∧
        (value = 0 → lock.unlockKey = .error .invalidUnlockKey) ∧
        (value ≠ 0 → ∃ key, lock.unlockKey = .ok key ∧ key.get = value)) ∧
    (lock.unlockKey = .error (.missingLockData "private_data.unlock_key") ↔
      nonBlank row.lockKey = none) := by
  obtain ⟨-, ⟨csv, hex, hcsv, hhex, haesKey⟩, -, hunlockKey⟩ := ScienerKeyRow.intoLockData_eq_ok h
  obtain ⟨bytes, htokens, hlen, rfl⟩ := aesKeyHexFromCsv_eq_ok hhex
  obtain ⟨key, hkey, hbytes⟩ := fromHex_encode hengine hlen
  refine ⟨⟨csv, key, hcsv, ?_, hbytes ▸ htokens⟩, ?_, ?_⟩
  · rw [LockData.aesKey, haesKey]
    exact hkey
  · intro text htext
    rcases Fallible.optionMapM_eq_ok_iff.1 hunlockKey with
      ⟨hnone, -⟩ | ⟨text', value, htext', hvalue, hdecoded⟩
    · simp [htext] at hnone
    · obtain rfl := Option.some.inj (htext.symm.trans htext')
      exact ⟨value, hdecoded, LockData.unlockKey_of_some hvalue⟩
  · rcases Fallible.optionMapM_eq_ok_iff.1 hunlockKey with
      ⟨hnone, hmissing⟩ | ⟨text, value, htext, hvalue, -⟩
    · refine iff_of_true ?_ hnone
      rw [LockData.unlockKey, hmissing]
    · obtain ⟨hzero, hkey⟩ := LockData.unlockKey_of_some hvalue
      refine iff_of_false (fun hmissing => ?_) (by simp [htext])
      by_cases hv : value = 0
      · simp [hzero hv] at hmissing
      · obtain ⟨key, hkey, -⟩ := hkey hv
        simp [hkey] at hmissing

end Rows

/-- The row of the source's own tests, with the spellings they try. -/
def sampleRow (lockKey : Option String) : ScienerKeyRow :=
  { lockMac := some "AA:BB:CC:DD:EE:FF"
    aesKeyCsv := some " 0A, 0b ,0C,0d,0e,0f,10,11,12,13,14,15,16,17,18,19"
    adminPs := some "NjgsNjYsNjUsNzcsNjUsNzAsNjUsNjgsNjQsNjYsMTA="
    lockKey
    autoLockTime := some 5
    rssi := some (-60) }

/-- Its entry, with the unlock key. -/
def sampleEntry (unlockKey : Option UInt32) : LockData :=
  { address := "AA:BB:CC:DD:EE:FF"
    battery := -1
    rssi := -60
    autoLockTime := 5
    lockedStatus := -1
    privateData := {
      aesKey := some "0a0b0c0d0e0f10111213141516171819"
      adminPs := some 659525046
      unlockKey } }

/-- An administrator's row. -/
theorem imported_admin_entry_usable :
    let row := sampleRow (some "NjgsNjYsNjUsNzcsNjUsNzAsNjUsNjgsNjQsNjYsMTA=")
    let lock := sampleEntry (some 659525046)
    let decode := decodeBase64Credential (Base64Engine.standard id).decode id fun _ => ""
    (∃ csv key, nonBlank row.aesKeyCsv = some csv ∧
      lock.aesKey (HexEngine.standard id).decode = .ok key ∧
      List.Forall₂ SpellsHexByte (csvTokens csv) key.asBytes.toList) ∧
    (∀ text, nonBlank row.lockKey = some text → ∃ value, decode text = .ok value ∧
      (value = 0 → lock.unlockKey = .error .invalidUnlockKey) ∧
      (value ≠ 0 → ∃ key, lock.unlockKey = .ok key ∧ key.get = value)) ∧
    (lock.unlockKey = .error (.missingLockData "private_data.unlock_key") ↔
      nonBlank row.lockKey = none) := by
  intro row lock decode
  have himport : row.intoLockData (HexEngine.standard id).encode (Base64Engine.standard id).decode id
      (fun _ => "") = .ok lock := by decide +kernel
  exact imported_entry_usable (HexEngine.standard_lawful id) himport

/-- A credential that is decoded to zero is imported and then refused. -/
theorem zero_key_imported :
    let row := sampleRow (some "MTEwLDA=")
    let lock := sampleEntry (some 0)
    row.intoLockData (HexEngine.standard id).encode (Base64Engine.standard id).decode id
      (fun _ => "") = .ok lock ∧
    nonBlank row.lockKey = some "MTEwLDA=" ∧
    decodeBase64Credential (Base64Engine.standard id).decode id (fun _ => "") "MTEwLDA=" = .ok 0 ∧
    lock.unlockKey = .error .invalidUnlockKey := by
  intro row lock
  exact ⟨by decide +kernel, by decide +kernel, by decide +kernel, rfl⟩

end TTLock
