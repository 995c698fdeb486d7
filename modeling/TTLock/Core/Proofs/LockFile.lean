import TTLock.Core.LockFile
import TTLock.Core.Proofs.Text
import TTLock.Lib.Fallible

set_option autoImplicit false

/-! # What a credential file keeps

Entries that are written are read back as they were, but for passcode metadata that is `null`, if the
JSON they keep is written and read exactly: without floating-point numbers, and not nested deeper than
the reader follows. -/

namespace TTLock

/-! ## The `serde_json` crate -/

/-- The integers that are written and read exactly. -/
def IsWide (n : Int) : Prop := -9223372036854775808 ≤ n ∧ n ≤ 18446744073709551615

/-- How many arrays and objects in one another are too many for the reader. -/
def RECURSION_LIMIT : Nat := 128

/-- A value is written and read exactly within so many arrays and objects: it has no floating-point
    numbers and no wider integers, and is not nested too deep. -/
structure IsExact (levels : Nat) (value : Json) : Prop where
  plain : value.Plain IsWide
  depth_lt : value.depth + levels < RECURSION_LIMIT

/-- It reads what it writes exactly, and a newline after it is whitespace. Arrays and objects begin with
    their brackets. -/
structure SerdeJson.Lawful (json : SerdeJson) : Prop where
  reads : ∀ value : Json, IsExact 0 value → json.fromStr (json.toStringPretty value) = .ok value
  reads_line : ∀ value : Json, IsExact 0 value →
    json.fromStr (json.toStringPretty value ++ "\n") = .ok value
  array : ∀ values, (json.toStringPretty (.array values)).toList.head? = some '['
  object : ∀ members, (json.toStringPretty (.object members)).toList.head? = some '{'

/-- One that does what the real one does to values it writes and reads exactly. -/
def SerdeJson.standard (describe : String → String) : SerdeJson where
  toStringPretty value := String.ofList value.encode
  fromStr text := match Json.decode text.toList with
    | none => .error (describe text)
    | some value => if value.depth < RECURSION_LIMIT then .ok value else .error (describe text)
  dataError := describe

theorem SerdeJson.standard_lawful (describe : String → String) : (standard describe).Lawful where
  reads value h := by
    have hdecode := @Json.decode_encode IsWide value h.plain [] nofun
    have hdepth : value.depth < RECURSION_LIMIT := h.depth_lt
    rw [List.append_nil] at hdecode
    simp only [standard, String.toList_ofList, hdecode, hdepth, if_true]
  reads_line value h := by
    have hdecode := @Json.decode_encode IsWide value h.plain ['\n']
      (List.forall_mem_singleton.2 (by decide))
    have hdepth : value.depth < RECURSION_LIMIT := h.depth_lt
    have hline : "\n".toList = ['\n'] := rfl
    simp only [standard, String.toList_append, String.toList_ofList, hline, hdecode, hdepth, if_true]
  array values := by
    obtain ⟨cs, h⟩ := Json.encode_array values
    simp only [standard, String.toList_ofList, h, List.head?_cons]
  object members := by
    obtain ⟨cs, h⟩ := Json.encode_object members
    simp only [standard, String.toList_ofList, h, List.head?_cons]

/-! ## Fields -/

section

variable {json : SerdeJson}

/-- Within fewer arrays and objects a value is exact all the more. -/
theorem IsExact.mono {levels levels' : Nat} {value : Json} (h : IsExact levels value)
    (hle : levels' ≤ levels) : IsExact levels' value :=
  ⟨h.plain, Nat.lt_of_le_of_lt (Nat.add_le_add_left hle _) h.depth_lt⟩

theorem SerdeJson.Lawful.held_kept (hjson : json.Lawful) {levels : Nat} {value : Json}
    (h : IsExact levels value) : json.held (json.kept value) = value := by
  rw [held, kept, hjson.reads value (h.mono levels.zero_le)]
  rfl

theorem SerdeJson.Lawful.held_null (hjson : json.Lawful) : json.held (json.kept .null) = .null := by
  have hnull : IsExact 0 Json.null := ⟨trivial, by decide⟩
  exact hjson.held_kept hnull

/-- A text that is kept for a value. In a file, the list of entries, the entry and its log (or its
    secret half) are around the value. -/
def SerdeJson.IsKept (json : SerdeJson) (text : String) : Prop :=
  ∃ value : Json, IsExact 3 value ∧ text = json.kept value

theorem SerdeJson.Lawful.kept_held (hjson : json.Lawful) {text : String} (htext : json.IsKept text) :
    json.kept (json.held text) = text ∧ IsExact 3 (json.held text) := by
  obtain ⟨value, hvalue, rfl⟩ := htext
  rw [hjson.held_kept hvalue]
  exact ⟨rfl, hvalue⟩

theorem readI32_toInt (n : Int32) : readI32 (.int n.toInt) = some n := by
  have hrange : -2147483648 ≤ n.toInt ∧ n.toInt ≤ 2147483647 := by
    have hlow := n.le_toInt
    have hhigh := n.toInt_lt
    constructor <;> omega
  rw [readI32, if_pos hrange, Int32.ofInt_toInt]

theorem readU32_toNat (n : UInt32) : readU32 (.int n.toNat) = some n := by
  have hrange : (0 : Int) ≤ n.toNat ∧ (n.toNat : Int) ≤ 4294967295 := by
    have hlt := n.toNat_lt
    constructor <;> omega
  rw [readU32, if_pos hrange, Int.toNat_natCast, UInt32.ofNat_toNat]

theorem readOption_of_ne_null {α : Type} (read : Json → Option α) {value : Json} (h : value ≠ .null) :
    readOption read value = (read value).map some := by
  cases value with
  | null => exact absurd rfl h
  | bool | int | float | text | array | object => rfl

/-- What is written for a value that is not `null` itself is read back. -/
theorem readOption_write {α : Type} {read : Json → Option α} {write : α → Json}
    (hread : ∀ a, read (write a) = some a) (hnull : ∀ a, write a ≠ .null) (value : Option α) :
    readOption read (writeOption write value) = some value := by
  cases value with
  | none => rfl
  | some a => rw [writeOption, readOption_of_ne_null read (hnull a), hread, Option.map_some]

theorem readOption_text (value : Option String) :
    readOption readString (writeOption Json.text value) = some value := by
  have hnull : ∀ text, Json.text text ≠ .null := nofun
  have hread : ∀ text, readString (.text text) = some text := fun _ => rfl
  exact readOption_write hread hnull value

theorem readOption_number (value : Option UInt32) :
    readOption readU32 (writeOption (fun value => .int value.toNat) value) = some value := by
  have hnull : ∀ n : UInt32, Json.int n.toNat ≠ .null := nofun
  exact readOption_write readU32_toNat hnull value

/-! ## Entries -/

/-- What becomes of the secret half of an entry in a file: passcode metadata that is `null` is no
    longer there. -/
def PrivateData.filed (json : SerdeJson) (self : PrivateData) : PrivateData :=
  { self with pwdInfo := self.pwdInfo.filter fun text => text ≠ json.kept .null }

def LockData.filed (json : SerdeJson) (self : LockData) : LockData :=
  { self with privateData := self.privateData.filed json }

/-- The JSON values an entry keeps can be written and read: they have no floating-point numbers, and are
    nested in less than 125 levels. -/
structure LockData.Fileable (json : SerdeJson) (lock : LockData) : Prop where
  pwdInfo : ∀ text, lock.privateData.pwdInfo = some text → json.IsKept text
  operationLog : ∀ text ∈ lock.operationLog, json.IsKept text

theorem readPwdInfo_write (hjson : json.Lawful) {pwdInfo : Option String}
    (hkept : ∀ text, pwdInfo = some text → json.IsKept text) :
    readOption (fun value => some (json.kept value)) (writeOption json.held pwdInfo) =
      some (pwdInfo.filter fun text => text ≠ json.kept .null) := by
  cases pwdInfo with
  | none => rfl
  | some text =>
      obtain ⟨value, hvalue, rfl⟩ := hkept text rfl
      rw [writeOption, hjson.held_kept hvalue]
      by_cases hnull : value = .null
      · subst hnull
        rw [Option.filter_some_neg (by simp)]
        rfl
      · have hne : json.kept value ≠ json.kept .null := by
          intro heq
          have hheld := congrArg json.held heq
          rw [hjson.held_kept hvalue, hjson.held_null] at hheld
          exact hnull hheld
        rw [readOption_of_ne_null _ hnull, Option.filter_some_pos (by simpa using hne)]
        rfl

theorem PrivateData.deserialize_serialize (hjson : json.Lawful) {self : PrivateData}
    (hkept : ∀ text, self.pwdInfo = some text → json.IsKept text) :
    PrivateData.deserialize json (self.serialize json) = some (self.filed json) := by
  simp [deserialize, serialize, readFields, readField, readOption_text, readOption_number,
    readPwdInfo_write hjson hkept, filed]

theorem readVec_write {α : Type} {read : Json → Option α} {write : α → Json} {filed : α → α}
    {as : List α} (h : ∀ a ∈ as, read (write a) = some (filed a)) :
    readVec read (.array (as.map write)) = some (as.map filed) := by
  induction as with
  | nil => rfl
  | cons a as ih =>
      obtain ⟨ha, has⟩ := List.forall_mem_cons.1 h
      have htail : (as.map write).mapM read = some (as.map filed) := ih has
      simp only [readVec, List.map_cons, List.mapM_cons, ha, htail, Option.bind_eq_bind, Option.bind_some,
        Option.pure_def]

theorem readOperationLog_write (hjson : json.Lawful) {operationLog : List String}
    (hkept : ∀ text ∈ operationLog, json.IsKept text) :
    readVec (fun value => some (json.kept value)) (.array (operationLog.map json.held)) =
      some operationLog := by
  have hread : ∀ text ∈ operationLog, some (json.kept (json.held text)) = some (id text) :=
    fun text htext => congrArg some (hjson.kept_held (hkept text htext)).1
  have hlog := @readVec_write String (fun value => some (json.kept value)) json.held id operationLog hread
  rwa [List.map_id] at hlog

/-- **An entry that is written is read back**, but for passcode metadata that is `null`. -/
theorem LockData.deserialize_serialize (hjson : json.Lawful) {lock : LockData} (h : lock.Fileable json) :
    LockData.deserialize json (lock.serialize json) = some (lock.filed json) := by
  have hprivate := PrivateData.deserialize_serialize hjson h.pwdInfo
  simp [deserialize, serialize, readFields, readField, readString, readI32_toInt, hprivate,
    readOperationLog_write hjson h.operationLog, filed]

theorem exact_writeOption {levels : Nat} (hlevels : levels < RECURSION_LIMIT) {α : Type} {write : α → Json}
    {value : Option α} (h : ∀ a, value = some a → IsExact levels (write a)) :
    IsExact levels (writeOption write value) := by
  cases value with
  | none => exact ⟨trivial, by simpa [writeOption, Json.depth] using hlevels⟩
  | some a => exact h a rfl

theorem exact_items {levels : Nat} (hlevels : levels < RECURSION_LIMIT) {values : List Json}
    (h : ∀ value ∈ values, IsExact levels value) :
    Json.PlainItems IsWide values ∧ Json.depthItems values + levels < RECURSION_LIMIT := by
  induction values with
  | nil => exact ⟨trivial, by simpa [Json.depthItems] using hlevels⟩
  | cons value values ih =>
      obtain ⟨hvalue, hvalues⟩ := List.forall_mem_cons.1 h
      obtain ⟨hplain, hdepth⟩ := ih hvalues
      have := hvalue.depth_lt
      refine ⟨⟨hvalue.plain, hplain⟩, ?_⟩
      rw [Json.depthItems]
      omega

theorem exact_array {levels : Nat} (hlevels : levels + 1 < RECURSION_LIMIT) {values : List Json}
    (h : ∀ value ∈ values, IsExact (levels + 1) value) : IsExact levels (Json.array values) := by
  obtain ⟨hplain, hdepth⟩ := exact_items hlevels h
  refine ⟨hplain, ?_⟩
  rw [Json.depth]
  omega

theorem exact_object {levels : Nat} (hlevels : levels + 1 < RECURSION_LIMIT)
    {members : List (String × Json)} (h : ∀ member ∈ members, IsExact (levels + 1) member.2) :
    IsExact levels (Json.object members) := by
  obtain ⟨hplain, hdepth⟩ := exact_items hlevels (List.forall_mem_map.2 h)
  refine ⟨Json.plainMembers_iff.2 hplain, ?_⟩
  rw [Json.depth, Json.depthMembers_eq]
  omega

theorem isWide_i32 (n : Int32) : IsWide n.toInt := by
  have hlow := n.le_toInt
  have hhigh := n.toInt_lt
  constructor <;> omega

theorem isWide_u32 (n : UInt32) : IsWide n.toNat := by
  have hlt := n.toNat_lt
  constructor <;> omega

theorem exact_text (text : String) : IsExact 3 (Json.text text) :=
  ⟨trivial, show 0 + 3 < RECURSION_LIMIT by decide⟩

theorem exact_int {n : Int} (h : IsWide n) : IsExact 3 (Json.int n) :=
  ⟨h, show 0 + 3 < RECURSION_LIMIT by decide⟩

/-- The secret half, within an entry of a list. -/
theorem PrivateData.exact_serialize (hjson : json.Lawful) {self : PrivateData}
    (hkept : ∀ text, self.pwdInfo = some text → json.IsKept text) : IsExact 2 (self.serialize json) := by
  have htext : ∀ value : Option String, IsExact 3 (writeOption Json.text value) := fun value =>
    exact_writeOption (by decide) fun text _ => exact_text text
  have hnumber : ∀ value : Option UInt32, IsExact 3 (writeOption (fun n => Json.int n.toNat) value) :=
    fun value => exact_writeOption (by decide) fun n _ => exact_int (isWide_u32 n)
  have hpwdInfo : IsExact 3 (writeOption json.held self.pwdInfo) :=
    exact_writeOption (by decide) fun text htext => (hjson.kept_held (hkept text htext)).2
  refine exact_object (by decide) ?_
  simp only [List.forall_mem_cons]
  exact ⟨htext _, hnumber _, hnumber _, htext _, hpwdInfo, by simp⟩

/-- An entry, within a list. -/
theorem LockData.exact_serialize (hjson : json.Lawful) {lock : LockData} (h : lock.Fileable json) :
    IsExact 1 (lock.serialize json) := by
  have hint : ∀ n : Int32, IsExact 2 (Json.int n.toInt) := fun n =>
    (exact_int (isWide_i32 n)).mono (by decide)
  have hlog : IsExact 2 (Json.array (lock.operationLog.map json.held)) := by
    refine exact_array (by decide) (List.forall_mem_map.2 fun text htext => ?_)
    exact (hjson.kept_held (h.operationLog text htext)).2
  refine exact_object (by decide) ?_
  simp only [List.forall_mem_cons]
  exact ⟨(exact_text _).mono (by decide), hint _, hint _, hint _, hint _,
    PrivateData.exact_serialize hjson h.pwdInfo, hlog, by simp⟩

/-! ## Files -/

/-- A text that begins with a bracket begins with it when it is trimmed. -/
theorem head?_trimmed {text : String} {c : Char} (h : text.toList.head? = some c)
    (hc : isWhitespace c = false) (more : String) :
    ((text ++ more).toList.dropWhile isWhitespace).head? = some c := by
  rw [String.toList_append]
  cases hcs : text.toList with
  | nil =>
      rw [hcs] at h
      cases h
  | cons c' cs =>
      rw [hcs] at h
      obtain rfl := Option.some.inj h
      rw [List.cons_append, List.dropWhile_cons_of_neg (by simp [hc])]
      rfl

theorem loadLockData_lockFile (hjson : json.Lawful) {locks : List LockData}
    (h : ∀ lock ∈ locks, lock.Fileable json) :
    loadLockData json (.ok (lockFile json locks)) = .ok (locks.map (LockData.filed json)) := by
  have hexact : IsExact 0 (Json.array (locks.map (LockData.serialize json))) :=
    exact_array (by decide) (List.forall_mem_map.2 fun lock hlock =>
      LockData.exact_serialize hjson (h lock hlock))
  have hbracket := head?_trimmed (hjson.array (locks.map (LockData.serialize json))) (by decide) "\n"
  have hread := readVec_write fun lock hlock => LockData.deserialize_serialize hjson (h lock hlock)
  simp only [loadLockData, lockFile, Except.mapError, bind, Except.bind, hbracket, if_true,
    SerdeJson.parse, hjson.reads_line _ hexact, hread]

/-- One entry by itself is read as the list of it. -/
theorem loadLockData_object (hjson : json.Lawful) {lock : LockData} (h : lock.Fileable json) :
    loadLockData json (.ok (json.toStringPretty (lock.serialize json) ++ "\n")) =
      .ok [lock.filed json] := by
  have hobject : (json.toStringPretty (lock.serialize json)).toList.head? = some '{' := hjson.object _
  have hbracket := head?_trimmed hobject (by decide) "\n"
  -- so the text is not taken for a list
  have hne : some '{' ≠ some '[' := by decide
  simp only [loadLockData, Except.mapError, bind, Except.bind, hbracket, hne, if_false, SerdeJson.parse,
    hjson.reads_line _ ((LockData.exact_serialize hjson h).mono (by decide)),
    LockData.deserialize_serialize hjson h]
  rfl

theorem LockData.filed_eq_self_iff {lock : LockData} :
    lock.filed json = lock ↔ lock.privateData.pwdInfo ≠ some (json.kept .null) := by
  have hfiled : lock.filed json = lock ↔
      lock.privateData.pwdInfo.filter (fun text => text ≠ json.kept .null) = lock.privateData.pwdInfo := by
    refine ⟨fun h => congrArg (fun lock => lock.privateData.pwdInfo) h, fun h => ?_⟩
    rw [filed, PrivateData.filed, h]
  rw [hfiled]
  cases lock.privateData.pwdInfo with
  | none => simp
  | some text => simp [Option.filter_some]

/-- **What a file keeps.** Entries that are written to a file are read back as they are iff none has
    passcode metadata that is `null`: that alone is lost, and an entry keeps everything else. An entry by
    itself is read like the list of it. -/
theorem lockFile_round_trip (hjson : json.Lawful) {locks : List LockData}
    (h : ∀ lock ∈ locks, lock.Fileable json) :
    (loadLockData json (.ok (lockFile json locks)) = .ok locks ↔
      ∀ lock ∈ locks, lock.privateData.pwdInfo ≠ some (json.kept .null)) ∧
    (∃ locks', loadLockData json (.ok (lockFile json locks)) = .ok locks' ∧
      List.Forall₂ (fun lock lock' => lock = { lock' with privateData := {
        lock'.privateData with pwdInfo := lock.privateData.pwdInfo } }) locks locks') ∧
    ∀ lock ∈ locks, loadLockData json (.ok (json.toStringPretty (lock.serialize json) ++ "\n")) =
      loadLockData json (.ok (lockFile json [lock])) := by
  have hload := loadLockData_lockFile hjson h
  refine ⟨?_, ⟨_, hload, ?_⟩, fun lock hlock => ?_⟩
  · rw [hload, Except.ok.injEq]
    constructor
    · intro hsame lock hlock
      have hself := (List.map_inj_left (g := id)).1 (hsame.trans (List.map_id _).symm) lock hlock
      exact LockData.filed_eq_self_iff.1 hself
    · intro hnull
      refine (List.map_congr_left fun lock hlock => ?_).trans (List.map_id _)
      exact LockData.filed_eq_self_iff.2 (hnull lock hlock)
  · exact List.forall₂_map_right_iff.2 (List.forall₂_same.2 fun lock _ => rfl)
  · have hlock' : ∀ lock' ∈ [lock], lock'.Fileable json := by simpa using h lock hlock
    have hone := loadLockData_lockFile hjson hlock'
    rw [loadLockData_object hjson (h lock hlock), hone]
    rfl

end

/-- An entry with a record in its log, and this passcode metadata. -/
def sampleLockData (pwdInfo : Option Json) : LockData :=
  { address := "AA:BB:CC:DD:EE:FF"
    privateData := {
      aesKey := some "00112233445566778899aabbccddeeff"
      unlockKey := some 12345678
      adminPs := some 12345678
      pwdInfo := pwdInfo.map (SerdeJson.standard id).kept }
    operationLog := [(SerdeJson.standard id).kept (.object [("recordType", .int 1)])] }

theorem sampleLockData_fileable {pwdInfo : Option Json}
    (hexact : ∀ value, pwdInfo = some value → IsExact 3 value) :
    (sampleLockData pwdInfo).Fileable (SerdeJson.standard id) := by
  refine ⟨fun text htext => ?_, fun text htext => ?_⟩
  · obtain ⟨value, hvalue, rfl⟩ := Option.map_eq_some_iff.1 htext
    exact ⟨value, hexact value hvalue, rfl⟩
  · obtain rfl := List.mem_singleton.1 htext
    have hrecord : IsExact 3 (.object [("recordType", .int 1)]) :=
      ⟨⟨by constructor <;> decide, trivial⟩, by decide⟩
    exact ⟨_, hrecord, rfl⟩

/-- `null` is lost, and an empty list is not. -/
theorem lockFile_loses_null :
    loadLockData (SerdeJson.standard id)
        (.ok (lockFile (SerdeJson.standard id) [sampleLockData (some .null)])) ≠
      .ok [sampleLockData (some .null)] ∧
    loadLockData (SerdeJson.standard id)
        (.ok (lockFile (SerdeJson.standard id) [sampleLockData (some (.array []))])) =
      .ok [sampleLockData (some (.array []))] := by
  have hjson := SerdeJson.standard_lawful id
  have hnull : ∀ lock ∈ [sampleLockData (some .null)], lock.Fileable (SerdeJson.standard id) :=
    List.forall_mem_singleton.2 (sampleLockData_fileable (by rintro _ ⟨⟩; exact ⟨trivial, by decide⟩))
  have hlist : ∀ lock ∈ [sampleLockData (some (.array []))], lock.Fileable (SerdeJson.standard id) :=
    List.forall_mem_singleton.2 (sampleLockData_fileable (by rintro _ ⟨⟩; exact ⟨trivial, by decide⟩))
  refine ⟨fun h => ?_, (lockFile_round_trip hjson hlist).1.2 (List.forall_mem_singleton.2 ?_)⟩
  · exact (lockFile_round_trip hjson hnull).1.1 h _ List.mem_cons_self rfl
  · decide

end TTLock
