import TTLock.Core.Proofs.Ops

set_option autoImplicit false

/-! # What the checksum catches

The checksum looks the table up once for every byte. Two runs over data that differ in one byte look it
up at different indices there, and at every later byte as long as what they found differs. The entry
at index 33 is the one that makes two entries equal, so a changed byte is masked exactly if the two
runs meet at indices 33 and 79. -/

namespace TTLock

variable {C : Cipher}

/-! ## The table -/

/-- Different indices with the same entry. -/
def ShareEntry (p q : UInt8) : Prop := (p = 33 ∧ q = 79) ∨ (p = 79 ∧ q = 33)

instance (p q : UInt8) : Decidable (ShareEntry p q) :=
  inferInstanceAs (Decidable ((p = 33 ∧ q = 79) ∨ (p = 79 ∧ q = 33)))

/-- One shift of the CRC register taken back: an entry of the table is its index after eight shifts. -/
def unshift (c : Nat) : Nat := if 128 ≤ c then (c ^^^ 0x8c) * 2 + 1 else c * 2

theorem unshift_tableValue :
    ∀ p < 256, Nat.repeat unshift 8 (tableValue p).toNat = if p = 33 then 79 else p := by
  decide +kernel

theorem tableValue_eq_iff {p q : UInt8} :
    tableValue p.toNat = tableValue q.toNat ↔ p = q ∨ ShareEntry p q := by
  constructor
  · intro h
    have hp := unshift_tableValue p.toNat p.toNat_lt
    have hq := unshift_tableValue q.toNat q.toNat_lt
    rw [h, hq] at hp
    simp only [ShareEntry, ← UInt8.toNat_inj, UInt8.reduceToNat]
    split at hp <;> split at hp <;> omega
  · rintro (rfl | ⟨rfl, rfl⟩ | ⟨rfl, rfl⟩)
    · rfl
    · decide +kernel
    · decide +kernel

/-! ## Two runs of the checksum -/

/-- The index the checksum looks up for the byte at position `k`. -/
def crcIndex (data : List UInt8) (k : Nat) : UInt8 := crc8 (data.take k) ^^^ data[k]?.getD 0

theorem crc8_take_succ {data : List UInt8} {k : Nat} (hk : k < data.length) :
    crc8 (data.take (k + 1)) = tableValue (crcIndex data k).toNat := by
  rw [List.take_succ_eq_append_getElem hk, crc8, List.foldl_append, List.foldl_cons, List.foldl_nil,
    crcIndex, List.getElem?_eq_getElem hk]
  rfl

/-- **A changed byte and the checksum.** Of two frames that differ at position `i` only, the checksums
    of everything before a later position `m` agree iff at some position in between the two runs look
    up different indices that share their entry. -/
theorem crc8_take_eq_iff {data data' : List UInt8} (hlen : data'.length = data.length) {i : Nat}
    (hsame : ∀ k, k ≠ i → data'[k]? = data[k]?) (hdiff : data'[i]? ≠ data[i]?) {m : Nat}
    (him : i < m) (hm : m ≤ data.length) :
    crc8 (data'.take m) = crc8 (data.take m) ↔
      ∃ k, k < m ∧ i ≤ k ∧ ShareEntry (crcIndex data' k) (crcIndex data k) := by
  induction m with
  | zero => omega
  | succ m ih =>
      rw [crc8_take_succ (by omega), crc8_take_succ (by omega), tableValue_eq_iff]
      have hsplit : (∃ k, k < m + 1 ∧ i ≤ k ∧ ShareEntry (crcIndex data' k) (crcIndex data k)) ↔
          (∃ k, k < m ∧ i ≤ k ∧ ShareEntry (crcIndex data' k) (crcIndex data k)) ∨
            ShareEntry (crcIndex data' m) (crcIndex data m) := by
        constructor
        · rintro ⟨k, hkm, hik, hshare⟩
          by_cases h : k = m
          · exact .inr (h ▸ hshare)
          · exact .inl ⟨k, by omega, hik, hshare⟩
        · rintro (⟨k, hkm, hik, hshare⟩ | hshare)
          · exact ⟨k, by omega, hik, hshare⟩
          · exact ⟨m, by omega, by omega, hshare⟩
      rw [hsplit]
      refine or_congr ?_ Iff.rfl
      by_cases h : m = i
      · -- the runs agree up to the changed byte
        subst h
        have hprefix : data'.take m = data.take m := by
          refine List.ext_getElem? fun k => ?_
          simp only [List.getElem?_take]
          split
          · exact hsame k (by omega)
          · rfl
        refine iff_of_false (fun heq => hdiff ?_) (by rintro ⟨k, hkm, hik, -⟩; omega)
        rw [crcIndex, crcIndex, hprefix, UInt8.xor_right_inj] at heq
        rw [List.getElem?_eq_getElem (by omega), List.getElem?_eq_getElem (by omega)] at heq ⊢
        exact congrArg some heq
      · rw [← ih (by omega) (by omega), crcIndex, crcIndex, hsame m h]
        exact UInt8.xor_left_inj _

/-! ## Corrupted frames -/

/-- How many bytes of a frame its CRC covers. -/
def covered (raw : List UInt8) : Nat := 12 + (raw[11]?.getD 0).toNat

theorem covered_eq {raw : List UInt8} (h11 : 11 < raw.length) :
    covered raw = 12 + raw[11].toNat := by
  rw [covered, List.getElem?_eq_getElem h11]
  rfl

/-- Replacing byte `i` by `b` does not change the checksum: the two runs meet at a shared entry. -/
def Masked (raw : List UInt8) (i : Nat) (b : UInt8) : Prop :=
  ∃ k, k < covered raw ∧ i ≤ k ∧ ShareEntry (crcIndex (raw.set i b) k) (crcIndex raw k)

instance (raw : List UInt8) (i : Nat) (b : UInt8) : Decidable (Masked raw i b) :=
  inferInstanceAs (Decidable (∃ k, k < covered raw ∧ _))

/-- A frame that parses carries its CRC right after what the CRC covers. -/
theorem Envelope.parse_crc {raw : List UInt8} {env : Envelope} (h : Envelope.parse raw = .ok env) :
    13 ≤ raw.length ∧ raw.take 2 = [0x7f, 0x5a] ∧ covered raw < raw.length ∧
      raw[covered raw]? = some env.crc ∧ env.computedCrc = crc8 (raw.take (covered raw)) := by
  unfold Envelope.parse at h
  split at h
  · cases h
  · next hlen =>
      split at h
      · cases h
      · next hmagic =>
          have h11 : 11 < raw.length := by omega
          have hcovered := covered_eq h11
          dsimp only at h
          split at h
          · cases h
          · next hend =>
              obtain rfl := Except.ok.inj h
              refine ⟨by omega, not_not.1 hmagic, by omega, ?_, ?_⟩
              · rw [hcovered, List.getElem?_eq_getElem (by omega)]
              · rw [hcovered]

/-- Such a frame parses whatever the rest of it is. -/
theorem Envelope.parse_ok {raw : List UInt8} (hlen : 13 ≤ raw.length)
    (hmagic : raw.take 2 = [0x7f, 0x5a]) (hend : covered raw < raw.length) :
    ∃ env, Envelope.parse raw = .ok env := by
  have h11 : 11 < raw.length := by omega
  have hcovered := covered_eq h11
  unfold Envelope.parse
  rw [dif_neg (by omega), if_neg (not_not.2 hmagic)]
  dsimp only
  rw [dif_neg (by omega)]
  exact ⟨_, rfl⟩

theorem decryptResponse_crcMismatch {raw : List UInt8} {env : Envelope}
    (hparse : Envelope.parse raw = .ok env) (hcrc : env.crc ≠ env.computedCrc) (aesKey : AesKey) :
    decryptResponse C raw aesKey = .error (.crcMismatch env.crc env.computedCrc) := by
  rw [decryptResponse, hparse]
  show (env.ensureCrc >>= fun _ => env.decryptCommand C aesKey) = _
  rw [Envelope.ensureCrc, if_neg hcrc]
  rfl

/-- Every operation that awaits a reply refuses the frame with `e` and keeps its state. -/
def RefusedByAll (C : Cipher) (chrono : Chrono) (raw : List UInt8) (e : TtlockError) : Prop :=
  (∀ (self : StatusOp) (now : Int), self.awaitingResponse = true →
    ((StatusOp.operation C).handleFrame now raw).call self = (.error e, self)) ∧
  (∀ (self : LockOp) (now : Int), self.state = .awaitingCheckUserTime ∨ self.state = .awaitingActuate →
    ((LockOp.operation C).handleFrame now raw).call self = (.error e, self)) ∧
  (∀ (self : UnlockOp) (now : Int), self.state = .awaitingCheckUserTime ∨ self.state = .awaitingActuate →
    ((UnlockOp.operation C).handleFrame now raw).call self = (.error e, self)) ∧
  (∀ (self : LogPageOp) (now : Int), self.awaitingResponse = true →
    ((LogPageOp.operation C chrono).handleFrame now raw).call self = (.error e, self))

theorem refusedByAll_of_decryptResponse (chrono : Chrono) {raw : List UInt8} {e : TtlockError}
    (h : ∀ aesKey, decryptResponse C raw aesKey = .error e) : RefusedByAll C chrono raw e := by
  have hactuate : ∀ (self : ActuateOp) (now : Int),
      self.state = .awaitingCheckUserTime ∨ self.state = .awaitingActuate →
        (ActuateOp.handleFrame C now raw).call self = (.error e, self) := by
    intro self now hstate
    rw [ActuateOp.call_handleFrame, h]
    rcases hstate with hs | hs <;> rw [hs]
  refine ⟨fun self now hw => ?_, hactuate, hactuate, fun self now hw => ?_⟩
  · show (StatusOp.handleFrame C raw).call self = _
    rw [StatusOp.call_handleFrame, if_pos hw, h]
  · show (LogPageOp.handleFrame C chrono raw).call self = _
    rw [LogPageOp.call_handleFrame, if_pos hw, h]

/-- **Single-byte corruption.** Replace one covered byte of a frame whose CRC is right, other than the
    magic and the length: the frame still parses. Its CRC is wrong, and every operation refuses it with
    the retryable error and keeps its state, unless the two checksums meet at indices 33 and 79; then
    its CRC is right. -/
theorem single_byte_corruption (C : Cipher) (chrono : Chrono) {raw : List UInt8} {env : Envelope}
    (hparse : Envelope.parse raw = .ok env) (hcrc : env.ensureCrc = .ok ()) {i : Nat} {b : UInt8}
    (hi : 2 ≤ i) (hne : i ≠ 11) (hcovered : i < covered raw) (hb : raw[i]? ≠ some b) :
    ∃ env', Envelope.parse (raw.set i b) = .ok env' ∧
      (Masked raw i b → env'.ensureCrc = .ok ()) ∧
      (¬Masked raw i b → ∃ e, e = .crcMismatch env'.crc env'.computedCrc ∧ e.isRetryable = true ∧
        env'.ensureCrc = .error e ∧ RefusedByAll C chrono (raw.set i b) e) := by
  obtain ⟨hlen, hmagic, hend, hat, hcomputed⟩ := Envelope.parse_crc hparse
  have hsame : ∀ k, k ≠ i → (raw.set i b)[k]? = raw[k]? := fun k hk =>
    List.getElem?_set_ne (Ne.symm hk)
  have hdiff : (raw.set i b)[i]? ≠ raw[i]? := by
    rw [List.getElem?_set_self (by omega)]
    exact hb.symm
  -- neither the magic nor the length is touched
  have hkept : covered (raw.set i b) = covered raw := by rw [covered, hsame 11 (Ne.symm hne), covered]
  have hmagic' : (raw.set i b).take 2 = [0x7f, 0x5a] := by
    rw [List.take_set_of_le hi, hmagic]
  obtain ⟨env', hparse'⟩ := Envelope.parse_ok (by rw [List.length_set]; exact hlen) hmagic'
    (by rw [hkept, List.length_set]; exact hend)
  obtain ⟨-, -, -, hat', hcomputed'⟩ := Envelope.parse_crc hparse'
  rw [hkept] at hat' hcomputed'
  rw [hsame _ (by omega), hat] at hat'
  have hiff : env'.crc = env'.computedCrc ↔ Masked raw i b := by
    rw [← Option.some.inj hat', Envelope.ensureCrc_ok hcrc, hcomputed, hcomputed', eq_comm]
    exact crc8_take_eq_iff (List.length_set ..) hsame hdiff hcovered (by omega)
  refine ⟨env', hparse', fun h => Envelope.ensureCrc_eq_ok (hiff.2 h), fun h => ⟨_, rfl, rfl, ?_, ?_⟩⟩
  · rw [Envelope.ensureCrc, if_neg (mt hiff.1 h)]
  · exact refusedByAll_of_decryptResponse chrono fun aesKey =>
      decryptResponse_crcMismatch hparse' (mt hiff.1 h) aesKey

/-- What a lock of organisation `orgId` answers to a status request: it is unlocked. -/
def sampleStatusReply (orgId : UInt16) : List UInt8 :=
  WireCommand.frame aes128Cbc
    { version := { LockVersion.default with orgId }, commandType := COMM_RESPONSE
      aesKey := sampleKey, plaintext := [COMM_SEARCH_BICYCLE_STATUS, 1, 0, 1] }

/-- A corrupted organisation id that is not masked. -/
theorem single_byte_corruption_caught :
    let raw := sampleStatusReply 1
    ∃ env', Envelope.parse (raw.set 8 209) = .ok env' ∧
      ∃ e, e = .crcMismatch env'.crc env'.computedCrc ∧ e.isRetryable = true ∧
        env'.ensureCrc = .error e ∧
        RefusedByAll aes128Cbc ⟨fun _ _ _ => true, fun _ _ _ => true⟩ (raw.set 8 209) e := by
  intro raw
  obtain ⟨env, hparse, hcrc⟩ : ∃ env, Envelope.parse raw = .ok env ∧ env.ensureCrc = .ok () :=
    ⟨_, WireCommand.parse_frame _ (by decide +kernel), Envelope.ensureCrc_eq_ok rfl⟩
  obtain ⟨env', hparse', -, hcaught⟩ := single_byte_corruption aes128Cbc
    ⟨fun _ _ _ => true, fun _ _ _ => true⟩ hparse hcrc (i := 8) (b := 209) (by decide) (by decide)
    (by decide +kernel) (by decide +kernel)
  exact ⟨env', hparse', hcaught (by decide +kernel)⟩

/-- For a lock of organisation 191 the same corruption is masked: the reply is accepted as it is. -/
theorem corrupted_reply_accepted :
    let raw := sampleStatusReply 191
    let self : StatusOp := { StatusOp.new sampleKey .default with awaitingResponse := true }
    raw.length = 13 + 16 ∧ raw[11]? = some 16 ∧ raw[8]? = some 191 ∧
      (∃ env, Envelope.parse raw = .ok env ∧ env.ensureCrc = .ok ()) ∧
      (∃ env', Envelope.parse (raw.set 8 209) = .ok env' ∧ env'.ensureCrc = .ok ()) ∧
      ((StatusOp.operation aes128Cbc).handleFrame 0 (raw.set 8 209)).call self =
        (.ok (.done .unlocked), { self with awaitingResponse := false }) := by
  intro raw self
  refine ⟨by decide +kernel, by decide +kernel, by decide +kernel, ?_, ?_, by decide +kernel⟩
  · exact ⟨_, WireCommand.parse_frame _ (by decide +kernel), Envelope.ensureCrc_eq_ok rfl⟩
  · refine ⟨(Envelope.parse (raw.set 8 209)).toOption.getD ⟨0, 0, 0, 0, 0, 0, 0, [], 0, 0⟩, ?_, ?_⟩
    · decide +kernel
    · decide +kernel

end TTLock
