import TTLock.Core.Aes
import TTLock.Core.Proofs.Framing

set_option autoImplicit false

/-! # The wire round trip

From a plaintext through `buildEnvelope`, any chunking, the assembler and `Envelope.parse` back to the
plaintext. The four length computations meet in one place: the payload length at byte 11 is the
length of the ciphertext, which `buildEnvelope_eq_ok` keeps under 256. -/

namespace TTLock

variable {C : Cipher}

/-! ## Frames -/

/-- One command on its way to a lock or back. -/
structure WireCommand where
  version : LockVersion
  commandType : UInt8
  aesKey : AesKey
  plaintext : List UInt8
deriving DecidableEq

namespace WireCommand

def build (C : Cipher) (c : WireCommand) : Except TtlockError (List UInt8) :=
  buildEnvelope C c.version c.commandType c.plaintext c.aesKey

def encrypted (C : Cipher) (c : WireCommand) : List UInt8 := aesEncrypt C c.plaintext c.aesKey

/-- What the CRC is taken of. -/
def body (C : Cipher) (c : WireCommand) : List UInt8 :=
  [0x7f, 0x5a] ++ c.version.toBytes ++
    [c.commandType, APP_COMMAND, UInt8.ofNat (c.encrypted C).length] ++ c.encrypted C

/-- The frame without its terminator, as the assembler yields it. -/
def frame (C : Cipher) (c : WireCommand) : List UInt8 := c.body C ++ [crc8 (c.body C)]

theorem length_encrypted_le (hC : C.Lawful) (c : WireCommand) :
    (c.encrypted C).length ≤ 255 ↔ c.plaintext.length ≤ 239 := by
  rw [encrypted, length_aesEncrypt hC]
  split
  · next h => simp [List.isEmpty_iff.1 h]
  · omega

theorem build_def (c : WireCommand) :
    c.build C = if (c.encrypted C).length ≤ 255 then .ok (c.frame C ++ CRLF)
      else .error (.message "encrypted payload is longer than 255 bytes") := rfl

/-- A build that succeeds gives the frame and its terminator. -/
theorem build_eq_ok {c : WireCommand} {wire : List UInt8} (h : c.build C = .ok wire) :
    (c.encrypted C).length ≤ 255 ∧ wire = c.frame C ++ CRLF := by
  rw [build_def] at h
  split at h
  · next hlen => exact ⟨hlen, (Except.ok.inj h).symm⟩
  · exact absurd h (by simp)

theorem build_ok_iff (hC : C.Lawful) (c : WireCommand) :
    (∃ wire, c.build C = .ok wire) ↔ c.plaintext.length ≤ 239 := by
  rw [← length_encrypted_le hC]
  constructor
  · rintro ⟨wire, h⟩
    exact (build_eq_ok h).1
  · intro h
    exact ⟨c.frame C ++ CRLF, (build_def c).trans (if_pos h)⟩

end WireCommand

/-- The version header is seven bytes. -/
theorem LockVersion.length_toBytes (v : LockVersion) : v.toBytes.length = 7 := rfl

/-- **Taking a frame apart.** Whatever the header says, the payload is as long as byte 11 claims and
    the CRC follows it. -/
theorem Envelope.parse_cons (p v s g₁ g₀ o₁ o₀ commandType encrypt len crc : UInt8)
    (data extra : List UInt8) (hlen : data.length = len.toNat) :
    let head := 0x7f :: 0x5a :: p :: v :: s :: g₁ :: g₀ :: o₁ :: o₀ :: commandType :: encrypt ::
      len :: data
    Envelope.parse (head ++ crc :: extra) = .ok
      { protocolType := p, protocolVersion := v, scene := s
        groupId := BigEndian.ofBytes16 g₁ g₀, orgId := BigEndian.ofBytes16 o₁ o₀
        commandType, encrypt, data, crc, computedCrc := crc8 head } := by
  intro head
  have hhead : head.length = 12 + len.toNat := by simp only [head, List.length_cons]; omega
  have htotal : (head ++ crc :: extra).length = 13 + len.toNat + extra.length := by
    rw [List.length_append, hhead, List.length_cons]; omega
  have h11lt : 11 < (head ++ crc :: extra).length := by omega
  have h11 : (head ++ crc :: extra)[11] = len := rfl
  have htake : (head ++ crc :: extra).take (12 + len.toNat) = head := by
    rw [← hhead, List.take_left]
  have hcrclt : 12 + len.toNat < (head ++ crc :: extra).length := by omega
  have hcrc : (head ++ crc :: extra)[12 + len.toNat] = crc := by
    rw [List.getElem_append_right (by omega)]
    simp only [hhead, Nat.sub_self, List.getElem_cons_zero]
  unfold Envelope.parse
  rw [dif_neg (by omega), if_neg (by simp [head])]
  simp only [h11, htake, hcrc]
  rw [dif_neg (by omega)]
  rfl

/-- Parsing a frame gives back what it was built from. -/
theorem WireCommand.parse_frame (c : WireCommand) (hlen : (c.encrypted C).length ≤ 255) :
    Envelope.parse (c.frame C) = .ok
      { protocolType := c.version.protocolType, protocolVersion := c.version.protocolVersion
        scene := c.version.scene, groupId := c.version.groupId, orgId := c.version.orgId
        commandType := c.commandType, encrypt := APP_COMMAND, data := c.encrypted C
        crc := crc8 (c.body C), computedCrc := crc8 (c.body C) } := by
  have hnat : (c.encrypted C).length = (UInt8.ofNat (c.encrypted C).length).toNat := by
    rw [UInt8.toNat_ofNat', Nat.mod_eq_of_lt (by omega)]
  have h := fun g₁ g₀ o₁ o₀ => Envelope.parse_cons c.version.protocolType c.version.protocolVersion
    c.version.scene g₁ g₀ o₁ o₀ c.commandType APP_COMMAND _ (crc8 (c.body C)) (c.encrypted C) [] hnat
  refine (h _ _ _ _).trans ?_
  rw [BigEndian.ofBytes16_toBytes16, BigEndian.ofBytes16_toBytes16]
  rfl

theorem Envelope.ensureCrc_eq_ok {env : Envelope} (h : env.crc = env.computedCrc) :
    env.ensureCrc = .ok () := if_pos h

theorem Envelope.decryptCommand_eq (env : Envelope) (aesKey : AesKey) {p₀ p₁ : UInt8}
    {rest : List UInt8} (h : aesDecrypt C env.data aesKey = .ok (p₀ :: p₁ :: rest)) :
    env.decryptCommand C aesKey = .ok { commandType := p₀, response := p₁, data := rest } := by
  rw [decryptCommand, h]
  rfl

/-! ## Noise -/

/-- Bytes among which the magic never appears. -/
def NoMagic (noise : List UInt8) : Prop := ¬[0x7f, 0x5a] <:+: noise

instance (noise : List UInt8) : Decidable (NoMagic noise) :=
  inferInstanceAs (Decidable (¬[0x7f, 0x5a] <:+: noise))

theorem NoMagic.tail {a : UInt8} {noise : List UInt8} (h : NoMagic (a :: noise)) : NoMagic noise :=
  fun hin => h (hin.trans (List.suffix_cons a noise).isInfix)

theorem NoMagic.head_ne {a b : UInt8} {noise : List UInt8} (h : NoMagic (a :: b :: noise)) :
    ¬(a = 0x7f ∧ b = 0x5a) := by
  rintro ⟨rfl, rfl⟩
  exact h (List.prefix_append [0x7f, 0x5a] noise).isInfix

/-- Noise is skipped up to the next magic, even if it ends in the magic's first byte. -/
theorem NoMagic.seek_append {noise : List UInt8} (h : NoMagic noise) (rest : List UInt8) :
    seek (noise ++ 0x7f :: 0x5a :: rest) = 0x7f :: 0x5a :: rest := by
  induction noise with
  | nil => rfl
  | cons a tail ih =>
      cases tail with
      | nil => exact seek_cons_cons_of_ne (fun hc => absurd hc.2 (by decide)) _
      | cons b more => exact (seek_cons_cons_of_ne h.head_ne _).trans (ih h.tail)

/-- Noise alone is thrown away, but for half a magic at its end. -/
theorem NoMagic.length_seek {noise : List UInt8} (h : NoMagic noise) : (seek noise).length ≤ 1 := by
  induction noise with
  | nil => exact Nat.zero_le _
  | cons a tail ih =>
      cases tail with
      | nil => exact length_seek_le [a]
      | cons b more => rw [seek_cons_cons_of_ne h.head_ne]; exact ih h.tail

namespace FrameAssembler

/-- **A complete frame after some noise costs one poll,** and leaves whatever follows it. -/
theorem cut_noise_complete {noise wire : List UInt8} (h : NoMagic noise) {n : UInt8}
    (hmagic : wire.take 2 = [0x7f, 0x5a]) (h11 : wire[11]? = some n)
    (hlen : wire.length = n.toNat + 15) (x : List UInt8) :
    cut (noise ++ wire ++ x) = (some (wire.take (n.toNat + 13)), x) := by
  have hseek : seek (noise ++ wire ++ x) = wire ++ x := by
    have hwire : wire = 0x7f :: 0x5a :: wire.drop 2 := by
      conv => lhs; rw [← List.take_append_drop 2 wire, hmagic]
      rfl
    rw [List.append_assoc, hwire]
    exact h.seek_append _
  have h11' : (wire ++ x)[11]? = some n := by rw [List.getElem?_append_left (by omega), h11]
  unfold cut cutSought
  rw [hseek, h11']
  dsimp only
  rw [if_neg (by rw [List.length_append, hlen]; omega), ← hlen, List.drop_left,
    List.take_append_of_le_length (by omega)]

theorem cut_noise_frame {noise : List UInt8} (h : NoMagic noise) {c : WireCommand}
    (hlen : (c.encrypted C).length ≤ 255) (x : List UInt8) :
    cut (noise ++ (c.frame C ++ CRLF) ++ x) = (some (c.frame C), x) := by
  have hframe : (c.frame C).length = (c.encrypted C).length + 13 := by
    simp only [WireCommand.frame, WireCommand.body, List.length_append, LockVersion.length_toBytes,
      List.length_cons, List.length_nil]
    omega
  have hnat : (UInt8.ofNat (c.encrypted C).length).toNat = (c.encrypted C).length := by
    rw [UInt8.toNat_ofNat', Nat.mod_eq_of_lt (by omega)]
  have hwire : (c.frame C ++ CRLF).length = (UInt8.ofNat (c.encrypted C).length).toNat + 15 := by
    rw [List.length_append, hframe, hnat]
    rfl
  have hmagic : (c.frame C ++ CRLF).take 2 = [0x7f, 0x5a] := rfl
  have hcut := cut_noise_complete h hmagic rfl hwire x
  rwa [hnat, ← hframe, List.take_left] at hcut

theorem cut_noise {noise : List UInt8} (h : NoMagic noise) : cut noise = (none, seek noise) := by
  rcases cut_cases noise with hc | ⟨n, -, hn, -⟩
  · exact hc
  · have := h.length_seek
    omega

end FrameAssembler

/-! ## The whole way -/

/-- A stretch of a stream: some noise and then one command's wire form. -/
structure Segment where
  noise : List UInt8
  command : WireCommand
deriving DecidableEq

/-- What is on the wire, if every command of the stream could be built. -/
def stream (C : Cipher) (segments : List Segment) (tail : List UInt8) : List UInt8 :=
  (segments.flatMap fun g => g.noise ++ (g.command.frame C ++ CRLF)) ++ tail

/-- The assembler yields exactly the frames of the stream, in order. -/
theorem drain_stream {segments : List Segment} {tail : List UInt8}
    (hseg : ∀ g ∈ segments, NoMagic g.noise ∧ (g.command.encrypted C).length ≤ 255)
    (htail : NoMagic tail) :
    (FrameAssembler.new.push (stream C segments tail)).drain
      = (segments.map fun g => g.command.frame C, ⟨seek tail⟩) := by
  have hdrains := Decoder.drains_segments (d := FrameAssembler.cut)
    (fun g : Segment => g.noise ++ (g.command.frame C ++ CRLF)) (fun g => g.command.frame C) segments
    (fun g hg x => FrameAssembler.cut_noise_frame (hseg g hg).1 (hseg g hg).2 x)
    (.stop (FrameAssembler.cut_noise htail))
  rw [List.append_nil] at hdrains
  exact FrameAssembler.drains_iff_drain.1 hdrains

/-- **The wire round trip.** A command can be built iff its plaintext is at most 239 bytes. A stream
    of built commands with noise before, between and after them, cut up and polled in any way, yields
    exactly their frames; each parses back to its fields, passes its CRC and decrypts to its
    plaintext. -/
theorem wire_round_trip (hC : C.Lawful) :
    (∀ c : WireCommand, (∃ wire, c.build C = .ok wire) ↔ c.plaintext.length ≤ 239) ∧
    ∀ (segments : List (Segment × List UInt8)) (tail : List UInt8),
      (∀ g ∈ segments, NoMagic g.1.noise ∧ g.1.command.build C = .ok g.2) → NoMagic tail →
      (∀ es : List (Decoder.Event UInt8),
        Decoder.pushed es = (segments.flatMap fun g => g.1.noise ++ g.2) ++ tail →
        let s := FrameAssembler.new.session es
        s.1 ++ s.2.drain.1 = segments.map fun g => g.2.take (g.2.length - 2)) ∧
      ∀ g ∈ segments, ∃ env, Envelope.parse (g.2.take (g.2.length - 2)) = .ok env ∧
        env.protocolType = g.1.command.version.protocolType ∧
        env.protocolVersion = g.1.command.version.protocolVersion ∧
        env.scene = g.1.command.version.scene ∧
        env.groupId = g.1.command.version.groupId ∧ env.orgId = g.1.command.version.orgId ∧
        env.commandType = g.1.command.commandType ∧ env.encrypt = 0xaa ∧
        env.data = aesEncrypt C g.1.command.plaintext g.1.command.aesKey ∧
        env.ensureCrc = .ok () ∧
        ∀ p₀ p₁ rest, g.1.command.plaintext = p₀ :: p₁ :: rest →
          env.decryptCommand C g.1.command.aesKey
            = .ok { commandType := p₀, response := p₁, data := rest } := by
  refine ⟨WireCommand.build_ok_iff hC, ?_⟩
  intro segments tail hseg htail
  have hbuilt : ∀ g ∈ segments, (g.1.command.encrypted C).length ≤ 255 ∧
      g.2 = g.1.command.frame C ++ CRLF := fun g hg => WireCommand.build_eq_ok (hseg g hg).2
  have hframe : ∀ g ∈ segments, g.2.take (g.2.length - 2) = g.1.command.frame C := by
    intro g hg
    rw [(hbuilt g hg).2, List.length_append]
    exact List.take_left
  refine ⟨?_, ?_⟩
  · intro es hes
    have hstream : Decoder.pushed es = stream C (segments.map Prod.fst) tail := by
      rw [hes, stream, List.flatMap_map]
      congr 1
      exact List.flatMap_congr fun g hg => by rw [(hbuilt g hg).2]
    have hdrain : (FrameAssembler.new.push (Decoder.pushed es)).drain
        = ((segments.map Prod.fst).map fun g => g.command.frame C, ⟨seek tail⟩) := by
      rw [hstream]
      refine drain_stream ?_ htail
      intro g hg
      obtain ⟨g', hg', rfl⟩ := List.mem_map.1 hg
      exact ⟨(hseg g' hg').1, (hbuilt g' hg').1⟩
    rw [FrameAssembler.session_drain, List.map_map] at hdrain
    refine (Prod.mk.inj hdrain).1.trans ?_
    exact List.map_congr_left fun g hg => (hframe g hg).symm
  · intro g hg
    refine ⟨_, (hframe g hg).symm ▸ g.1.command.parse_frame (hbuilt g hg).1, rfl, rfl, rfl, rfl, rfl,
      rfl, rfl, rfl, Envelope.ensureCrc_eq_ok rfl, ?_⟩
    intro p₀ p₁ rest hp
    refine Envelope.decryptCommand_eq _ _ ?_
    rw [← hp]
    exact aesDecrypt_aesEncrypt hC _ _

/-- A status request between half magics, pushed in three chunks and polled early. -/
theorem wire_round_trip_status :
    let request : WireCommand :=
      { version := .default, commandType := COMM_SEARCH_BICYCLE_STATUS
        aesKey := ⟨Vector.replicate 16 7⟩, plaintext := "SCIENER".toUTF8.toList }
    let wire := [0x7f, 0x5a, 5, 3, 2, 0, 1, 0, 1, 0x14, 0xaa, 16, 1, 117, 237, 116, 51, 187, 21, 216,
      180, 9, 112, 234, 232, 25, 85, 208, 231, 0x0d, 0x0a]
    let s := FrameAssembler.new.session
      [.push [0x5a, 0x7f, 0x7f], .poll, .push (wire.tail.take 7), .push (wire.drop 8 ++ [0x7f])]
    (∃ wire, request.build aes128Cbc = .ok wire) ∧ s.1 ++ s.2.drain.1 = [wire.take 29] := by
  intro request wire s
  obtain ⟨hbuild, htrip⟩ := wire_round_trip aes128Cbc_lawful
  have hseg : ∀ g ∈ [((⟨[0x5a, 0x7f], request⟩ : Segment), wire)],
      NoMagic g.1.noise ∧ g.1.command.build aes128Cbc = .ok g.2 := by
    rw [List.forall_mem_singleton]
    refine ⟨by decide, ?_⟩
    decide +kernel
  exact ⟨(hbuild request).2 (by decide +kernel), (htrip _ [0x7f] hseg (by decide)).1 _ rfl⟩

end TTLock
