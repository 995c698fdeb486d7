import TTLock.Core.Proofs.Wire

set_option autoImplicit false

/-! # Nothing is lost in the assembler

Every byte that is pushed ends up in one of three places: a frame that is yielded with the two bytes
behind it, the garbage in front of it, or the buffer. All the garbage between two frames, in however
many polls it was dropped, has no magic in it. Frames are as `Envelope.parse` wants them, since both
take the length from the same byte; and a frame that is not yielded needs two bytes more than it has,
however many of these are its terminator. -/

namespace TTLock

/-! ## Pieces -/

/-- A frame as the assembler yields it: it starts with the magic and is as long as its byte 11 says. -/
structure AssembledFrame where
  bytes : List UInt8
  payloadLen : UInt8
  magic : bytes.take 2 = [0x7f, 0x5a]
  payloadLen_at : bytes[11]? = some payloadLen
  length_eq : bytes.length = 13 + payloadLen.toNat

/-- A stretch of what was pushed and is not buffered any more. -/
inductive Piece where
  /-- Garbage, dropped while seeking the magic. -/
  | dropped (garbage : List UInt8) (noMagic : NoMagic garbage)
  /-- A frame that was yielded, and the two bytes discarded with it. -/
  | yielded (frame : AssembledFrame) (a b : UInt8)

namespace Piece

def bytes : Piece → List UInt8
  | .dropped garbage _ => garbage
  | .yielded frame a b => frame.bytes ++ [a, b]

def frame? : Piece → Option (List UInt8)
  | .dropped _ _ => none
  | .yielded frame _ _ => some frame.bytes

theorem frames_yielded (frame : AssembledFrame) (a b : UInt8) (pieces : List Piece) :
    (yielded frame a b :: pieces).filterMap frame? = frame.bytes :: pieces.filterMap frame? := rfl

/-- Garbage is dropped in one stretch: between two stretches of it there is a frame. -/
def Separated (pieces : List Piece) : Prop :=
  pieces.IsChain fun p q => p.frame?.isSome ∨ q.frame?.isSome

theorem Separated.yielded {pieces : List Piece} (h : Separated pieces) {frame : AssembledFrame}
    {a b : UInt8} : Separated (.yielded frame a b :: pieces) := by
  cases pieces with
  | nil => exact .singleton _
  | cons piece pieces => exact .cons_cons (.inl rfl) h

end Piece

/-- Garbage in front of which one more byte stands. -/
theorem NoMagic.cons {a : UInt8} {noise : List UInt8} (h : NoMagic noise)
    (ha : ∀ b rest, noise = b :: rest → ¬(a = 0x7f ∧ b = 0x5a)) : NoMagic (a :: noise) := by
  rintro ⟨before, after, heq⟩
  cases before with
  | nil =>
      simp only [List.nil_append, List.cons_append, List.cons.injEq] at heq
      exact ha 0x5a after heq.2.symm ⟨heq.1.symm, rfl⟩
  | cons c before =>
      simp only [List.cons_append, List.append_assoc, List.cons.injEq] at heq
      exact h ⟨before, after, by simpa using heq.2⟩

/-- **What seeking drops is garbage.** -/
theorem seek_split (s : List UInt8) : ∃ noise, NoMagic noise ∧ s = noise ++ seek s := by
  have hnil : NoMagic [] := by decide
  fun_induction seek s with
  | case1 => exact ⟨[], hnil, rfl⟩
  | case2 => exact ⟨[], hnil, rfl⟩
  | case3 b h => exact ⟨[b], hnil.cons (by simp), rfl⟩
  | case4 => exact ⟨[], hnil, rfl⟩
  | case5 a b rest h ih =>
      obtain ⟨noise, hnoise, hsplit⟩ := ih
      refine ⟨a :: noise, hnoise.cons fun b' rest' heq => ?_, congrArg (a :: ·) hsplit⟩
      rw [heq, List.cons_append, List.cons.injEq] at hsplit
      rwa [← hsplit.1]

namespace FrameAssembler

/-- A poll that yields nothing keeps less than a frame. -/
theorem length_lt_of_cut_none {b r : List UInt8} (h : cut b = (none, r)) :
    r = seek b ∧ r.length < 270 := by
  have hr : seek b = r := by
    rcases cut_cases b with hc | ⟨n, -, -, hc⟩
    · exact (Prod.mk.inj (hc.symm.trans h)).2
    · simp [hc] at h
  refine ⟨hr.symm, ?_⟩
  rw [cut, cutSought, hr] at h
  cases h11 : r[11]? with
  | none =>
      rw [List.getElem?_eq_none_iff] at h11
      omega
  | some n =>
      have hn := n.toNat_lt
      rw [h11] at h
      by_cases hlen : r.length < n.toNat + 15
      · omega
      · simp [hlen] at h

theorem nextFrame_none {self rest : FrameAssembler} (h : self.nextFrame = (none, rest)) :
    (rest.buffer = [] ∨ rest.buffer = [0x7f] ∨ [0x7f, 0x5a] <+: rest.buffer) ∧
      rest.buffer.length < 270 := by
  rw [nextFrame_eq_cut] at h
  obtain ⟨hframe, hrest⟩ := Prod.mk.inj h
  have hnone : cut self.buffer = (none, rest.buffer) :=
    Prod.ext hframe (congrArg FrameAssembler.buffer hrest)
  obtain ⟨hseek, hlen⟩ := length_lt_of_cut_none hnone
  refine ⟨?_, hlen⟩
  rw [hseek]
  rcases seek_cases self.buffer with hs | hs | ⟨tail, hs⟩
  · exact .inl hs
  · exact .inr (.inl hs)
  · exact .inr (.inr (hs ▸ List.prefix_append [0x7f, 0x5a] tail))

/-- What a poll does: drop garbage and wait, or drop garbage and take a frame with two more bytes. -/
theorem cut_piece_cases (b : List UInt8) : ∃ garbage, NoMagic garbage ∧ b = garbage ++ seek b ∧
    (cut b = (none, seek b) ∨ ∃ (frame : AssembledFrame) (x y : UInt8) (rest : List UInt8),
      cut b = (some frame.bytes, rest) ∧ seek b = frame.bytes ++ [x, y] ++ rest) := by
  obtain ⟨garbage, hgarbage, hsplit⟩ := seek_split b
  refine ⟨garbage, hgarbage, hsplit, ?_⟩
  rcases cut_cases b with hc | ⟨n, h11, hlen, hc⟩
  · exact .inl hc
  · right
    -- enough bytes for a frame, so that what was found is the magic and not its first byte alone
    obtain ⟨rest, hmagic⟩ : ∃ rest, seek b = 0x7f :: 0x5a :: rest := by
      rcases seek_cases b with hs | hs | hs
      · simp [hs] at hlen
      · simp [hs] at hlen
      · exact hs
    have hterminator : (seek b).drop (n.toNat + 13) =
        [(seek b)[n.toNat + 13], (seek b)[n.toNat + 14]] ++ (seek b).drop (n.toNat + 15) := by
      rw [List.drop_eq_getElem_cons (by omega), List.drop_eq_getElem_cons (by omega)]
      rfl
    let frame : AssembledFrame := {
      bytes := (seek b).take (n.toNat + 13)
      payloadLen := n
      magic := by rw [hmagic]; simp
      payloadLen_at := by rw [List.getElem?_take_of_lt (by omega), h11]
      length_eq := by rw [List.length_take]; omega }
    refine ⟨frame, (seek b)[n.toNat + 13], (seek b)[n.toNat + 14], _, hc, ?_⟩
    rw [List.append_assoc, ← hterminator]
    exact (List.take_append_drop (n.toNat + 13) (seek b)).symm

/-- **One poll takes pieces off the front**: garbage, and then perhaps a frame. -/
theorem cut_pieces (b : List UInt8) : ∃ pieces : List Piece,
    b = pieces.flatMap Piece.bytes ++ (cut b).2 ∧
      pieces.filterMap Piece.frame? = (cut b).1.toList := by
  obtain ⟨garbage, hgarbage, hsplit, hc | ⟨frame, x, y, rest, hc, hseek⟩⟩ := cut_piece_cases b
  · refine ⟨[.dropped garbage hgarbage], ?_, ?_⟩
    · simpa [hc, Piece.bytes] using hsplit
    · simp [hc, Piece.frame?]
  · refine ⟨[.dropped garbage hgarbage, .yielded frame x y], ?_, ?_⟩
    · rw [hseek] at hsplit
      simpa [hc, Piece.bytes] using hsplit
    · rw [hc]
      rfl

/-- What one poll drops makes one stretch of garbage with what was dropped before it, if seeking
    through both finds what seeking in the buffer finds. -/
theorem noMagic_append {dropped b garbage : List UInt8} (hseek : seek (dropped ++ b) = seek b)
    (hsplit : b = garbage ++ seek b) : NoMagic (dropped ++ garbage) := by
  obtain ⟨noise, hnoise, hwhole⟩ := seek_split (dropped ++ b)
  rw [hseek] at hwhole
  have hmerged : dropped ++ garbage ++ seek b = noise ++ seek b := by
    rw [List.append_assoc, ← hsplit, hwhole]
  rwa [List.append_cancel_right hmerged]

/-- **A session splits what was pushed**, together with what was dropped since the last frame. -/
theorem session_pieces (es : List (Decoder.Event UInt8)) {dropped b : List UInt8}
    (hdropped : NoMagic dropped) (hseek : seek (dropped ++ b) = seek b) :
    ∃ pieces : List Piece, Piece.Separated pieces ∧
      dropped ++ b ++ Decoder.pushed es =
        pieces.flatMap Piece.bytes ++ (Decoder.session cut b es).2 ∧
      pieces.filterMap Piece.frame? = (Decoder.session cut b es).1 := by
  -- induction on the events; seeking through the dropped bytes keeps finding what the buffer holds
  induction es generalizing dropped b with
  | nil =>
      refine ⟨[.dropped dropped hdropped], List.IsChain.singleton _, ?_, rfl⟩
      simp [Piece.bytes, Decoder.pushed, Decoder.session]
  | cons e es ih =>
      cases e with
      | push chunk =>
          have hkept : seek (dropped ++ (b ++ chunk)) = seek (b ++ chunk) := by
            rw [← List.append_assoc, ← seek_seek_append, hseek, seek_seek_append]
          obtain ⟨pieces, hseparated, hsplit, hframes⟩ := ih hdropped hkept
          refine ⟨pieces, hseparated, Eq.trans ?_ hsplit, hframes⟩
          simp [Decoder.pushed]
      | poll =>
          obtain ⟨garbage, -, hb, hc | ⟨frame, x, y, rest, hc, hfound⟩⟩ := cut_piece_cases b
          · have hmerged := noMagic_append hseek hb
            have hidle : seek (dropped ++ garbage ++ seek b) = seek (seek b) := by
              rw [List.append_assoc, ← hb, hseek]
              simpa using (seek_seek_append b []).symm
            obtain ⟨pieces, hseparated, hsplit, hframes⟩ := ih hmerged hidle
            refine ⟨pieces, hseparated, ?_, ?_⟩
            · simpa [Decoder.pushed, Decoder.session, Decoder.event, hc, ← hb] using hsplit
            · simpa [Decoder.session, Decoder.event, hc] using hframes
          · have hmerged := noMagic_append hseek hb
            have hempty : NoMagic [] := by decide
            have hrestart : seek ([] ++ rest) = seek rest := rfl
            obtain ⟨pieces, hseparated, hsplit, hframes⟩ := ih hempty hrestart
            refine ⟨.dropped (dropped ++ garbage) hmerged :: .yielded frame x y :: pieces, ?_, ?_, ?_⟩
            · exact .cons_cons (.inr rfl) hseparated.yielded
            · have hrest : rest ++ Decoder.pushed es =
                  pieces.flatMap Piece.bytes ++ (Decoder.session cut rest es).2 := by
                simpa using hsplit
              have hpolled : (Decoder.session cut b (.poll :: es)).2 = (Decoder.session cut rest es).2 := by
                simp [Decoder.session, Decoder.event, hc]
              rw [hpolled, hb, hfound]
              simp only [List.flatMap_cons, Piece.bytes, Decoder.pushed, List.append_assoc, hrest]
            · rw [List.filterMap_cons_none rfl, Piece.frames_yielded, hframes]
              simp [Decoder.session, Decoder.event, hc]

end FrameAssembler

/-! ## Agreement with the parser -/

/-- **The parser accepts what the assembler yields**, with the payload and the CRC at their places. -/
theorem AssembledFrame.parse (frame : AssembledFrame) : ∃ env, Envelope.parse frame.bytes = .ok env ∧
    env.data = (frame.bytes.take (12 + frame.payloadLen.toNat)).drop 12 ∧
    frame.bytes.getLast? = some env.crc := by
  have hlen := frame.length_eq
  have h11 : frame.bytes[11] = frame.payloadLen :=
    Option.some.inj ((List.getElem?_eq_getElem (by omega)).symm.trans frame.payloadLen_at)
  have hlast : frame.bytes.getLast? = some (frame.bytes[12 + frame.payloadLen.toNat]) := by
    have hend : frame.bytes.length - 1 = 12 + frame.payloadLen.toNat := by omega
    rw [List.getLast?_eq_getElem?, hend, List.getElem?_eq_getElem (by omega)]
  unfold Envelope.parse
  rw [dif_neg (by omega), if_neg (not_not.2 frame.magic)]
  simp only [h11]
  rw [dif_neg (by omega)]
  exact ⟨_, rfl, rfl, hlast⟩

/-! ## Conservation -/

/-- The frames among pieces are frames as the assembler yields them. -/
theorem Piece.exists_of_mem_frames {pieces : List Piece} {bytes : List UInt8}
    (h : bytes ∈ pieces.filterMap Piece.frame?) : ∃ frame : AssembledFrame, bytes = frame.bytes := by
  obtain ⟨piece, -, hpiece⟩ := List.mem_filterMap.1 h
  cases piece with
  | dropped garbage hgarbage => simp [Piece.frame?] at hpiece
  | yielded frame a b => exact ⟨frame, (Option.some.inj hpiece).symm⟩

/-- **Conservation.** After any session what was pushed is, in order, garbage that was dropped, frames
    that were yielded with two more bytes each, and the buffer; all the garbage in front of a frame,
    and all of it behind the last one, has no magic in it. Each frame is as long as its byte 11 says
    and is accepted by the parser; and after a poll that yields nothing the buffer is empty, half a
    magic, or the beginning of a frame, and shorter than 270 bytes. -/
theorem assembler_conserves (es : List (Decoder.Event UInt8)) :
    let s := FrameAssembler.new.session es
    (∃ pieces : List Piece, Piece.Separated pieces ∧
      Decoder.pushed es = pieces.flatMap Piece.bytes ++ s.2.buffer ∧
      s.1 = pieces.filterMap Piece.frame?) ∧
    (∀ frame ∈ s.1, ∃ payloadLen env, frame.take 2 = [0x7f, 0x5a] ∧ frame[11]? = some payloadLen ∧
      frame.length = 13 + payloadLen.toNat ∧ Envelope.parse frame = .ok env ∧
      env.data = (frame.take (12 + payloadLen.toNat)).drop 12 ∧ frame.getLast? = some env.crc) ∧
    ∀ rest, s.2.nextFrame = (none, rest) →
      (rest.buffer = [] ∨ rest.buffer = [0x7f] ∨ [0x7f, 0x5a] <+: rest.buffer) ∧
      rest.buffer.length < 270 := by
  intro s
  have hs : s = FrameAssembler.new.session es := rfl
  rw [FrameAssembler.session_eq] at hs
  have hempty : NoMagic [] := by decide
  obtain ⟨pieces, hseparated, hsplit, hframes⟩ :=
    FrameAssembler.session_pieces es hempty (b := FrameAssembler.new.buffer) rfl
  refine ⟨⟨pieces, hseparated, ?_, ?_⟩, ?_, ?_⟩
  · rw [hs]
    exact hsplit
  · rw [hs]
    exact hframes.symm
  · intro bytes hbytes
    rw [hs] at hbytes
    obtain ⟨frame, rfl⟩ := Piece.exists_of_mem_frames (hframes ▸ hbytes)
    obtain ⟨env, hparse, hdata, hcrc⟩ := frame.parse
    exact ⟨frame.payloadLen, env, frame.magic, frame.payloadLen_at, frame.length_eq, hparse, hdata, hcrc⟩
  · exact fun rest => FrameAssembler.nextFrame_none

/-! ## Missing terminators -/

/-- A frame on the wire, perhaps without its terminator. -/
structure Transmission (C : Cipher) where
  command : WireCommand
  wire : List UInt8
  built : command.build C = .ok wire
  terminated : Bool

namespace Transmission

variable {C : Cipher}

/-- The frame without its terminator. -/
def frame (t : Transmission C) : List UInt8 := t.wire.take (t.wire.length - 2)

def bytes (t : Transmission C) : List UInt8 := if t.terminated then t.wire else t.frame

theorem wire_eq (t : Transmission C) : t.wire = t.frame ++ CRLF ∧ t.frame = t.command.frame C := by
  have hwire := (WireCommand.build_eq_ok t.built).2
  have hframe : t.frame = t.command.frame C := by
    rw [frame, hwire, List.length_append]
    exact List.take_left
  exact ⟨hframe ▸ hwire, hframe⟩

theorem length_bytes (t : Transmission C) :
    t.bytes.length = t.frame.length + if t.terminated then 2 else 0 := by
  rw [bytes]
  split
  · rw [t.wire_eq.1, List.length_append]
    rfl
  · rfl

end Transmission

/-- How many bytes have to arrive before these frames are yielded. -/
def needed : List (List UInt8) → Nat
  | [] => 0
  | frame :: frames => frame.length + 2 + needed frames

theorem needed_le_length (pieces : List Piece) :
    needed (pieces.filterMap Piece.frame?) ≤ (pieces.flatMap Piece.bytes).length := by
  induction pieces with
  | nil => exact Nat.le_refl 0
  | cons piece rest ih =>
      rw [List.flatMap_cons, List.length_append]
      cases piece with
      | dropped garbage hgarbage =>
          simp only [List.filterMap_cons, Piece.frame?]
          omega
      | yielded frame a b =>
          simp only [List.filterMap_cons, Piece.frame?, needed, Piece.bytes, List.length_append,
            List.length_cons, List.length_nil]
          omega

/-- Two bytes are missing for each terminator that is not there. -/
theorem needed_transmissions {C : Cipher} (ts : List (Transmission C)) :
    needed (ts.map Transmission.frame) =
      (ts.flatMap Transmission.bytes).length + 2 * ts.countP fun t => !t.terminated := by
  induction ts with
  | nil => rfl
  | cons t rest ih =>
      rw [List.map_cons, needed, ih, List.flatMap_cons, List.length_append, t.length_bytes,
        List.countP_cons]
      cases t.terminated <;> simp <;> omega

/-- **Missing terminators.** Frames as they are built, pushed in any chunks with any subset of their
    terminators missing, are all yielded in order iff no terminator is missing: two bytes are discarded
    behind each frame, whether they are its terminator or the next magic, and waited for behind the
    last one. -/
theorem frames_yielded_iff {C : Cipher} {ts : List (Transmission C)}
    {es : List (Decoder.Event UInt8)} (hes : Decoder.pushed es = ts.flatMap Transmission.bytes) :
    let s := FrameAssembler.new.session es
    s.1 ++ s.2.drain.1 = ts.map Transmission.frame ↔ ∀ t ∈ ts, t.terminated = true := by
  intro s
  have hsession := FrameAssembler.session_drain es
  rw [hes] at hsession
  constructor
  · intro hall
    rw [show FrameAssembler.new.session es = s from rfl, hall] at hsession
    obtain ⟨pieces, hsplit, hframes⟩ := Decoder.drains_pieces FrameAssembler.cut_pieces
      (FrameAssembler.drains_iff_drain.2 hsession)
    have hneeded := needed_le_length pieces
    have hlen := congrArg List.length
      (show ts.flatMap Transmission.bytes = pieces.flatMap Piece.bytes ++ s.2.drain.2.buffer from hsplit)
    rw [hframes, needed_transmissions] at hneeded
    rw [List.length_append] at hlen
    -- no byte is left over for a terminator that is missing
    have hnone : ts.countP (fun t => !t.terminated) = 0 := by omega
    intro t ht
    simpa using List.countP_eq_zero.1 hnone t ht
  · intro hterminated
    have hempty : NoMagic [] := by decide
    have hstream : ts.flatMap Transmission.bytes =
        stream C (ts.map fun t => ⟨[], t.command⟩) [] := by
      rw [stream, List.append_nil, List.flatMap_map]
      refine List.flatMap_congr fun t ht => ?_
      rw [Transmission.bytes, if_pos (hterminated t ht), t.wire_eq.1, t.wire_eq.2]
      rfl
    have hsegments : ∀ g ∈ ts.map fun t => (⟨[], t.command⟩ : Segment),
        NoMagic g.noise ∧ (g.command.encrypted C).length ≤ 255 := by
      intro g hg
      obtain ⟨t, -, rfl⟩ := List.mem_map.1 hg
      exact ⟨hempty, (WireCommand.build_eq_ok t.built).1⟩
    have hdrain := drain_stream hsegments hempty
    rw [← hstream, hsession, List.map_map] at hdrain
    refine (Prod.mk.inj hdrain).1.trans (List.map_congr_left fun t _ => ?_)
    exact t.wire_eq.2.symm

/-- A status request on the wire. -/
def sampleTransmission (terminated : Bool) : Transmission aes128Cbc where
  command :=
    { version := .default, commandType := COMM_SEARCH_BICYCLE_STATUS
      aesKey := ⟨Vector.replicate 16 7⟩, plaintext := "SCIENER".toUTF8.toList }
  wire := [0x7f, 0x5a, 5, 3, 2, 0, 1, 0, 1, 0x14, 0xaa, 16, 1, 117, 237, 116, 51, 187, 21, 216,
    180, 9, 112, 234, 232, 25, 85, 208, 231, 0x0d, 0x0a]
  built := by decide +kernel
  terminated

/-- Two requests with their terminators, in two chunks. -/
theorem frames_yielded_terminated :
    let ts := [sampleTransmission true, sampleTransmission true]
    let stream := ts.flatMap Transmission.bytes
    let s := FrameAssembler.new.session [.push (stream.take 40), .poll, .push (stream.drop 40)]
    s.1 ++ s.2.drain.1 = ts.map Transmission.frame ↔ ∀ t ∈ ts, t.terminated = true := by
  intro ts stream s
  have hpushed : Decoder.pushed [.push (stream.take 40), .poll, .push (stream.drop 40)] =
      ts.flatMap Transmission.bytes := by decide +kernel
  exact frames_yielded_iff hpushed

/-- The first of two requests comes without its terminator: it is yielded, and the second is lost. -/
theorem second_request_lost :
    let ts := [sampleTransmission false, sampleTransmission true]
    let s := FrameAssembler.new.session [.push (ts.flatMap Transmission.bytes)]
    s.1 ++ s.2.drain.1 = [(sampleTransmission false).frame] ∧
      s.1 ++ s.2.drain.1 ≠ ts.map Transmission.frame := by
  intro ts s
  have hpolled : FrameAssembler.new.session [.push (ts.flatMap Transmission.bytes), .poll] =
      ([(sampleTransmission false).frame], ⟨(sampleTransmission true).bytes.drop 2⟩) := by
    decide +kernel
  have hnone : (⟨(sampleTransmission true).bytes.drop 2⟩ : FrameAssembler).nextFrame = (none, ⟨[]⟩) := by
    decide +kernel
  have hdrain := FrameAssembler.session_eq_drain _ hpolled hnone
  have hyields : s.1 ++ s.2.drain.1 = [(sampleTransmission false).frame] :=
    (Prod.mk.inj ((FrameAssembler.session_drain [.push (ts.flatMap Transmission.bytes)]).symm.trans
      hdrain)).1
  refine ⟨hyields, ?_⟩
  rw [hyields]
  simp [ts]

end TTLock
