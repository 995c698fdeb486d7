import TTLock.Core.Proofs.Assembler

set_option autoImplicit false

/-! # How far garbage reaches

A false header in garbage swallows at most 270 bytes, two of which are its magic. The stretch of real
frames that is left behind it may begin in the middle of one, and what is left of that one is garbage
without a magic: it is dropped, and from the next frame on nothing is lost any more. -/

namespace TTLock

/-- A complete frame on the wire in which the magic occurs in front only. -/
structure WireFrame where
  bytes : List UInt8
  payloadLen : UInt8
  magic : bytes.take 2 = [0x7f, 0x5a]
  magic_once : NoMagic bytes.tail
  payloadLen_at : bytes[11]? = some payloadLen
  length_eq : bytes.length = payloadLen.toNat + 15
  terminator : CRLF <:+ bytes

namespace WireFrame

/-- The frame without its terminator. -/
def frame (w : WireFrame) : List UInt8 := w.bytes.take (w.payloadLen.toNat + 13)

theorem cut_noise (w : WireFrame) {noise : List UInt8} (h : NoMagic noise) (x : List UInt8) :
    FrameAssembler.cut (noise ++ w.bytes ++ x) = (some w.frame, x) :=
  FrameAssembler.cut_noise_complete h w.magic w.payloadLen_at w.length_eq x

/-- What is left of a frame behind its magic is garbage. -/
theorem noMagic_drop (w : WireFrame) {m : Nat} (hm : 0 < m) : NoMagic (w.bytes.drop m) := by
  intro hin
  obtain ⟨k, rfl⟩ := Nat.exists_eq_succ_of_ne_zero (Nat.ne_of_gt hm)
  rw [Nat.succ_eq_add_one, ← List.drop_tail] at hin
  exact w.magic_once (hin.trans (List.drop_suffix k w.bytes.tail).isInfix)

end WireFrame

/-- Frames one after the other. -/
def wires (ws : List WireFrame) : List UInt8 := ws.flatMap WireFrame.bytes

theorem wires_cons (w : WireFrame) (ws : List WireFrame) : wires (w :: ws) = w.bytes ++ wires ws :=
  List.flatMap_cons

theorem length_wires_take {ws : List WireFrame} {i : Nat} (hi : i < ws.length) :
    (wires (ws.take i)).length + 15 ≤ (wires ws).length := by
  induction ws generalizing i with
  | nil => simp at hi
  | cons w ws ih =>
      have hw := w.length_eq
      rw [wires_cons, List.length_append]
      cases i with
      | zero =>
          simp only [List.take_zero, wires, List.flatMap_nil, List.length_nil]
          omega
      | succ i =>
          have hrest := ih (Nat.lt_of_succ_lt_succ hi)
          rw [List.take_succ_cons, wires_cons, List.length_append]
          omega

/-- **Landing among real frames.** What is left of the frame that was landed in is garbage, and the
    frames behind it are whole; the others begin before the landing. -/
theorem drop_wires {ws : List WireFrame} {m : Nat} (hm : m ≤ (wires ws).length) :
    ∃ k noise, NoMagic noise ∧ (wires ws).drop m = noise ++ wires (ws.drop k) ∧
      ∀ i < k, (wires (ws.take i)).length < m := by
  induction ws generalizing m with
  | nil =>
      have hempty : NoMagic [] := by decide
      exact ⟨0, [], hempty, by simp [wires], by simp⟩
  | cons w ws ih =>
      rw [wires_cons] at hm ⊢
      rw [List.length_append] at hm
      rcases Nat.eq_zero_or_pos m with rfl | hpos
      · have hempty : NoMagic [] := by decide
        exact ⟨0, [], hempty, by simp [wires_cons], by simp⟩
      · by_cases hin : m < w.bytes.length
        · refine ⟨1, w.bytes.drop m, w.noMagic_drop hpos, ?_, ?_⟩
          · rw [List.drop_append_of_le_length (Nat.le_of_lt hin)]
            rfl
          · intro i hi
            obtain rfl : i = 0 := by omega
            simpa [wires] using hpos
        · obtain ⟨k, noise, hnoise, hdrop, hbefore⟩ := ih (m := m - w.bytes.length) (by omega)
          refine ⟨k + 1, noise, hnoise, ?_, ?_⟩
          · rw [List.drop_append, List.drop_eq_nil_of_le (Nat.le_of_not_lt hin), List.nil_append,
              hdrop]
            rfl
          · intro i hi
            cases i with
            | zero => simpa [wires] using hpos
            | succ i =>
                have hlt := hbefore i (by omega)
                rw [List.take_succ_cons, wires_cons, List.length_append]
                omega

/-- Half a magic at most is no magic. -/
theorem noMagic_of_length_seek_le {s : List UInt8} (h : (seek s).length ≤ 1) : NoMagic s := by
  have hempty : NoMagic [] := by decide
  fun_induction seek s with
  | case1 => exact hempty
  | case2 => decide
  | case3 b hb => exact hempty.cons (by simp)
  | case4 rest => simp at h
  | case5 a b rest hne ih =>
      refine (ih h).cons fun b' rest' heq => ?_
      obtain ⟨rfl, -⟩ := List.cons.inj heq
      exact hne

/-! ## Where the frames start -/

/-- Where each frame among pieces starts, if the first piece does at `start`. -/
def Piece.offsets (start : Nat) : List Piece → List Nat
  | [] => []
  | .dropped garbage _ :: rest => offsets (start + garbage.length) rest
  | .yielded frame _ _ :: rest => start :: offsets (start + (frame.bytes.length + 2)) rest

theorem Piece.offsets_add (shift start : Nat) (pieces : List Piece) :
    offsets (shift + start) pieces = (offsets start pieces).map (shift + ·) := by
  induction pieces generalizing start with
  | nil => rfl
  | cons piece rest ih =>
      cases piece with
      | dropped garbage hgarbage => rw [offsets, offsets, Nat.add_assoc, ih]
      | yielded frame a b => rw [offsets, offsets, List.map_cons, Nat.add_assoc, ih]

/-- What becomes of garbage `s` with frames `ws` behind it: the pieces before the first frame that is
    saved, the number of frames lost, and what is left in the buffer. -/
structure Recovers (s : List UInt8) (ws : List WireFrame) (pieces : List Piece) (lost : Nat)
    (rest : List UInt8) : Prop where
  split : s ++ wires ws = pieces.flatMap Piece.bytes ++ (wires (ws.drop lost) ++ rest)
  drains : Decoder.Drains FrameAssembler.cut (s ++ wires ws)
    (pieces.filterMap Piece.frame? ++ (ws.drop lost).map WireFrame.frame) rest
  starts : ∀ offset ∈ Piece.offsets 0 pieces, offset < s.length
  bound : ∀ i < lost, (wires (ws.take i)).length < 268

/-- Garbage without a magic costs nothing. -/
theorem drains_noise {noise : List UInt8} (hnoise : NoMagic noise) (ws : List WireFrame) :
    ∃ garbage rest, NoMagic garbage ∧ noise ++ wires ws = garbage ++ (wires ws ++ rest) ∧
      Decoder.Drains FrameAssembler.cut (noise ++ wires ws) (ws.map WireFrame.frame) rest := by
  have hempty : NoMagic [] := by decide
  cases ws with
  | nil =>
      obtain ⟨garbage, hgarbage, hsplit⟩ := seek_split noise
      have hstop := Decoder.Drains.stop (FrameAssembler.cut_noise hnoise)
      refine ⟨garbage, seek noise, hgarbage, ?_, ?_⟩
      · simpa [wires] using hsplit
      · simpa [wires] using hstop
  | cons w ws =>
      have htail : Decoder.Drains FrameAssembler.cut (wires ws) (ws.map WireFrame.frame) [] := by
        have hdrains := Decoder.drains_segments (d := FrameAssembler.cut) WireFrame.bytes
          WireFrame.frame ws (fun w _ x => w.cut_noise hempty x)
          (.stop (FrameAssembler.cut_noise hempty))
        rwa [List.append_nil, List.append_nil] at hdrains
      refine ⟨noise, [], hnoise, by rw [List.append_nil], ?_⟩
      rw [wires_cons, ← List.append_assoc]
      exact .yield (w.cut_noise hnoise _) htail

theorem recovers_noise {s : List UInt8} (hs : NoMagic s) (ws : List WireFrame) :
    ∃ pieces rest, Recovers s ws pieces 0 rest := by
  obtain ⟨garbage, rest, hgarbage, hsplit, hdrains⟩ := drains_noise hs ws
  exact ⟨[.dropped garbage hgarbage], rest, by simpa [Piece.bytes] using hsplit, hdrains,
    by simp [Piece.offsets], by simp⟩

/-- A header that is never completed swallows whatever there is, which is less than a frame. -/
theorem recovers_waiting {s garbage : List UInt8} {ws : List WireFrame} (hgarbage : NoMagic garbage)
    (hsplit : s = garbage ++ seek s) (htwo : 2 ≤ (seek s).length)
    (hcut : FrameAssembler.cut (s ++ wires ws) = (none, seek s ++ wires ws)) :
    ∃ pieces lost rest, Recovers s ws pieces lost rest := by
  obtain ⟨-, hlen⟩ := FrameAssembler.length_lt_of_cut_none hcut
  rw [List.length_append] at hlen
  refine ⟨[.dropped garbage hgarbage], ws.length, seek s ++ wires ws, ?_, ?_, ?_, ?_⟩
  · rw [List.drop_length]
    conv => lhs; rw [hsplit, List.append_assoc]
    simp [Piece.bytes, wires]
  · rw [List.drop_length]
    exact .stop hcut
  · simp [Piece.offsets]
  · intro i hi
    have := length_wires_take hi
    omega

/-- A frame that lies within the garbage is one more piece. -/
theorem Recovers.yield {garbage : List UInt8} {s : List UInt8} {ws : List WireFrame}
    {pieces : List Piece} {lost : Nat} {rest : List UInt8} (h : Recovers s ws pieces lost rest)
    (hgarbage : NoMagic garbage) (frame : AssembledFrame) (x y : UInt8)
    (hcut : FrameAssembler.cut (garbage ++ (frame.bytes ++ [x, y]) ++ (s ++ wires ws)) =
      (some frame.bytes, s ++ wires ws)) :
    Recovers (garbage ++ (frame.bytes ++ [x, y]) ++ s) ws
      (.dropped garbage hgarbage :: .yielded frame x y :: pieces) lost rest where
  split := by
    rw [List.append_assoc, h.split]
    simp [Piece.bytes]
  drains := by
    rw [List.append_assoc]
    exact .yield hcut h.drains
  starts := by
    intro offset hoffset
    simp only [Piece.offsets, Nat.zero_add, List.mem_cons] at hoffset
    rw [List.length_append, List.length_append, List.length_append]
    rcases hoffset with rfl | hoffset
    · simp only [List.length_cons, List.length_nil]
      omega
    · rw [← Nat.add_zero (garbage.length + (frame.bytes.length + 2)), Piece.offsets_add] at hoffset
      obtain ⟨offset', hmem, rfl⟩ := List.mem_map.1 hoffset
      have := h.starts offset' hmem
      simp only [List.length_cons, List.length_nil]
      omega
  bound := h.bound

/-- A frame that starts in the garbage and ends behind it costs the frames it reaches into. -/
theorem recovers_overrun {s garbage : List UInt8} {ws : List WireFrame} (hgarbage : NoMagic garbage)
    (frame : AssembledFrame) (x y : UInt8) {rest : List UInt8}
    (hcut : FrameAssembler.cut (s ++ wires ws) = (some frame.bytes, rest))
    (hsplit : s ++ wires ws = garbage ++ (frame.bytes ++ [x, y]) ++ rest)
    (htwo : garbage.length + 2 ≤ s.length)
    (hover : s.length ≤ garbage.length + (frame.bytes.length + 2)) :
    ∃ pieces lost rest, Recovers s ws pieces lost rest := by
  have hframe := frame.length_eq
  have hpayload := frame.payloadLen.toNat_lt
  have htaken : (garbage ++ (frame.bytes ++ [x, y])).length = garbage.length + (frame.bytes.length + 2) := by
    simp only [List.length_append, List.length_cons, List.length_nil]
  -- how far the frame reaches into the real ones
  obtain ⟨m, hm⟩ := Nat.exists_eq_add_of_le hover
  have hrest : rest = (wires ws).drop m := by
    have hdrop := congrArg (List.drop (s.length + m)) hsplit
    rw [← hm, ← htaken, List.drop_left, htaken, hm, ← List.drop_drop, List.drop_left] at hdrop
    exact hdrop.symm
  have hmlen : m ≤ (wires ws).length := by
    have hlen := congrArg List.length hsplit
    rw [List.length_append, List.length_append, htaken] at hlen
    omega
  obtain ⟨lost, noise, hnoise, hdrop, hbefore⟩ := drop_wires hmlen
  obtain ⟨garbage', rest', hgarbage', hsplit', hdrains⟩ := drains_noise hnoise (ws.drop lost)
  rw [hrest, hdrop] at hcut hsplit
  refine ⟨[.dropped garbage hgarbage, .yielded frame x y, .dropped garbage' hgarbage'], lost, rest',
    ?_, ?_, ?_, ?_⟩
  · rw [hsplit, hsplit']
    simp [Piece.bytes]
  · exact .yield hcut hdrains
  · intro offset hoffset
    simp only [Piece.offsets, Nat.zero_add, List.mem_cons, List.not_mem_nil, or_false] at hoffset
    omega
  · intro i hi
    have := hbefore i hi
    omega

/-- **Every stretch of garbage is got through.** Induction on its length: each poll that yields a frame
    from within it leaves less. -/
theorem recovers (s : List UInt8) (ws : List WireFrame) :
    ∃ pieces lost rest, Recovers s ws pieces lost rest := by
  induction h : s.length using Nat.strongRecOn generalizing s with
  | ind n ih =>
      subst h
      by_cases hs : NoMagic s
      · obtain ⟨pieces, rest, h⟩ := recovers_noise hs ws
        exact ⟨pieces, 0, rest, h⟩
      · have htwo : 2 ≤ (seek s).length := by
          by_contra hlen
          exact hs (noMagic_of_length_seek_le (by omega))
        have hseek : seek (s ++ wires ws) = seek s ++ wires ws := seek_append_of_two_le htwo _
        obtain ⟨garbage, hgarbage, hsplit, hc⟩ := FrameAssembler.cut_piece_cases (s ++ wires ws)
        rw [hseek] at hsplit hc
        have hs' : s = garbage ++ seek s := by
          rw [← List.append_assoc] at hsplit
          exact List.append_cancel_right hsplit
        have hlen : s.length = garbage.length + (seek s).length := by
          conv => lhs; rw [hs', List.length_append]
        rcases hc with hc | ⟨frame, x, y, rest, hc, hyield⟩
        · exact recovers_waiting hgarbage hs' htwo hc
        · by_cases hin : frame.bytes.length + 2 ≤ (seek s).length
          · -- the frame ends within the garbage
            obtain ⟨s', hs''⟩ : frame.bytes ++ [x, y] <+: seek s := by
              refine List.prefix_of_prefix_length_le ⟨rest, hyield.symm⟩ ⟨wires ws, rfl⟩ ?_
              rw [List.length_append]
              exact hin
            have hrest : rest = s' ++ wires ws := by
              rw [← hs'', List.append_assoc] at hyield
              exact (List.append_cancel_left hyield).symm
            have hwhole : s = garbage ++ (frame.bytes ++ [x, y]) ++ s' := by
              rw [List.append_assoc, hs'']
              exact hs'
            have hshorter : s'.length < s.length := by
              rw [hwhole]
              simp only [List.length_append, List.length_cons]
              omega
            obtain ⟨pieces, lost, rest', h⟩ := ih s'.length hshorter s' rfl
            rw [hrest, hwhole, List.append_assoc] at hc
            rw [hwhole]
            exact ⟨_, lost, rest', h.yield hgarbage frame x y hc⟩
          · refine recovers_overrun hgarbage frame x y hc ?_ (by omega) (by omega)
            rw [hsplit, hyield]
            simp only [List.append_assoc]

/-- **Bounded recovery.** Whatever garbage arrives in front of complete frames in which the magic
    occurs once, and however all of it is cut into chunks: what is yielded are frames that start within
    the garbage, and then whole frames without a gap up to the last. Of the real frames only such are
    lost as start less than 268 bytes behind the garbage. -/
theorem bounded_recovery {garbage : List UInt8} {ws : List WireFrame}
    {es : List (Decoder.Event UInt8)} (hes : Decoder.pushed es = garbage ++ wires ws) :
    let s := FrameAssembler.new.session es
    ∃ (pieces : List Piece) (lost : Nat),
      s.1 ++ s.2.drain.1 = pieces.filterMap Piece.frame? ++ (ws.drop lost).map WireFrame.frame ∧
      garbage ++ wires ws =
        pieces.flatMap Piece.bytes ++ (wires (ws.drop lost) ++ s.2.drain.2.buffer) ∧
      (∀ offset ∈ Piece.offsets 0 pieces, offset < garbage.length) ∧
      ∀ i < ws.length, 268 ≤ (wires (ws.take i)).length → lost ≤ i := by
  intro s
  obtain ⟨pieces, lost, rest, h⟩ := recovers garbage ws
  have hdrain := FrameAssembler.session_drain es
  rw [hes] at hdrain
  obtain ⟨hframes, hrest⟩ := h.drains.unique (FrameAssembler.drains_iff_drain.2 hdrain)
  refine ⟨pieces, lost, hframes.symm, ?_, h.starts, ?_⟩
  · rw [h.split, hrest]
  · intro i _ hfar
    by_contra hlost
    have := h.bound i (by omega)
    omega

/-- The status request of the other samples. -/
def sampleWireFrame : WireFrame where
  bytes := (sampleTransmission true).wire
  payloadLen := 16
  magic := by decide
  magic_once := by decide
  payloadLen_at := by decide
  length_eq := by decide
  terminator := by decide

/-- A false header in front of two requests, in two chunks. -/
theorem bounded_recovery_false_header :
    let garbage : List UInt8 := [0x0a, 0x7f, 0x5a, 5]
    let ws := [sampleWireFrame, sampleWireFrame]
    let stream := garbage ++ wires ws
    let s := FrameAssembler.new.session [.push (stream.take 20), .poll, .push (stream.drop 20)]
    ∃ (pieces : List Piece) (lost : Nat),
      s.1 ++ s.2.drain.1 = pieces.filterMap Piece.frame? ++ (ws.drop lost).map WireFrame.frame ∧
      garbage ++ wires ws =
        pieces.flatMap Piece.bytes ++ (wires (ws.drop lost) ++ s.2.drain.2.buffer) ∧
      (∀ offset ∈ Piece.offsets 0 pieces, offset < garbage.length) ∧
      ∀ i < ws.length, 268 ≤ (wires (ws.take i)).length → lost ≤ i := by
  intro garbage ws stream s
  have hpushed : Decoder.pushed [.push (stream.take 20), .poll, .push (stream.drop 20)] =
      garbage ++ wires ws := by decide +kernel
  exact bounded_recovery hpushed

end TTLock
