import TTLock.Core.Framing
import TTLock.Lib.Decoder

set_option autoImplicit false

/-! # Reassembly does not depend on chunking

`resync` throws bytes away while a frame is still incomplete, so it has to be shown that what it
throws away could not have mattered. `seek` is `resync` by structural recursion, one byte at a time;
in that form the one fact everything rests on, `seek_seek_append`, is a plain induction: seeking,
then appending, then seeking again finds what seeking in the whole finds. With it `nextFrame` is an
incremental decoder, and the rules about those do the rest. -/

namespace TTLock

/-! ## Seeking the magic -/

/-- Drop bytes until the magic stands in front, or its first byte alone. -/
def seek : List UInt8 → List UInt8
  | [] => []
  | [b] => if b = 0x7f then [b] else []
  | a :: b :: rest => if a = 0x7f ∧ b = 0x5a then a :: b :: rest else seek (b :: rest)

theorem seek_cons_cons_of_ne {a b : UInt8} (h : ¬(a = 0x7f ∧ b = 0x5a)) (rest : List UInt8) :
    seek (a :: b :: rest) = seek (b :: rest) := by
  rw [seek, if_neg h]

theorem seek_magic (rest : List UInt8) : seek (0x7f :: 0x5a :: rest) = 0x7f :: 0x5a :: rest := rfl

/-- Seeking leaves nothing, the first byte of the magic, or something that starts with the magic. -/
theorem seek_cases (s : List UInt8) :
    seek s = [] ∨ seek s = [0x7f] ∨ ∃ rest, seek s = 0x7f :: 0x5a :: rest := by
  induction s with
  | nil => exact .inl rfl
  | cons a tail ih =>
      cases tail with
      | nil =>
          by_cases h : a = 0x7f
          · exact .inr (.inl (by rw [seek, if_pos h, h]))
          · exact .inl (by rw [seek, if_neg h])
      | cons b rest =>
          by_cases h : a = 0x7f ∧ b = 0x5a
          · obtain ⟨rfl, rfl⟩ := h
            exact .inr (.inr ⟨rest, rfl⟩)
          · rw [seek_cons_cons_of_ne h]
            exact ih

theorem length_seek_le (s : List UInt8) : (seek s).length ≤ s.length := by
  fun_induction seek s with
  | case1 => exact Nat.le_refl _
  | case2 => exact Nat.le_refl _
  | case3 => exact Nat.zero_le _
  | case4 => exact Nat.le_refl _
  | case5 a b rest h ih => exact Nat.le_succ_of_le ih

/-- **What seeking drops never mattered.** -/
theorem seek_seek_append (s x : List UInt8) : seek (seek s ++ x) = seek (s ++ x) := by
  fun_induction seek s with
  | case1 => rfl
  | case2 => rfl
  | case3 b h =>
      -- the one byte dropped is not the magic's first, whatever comes next
      cases x with
      | nil => rw [List.append_nil, List.append_nil, seek, seek, if_neg h]
      | cons c x => exact (seek_cons_cons_of_ne (fun hc => h hc.1) x).symm
  | case4 => rfl
  | case5 a b rest h ih => rw [ih]; exact (seek_cons_cons_of_ne h (rest ++ x)).symm

/-- Once the magic is found, more input only follows it. -/
theorem seek_append_of_two_le {s : List UInt8} (h : 2 ≤ (seek s).length) (x : List UInt8) :
    seek (s ++ x) = seek s ++ x := by
  rw [← seek_seek_append]
  rcases seek_cases s with hs | hs | ⟨rest, hs⟩
  · rw [hs] at h; exact absurd h (by decide)
  · rw [hs] at h; exact absurd h (by decide)
  · rw [hs, List.cons_append, List.cons_append, seek_magic]

/-! ## The assembler as a decoder -/

namespace FrameAssembler

/-- Where the search of `resync` ends, counted from the front of the buffer. -/
theorem drop_findIdx?_zip (s : List UInt8) :
    s.drop (match (s.zip s.tail).findIdx? (· == (0x7f, 0x5a)) with
      | some position => position
      | none => if s.getLast? = some 0x7f then s.length - 1 else s.length) = seek s := by
  induction s with
  | nil => rfl
  | cons a tail ih =>
      cases tail with
      | nil => by_cases h : a = 0x7f <;> simp [seek, h]
      | cons b rest =>
          rw [List.tail_cons] at ih
          rw [List.tail_cons, List.zip_cons_cons, List.findIdx?_cons]
          by_cases h : a = 0x7f ∧ b = 0x5a
          · obtain ⟨rfl, rfl⟩ := h
            rfl
          · have hne : ((a, b) == ((0x7f, 0x5a) : UInt8 × UInt8)) = false := by
              simpa [Prod.ext_iff] using h
            rw [hne, seek_cons_cons_of_ne h, ← ih]
            cases ((b :: rest).zip rest).findIdx? (· == (0x7f, 0x5a)) with
            | some position => rfl
            | none => simp only [Bool.false_eq_true, if_false, Option.map_none,
                List.getLast?_cons_cons, List.length_cons]; split <;> rfl

theorem buffer_resync (self : FrameAssembler) : self.resync.buffer = seek self.buffer :=
  drop_findIdx?_zip self.buffer

/-- What `nextFrame` cuts off a buffer that has been resynchronized. -/
def cutSought (s : List UInt8) : Option (List UInt8) × List UInt8 :=
  match s[11]? with
  | none => (none, s)
  | some payloadLen =>
      if s.length < payloadLen.toNat + 15 then (none, s)
      else (some (s.take (payloadLen.toNat + 13)), s.drop (payloadLen.toNat + 15))

/-- `nextFrame` on buffers. -/
def cut (b : List UInt8) : Option (List UInt8) × List UInt8 := cutSought (seek b)

theorem nextFrame_eq_cut (self : FrameAssembler) :
    self.nextFrame = ((cut self.buffer).1, ⟨(cut self.buffer).2⟩) := by
  have hsync : self.resync = ⟨seek self.buffer⟩ := congrArg FrameAssembler.mk (buffer_resync self)
  simp only [nextFrame, hsync, cut, cutSought, HEADER_LEN, CRLF, List.length_cons, List.length_nil]
  by_cases hlen : (seek self.buffer).length < 12
  · rw [dif_pos hlen, List.getElem?_eq_none (by omega)]
  · rw [dif_neg hlen, List.getElem?_eq_getElem (by omega)]
    have hwire : 12 + (seek self.buffer)[11].toNat + 1 + (0 + 1 + 1)
        = (seek self.buffer)[11].toNat + 15 := by omega
    have hframe : 12 + (seek self.buffer)[11].toNat + 1 = (seek self.buffer)[11].toNat + 13 := by
      omega
    rw [hwire, hframe]
    simp only [List.take_take, Nat.min_eq_left (Nat.add_le_add_left (by decide : 13 ≤ 15) _)]
    split <;> rfl

/-- Everything `cut` can do: wait with what seeking left, or take a frame off its front. -/
theorem cut_cases (b : List UInt8) :
    cut b = (none, seek b) ∨
    ∃ payloadLen, (seek b)[11]? = some payloadLen ∧ payloadLen.toNat + 15 ≤ (seek b).length ∧
      cut b = (some ((seek b).take (payloadLen.toNat + 13)),
        (seek b).drop (payloadLen.toNat + 15)) := by
  unfold cut cutSought
  rcases (seek b)[11]? with _ | payloadLen
  · exact .inl rfl
  · by_cases h : (seek b).length < payloadLen.toNat + 15
    · exact .inl (if_pos h)
    · exact .inr ⟨payloadLen, rfl, Nat.le_of_not_lt h, if_neg h⟩

/-- **`nextFrame` is an incremental decoder.** -/
theorem incremental_cut : Decoder.Incremental cut where
  shrink := by
    intro b f r h
    rcases cut_cases b with hc | ⟨n, -, hn, hc⟩
    · exact absurd (hc.symm.trans h) (by simp)
    · have hr : (seek b).drop (n.toNat + 15) = r := (Prod.mk.inj (hc.symm.trans h)).2
      have hle := length_seek_le b
      rw [← hr, List.length_drop]
      omega
  extend := by
    intro b f r x h
    rcases cut_cases b with hc | ⟨n, hget, hn, hc⟩
    · exact absurd (hc.symm.trans h) (by simp)
    · obtain ⟨hf, hr⟩ := Prod.mk.inj (hc.symm.trans h)
      have hseek : seek (b ++ x) = seek b ++ x := seek_append_of_two_le (by omega) x
      have hget' : (seek b ++ x)[11]? = some n := by
        rw [List.getElem?_append_left (by omega), hget]
      have hlen : ¬(seek b ++ x).length < n.toNat + 15 := by
        rw [List.length_append]; omega
      rw [cut, hseek, cutSought, hget']
      dsimp only
      rw [if_neg hlen, List.take_append_of_le_length (by omega),
        List.drop_append_of_le_length hn, hf, hr]
  resume := by
    intro b r x h
    rcases cut_cases b with hc | ⟨n, -, -, hc⟩
    · have hr : seek b = r := (Prod.mk.inj (hc.symm.trans h)).2
      rw [← hr, cut, cut, seek_seek_append]
    · exact absurd (hc.symm.trans h) (by simp)

/-! ## Sessions and draining -/

/-- A session with an assembler: chunks are pushed and frames asked for, in any order. The frames it
    yields, and the assembler it leaves. -/
def session (self : FrameAssembler) : List (Decoder.Event UInt8) → List (List UInt8) × FrameAssembler
  | [] => ([], self)
  | .push chunk :: es => (self.push chunk).session es
  | .poll :: es =>
      let (frame, self) := self.nextFrame
      let (frames, self) := self.session es
      (frame.toList ++ frames, self)

theorem nextFrame_shrink {self rest : FrameAssembler} {frame : List UInt8}
    (h : self.nextFrame = (some frame, rest)) : rest.buffer.length < self.buffer.length := by
  rw [nextFrame_eq_cut] at h
  obtain ⟨hf, rfl⟩ := Prod.mk.inj h
  exact incremental_cut.shrink (Prod.ext hf rfl)

/-- Call `nextFrame` until it returns nothing. -/
def drain (self : FrameAssembler) : List (List UInt8) × FrameAssembler :=
  match h : self.nextFrame with
  | (none, rest) => ([], rest)
  | (some frame, rest) =>
      have := nextFrame_shrink h
      let (frames, rest) := rest.drain
      (frame :: frames, rest)
termination_by self.buffer.length

theorem session_eq (self : FrameAssembler) (es : List (Decoder.Event UInt8)) :
    self.session es = ((Decoder.session cut self.buffer es).1,
      ⟨(Decoder.session cut self.buffer es).2⟩) := by
  induction es generalizing self with
  | nil => rfl
  | cons e es ih =>
      cases e with
      | push chunk => exact ih _
      | poll => simp only [session, nextFrame_eq_cut, ih, Decoder.session, Decoder.event]

/-- Draining is a function, and it computes what the polls yield. -/
theorem drains_iff_drain {self rest : FrameAssembler} {frames : List (List UInt8)} :
    Decoder.Drains cut self.buffer frames rest.buffer ↔ self.drain = (frames, rest) := by
  have hdrain : ∀ n (a : FrameAssembler), a.buffer.length = n →
      Decoder.Drains cut a.buffer a.drain.1 a.drain.2.buffer := by
    intro n
    induction n using Nat.strongRecOn with
    | ind n ih =>
        intro a hn
        rcases hc : cut a.buffer with ⟨_ | frame, r⟩
        · have hnext : a.nextFrame = (none, ⟨r⟩) := by rw [nextFrame_eq_cut, hc]
          have ha : a.drain = ([], ⟨r⟩) := by
            rw [drain]; split
            · next h => rw [hnext] at h; rw [(Prod.mk.inj h).2]
            · next h => rw [hnext] at h; exact absurd h (by simp)
          rw [ha]
          exact .stop hc
        · have hnext : a.nextFrame = (some frame, ⟨r⟩) := by rw [nextFrame_eq_cut, hc]
          have ha : a.drain = (frame :: (drain ⟨r⟩).1, (drain ⟨r⟩).2) := by
            rw [drain]; split
            · next h => rw [hnext] at h; exact absurd h (by simp)
            · next h => rw [hnext] at h; obtain ⟨hf, rfl⟩ := Prod.mk.inj h
                        rw [Option.some.inj hf]
          rw [ha]
          exact .yield hc (ih r.length (hn ▸ incremental_cut.shrink hc) ⟨r⟩ rfl)
  constructor
  · intro h
    obtain ⟨h₁, h₂⟩ := (hdrain _ self rfl).unique h
    exact Prod.ext h₁ (congrArg FrameAssembler.mk h₂)
  · intro h
    simpa only [h] using hdrain _ self rfl

/-- Draining leaves no frame behind. -/
theorem drain_drain (self : FrameAssembler) : self.drain.2.drain.1 = [] := by
  have hrest := incremental_cut.drained (drains_iff_drain.2 (rfl : self.drain = (_, _)))
  exact congrArg Prod.fst ((@drains_iff_drain self.drain.2 self.drain.2 []).1 (.stop hrest))

/-- A session and then draining what it leaves, against draining everything that was pushed. -/
theorem session_drain (es : List (Decoder.Event UInt8)) :
    (new.push (Decoder.pushed es)).drain
      = ((new.session es).1 ++ (new.session es).2.drain.1, (new.session es).2.drain.2) := by
  have hleft : Decoder.Drains cut (new.session es).2.buffer (new.session es).2.drain.1
      (new.session es).2.drain.2.buffer := drains_iff_drain.2 rfl
  rw [session_eq] at hleft ⊢
  exact drains_iff_drain.1 (incremental_cut.session_drains es hleft)

/-- **Chunking and polling do not show.** However a byte string is cut into chunks and whenever
    frames are asked for in between: once `nextFrame` returns nothing, the frames yielded so far and
    the buffer kept are those of pushing the whole string at once and draining it. -/
theorem session_eq_drain (es : List (Decoder.Event UInt8)) {frames : List (List UInt8)}
    {self rest : FrameAssembler} (hes : new.session es = (frames, self))
    (hnone : self.nextFrame = (none, rest)) :
    (new.push (Decoder.pushed es)).drain = (frames, rest) := by
  have hself : self.drain = ([], rest) := by
    apply drains_iff_drain.1
    rw [nextFrame_eq_cut] at hnone
    obtain ⟨h₁, rfl⟩ := Prod.mk.inj hnone
    exact .stop (Prod.ext h₁ rfl)
  rw [session_drain, hes, hself, List.append_nil]

/-- A magic split between two chunks, with garbage before it and half a magic after the frame. -/
theorem session_eq_drain_split_magic :
    (new.push (Decoder.pushed [.push [0x5a, 0x7f], .poll, .push [0x5a, 5, 3, 2, 0, 1, 0, 1, 0x58],
      .poll, .push [], .push [0xaa, 0, 9, 0x0d, 0x0a, 0x7f], .poll])).drain
      = ([[0x7f, 0x5a, 5, 3, 2, 0, 1, 0, 1, 0x58, 0xaa, 0, 9]], ⟨[0x7f]⟩) := by
  have hes : new.session [.push [0x5a, 0x7f], .poll, .push [0x5a, 5, 3, 2, 0, 1, 0, 1, 0x58], .poll,
      .push [], .push [0xaa, 0, 9, 0x0d, 0x0a, 0x7f], .poll]
      = ([[0x7f, 0x5a, 5, 3, 2, 0, 1, 0, 1, 0x58, 0xaa, 0, 9]], ⟨[0x7f]⟩) := by decide +kernel
  exact session_eq_drain _ hes (by decide +kernel)

end FrameAssembler

end TTLock
