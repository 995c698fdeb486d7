import Mathlib.Data.List.Basic

set_option autoImplicit false

/-! # Incremental decoders

A decoder looks at what is buffered so far and either cuts a frame off the front, or yields nothing
and says what is worth keeping until more arrives. It is `Incremental` when neither kind of answer
depends on input still to come: a frame that is cut now would be cut the same way with more input
behind it, and what was thrown away while waiting could not have mattered.

For such a decoder the way a stream is cut into chunks and the moments it is polled at do not show:
`session_drains` says that any session over a stream yields what draining the whole stream at once
yields, and leaves the same rest. -/

namespace Decoder

variable {α β : Type*}

/-- What a decoder has to satisfy for chunking not to matter. -/
structure Incremental (d : List α → Option β × List α) : Prop where
  /-- A frame uses up input. -/
  shrink : ∀ {b f r}, d b = (some f, r) → r.length < b.length
  /-- A frame that is complete stays what it is when more input follows. -/
  extend : ∀ {b f r} (x : List α), d b = (some f, r) → d (b ++ x) = (some f, r ++ x)
  /-- What is kept while waiting decides everything that follows. -/
  resume : ∀ {b r} (x : List α), d b = (none, r) → d (r ++ x) = d (b ++ x)

/-- Polling until nothing comes: `Drains d b fs r` says that the polls of `b` yield the frames `fs`
    and then nothing, leaving `r`. -/
inductive Drains (d : List α → Option β × List α) : List α → List β → List α → Prop where
  | stop {b r : List α} : d b = (none, r) → Drains d b [] r
  | yield {b b' r : List α} {f : β} {fs : List β} :
      d b = (some f, b') → Drains d b' fs r → Drains d b (f :: fs) r

variable {d : List α → Option β × List α}

/-! ## Draining is a function -/

theorem Drains.unique {b : List α} {fs gs : List β} {r r' : List α} (h : Drains d b fs r)
    (h' : Drains d b gs r') : fs = gs ∧ r = r' := by
  induction h generalizing gs with
  | stop hb =>
      cases h' with
      | stop hb' => exact ⟨rfl, (Prod.mk.inj (hb.symm.trans hb')).2⟩
      | yield hb' _ => exact absurd (hb.symm.trans hb') (by simp)
  | yield hb _ ih =>
      cases h' with
      | stop hb' => exact absurd (hb.symm.trans hb') (by simp)
      | yield hb' ht =>
          obtain ⟨hf, rfl⟩ := Prod.mk.inj (hb.symm.trans hb')
          obtain ⟨rfl, rfl⟩ := ih ht
          exact ⟨by rw [Option.some.inj hf], rfl⟩

/-- Draining a buffer and going on from the rest with more input is draining it all. -/
theorem Incremental.drains_append (hd : Incremental d) {b r r' x : List α} {fs gs : List β}
    (h : Drains d b fs r) (hx : Drains d (r ++ x) gs r') : Drains d (b ++ x) (fs ++ gs) r' := by
  induction h with
  | stop hb =>
      -- polling what was kept and polling what it was kept from agree
      have hpoll := hd.resume x hb
      cases hx with
      | stop hr => exact .stop (hpoll ▸ hr)
      | yield hr ht => exact .yield (hpoll ▸ hr) ht
  | yield hb _ ih => exact .yield (hd.extend x hb) (ih hx)

/-- What draining leaves yields nothing, and stays what it is. -/
theorem Incremental.drained (hd : Incremental d) {b r : List α} {fs : List β} (h : Drains d b fs r) :
    d r = (none, r) := by
  induction h with
  | stop hb =>
      have hagain := hd.resume [] hb
      rw [List.append_nil, List.append_nil] at hagain
      exact hagain.trans hb
  | yield _ _ ih => exact ih

/-! ## Sessions -/

/-- What happens to a decoder: a chunk arrives, or somebody polls. -/
inductive Event (α : Type*) where
  | push (chunk : List α)
  | poll

/-- One event: the frame a poll yields, and the buffer after it. -/
def event (d : List α → Option β × List α) (b : List α) : Event α → Option β × List α
  | .push chunk => (none, b ++ chunk)
  | .poll => d b

/-- The frames a session yields and the buffer it leaves. -/
def session (d : List α → Option β × List α) : List α → List (Event α) → List β × List α
  | b, [] => ([], b)
  | b, e :: es =>
      let rest := session d (event d b e).2 es
      ((event d b e).1.toList ++ rest.1, rest.2)

/-- Everything pushed during a session. -/
def pushed : List (Event α) → List α
  | [] => []
  | .push chunk :: es => chunk ++ pushed es
  | .poll :: es => pushed es

theorem pushed_append (es es' : List (Event α)) : pushed (es ++ es') = pushed es ++ pushed es' := by
  induction es with
  | nil => rfl
  | cons e es ih => cases e <;> simp only [List.cons_append, pushed, ih, List.append_assoc]

/-- One event in front of a buffer that will be drained: the frame it yields comes first, and what
    it pushes is drained with the rest. -/
theorem Incremental.event_drains (hd : Incremental d) {b r x : List α} {fs : List β} (e : Event α)
    (h : Drains d ((event d b e).2 ++ x) fs r) :
    Drains d (b ++ pushed [e] ++ x) ((event d b e).1.toList ++ fs) r := by
  cases e with
  | push chunk => simpa only [event, pushed, List.append_nil, Option.toList_none,
      List.nil_append] using h
  | poll =>
      simp only [event, pushed, List.append_nil] at h ⊢
      rcases hb : d b with ⟨_ | f, b'⟩
      · rw [hb] at h
        exact hd.drains_append (.stop hb) h
      · rw [hb] at h
        exact .yield (hd.extend x hb) h

/-- **Chunking and polling do not show.** A session that starts with `b` buffered, and whose
    leftover drains to `fs'`, yields what draining `b` and all that was pushed yields. -/
theorem Incremental.session_drains (hd : Incremental d) (es : List (Event α)) {b r : List α}
    {fs' : List β} (h : Drains d (session d b es).2 fs' r) :
    Drains d (b ++ pushed es) ((session d b es).1 ++ fs') r := by
  induction es generalizing b with
  | nil => simpa only [session, pushed, List.append_nil, List.nil_append] using h
  | cons e es ih =>
      have hrest := hd.event_drains (b := b) e (ih h)
      have hpush : pushed (e :: es) = pushed [e] ++ pushed es := pushed_append [e] es
      rw [hpush, ← List.append_assoc]
      simpa only [session, List.append_assoc] using hrest

/-! ## Streams made of frames with droppable input between them -/

/-- If every segment of a stream, whatever follows it, costs one poll and yields its frame, the
    whole stream drains to those frames and then to what the tail drains to. -/
theorem drains_segments {γ : Type*} (segment : γ → List α) (frame : γ → β)
    (gs : List γ)
    (hseg : ∀ g ∈ gs, ∀ x, d (segment g ++ x) = (some (frame g), x)) {tail r : List α}
    {fs : List β} (ht : Drains d tail fs r) :
    Drains d (gs.flatMap segment ++ tail) (gs.map frame ++ fs) r := by
  induction gs with
  | nil => exact ht
  | cons g gs ih =>
      simp only [List.flatMap_cons, List.map_cons, List.cons_append, List.append_assoc]
      have htail := ih fun g' hg' => hseg g' (List.mem_cons_of_mem g hg')
      exact .yield (hseg g (List.mem_cons_self ..) _) htail

/-! ## Conservation

If every poll takes pieces off the front of the buffer, and the frame it yields is the one its pieces
hold, then what was put in is the pieces that were taken out, in order, and what is left. -/

section Conservation

variable {γ : Type*} {bytes : γ → List α} {frame? : γ → Option β}

theorem drains_pieces
    (hpoll : ∀ b, ∃ gs : List γ, b = gs.flatMap bytes ++ (d b).2 ∧
      gs.filterMap frame? = (d b).1.toList)
    {b r : List α} {fs : List β} (h : Drains d b fs r) :
    ∃ gs : List γ, b = gs.flatMap bytes ++ r ∧ gs.filterMap frame? = fs := by
  induction h with
  | @stop b r hb =>
      obtain ⟨gs, hsplit, hframes⟩ := hpoll b
      rw [hb] at hsplit hframes
      exact ⟨gs, hsplit, hframes⟩
  | @yield b b' r f fs hb _ ih =>
      obtain ⟨gs, hsplit, hframes⟩ := hpoll b
      obtain ⟨gs', hsplit', hframes'⟩ := ih
      rw [hb] at hsplit hframes
      refine ⟨gs ++ gs', ?_, ?_⟩
      · rw [List.flatMap_append, List.append_assoc, ← hsplit', ← hsplit]
      · rw [List.filterMap_append, hframes, hframes']
        rfl

end Conservation

end Decoder
