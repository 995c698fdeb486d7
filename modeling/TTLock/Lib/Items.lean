import Mathlib.Data.List.Basic

set_option autoImplicit false

/-! # Items one after the other

A text that is nothing but items in a row, where every item tells where it ends. Such a text is read
back as it was written, and a text that was cut short is refused unless the cut falls between two
items: nothing then says that there was more. -/

namespace Items

variable {ι α β ε : Type}

/-- Read items until nothing is left, at most `fuel` of them. -/
def readAll (next : List β → Except ε (α × List β)) (exhausted : ε) :
    (fuel : Nat) → List β → Except ε (List α)
  | _, [] => .ok []
  | 0, _ :: _ => .error exhausted
  | fuel + 1, b :: rest => match next (b :: rest) with
    | .error e => .error e
    | .ok (item, rest) => (readAll next exhausted fuel rest).map (item :: ·)

/-- What is written of an item is read back whatever follows it, and no proper part of it is. -/
structure Reads (next : List β → Except ε (α × List β)) (write : ι → List β) (item : ι → α) : Prop where
  ne_nil : ∀ i, write i ≠ []
  whole : ∀ i rest, next (write i ++ rest) = .ok (item i, rest)
  part : ∀ i n, 0 < n → n < (write i).length → ∃ e, next ((write i).take n) = .error e

section

variable {next : List β → Except ε (α × List β)} {exhausted : ε} {write : ι → List β} {item : ι → α}

@[simp] theorem readAll_nil (fuel : Nat) : readAll next exhausted fuel [] = .ok [] := by
  cases fuel <;> rfl

/-- An item that cannot be read refuses the whole text. -/
theorem readAll_error (fuel : Nat) {text : List β} {e : ε} (hne : text ≠ [])
    (h : next text = .error e) : ∃ e, readAll next exhausted fuel text = .error e := by
  obtain ⟨b, rest, rfl⟩ := List.exists_cons_of_ne_nil hne
  cases fuel with
  | zero => exact ⟨exhausted, rfl⟩
  | succ fuel => exact ⟨e, by rw [readAll, h]⟩

/-- One item is read and the rest of the text as before. -/
theorem readAll_cons (hreads : Reads next write item) (fuel : Nat) (i : ι) (rest : List β) :
    readAll next exhausted (fuel + 1) (write i ++ rest) =
      (readAll next exhausted fuel rest).map (item i :: ·) := by
  have hwhole := hreads.whole i rest
  obtain ⟨b, tail, hb⟩ := List.exists_cons_of_ne_nil (hreads.ne_nil i)
  rw [hb, List.cons_append] at hwhole ⊢
  rw [readAll, hwhole]

/-- **Round trip.** What was written of a list of items is read back as these items. -/
theorem readAll_written (hreads : Reads next write item) (items : List ι) {fuel : Nat}
    (hfuel : (items.flatMap write).length ≤ fuel) :
    readAll next exhausted fuel (items.flatMap write) = .ok (items.map item) := by
  induction items generalizing fuel with
  | nil => exact readAll_nil fuel
  | cons i items ih =>
      have hi := List.length_pos_iff.2 (hreads.ne_nil i)
      rw [List.flatMap_cons, List.length_append] at hfuel
      obtain ⟨fuel, rfl⟩ := Nat.exists_eq_add_one_of_ne_zero (show fuel ≠ 0 by omega)
      rw [List.flatMap_cons, readAll_cons hreads, ih (by omega)]
      rfl

/-- A cut between two items leaves the items before it. -/
theorem take_length_flatMap_take (write : ι → List β) (items : List ι) (k : Nat) :
    (items.flatMap write).take ((items.take k).flatMap write).length = (items.take k).flatMap write := by
  have hsplit : items.flatMap write = (items.take k).flatMap write ++ (items.drop k).flatMap write := by
    rw [← List.flatMap_append, List.take_append_drop]
  rw [hsplit, List.take_left]

/-- The places between items, one item on. -/
theorem forall_ne_between_cons (write : ι → List β) (i : ι) (items : List ι) (n : Nat) :
    (∀ k ≤ (i :: items).length, n ≠ (((i :: items).take k).flatMap write).length) ↔
      n ≠ 0 ∧ ∀ k ≤ items.length, n ≠ (write i).length + ((items.take k).flatMap write).length := by
  have hsucc : ∀ k, (((i :: items).take (k + 1)).flatMap write).length =
      (write i).length + ((items.take k).flatMap write).length := by
    intro k
    rw [List.take_succ_cons, List.flatMap_cons, List.length_append]
  constructor
  · intro h
    refine ⟨h 0 (Nat.zero_le _), ?_⟩
    intro k hk
    rw [← hsucc]
    exact h (k + 1) (Nat.succ_le_succ hk)
  · rintro ⟨hzero, h⟩ k hk
    cases k with
    | zero => exact hzero
    | succ k =>
        rw [hsucc]
        exact h k (Nat.le_of_succ_le_succ hk)

/-- **A text that was cut short** is refused exactly where the cut does not fall between two items.
    The induction is on the items; the cut is before, within or behind the first of them. -/
theorem readAll_take_error_iff (hreads : Reads next write item) (items : List ι) {fuel n : Nat}
    (hfuel : n ≤ fuel) (hn : n ≤ (items.flatMap write).length) :
    (∃ e, readAll next exhausted fuel ((items.flatMap write).take n) = .error e) ↔
      ∀ k ≤ items.length, n ≠ ((items.take k).flatMap write).length := by
  have hnone : ∀ fuel, ¬∃ e, readAll next exhausted fuel [] = .error e := by simp
  induction items generalizing fuel n with
  | nil =>
      obtain rfl : n = 0 := Nat.le_zero.1 hn
      exact iff_of_false (hnone fuel) fun h => h 0 (Nat.le_refl 0) rfl
  | cons i items ih =>
      have hi := List.length_pos_iff.2 (hreads.ne_nil i)
      rw [List.flatMap_cons, List.length_append] at hn
      rw [forall_ne_between_cons, List.flatMap_cons]
      rcases Nat.eq_zero_or_pos n with rfl | hpos
      · exact iff_of_false (hnone fuel) fun h => h.1 rfl
      rw [and_iff_right (Nat.ne_of_gt hpos)]
      rcases Nat.lt_or_ge n (write i).length with hlt | hge
      · rw [List.take_append_of_le_length (Nat.le_of_lt hlt)]
        obtain ⟨e, he⟩ := hreads.part i n hpos hlt
        have hne : (write i).take n ≠ [] := by
          intro hnil
          rcases List.take_eq_nil_iff.1 hnil with h | h
          · exact Nat.ne_of_gt hpos h
          · exact hreads.ne_nil i h
        refine iff_of_true (readAll_error _ hne he) ?_
        intro k _
        omega
      · obtain ⟨m, rfl⟩ := Nat.exists_eq_add_of_le hge
        obtain ⟨fuel, rfl⟩ := Nat.exists_eq_add_one_of_ne_zero (show fuel ≠ 0 by omega)
        rw [List.take_length_add_append, readAll_cons hreads]
        have hmap : (∃ e, (readAll next exhausted fuel ((items.flatMap write).take m)).map
            (item i :: ·) = .error e) ↔
            ∃ e, readAll next exhausted fuel ((items.flatMap write).take m) = .error e := by
          cases readAll next exhausted fuel ((items.flatMap write).take m) with
          | error e => exact Iff.rfl
          | ok rest => constructor <;> rintro ⟨e, he⟩ <;> cases he
        have hrest := ih (show m ≤ fuel by omega) (show m ≤ (items.flatMap write).length by omega)
        refine hmap.trans (hrest.trans ?_)
        simp only [ne_eq, Nat.add_left_cancel_iff]

end

end Items
