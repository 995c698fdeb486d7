import Mathlib.Data.List.Basic

set_option autoImplicit false

/-! # Cipher block chaining with PKCS#7 padding

The mode and the padding, over any block cipher whose blocks are written as a fixed number of bytes.
`Scheme.decrypt_encrypt` says that decryption inverts encryption whenever the block cipher does. -/

/-! ## Padding -/

namespace Pkcs7

/-- Fill up to the next multiple of `n`, always by at least one byte. -/
def pad (n : Nat) (bs : List UInt8) : List UInt8 :=
  bs ++ List.replicate (n - bs.length % n) (UInt8.ofNat (n - bs.length % n))

/-- Take the padding off, if it is one. -/
def unpad (n : Nat) (bs : List UInt8) : Option (List UInt8) :=
  match bs.getLast? with
  | none => none
  | some last =>
      let count := last.toNat
      if 0 < count ∧ count ≤ n ∧ count ≤ bs.length ∧
          bs.drop (bs.length - count) = List.replicate count last then
        some (bs.take (bs.length - count))
      else none

theorem length_pad {n : Nat} (hn : 0 < n) (bs : List UInt8) :
    (pad n bs).length = n * (bs.length / n + 1) := by
  have hmod := Nat.mod_lt bs.length hn
  have hdiv := Nat.div_add_mod bs.length n
  rw [pad, List.length_append, List.length_replicate, Nat.mul_add, Nat.mul_one]
  omega

theorem unpad_pad {n : Nat} (hn : 0 < n) (h256 : n < 256) (bs : List UInt8) :
    unpad n (pad n bs) = some bs := by
  have hmod := Nat.mod_lt bs.length hn
  have hcount : (UInt8.ofNat (n - bs.length % n)).toNat = n - bs.length % n := by
    rw [UInt8.toNat_ofNat', Nat.mod_eq_of_lt (by omega)]
  have hlast : (pad n bs).getLast? = some (UInt8.ofNat (n - bs.length % n)) := by
    rw [pad, List.getLast?_append, List.getLast?_replicate, if_neg (by omega), Option.some_or]
  have hlen : (pad n bs).length - (n - bs.length % n) = bs.length := by
    rw [pad, List.length_append, List.length_replicate, Nat.add_sub_cancel]
  unfold unpad
  rw [hlast]
  dsimp only
  rw [hcount, hlen]
  simp only [pad, List.drop_left, List.take_left, List.length_append, List.length_replicate]
  rw [if_pos ⟨by omega, by omega, by omega, trivial⟩]

end Pkcs7

/-! ## Chaining -/

namespace Cbc

/-- A block cipher under one key, with its blocks as bytes. -/
structure Scheme (B : Type*) where
  size : Nat
  enc : B → B
  dec : B → B
  xor : B → B → B
  toBytes : B → List UInt8
  ofBytes : List UInt8 → Option B
  size_pos : 0 < size
  size_lt : size < 256
  dec_enc : ∀ s, dec (enc s) = s
  xor_xor : ∀ s t, xor (xor s t) t = s
  length_toBytes : ∀ s, (toBytes s).length = size
  ofBytes_toBytes : ∀ s, ofBytes (toBytes s) = some s
  ofBytes_of_length : ∀ bs, bs.length = size → ∃ s, ofBytes bs = some s ∧ toBytes s = bs

namespace Scheme

variable {B : Type*} (S : Scheme B)

/-- Each block is added to the ciphertext before it. -/
def chain : B → List B → List B
  | _, [] => []
  | iv, s :: ss => S.enc (S.xor s iv) :: chain (S.enc (S.xor s iv)) ss

def unchain : B → List B → List B
  | _, [] => []
  | iv, c :: cs => S.xor (S.dec c) iv :: unchain c cs

theorem unchain_chain (iv : B) (ss : List B) : S.unchain iv (S.chain iv ss) = ss := by
  induction ss generalizing iv with
  | nil => rfl
  | cons s ss ih => simp only [chain, unchain, S.dec_enc, S.xor_xor, ih]

@[simp] theorem length_chain (iv : B) (ss : List B) : (S.chain iv ss).length = ss.length := by
  induction ss generalizing iv with
  | nil => rfl
  | cons s ss ih => simp only [chain, List.length_cons, ih]

/-! ## Blocks in a byte string -/

/-- The first `count` blocks of a byte string, which has to end there. -/
def split : (count : Nat) → List UInt8 → Option (List B)
  | 0, bs => if bs.isEmpty then some [] else none
  | count + 1, bs => do
      let s ← S.ofBytes (bs.take S.size)
      let ss ← split count (bs.drop S.size)
      return s :: ss

def join (ss : List B) : List UInt8 := ss.flatMap S.toBytes

theorem length_join (ss : List B) : (S.join ss).length = S.size * ss.length := by
  induction ss with
  | nil => rfl
  | cons s ss ih =>
      rw [join] at ih
      rw [join, List.flatMap_cons, List.length_append, ih, S.length_toBytes, List.length_cons,
        Nat.mul_add, Nat.mul_one, Nat.add_comm]

theorem split_join (ss : List B) : S.split ss.length (S.join ss) = some ss := by
  induction ss with
  | nil => rfl
  | cons s ss ih =>
      have htake : (S.join (s :: ss)).take S.size = S.toBytes s := by
        rw [join, List.flatMap_cons, ← S.length_toBytes s, List.take_left]
      have hdrop : (S.join (s :: ss)).drop S.size = S.join ss := by
        rw [join, List.flatMap_cons, ← S.length_toBytes s, List.drop_left, join]
      rw [List.length_cons, split, htake, hdrop, S.ofBytes_toBytes, ih]
      rfl

/-- A string of the right length is made of blocks. -/
theorem split_of_length {count : Nat} {bs : List UInt8} (h : bs.length = S.size * count) :
    ∃ ss, S.split count bs = some ss ∧ ss.length = count ∧ S.join ss = bs := by
  induction count generalizing bs with
  | zero =>
      have hbs : bs = [] := List.eq_nil_of_length_eq_zero (by simpa using h)
      subst hbs
      exact ⟨[], rfl, rfl, rfl⟩
  | succ count ih =>
      rw [Nat.mul_add, Nat.mul_one] at h
      obtain ⟨s, hs, htake⟩ := S.ofBytes_of_length (bs.take S.size)
        (by rw [List.length_take]; omega)
      have hrest : (bs.drop S.size).length = S.size * count := by rw [List.length_drop]; omega
      obtain ⟨ss, hss, hlen, hdrop⟩ := ih hrest
      refine ⟨s :: ss, ?_, by rw [List.length_cons, hlen], ?_⟩
      · rw [split, hs, hss]
        rfl
      · rw [join, List.flatMap_cons, htake, ← join, hdrop, List.take_append_drop]

/-! ## The mode -/

def encrypt (iv : B) (source : List UInt8) : List UInt8 :=
  match S.split (source.length / S.size + 1) (Pkcs7.pad S.size source) with
  | some ss => S.join (S.chain iv ss)
  | none => []

def decrypt (iv : B) (source : List UInt8) : Option (List UInt8) :=
  (S.split (source.length / S.size) source).bind fun cs =>
    Pkcs7.unpad S.size (S.join (S.unchain iv cs))

/-- Encryption chains the blocks of the padded source. -/
theorem encrypt_eq (iv : B) (source : List UInt8) :
    ∃ ss, ss.length = source.length / S.size + 1 ∧ S.join ss = Pkcs7.pad S.size source ∧
      S.encrypt iv source = S.join (S.chain iv ss) := by
  obtain ⟨ss, hsplit, hlen, hjoin⟩ := S.split_of_length (Pkcs7.length_pad S.size_pos source)
  refine ⟨ss, hlen, hjoin, ?_⟩
  rw [encrypt, hsplit]

theorem length_encrypt (iv : B) (source : List UInt8) :
    (S.encrypt iv source).length = S.size * (source.length / S.size + 1) := by
  obtain ⟨ss, hlen, -, henc⟩ := S.encrypt_eq iv source
  rw [henc, S.length_join, S.length_chain, hlen]

/-- **Decryption inverts encryption.** -/
theorem decrypt_encrypt (iv : B) (source : List UInt8) :
    S.decrypt iv (S.encrypt iv source) = some source := by
  obtain ⟨ss, hlen, hjoin, henc⟩ := S.encrypt_eq iv source
  have hcount : (S.join (S.chain iv ss)).length / S.size = (S.chain iv ss).length := by
    rw [S.length_join, Nat.mul_div_cancel_left _ S.size_pos]
  rw [decrypt, henc, hcount, S.split_join]
  show Pkcs7.unpad S.size (S.join (S.unchain iv (S.chain iv ss))) = some source
  rw [S.unchain_chain, hjoin, Pkcs7.unpad_pad S.size_pos S.size_lt]

end Scheme

end Cbc
