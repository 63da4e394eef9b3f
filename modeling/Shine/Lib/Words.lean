import Mathlib

/-!
# Machine words

Fixed-width words as numbers: their order, words made of bytes, and the words that agree
with a given one in the bits above some position.

- `BitVec w` is linearly ordered by value; the successor of the greatest word is the word
  itself.
- `beNat` is the number that bytes denote, most significant first, and `word` the word.
- `and_high_le_iff`: clearing the low `k` bits and setting them gives the bounds of the
  words that have the other bits in common.
-/

namespace Shine

/-! ## Order -/

section Order

variable {w : Nat}

instance instLinearOrderWord : LinearOrder (BitVec w) where
  le_refl := BitVec.le_refl
  le_trans _ _ _ := BitVec.le_trans
  le_antisymm _ _ := BitVec.le_antisymm
  le_total := BitVec.le_total
  toDecidableLE := inferInstance
  lt_iff_le_not_ge a b := by
    rw [BitVec.lt_def, BitVec.le_def, BitVec.le_def]
    omega

/-- One more, unless that would wrap around. -/
def wordSucc (a : BitVec w) : BitVec w := a + if a ≠ BitVec.allOnes w then 1 else 0

theorem toNat_lt_of_ne_allOnes {a : BitVec w} (h : a ≠ BitVec.allOnes w) :
    a.toNat + 1 < 2 ^ w := by
  have hlt := a.isLt
  have hne : a.toNat ≠ 2 ^ w - 1 := by
    intro heq
    exact h (BitVec.eq_of_toNat_eq (by rw [heq, BitVec.toNat_allOnes]))
  omega

theorem toNat_wordSucc {a : BitVec w} (h : a ≠ BitVec.allOnes w) :
    (wordSucc a).toNat = a.toNat + 1 := by
  have hlt := toNat_lt_of_ne_allOnes h
  have hone : (1 : BitVec w).toNat = 1 := by
    rw [BitVec.ofNat_eq_ofNat, BitVec.toNat_ofNat]
    exact Nat.mod_eq_of_lt (show 1 < 2 ^ w by omega)
  rw [wordSucc, if_pos h, BitVec.toNat_add, hone, Nat.mod_eq_of_lt hlt]

theorem wordSucc_allOnes : wordSucc (BitVec.allOnes w) = BitVec.allOnes w := by
  simp [wordSucc]

instance instSuccOrderWord : SuccOrder (BitVec w) where
  succ := wordSucc
  le_succ a := by
    by_cases h : a = BitVec.allOnes w
    · rw [h, wordSucc_allOnes]
    · rw [BitVec.le_def, toNat_wordSucc h]
      omega
  max_of_succ_le {a} hle := by
    by_cases h : a = BitVec.allOnes w
    · intro b _
      rw [h, BitVec.le_def, BitVec.toNat_allOnes]
      have := b.isLt
      omega
    · rw [BitVec.le_def, toNat_wordSucc h] at hle
      omega
  succ_le_of_lt {a b} hlt := by
    rw [BitVec.lt_def] at hlt
    have hne : a ≠ BitVec.allOnes w := by
      rintro rfl
      rw [BitVec.toNat_allOnes] at hlt
      have := b.isLt
      omega
    rw [BitVec.le_def, toNat_wordSucc hne]
    omega

end Order

/-! ## Bytes -/

/-- The number that bytes denote, most significant first. -/
def beNat : List UInt8 → Nat
  | [] => 0
  | b :: bs => b.toNat * 2 ^ (8 * bs.length) + beNat bs

theorem pow_length_cons (b : UInt8) (bs : List UInt8) :
    2 ^ (8 * (b :: bs).length) = 2 ^ 8 * 2 ^ (8 * bs.length) := by
  rw [List.length_cons, Nat.mul_succ, Nat.add_comm, Nat.pow_add]

theorem beNat_lt (bs : List UInt8) : beNat bs < 2 ^ (8 * bs.length) := by
  induction bs with
  | nil => decide
  | cons b bs ih =>
    have hb : b.toNat < 2 ^ 8 := b.toNat_lt
    rw [beNat, pow_length_cons]
    calc b.toNat * 2 ^ (8 * bs.length) + beNat bs
        < b.toNat * 2 ^ (8 * bs.length) + 2 ^ (8 * bs.length) := by omega
      _ = (b.toNat + 1) * 2 ^ (8 * bs.length) := by ring
      _ ≤ 2 ^ 8 * 2 ^ (8 * bs.length) := Nat.mul_le_mul_right _ hb

theorem beNat_append (bs cs : List UInt8) :
    beNat (bs ++ cs) = beNat bs * 2 ^ (8 * cs.length) + beNat cs := by
  induction bs with
  | nil => simp [beNat]
  | cons b bs ih =>
    rw [List.cons_append, beNat, beNat, ih, List.length_append, Nat.mul_add, Nat.pow_add]
    ring

section Quotient

variable {b c : UInt8} {bs cs : List UInt8} {k : Nat}

/-- Above the low `k` bits, which all lie behind the first byte, two numbers agree if their
first bytes do and what follows agrees. -/
theorem beNat_cons_div_eq_iff (hlen : bs.length = cs.length) (hk : k ≤ 8 * cs.length) :
    beNat (b :: bs) / 2 ^ k = beNat (c :: cs) / 2 ^ k
      ↔ b = c ∧ beNat bs / 2 ^ k = beNat cs / 2 ^ k := by
  have hpow : 2 ^ (8 * cs.length) = 2 ^ (8 * cs.length - k) * 2 ^ k := by
    rw [← Nat.pow_add, Nat.sub_add_cancel hk]
  have hpos : 0 < 2 ^ k := by positivity
  have hquot (b : UInt8) (bs : List UInt8) (hbs : bs.length = cs.length) :
      beNat (b :: bs) / 2 ^ k = beNat bs / 2 ^ k + b.toNat * 2 ^ (8 * cs.length - k)
        ∧ beNat bs / 2 ^ k < 2 ^ (8 * cs.length - k) := by
    constructor
    · rw [beNat, hbs, hpow, ← Nat.mul_assoc, Nat.add_comm, Nat.add_mul_div_right _ _ hpos]
    · rw [Nat.div_lt_iff_lt_mul hpos, ← hpow, ← hbs]
      exact beNat_lt bs
  obtain ⟨hb, hblt⟩ := hquot b bs hlen
  obtain ⟨hc, hclt⟩ := hquot c cs rfl
  rw [hb, hc]
  constructor
  · intro heq
    -- quotient and remainder of the division by the weight of the first byte
    have hdiv := congrArg (· / 2 ^ (8 * cs.length - k)) heq
    have hmod := congrArg (· % 2 ^ (8 * cs.length - k)) heq
    simp only [Nat.add_mul_div_right _ _ (Nat.two_pow_pos _), Nat.div_eq_of_lt hblt,
      Nat.div_eq_of_lt hclt, Nat.zero_add] at hdiv
    simp only [Nat.add_mul_mod_self_right, Nat.mod_eq_of_lt hblt, Nat.mod_eq_of_lt hclt] at hmod
    exact ⟨UInt8.toNat_inj.mp hdiv, hmod⟩
  · rintro ⟨rfl, hrest⟩
    rw [hrest]

/-- The same for the first `n` bytes. -/
theorem beNat_div_eq_iff {n : Nat} (hlen : bs.length = cs.length)
    (hk : 8 * n + k ≤ 8 * cs.length) :
    beNat bs / 2 ^ k = beNat cs / 2 ^ k
      ↔ bs.take n = cs.take n ∧ beNat (bs.drop n) / 2 ^ k = beNat (cs.drop n) / 2 ^ k := by
  induction n generalizing bs cs with
  | zero => simp
  | succ n ih =>
    cases cs with
    | nil => simp at hk
    | cons c cs =>
      cases bs with
      | nil => simp at hlen
      | cons b bs =>
        rw [List.length_cons] at hk
        rw [beNat_cons_div_eq_iff (Nat.succ.inj hlen) (by omega), ih (Nat.succ.inj hlen) (by omega),
          List.take_succ_cons, List.take_succ_cons, List.drop_succ_cons, List.drop_succ_cons,
          List.cons.injEq, and_assoc]

/-- The high bits of the first byte. -/
theorem beNat_cons_div (b : UInt8) (bs : List UInt8) (k : Nat) :
    beNat (b :: bs) / 2 ^ (8 * bs.length + k) = b.toNat / 2 ^ k := by
  have hpos : 0 < 2 ^ (8 * bs.length) := by positivity
  rw [Nat.pow_add, ← Nat.div_div_eq_div_mul, beNat, Nat.add_comm, Nat.add_mul_div_right _ _ hpos,
    Nat.div_eq_of_lt (beNat_lt bs), Nat.zero_add]

end Quotient

section Word

variable {w : Nat}

/-- Shift a byte in. -/
def appendByte (acc : BitVec w) (b : UInt8) : BitVec w := acc <<< 8 ||| b.toBitVec.setWidth w

/-- The word that bytes denote, shifted in one after the other. -/
def word (w : Nat) (bs : List UInt8) : BitVec w := bs.foldl appendByte 0

theorem word_four (b₀ b₁ b₂ b₃ : UInt8) :
    word w [b₀, b₁, b₂, b₃] = b₀.toBitVec.setWidth w <<< 24 ||| b₁.toBitVec.setWidth w <<< 16
      ||| b₂.toBitVec.setWidth w <<< 8 ||| b₃.toBitVec.setWidth w := by
  simp only [word, List.foldl, appendByte, BitVec.ofNat_eq_ofNat, BitVec.zero_shiftLeft,
    BitVec.zero_or, BitVec.shiftLeft_or_distrib, ← BitVec.shiftLeft_add]

theorem toNat_appendByte {acc : BitVec w} (b : UInt8) (h : (acc.toNat + 1) * 2 ^ 8 ≤ 2 ^ w) :
    (appendByte acc b).toNat = acc.toNat * 2 ^ 8 + b.toNat := by
  have hb : b.toNat < 2 ^ 8 := b.toNat_lt
  have hacc : (acc <<< 8).toNat = acc.toNat <<< 8 := by
    rw [BitVec.toNat_shiftLeft, Nat.shiftLeft_eq, Nat.mod_eq_of_lt (by omega)]
  have hbyte : (b.toBitVec.setWidth w).toNat = b.toNat := by
    rw [BitVec.toNat_setWidth, UInt8.toNat_toBitVec]
    exact Nat.mod_eq_of_lt (by omega)
  rw [appendByte, BitVec.toNat_or, hacc, hbyte, ← Nat.shiftLeft_add_eq_or_of_lt hb, Nat.shiftLeft_eq]

theorem toNat_foldl_appendByte (bs : List UInt8) {acc : BitVec w}
    (h : (acc.toNat + 1) * 2 ^ (8 * bs.length) ≤ 2 ^ w) :
    (bs.foldl appendByte acc).toNat = acc.toNat * 2 ^ (8 * bs.length) + beNat bs := by
  induction bs generalizing acc with
  | nil => simp [beNat]
  | cons b bs ih =>
    have hb : b.toNat < 2 ^ 8 := b.toNat_lt
    have hpos : 0 < 2 ^ (8 * bs.length) := by positivity
    rw [pow_length_cons, ← Nat.mul_assoc] at h
    have hacc := toNat_appendByte b ((Nat.le_mul_of_pos_right _ hpos).trans h)
    rw [List.foldl_cons, ih, hacc, beNat, pow_length_cons]
    · ring
    · refine le_trans (Nat.mul_le_mul_right _ ?_) h
      rw [hacc]
      omega

/-- The word is the number, if there is room for it. -/
theorem toNat_word {bs : List UInt8} (h : 8 * bs.length ≤ w) : (word w bs).toNat = beNat bs := by
  rw [word, toNat_foldl_appendByte]
  · simp
  · simpa using Nat.pow_le_pow_right (by decide) h

end Word

/-! ## Words with the same high bits -/

section High

variable {w k : Nat} (v x : BitVec w)

/-- Clear the low `k` bits. -/
theorem toNat_and_high :
    (v &&& BitVec.allOnes w <<< k).toNat = v.toNat / 2 ^ k * 2 ^ k := by
  have hclear : v &&& BitVec.allOnes w <<< k = (v >>> k) <<< k := by
    ext i hi
    by_cases hik : i < k
    · simp [hik]
    · have hback : k + (i - k) = i := by omega
      simp [hik, hi, hback]
  have hle : v.toNat / 2 ^ k * 2 ^ k ≤ v.toNat := Nat.div_mul_le_self _ _
  rw [hclear, BitVec.toNat_shiftLeft, BitVec.toNat_ushiftRight, Nat.shiftRight_eq_div_pow,
    Nat.shiftLeft_eq, Nat.mod_eq_of_lt (hle.trans_lt v.isLt)]

variable (hk : k ≤ w)

include hk

theorem toNat_not_high : (~~~(BitVec.allOnes w <<< k)).toNat = 2 ^ k - 1 := by
  have hpow : 2 ^ w = 2 ^ (w - k) * 2 ^ k := by rw [← Nat.pow_add, Nat.sub_add_cancel hk]
  have hlow : 0 < 2 ^ k := by positivity
  have hhigh : 0 < 2 ^ (w - k) := by positivity
  have hclear := toNat_and_high (k := k) (BitVec.allOnes w)
  -- all bits but the low ones
  have hdiv : (2 ^ w - 1) / 2 ^ k = 2 ^ (w - k) - 1 := by
    rw [hpow, Nat.div_eq_iff hlow, Nat.sub_mul]
    have := Nat.le_mul_of_pos_left (2 ^ k) hhigh
    omega
  rw [BitVec.allOnes_and, BitVec.toNat_allOnes, hdiv, Nat.sub_mul, ← hpow] at hclear
  rw [BitVec.toNat_not, hclear]
  have := Nat.pow_le_pow_right (n := 2) (by decide) hk
  omega

/-- Clear the low `k` bits and set them. -/
theorem toNat_or_low :
    (v &&& BitVec.allOnes w <<< k ||| ~~~(BitVec.allOnes w <<< k)).toNat
      = v.toNat / 2 ^ k * 2 ^ k + (2 ^ k - 1) := by
  have hlt : 2 ^ k - 1 < 2 ^ k := Nat.sub_lt (by positivity) (by decide)
  rw [BitVec.toNat_or, toNat_and_high, toNat_not_high hk, ← Nat.shiftLeft_eq,
    ← Nat.shiftLeft_add_eq_or_of_lt hlt]

/-- **The words between the two have the other bits in common.** -/
theorem and_high_le_iff :
    (v &&& BitVec.allOnes w <<< k ≤ x
      ∧ x ≤ v &&& BitVec.allOnes w <<< k ||| ~~~(BitVec.allOnes w <<< k))
      ↔ x.toNat / 2 ^ k = v.toNat / 2 ^ k := by
  have hpos : 0 < 2 ^ k := by positivity
  rw [BitVec.le_def, BitVec.le_def, toNat_and_high, toNat_or_low v hk, Nat.div_eq_iff hpos]
  omega

end High

end Shine
