import Mathlib

/-!
# Bytes, statuses and the Abseil text helpers

The vocabulary the rest of the model is written in (`core/common.hpp` and the
few Abseil functions the protocol code calls).

- `Bytes`: the contents of a `std::string`, a `std::span<u8>` or a
  `std::vector<u8>`.
- `Status`: the `absl::Status` values the code builds, with their messages.
- `strDec`: how `absl::StrCat`/`StrAppend` print an unsigned integer.
- `simpleAtoi`: `absl::SimpleAtoi` into a signed type with range `[lo, hi]`.
-/

namespace Shine

/-- Contents of a `std::string` or of a byte buffer. -/
abbrev Bytes := List UInt8

/-- The bytes of an ASCII string literal of the source. -/
def ascii (s : String) : Bytes := s.toList.map fun c => c.toNat.toUInt8

/-- Carriage return. -/
def cr : UInt8 := 13

/-- Line feed. -/
def lf : UInt8 := 10

/-- `"\r\n"`. -/
def crlf : Bytes := [cr, lf]

/-- The error values of `absl::Status` that the modelled code builds. -/
inductive Status where
  | invalidArgument (message : Bytes)
  | resourceExhausted (message : Bytes)
  | unavailable (message : Bytes)
  | failedPrecondition (message : Bytes)
  | unauthenticated (message : Bytes)
  | notFound (message : Bytes)
  deriving DecidableEq, Repr

/-- `absl::StatusOr<T>`. -/
abbrev StatusOr (τ : Type) := Except Status τ

section Fallible

variable {ε α β : Type}

/-- A computation succeeds if both of its parts do. -/
theorem bind_eq_ok {x : Except ε α} {f : α → Except ε β} {b : β} :
    (x >>= f) = .ok b ↔ ∃ a, x = .ok a ∧ f a = .ok b := by
  cases x with
  | error e => simp [bind, Except.bind]
  | ok a => simp [bind, Except.bind]

/-- A list is converted item by item. -/
theorem mapM_eq_ok {f : α → Except ε β} {as : List α} {bs : List β} :
    as.mapM f = .ok bs ↔ List.Forall₂ (fun a b => f a = .ok b) as bs := by
  induction as generalizing bs with
  | nil => simp [pure, Except.pure, eq_comm]
  | cons a as ih =>
    simp only [List.mapM_cons, bind_eq_ok, ih, pure, Except.pure, Except.ok.injEq,
      List.forall₂_cons_left_iff]
    constructor
    · rintro ⟨b, hb, bs', hbs, rfl⟩
      exact ⟨b, bs', hb, hbs, rfl⟩
    · rintro ⟨b, bs', hb, hbs, rfl⟩
      exact ⟨b, hb, bs', hbs, rfl⟩

theorem mapM_isOk {f : α → Except ε β} {as : List α} :
    (∃ bs, as.mapM f = .ok bs) ↔ ∀ a ∈ as, ∃ b, f a = .ok b := by
  simp only [mapM_eq_ok]
  induction as with
  | nil => simp
  | cons a as ih =>
    rw [List.forall_mem_cons, ← ih]
    constructor
    · rintro ⟨bs, hbs⟩
      obtain ⟨b, bs', hb, hbs', -⟩ := List.forall₂_cons_left_iff.mp hbs
      exact ⟨⟨b, hb⟩, bs', hbs'⟩
    · rintro ⟨⟨b, hb⟩, bs, hbs⟩
      exact ⟨b :: bs, .cons hb hbs⟩

/-- Every item of a list has one that it is converted to. -/
theorem exists_related {Rel : α → β → Prop} {as : List α} {bs : List β}
    (h : List.Forall₂ Rel as bs) {a : α} (ha : a ∈ as) : ∃ b ∈ bs, Rel a b := by
  induction h with
  | nil => cases ha
  | cons hab _ ih =>
    rcases List.mem_cons.mp ha with rfl | ha
    · exact ⟨_, List.mem_cons_self, hab⟩
    · obtain ⟨b, hb, hrel⟩ := ih ha
      exact ⟨b, List.mem_cons_of_mem _ hb, hrel⟩

end Fallible

/-! ## Printing unsigned integers -/

/-- Decimal digits of an unsigned integer, most significant first, as
`absl::StrAppend` writes them. -/
def strDec (n : Nat) : Bytes := (Nat.toDigits 10 n).map fun c => c.toNat.toUInt8

theorem strDec_ne_nil (n : Nat) : strDec n ≠ [] := by
  simp [strDec, Nat.toDigits_ne_nil]

/-- `absl::ascii_isdigit`. -/
def isDigit (c : UInt8) : Bool := 48 ≤ c && c ≤ 57

/-- `absl::ascii_isspace`: blank, `\t`, `\n`, `\v`, `\f`, `\r`. -/
def isSpace (c : UInt8) : Bool := c == 32 || (9 ≤ c && c ≤ 13)

/-- A digit character lies between `'0'` and `'9'`. -/
theorem toNat_of_isDigit {c : Char} (h : c.isDigit = true) :
    48 ≤ c.toNat ∧ c.toNat ≤ 57 := by
  simp only [Char.isDigit, Bool.and_eq_true, decide_eq_true_eq] at h
  exact ⟨UInt32.le_iff_toNat_le.mp h.1, UInt32.le_iff_toNat_le.mp h.2⟩

theorem toNat_toUInt8_of_isDigit {c : Char} (h : c.isDigit = true) :
    c.toNat.toUInt8.toNat = c.toNat := by
  have := toNat_of_isDigit h
  simp only [Nat.toUInt8, UInt8.toNat_ofNat']
  omega

theorem isDigit_of_mem_strDec {n : Nat} {b : UInt8} (h : b ∈ strDec n) :
    isDigit b = true := by
  obtain ⟨c, hc, rfl⟩ := List.mem_map.mp h
  have hd := Nat.isDigit_of_mem_toDigits (by omega) (by omega) hc
  have hv := toNat_toUInt8_of_isDigit hd
  have hr := toNat_of_isDigit hd
  simp only [isDigit, Bool.and_eq_true, decide_eq_true_eq, UInt8.le_iff_toNat_le, hv]
  exact hr

/-- A digit is none of the other characters the protocol gives a meaning to. -/
theorem isDigit_other {b : UInt8} (h : isDigit b = true) :
    b ≠ cr ∧ b ≠ 45 ∧ b ≠ 43 ∧ isSpace b = false := by
  simp only [isDigit, Bool.and_eq_true, decide_eq_true_eq, UInt8.le_iff_toNat_le] at h
  have key : ∀ k : UInt8, (k.toNat < 48 ∨ 57 < k.toNat) → b ≠ k := by
    rintro k hk rfl
    have h1 : (48 : UInt8).toNat = 48 := rfl
    have h2 : (57 : UInt8).toNat = 57 := rfl
    omega
  refine ⟨key cr (by decide), key 45 (by decide), key 43 (by decide), ?_⟩
  have h1 : (48 : UInt8).toNat = 48 := rfl
  have h13 : (13 : UInt8).toNat = 13 := rfl
  have hle : ¬ b ≤ 13 := by
    rw [UInt8.le_iff_toNat_le]
    omega
  simp [isSpace, key 32 (by decide), hle]

/-! ## `absl::SimpleAtoi` -/

/-- Strip ASCII white space from both ends. -/
def stripSpace (s : Bytes) : Bytes :=
  ((s.dropWhile isSpace).reverse.dropWhile isSpace).reverse

/-- The number a run of decimal digits denotes. -/
def digitsVal (s : Bytes) : Nat :=
  s.foldl (fun v c => 10 * v + (c.toNat - 48)) 0

/-- A non-empty run of decimal digits. -/
def parseDigits (s : Bytes) : Option Nat :=
  if s ≠ [] ∧ s.all isDigit then some (digitsVal s) else none

/-- `absl::SimpleAtoi` into an integer type with values `lo..hi`: surrounding
white space, an optional sign and decimal digits; anything else, and any value
out of range, is refused. -/
def simpleAtoi (lo hi : Int) (s : Bytes) : Option Int :=
  let value : Option Int :=
    match stripSpace s with
    | [] => none
    | c :: rest =>
      if c = 45 then Option.map (fun n : Nat => -(n : Int)) (parseDigits rest)
      else if c = 43 then Option.map Int.ofNat (parseDigits rest)
      else Option.map Int.ofNat (parseDigits (c :: rest))
  value.filter fun v => lo ≤ v && v ≤ hi

/-- Digits survive the white-space stripping. -/
theorem stripSpace_digits {s : Bytes} (h : ∀ b ∈ s, isDigit b = true) :
    stripSpace s = s := by
  have hkeep : ∀ t : Bytes, (∀ b ∈ t, isDigit b = true) → t.dropWhile isSpace = t := by
    intro t ht
    cases t with
    | nil => rfl
    | cons c rest =>
      have hc := (isDigit_other (ht c (List.mem_cons_self ..))).2.2.2
      rw [List.dropWhile_cons_of_neg (by simp [hc])]
  rw [stripSpace, hkeep s h, hkeep s.reverse (fun b hb => h b (List.mem_reverse.mp hb)),
    List.reverse_reverse]

theorem digitsVal_map_toUInt8 (cs : List Char) (hcs : ∀ c ∈ cs, c.isDigit = true)
    (v : Nat) :
    (cs.map fun c => c.toNat.toUInt8).foldl (fun v c => 10 * v + (c.toNat - 48)) v
      = Nat.ofDigitChars 10 cs v := by
  induction cs generalizing v with
  | nil => rfl
  | cons c rest ih =>
    have hc := toNat_toUInt8_of_isDigit (hcs c (List.mem_cons_self ..))
    rw [List.map_cons, List.foldl_cons, ih fun d hd => hcs d (List.mem_cons_of_mem _ hd), hc]
    rfl

theorem digitsVal_strDec (n : Nat) : digitsVal (strDec n) = n := by
  have hd : ∀ c ∈ Nat.toDigits 10 n, c.isDigit = true :=
    fun c hc => Nat.isDigit_of_mem_toDigits (by omega) (by omega) hc
  rw [digitsVal, strDec, digitsVal_map_toUInt8 _ hd, Nat.ofDigitChars_ten_toDigits]

/-- `SimpleAtoi` reads a run of digits, within its range. -/
theorem simpleAtoi_digits {lo hi : Int} {s : Bytes} (hne : s ≠ [])
    (h : ∀ b ∈ s, isDigit b = true) :
    simpleAtoi lo hi s
      = if lo ≤ (digitsVal s : Int) ∧ (digitsVal s : Int) ≤ hi then some (digitsVal s : Int)
        else none := by
  have hparse : parseDigits s = some (digitsVal s) := by
    rw [parseDigits, if_pos ⟨hne, List.all_eq_true.mpr h⟩]
  rw [simpleAtoi, stripSpace_digits h]
  cases s with
  | nil => exact absurd rfl hne
  | cons c rest =>
    have hc := isDigit_other (h c List.mem_cons_self)
    simp [hc.2.1, hc.2.2.1, hparse, Option.filter_some]

/-- `SimpleAtoi` reads back what `StrAppend` printed, within its range. -/
theorem simpleAtoi_strDec {lo hi : Int} {n : Nat} :
    simpleAtoi lo hi (strDec n)
      = if lo ≤ (n : Int) ∧ (n : Int) ≤ hi then some (n : Int) else none := by
  rw [simpleAtoi_digits (strDec_ne_nil n) fun b hb => isDigit_of_mem_strDec hb, digitsVal_strDec]

/-- Smallest `i64`. -/
def i64Min : Int := -(2 ^ 63)

/-- Largest `i64`. -/
def i64Max : Int := 2 ^ 63 - 1

end Shine
