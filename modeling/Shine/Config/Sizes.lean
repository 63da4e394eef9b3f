import Shine.Config.YamlLoader

/-!
# The sizes of a configuration (`config/yaml_loader.cpp`)

`parseSize` reads a number of at most 63 bits, multiplies it by its unit in `std::size_t`, and
for `init_window` the product is narrowed to 32 bits afterwards. Nothing checks either step:
`4G` for `init_window` is stored as 0. An outbound has no `max_payload`, and a text given for it
is not read at all.

`sizes_kept_iff`: the sizes stored are the ones written exactly if those fit their types and no
outbound gives a `max_payload`.
-/

namespace Shine

/-- The text writes the size: a decimal number times a unit. -/
def WritesSize (t : Bytes) (size : Nat) : Prop :=
  ∃ digits unit mult, t = digits ++ unit ∧ digits ≠ [] ∧ (∀ b ∈ digits, isDigit b = true) ∧
    sizeUnit unit = some mult ∧ size = digitsVal digits * mult

/-- The text writes a zero. -/
def WritesZero (t : Bytes) : Prop :=
  ∃ zeros unit, t = zeros ++ unit ∧ zeros ≠ [] ∧ (∀ b ∈ zeros, b = 48) ∧ sizeUnit unit ≠ none

/-- The text is given under the key. -/
def Yaml.Gives (n : Yaml) (key t : Bytes) : Prop :=
  ∃ v, n.find key = .ok (some v) ∧ v.asString = .ok t

/-- The sizes of an inbound or an outbound. -/
inductive SizeKey where
  | maxPayload
  | initWindow

def SizeKey.name : SizeKey → Bytes
  | .maxPayload => ascii "max_payload"
  | .initWindow => ascii "init_window"

/-- The size that the settings of an inbound hold. -/
def InboundSettings.stored (i : InboundSettings) : SizeKey → Option Nat
  | .maxPayload => some i.maxPayload.toNat
  | .initWindow => some i.initWindow.toNat

/-- The size that the settings of an outbound hold. `OutboundConfig` has no `max_payload`. -/
def OutboundSettings.stored (o : OutboundSettings) : SizeKey → Option Nat
  | .maxPayload => none
  | .initWindow => some o.initWindow.toNat

/-- If a size is written, it is the one stored. -/
def Yaml.Keeps (n : Yaml) (key : Bytes) (stored : Option Nat) : Prop :=
  ∀ t, n.Gives key t → ∃ size, stored = some size ∧ WritesSize t size

/-- The size written is less than the bound. -/
def Yaml.Fits (n : Yaml) (key : Bytes) (bound : Nat) : Prop :=
  ∀ t size, n.Gives key t → WritesSize t size → size < bound

/-- The sizes of the configuration are those of the document. -/
structure SizesKept (root : Yaml) (c : Settings) : Prop where
  inbounds : ∀ ins, root.get (ascii "inbounds") = .ok ins →
    List.Forall₂ (fun n i => ∀ key : SizeKey, n.Keeps key.name (i.stored key)) ins.items
      c.inbounds
  outbounds : ∀ outs, root.get (ascii "outbounds") = .ok outs →
    List.Forall₂ (fun n o => ∀ key : SizeKey, n.Keeps key.name (o.stored key)) outs.items
      c.outbounds

/-- The sizes of the document fit into `std::size_t` and `u32`, and no outbound gives a
`max_payload`. -/
structure SizesFit (root : Yaml) : Prop where
  inbounds : ∀ ins, root.get (ascii "inbounds") = .ok ins → ∀ n ∈ ins.items,
    n.Fits (ascii "max_payload") (2 ^ 64) ∧ n.Fits (ascii "init_window") (2 ^ 32)
  outbounds : ∀ outs, root.get (ascii "outbounds") = .ok outs → ∀ n ∈ outs.items,
    (∀ t, ¬ n.Gives (ascii "max_payload") t) ∧ n.Fits (ascii "init_window") (2 ^ 32)

/-- A window is zero only if a zero is written. -/
structure ZerosWritten (root : Yaml) (c : Settings) : Prop where
  inbounds : ∀ ins, root.get (ascii "inbounds") = .ok ins →
    List.Forall₂ (fun n i => i.initWindow = 0 → ∃ t, n.Gives (ascii "init_window") t ∧
      WritesZero t) ins.items c.inbounds
  outbounds : ∀ outs, root.get (ascii "outbounds") = .ok outs →
    List.Forall₂ (fun n o => o.initWindow = 0 → ∃ t, n.Gives (ascii "init_window") t ∧
      WritesZero t) outs.items c.outbounds

/-! ## One size -/

/-- A unit does not start with a digit. -/
theorem sizeUnit_eq_some {unit : Bytes} {mult : Nat} (h : sizeUnit unit = some mult) :
    0 < mult ∧ unit.head?.any isDigit = false := by
  rw [sizeUnit] at h
  split_ifs at h with h₁ h₂ h₃ h₄
  · cases h
    rcases h₁ with rfl | rfl
    all_goals exact ⟨by decide, by decide⟩
  · cases h
    rcases h₂ with rfl | rfl | rfl
    all_goals exact ⟨by decide, by decide⟩
  · cases h
    rcases h₃ with rfl | rfl | rfl
    all_goals exact ⟨by decide, by decide⟩
  · cases h
    rcases h₄ with rfl | rfl | rfl
    all_goals exact ⟨by decide, by decide⟩

/-- The number ends where the digits do. -/
theorem split_digits {digits unit : Bytes} (hdigits : ∀ b ∈ digits, isDigit b = true)
    (hunit : unit.head?.any isDigit = false) :
    (digits ++ unit).takeWhile isDigit = digits ∧ (digits ++ unit).dropWhile isDigit = unit := by
  have hstop : unit.takeWhile isDigit = [] ∧ unit.dropWhile isDigit = unit := by
    cases unit with
    | nil => exact ⟨rfl, rfl⟩
    | cons b rest =>
      have hb : isDigit b = false := hunit
      simp [hb]
  rw [List.takeWhile_append_of_pos hdigits, List.dropWhile_append_of_pos hdigits, hstop.1,
    hstop.2, List.append_nil]
  exact ⟨rfl, rfl⟩

/-- A text writes one size at most. -/
theorem WritesSize.unique {t : Bytes} {a b : Nat} (ha : WritesSize t a) (hb : WritesSize t b) :
    a = b := by
  obtain ⟨digits, unit, mult, rfl, -, hdigits, hunit, rfl⟩ := ha
  obtain ⟨digits', unit', mult', heq, -, hdigits', hunit', rfl⟩ := hb
  have hsplit := split_digits hdigits (sizeUnit_eq_some hunit).2
  have hsplit' := split_digits hdigits' (sizeUnit_eq_some hunit').2
  rw [heq] at hsplit
  obtain rfl : digits' = digits := hsplit'.1.symm.trans hsplit.1
  obtain rfl : unit' = unit := hsplit'.2.symm.trans hsplit.2
  rw [hunit] at hunit'
  rw [Option.some.inj hunit']

theorem digitsVal_eq_zero {digits : Bytes} (h : ∀ b ∈ digits, isDigit b = true)
    (hzero : digitsVal digits = 0) : ∀ b ∈ digits, b = 48 := by
  -- the value so far is zero before every digit
  have hscan : ∀ (ds : Bytes) (v : Nat), (∀ b ∈ ds, isDigit b = true) →
      ds.foldl (fun v c => 10 * v + (c.toNat - 48)) v = 0 → v = 0 ∧ ∀ b ∈ ds, b = 48 := by
    intro ds
    induction ds with
    | nil =>
      intro v _ hv
      exact ⟨hv, by simp⟩
    | cons d ds ih =>
      intro v hds hv
      obtain ⟨hd, hrest⟩ := List.forall_mem_cons.mp hds
      obtain ⟨hsum, hall⟩ := ih _ hrest hv
      have hsum : 10 * v + (d.toNat - 48) = 0 := hsum
      simp only [isDigit, Bool.and_eq_true, decide_eq_true_eq, UInt8.le_iff_toNat_le] at hd
      have h48 : (48 : UInt8).toNat = 48 := rfl
      refine ⟨by omega, List.forall_mem_cons.mpr ⟨UInt8.toNat_inj.mp ?_, hall⟩⟩
      omega
  exact (hscan digits 0 h hzero).2

theorem WritesSize.zero {t : Bytes} (h : WritesSize t 0) : WritesZero t := by
  obtain ⟨digits, unit, mult, rfl, hne, hdigits, hunit, hsize⟩ := h
  have hval : digitsVal digits = 0 := by
    have hmult := (sizeUnit_eq_some hunit).1
    rcases Nat.mul_eq_zero.mp hsize.symm with hval | hval
    · exact hval
    · omega
  exact ⟨digits, unit, rfl, hne, digitsVal_eq_zero hdigits hval, by simp [hunit]⟩

theorem toNat_ofInt_natCast (n : Nat) : (UInt64.ofInt n).toNat = n % 2 ^ 64 := by
  rw [UInt64.ofInt, UInt64.toNat_ofNat']
  omega

/-- What `parseSize` accepts, and what it makes of it. -/
theorem parseSize_eq_ok {t : Bytes} {v : UInt64} (h : parseSize t = .ok v) :
    ∃ size, WritesSize t size ∧ v.toNat = size % 2 ^ 64 := by
  have hdigits : ∀ b ∈ t.takeWhile isDigit, isDigit b = true := fun b hb =>
    List.mem_takeWhile_imp hb
  rw [parseSize] at h
  split_ifs at h with hempty hnone
  rw [simpleAtoi_digits hnone hdigits] at h
  split_ifs at h with hrange
  simp only at h
  split at h
  · cases h
  · next mult hunit =>
    cases h
    refine ⟨_, ⟨_, _, mult, List.takeWhile_append_dropWhile.symm, hnone, hdigits, hunit, rfl⟩, ?_⟩
    rw [UInt64.toNat_mul, UInt64.toNat_ofNat', toNat_ofInt_natCast, ← Nat.mul_mod]

section Node

variable {n : Yaml} {key : Bytes} {fallback size : UInt64}

/-- What is stored for a text, up to the width of the type. -/
theorem stored_of_gives (h : parseSizeNode n key fallback = .ok size) {t : Bytes}
    (ht : n.Gives key t) : ∃ written, WritesSize t written ∧ size.toNat = written % 2 ^ 64 := by
  obtain ⟨v, hv, hs⟩ := ht
  rcases parseSizeNode_eq_ok.mp h with ⟨hnone, -⟩ | ⟨v', s, hv', hs', hsize⟩
  · rw [hv] at hnone
    cases hnone
  · obtain rfl := Option.some.inj (Except.ok.inj (hv.symm.trans hv'))
    obtain rfl := Except.ok.inj (hs.symm.trans hs')
    exact parseSize_eq_ok hsize

/-- **A size is kept exactly if it fits**, for the size itself and for what is left of it in
a narrower type. -/
theorem keeps_iff_fits {stored width : Nat}
    (hstored : ∀ t, n.Gives key t → ∃ written, WritesSize t written ∧
      stored = written % 2 ^ width) :
    n.Keeps key (some stored) ↔ n.Fits key (2 ^ width) := by
  constructor
  · intro hkeeps t written ht hwritten
    obtain ⟨size, hsize, hwrites⟩ := hkeeps t ht
    obtain rfl := Option.some.inj hsize
    obtain ⟨written', hwritten', heq⟩ := hstored t ht
    obtain rfl := hwritten.unique hwritten'
    rw [hwritten.unique hwrites, heq]
    exact Nat.mod_lt _ (Nat.two_pow_pos width)
  · intro hfits t ht
    obtain ⟨written, hwritten, rfl⟩ := hstored t ht
    refine ⟨_, rfl, ?_⟩
    rwa [Nat.mod_eq_of_lt (hfits t written ht hwritten)]

/-- What has no place in the settings is kept only if it is not given. -/
theorem keeps_none : n.Keeps key none ↔ ∀ t, ¬ n.Gives key t := by
  constructor
  · intro hkeeps t ht
    obtain ⟨size, hsize, -⟩ := hkeeps t ht
    cases hsize
  · intro hnone t ht
    exact absurd ht (hnone t)

theorem keeps_size (h : parseSizeNode n key fallback = .ok size) :
    n.Keeps key (some size.toNat) ↔ n.Fits key (2 ^ 64) :=
  keeps_iff_fits fun _ ht => stored_of_gives h ht

theorem keeps_window (h : parseSizeNode n key fallback = .ok size) :
    n.Keeps key (some size.toUInt32.toNat) ↔ n.Fits key (2 ^ 32) := by
  refine keeps_iff_fits fun t ht => ?_
  obtain ⟨written, hwritten, hsize⟩ := stored_of_gives h ht
  refine ⟨written, hwritten, ?_⟩
  rw [UInt64.toNat_toUInt32, hsize, Nat.mod_mod_of_dvd _ (Nat.pow_dvd_pow 2 (by decide))]

/-- The default is not zero, so that a zero comes from the text. -/
theorem zero_written (h : parseSizeNode n key defaultInitWindow.toUInt64 = .ok size)
    (hkeeps : n.Keeps key (some size.toUInt32.toNat)) (hzero : size.toUInt32 = 0) :
    ∃ t, n.Gives key t ∧ WritesZero t := by
  rcases parseSizeNode_eq_ok.mp h with ⟨-, rfl⟩ | ⟨v, s, hv, hs, -⟩
  · exact absurd hzero (by decide)
  · refine ⟨s, ⟨v, hv, hs⟩, WritesSize.zero ?_⟩
    obtain ⟨written, hwritten, hwrites⟩ := hkeeps s ⟨v, hv, hs⟩
    obtain rfl := Option.some.inj hwritten
    rwa [hzero] at hwrites

end Node

/-! ## The configuration -/

/-- What is equivalent item by item is equivalent of the lists. -/
theorem forall₂_iff_forall {α β : Type} {R P : α → β → Prop} {Q : α → Prop} {as : List α}
    {bs : List β} (h : List.Forall₂ R as bs) (hpq : ∀ a b, R a b → (P a b ↔ Q a)) :
    List.Forall₂ P as bs ↔ ∀ a ∈ as, Q a := by
  induction h with
  | nil => simp
  | cons hab _ ih => rw [List.forall₂_cons, hpq _ _ hab, ih, List.forall_mem_cons]

theorem forall_sizeKey {P : SizeKey → Prop} :
    (∀ key, P key) ↔ P .maxPayload ∧ P .initWindow := by
  refine ⟨fun h => ⟨h _, h _⟩, fun h key => ?_⟩
  cases key with
  | maxPayload => exact h.1
  | initWindow => exact h.2

section Loaded

variable {env : LoaderEnv} {root : Yaml} {c : Settings}

theorem sizesKept_iff (h : parseRoot env root = .ok c) : SizesKept root c ↔ SizesFit root := by
  obtain ⟨⟨ins, hins, hinbounds⟩, outs, houts, houtbounds⟩ := parseRoot_bounds h
  have hin := forall₂_iff_forall hinbounds
    (P := fun n i => ∀ key : SizeKey, n.Keeps key.name (i.stored key))
    (Q := fun n => n.Fits (ascii "max_payload") (2 ^ 64) ∧ n.Fits (ascii "init_window") (2 ^ 32))
    fun n i hi => by
      obtain ⟨hmax, size, hsize, hwindow⟩ := parseInbound_sizes hi
      rw [forall_sizeKey, InboundSettings.stored, InboundSettings.stored, SizeKey.name,
        SizeKey.name, keeps_size hmax, hwindow, keeps_window hsize]
  have hout := forall₂_iff_forall houtbounds
    (P := fun n o => ∀ key : SizeKey, n.Keeps key.name (o.stored key))
    (Q := fun n => (∀ t, ¬ n.Gives (ascii "max_payload") t) ∧
      n.Fits (ascii "init_window") (2 ^ 32))
    fun n o ho => by
      obtain ⟨size, hsize, hwindow⟩ := parseOutbound_sizes ho
      rw [forall_sizeKey, OutboundSettings.stored, OutboundSettings.stored, SizeKey.name,
        SizeKey.name, keeps_none, hwindow, keeps_window hsize]
  constructor
  · intro hkept
    constructor
    · intro ins' hins'
      obtain rfl := Except.ok.inj (hins.symm.trans hins')
      exact hin.mp (hkept.inbounds ins hins)
    · intro outs' houts'
      obtain rfl := Except.ok.inj (houts.symm.trans houts')
      exact hout.mp (hkept.outbounds outs houts)
  · intro hfit
    constructor
    · intro ins' hins'
      obtain rfl := Except.ok.inj (hins.symm.trans hins')
      exact hin.mpr (hfit.inbounds ins hins)
    · intro outs' houts'
      obtain rfl := Except.ok.inj (houts.symm.trans houts')
      exact hout.mpr (hfit.outbounds outs houts)

theorem zerosWritten_of_kept (h : parseRoot env root = .ok c) (hkept : SizesKept root c) :
    ZerosWritten root c := by
  obtain ⟨⟨ins, hins, hinbounds⟩, outs, houts, houtbounds⟩ := parseRoot_bounds h
  constructor
  · intro ins' hins'
    obtain rfl := Except.ok.inj (hins.symm.trans hins')
    refine List.Forall₂.mp (fun n i hi hn => ?_) hinbounds (hkept.inbounds ins hins)
    obtain ⟨-, size, hsize, hwindow⟩ := parseInbound_sizes hi
    have hkeeps : n.Keeps (ascii "init_window") (some i.initWindow.toNat) := hn .initWindow
    rw [hwindow] at hkeeps ⊢
    exact zero_written hsize hkeeps
  · intro outs' houts'
    obtain rfl := Except.ok.inj (houts.symm.trans houts')
    refine List.Forall₂.mp (fun n o ho hn => ?_) houtbounds (hkept.outbounds outs houts)
    obtain ⟨size, hsize, hwindow⟩ := parseOutbound_sizes ho
    have hkeeps : n.Keeps (ascii "init_window") (some o.initWindow.toNat) := hn .initWindow
    rw [hwindow] at hkeeps ⊢
    exact zero_written hsize hkeeps

end Loaded

/-- **The sizes of a configuration are stored as written exactly if they fit**, a `max_payload`
into `std::size_t` and an `init_window` into `u32`, and no outbound gives a `max_payload`. Then
no window is zero unless a zero is written. -/
theorem sizes_kept_iff (env : LoaderEnv) (content : Bytes) (root : Yaml) (c : Settings)
    (hroot : env.load content = .ok root) (h : loadFromString env content = .ok c) :
    (SizesKept root c ↔ SizesFit root) ∧ (SizesKept root c → ZerosWritten root c) := by
  obtain ⟨root', hroot', hparse⟩ := loadFromString_eq_ok.mp h
  obtain rfl := Except.ok.inj (hroot.symm.trans hroot')
  exact ⟨sizesKept_iff hparse, zerosWritten_of_kept hparse⟩

/-- An inbound for which a window is given. -/
def windowInbound (window : Bytes) : Yaml :=
  .map [
    (.scalar (ascii "tag"), .scalar (ascii "in")),
    (.scalar (ascii "listen"), .scalar (ascii "127.0.0.1:1080")),
    (.scalar (ascii "init_window"), .scalar window)]

/-- A direct outbound with further settings. -/
def directOutbound (settings : List (Yaml × Yaml)) : Yaml :=
  .map ([
    (.scalar (ascii "tag"), .scalar (ascii "out")),
    (.scalar (ascii "protocol"), .scalar (ascii "direct"))] ++ settings)

/-- A configuration with this inbound and an outbound. -/
def sizesDocument (window : Bytes) (outbound : Yaml) : Yaml :=
  .map [
    (.scalar (ascii "inbounds"), .sequence [windowInbound window]),
    (.scalar (ascii "outbounds"), .sequence [outbound])]

/-- A configuration with this inbound. -/
def windowDocument (window : Bytes) : Yaml := sizesDocument window (directOutbound [])

/-- A configuration whose outbound gives a `max_payload`. -/
def payloadDocument (payload : Bytes) : Yaml :=
  sizesDocument (ascii "64K") (directOutbound
    [(.scalar (ascii "max_payload"), .scalar payload)])

/-- The window stored for the inbound. -/
def storedWindows (window : Bytes) : Option (List UInt32) :=
  (loadFromString (.constant (windowDocument window)) []).toOption.map fun c =>
    c.inbounds.map (·.initWindow)

theorem exists_loaded (window : Bytes) (stored : List UInt32)
    (h : storedWindows window = some stored) :
    ∃ c, loadFromString (.constant (windowDocument window)) [] = .ok c ∧
      c.inbounds.map (·.initWindow) = stored := by
  obtain ⟨c, hc, rfl⟩ := Option.map_eq_some_iff.mp h
  cases hload : loadFromString (.constant (windowDocument window)) [] with
  | error st =>
    rw [hload] at hc
    cases hc
  | ok c' =>
    rw [hload] at hc
    cases hc
    exact ⟨_, rfl, rfl⟩

theorem gives_window {window t : Bytes} :
    (windowInbound window).Gives (ascii "init_window") t ↔ t = window := by
  have hfind : (windowInbound window).find (ascii "init_window")
      = .ok (some (.scalar window)) := rfl
  constructor
  · rintro ⟨v, hv, ht⟩
    obtain rfl := Option.some.inj (Except.ok.inj (hfind.symm.trans hv))
    exact (Except.ok.inj ht).symm
  · rintro rfl
    exact ⟨_, hfind, rfl⟩

theorem sizesFit_windowDocument {window : Bytes} {written : Nat}
    (h : WritesSize window written) :
    SizesFit (windowDocument window) ↔ written < 2 ^ 32 := by
  have hins : (windowDocument window).get (ascii "inbounds")
      = .ok (.sequence [windowInbound window]) := rfl
  constructor
  · intro hfit
    have hwindow := (hfit.inbounds _ hins _ List.mem_cons_self).2
    exact hwindow window written (gives_window.mpr rfl) h
  · intro hlt
    constructor
    · intro ins hins' n hn
      obtain rfl := Except.ok.inj (hins.symm.trans hins')
      obtain rfl := List.mem_singleton.mp hn
      constructor
      · rintro t size ⟨v, hv, -⟩
        cases hv
      · intro t size ht hsize
        obtain rfl := gives_window.mp ht
        rwa [hsize.unique h]
    · intro outs houts n hn
      cases houts
      obtain rfl := List.mem_singleton.mp hn
      constructor
      · rintro t ⟨v, hv, -⟩
        cases hv
      · rintro t size ⟨v, hv, -⟩
        cases hv

/-- A `max_payload` of an outbound is not kept, whatever it is. -/
theorem not_sizesFit_payloadDocument (payload : Bytes) : ¬ SizesFit (payloadDocument payload) := by
  intro hfit
  have hnone := (hfit.outbounds _ rfl _ List.mem_cons_self).1
  exact hnone payload ⟨.scalar payload, rfl, rfl⟩

theorem sizes_kept_iff_64k :
    ∃ c, loadFromString (.constant (windowDocument (ascii "64K"))) [] = .ok c ∧
      SizesKept (windowDocument (ascii "64K")) c ∧ c.inbounds.map (·.initWindow) = [65536] := by
  have hwrites : WritesSize (ascii "64K") (64 * 1024) :=
    ⟨ascii "64", ascii "K", 1024, by decide, by decide, by decide +kernel, rfl, rfl⟩
  obtain ⟨c, hload, hwindow⟩ := exists_loaded (ascii "64K") [65536] (by decide +kernel)
  refine ⟨c, hload, ?_, hwindow⟩
  exact (sizes_kept_iff _ _ _ c rfl hload).1.mpr
    ((sizesFit_windowDocument hwrites).mpr (by decide))

/-- A window of `4G` is stored as 0, and the `max_payload` of an outbound is not read, be it a size
or not. -/
theorem window_stored_as_zero :
    (∃ c, loadFromString (.constant (windowDocument (ascii "4G"))) [] = .ok c ∧
        c.inbounds.map (·.initWindow) = [0] ∧ ¬ SizesKept (windowDocument (ascii "4G")) c) ∧
      ∀ payload, ∃ c, loadFromString (.constant (payloadDocument payload)) [] = .ok c ∧
        ¬ SizesKept (payloadDocument payload) c := by
  have hwrites : WritesSize (ascii "4G") (4 * (1024 * 1024 * 1024)) :=
    ⟨ascii "4", ascii "G", 1024 * 1024 * 1024, by decide, by decide, by decide +kernel, rfl, rfl⟩
  constructor
  · obtain ⟨c, hload, hwindow⟩ := exists_loaded (ascii "4G") [0] (by decide +kernel)
    refine ⟨c, hload, hwindow, fun hkept => ?_⟩
    obtain ⟨root, hroot, hparse⟩ := loadFromString_eq_ok.mp hload
    cases hroot
    have hfit := (sizesKept_iff hparse).mp hkept
    exact absurd ((sizesFit_windowDocument hwrites).mp hfit) (by decide)
  · intro payload
    refine ⟨_, rfl, fun hkept => ?_⟩
    have hload : loadFromString (.constant (payloadDocument payload)) [] = .ok _ := rfl
    obtain ⟨root, hroot, hparse⟩ := loadFromString_eq_ok.mp hload
    cases hroot
    exact not_sizesFit_payloadDocument payload ((sizesKept_iff hparse).mp hkept)

end Shine
