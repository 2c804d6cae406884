import Mathlib.Data.List.Basic
import Mathlib.Data.UInt

set_option autoImplicit false

/-! # Numbers in strings

`StrToNumber` reads a decimal number, or a hexadecimal one behind `0x`, into 32 bits, and
`StrToNumber64` into 64. The digits are added one after the other, each behind a test that another
digit still fits. A C string is the list of its bytes before the NUL.
-/

namespace QcapDemos.Zz

/-! ## The parser -/

/-- `isdigit` -/
def isDigit (c : UInt8) : Bool := 48 ≤ c && c ≤ 57

/-- `toupper` -/
def toUpper (c : UInt8) : UInt8 := if 97 ≤ c && c ≤ 122 then c - 32 else c

/-- The loop of `atoul`, and the value that it stores. -/
def atoul (w : Nat) : List UInt8 → BitVec w → Bool × BitVec w
  | [], ulResult => (true, ulResult)  -- also where there was no digit at all
  | c :: str, ulResult =>
      let maxV := BitVec.allOnes w / 10#w
      if isDigit c then
        if ulResult < maxV ∨ (ulResult = maxV ∧ c < 54) then
          atoul w str (ulResult * 10#w + BitVec.ofNat w c.toNat - 48#w)
        else (false, ulResult)
      else (false, ulResult)

/-- The value of the hexadecimal digit `ch`. -/
def digitOf (ch : UInt8) : Nat := if ch ≤ 57 then ch.toNat - 48 else ch.toNat - 65 + 10

/-- The loop of `atoulx`. The limit is written `max >> 4 + 1`, which is a shift by five. -/
def atoulx (w : Nat) : List UInt8 → BitVec w → Bool × BitVec w
  | [], ulResult => (true, ulResult)
  | c :: str, ulResult =>
      let maxV := BitVec.allOnes w >>> (4 + 1)
      let ch := toUpper c
      if isDigit ch || (65 ≤ ch && ch ≤ 70) then
        if ulResult < maxV then
          atoulx w str ((ulResult <<< 4) + BitVec.ofNat w (digitOf ch))
        else (false, ulResult)
      else (false, ulResult)

/-- What stands behind `0x` or `0X`. -/
def behindX : List UInt8 → Option (List UInt8)
  | 48 :: c :: rest => if c = 120 ∨ c = 88 then some rest else none
  | _ => none

/-- The body of `StrToNumber` and `StrToNumber64`: whether the string is accepted, and the value
that is stored, if any. -/
def toNumber (w : Nat) (str : List UInt8) : Bool × Option (BitVec w) :=
  match behindX str with
  | some rest =>
      if rest = [] then (false, none) else ((atoulx w rest 0#w).1, some (atoulx w rest 0#w).2)
  | none => ((atoul w str 0#w).1, some (atoul w str 0#w).2)

def strToNumber (str : List UInt8) : Bool × Option (BitVec 32) := toNumber 32 str

def strToNumber64 (str : List UInt8) : Bool × Option (BitVec 64) := toNumber 64 str

/-- The two widths. -/
inductive Width where
  | u32
  | u64
deriving DecidableEq

def Width.bits : Width → Nat
  | .u32 => 32
  | .u64 => 64

/-- `StrToNumber` or `StrToNumber64` -/
def Width.strToNumber : (w : Width) → List UInt8 → Bool × Option (BitVec w.bits)
  | .u32 => Zz.strToNumber
  | .u64 => strToNumber64

/-- `ParseNumber` or `ParseNumber64` -/
def Width.parseNumber (w : Width) (str : List UInt8) (nDefValue : BitVec w.bits) : BitVec w.bits :=
  if (w.strToNumber str).1 then (w.strToNumber str).2.getD nDefValue else nDefValue

/-! ## Spellings -/

/-- The value of a decimal digit. -/
def decDigit (c : UInt8) : Option Nat :=
  if 48 ≤ c.toNat ∧ c.toNat ≤ 57 then some (c.toNat - 48) else none

/-- The value of a hexadecimal digit of either case. -/
def hexDigit (c : UInt8) : Option Nat :=
  if 48 ≤ c.toNat ∧ c.toNat ≤ 57 then some (c.toNat - 48)
  else if 65 ≤ c.toNat ∧ c.toNat ≤ 70 then some (c.toNat - 55)
  else if 97 ≤ c.toNat ∧ c.toNat ≤ 102 then some (c.toNat - 87)
  else none

/-- The digits of `str`, put behind the number `n`. -/
def digitsFrom (base : Nat) (digit : UInt8 → Option Nat) : List UInt8 → Nat → Option Nat
  | [], n => some n
  | c :: str, n => (digit c).bind fun d => digitsFrom base digit str (n * base + d)

def DecSpelling (str : List UInt8) (n : Nat) : Prop :=
  str ≠ [] ∧ digitsFrom 10 decDigit str 0 = some n

def HexSpelling (str : List UInt8) (n : Nat) : Prop :=
  ∃ digits, (str = [48, 120] ++ digits ∨ str = [48, 88] ++ digits) ∧ digits ≠ [] ∧
    digitsFrom 16 hexDigit digits 0 = some n

/-- `str` is a decimal or a hexadecimal spelling of `n`. -/
def Spells (str : List UInt8) (n : Nat) : Prop := DecSpelling str n ∨ HexSpelling str n

/-- A string is read as the number that it spells, or rejected where it spells none that fits. -/
structure ReadsRight (w : Width) (str : List UInt8) : Prop where
  accepted : ∀ n < 2 ^ w.bits, Spells str n →
    w.strToNumber str = (true, some (BitVec.ofNat w.bits n))
  rejected : (∀ n < 2 ^ w.bits, ¬ Spells str n) → (w.strToNumber str).1 = false
  parsed : ∀ n < 2 ^ w.bits, Spells str n →
    ∀ nDefValue, w.parseNumber str nDefValue = BitVec.ofNat w.bits n
  fallback : (∀ n < 2 ^ w.bits, ¬ Spells str n) →
    ∀ nDefValue, w.parseNumber str nDefValue = nDefValue

/-! ## The decimal loop -/

section Decimal

theorem isDigit_iff (c : UInt8) : isDigit c = true ↔ 48 ≤ c.toNat ∧ c.toNat ≤ 57 := by
  simp [isDigit, UInt8.le_iff_toNat_le]

theorem digitsFrom_mono {base : Nat} (hbase : 0 < base) {digit : UInt8 → Option Nat}
    {str : List UInt8} {m n : Nat} (h : digitsFrom base digit str m = some n) : m ≤ n := by
  induction str generalizing m with
  | nil => exact (Option.some.inj h).le
  | cons c str ih =>
      obtain ⟨d, -, hrest⟩ := Option.bind_eq_some_iff.mp h
      have hle := ih hrest
      have hmul : m ≤ m * base := Nat.le_mul_of_pos_right m hbase
      omega

theorem Width.two_pow_mod_ten (w : Width) : 2 ^ w.bits % 10 = 6 := by
  cases w <;> rfl

theorem Width.lt_two_pow (w : Width) : 256 < 2 ^ w.bits := by
  cases w <;> decide

/-- The digit is added without a wrap where it fits. -/
theorem toNat_addDigit {w : Nat} (ulResult : BitVec w) {c : UInt8} (hc : 48 ≤ c.toNat)
    (hfits : ulResult.toNat * 10 + (c.toNat - 48) < 2 ^ w) :
    (ulResult * 10#w + BitVec.ofNat w c.toNat - 48#w).toNat
      = ulResult.toNat * 10 + (c.toNat - 48) := by
  have hsum : ulResult * 10#w + BitVec.ofNat w c.toNat - 48#w
      = BitVec.ofNat w (ulResult.toNat * 10 + (c.toNat - 48)) := by
    obtain ⟨d, hd⟩ : ∃ d, c.toNat = d + 48 := ⟨c.toNat - 48, by omega⟩
    rw [hd, Nat.add_sub_cancel, BitVec.ofNat_add, BitVec.ofNat_add, BitVec.ofNat_mul,
      BitVec.ofNat_toNat, BitVec.setWidth_eq, ← BitVec.add_assoc, BitVec.add_sub_cancel]
  rw [hsum, BitVec.toNat_ofNat, Nat.mod_eq_of_lt hfits]

/-- The test before a decimal digit holds exactly if the digit still fits. -/
theorem atoul_guard (w : Width) (ulResult : BitVec w.bits) {c : UInt8}
    (hc : 48 ≤ c.toNat ∧ c.toNat ≤ 57) :
    (ulResult < BitVec.allOnes w.bits / 10#w.bits ∨
        (ulResult = BitVec.allOnes w.bits / 10#w.bits ∧ c < 54)) ↔
      ulResult.toNat * 10 + (c.toNat - 48) < 2 ^ w.bits := by
  have hsix : c < 54 ↔ c.toNat < 54 := UInt8.lt_iff_toNat_lt
  have hmod := w.two_pow_mod_ten
  have hlt := w.lt_two_pow
  have hmax : (BitVec.allOnes w.bits / 10#w.bits).toNat = (2 ^ w.bits - 1) / 10 := by
    rw [BitVec.toNat_udiv, BitVec.toNat_allOnes, BitVec.toNat_ofNat, Nat.mod_eq_of_lt (by omega)]
  rw [BitVec.lt_def, BitVec.toNat_eq, hmax, hsix]
  -- the largest number ends in 5 for both widths, so that the last digit must be below 6
  omega

/-- The decimal loop accepts what is a row of digits that fits, and stores its value. -/
theorem atoul_spec (w : Width) (str : List UInt8) (ulResult : BitVec w.bits) :
    (∀ n < 2 ^ w.bits, digitsFrom 10 decDigit str ulResult.toNat = some n →
      atoul w.bits str ulResult = (true, BitVec.ofNat w.bits n)) ∧
    ((∀ n < 2 ^ w.bits, digitsFrom 10 decDigit str ulResult.toNat ≠ some n) →
      (atoul w.bits str ulResult).1 = false) := by
  induction str generalizing ulResult with
  | nil =>
      refine ⟨fun n _ hdigits => ?_, fun hnone => absurd rfl (hnone _ ulResult.isLt)⟩
      rw [← Option.some.inj hdigits, BitVec.ofNat_toNat, BitVec.setWidth_eq]
      rfl
  | cons c str ih =>
      by_cases hc : 48 ≤ c.toNat ∧ c.toNat ≤ 57
      · have hguard := atoul_guard w ulResult hc
        have hdigit := (isDigit_iff c).mpr hc
        have hfrom : digitsFrom 10 decDigit (c :: str) ulResult.toNat
            = digitsFrom 10 decDigit str (ulResult.toNat * 10 + (c.toNat - 48)) := by
          rw [digitsFrom, decDigit, if_pos hc, Option.bind_some]
        rw [atoul, if_pos hdigit, hfrom]
        by_cases hfits : ulResult.toNat * 10 + (c.toNat - 48) < 2 ^ w.bits
        · rw [if_pos (hguard.mpr hfits), ← toNat_addDigit ulResult hc.1 hfits]
          exact ih _
        · -- what follows does not make the number smaller
          rw [if_neg fun h => hfits (hguard.mp h)]
          refine ⟨fun n hn hdigits => ?_, fun _ => rfl⟩
          have hle := digitsFrom_mono (by decide) hdigits
          omega
      · have hdigit : ¬ isDigit c = true := fun h => hc ((isDigit_iff c).mp h)
        have hfrom : digitsFrom 10 decDigit (c :: str) ulResult.toNat = none := by
          rw [digitsFrom, decDigit, if_neg hc]
          rfl
        rw [atoul, if_neg hdigit, hfrom]
        exact ⟨fun n _ h => (by cases h), fun _ => rfl⟩

end Decimal

/-! ## The hexadecimal loop -/

section Hexadecimal

/-- What the hexadecimal loop takes off a digit. -/
theorem hexDigit_toUpper (c : UInt8) :
    hexDigit c = if isDigit (toUpper c) || (65 ≤ toUpper c && toUpper c ≤ 70) then
      some (digitOf (toUpper c)) else none := by
  have hall : ∀ n : Fin 256, hexDigit (UInt8.ofFin n) =
      if isDigit (toUpper (UInt8.ofFin n)) ||
        (65 ≤ toUpper (UInt8.ofFin n) && toUpper (UInt8.ofFin n) ≤ 70) then
      some (digitOf (toUpper (UInt8.ofFin n))) else none := by
    decide +kernel
  exact hall c.toFin

theorem hexDigit_lt {c : UInt8} {d : Nat} (h : hexDigit c = some d) : d < 16 := by
  unfold hexDigit at h
  split_ifs at h
  all_goals
    rw [← Option.some.inj h]
    omega

/-- One more than the largest number that the hexadecimal loop accepts, but for the last digit. -/
def hexLimit (w : Width) : Nat := 2 ^ (w.bits - 5) - 1

theorem two_pow_eq (w : Width) : 2 ^ w.bits = 32 * 2 ^ (w.bits - 5) := by
  cases w <;> rfl

theorem Width.two_pow_half (w : Width) : 2 ^ (w.bits - 1) = 16 * 2 ^ (w.bits - 5) := by
  cases w <;> rfl

theorem atoulx_guard (w : Width) (ulResult : BitVec w.bits) :
    ulResult < BitVec.allOnes w.bits >>> (4 + 1) ↔ ulResult.toNat < hexLimit w := by
  have hpow := two_pow_eq w
  have hmax : (BitVec.allOnes w.bits >>> (4 + 1)).toNat = hexLimit w := by
    rw [BitVec.toNat_ushiftRight, BitVec.toNat_allOnes, Nat.shiftRight_eq_div_pow, hexLimit]
    omega
  rw [BitVec.lt_def, hmax]

theorem toNat_shiftDigit (w : Width) {ulResult : BitVec w.bits} {d : Nat} (hd : d < 16)
    (hlimit : ulResult.toNat < hexLimit w) :
    ((ulResult <<< 4) + BitVec.ofNat w.bits d).toNat = ulResult.toNat * 16 + d := by
  have hpow := two_pow_eq w
  rw [hexLimit] at hlimit
  rw [BitVec.toNat_add, BitVec.toNat_shiftLeft, BitVec.toNat_ofNat, Nat.shiftLeft_eq,
    Nat.mod_eq_of_lt (show ulResult.toNat * 2 ^ 4 < 2 ^ w.bits by omega),
    Nat.mod_eq_of_lt (show d < 2 ^ w.bits by omega), Nat.mod_eq_of_lt (by omega)]
  rfl

/-- The hexadecimal loop accepts a row of digits that stays below its limit before the last digit,
and stores its value. -/
theorem atoulx_spec (w : Width) (str : List UInt8) (ulResult : BitVec w.bits) :
    (∀ n, digitsFrom 16 hexDigit str ulResult.toNat = some n → (str = [] ∨ n / 16 < hexLimit w) →
      atoulx w.bits str ulResult = (true, BitVec.ofNat w.bits n)) ∧
    ((∀ n, digitsFrom 16 hexDigit str ulResult.toNat = some n →
      ¬ (str = [] ∨ n / 16 < hexLimit w)) → (atoulx w.bits str ulResult).1 = false) := by
  induction str generalizing ulResult with
  | nil =>
      refine ⟨fun n hdigits _ => ?_, fun hnone => absurd (.inl rfl) (hnone _ rfl)⟩
      rw [← Option.some.inj hdigits, BitVec.ofNat_toNat, BitVec.setWidth_eq]
      rfl
  | cons c str ih =>
      have hupper := hexDigit_toUpper c
      rw [atoulx]
      by_cases hc : (isDigit (toUpper c) || (65 ≤ toUpper c && toUpper c ≤ 70)) = true
      · rw [if_pos hc] at hupper
        have hlt16 := hexDigit_lt hupper
        have hfrom : digitsFrom 16 hexDigit (c :: str) ulResult.toNat
            = digitsFrom 16 hexDigit str (ulResult.toNat * 16 + digitOf (toUpper c)) := by
          rw [digitsFrom, hupper, Option.bind_some]
        rw [if_pos hc, hfrom]
        by_cases hlimit : ulResult.toNat < hexLimit w
        · rw [if_pos ((atoulx_guard w ulResult).mpr hlimit), ← toNat_shiftDigit w hlt16 hlimit]
          -- the digit that was added is tested before the next one
          have hiff {n : Nat} (hdigits : digitsFrom 16 hexDigit str ((ulResult <<< 4)
              + BitVec.ofNat w.bits (digitOf (toUpper c))).toNat = some n) :
              (c :: str = [] ∨ n / 16 < hexLimit w) ↔ (str = [] ∨ n / 16 < hexLimit w) := by
            constructor
            · rintro (h | h)
              · cases h
              · exact .inr h
            · rintro (rfl | h)
              · -- the value before the last digit is the one that was tested
                have hn := Option.some.inj hdigits
                rw [toNat_shiftDigit w hlt16 hlimit] at hn
                exact .inr (by omega)
              · exact .inr h
          obtain ⟨haccept, hreject⟩ := ih ((ulResult <<< 4)
            + BitVec.ofNat w.bits (digitOf (toUpper c)))
          refine ⟨fun n hdigits h => haccept n hdigits ((hiff hdigits).mp h), fun hnone => ?_⟩
          exact hreject fun n hdigits h => hnone n hdigits ((hiff hdigits).mpr h)
        · rw [if_neg fun h => hlimit ((atoulx_guard w ulResult).mp h)]
          refine ⟨fun n hdigits h => ?_, fun _ => rfl⟩
          rcases h with h | h
          · cases h
          · have hle := digitsFrom_mono (by decide) hdigits
            omega
      · rw [if_neg hc] at hupper
        have hfrom : digitsFrom 16 hexDigit (c :: str) ulResult.toNat = none := by
          rw [digitsFrom, hupper]
          rfl
        rw [if_neg hc, hfrom]
        exact ⟨fun n h => (by cases h), fun _ => rfl⟩

end Hexadecimal

/-! ## Whole strings -/

section Strings

variable {w : Width} {str rest : List UInt8}

theorem strToNumber_eq (w : Width) (str : List UInt8) :
    w.strToNumber str = toNumber w.bits str := by
  cases w <;> rfl

theorem behindX_eq_some :
    behindX str = some rest ↔ str = [48, 120] ++ rest ∨ str = [48, 88] ++ rest := by
  unfold behindX
  split
  · rename_i c tail
    by_cases hc : c = 120 ∨ c = 88
    · rw [if_pos hc]
      rcases hc with rfl | rfl
      · simp
      · simp
    · rw [if_neg hc]
      rw [not_or] at hc
      simp [hc]
  · rename_i hnot
    constructor
    · intro h
      cases h
    · rintro (rfl | rfl)
      · exact absurd rfl (hnot _ _)
      · exact absurd rfl (hnot _ _)

theorem hexSpelling_iff (h : behindX str = some rest) (n : Nat) :
    HexSpelling str n ↔ rest ≠ [] ∧ digitsFrom 16 hexDigit rest 0 = some n := by
  constructor
  · rintro ⟨digits, hstr, hne, hdigits⟩
    obtain rfl : digits = rest := Option.some.inj ((behindX_eq_some.mpr hstr).symm.trans h)
    exact ⟨hne, hdigits⟩
  · rintro ⟨hne, hdigits⟩
    exact ⟨rest, behindX_eq_some.mp h, hne, hdigits⟩

theorem not_hexSpelling (h : behindX str = none) (n : Nat) : ¬ HexSpelling str n := by
  rintro ⟨digits, hstr, -, -⟩
  rw [behindX_eq_some.mpr hstr] at h
  cases h

/-- The `x` is not a decimal digit. -/
theorem not_decSpelling (h : behindX str = some rest) (n : Nat) : ¬ DecSpelling str n := by
  rintro ⟨-, hdigits⟩
  rcases behindX_eq_some.mp h with rfl | rfl
  · cases hdigits
  · cases hdigits

/-- `ParseNumber` follows `StrToNumber`. -/
theorem ReadsRight.of_strToNumber
    (haccepted : ∀ n < 2 ^ w.bits, Spells str n →
      w.strToNumber str = (true, some (BitVec.ofNat w.bits n)))
    (hrejected : (∀ n < 2 ^ w.bits, ¬ Spells str n) → (w.strToNumber str).1 = false) :
    ReadsRight w str := by
  refine ⟨haccepted, hrejected, fun n hn hspells nDefValue => ?_, fun hnone nDefValue => ?_⟩
  · rw [Width.parseNumber, haccepted n hn hspells]
    rfl
  · rw [Width.parseNumber, hrejected hnone]
    rfl

/-- Without `0x` every string but the empty one is read right. -/
theorem readsRight_decimal (h : behindX str = none) : ReadsRight w str ↔ str ≠ [] := by
  have hnumber : w.strToNumber str
      = ((atoul w.bits str 0#w.bits).1, some (atoul w.bits str 0#w.bits).2) := by
    rw [strToNumber_eq, toNumber, h]
  have hzero : (0#w.bits).toNat = 0 := BitVec.toNat_zero
  obtain ⟨haccept, hreject⟩ := atoul_spec w str 0#w.bits
  rw [hzero] at haccept hreject
  constructor
  · rintro hright rfl
    have hfalse := hright.rejected fun n _ hspells => hspells.elim
      (fun hdec => hdec.1 rfl) (not_hexSpelling rfl n)
    rw [hnumber] at hfalse
    cases hfalse
  · intro hne
    refine ReadsRight.of_strToNumber (fun n hn hspells => ?_) fun hnone => ?_
    · have hdec := hspells.resolve_right (not_hexSpelling h n)
      rw [hnumber, haccept n hn hdec.2]
    · rw [hnumber]
      exact hreject fun n hn hdigits => hnone n hn (.inl ⟨hne, hdigits⟩)

/-- Behind `0x` the numbers from `2 ^ (w - 1) - 16` on are rejected. -/
theorem readsRight_hexadecimal (h : behindX str = some rest) :
    ReadsRight w str ↔
      ∀ n, HexSpelling str n → n < 2 ^ w.bits → n < 2 ^ (w.bits - 1) - 16 := by
  have hspells (n : Nat) : Spells str n ↔ HexSpelling str n :=
    or_iff_right (not_decSpelling h n)
  -- behind a bare `0x` nothing is spelled, and it is rejected
  by_cases hne : rest = []
  · have hnot (n : Nat) : ¬ HexSpelling str n := fun hhex => ((hexSpelling_iff h n).mp hhex).1 hne
    refine ⟨fun _ n hhex => absurd hhex (hnot n), fun _ => ?_⟩
    refine ReadsRight.of_strToNumber (fun n _ hn => ?_) fun _ => ?_
    · exact absurd ((hspells n).mp hn) (hnot n)
    · rw [strToNumber_eq, toNumber, h, hne]
      rfl
  · have hnumber : w.strToNumber str
        = ((atoulx w.bits rest 0#w.bits).1, some (atoulx w.bits rest 0#w.bits).2) := by
      rw [strToNumber_eq, toNumber, h]
      exact if_neg hne
    have hhex (n : Nat) : HexSpelling str n ↔ digitsFrom 16 hexDigit rest 0 = some n := by
      rw [hexSpelling_iff h, and_iff_right hne]
    have hzero : (0#w.bits).toNat = 0 := BitVec.toNat_zero
    obtain ⟨haccept, hreject⟩ := atoulx_spec w rest 0#w.bits
    rw [hzero] at haccept hreject
    have hlimit (n : Nat) : n / 16 < hexLimit w ↔ n < 2 ^ (w.bits - 1) - 16 := by
      have hpow := w.two_pow_half
      rw [hexLimit]
      omega
    have hlow : 2 ^ (w.bits - 1) ≤ 2 ^ w.bits := Nat.pow_le_pow_right (by decide) (by omega)
    constructor
    · intro hright n hn hlt
      by_contra hge
      have htrue := hright.accepted n hlt ((hspells n).mpr hn)
      have hfalse : (atoulx w.bits rest 0#w.bits).1 = false := by
        refine hreject fun m hm => ?_
        obtain rfl : n = m := Option.some.inj (((hhex n).mp hn).symm.trans hm)
        rw [hlimit]
        exact not_or.mpr ⟨hne, hge⟩
      rw [hnumber, hfalse] at htrue
      cases htrue
    · intro hsmall
      refine ReadsRight.of_strToNumber (fun n hn hs => ?_) fun hnone => ?_
      · have hn' := (hspells n).mp hs
        rw [hnumber, haccept n ((hhex n).mp hn') (.inr ((hlimit n).mpr (hsmall n hn' hn)))]
      · rw [hnumber]
        refine hreject fun n hn => not_or.mpr ⟨hne, fun hlt => ?_⟩
        have hbig : ¬ n < 2 ^ w.bits :=
          fun hlt => hnone n hlt ((hspells n).mpr ((hhex n).mpr hn))
        have hsmall := (hlimit n).mp hlt
        omega

end Strings

/-- **A string is read as the number that it spells, or rejected, exactly if it is not empty and
does not spell a number from `2 ^ (w - 1) - 16` on in hexadecimal.** -/
theorem readsRight_iff (w : Width) (str : List UInt8) :
    ReadsRight w str ↔ str ≠ [] ∧
      ∀ n, HexSpelling str n → n < 2 ^ w.bits → n < 2 ^ (w.bits - 1) - 16 := by
  cases h : behindX str with
  | none =>
      rw [readsRight_decimal h]
      exact ⟨fun hne => ⟨hne, fun n hhex => absurd hhex (not_hexSpelling h n)⟩, And.left⟩
  | some rest =>
      rw [readsRight_hexadecimal h]
      refine ⟨fun hsmall => ⟨?_, hsmall⟩, And.right⟩
      rintro rfl
      cases h

/-- `0x80000000` spells a number of 32 bits, and is rejected. -/
theorem not_readsRight : ¬ ∀ (w : Width) (str : List UInt8), ReadsRight w str := by
  intro h
  have hspells : Spells [48, 120, 56, 48, 48, 48, 48, 48, 48, 48] 0x80000000 :=
    .inr ⟨[56, 48, 48, 48, 48, 48, 48, 48], .inl rfl, by decide, by decide⟩
  have haccepted := (h .u32 _).accepted _ (by decide) hspells
  have hrejected : (strToNumber [48, 120, 56, 48, 48, 48, 48, 48, 48, 48]).1 = false := by
    decide +kernel
  have htrue := congrArg Prod.fst haccepted
  rw [show (strToNumber [48, 120, 56, 48, 48, 48, 48, 48, 48, 48]).1 = true from htrue] at hrejected
  cases hrejected

example : (strToNumber []).1 = true := by decide +kernel

end QcapDemos.Zz
