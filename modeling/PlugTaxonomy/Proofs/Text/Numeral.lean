import PlugTaxonomy.Code.Numeral
import Mathlib.Data.Nat.Digits.Defs

/-!
# Numerals are read back

The digits of a number, however many zeros stand in front of them, are read as that number.

* `mem_toDigits` — the digits of a number are digits of its base;
* `readDigits?_zeroPadded` — digits are read back in every base up to sixteen;
* `readUnsigned?_hexPadded` — a hexadecimal numeral below the limit is read back.
-/

namespace PlugTaxonomy.Text

/-! ### Single digits -/

theorem digitValue?_digitChar {base d : Nat} (hbase : base ≤ 16) (h : d < base) :
    digitValue? base (Nat.digitChar d) = some d := by
  have hsixteen : ∀ e < 16, digitValue? 16 (Nat.digitChar e) = some e := by decide
  have hd := hsixteen d (by omega)
  rw [digitValue?, Option.filter_eq_some_iff] at hd ⊢
  exact ⟨hd.1, decide_eq_true h⟩

/-- The digits of a number are digits of its base. -/
theorem mem_toDigits {base n : Nat} (hbase : 1 < base) {c : Char}
    (h : c ∈ Nat.toDigits base n) : ∃ d < base, c = Nat.digitChar d := by
  induction n using Nat.strongRecOn with
  | ind n ih =>
    by_cases hn : n < base
    · rw [Nat.toDigits_of_lt_base hn] at h
      exact ⟨n, hn, List.mem_singleton.mp h⟩
    · have hle : base ≤ n := by omega
      rw [Nat.toDigits_of_base_le hbase hle, List.mem_append] at h
      rcases h with h | h
      · exact ih (n / base) (Nat.div_lt_self (by omega) hbase) h
      · exact ⟨n % base, Nat.mod_lt n (by omega), List.mem_singleton.mp h⟩

/-! ### Runs of digits -/

theorem readDigits?_append (base value : Nat) (cs ds : List Char) :
    readDigits? base value (cs ++ ds) =
      (readDigits? base value cs).bind fun read => readDigits? base read ds := by
  induction cs generalizing value with
  | nil => rfl
  | cons c cs ih =>
    rw [List.cons_append, readDigits?, readDigits?]
    cases digitValue? base c with
    | none => rfl
    | some digit => exact ih (value * base + digit)

section Base

variable {base : Nat} (hbase : 1 < base) (hsixteen : base ≤ 16)
include hbase hsixteen

theorem readDigits?_toDigits (n : Nat) :
    readDigits? base 0 (Nat.toDigits base n) = some n := by
  induction n using Nat.strongRecOn with
  | ind n ih =>
    by_cases hn : n < base
    · simp [Nat.toDigits_of_lt_base hn, readDigits?, digitValue?_digitChar hsixteen hn]
    · have hle : base ≤ n := by omega
      have hlast : n % base < base := Nat.mod_lt n (by omega)
      have hfront := ih (n / base) (Nat.div_lt_self (by omega) hbase)
      rw [Nat.toDigits_of_base_le hbase hle, readDigits?_append, hfront]
      show readDigits? base (n / base) [Nat.digitChar (n % base)] = some n
      simp [readDigits?, digitValue?_digitChar hsixteen hlast, Nat.div_add_mod']

/-- Zeros in front of the digits of a number do not matter. -/
theorem readDigits?_zeroPadded (width n : Nat) :
    readDigits? base 0 (zeroPadded width (Nat.toDigits base n)) = some n := by
  have hzero : digitValue? base (Nat.digitChar 0) = some 0 :=
    digitValue?_digitChar hsixteen (by omega)
  rw [zeroPadded]
  induction width - (Nat.toDigits base n).length with
  | zero => exact readDigits?_toDigits hbase hsixteen n
  | succ k ih =>
    rw [List.replicate_succ, List.cons_append, readDigits?]
    show (digitValue? base (Nat.digitChar 0)).bind _ = some n
    rw [hzero]
    show readDigits? base (0 * base + 0) _ = some n
    rw [Nat.zero_mul]
    exact ih

end Base

/-! ### Hexadecimal numerals -/

theorem mem_hexPadded {width n : Nat} {c : Char} (h : c ∈ hexPadded width n) :
    ∃ d < 16, c = Nat.digitChar d := by
  rw [hexPadded, zeroPadded, List.mem_append] at h
  rcases h with h | h
  · exact ⟨0, by omega, List.eq_of_mem_replicate h⟩
  · exact mem_toDigits (by omega) h

theorem hexPadded_ne_nil (width n : Nat) : hexPadded width n ≠ [] := by
  have hne : Nat.toDigits 16 n ≠ [] := List.length_pos_iff.mp Nat.length_toDigits_pos
  intro hnil
  rw [hexPadded, zeroPadded, List.append_eq_nil_iff] at hnil
  exact hne hnil.2

/-- A hexadecimal numeral is read back if its number is below the limit. -/
theorem readUnsigned?_hexPadded (width : Nat) {limit n : Nat} (h : n < limit) :
    readUnsigned? 16 limit (hexPadded width n) = some n := by
  have hdigits : readDigits? 16 0 (hexPadded width n) = some n :=
    readDigits?_zeroPadded (by omega) (by omega) width n
  have hplus : ∀ rest, hexPadded width n ≠ '+' :: rest := by
    have hdigit : ∀ d < 16, Nat.digitChar d ≠ '+' := by decide
    intro rest hlist
    obtain ⟨d, hd, hc⟩ := mem_hexPadded (hlist.symm ▸ List.mem_cons_self)
    exact hdigit d hd hc.symm
  have hne : ¬(hexPadded width n).isEmpty = true := by
    rw [List.isEmpty_iff]
    exact hexPadded_ne_nil width n
  rw [readUnsigned?, if_neg hne, hdigits]
  · exact if_pos (decide_eq_true h)
  · exact hplus

end PlugTaxonomy.Text
