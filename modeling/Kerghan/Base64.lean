import Mathlib.Data.List.Basic

/-!
This module contains the base64 encoding of bytes with padding, and that a decoder gets them back.
-/

namespace Base64

def alphabet : List Char :=
  ((List.range 26).map fun n => Char.ofNat (65 + n)) ++ ((List.range 26).map fun n => Char.ofNat (97 + n))
    ++ ((List.range 10).map fun n => Char.ofNat (48 + n)) ++ ['+', '/']

example : String.ofList alphabet = "ABCDEFGHIJKLMNOPQRSTUVWXYZabcdefghijklmnopqrstuvwxyz0123456789+/" := by
  decide

def digit (n : Nat) : Char :=
  alphabet.getD n 'A'

def value (c : Char) : Nat :=
  alphabet.idxOf c

/--
The digits of three bytes are the four groups of six bits.
-/
def encode : List UInt8 → List Char
  | [] => []
  | [a] => [digit (a.toNat / 4), digit (a.toNat % 4 * 16), '=', '=']
  | [a, b] =>
    [digit (a.toNat / 4), digit (a.toNat % 4 * 16 + b.toNat / 16), digit (b.toNat % 16 * 4), '=']
  | a :: b :: c :: bytes =>
    digit (a.toNat / 4) :: digit (a.toNat % 4 * 16 + b.toNat / 16) ::
      digit (b.toNat % 16 * 4 + c.toNat / 64) :: digit (c.toNat % 64) :: encode bytes

def decodeDigits : List Char → List UInt8
  | w :: x :: y :: z :: chars =>
    .ofNat (value w * 4 + value x / 16) :: .ofNat (value x % 16 * 16 + value y / 4) ::
      .ofNat (value y % 4 * 64 + value z) :: decodeDigits chars
  | [w, x, y] => [.ofNat (value w * 4 + value x / 16), .ofNat (value x % 16 * 16 + value y / 4)]
  | [w, x] => [.ofNat (value w * 4 + value x / 16)]
  | _ => []

def isDigit (c : Char) : Bool :=
  alphabet.contains c

/--
What is no digit, such as the padding, does not count.
-/
def decode (chars : List Char) : List UInt8 :=
  decodeDigits (chars.filter isDigit)

theorem value_digit : ∀ n < 64, value (digit n) = n := by
  decide

theorem isDigit_digit : ∀ n < 64, isDigit (digit n) = true := by
  decide

theorem isDigit_padding : isDigit '=' = false := by
  decide

theorem filter_digit {n : Nat} (hn : n < 64) (chars : List Char)
    : (digit n :: chars).filter isDigit = digit n :: chars.filter isDigit :=
  List.filter_cons_of_pos (isDigit_digit n hn)

theorem filter_padding (chars : List Char)
    : ('=' :: chars).filter isDigit = chars.filter isDigit :=
  List.filter_cons_of_neg (by simp [isDigit_padding])

theorem ofNat_eq {a : UInt8} {n : Nat} (h : n = a.toNat) : UInt8.ofNat n = a := by
  rw [h, UInt8.ofNat_toNat]

theorem decode_encode (bytes : List UInt8) : decode (encode bytes) = bytes := by
  induction bytes using encode.induct with
  | case1 => rfl
  | case2 a =>
    have ha := a.toNat_lt
    unfold decode encode
    rw [filter_digit (by omega), filter_digit (by omega), filter_padding, filter_padding, List.filter_nil,
      decodeDigits, value_digit _ (by omega), value_digit _ (by omega), ofNat_eq]
    omega
  | case3 a b =>
    have ha := a.toNat_lt
    have hb := b.toNat_lt
    unfold decode encode
    rw [filter_digit (by omega), filter_digit (by omega), filter_digit (by omega), filter_padding,
      List.filter_nil, decodeDigits, value_digit _ (by omega), value_digit _ (by omega),
      value_digit _ (by omega), ofNat_eq (a := a) (by omega), ofNat_eq (a := b) (by omega)]
  | case4 a b c bytes ih =>
    have ha := a.toNat_lt
    have hb := b.toNat_lt
    have hc := c.toNat_lt
    unfold decode at ih ⊢
    rw [encode, filter_digit (by omega), filter_digit (by omega), filter_digit (by omega),
      filter_digit (by omega), decodeDigits, value_digit _ (by omega), value_digit _ (by omega),
      value_digit _ (by omega), value_digit _ (by omega), ih, ofNat_eq (a := a) (by omega),
      ofNat_eq (a := b) (by omega), ofNat_eq (a := c) (by omega)]

theorem encode_digits (bytes : List UInt8)
    : ∃ digits padding, encode bytes = digits ++ List.replicate padding '=' ∧ padding ≤ 2 ∧
        (∀ c ∈ digits, isDigit c = true) ∧ (bytes ≠ [] → digits ≠ []) := by
  induction bytes using encode.induct with
  | case1 => exact ⟨[], 0, rfl, by omega, by simp, by simp⟩
  | case2 a =>
    have ha := a.toNat_lt
    refine ⟨[digit (a.toNat / 4), digit (a.toNat % 4 * 16)], 2, rfl, by omega, ?_, by simp⟩
    intro c hc
    simp only [List.mem_cons, List.not_mem_nil, or_false] at hc
    rcases hc with rfl | rfl
    . exact isDigit_digit _ (by omega)
    . exact isDigit_digit _ (by omega)
  | case3 a b =>
    have ha := a.toNat_lt
    have hb := b.toNat_lt
    refine ⟨[digit (a.toNat / 4), digit (a.toNat % 4 * 16 + b.toNat / 16), digit (b.toNat % 16 * 4)], 1,
      rfl, by omega, ?_, by simp⟩
    intro c hc
    simp only [List.mem_cons, List.not_mem_nil, or_false] at hc
    rcases hc with rfl | rfl | rfl
    . exact isDigit_digit _ (by omega)
    . exact isDigit_digit _ (by omega)
    . exact isDigit_digit _ (by omega)
  | case4 a b c bytes ih =>
    have ha := a.toNat_lt
    have hb := b.toNat_lt
    have hc := c.toNat_lt
    have ⟨digits, padding, hencode, hpadding, hdigits, _⟩ := ih
    refine ⟨digit (a.toNat / 4) :: digit (a.toNat % 4 * 16 + b.toNat / 16) ::
      digit (b.toNat % 16 * 4 + c.toNat / 64) :: digit (c.toNat % 64) :: digits, padding, ?_, hpadding, ?_,
      by simp⟩
    . rw [encode, hencode]
      rfl
    . intro d hd
      simp only [List.mem_cons] at hd
      rcases hd with rfl | rfl | rfl | rfl | hd
      . exact isDigit_digit _ (by omega)
      . exact isDigit_digit _ (by omega)
      . exact isDigit_digit _ (by omega)
      . exact isDigit_digit _ (by omega)
      . exact hdigits d hd

end Base64
