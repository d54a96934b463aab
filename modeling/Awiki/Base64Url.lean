import Mathlib.Data.List.Basic
import Mathlib.Tactic

/-!
# The URL-safe alphabet without padding

Three bytes are four symbols of six bits; a rest of one or two bytes is two or three symbols
whose unused bits are zero.  Texts are encoded by their UTF-8 bytes.
-/

namespace Awiki
namespace Base64Url

def alphabet : List Char :=
  "ABCDEFGHIJKLMNOPQRSTUVWXYZabcdefghijklmnopqrstuvwxyz0123456789-_".toList

def symbol (n : Nat) : Char :=
  alphabet.getD n 'A'

def value (c : Char) : Option Nat :=
  alphabet.idxOf? c

theorem value_symbol {n : Nat} (h : n < 64) : value (symbol n) = some n := by
  have hall : ∀ n < 64, value (symbol n) = some n := by
    decide +kernel
  exact hall n h

theorem symbol_mem (n : Nat) : symbol n ∈ alphabet := by
  unfold symbol
  rw [List.getD_eq_getElem?_getD]
  cases h : alphabet[n]? with
  | none => decide +kernel
  | some c => exact List.mem_of_getElem? h

def block₁ (a : UInt8) : Nat :=
  a.toNat * 16

def block₂ (a b : UInt8) : Nat :=
  a.toNat * 1024 + b.toNat * 4

def block₃ (a b c : UInt8) : Nat :=
  a.toNat * 65536 + b.toNat * 256 + c.toNat

def encodeBytes : List UInt8 → List Char
  | [] => []
  | [a] => [symbol (block₁ a / 64), symbol (block₁ a % 64)]
  | [a, b] =>
    [symbol (block₂ a b / 4096), symbol (block₂ a b / 64 % 64), symbol (block₂ a b % 64)]
  | a :: b :: c :: rest =>
    symbol (block₃ a b c / 262144) :: symbol (block₃ a b c / 4096 % 64) ::
      symbol (block₃ a b c / 64 % 64) :: symbol (block₃ a b c % 64) :: encodeBytes rest

def decodeBytes : List Char → Option (List UInt8)
  | [] => some []
  | [_] => none
  | [p, q] => do
      let n := (← value p) * 64 + (← value q)
      guard (n % 16 = 0)
      return [.ofNat (n / 16)]
  | [p, q, r] => do
      let n := (← value p) * 4096 + (← value q) * 64 + (← value r)
      guard (n % 4 = 0)
      return [.ofNat (n / 1024), .ofNat (n / 4)]
  | p :: q :: r :: s :: rest => do
      let n := (← value p) * 262144 + (← value q) * 4096 + (← value r) * 64 + (← value s)
      return .ofNat (n / 65536) :: .ofNat (n / 256) :: .ofNat n :: (← decodeBytes rest)

theorem ofNat_eq {a : UInt8} {n : Nat} (h : n % 256 = a.toNat) : UInt8.ofNat n = a := by
  apply UInt8.toNat.inj
  rw [UInt8.toNat_ofNat']
  exact h

theorem digits₃ (n : Nat) : n / 4096 * 4096 + n / 64 % 64 * 64 + n % 64 = n := by
  omega

theorem digits₄ (n : Nat) :
    n / 262144 * 262144 + n / 4096 % 64 * 4096 + n / 64 % 64 * 64 + n % 64 = n := by
  omega

theorem decodeBytes_encodeBytes (bytes : List UInt8) :
    decodeBytes (encodeBytes bytes) = some bytes := by
  fun_induction encodeBytes bytes with
  | case1 => rfl
  | case2 a =>
    generalize hn : block₁ a = n
    unfold block₁ at hn
    have ha := a.toNat_lt
    have hsum : n / 64 * 64 + n % 64 = n := by omega
    have hzero : n % 16 = 0 := by omega
    have hfirst : UInt8.ofNat (n / 16) = a := ofNat_eq (by omega)
    simp only [decodeBytes, value_symbol (show n / 64 < 64 by omega),
      value_symbol (show n % 64 < 64 by omega), Option.bind_eq_bind, Option.bind_some]
    simp [hsum, hzero, hfirst]
  | case3 a b =>
    generalize hn : block₂ a b = n
    unfold block₂ at hn
    have ha := a.toNat_lt
    have hb := b.toNat_lt
    have hzero : n % 4 = 0 := by omega
    have hfirst : UInt8.ofNat (n / 1024) = a := ofNat_eq (by omega)
    have hsecond : UInt8.ofNat (n / 4) = b := ofNat_eq (by omega)
    simp only [decodeBytes, value_symbol (show n / 4096 < 64 by omega),
      value_symbol (show n / 64 % 64 < 64 by omega),
      value_symbol (show n % 64 < 64 by omega), Option.bind_eq_bind, Option.bind_some]
    simp [digits₃, hzero, hfirst, hsecond]
  | case4 a b c rest ih =>
    generalize hn : block₃ a b c = n
    unfold block₃ at hn
    have ha := a.toNat_lt
    have hb := b.toNat_lt
    have hc := c.toNat_lt
    have hfirst : UInt8.ofNat (n / 65536) = a := ofNat_eq (by omega)
    have hsecond : UInt8.ofNat (n / 256) = b := ofNat_eq (by omega)
    have hthird : UInt8.ofNat n = c := ofNat_eq (by omega)
    simp only [decodeBytes, value_symbol (show n / 262144 < 64 by omega),
      value_symbol (show n / 4096 % 64 < 64 by omega),
      value_symbol (show n / 64 % 64 < 64 by omega),
      value_symbol (show n % 64 < 64 by omega), Option.bind_eq_bind, Option.bind_some, ih]
    simp [digits₄, hfirst, hsecond, hthird]

theorem mem_encodeBytes {bytes : List UInt8} {c : Char} (h : c ∈ encodeBytes bytes) :
    c ∈ alphabet := by
  fun_induction encodeBytes bytes with
  | case1 => cases h
  | case2 a =>
    simp only [List.mem_cons, List.not_mem_nil, or_false] at h
    rcases h with rfl | rfl <;> exact symbol_mem _
  | case3 a b =>
    simp only [List.mem_cons, List.not_mem_nil, or_false] at h
    rcases h with rfl | rfl | rfl <;> exact symbol_mem _
  | case4 a b c' rest ih =>
    simp only [List.mem_cons] at h
    rcases h with rfl | rfl | rfl | rfl | h
    · exact symbol_mem _
    · exact symbol_mem _
    · exact symbol_mem _
    · exact symbol_mem _
    · exact ih h

/-! ## Texts -/

def encode (text : String) : String :=
  String.ofList (encodeBytes text.toByteArray.data.toList)

def decode (text : String) : Option String :=
  (decodeBytes text.toList).bind fun bytes => String.fromUTF8? ⟨bytes.toArray⟩

theorem decode_encode (text : String) : decode (encode text) = some text := by
  unfold decode encode
  rw [String.toList_ofList, decodeBytes_encodeBytes, Option.bind_some]
  have hvalid := text.isValidUTF8
  simp [String.fromUTF8?, String.fromUTF8, hvalid]

theorem mem_encode {text : String} {c : Char} (h : c ∈ (encode text).toList) : c ∈ alphabet := by
  rw [encode, String.toList_ofList] at h
  exact mem_encodeBytes h

theorem encode_ne_empty {text : String} (h : text ≠ "") : encode text ≠ "" := by
  intro hempty
  apply h
  have hdecoded := decode_encode text
  rw [hempty] at hdecoded
  have hnil : decode "" = some "" := by
    decide +kernel
  exact Option.some.inj (hdecoded.symm.trans hnil)

end Base64Url
end Awiki
