import Awiki.InboxClaims
import Mathlib.Data.Nat.Digits.Lemmas

/-!
# Arithmetic on decimal strings

Positions and binding generations are numbers kept as text.  Comparing, subtracting
a small amount, and stepping a generation up or down work digit by digit, from the
right.  Each loop is followed on the reversed digits, where a carry or a borrow is a
step of the recursion, and what it leaves is read as a number.
-/

namespace Awiki

/-! ## Binding generations -/

/-- `MAX_BINDING_GENERATION_DIGITS`. -/
def maxBindingGenerationDigits : Nat := 255

def canonicalGeneration (value : String) : Bool :=
  !value.isEmpty && decide (value.utf8ByteSize ≤ maxBindingGenerationDigits) &&
    value.toList.all Char.isDigit && value.toList.head? != some '0'

/-- The loop of `increment_canonical_generation`, the last digit first.  The flag is
set when the loop ends without returning. -/
def incrementDigits : List Char → List Char × Bool
  | [] => ([], true)
  | digit :: digits =>
    if digit = '9' then
      let rest := incrementDigits digits
      ('0' :: rest.1, rest.2)
    else
      (Char.ofNat (digit.toNat + 1) :: digits, false)

def incrementCanonicalGeneration (value : String) : Option String :=
  if canonicalGeneration value then
    let bytes := incrementDigits value.toList.reverse
    if bytes.2 then
      let next := '1' :: bytes.1.reverse
      if next.length ≤ maxBindingGenerationDigits then some (String.ofList next) else none
    else
      some (String.ofList bytes.1.reverse)
  else
    none

/-- The loop of `previous_canonical_generation`, the last digit first. -/
def decrementDigits : List Char → List Char
  | [] => []
  | digit :: digits =>
    if digit = '0' then '9' :: decrementDigits digits
    else Char.ofNat (digit.toNat - 1) :: digits

def previousCanonicalGeneration (value : String) : Option String :=
  if canonicalGeneration value = false ∨ value = "1" then
    none
  else
    let bytes := (decrementDigits value.toList.reverse).reverse
    some (String.ofList (if bytes.head? = some '0' then bytes.tail else bytes))

namespace Decimal

/-! ## Order -/

variable {s t : String} {c : Char} {cs : List Char}

theorem order_eq_compare (hs : isCanonical s = true) (ht : isCanonical t = true) :
    order s t = compare (value s) (value t) := by
  cases h : order s t with
  | lt => exact (Nat.compare_eq_lt.mpr ((order_lt_iff hs ht).mp h)).symm
  | eq =>
    obtain rfl := order_eq_iff.mp h
    exact (Nat.compare_eq_eq.mpr rfl).symm
  | gt =>
    have hswap : order t s = .lt := by rw [order_swap, h, Ordering.swap_gt]
    exact (Nat.compare_eq_gt.mpr ((order_lt_iff ht hs).mp hswap)).symm

/-- The order by `LENGTH` and text, where `LENGTH` counts characters. -/
theorem length_then_text (hs : isCanonical s = true) (ht : isCanonical t = true) :
    (compare s.length t.length).then (compare s t) = compare (value s) (value t) := by
  rw [← order_eq_compare hs ht, order, utf8ByteSize_of_isCanonical hs,
    utf8ByteSize_of_isCanonical ht, String.length_toList, String.length_toList]

/-! ## Numbers read from the right -/

theorem ofDigits_concat (cs : List Char) (c : Char) :
    ofDigits (cs ++ [c]) = 10 * ofDigits cs + digit c := by
  simp [ofDigits]

theorem ofDigits_eq (cs : List Char) :
    ofDigits cs = Nat.ofDigits 10 (cs.reverse.map digit) := by
  induction cs using List.reverseRecOn with
  | nil => rfl
  | append_singleton cs c ih =>
    rw [ofDigits_concat, ih, List.reverse_concat, List.map_cons, Nat.ofDigits_cons]
    omega

/-- A number that needs all of its digits has no leading zero. -/
theorem head_ne_zero (hcs : cs.all Char.isDigit = true)
    (h : 10 ^ cs.length ≤ ofDigits (c :: cs)) : c ≠ '0' := by
  rintro rfl
  have hlt := ofDigits_lt hcs
  rw [ofDigits_cons, show digit '0' = 0 from rfl] at h
  omega

theorem digit_ofNat {n : Nat} (hn : n < 10) :
    (Char.ofNat (48 + n)).isDigit = true ∧ digit (Char.ofNat (48 + n)) = n := by
  revert n
  decide

theorem toNat_eq (h : c.isDigit = true) : c.toNat = 48 + digit c := by
  have h0 := zero_le_digit h
  have : '0'.toNat = 48 := rfl
  unfold digit
  omega

theorem eq_of_digit_eq {d : Char} (hc : c.isDigit = true) (hd : d.isDigit = true)
    (h : digit c = digit d) : c = d := by
  apply Char.toNat_inj.mp
  rw [toNat_eq hc, toNat_eq hd, h]

/-! ## Successor and predecessor of a row of digits -/

theorem incrementDigits_spec (h : cs.all Char.isDigit = true) :
    (incrementDigits cs).1.length = cs.length ∧
      (incrementDigits cs).1.all Char.isDigit = true ∧
      ofDigits (incrementDigits cs).1.reverse +
          (if (incrementDigits cs).2 then 10 ^ cs.length else 0) =
        ofDigits cs.reverse + 1 := by
  induction cs with
  | nil => simp [incrementDigits, ofDigits]
  | cons d ds ih =>
    simp only [List.all_cons, Bool.and_eq_true] at h
    obtain ⟨hlength, hdigits, hvalue⟩ := ih h.2
    rw [incrementDigits, List.reverse_cons, ofDigits_concat]
    by_cases hnine : d = '9'
    -- The nine becomes a zero and the rest of the row takes the carry.
    · subst hnine
      refine ⟨by simp [hlength], by simpa using hdigits, ?_⟩
      simp only [if_true, List.reverse_cons, ofDigits_concat, List.length_cons, pow_succ,
        show digit '0' = 0 from rfl, show digit '9' = 9 from rfl]
      split_ifs at hvalue ⊢ <;> omega
    · rw [if_neg hnine]
      have hne : digit d ≠ 9 := fun h9 => hnine (eq_of_digit_eq h.1 rfl h9)
      have hlt := digit_lt h.1
      have hnext : Char.ofNat (d.toNat + 1) = Char.ofNat (48 + (digit d + 1)) := by
        rw [toNat_eq h.1, Nat.add_assoc]
      obtain ⟨hdigit, hone⟩ := digit_ofNat (n := digit d + 1) (by omega)
      rw [hnext]
      refine ⟨rfl, by simp [hdigit, h.2], ?_⟩
      simp only [List.reverse_cons, ofDigits_concat, hone, Bool.false_eq_true, if_false]
      omega

theorem decrementDigits_spec (h : cs.all Char.isDigit = true) (hpos : 0 < ofDigits cs.reverse) :
    (decrementDigits cs).length = cs.length ∧
      (decrementDigits cs).all Char.isDigit = true ∧
      ofDigits (decrementDigits cs).reverse + 1 = ofDigits cs.reverse := by
  induction cs with
  | nil => simp [ofDigits] at hpos
  | cons d ds ih =>
    simp only [List.all_cons, Bool.and_eq_true] at h
    rw [List.reverse_cons, ofDigits_concat] at hpos ⊢
    rw [decrementDigits]
    split_ifs with hzero
    · subst hzero
      rw [show digit '0' = 0 from rfl] at hpos ⊢
      obtain ⟨hlength, hdigits, hvalue⟩ := ih h.2 (by omega)
      refine ⟨by simp [hlength], by simpa using hdigits, ?_⟩
      rw [List.reverse_cons, ofDigits_concat, show digit '9' = 9 from rfl]
      omega
    · have hdigitPos := digit_pos h.1 hzero
      have hlt := digit_lt h.1
      have hprevious : Char.ofNat (d.toNat - 1) = Char.ofNat (48 + (digit d - 1)) := by
        rw [toNat_eq h.1, Nat.add_sub_assoc hdigitPos]
      obtain ⟨hdigit, hone⟩ := digit_ofNat (n := digit d - 1) (by omega)
      rw [hprevious]
      refine ⟨rfl, by simp [hdigit, h.2], ?_⟩
      rw [List.reverse_cons, ofDigits_concat, hone]
      omega

/-! ## Generations -/

/-- A canonical generation is a row of at most 255 digits whose number needs them all. -/
theorem canonicalGeneration_iff : canonicalGeneration s = true ↔
    s.toList.all Char.isDigit = true ∧ ∃ n < maxBindingGenerationDigits,
      s.toList.length = n + 1 ∧ 10 ^ n ≤ value s := by
  have hempty : s.isEmpty = s.toList.isEmpty := by
    rw [Bool.eq_iff_iff, String.isEmpty_iff, List.isEmpty_iff, String.toList_eq_nil_iff]
  simp only [canonicalGeneration, Bool.and_eq_true, decide_eq_true_eq, hempty]
  have hsize : s.toList.all Char.isDigit = true → s.utf8ByteSize = s.toList.length :=
    utf8ByteSize_of_digits
  unfold value
  cases hcs : s.toList with
  | nil => simp
  | cons c cs =>
    rw [hcs] at hsize
    constructor
    · rintro ⟨⟨⟨-, hlength⟩, hdigits⟩, hhead⟩
      rw [hsize hdigits, List.length_cons] at hlength
      simp only [List.all_cons, Bool.and_eq_true] at hdigits
      exact ⟨by simpa using hdigits, cs.length, by omega, rfl,
        pow_le_ofDigits hdigits.1 (by simpa using hhead)⟩
    · rintro ⟨hdigits, n, hn, hlength, hvalue⟩
      obtain rfl : cs.length = n := by simpa using hlength
      rw [hsize hdigits, List.length_cons]
      simp only [List.all_cons, Bool.and_eq_true] at hdigits
      refine ⟨⟨⟨rfl, by omega⟩, by simpa using hdigits⟩, ?_⟩
      simpa using head_ne_zero (by simpa using hdigits.2) hvalue

theorem canonicalGeneration_ofList {n : Nat} (hn : n < maxBindingGenerationDigits)
    (hdigits : cs.all Char.isDigit = true) (hlength : cs.length = n + 1)
    (hvalue : 10 ^ n ≤ ofDigits cs) : canonicalGeneration (String.ofList cs) = true := by
  rw [canonicalGeneration_iff, value, String.toList_ofList]
  exact ⟨hdigits, n, hn, hlength, hvalue⟩

theorem increment_canonicalGeneration (h : canonicalGeneration s = true) :
    (incrementCanonicalGeneration s = none ↔
        maxBindingGenerationDigits < (Nat.digits 10 (value s + 1)).length) ∧
      ∀ next ∈ incrementCanonicalGeneration s,
        canonicalGeneration next = true ∧ value next = value s + 1 := by
  obtain ⟨hdigits, n, hn, hlength, hvalue⟩ := canonicalGeneration_iff.mp h
  have hlt : value s < 10 ^ (n + 1) := hlength ▸ ofDigits_lt hdigits
  obtain ⟨hlen, hall, hnext⟩ :=
    incrementDigits_spec (by simpa using hdigits : s.toList.reverse.all Char.isDigit = true)
  rw [List.reverse_reverse, List.length_reverse, hlength] at hnext
  rw [List.length_reverse, hlength] at hlen
  change _ = value s + 1 at hnext
  rw [← not_le, Nat.digits_length_le_iff (by decide), not_lt, incrementCanonicalGeneration,
    if_pos h]
  generalize incrementDigits s.toList.reverse = bytes at hlen hall hnext ⊢
  obtain ⟨row, carry⟩ := bytes
  have hrow : row.reverse.all Char.isDigit = true := by simpa using hall
  have hrowLength : row.reverse.length = n + 1 := by simpa using hlen
  have hrowLt := ofDigits_lt hrow
  rw [hrowLength] at hrowLt
  have hcap : 10 ^ (n + 1) ≤ 10 ^ maxBindingGenerationDigits :=
    Nat.pow_le_pow_right (by decide) hn
  cases carry with
  | false =>
    simp only [Bool.false_eq_true, if_false, Nat.add_zero] at hnext ⊢
    refine ⟨⟨nofun, fun hbig => by omega⟩, ?_⟩
    rintro _ ⟨⟩
    refine ⟨canonicalGeneration_ofList hn hrow hrowLength (by omega), ?_⟩
    rw [value, String.toList_ofList, hnext]
  | true =>
    -- Every digit was a nine: the successor is the next power of ten.
    simp only [if_true] at hnext ⊢
    have hone : ofDigits ('1' :: row.reverse) = value s + 1 := by
      rw [ofDigits_cons, hrowLength, show digit '1' = 1 from rfl]
      omega
    rw [List.length_cons, hrowLength]
    by_cases hfits : n + 1 + 1 ≤ maxBindingGenerationDigits
    · rw [if_pos hfits]
      have hroom : 10 ^ (n + 1) < 10 ^ maxBindingGenerationDigits :=
        Nat.pow_lt_pow_right (by decide) hfits
      refine ⟨⟨nofun, fun hbig => by omega⟩, ?_⟩
      rintro _ ⟨⟩
      refine ⟨canonicalGeneration_ofList (n := n + 1) hfits (by simpa using hrow)
        (by rw [List.length_cons, hrowLength]) (by omega), ?_⟩
      rw [value, String.toList_ofList, hone]
    · rw [if_neg hfits]
      have hfull : n + 1 = maxBindingGenerationDigits := by omega
      exact ⟨⟨fun _ => by rw [← hfull]; omega, fun _ => rfl⟩, nofun⟩

theorem eq_one_of_value (hdigits : s.toList.all Char.isDigit = true)
    (hlength : s.toList.length = 1) (hvalue : value s = 1) : s = "1" := by
  obtain ⟨c, hc⟩ := List.length_eq_one_iff.mp hlength
  rw [value, hc] at hvalue
  rw [hc] at hdigits
  have hdigit : digit c = 1 := by simpa [ofDigits] using hvalue
  obtain rfl : c = '1' := eq_of_digit_eq (by simpa using hdigits) rfl hdigit
  exact String.toList_injective hc

theorem previous_canonicalGeneration (h : canonicalGeneration s = true) :
    (previousCanonicalGeneration s = none ↔ s = "1") ∧
      ∀ previous ∈ previousCanonicalGeneration s,
        canonicalGeneration previous = true ∧ value previous + 1 = value s := by
  unfold previousCanonicalGeneration
  by_cases hs : s = "1"
  · simp [hs]
  obtain ⟨hdigits, n, hn, hlength, hvalue⟩ := canonicalGeneration_iff.mp h
  have hpos : 0 < 10 ^ n := Nat.pow_pos (by decide)
  obtain ⟨hlen, hall, hprevious⟩ := decrementDigits_spec
    (by simpa using hdigits : s.toList.reverse.all Char.isDigit = true) (by rw [List.reverse_reverse]; exact hpos.trans_le hvalue)
  rw [List.reverse_reverse] at hprevious
  change _ = value s at hprevious
  rw [if_neg (by simp [h, hs])]
  have hrowLength : (decrementDigits s.toList.reverse).reverse.length = n + 1 := by
    simpa [hlength] using hlen
  rw [← List.all_reverse] at hall
  generalize (decrementDigits s.toList.reverse).reverse = row at hrowLength hall hprevious ⊢
  refine ⟨by simp [hs], ?_⟩
  rintro _ ⟨⟩
  obtain ⟨c, cs, rfl⟩ := List.exists_cons_of_length_eq_add_one hrowLength
  obtain rfl : cs.length = n := by simpa using hrowLength
  simp only [List.head?_cons, Option.some.injEq, List.tail_cons]
  split_ifs with hzero
  · -- A leading zero is left behind by a power of ten only.
    subst hzero
    rw [List.all_cons, Bool.and_eq_true] at hall
    rw [ofDigits_cons, show digit '0' = 0 from rfl, Nat.zero_mul, Nat.zero_add] at hprevious
    cases cs with
    | nil => exact absurd (eq_one_of_value hdigits hlength hprevious.symm) hs
    | cons d ds =>
      rw [List.length_cons, pow_succ] at hvalue
      rw [List.length_cons] at hn
      have hpow : 0 < 10 ^ ds.length := Nat.pow_pos (by decide)
      refine ⟨canonicalGeneration_ofList (n := ds.length) (by omega) hall.2 rfl (by omega), ?_⟩
      rw [value, String.toList_ofList, hprevious]
  · refine ⟨canonicalGeneration_ofList hn hall hrowLength ?_, ?_⟩
    · rw [List.all_cons, Bool.and_eq_true] at hall
      exact pow_le_ofDigits hall.1 hzero
    · rw [value, String.toList_ofList, hprevious]

/-! ## Subtraction -/

open LocalState

theorem subtractDigits_spec {digits amount : List Nat} {borrow : Nat}
    (hdigits : ∀ d ∈ digits, d < 10) (hamount : ∀ d ∈ amount, d < 10) (hborrow : borrow ≤ 1)
    (hle : Nat.ofDigits 10 amount + borrow ≤ Nat.ofDigits 10 digits) :
    (∀ d ∈ subtractDigits digits amount borrow, d < 10) ∧
      Nat.ofDigits 10 (subtractDigits digits amount borrow) + Nat.ofDigits 10 amount + borrow =
        Nat.ofDigits 10 digits := by
  induction digits generalizing amount borrow with
  | nil =>
    rw [Nat.ofDigits_nil] at hle
    simp only [subtractDigits, List.not_mem_nil, false_implies, implies_true, Nat.ofDigits_nil,
      true_and]
    omega
  | cons d digits ih =>
    have hsplit : Nat.ofDigits 10 amount = amount.headD 0 + 10 * Nat.ofDigits 10 amount.tail := by
      cases amount with
      | nil => rfl
      | cons a rest => exact Nat.ofDigits_cons
    have hhead : amount.headD 0 < 10 := by
      cases amount with
      | nil => decide
      | cons a rest => exact hamount a (by simp)
    have hd := hdigits d (by simp)
    rw [Nat.ofDigits_cons, hsplit] at hle
    rw [subtractDigits, hsplit, Nat.ofDigits_cons]
    have hrest : ∀ next ≤ 1,
        Nat.ofDigits 10 amount.tail + next ≤ Nat.ofDigits 10 digits → _ :=
      fun _ => ih (fun e he => hdigits e (List.mem_cons_of_mem _ he))
        (fun e he => hamount e (List.mem_of_mem_tail he))
    by_cases hlt : d < amount.headD 0 + borrow
    · simp only [if_pos hlt]
      obtain ⟨hsmall, hvalue⟩ := hrest 1 le_rfl (by omega)
      refine ⟨List.forall_mem_cons.mpr ⟨by omega, hsmall⟩, ?_⟩
      rw [Nat.ofDigits_cons]
      omega
    · simp only [if_neg hlt]
      obtain ⟨hsmall, hvalue⟩ := hrest 0 (by omega) (by omega)
      refine ⟨List.forall_mem_cons.mpr ⟨by omega, hsmall⟩, ?_⟩
      rw [Nat.ofDigits_cons]
      omega

theorem ofDigits_dropWhile (digits : List Nat) :
    Nat.ofDigits 10 (digits.dropWhile (· == 0)).reverse = Nat.ofDigits 10 digits.reverse := by
  induction digits with
  | nil => rfl
  | cons d digits ih =>
    by_cases hd : d = 0
    · subst hd
      simp [ih, Nat.ofDigits_append]
    · simp [hd]

theorem toList_join_digits {digits : List Nat} (h : ∀ d ∈ digits, d < 10) :
    (String.join (digits.map toString)).toList = digits.map fun d => Char.ofNat (48 + d) := by
  have hone : ∀ d < 10, (toString d).toList = [Char.ofNat (48 + d)] := by decide
  rw [String.toList_join]
  induction digits with
  | nil => rfl
  | cons d digits ih =>
    rw [List.map_cons, List.flatMap_cons, hone d (h d (by simp)),
      ih fun e he => h e (List.mem_cons_of_mem _ he)]
    rfl

theorem value_toString (n : Nat) : value (toString n) = n := by
  rw [value, Nat.toString_eq_ofList_toDigits, String.toList_ofList]
  exact Nat.ofDigitChars_toDigits (by decide) le_rfl

theorem digitsOf_lt (h : isCanonical s = true) :
    ∀ d ∈ s.toList.reverse.map digit, d < 10 := by
  intro d hd
  obtain ⟨c, hc, rfl⟩ := List.mem_map.mp hd
  exact digit_lt (List.all_eq_true.mp (isCanonical_digits h) c (List.mem_reverse.mp hc))

/-- The text of a row of digits that does not begin with a zero. -/
theorem join_digits {digits : List Nat} (hlt : ∀ d ∈ digits, d < 10) (hne : digits ≠ [])
    (hhead : ∀ d ∈ digits.head?, d ≠ 0) :
    isCanonical (String.join (digits.map toString)) = true ∧
      value (String.join (digits.map toString)) = Nat.ofDigits 10 digits.reverse := by
  have hdigit : ∀ d ∈ digits, _ := fun d hd => digit_ofNat (hlt d hd)
  constructor
  · obtain ⟨d, ds, rfl⟩ := List.exists_cons_of_ne_nil hne
    have hzero : Char.ofNat (48 + d) ≠ '0' := by
      intro heq
      have hd := (hdigit d (by simp)).2
      rw [heq] at hd
      exact hhead d rfl hd.symm
    have hall : ∀ e ∈ d :: ds, (Char.ofNat (48 + e)).isDigit = true := fun e he => (hdigit e he).1
    rw [isCanonical, toList_join_digits hlt]
    simpa [hzero] using hall
  · rw [value, toList_join_digits hlt, ofDigits_eq, ← List.map_reverse, List.map_map]
    congr 1
    refine (List.map_congr_left fun d hd => ?_).trans (List.map_id _)
    exact (hdigit d (List.mem_reverse.mp hd)).2

theorem subtractSmallDecimal_spec (hs : isCanonical s = true) (amount : Nat) :
    ∃ result, subtractSmallDecimal s amount = .ok result ∧
      (result = none ↔ value s ≤ amount) ∧
      ∀ rest ∈ result, isCanonical rest = true ∧ value rest = value s - amount := by
  have hamount := isCanonical_toString amount
  have horder : compareDecimal s (toString amount) = .ok (compare (value s) amount) :=
    compareDecimal_ok.mpr ⟨hs, hamount, by rw [order_eq_compare hs hamount, value_toString]⟩
  rw [subtractSmallDecimal, validateDecimal_ok.mpr hs, horder]
  by_cases hle : value s ≤ amount
  · refine ⟨none, if_pos ?_, by simp [hle], nofun⟩
    exact fun hgt => absurd (Nat.compare_eq_gt.mp hgt) (by omega)
  · have hgt : compare (value s) amount = .gt := Nat.compare_eq_gt.mpr (by omega)
    have hvalue : Nat.ofDigits 10 (s.toList.reverse.map digit) = value s := (ofDigits_eq _).symm
    have hsmall : Nat.ofDigits 10 ((toString amount).toList.reverse.map digit) = amount :=
      (ofDigits_eq _).symm.trans (value_toString amount)
    obtain ⟨hlt, hrest⟩ := subtractDigits_spec (digitsOf_lt hs) (digitsOf_lt hamount)
      (Nat.zero_le 1) (by rw [hvalue, hsmall]; omega)
    rw [hvalue, hsmall] at hrest
    generalize hrow : subtractDigits (s.toList.reverse.map digit)
      ((toString amount).toList.reverse.map digit) 0 = row at hlt hrest
    -- The difference is positive, so some digit of it is not zero.
    have hkept := ofDigits_dropWhile row.reverse
    rw [List.reverse_reverse] at hkept
    have hne : row.reverse.dropWhile (· == 0) ≠ [] := by
      intro hnil
      rw [hnil, List.reverse_nil, Nat.ofDigits_nil] at hkept
      omega
    obtain ⟨hcanonical, htext⟩ := join_digits
      (fun d hd => hlt d (List.mem_reverse.mp (List.dropWhile_subset _ hd))) hne
      (fun d hd => by
        have h := List.head?_dropWhile_not (· == 0) row.reverse
        rw [Option.mem_def.mp hd] at h
        simpa using h)
    refine ⟨some (String.join ((row.reverse.dropWhile (· == 0)).map toString)), ?_,
      by simp [hle], ?_⟩
    · simp only [hgt, ne_eq, not_true_eq_false, if_false, hrow, List.isEmpty_iff, hne,
        bind, Except.bind, pure, Except.pure]
    · rintro _ ⟨⟩
      exact ⟨hcanonical, by rw [htext, hkept]; omega⟩

/-! ## Decimal text implements the naturals -/

theorem decimal_text_implements_nat {g : String} (field : String) (amount : Nat)
    (hs : validateDecimal field s = .ok ()) (ht : validateDecimal field t = .ok ())
    (hg : canonicalGeneration g = true) :
    (compareDecimal s t = .ok (compare (value s) (value t)) ∧
      order s t = compare (value s) (value t) ∧
      (compare s.length t.length).then (compare s t) = compare (value s) (value t)) ∧
    (∃ result, subtractSmallDecimal s amount = .ok result ∧
      (result = none ↔ value s ≤ amount) ∧
      ∀ rest ∈ result, isCanonical rest = true ∧ value rest = value s - amount) ∧
    ((incrementCanonicalGeneration g = none ↔
        maxBindingGenerationDigits < (Nat.digits 10 (value g + 1)).length) ∧
      ∀ next ∈ incrementCanonicalGeneration g,
        canonicalGeneration next = true ∧ value next = value g + 1) ∧
    ((previousCanonicalGeneration g = none ↔ g = "1") ∧
      ∀ previous ∈ previousCanonicalGeneration g,
        canonicalGeneration previous = true ∧ value previous + 1 = value g) := by
  rw [validateDecimal_ok] at hs ht
  have horder := order_eq_compare hs ht
  exact ⟨⟨compareDecimal_ok.mpr ⟨hs, ht, horder⟩, horder, length_then_text hs ht⟩,
    subtractSmallDecimal_spec hs amount, increment_canonicalGeneration hg,
    previous_canonicalGeneration hg⟩

theorem thousand_less_one :
    ∃ result, subtractSmallDecimal "1000" 1 = .ok result ∧ (result = none ↔ value "1000" ≤ 1) ∧
      ∀ rest ∈ result, isCanonical rest = true ∧ value rest = value "1000" - 1 :=
  (decimal_text_implements_nat (s := "1000") (t := "999") (g := "99") "decimal" 1
    (validateDecimal_ok.mpr (by decide)) (validateDecimal_ok.mpr (by decide)) (by decide)).2.1

end Decimal
end Awiki
