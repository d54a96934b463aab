import Mathlib.Data.List.TakeWhile
import Mathlib.Data.String.Basic
import Mathlib.Order.Compare
import Mathlib.Tactic.Ring

/-!
# Trimmed text and canonical decimal strings

Rust's `str::trim` removes Unicode white space, which is more than the ASCII
blanks of Lean's own trimming.  A canonical decimal string is a non-empty string
of ASCII digits without a leading zero.  Comparing two of them by length and then
by text is comparing the numbers they denote.
-/

namespace Awiki
namespace Text

/-- The code points with the Unicode property `White_Space`. -/
def isWhiteSpace (c : Char) : Bool :=
  (9 ≤ c.toNat && c.toNat ≤ 13) || c.toNat == 0x20 || c.toNat == 0x85 || c.toNat == 0xA0 ||
    c.toNat == 0x1680 || (0x2000 ≤ c.toNat && c.toNat ≤ 0x200A) || c.toNat == 0x2028 ||
    c.toNat == 0x2029 || c.toNat == 0x202F || c.toNat == 0x205F || c.toNat == 0x3000

def trim (s : String) : String :=
  String.ofList
    ((s.toList.dropWhile isWhiteSpace).reverse.dropWhile isWhiteSpace).reverse

/-- `s.trim().is_empty()`. -/
def isBlank (s : String) : Bool :=
  s.toList.all isWhiteSpace

/-- `str::starts_with` for a text pattern. -/
def startsWith (s start : String) : Bool :=
  start.toList.isPrefixOf s.toList

/-- `str::contains` for a text pattern. -/
def containsText (s part : String) : Bool :=
  s.toList.tails.any fun rest => part.toList.isPrefixOf rest

def toAsciiLowercase (s : String) : String :=
  String.ofList (s.toList.map Char.toLower)

/-- What is left of a text after `start`, if it begins so. -/
def afterStart (start s : String) : Option String :=
  if startsWith s start then some (String.ofList (s.toList.drop start.toList.length)) else none

private theorem dropWhile_eq_self {p : Char → Bool} {cs : List Char}
    (h : ∀ c ∈ cs.head?, p c = false) : cs.dropWhile p = cs := by
  cases cs with
  | nil => rfl
  | cons c cs => simp [h c rfl]

variable {s : String}

theorem trim_eq_self (hhead : ∀ c ∈ s.toList.head?, isWhiteSpace c = false)
    (hlast : ∀ c ∈ s.toList.getLast?, isWhiteSpace c = false) : trim s = s := by
  unfold trim
  rw [dropWhile_eq_self hhead, dropWhile_eq_self (by simpa using hlast)]
  simp

private theorem head?_dropWhile {p : Char → Bool} (cs : List Char) :
    ∀ c ∈ (cs.dropWhile p).head?, p c = false := by
  intro c hc
  have h := List.head?_dropWhile_not p cs
  rw [Option.mem_def.mp hc] at h
  simpa using h

theorem head?_trim (s : String) : ∀ c ∈ (trim s).toList.head?, isWhiteSpace c = false := by
  intro c hc
  simp only [trim, String.toList_ofList, List.head?_reverse] at hc
  -- The last character that is left of the reversed text is the first one of the text.
  generalize hcs : s.toList.dropWhile isWhiteSpace = cs at hc
  have hhead := head?_dropWhile (p := isWhiteSpace) s.toList
  rw [hcs] at hhead
  obtain ⟨dropped, hdropped⟩ := List.dropWhile_suffix isWhiteSpace (l := cs.reverse)
  have hlast : cs.reverse.getLast? = some c := by
    rw [← hdropped, List.getLast?_append, Option.mem_def.mp hc]
    rfl
  exact hhead c (by simpa using hlast)

theorem getLast?_trim (s : String) :
    ∀ c ∈ (trim s).toList.getLast?, isWhiteSpace c = false := by
  intro c hc
  simp only [trim, String.toList_ofList, List.getLast?_reverse] at hc
  exact head?_dropWhile _ c hc

@[simp] theorem trim_trim (s : String) : trim (trim s) = trim s :=
  trim_eq_self (head?_trim s) (getLast?_trim s)

/-- Nothing is trimmed off a text in front of a trimmed one that is not empty. -/
theorem trim_append {start : String} (hs : trim s = s) (hne : s ≠ "")
    (hstart : start.toList.head?.any (fun c => !isWhiteSpace c) = true) :
    trim (start ++ s) = start ++ s := by
  have hnil : s.toList ≠ [] := by
    intro h
    exact hne (String.toList_injective (by simpa using h))
  apply trim_eq_self
  · intro c hc
    cases hhead : start.toList with
    | nil => simp [hhead] at hstart
    | cons d ds =>
      rw [String.toList_append, hhead] at hc
      simp only [List.cons_append, List.head?_cons, Option.mem_def, Option.some.injEq] at hc
      simpa [hhead, hc] using hstart
  · intro c hc
    rw [String.toList_append, List.getLast?_append_of_ne_nil _ hnil] at hc
    have hlast := getLast?_trim s
    rw [hs] at hlast
    exact hlast c hc

theorem isBlank_iff : isBlank s = true ↔ trim s = "" := by
  have htrim : trim s = "" ↔
      (s.toList.dropWhile isWhiteSpace).reverse.dropWhile isWhiteSpace = [] := by
    unfold trim
    rw [← String.toList_inj]
    simp
  rw [htrim, List.dropWhile_eq_nil_iff]
  constructor
  · intro h
    have hnil : s.toList.dropWhile isWhiteSpace = [] :=
      List.dropWhile_eq_nil_iff.mpr (by simpa [isBlank] using h)
    simp [hnil]
  · intro h
    cases hcs : s.toList.dropWhile isWhiteSpace with
    | nil => simpa [isBlank] using List.dropWhile_eq_nil_iff.mp hcs
    | cons c cs =>
      have hhead := head?_dropWhile (p := isWhiteSpace) s.toList c (by simp [hcs])
      have hc := h c (by simp [hcs])
      simp [hc] at hhead

@[simp] theorem isBlank_trim (s : String) : isBlank (trim s) = isBlank s := by
  rw [Bool.eq_iff_iff, isBlank_iff, isBlank_iff, trim_trim]

end Text

namespace Decimal

def isCanonical (s : String) : Bool :=
  match s.toList with
  | [] => false
  | c :: cs => (c :: cs).all Char.isDigit && (cs.isEmpty || c != '0')

def order (left right : String) : Ordering :=
  (compare left.utf8ByteSize right.utf8ByteSize).then (compare left right)

def digit (c : Char) : Nat := c.toNat - '0'.toNat

def ofDigits (cs : List Char) : Nat :=
  cs.foldl (fun n c => 10 * n + digit c) 0

def value (s : String) : Nat := ofDigits s.toList

/-! ## Digits -/

variable {c : Char} {cs : List Char} {s t : String}

theorem digit_lt (h : c.isDigit = true) : digit c < 10 := by
  have h9 : c.toNat ≤ '9'.toNat := by
    simp only [Char.isDigit, Bool.and_eq_true, decide_eq_true_eq] at h
    exact h.2
  have : '9'.toNat = 57 := rfl
  have : '0'.toNat = 48 := rfl
  unfold digit
  omega

theorem zero_le_digit (h : c.isDigit = true) : '0'.toNat ≤ c.toNat := by
  simp only [Char.isDigit, Bool.and_eq_true, decide_eq_true_eq] at h
  exact h.1

theorem digit_lt_digit {d : Char} (hc : c.isDigit = true) (hd : d.isDigit = true) :
    digit c < digit d ↔ c < d := by
  have h0c := zero_le_digit hc
  have h0d := zero_le_digit hd
  rw [Char.lt_def, UInt32.lt_iff_toNat_lt]
  show digit c < digit d ↔ c.toNat < d.toNat
  unfold digit
  omega

theorem digit_pos (h : c.isDigit = true) (h0 : c ≠ '0') : 0 < digit c := by
  have hle := zero_le_digit h
  have hne : c.toNat ≠ '0'.toNat := fun heq => h0 (Char.toNat_inj.mp heq)
  unfold digit
  omega

private theorem foldl_digits (cs : List Char) (n : Nat) :
    cs.foldl (fun n c => 10 * n + digit c) n = n * 10 ^ cs.length + ofDigits cs := by
  induction cs generalizing n with
  | nil => simp [ofDigits]
  | cons c cs ih =>
    unfold ofDigits
    simp only [List.foldl_cons, List.length_cons]
    rw [ih (10 * n + digit c), ih (10 * 0 + digit c)]
    ring

theorem ofDigits_cons (c : Char) (cs : List Char) :
    ofDigits (c :: cs) = digit c * 10 ^ cs.length + ofDigits cs := by
  have h := foldl_digits cs (digit c)
  simpa [ofDigits] using h

theorem ofDigits_lt (h : cs.all Char.isDigit = true) :
    ofDigits cs < 10 ^ cs.length := by
  induction cs with
  | nil => simp [ofDigits]
  | cons c cs ih =>
    simp only [List.all_cons, Bool.and_eq_true] at h
    have hc := digit_lt h.1
    have hcs := ih h.2
    rw [ofDigits_cons, List.length_cons, pow_succ]
    have hmul : digit c * 10 ^ cs.length ≤ 9 * 10 ^ cs.length :=
      Nat.mul_le_mul_right _ (by omega)
    omega

/-- With a non-zero leading digit the number is as long as its text. -/
theorem pow_le_ofDigits (hc : c.isDigit = true) (h0 : c ≠ '0') :
    10 ^ cs.length ≤ ofDigits (c :: cs) := by
  rw [ofDigits_cons]
  have hmul : 1 * 10 ^ cs.length ≤ digit c * 10 ^ cs.length :=
    Nat.mul_le_mul_right _ (digit_pos hc h0)
  omega

theorem ofDigits_lt_iff {ds : List Char} (hlen : cs.length = ds.length)
    (hcs : cs.all Char.isDigit = true) (hds : ds.all Char.isDigit = true) :
    ofDigits cs < ofDigits ds ↔ cs < ds := by
  induction cs generalizing ds with
  | nil =>
    obtain rfl : ds = [] := List.length_eq_zero_iff.mp hlen.symm
    simp [ofDigits]
  | cons c cs ih =>
    obtain ⟨d, ds, rfl⟩ : ∃ d ds', ds = d :: ds' := by
      cases ds with
      | nil => simp at hlen
      | cons d ds => exact ⟨d, ds, rfl⟩
    simp only [List.length_cons, Nat.add_right_cancel_iff] at hlen
    simp only [List.all_cons, Bool.and_eq_true] at hcs hds
    have hlow := ofDigits_lt hcs.2
    have hlow' := ofDigits_lt hds.2
    rw [hlen] at hlow
    rw [ofDigits_cons, ofDigits_cons, hlen, List.cons_lt_cons_iff]
    rcases lt_trichotomy (digit c) (digit d) with hlt | heq | hgt
    · -- a smaller leading digit outweighs the rest
      have hmul : (digit c + 1) * 10 ^ ds.length ≤ digit d * 10 ^ ds.length :=
        Nat.mul_le_mul_right _ hlt
      rw [Nat.add_mul] at hmul
      have hcd : c < d := (digit_lt_digit hcs.1 hds.1).mp hlt
      exact ⟨fun _ => .inl hcd, fun _ => by omega⟩
    · have hcd : c = d := by
        rcases lt_trichotomy c d with h | h | h
        · exact absurd ((digit_lt_digit hcs.1 hds.1).mpr h) (by omega)
        · exact h
        · exact absurd ((digit_lt_digit hds.1 hcs.1).mpr h) (by omega)
      rw [heq, Nat.add_lt_add_iff_left, ih hlen hcs.2 hds.2]
      simp [hcd]
    · have hmul : (digit d + 1) * 10 ^ ds.length ≤ digit c * 10 ^ ds.length :=
        Nat.mul_le_mul_right _ hgt
      rw [Nat.add_mul] at hmul
      have hdc : d < c := (digit_lt_digit hds.1 hcs.1).mp hgt
      constructor
      · intro h
        omega
      · rintro (h | ⟨h, -⟩)
        · exact absurd (h.trans hdc) (lt_irrefl c)
        · exact absurd hdc (by simp [h])

/-! ## Canonical decimal strings -/

theorem isCanonical_digits (h : isCanonical s = true) :
    s.toList.all Char.isDigit = true := by
  unfold isCanonical at h
  split at h
  · cases h
  · rename_i c cs heq
    simp only [Bool.and_eq_true] at h
    rw [heq]
    exact h.1

private theorem utf8Len_digits {cs : List Char} (h : cs.all Char.isDigit = true) :
    String.utf8Len cs = cs.length := by
  induction cs with
  | nil => rfl
  | cons c cs ih =>
    simp only [List.all_cons, Bool.and_eq_true] at h
    have hsize : c.utf8Size = 1 := by
      have h9 : c.toNat ≤ 57 := by
        have h' := h.1
        simp only [Char.isDigit, Bool.and_eq_true, decide_eq_true_eq] at h'
        exact h'.2
      rw [Char.utf8Size_eq_one_iff, UInt32.le_iff_toNat_le]
      exact h9.trans (by decide)
    rw [String.utf8Len_cons, hsize, ih h.2, List.length_cons]

theorem utf8ByteSize_of_digits (h : s.toList.all Char.isDigit = true) :
    s.utf8ByteSize = s.toList.length := by
  have hof : s = String.ofList s.toList := (String.ofList_toList).symm
  rw [hof, String.utf8ByteSize_ofList, String.toList_ofList]
  exact utf8Len_digits h

theorem utf8ByteSize_of_isCanonical (h : isCanonical s = true) :
    s.utf8ByteSize = s.toList.length :=
  utf8ByteSize_of_digits (isCanonical_digits h)

theorem value_lt_of_length_lt (hs : isCanonical s = true) (ht : isCanonical t = true)
    (hlen : s.toList.length < t.toList.length) : value s < value t := by
  have hsmall := ofDigits_lt (isCanonical_digits hs)
  have hpos : 0 < s.toList.length := by
    unfold isCanonical at hs
    split at hs
    · cases hs
    · rename_i heq
      simp [heq]
  unfold isCanonical at ht
  split at ht
  · cases ht
  · rename_i d ds heq
    simp only [List.all_cons, Bool.and_eq_true, Bool.or_eq_true, bne_iff_ne,
      List.isEmpty_iff] at ht
    have hlen' : s.toList.length ≤ ds.length := by
      rw [heq, List.length_cons] at hlen
      omega
    have hd0 : d ≠ '0' := by
      rcases ht.2 with hnil | hne
      · simp only [hnil, List.length_nil] at hlen'
        omega
      · exact hne
    have hbig : 10 ^ ds.length ≤ ofDigits (d :: ds) := pow_le_ofDigits ht.1.1 hd0
    unfold value
    rw [heq]
    calc ofDigits s.toList < 10 ^ s.toList.length := hsmall
      _ ≤ 10 ^ ds.length := Nat.pow_le_pow_right (by decide) hlen'
      _ ≤ ofDigits (d :: ds) := hbig

theorem order_swap (s t : String) : order s t = (order t s).swap := by
  unfold order
  rw [Ordering.swap_then, ← Std.OrientedCmp.eq_swap, ← Std.OrientedCmp.eq_swap]

theorem order_self (s : String) : order s s = .eq := by
  simp [order]

theorem order_eq_iff : order s t = .eq ↔ s = t := by
  constructor
  · intro h
    unfold order at h
    rw [Ordering.then_eq_eq] at h
    exact compare_eq_iff_eq.mp h.2
  · rintro rfl
    exact order_self s

/-- `order` on canonical decimals is the order of the numbers they denote. -/
theorem order_lt_iff (hs : isCanonical s = true) (ht : isCanonical t = true) :
    order s t = .lt ↔ value s < value t := by
  unfold order
  rw [Ordering.then_eq_lt, Nat.compare_eq_lt, Nat.compare_eq_eq, compare_lt_iff_lt,
    utf8ByteSize_of_isCanonical hs, utf8ByteSize_of_isCanonical ht]
  constructor
  · rintro (hlen | ⟨hlen, hlt⟩)
    · exact value_lt_of_length_lt hs ht hlen
    · exact (ofDigits_lt_iff hlen (isCanonical_digits hs) (isCanonical_digits ht)).mpr hlt
  · intro hlt
    rcases lt_trichotomy s.toList.length t.toList.length with hlen | hlen | hlen
    · exact .inl hlen
    · exact .inr ⟨hlen,
        (ofDigits_lt_iff hlen (isCanonical_digits hs) (isCanonical_digits ht)).mp hlt⟩
    · exact absurd (value_lt_of_length_lt ht hs hlen) (by omega)

theorem order_le_trans {u : String} (h : (order s t).isLE = true) (h' : (order t u).isLE = true) :
    (order s u).isLE = true := by
  have htrans : Std.TransCmp (compareLex (compareOn String.utf8ByteSize)
      (compare : String → String → Ordering)) := inferInstance
  exact htrans.isLE_trans h h'

/-! ## Printed numbers -/

theorem toDigits_head {n : Nat} (hn : 0 < n) :
    ∃ c cs, Nat.toDigits 10 n = c :: cs ∧ c ≠ '0' := by
  induction n using Nat.strong_induction_on with
  | _ n ih =>
    by_cases hsmall : n < 10
    · refine ⟨n.digitChar, [], Nat.toDigits_of_lt_base hsmall, ?_⟩
      have hsmallDigits : ∀ m < 10, 0 < m → m.digitChar ≠ '0' := by decide
      exact hsmallDigits n hsmall hn
    · have hbig : 10 ≤ n := by omega
      obtain ⟨c, cs, hdigits, hc⟩ := ih (n / 10) (by omega) (by omega)
      rw [Nat.toDigits_of_base_le (by decide) hbig, hdigits]
      exact ⟨c, _, rfl, hc⟩

theorem isCanonical_toString (n : Nat) : isCanonical (toString n) = true := by
  have htext : (toString n).toList = Nat.toDigits 10 n := by
    rw [Nat.toString_eq_ofList_toDigits, String.toList_ofList]
  unfold isCanonical
  rw [htext]
  rcases Nat.eq_zero_or_pos n with rfl | hn
  · rfl
  · obtain ⟨c, cs, hdigits, hc⟩ := toDigits_head hn
    rw [hdigits]
    have hall : (c :: cs).all Char.isDigit = true := by
      rw [List.all_eq_true]
      intro d hd
      apply Nat.isDigit_of_mem_toDigits (b := 10) (n := n) (by decide) (by decide)
      rw [hdigits]
      exact hd
    simp only [hall, Bool.true_and, Bool.or_eq_true, bne_iff_ne]
    exact .inr hc

theorem not_isWhiteSpace_of_isDigit (h : c.isDigit = true) :
    Text.isWhiteSpace c = false := by
  have hbounds : 48 ≤ c.toNat ∧ c.toNat ≤ 57 := by
    simp only [Char.isDigit, Bool.and_eq_true, decide_eq_true_eq] at h
    exact ⟨h.1, h.2⟩
  simp only [Text.isWhiteSpace, Bool.or_eq_false_iff, Bool.and_eq_false_iff, decide_eq_false_iff_not,
    beq_eq_false_iff_ne]
  omega

theorem trim_of_isCanonical (h : isCanonical s = true) : Text.trim s = s := by
  have hdigits := List.all_eq_true.mp (isCanonical_digits h)
  apply Text.trim_eq_self
  · intro c hc
    exact not_isWhiteSpace_of_isDigit (hdigits c (List.mem_of_mem_head? hc))
  · intro c hc
    exact not_isWhiteSpace_of_isDigit (hdigits c (List.mem_of_mem_getLast? hc))

theorem ne_empty_of_isCanonical (h : isCanonical s = true) : s ≠ "" := by
  rintro rfl
  cases h

end Decimal
end Awiki
