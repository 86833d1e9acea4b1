import ClassTidy.Text.Utf8

/-!
# Decoding what was encoded

Octets are decoded to a text just when they are its encoding. Both ways go through the octets that
spell one character, of which there are four kinds, as the decoder tells them apart.
-/

set_option autoImplicit false

namespace ClassTidy.Utf8

/-! ## Octets -/

theorem toNat_octet {n : Nat} (small : n < 0x100) : (UInt8.ofNat n).toNat = n :=
  UInt8.toNat_ofNat_of_lt' small

theorem octet_eq {n : Nat} {octet : UInt8} (same : n = octet.toNat) : UInt8.ofNat n = octet := by
  rw [same, UInt8.ofNat_toNat]

theorem isContinuation_iff {octet : UInt8} :
    isContinuation octet = true ↔ 0x80 ≤ octet.toNat ∧ octet.toNat < 0xC0 := by
  rw [isContinuation, Bool.and_eq_true, decide_eq_true_iff, decide_eq_true_iff,
    UInt8.le_iff_toNat_le, UInt8.lt_iff_toNat_lt]
  rfl

/-- Behind two of the octets that start a sequence fewer may follow than behind the others. -/
theorem narrowed_iff {first second lowest highest least bound : UInt8} (differ : lowest ≠ highest) :
    (if first = lowest then decide (least ≤ second)
        else if first = highest then decide (second < bound) else true) = true ↔
      (first.toNat = lowest.toNat → least.toNat ≤ second.toNat) ∧
        (first.toNat = highest.toNat → second.toNat < bound.toNat) := by
  rw [UInt8.toNat_inj, UInt8.toNat_inj, ← UInt8.le_iff_toNat_le, ← UInt8.lt_iff_toNat_lt]
  by_cases low : first = lowest
  · simp [low, differ]
  · by_cases high : first = highest
    · simp [high, differ.symm]
    · simp [low, high]

theorem fitsThree_iff {first second : UInt8} :
    fitsThree first second = true ↔
      isContinuation second = true ∧ (first.toNat = 0xE0 → 0xA0 ≤ second.toNat) ∧
        (first.toNat = 0xED → second.toNat < 0xA0) := by
  rw [fitsThree, Bool.and_eq_true, narrowed_iff (by decide)]
  rfl

theorem fitsFour_iff {first second : UInt8} :
    fitsFour first second = true ↔
      isContinuation second = true ∧ (first.toNat = 0xF0 → 0x90 ≤ second.toNat) ∧
        (first.toNat = 0xF4 → second.toNat < 0x90) := by
  rw [fitsFour, Bool.and_eq_true, narrowed_iff (by decide)]
  rfl

/-! ## Characters -/

/-- Octets that together spell a character. -/
inductive Spells : List UInt8 → Char → Prop where
  | one {first : UInt8} {c : Char} (ends : first.toNat < 0x80) (value : c.toNat = first.toNat) :
      Spells [first] c
  | two {first second : UInt8} {c : Char} (starts : 0xC2 ≤ first.toNat) (ends : first.toNat < 0xE0)
      (hasSecond : isContinuation second = true)
      (value : c.toNat = (first.toNat - 0xC0) * 0x40 + payload second) :
      Spells [first, second] c
  | three {first second third : UInt8} {c : Char} (starts : 0xE0 ≤ first.toNat)
      (ends : first.toNat < 0xF0) (hasSecond : fitsThree first second = true)
      (hasThird : isContinuation third = true)
      (value : c.toNat = ((first.toNat - 0xE0) * 0x40 + payload second) * 0x40 + payload third) :
      Spells [first, second, third] c
  | four {first second third fourth : UInt8} {c : Char} (starts : 0xF0 ≤ first.toNat)
      (ends : first.toNat < 0xF5) (hasSecond : fitsFour first second = true)
      (hasThird : isContinuation third = true) (hasFourth : isContinuation fourth = true)
      (value : c.toNat = (((first.toNat - 0xF0) * 0x40 + payload second) * 0x40 +
        payload third) * 0x40 + payload fourth) :
      Spells [first, second, third, fourth] c

theorem encodeChar_eq (c : Char) : String.utf8EncodeChar c =
    if c.toNat ≤ 0x7F then [UInt8.ofNat c.toNat]
    else if c.toNat ≤ 0x7FF then
      [UInt8.ofNat (c.toNat / 0x40 % 0x20 + 0xC0), UInt8.ofNat (c.toNat % 0x40 + 0x80)]
    else if c.toNat ≤ 0xFFFF then
      [UInt8.ofNat (c.toNat / 0x1000 % 0x10 + 0xE0), UInt8.ofNat (c.toNat / 0x40 % 0x40 + 0x80),
        UInt8.ofNat (c.toNat % 0x40 + 0x80)]
    else
      [UInt8.ofNat (c.toNat / 0x40000 % 8 + 0xF0), UInt8.ofNat (c.toNat / 0x1000 % 0x40 + 0x80),
        UInt8.ofNat (c.toNat / 0x40 % 0x40 + 0x80), UInt8.ofNat (c.toNat % 0x40 + 0x80)] := rfl

/-- The surrogates are no characters, which bounds the second octet behind `0xED`. -/
theorem spells_encodeChar (c : Char) : Spells (String.utf8EncodeChar c) c := by
  have valid : c.toNat < 0xD800 ∨ 0xDFFF < c.toNat ∧ c.toNat < 0x110000 := c.valid
  rw [encodeChar_eq]
  split
  · refine .one ?_ ?_ <;> simp (disch := omega) only [toNat_octet]
    omega
  split
  · refine .two ?_ ?_ ?_ ?_ <;>
      simp (disch := omega) only [isContinuation_iff, payload, toNat_octet] <;> omega
  split
  · refine .three ?_ ?_ ?_ ?_ ?_ <;>
      simp (disch := omega) only [fitsThree_iff, isContinuation_iff, payload, toNat_octet] <;> omega
  · refine .four ?_ ?_ ?_ ?_ ?_ ?_ <;>
      simp (disch := omega) only [fitsFour_iff, isContinuation_iff, payload, toNat_octet] <;> omega

namespace Spells

variable {octets : List UInt8} {c : Char} (spelled : Spells octets c)
include spelled

theorem eq_encodeChar : octets = String.utf8EncodeChar c := by
  rw [encodeChar_eq]
  cases spelled with
  | one ends value => rw [if_pos (by omega), octet_eq value]
  | @two first second _ starts ends hasSecond value =>
    rw [isContinuation_iff] at hasSecond
    rw [payload] at value
    rw [if_neg (by omega), if_pos (by omega),
      show UInt8.ofNat (c.toNat / 0x40 % 0x20 + 0xC0) = first from octet_eq (by omega),
      show UInt8.ofNat (c.toNat % 0x40 + 0x80) = second from octet_eq (by omega)]
  | @three first second third _ starts ends hasSecond hasThird value =>
    rw [fitsThree_iff, isContinuation_iff] at hasSecond
    rw [isContinuation_iff] at hasThird
    rw [payload, payload] at value
    rw [if_neg (by omega), if_neg (by omega), if_pos (by omega),
      show UInt8.ofNat (c.toNat / 0x1000 % 0x10 + 0xE0) = first from octet_eq (by omega),
      show UInt8.ofNat (c.toNat / 0x40 % 0x40 + 0x80) = second from octet_eq (by omega),
      show UInt8.ofNat (c.toNat % 0x40 + 0x80) = third from octet_eq (by omega)]
  | @four first second third fourth _ starts ends hasSecond hasThird hasFourth value =>
    rw [fitsFour_iff, isContinuation_iff] at hasSecond
    rw [isContinuation_iff] at hasThird hasFourth
    rw [payload, payload, payload] at value
    rw [if_neg (by omega), if_neg (by omega), if_neg (by omega),
      show UInt8.ofNat (c.toNat / 0x40000 % 8 + 0xF0) = first from octet_eq (by omega),
      show UInt8.ofNat (c.toNat / 0x1000 % 0x40 + 0x80) = second from octet_eq (by omega),
      show UInt8.ofNat (c.toNat / 0x40 % 0x40 + 0x80) = third from octet_eq (by omega),
      show UInt8.ofNat (c.toNat % 0x40 + 0x80) = fourth from octet_eq (by omega)]

theorem decodeFrom_append (position : Nat) (rest : List UInt8) :
    decodeFrom position (octets ++ rest) =
      (c :: ·) <$> decodeFrom (position + octets.length) rest := by
  cases spelled with
  | one ends value =>
    rw [List.singleton_append, decodeFrom.eq_def]
    simp only [UInt8.lt_iff_toNat_lt, UInt8.reduceToNat]
    rw [if_pos ends, ← value, Char.ofNat_toNat]
    rfl
  | two starts ends hasSecond value =>
    rw [List.cons_append, List.singleton_append, decodeFrom.eq_def]
    simp only [UInt8.lt_iff_toNat_lt, UInt8.reduceToNat]
    rw [if_neg (by omega), if_neg (by omega), if_pos ends, if_pos hasSecond, ← value,
      Char.ofNat_toNat]
    rfl
  | three starts ends hasSecond hasThird value =>
    rw [List.cons_append, List.cons_append, List.singleton_append, decodeFrom.eq_def]
    simp only [UInt8.lt_iff_toNat_lt, UInt8.reduceToNat]
    rw [if_neg (by omega), if_neg (by omega), if_neg (by omega), if_pos ends, if_pos hasSecond,
      if_pos hasThird, ← value, Char.ofNat_toNat]
    rfl
  | four starts ends hasSecond hasThird hasFourth value =>
    rw [List.cons_append, List.cons_append, List.cons_append, List.singleton_append,
      decodeFrom.eq_def]
    simp only [UInt8.lt_iff_toNat_lt, UInt8.reduceToNat]
    rw [if_neg (by omega), if_neg (by omega), if_neg (by omega), if_neg (by omega), if_pos ends,
      if_pos hasSecond, if_pos hasThird, if_pos hasFourth, ← value, Char.ofNat_toNat]
    rfl

end Spells

/-! ## Texts -/

theorem encode_cons (c : Char) (text : Text) :
    encode (c :: text) = String.utf8EncodeChar c ++ encode text := List.flatMap_cons

theorem decodeFrom_encode (position : Nat) (text : Text) :
    decodeFrom position (encode text) = .ok text := by
  induction text generalizing position with
  | nil => rfl
  | cons c text ih => rw [encode_cons, (spells_encodeChar c).decodeFrom_append, ih]; rfl

theorem toNat_char {n : Nat} (valid : n.isValidChar) : (Char.ofNat n).toNat = n := by
  rw [Char.ofNat, dif_pos valid]
  rfl

/-- One step of the decoder: if it read the octets of a character and the rest are an encoding,
they all are one. -/
theorem Spells.eq_encode {octets rest : List UInt8} {c : Char} (spelled : Spells octets c)
    {decoded : Except Fault Text} {text : Text} (found : (c :: ·) <$> decoded = .ok text)
    (later : ∀ {text : Text}, decoded = .ok text → rest = encode text) :
    octets ++ rest = encode text := by
  cases decoded with
  | error fault => cases found
  | ok tail =>
    cases found
    rw [encode_cons, ← spelled.eq_encodeChar, later rfl]

theorem eq_encode_of_decodeFrom {position : Nat} {octets : List UInt8} {text : Text}
    (decoded : decodeFrom position octets = .ok text) : octets = encode text := by
  fun_induction decodeFrom position octets generalizing text with
  | case1 =>
    cases decoded
    rfl
  | case2 position first rest ends later =>
    simp only [UInt8.lt_iff_toNat_lt, UInt8.reduceToNat] at ends
    exact (Spells.one ends (toNat_char (.inl (by omega)))).eq_encode decoded later
  | case5 position first _ starts ends second rest hasSecond later =>
    simp only [UInt8.lt_iff_toNat_lt, UInt8.reduceToNat] at starts ends
    have valid : ((first.toNat - 0xC0) * 0x40 + payload second).isValidChar := by
      rw [Nat.isValidChar, payload]
      omega
    exact (Spells.two (by omega) ends hasSecond (toNat_char valid)).eq_encode decoded later
  | case9 position first _ _ starts ends second hasSecond third rest hasThird later =>
    simp only [UInt8.lt_iff_toNat_lt, UInt8.reduceToNat] at starts ends
    have valid :
        (((first.toNat - 0xE0) * 0x40 + payload second) * 0x40 + payload third).isValidChar := by
      rw [fitsThree_iff, isContinuation_iff] at hasSecond
      rw [Nat.isValidChar, payload, payload]
      omega
    exact (Spells.three (by omega) ends hasSecond hasThird (toNat_char valid)).eq_encode
      decoded later
  | case15 position first _ _ _ starts ends second hasSecond third hasThird fourth rest hasFourth
      later =>
    simp only [UInt8.lt_iff_toNat_lt, UInt8.reduceToNat] at starts ends
    have valid : ((((first.toNat - 0xF0) * 0x40 + payload second) * 0x40 + payload third) * 0x40 +
        payload fourth).isValidChar := by
      rw [fitsFour_iff, isContinuation_iff] at hasSecond
      rw [Nat.isValidChar, payload, payload, payload]
      omega
    exact (Spells.four (by omega) ends hasSecond hasThird hasFourth (toNat_char valid)).eq_encode
      decoded later
  | _ => cases decoded

theorem decode_eq_ok_iff {octets : List UInt8} {text : Text} :
    decode octets = .ok text ↔ octets = encode text := by
  constructor
  · exact eq_encode_of_decodeFrom
  · rintro rfl
    exact decodeFrom_encode 0 text

end ClassTidy.Utf8
