import Mathlib.Data.List.DropRight
import Mathlib.Data.List.Infix
import Mathlib.Data.Nat.Digits.Defs
import Mathlib.Logic.Function.Basic

/-! # Rust strings, and numbers in them

A string is the list of its characters, and its bytes are their UTF-8
encodings. `trim`, `contains` and the splitting into words are those of `str`;
the hex functions are those of `hex`, with an optional mark in front of what is
decoded; decimal numbers are read as `FromStr` reads unsigned integers. -/
namespace UnichainBuilder.Lib.Text

/-! ## Strings as bytes -/

def utf8 (s : List Char) : List UInt8 := s.flatMap String.utf8EncodeChar

/-- `String::from_utf8`. -/
def fromUtf8 (bytes : List UInt8) : Option (List Char) :=
  bytes.toByteArray.utf8Decode?.map Array.toList

theorem fromUtf8_utf8 (s : List Char) : fromUtf8 (utf8 s) = some s := by
  have h : (utf8 s).toByteArray = s.utf8Encode := rfl
  simp [fromUtf8, h]

theorem utf8_append (s t : List Char) : utf8 (s ++ t) = utf8 s ++ utf8 t := List.flatMap_append

theorem eq_utf8_of_fromUtf8 {bytes : List UInt8} {s : List Char} (h : fromUtf8 bytes = some s) :
    bytes = utf8 s := by
  obtain ⟨chars, hchars, rfl⟩ := Option.map_eq_some_iff.mp h
  have hsome : bytes.toByteArray.utf8Decode?.isSome := by rw [hchars]; rfl
  have hencode := ByteArray.utf8Encode_get_utf8Decode? (h := hsome)
  simp only [hchars, Option.get_some] at hencode
  have hbytes : (utf8 chars.toList).toByteArray = bytes.toByteArray := hencode
  exact (List.toByteArray_inj.mp hbytes).symm

/-- The bytes below 128 are characters by themselves. -/
theorem utf8_ascii {bytes : List UInt8} (h : ∀ b ∈ bytes, b.toNat < 128) :
    utf8 (bytes.map fun b => Char.ofNat b.toNat) = bytes := by
  have hone : ∀ n < 128, utf8 [Char.ofNat n] = [UInt8.ofNat n] := by decide +kernel
  induction bytes with
  | nil => rfl
  | cons b bytes ih =>
    obtain ⟨hb, hbytes⟩ := List.forall_mem_cons.mp h
    have hcons : utf8 ((b :: bytes).map fun b => Char.ofNat b.toNat) =
        utf8 [Char.ofNat b.toNat] ++ utf8 (bytes.map fun b => Char.ofNat b.toNat) :=
      utf8_append [_] _
    rw [hcons, hone b.toNat hb, ih hbytes, UInt8.ofNat_toNat]
    rfl

/-- `char::is_whitespace`. -/
def isWhitespace (c : Char) : Bool :=
  let n := c.toNat
  (0x09 ≤ n && n ≤ 0x0D) || n = 0x20 || n = 0x85 || n = 0xA0 || n = 0x1680 ||
    (0x2000 ≤ n && n ≤ 0x200A) || n = 0x2028 || n = 0x2029 || n = 0x202F || n = 0x205F ||
    n = 0x3000

def trim (s : List Char) : List Char := (s.dropWhile isWhitespace).rdropWhile isWhitespace

theorem trim_eq_self {s : List Char} (h : ∀ c ∈ s, isWhitespace c = false) : trim s = s := by
  have hfront : s.dropWhile isWhitespace = s := by
    rw [List.dropWhile_eq_self_iff]
    intro hpos
    rw [h _ (List.getElem_mem hpos)]
    decide
  rw [trim, hfront, List.rdropWhile_eq_self_iff]
  intro hne
  rw [h _ (List.getLast_mem hne)]
  decide

/-- What is trimmed is blank. -/
theorem trim_parts (s : List Char) :
    ∃ before after, s = before ++ trim s ++ after ∧ ∀ c ∈ before ++ after, isWhitespace c := by
  refine ⟨s.takeWhile isWhitespace, (s.dropWhile isWhitespace).rtakeWhile isWhitespace, ?_, ?_⟩
  · rw [List.append_assoc, trim, List.rdropWhile_append_rtakeWhile, List.takeWhile_append_dropWhile]
  · rw [List.forall_mem_append]
    exact ⟨fun _ => List.mem_takeWhile_imp, fun _ => List.mem_rtakeWhile_imp⟩

/-- What is blank is trimmed. -/
theorem trim_append {before core after : List Char} (hblank : ∀ c ∈ before ++ after, isWhitespace c)
    (hcore : ∀ c ∈ core, isWhitespace c = false) : trim (before ++ core ++ after) = core := by
  obtain ⟨hbefore, hafter⟩ := List.forall_mem_append.mp hblank
  have hback : (core ++ after).rdropWhile isWhitespace = core := by
    have hself : core.reverse.dropWhile isWhitespace = core.reverse := by
      rw [List.dropWhile_eq_self_iff]
      intro hpos
      rw [hcore _ (List.mem_reverse.mp (List.getElem_mem hpos))]
      decide
    rw [List.rdropWhile, List.reverse_append,
      List.dropWhile_append_of_pos fun c hc => hafter c (List.mem_reverse.mp hc), hself,
      List.reverse_reverse]
  have hfront : (core ++ after).dropWhile isWhitespace = core ++ after ∨ core = [] := by
    cases core with
    | nil => exact .inr rfl
    | cons c core =>
      left
      rw [List.cons_append, List.dropWhile_cons_of_neg (by rw [hcore c List.mem_cons_self]; decide)]
  rw [trim, List.append_assoc, List.dropWhile_append_of_pos hbefore]
  rcases hfront with hfront | rfl
  · rw [hfront, hback]
  · rw [List.nil_append, List.dropWhile_eq_nil_iff.mpr hafter, List.rdropWhile_nil]

/-- `str::split_whitespace`. -/
def splitWhitespace (s : List Char) : List (List Char) :=
  (s.splitOnP isWhitespace).filter fun word => !word.isEmpty

/-- `str::contains` with a string. -/
def contains (s pattern : List Char) : Bool := pattern <:+: s

/-! ## Hexadecimal -/

/-- The lower-case digit of `d < 16`. -/
def digit (d : Nat) : Char := if d < 10 then Char.ofNat (48 + d) else Char.ofNat (87 + d)

def encodeByte (b : UInt8) : List Char := [digit (b.toNat / 16), digit (b.toNat % 16)]

/-- `hex::encode`. -/
def encode (bytes : List UInt8) : List Char := bytes.flatMap encodeByte

inductive FromHexError
  | oddLength
  | invalidHexCharacter (c : UInt8) (index : Nat)
  deriving DecidableEq, Repr

/-- What a digit of either case stands for. -/
def digitValue (c : UInt8) : Option Nat :=
  if 48 ≤ c ∧ c ≤ 57 then some (c.toNat - 48)
  else if 97 ≤ c ∧ c ≤ 102 then some (c.toNat - 87)
  else if 65 ≤ c ∧ c ≤ 70 then some (c.toNat - 55)
  else none

/-- What may stand in front of the digits: nothing, `0x` or `0X`. Older releases
do not know the last. -/
def marks : List (List UInt8) := [[], [48, 120], [48, 88]]

def stripPrefix : List UInt8 → List UInt8
  | 48 :: 120 :: rest => rest
  | 48 :: 88 :: rest => rest
  | input => input

/-- Two digits a byte; `index` is the place of the first in the string. -/
def decodePairs (index : Nat) : List UInt8 → Except FromHexError (List UInt8)
  | hi :: lo :: rest =>
    match digitValue hi, digitValue lo with
    | none, _ => .error (.invalidHexCharacter hi index)
    | some _, none => .error (.invalidHexCharacter lo (index + 1))
    | some high, some low =>
      (decodePairs (index + 2) rest).map (UInt8.ofNat (16 * high + low) :: ·)
  | [] => .ok []
  | [_] => .error .oddLength

/-- `hex::decode` on the bytes of a string. -/
def decode (input : List UInt8) : Except FromHexError (List UInt8) :=
  let input := stripPrefix input
  if input.length % 2 = 0 then decodePairs 0 input else .error .oddLength

/-- Each of the sixteen digits is one byte that reads back as it was, and is not
a blank. -/
theorem digit_spec : ∀ d < 16, utf8 [digit d] = [UInt8.ofNat (digit d).toNat] ∧
    digitValue (UInt8.ofNat (digit d).toNat) = some d ∧ isWhitespace (digit d) = false := by
  decide

theorem div_lt (b : UInt8) : b.toNat / 16 < 16 := by
  have := b.toNat_lt
  omega

theorem mod_lt (b : UInt8) : b.toNat % 16 < 16 := Nat.mod_lt _ (by decide)

theorem utf8_encode_cons (b : UInt8) (bytes : List UInt8) :
    utf8 (encode (b :: bytes)) = UInt8.ofNat (digit (b.toNat / 16)).toNat ::
      UInt8.ofNat (digit (b.toNat % 16)).toNat :: utf8 (encode bytes) := by
  have hcons : encode (b :: bytes) =
      [digit (b.toNat / 16)] ++ ([digit (b.toNat % 16)] ++ encode bytes) := rfl
  rw [hcons, utf8_append, utf8_append, (digit_spec _ (div_lt b)).1, (digit_spec _ (mod_lt b)).1]
  rfl

theorem length_utf8_encode (bytes : List UInt8) :
    (utf8 (encode bytes)).length = 2 * bytes.length := by
  induction bytes with
  | nil => rfl
  | cons b bytes ih =>
    rw [utf8_encode_cons, List.length_cons, List.length_cons, ih, List.length_cons]
    omega

theorem decodePairs_encode (index : Nat) (bytes : List UInt8) :
    decodePairs index (utf8 (encode bytes)) = .ok bytes := by
  induction bytes generalizing index with
  | nil => rfl
  | cons b bytes ih =>
    have hvalue : UInt8.ofNat (16 * (b.toNat / 16) + b.toNat % 16) = b := by
      rw [Nat.div_add_mod, UInt8.ofNat_toNat]
    rw [utf8_encode_cons, decodePairs, (digit_spec _ (div_lt b)).2.1,
      (digit_spec _ (mod_lt b)).2.1]
    simp only [ih, Except.map, hvalue]

/-- No digit can be taken for the second character of a mark. -/
theorem stripPrefix_digits {digits : List UInt8} (h : ∀ c ∈ digits, (digitValue c).isSome) :
    stripPrefix digits = digits := by
  unfold stripPrefix
  split
  · have hx : (digitValue 120).isSome := h 120 (by simp)
    cases hx
  · have hx : (digitValue 88).isSome := h 88 (by simp)
    cases hx
  · rfl

theorem digitValue_of_mem_encode {bytes : List UInt8} :
    ∀ c ∈ utf8 (encode bytes), (digitValue c).isSome := by
  induction bytes with
  | nil => exact fun _ hc => absurd hc List.not_mem_nil
  | cons b bytes ih =>
    rw [utf8_encode_cons, List.forall_mem_cons, List.forall_mem_cons]
    exact ⟨Option.isSome_of_eq_some (digit_spec _ (div_lt b)).2.1,
      Option.isSome_of_eq_some (digit_spec _ (mod_lt b)).2.1, ih⟩

theorem stripPrefix_encode (bytes : List UInt8) :
    stripPrefix (utf8 (encode bytes)) = utf8 (encode bytes) :=
  stripPrefix_digits digitValue_of_mem_encode

/-- **What was encoded decodes**. -/
theorem decode_encode (bytes : List UInt8) : decode (utf8 (encode bytes)) = .ok bytes := by
  rw [decode, stripPrefix_encode, length_utf8_encode]
  simp [decodePairs_encode]

theorem encode_injective : Function.Injective encode := by
  intro a b h
  have hdecoded := congrArg (fun s => decode (utf8 s)) h
  simpa only [decode_encode, Except.ok.injEq] using hdecoded

theorem length_encode (bytes : List UInt8) : (encode bytes).length = 2 * bytes.length := by
  induction bytes with
  | nil => rfl
  | cons b bytes ih =>
    rw [encode, List.flatMap_cons, List.length_append, ← encode, ih, encodeByte, List.length_cons]
    simp only [List.length_cons, List.length_nil]
    omega

/-- So it does with the prefix in front. -/
theorem decode_prefixed (bytes : List UInt8) :
    decode (utf8 ('0' :: 'x' :: encode bytes)) = .ok bytes := by
  have hprefix : stripPrefix (utf8 ('0' :: 'x' :: encode bytes)) = utf8 (encode bytes) := rfl
  rw [decode, hprefix, length_utf8_encode]
  simp [decodePairs_encode]

theorem isWhitespace_of_mem_encode {bytes : List UInt8} {c : Char} (h : c ∈ encode bytes) :
    isWhitespace c = false := by
  obtain ⟨b, _, hc⟩ := List.mem_flatMap.mp h
  rcases List.mem_cons.mp hc with rfl | hc
  · exact (digit_spec _ (div_lt b)).2.2
  · rw [List.mem_singleton.mp hc]
    exact (digit_spec _ (mod_lt b)).2.2

/-! ## What decodes -/

theorem lt_of_digitValue {c : UInt8} {d : Nat} (h : digitValue c = some d) :
    d < 16 ∧ c.toNat < 128 := by
  simp only [digitValue, UInt8.le_iff_toNat_le] at h
  split at h
  · rename_i hc
    cases h
    have h48 : (48 : UInt8).toNat = 48 := rfl
    have h57 : (57 : UInt8).toNat = 57 := rfl
    omega
  · split at h
    · rename_i hc
      cases h
      have h97 : (97 : UInt8).toNat = 97 := rfl
      have h102 : (102 : UInt8).toNat = 102 := rfl
      omega
    · split at h
      · rename_i hc
        cases h
        have h65 : (65 : UInt8).toNat = 65 := rfl
        have h70 : (70 : UInt8).toNat = 70 := rfl
        omega
      · cases h

theorem isWhitespace_of_digitValue {c : UInt8} {d : Nat} (h : digitValue c = some d) :
    isWhitespace (Char.ofNat c.toNat) = false := by
  have hclass : ∀ n < 128, (digitValue (UInt8.ofNat n)).isSome →
      isWhitespace (Char.ofNat n) = false := by decide +kernel
  refine hclass c.toNat (lt_of_digitValue h).2 ?_
  rw [UInt8.ofNat_toNat]
  exact Option.isSome_of_eq_some h

/-- The number that digits make behind the digits of `n`. -/
def readDigits (n : Nat) (digits : List UInt8) : Option Nat :=
  digits.foldlM (fun n c => (digitValue c).map (16 * n + ·)) n

theorem readDigits_pair {n m : Nat} {hi lo : UInt8} {rest : List UInt8} :
    readDigits n (hi :: lo :: rest) = some m ↔
      ∃ high low, digitValue hi = some high ∧ digitValue lo = some low ∧
        readDigits (n * 256 + (16 * high + low)) rest = some m := by
  have hshift : ∀ high low, 16 * (16 * n + high) + low = n * 256 + (16 * high + low) := by
    intro high low
    omega
  simp only [readDigits, List.foldlM_cons, Option.bind_eq_bind, Option.bind_eq_some_iff,
    Option.map_eq_some_iff, ← hshift]
  constructor
  · rintro ⟨_, ⟨high, hhigh, rfl⟩, _, ⟨low, hlow, rfl⟩, hrest⟩
    exact ⟨high, low, hhigh, hlow, hrest⟩
  · rintro ⟨high, low, hhigh, hlow, hrest⟩
    exact ⟨_, ⟨high, hhigh, rfl⟩, _, ⟨low, hlow, rfl⟩, hrest⟩

/-- A byte for every two digits, which spell the same number. -/
theorem readDigits_of_decodePairs {index : Nat} {digits bytes : List UInt8}
    (h : decodePairs index digits = .ok bytes) (n : Nat) :
    digits.length = 2 * bytes.length ∧
      readDigits n digits = some (bytes.foldl (fun n b => n * 256 + b.toNat) n) := by
  fun_induction decodePairs index digits generalizing bytes n with
  | case1 index hi lo rest hhi => cases h
  | case2 index hi lo rest high hhi hlo => cases h
  | case3 index hi lo rest high low hlo hhi ih =>
    cases hrest : decodePairs (index + 2) rest with
    | error e =>
      rw [hrest] at h
      cases h
    | ok tail =>
      rw [hrest] at h
      cases h
      have hsmall : 16 * high + low < 256 := by
        have := lt_of_digitValue hhi
        have := lt_of_digitValue hlo
        omega
      obtain ⟨hlength, hvalue⟩ := ih hrest (n * 256 + (16 * high + low))
      refine ⟨by simp only [List.length_cons, hlength]; omega,
        readDigits_pair.mpr ⟨high, low, hhi, hlo, ?_⟩⟩
      rw [hvalue, List.foldl_cons, UInt8.toNat_ofNat_of_lt' hsmall]
  | case4 index =>
    cases h
    exact ⟨rfl, rfl⟩
  | case5 index c => cases h

theorem exists_decodePairs {n m : Nat} {digits : List UInt8} (heven : digits.length % 2 = 0)
    (h : readDigits n digits = some m) (index : Nat) :
    ∃ bytes, decodePairs index digits = .ok bytes := by
  match digits with
  | [] => exact ⟨[], rfl⟩
  | [c] => cases heven
  | hi :: lo :: rest =>
    obtain ⟨high, low, hhi, hlo, hrest⟩ := readDigits_pair.mp h
    have heven' : rest.length % 2 = 0 := by
      simp only [List.length_cons] at heven
      omega
    obtain ⟨bytes, hbytes⟩ := exists_decodePairs heven' hrest (index + 2)
    exact ⟨UInt8.ofNat (16 * high + low) :: bytes, by simp only [decodePairs, hhi, hlo, hbytes]; rfl⟩

theorem decode_eq_ok {input bytes : List UInt8} :
    decode input = .ok bytes ↔ decodePairs 0 (stripPrefix input) = .ok bytes := by
  by_cases heven : (stripPrefix input).length % 2 = 0
  · simp only [decode, if_pos heven]
  · simp only [decode, if_neg heven]
    refine iff_of_false (by simp) fun h => heven ?_
    have hlength := (readDigits_of_decodePairs h 0).1
    omega

theorem digitValue_of_readDigits {n m : Nat} {digits : List UInt8}
    (h : readDigits n digits = some m) : ∀ c ∈ digits, (digitValue c).isSome := by
  induction digits generalizing n with
  | nil => simp
  | cons c digits ih =>
    obtain ⟨next, hnext, hrest⟩ := Option.bind_eq_some_iff.mp h
    obtain ⟨d, hd, -⟩ := Option.map_eq_some_iff.mp hnext
    exact List.forall_mem_cons.mpr ⟨Option.isSome_of_eq_some hd, ih hrest⟩

theorem stripPrefix_parts (input : List UInt8) :
    ∃ mark ∈ marks, input = mark ++ stripPrefix input := by
  unfold stripPrefix
  split
  · exact ⟨[48, 120], by decide, rfl⟩
  · exact ⟨[48, 88], by decide, rfl⟩
  · exact ⟨[], by decide, rfl⟩

/-- The marks are ASCII without blanks. -/
theorem plain_of_mem_marks {mark : List UInt8} (hmark : mark ∈ marks) :
    ∀ c ∈ mark, c.toNat < 128 ∧ isWhitespace (Char.ofNat c.toNat) = false := by
  simp only [marks, List.mem_cons, List.not_mem_nil, or_false] at hmark
  intro c hc
  rcases hmark with rfl | rfl | rfl
  · cases hc
  · rcases List.mem_pair.mp hc with rfl | rfl <;> exact ⟨by decide, rfl⟩
  · rcases List.mem_pair.mp hc with rfl | rfl <;> exact ⟨by decide, rfl⟩

theorem stripPrefix_append {mark digits : List UInt8} (hmark : mark ∈ marks)
    (hdigits : ∀ c ∈ digits, (digitValue c).isSome) : stripPrefix (mark ++ digits) = digits := by
  simp only [marks, List.mem_cons, List.not_mem_nil, or_false] at hmark
  rcases hmark with rfl | rfl | rfl
  · exact stripPrefix_digits hdigits
  · rfl
  · rfl

/-- What decodes is pairs of digits behind one of the marks. -/
theorem decode_eq_ok_iff {input bytes : List UInt8} :
    decode input = .ok bytes ↔ ∃ mark ∈ marks, ∃ digits, input = mark ++ digits ∧
      decodePairs 0 digits = .ok bytes := by
  rw [decode_eq_ok]
  constructor
  · intro h
    obtain ⟨mark, hmark, hparts⟩ := stripPrefix_parts input
    exact ⟨mark, hmark, _, hparts, h⟩
  · rintro ⟨mark, hmark, digits, rfl, h⟩
    have hdigits := digitValue_of_readDigits (readDigits_of_decodePairs h 0).2
    rw [stripPrefix_append hmark hdigits]
    exact h

/-! ## Hexadecimal numbers -/

/-- The digits of a number without leading zeros. -/
def encodeNat (n : Nat) : List Char :=
  if n = 0 then [digit 0] else (Nat.digits 16 n).reverse.map digit

def decodeNat (digits : List UInt8) : Option Nat :=
  if digits.isEmpty then none
  else digits.foldlM (fun n c => (digitValue c).map (16 * n + ·)) 0

/-- The least significant digit is read last. -/
theorem foldlM_reverse_digits {ds : List Nat} (h : ∀ d ∈ ds, d < 16) :
    (utf8 (ds.reverse.map digit)).foldlM (fun n c => (digitValue c).map (16 * n + ·)) 0 =
      some (Nat.ofDigits 16 ds) := by
  induction ds with
  | nil => rfl
  | cons d ds ih =>
    obtain ⟨hd, hds⟩ := List.forall_mem_cons.mp h
    rw [List.reverse_cons, List.map_append, utf8_append, List.foldlM_append, ih hds, List.map_cons,
      List.map_nil, (digit_spec d hd).1, Nat.ofDigits_cons]
    simp [(digit_spec d hd).2.1, Nat.add_comm]

theorem decodeNat_encodeNat (n : Nat) : decodeNat (utf8 (encodeNat n)) = some n := by
  unfold encodeNat
  split
  · rename_i hzero
    rw [hzero]
    decide
  · rename_i hpos
    have hsmall : ∀ d ∈ Nat.digits 16 n, d < 16 := fun _ => Nat.digits_lt_base (by decide)
    have hread := foldlM_reverse_digits hsmall
    rw [Nat.ofDigits_digits] at hread
    rw [decodeNat, if_neg, hread]
    intro hempty
    rw [List.isEmpty_iff.mp hempty] at hread
    exact hpos (Option.some.inj hread).symm

/-! ## Decimal numbers -/

inductive ParseIntError
  | empty
  | invalidDigit
  | posOverflow
  deriving DecidableEq, Repr

instance : ToString ParseIntError where
  toString
    | .empty => "cannot parse integer from empty string"
    | .invalidDigit => "invalid digit found in string"
    | .posOverflow => "number too large to fit in target type"

/-- Digit by digit; the type of the number ends at `max`. -/
def parseDigits (max n : Nat) : List Char → Except ParseIntError Nat
  | [] => .ok n
  | c :: rest =>
    if c.isDigit then
      let n := 10 * n + (c.toNat - '0'.toNat)
      if n ≤ max then parseDigits max n rest else .error .posOverflow
    else .error .invalidDigit

def parseUnsigned (max : Nat) : List Char → Except ParseIntError Nat
  | [] => .error .empty
  | ['+'] => .error .invalidDigit
  | '+' :: digits => parseDigits max 0 digits
  | digits => parseDigits max 0 digits

def parseU16 (s : List Char) : Except ParseIntError UInt16 :=
  (parseUnsigned 0xFFFF s).map UInt16.ofNat

theorem le_ofDigitChars (n : Nat) (digits : List Char) : n ≤ Nat.ofDigitChars 10 digits n := by
  induction digits generalizing n with
  | nil => simp
  | cons c digits ih =>
    rw [Nat.ofDigitChars_cons]
    have := ih (10 * n + (c.toNat - '0'.toNat))
    omega

/-- No digit overflows where the whole number does not. -/
theorem parseDigits_eq_ok {max n : Nat} {digits : List Char} (hdigits : ∀ c ∈ digits, c.isDigit)
    (hfits : Nat.ofDigitChars 10 digits n ≤ max) :
    parseDigits max n digits = .ok (Nat.ofDigitChars 10 digits n) := by
  induction digits generalizing n with
  | nil => simp [parseDigits]
  | cons c digits ih =>
    obtain ⟨hc, hrest⟩ := List.forall_mem_cons.mp hdigits
    rw [Nat.ofDigitChars_cons] at hfits ⊢
    have hle := Nat.le_trans (le_ofDigitChars _ digits) hfits
    rw [parseDigits, if_pos hc]
    simp only [if_pos hle]
    exact ih hrest hfits

theorem parseUnsigned_eq_ok {max : Nat} {digits : List Char} (hne : digits ≠ [])
    (hdigits : ∀ c ∈ digits, c.isDigit) (hfits : Nat.ofDigitChars 10 digits 0 ≤ max) :
    parseUnsigned max digits = .ok (Nat.ofDigitChars 10 digits 0) := by
  unfold parseUnsigned
  split
  · exact absurd rfl hne
  · exact absurd (hdigits '+' (by simp)) (by decide)
  · exact absurd (hdigits '+' (by simp)) (by decide)
  · exact parseDigits_eq_ok hdigits hfits

end UnichainBuilder.Lib.Text
