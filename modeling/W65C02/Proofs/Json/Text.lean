import Mathlib.Tactic.SplitIfs
import W65C02.Json.Text

/-!
# Text that is read back

A value is written without blanks, and the reader takes it apart where the writer put it together:
each character of a string, each number, each element and each field is read back by itself,
whatever follows. Only after a number it matters what comes next, for digits, a point or an exponent
would go on with it. So a value with natural numbers that fit, and with no more levels than the
reader takes, is what its text stands for.
-/

namespace W65C02.Json

/-! ### What is written -/

/-- The characters of a quoted string behind the opening quote. -/
def quotedRest (s : String) : List Char := s.toList.flatMap (fun c => (escape c).toList) ++ ['"']

/-- The characters of a quoted string. -/
def quoted (s : String) : List Char := '"' :: quotedRest s

mutual

/-- The characters of a value. -/
def chars : Json → List Char
  | null => ['n', 'u', 'l', 'l']
  | bool true => ['t', 'r', 'u', 'e']
  | bool false => ['f', 'a', 'l', 's', 'e']
  | integer value => (toString value).toList
  | decimal text => text.toList
  | string value => quoted value
  | array [] => ['[', ']']
  | array (first :: rest) => '[' :: (chars first ++ (moreItems rest ++ [']']))
  | object [] => ['\x7b', '\x7d']
  | object ((name, value) :: rest) =>
    '\x7b' :: (quoted name ++ ':' :: (chars value ++ (moreFields rest ++ ['\x7d'])))
  | unreadable => ['1', 'e', '3', '0', '9']

/-- The characters of further elements of an array. -/
def moreItems : List Json → List Char
  | [] => []
  | item :: rest => ',' :: (chars item ++ moreItems rest)

/-- The characters of further fields of an object. -/
def moreFields : List (String × Json) → List Char
  | [] => []
  | (name, value) :: rest => ',' :: (quoted name ++ ':' :: (chars value ++ moreFields rest))

end

/-- A string is written in quotes behind what is there. -/
theorem toList_writeString (out s : String) :
    (writeString out s).toList = out.toList ++ quoted s := by
  have hescaped (cs : List Char) (out : String) :
      (cs.foldl (fun out c => out ++ escape c) out).toList =
        out.toList ++ cs.flatMap fun c => (escape c).toList := by
    induction cs generalizing out with
    | nil => simp
    | cons c cs ih => simp [ih]
  simp [writeString, quoted, quotedRest, String.foldl_eq_foldl_toList, hescaped]

mutual

/-- The characters of a value are appended. -/
theorem toList_write (out : String) : ∀ j : Json, (write out j).toList = out.toList ++ chars j
  | null | bool true | bool false | integer _ | decimal _ | unreadable | array [] | object [] => by
    simp [write, chars]
  | string value => by simp [write, chars, toList_writeString]
  | array (first :: rest) => by
    simp [write, chars, toList_writeItems _ rest, toList_write _ first]
  | object ((name, value) :: rest) => by
    simp [write, chars, toList_writeFields _ rest, toList_write _ value, toList_writeString]

/-- The items of an array are written with a comma before each, -/
theorem toList_writeItems (out : String) :
    ∀ items : List Json, (writeItems out items).toList = out.toList ++ moreItems items
  | [] => by simp [writeItems, moreItems]
  | item :: rest => by
    simp [writeItems, moreItems, toList_writeItems _ rest, toList_write _ item]

/-- and so are the fields of an object. -/
theorem toList_writeFields (out : String) : ∀ fields : List (String × Json),
    (writeFields out fields).toList = out.toList ++ moreFields fields
  | [] => by simp [writeFields, moreFields]
  | (name, value) :: rest => by
    simp [writeFields, moreFields, toList_writeFields _ rest, toList_write _ value,
      toList_writeString]

end

/-! ### Strings are read back -/

/-- A hexadecimal digit is read back. -/
theorem hexValue?_hexDigit : ∀ n < 16, hexValue? (hexDigit n) = some n := by decide

/-- The two digits of a control character stand for it. -/
theorem escaped?_control {c : Char} (h : c.toNat < 0x20) (rest : List Char) :
    escaped? ('u' :: '0' :: '0' :: hexDigit (c.toNat / 16) :: hexDigit (c.toNat % 16) :: rest) =
      some (some c, rest) := by
  have hzero : hexValue? '0' = some 0 := by decide
  have hhigh := hexValue?_hexDigit (c.toNat / 16) (by omega)
  have hlow := hexValue?_hexDigit (c.toNat % 16) (by omega)
  have hcode : ((0 * 16 + 0) * 16 + c.toNat / 16) * 16 + c.toNat % 16 = c.toNat := by omega
  have hfirst : ¬ (0xD800 ≤ c.toNat ∧ c.toNat < 0xDC00) := by omega
  have hsecond : ¬ (0xDC00 ≤ c.toNat ∧ c.toNat < 0xE000) := by omega
  simp only [escaped?, escapedUnicode?, codeUnit?, hzero, hhigh, hlow, hcode, Option.bind_eq_bind,
    Option.bind_some, if_neg hfirst, if_neg hsecond, Char.ofNat_toNat]

/-- A character is read back, whether it is written as an escape or not. -/
theorem stringRest?_escape (c first : Char) (fuel : List Char) (out : String) (rest : List Char) :
    stringRest? (first :: fuel) false out ((escape c).toList ++ rest) =
      stringRest? fuel false (out.push c) rest := by
  unfold escape
  -- The reader tells the escapes apart as the writer does, so there is one case for each.
  split_ifs with hquote hslash hnewline hreturn htab hback hfeed hcontrol
  · subst hquote
    rfl
  · subst hslash
    rfl
  · subst hnewline
    rfl
  · subst hreturn
    rfl
  · subst htab
    rfl
  · rw [← c.ofNat_toNat, hback]
    rfl
  · rw [← c.ofNat_toNat, hfeed]
    rfl
  · have hread := escaped?_control hcontrol rest
    have hwritten : ("\\u00" ++ String.ofList
        [hexDigit (c.toNat / 16), hexDigit (c.toNat % 16)]).toList ++ rest =
          '\\' :: 'u' :: '0' :: '0' :: hexDigit (c.toNat / 16) :: hexDigit (c.toNat % 16) ::
            rest := by
      simp
    rw [hwritten]
    simp only [stringRest?, hread]
    rfl
  · have hwritten : (String.singleton c).toList ++ rest = c :: rest := by simp
    rw [hwritten]
    simp only [stringRest?, if_neg hquote, if_neg hslash, if_neg hcontrol]

/-- Every character takes room. -/
theorem length_le_flatMap_escape (cs : List Char) :
    cs.length ≤ (cs.flatMap fun c => (escape c).toList).length := by
  induction cs with
  | nil => exact Nat.le_refl 0
  | cons c cs ih =>
    have hsome : 0 < (escape c).toList.length := by
      unfold escape
      split_ifs <;> simp
    rw [List.flatMap_cons, List.length_append, List.length_cons]
    omega

/-- All characters of a string are read back, up to the closing quote. -/
theorem stringRest?_flatMap (cs : List Char) {fuel : List Char} (hfuel : cs.length < fuel.length)
    (out : String) (rest : List Char) :
    stringRest? fuel false out (cs.flatMap (fun c => (escape c).toList) ++ '"' :: rest) =
      some (some (out ++ String.ofList cs), rest) := by
  induction cs generalizing fuel out with
  | nil =>
    obtain ⟨first, fuel, rfl⟩ := List.exists_cons_of_length_pos hfuel
    simp [stringRest?]
  | cons c cs ih =>
    obtain ⟨first, fuel, rfl⟩ := List.exists_cons_of_length_pos (Nat.zero_lt_of_lt hfuel)
    have hpush : out.push c ++ String.ofList cs = out ++ String.ofList (c :: cs) := by
      apply String.toList_injective
      simp
    rw [List.flatMap_cons, List.append_assoc, stringRest?_escape,
      ih (Nat.lt_of_succ_lt_succ hfuel), hpush]

/-- A quoted string is read back. -/
theorem stringRest?_quotedRest (s : String) (rest : List Char) :
    stringRest? (quotedRest s ++ rest) false "" (quotedRest s ++ rest) = some (some s, rest) := by
  have hlength := length_le_flatMap_escape s.toList
  have hfuel : s.toList.length < (quotedRest s ++ rest).length := by
    rw [quotedRest, List.length_append, List.length_append, List.length_singleton]
    omega
  have hread := stringRest?_flatMap s.toList hfuel "" rest
  rw [String.empty_append, String.ofList_toList] at hread
  rw [quotedRest, List.append_assoc, List.singleton_append]
  rw [quotedRest, List.append_assoc, List.singleton_append] at hread
  exact hread

/-! ### Numbers are read back -/

/-- A text goes on with nothing that could belong to a number. -/
def EndsNumber (rest : List Char) : Prop :=
  ∀ c ∈ rest.head?, isDigit c = false ∧ c ≠ '.' ∧ c ≠ 'e' ∧ c ≠ 'E'

/-- Numbers are written with digits only, -/
theorem isDigit_of_mem_toDigits {n : Nat} {c : Char} (h : c ∈ Nat.toDigits 10 n) :
    isDigit c = true :=
  Nat.isDigit_of_mem_toDigits (by decide) (Nat.le_refl 10) h

/-- and these digits are read back as the number. -/
theorem natOfDigits_toDigits (n : Nat) : natOfDigits (Nat.toDigits 10 n) = n := by
  have hdigits : Nat.ofDigitChars 10 (Nat.toDigits 10 n) 0 = n :=
    Nat.ofDigitChars_toDigits (by decide) (Nat.le_refl 10)
  simp only [Nat.ofDigitChars, Nat.mul_comm 10] at hdigits
  exact hdigits

/-- Only zero is written with a zero in front. -/
theorem eq_zero_of_toDigits {n : Nat} {rest : List Char} (h : Nat.toDigits 10 n = '0' :: rest) :
    n = 0 := by
  induction n using Nat.strongRecOn generalizing rest with
  | ind n ih =>
    by_cases hsmall : n < 10
    · rw [Nat.toDigits_of_lt_base hsmall] at h
      have hdigit : ∀ k < 10, Nat.digitChar k = '0' → k = 0 := by decide
      exact hdigit n hsmall (List.cons.inj h).1
    · -- The first digit is that of a tenth of the number, which is not zero.
      rw [Nat.toDigits_of_base_le (by decide) (Nat.not_lt.mp hsmall)] at h
      obtain ⟨first, more, hmore⟩ :=
        List.exists_cons_of_ne_nil (Nat.toDigits_ne_nil (n := n / 10) (b := 10))
      rw [hmore, List.cons_append] at h
      rw [(List.cons.inj h).1] at hmore
      have hzero := ih (n / 10) (by omega) hmore
      omega

/-- A number has a first digit, and if that is zero then it is the only one. -/
theorem exists_toDigits_eq_cons (n : Nat) :
    ∃ first digits, Nat.toDigits 10 n = first :: digits ∧ isDigit first = true ∧
      (first = '0' → digits = []) := by
  obtain ⟨first, digits, hcons⟩ :=
    List.exists_cons_of_ne_nil (Nat.toDigits_ne_nil (n := n) (b := 10))
  refine ⟨first, digits, hcons, ?_, ?_⟩
  · have hmem : first ∈ Nat.toDigits 10 n := by
      rw [hcons]
      exact List.mem_cons_self
    exact isDigit_of_mem_toDigits hmem
  · rintro rfl
    obtain rfl := eq_zero_of_toDigits hcons
    rw [Nat.toDigits_zero] at hcons
    exact (List.cons.inj hcons).2.symm

/-- The number that digits make does not get smaller with further ones. -/
theorem le_foldl_digits (digits : List Char) (n : Nat) :
    n ≤ digits.foldl (fun n c => n * 10 + (c.toNat - '0'.toNat)) n := by
  induction digits generalizing n with
  | nil => exact Nat.le_refl n
  | cons c digits ih =>
    have hnext := ih (n * 10 + (c.toNat - '0'.toNat))
    rw [List.foldl_cons]
    omega

/-- All digits of a number are appended if it fits in sixty-four bits. -/
theorem appendDigits_of_lt {digits : List Char} {n : Nat}
    (h : digits.foldl (fun n c => n * 10 + (c.toNat - '0'.toNat)) n < UInt64.size) :
    appendDigits n digits =
      (digits.foldl (fun n c => n * 10 + (c.toNat - '0'.toNat)) n, []) := by
  induction digits generalizing n with
  | nil => rfl
  | cons c digits ih =>
    rw [List.foldl_cons] at h
    have hnext := Nat.lt_of_le_of_lt (le_foldl_digits digits _) h
    unfold appendDigits
    rw [if_pos hnext, ih h, List.foldl_cons]

/-- The digits of a number are told from what follows. -/
theorem spanDigits_append {digits rest : List Char} (hdigits : ∀ c ∈ digits, isDigit c = true)
    (hrest : EndsNumber rest) : spanDigits (digits ++ rest) = (digits, rest) := by
  have htake : rest.takeWhile isDigit = [] := by
    cases rest with
    | nil => rfl
    | cons c rest => rw [List.takeWhile_cons_of_neg (by simp [(hrest c rfl).1])]
  have hdrop : rest.dropWhile isDigit = rest := by
    cases rest with
    | nil => rfl
    | cons c rest => rw [List.dropWhile_cons_of_neg (by simp [(hrest c rfl).1])]
  rw [spanDigits, List.takeWhile_append_of_pos hdigits, List.dropWhile_append_of_pos hdigits,
    htake, hdrop, List.append_nil]

/-- A natural number that fits in sixty-four bits is not too large. -/
theorem isTooLarge_toDigits {n : Nat} (h : n < UInt64.size) :
    isTooLarge (Nat.toDigits 10 n) [] 0 = false := by
  rw [← natOfDigits_toDigits n] at h
  have happend := appendDigits_of_lt h
  have hpower : ¬ (0 : Int) < 0 + Int.ofNat 0 - Int.ofNat (0 - 0) := by decide
  simp only [isTooLarge, happend, appendDigits, List.length_nil, decide_eq_false hpower,
    Bool.false_and]

/-- A number that ends has no fraction, -/
theorem fraction?_of_ends {rest : List Char} (h : EndsNumber rest) :
    fraction? rest = some ([], rest) := by
  cases rest with
  | nil => rfl
  | cons c rest =>
    obtain ⟨-, hpoint, -⟩ := h c rfl
    unfold fraction?
    split
    · next hc => exact absurd (List.cons.inj hc).1 hpoint
    · rfl

/-- and no exponent. -/
theorem exponent?_of_ends {rest : List Char} (h : EndsNumber rest) :
    exponent? rest = some ([], 0, rest) := by
  cases rest with
  | nil => rfl
  | cons c rest =>
    obtain ⟨-, -, hlower, hupper⟩ := h c rfl
    simp only [exponent?, hlower, hupper, or_self, if_false]

/-- A natural number that fits in sixty-four bits is read back. -/
theorem number?_toDigits {n : Nat} (h : n < UInt64.size) {rest : List Char}
    (hrest : EndsNumber rest) :
    number? (Nat.toDigits 10 n ++ rest) = some (ofNat n, rest) := by
  have hspan : spanDigits (Nat.toDigits 10 n ++ rest) = (Nat.toDigits 10 n, rest) :=
    spanDigits_append (fun _ => isDigit_of_mem_toDigits) hrest
  have hvalue := natOfDigits_toDigits n
  have hsmall := isTooLarge_toDigits h
  obtain ⟨first, digits, hcons, hfirst, hzero⟩ := exists_toDigits_eq_cons n
  rw [hcons] at hspan hvalue hsmall ⊢
  rw [List.cons_append] at hspan ⊢
  have hminus : first ≠ '-' := by
    rintro rfl
    cases hfirst
  unfold number?
  split
  next negative cs hsign =>
    have hnatural : negative = false ∧ cs = first :: (digits ++ rest) := by
      split at hsign
      · next hc => exact absurd (List.cons.inj hc).1 hminus
      · exact ⟨(Prod.mk.inj hsign).1.symm, (Prod.mk.inj hsign).2.symm⟩
    obtain ⟨rfl, rfl⟩ := hnatural
    simp only [hspan]
    split
    · next hnil => cases hnil
    · next hlong =>
      obtain ⟨hleading, hdigits⟩ := List.cons.inj hlong
      cases (hzero hleading).symm.trans hdigits
    · simp only [fraction?_of_ends hrest, exponent?_of_ends hrest, hsmall, hvalue,
        Option.bind_eq_bind, Option.bind_some, List.drop_nil, List.isEmpty_nil, Bool.false_and,
        Bool.not_false, Bool.and_self, if_true]
      rfl

/-! ### Values are read back -/

/-- A token that ends a value is no part of a number. -/
theorem endsNumber_cons {c : Char} (h : c = ',' ∨ c = ']' ∨ c = '\x7d') (cs : List Char) :
    EndsNumber (c :: cs) := by
  intro c' hc
  obtain rfl := Option.some.inj hc
  rcases h with rfl | rfl | rfl <;> decide

/-- Blanks are skipped only in front of the first other character. -/
theorem skipBlanks_cons {c : Char} (h : isBlank c = false) (cs : List Char) :
    skipBlanks (c :: cs) = c :: cs :=
  List.dropWhile_cons_of_neg (Bool.eq_false_iff.mp h)

/-- A value is read back from its characters, whatever follows that does not belong to a number. As
many units of fuel as there are characters will do. -/
structure Reads (j : Json) : Prop where
  /-- The first character is no blank and closes nothing. -/
  start : ∃ c cs, chars j = c :: cs ∧ isBlank c = false ∧ c ≠ ']'
  /-- The value is read. -/
  value : ∀ (fuel : Nat) (rest : List Char), (chars j).length ≤ fuel + 1 → EndsNumber rest →
    value? (fuel + 1) (chars j ++ rest) = some (j, rest)

namespace Reads

variable {j : Json}

/-- No value begins with a blank. -/
theorem skipBlanks_chars (h : Reads j) (rest : List Char) :
    skipBlanks (chars j ++ rest) = chars j ++ rest := by
  obtain ⟨c, cs, hchars, hblank, -⟩ := h.start
  rw [hchars]
  exact skipBlanks_cons hblank _

/-- A value is read back if there is fuel for all its characters. -/
theorem value?_chars (h : Reads j) {fuel : Nat} (hfuel : (chars j).length ≤ fuel)
    {rest : List Char} (hrest : EndsNumber rest) :
    value? fuel (chars j ++ rest) = some (j, rest) := by
  obtain ⟨c, cs, hchars, -⟩ := h.start
  cases fuel with
  | zero =>
    rw [hchars] at hfuel
    cases hfuel
  | succ fuel => exact h.value fuel rest hfuel hrest

/-- The null value is read back, -/
theorem null : Reads null := ⟨⟨_, _, rfl, by decide, by decide⟩, fun _ _ _ _ => rfl⟩

/-- so are truth values, -/
theorem bool (value : Bool) : Reads (bool value) := by
  cases value
  · exact ⟨⟨_, _, rfl, by decide, by decide⟩, fun _ _ _ _ => rfl⟩
  · exact ⟨⟨_, _, rfl, by decide, by decide⟩, fun _ _ _ _ => rfl⟩

/-- strings, -/
theorem string (value : String) : Reads (string value) := by
  refine ⟨⟨_, _, rfl, by decide, by decide⟩, fun fuel rest _ _ => ?_⟩
  have hread := stringRest?_quotedRest value rest
  rw [chars, quoted, List.cons_append]
  simp only [value?, hread]

/-- A natural number that fits in sixty-four bits is read back. -/
theorem ofNat {n : Nat} (h : n < UInt64.size) : Reads (ofNat n) := by
  have hchars : chars (Json.ofNat n) = Nat.toDigits 10 n := by
    change (String.ofList (Nat.toDigits 10 n)).toList = _
    exact String.toList_ofList
  obtain ⟨first, digits, hcons, hfirst, -⟩ := exists_toDigits_eq_cons n
  have hne {c : Char} (hc : isDigit c = false) : first ≠ c := by
    rintro rfl
    cases hfirst.symm.trans hc
  refine ⟨⟨first, digits, hchars.trans hcons, ?_, hne (by decide)⟩, fun fuel rest _ hrest => ?_⟩
  · simp only [isBlank, decide_eq_false (hne (by decide : isDigit ' ' = false)),
      decide_eq_false (hne (by decide : isDigit '\n' = false)),
      decide_eq_false (hne (by decide : isDigit '\r' = false)),
      decide_eq_false (hne (by decide : isDigit '\t' = false)), Bool.or_false]
  · have hnumber := number?_toDigits h hrest
    rw [hchars]
    rw [hcons, List.cons_append] at hnumber ⊢
    unfold value?
    -- None of the other kinds of value starts with a digit.
    split
    all_goals try (next hc => exact absurd (List.cons.inj hc).1 (hne (by decide)))
    exact hnumber

/-- The rest of an array is read back if its elements are. -/
theorem itemsRest?_chars {first : Json} {items : List Json}
    (h : ∀ item ∈ first :: items, Reads item) {fuel : Nat}
    (hfuel : (chars first ++ (moreItems items ++ [']'])).length ≤ fuel) (before : List Json)
    (rest : List Char) :
    itemsRest? fuel before (chars first ++ (moreItems items ++ ']' :: rest)) =
      some (array (before.reverse ++ first :: items), rest) := by
  induction items generalizing first fuel before with
  | nil =>
    have hfirst := h first List.mem_cons_self
    simp only [moreItems, List.nil_append, List.length_append, List.length_singleton] at hfuel ⊢
    obtain ⟨fuel, rfl⟩ : ∃ k, fuel = k + 1 := ⟨fuel - 1, by omega⟩
    have hread : value? fuel (chars first ++ ']' :: rest) = some (first, ']' :: rest) :=
      hfirst.value?_chars (by omega) (endsNumber_cons (.inr (.inl rfl)) rest)
    simp only [itemsRest?, hread, skipBlanks_cons (c := ']') rfl, List.reverse_cons]
  | cons item items ih =>
    obtain ⟨hfirst, hitems⟩ := List.forall_mem_cons.mp h
    have hitem := hitems item List.mem_cons_self
    simp only [moreItems, List.cons_append, List.append_assoc, List.length_append,
      List.length_cons, List.length_nil] at hfuel ⊢
    -- An element takes a unit of fuel, and the comma behind it pays for that.
    obtain ⟨fuel, rfl⟩ : ∃ k, fuel = k + 1 := ⟨fuel - 1, by omega⟩
    let others := chars item ++ (moreItems items ++ ']' :: rest)
    have hread : value? fuel (chars first ++ ',' :: others) = some (first, ',' :: others) :=
      hfirst.value?_chars (by omega) (endsNumber_cons (.inl rfl) others)
    have hlength : (chars item ++ (moreItems items ++ [']'])).length ≤ fuel := by
      simp only [List.length_append, List.length_singleton]
      omega
    simp only [others] at hread
    simp only [itemsRest?, hread, skipBlanks_cons (c := ',') rfl, hitem.skipBlanks_chars,
      ih hitems hlength, List.reverse_cons, List.append_assoc, List.singleton_append]

/-- arrays of what is read back, -/
theorem array {items : List Json} (h : ∀ item ∈ items, Reads item) : Reads (array items) := by
  cases items with
  | nil => exact ⟨⟨_, _, rfl, by decide, by decide⟩, fun _ _ _ _ => rfl⟩
  | cons first items =>
    refine ⟨⟨_, _, rfl, by decide, by decide⟩, fun fuel rest hfuel _ => ?_⟩
    have hfirst := h first List.mem_cons_self
    obtain ⟨c, cs, hchars, -, hopen⟩ := hfirst.start
    have hitems := itemsRest?_chars h (Nat.le_of_succ_le_succ hfuel) [] rest
    have hskip := hfirst.skipBlanks_chars (moreItems items ++ ']' :: rest)
    simp only [chars, value?, List.cons_append, List.append_assoc, List.nil_append, hskip]
    split
    · next hclosed =>
      rw [hchars] at hclosed
      exact absurd (List.cons.inj hclosed).1 hopen
    · exact hitems

/-- The rest of an object is read back if the values of its fields are. -/
theorem fieldsRest?_chars {name : String} {value : Json} {fields : List (String × Json)}
    (hvalue : Reads value) (h : ∀ field ∈ fields, Reads field.2) {fuel : Nat}
    (hfuel : (quoted name ++ ':' :: (chars value ++ (moreFields fields ++ ['\x7d']))).length ≤ fuel)
    (before : List (String × Json)) (rest : List Char) :
    fieldsRest? fuel false before
        (quoted name ++ ':' :: (chars value ++ (moreFields fields ++ '\x7d' :: rest))) =
      some (some (before.reverse ++ (name, value) :: fields), rest) := by
  induction fields generalizing name value fuel before with
  | nil =>
    simp only [moreFields, quoted, List.nil_append, List.cons_append, List.length_append,
      List.length_cons, List.length_nil] at hfuel ⊢
    obtain ⟨fuel, rfl⟩ : ∃ k, fuel = k + 1 := ⟨fuel - 1, by omega⟩
    have hname := stringRest?_quotedRest name (':' :: (chars value ++ '\x7d' :: rest))
    have hread : value? fuel (chars value ++ '\x7d' :: rest) = some (value, '\x7d' :: rest) :=
      hvalue.value?_chars (by omega) (endsNumber_cons (.inr (.inr rfl)) rest)
    simp only [fieldsRest?, hname, skipBlanks_cons (c := ':') rfl, hvalue.skipBlanks_chars, hread,
      skipBlanks_cons (c := '\x7d') rfl]
    simp
  | cons field fields ih =>
    obtain ⟨next, nextValue⟩ := field
    obtain ⟨hnext, hfields⟩ := List.forall_mem_cons.mp h
    simp only [moreFields, quoted, List.cons_append, List.append_assoc, List.length_append,
      List.length_cons, List.length_nil] at hfuel ⊢
    obtain ⟨fuel, rfl⟩ : ∃ k, fuel = k + 1 := ⟨fuel - 1, by omega⟩
    let others := quoted next ++ ':' :: (chars nextValue ++ (moreFields fields ++ '\x7d' :: rest))
    have hname := stringRest?_quotedRest name (':' :: (chars value ++ ',' :: others))
    have hread : value? fuel (chars value ++ ',' :: others) = some (value, ',' :: others) :=
      hvalue.value?_chars (by omega) (endsNumber_cons (.inl rfl) others)
    have hlength : (quoted next ++
        ':' :: (chars nextValue ++ (moreFields fields ++ ['\x7d']))).length ≤ fuel := by
      simp only [quoted, List.length_append, List.length_cons, List.length_nil]
      omega
    have hrest := ih hnext hfields hlength ((name, value) :: before)
    simp only [others, quoted, List.cons_append] at hname hread hrest
    simp only [fieldsRest?, hname, skipBlanks_cons (c := ':') rfl, hvalue.skipBlanks_chars, hread,
      skipBlanks_cons (c := ',') rfl, skipBlanks_cons (c := '"') rfl]
    simp [hrest]

/-- and objects with such fields. -/
theorem object {fields : List (String × Json)} (h : ∀ field ∈ fields, Reads field.2) :
    Reads (object fields) := by
  cases fields with
  | nil => exact ⟨⟨_, _, rfl, by decide, by decide⟩, fun _ _ _ _ => rfl⟩
  | cons field fields =>
    obtain ⟨name, value⟩ := field
    obtain ⟨hvalue, hfields⟩ := List.forall_mem_cons.mp h
    refine ⟨⟨_, _, rfl, by decide, by decide⟩, fun fuel rest hfuel _ => ?_⟩
    have hread := fieldsRest?_chars hvalue hfields (Nat.le_of_succ_le_succ hfuel) [] rest
    simp only [quoted, List.cons_append, List.reverse_nil, List.nil_append] at hread
    simp only [chars, quoted, value?, List.cons_append, List.append_assoc, List.nil_append,
      skipBlanks_cons (c := '"') rfl]
    split
    · next hclosed => exact absurd (List.cons.inj hclosed).1 (by decide)
    · simp only [hread]

end Reads

/-! ### Texts are read back -/

/-- A value with at most so many levels of arrays and objects, and with no numbers but natural ones
that fit in sixty-four bits. -/
inductive Plain : Nat → Json → Prop where
  | null {levels : Nat} : Plain levels null
  | bool {levels : Nat} (value : Bool) : Plain levels (bool value)
  | string {levels : Nat} (value : String) : Plain levels (string value)
  | ofNat {levels n : Nat} (h : n < UInt64.size) : Plain levels (ofNat n)
  | array {levels : Nat} {items : List Json} (h : ∀ item ∈ items, Plain levels item) :
    Plain (levels + 1) (array items)
  | object {levels : Nat} {fields : List (String × Json)}
    (h : ∀ field ∈ fields, Plain levels field.2) : Plain (levels + 1) (object fields)

/-- An array is readable if its items are, -/
theorem allReadable_iff {items : List Json} :
    allReadable items = true ↔ ∀ item ∈ items, item.isReadable = true := by
  induction items with
  | nil => simp [allReadable]
  | cons item rest ih => simp [allReadable, ih]

/-- and an object if its fields are. -/
theorem allFieldsReadable_iff {fields : List (String × Json)} :
    allFieldsReadable fields = true ↔ ∀ field ∈ fields, field.2.isReadable = true := by
  induction fields with
  | nil => simp [allFieldsReadable]
  | cons field rest ih => simp [allFieldsReadable, ih]

namespace Plain

variable {levels : Nat} {j : Json}

/-- What is plain with some levels is plain with more. -/
theorem mono {more : Nat} (h : Plain levels j) (hle : levels ≤ more) : Plain more j := by
  induction h generalizing more with
  | null => exact .null
  | bool value => exact .bool value
  | string value => exact .string value
  | ofNat hfits => exact .ofNat hfits
  | array _ ih =>
    obtain ⟨more, rfl⟩ := Nat.exists_eq_add_of_le' (Nat.le_trans (Nat.le_add_left 1 _) hle)
    exact .array fun item hitem => ih item hitem (Nat.le_of_succ_le_succ hle)
  | object _ ih =>
    obtain ⟨more, rfl⟩ := Nat.exists_eq_add_of_le' (Nat.le_trans (Nat.le_add_left 1 _) hle)
    exact .object fun field hfield => ih field hfield (Nat.le_of_succ_le_succ hle)

/-- A plain value is read back. -/
theorem reads (h : Plain levels j) : Reads j := by
  induction h with
  | null => exact .null
  | bool value => exact .bool value
  | string value => exact .string value
  | ofNat hfits => exact .ofNat hfits
  | array _ ih => exact .array ih
  | object _ ih => exact .object ih

/-- It does not nest too deep, -/
theorem limitNesting_eq (h : Plain levels j) : limitNesting levels j = j := by
  induction h with
  | @null levels | @bool levels _ | @string levels _ | @ofNat levels _ _ => cases levels <;> rfl
  | @array levels items _ ih =>
    have hitems := List.map_congr_left (g := id) ih
    rw [List.map_id] at hitems
    exact congrArg Json.array hitems
  | @object levels fields _ ih =>
    have hfields := List.map_congr_left (g := id)
      (f := fun field : String × Json => (field.1, limitNesting levels field.2))
      fun field hfield => Prod.ext rfl (ih field hfield)
    rw [List.map_id] at hfields
    exact congrArg Json.object hfields

/-- and nothing in it is unreadable. -/
theorem isReadable (h : Plain levels j) : j.isReadable = true := by
  induction h with
  | null | bool | string | ofNat => rfl
  | array _ ih => exact allReadable_iff.mpr ih
  | object _ ih => exact allFieldsReadable_iff.mpr ih

end Plain

/-- The text of a plain value stands for it. -/
theorem parse?_render {j : Json} (h : Plain nestingLimit j) : parse? j.render = some j := by
  have hchars : j.render.toList = chars j := toList_write "" j
  have hread := h.reads
  have hskip := hread.skipBlanks_chars []
  have hvalue : value? ((chars j).length + 1) (chars j ++ []) = some (j, []) :=
    hread.value _ [] (by omega) nofun
  rw [List.append_nil] at hskip hvalue
  simp only [parse?, hchars, hskip, hvalue, h.limitNesting_eq]
  rfl

end W65C02.Json
