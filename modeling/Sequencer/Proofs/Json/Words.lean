import Mathlib.Data.List.Basic
import Sequencer.Json.Token
import Sequencer.Json.Writer

/-!
# Words — cutting a written document into its tokens

What a writer puts on the line is cut back into the tokens it stands for.  The statements go from
the end of a text to its start: a word in front of a text adds its token in front of the tokens of
that text.  A number is the one word without an end of its own, so it needs a mark behind it.
-/

namespace Sequencer.Json

/-! ## 1. Texts and their tokens -/

/-- The tokens of the characters `text` are `tokens`, however many steps there are to spare. -/
def Lexes (text : List Char) (tokens : List Token) : Prop :=
  ∀ fuel, text.length ≤ fuel → tokensOf fuel text = tokens

theorem Lexes.nil : Lexes [] [] := by
  intro fuel _
  cases fuel <;> rfl

theorem Lexes.tokens_eq {text : String} {toks : List Token} (h : Lexes text.toList toks) :
    tokens text = toks :=
  h _ (Nat.le_refl _)

/-- A word that starts with `c` and leaves `rest` adds its token. -/
theorem Lexes.word {c : Char} {more rest : List Char} {token : Token} {toks : List Token}
    (hblank : isBlank c = false) (htoken : tokenAt c more = (token, rest))
    (hgood : token.isBad = false) (hlength : rest.length ≤ more.length) (h : Lexes rest toks) :
    Lexes (c :: more) (token :: toks) := by
  intro fuel hfuel
  obtain ⟨fuel, rfl⟩ : ∃ less, fuel = less + 1 :=
    Nat.exists_eq_add_one.mpr (Nat.lt_of_lt_of_le (Nat.succ_pos _) hfuel)
  rw [List.length_cons] at hfuel
  simp only [tokensOf, hblank, htoken, hgood, Bool.false_eq_true, if_false]
  rw [h fuel (by omega)]

/-- What each mark is written as. -/
def markOf : String → Option Token
  | "[" => some .openList
  | "]" => some .closeList
  | "\x7b" => some .openObject
  | "\x7d" => some .closeObject
  | "," => some .comma
  | ":" => some .colon
  | _ => none

theorem Lexes.mark (mark : String) {rest : List Char} {token : Token} {toks : List Token}
    (hmark : markOf mark = some token) (h : Lexes rest toks) :
    Lexes (mark.toList ++ rest) (token :: toks) := by
  unfold markOf at hmark
  split at hmark <;> cases hmark <;> exact Lexes.word rfl rfl rfl (Nat.le_refl _) h

/-! ## 2. Constants -/

theorem dropWord_append (word rest : List Char) : dropWord word (word ++ rest) = .ok rest := by
  induction word with
  | nil => rfl
  | cons w word ih =>
    rw [List.cons_append, dropWord, if_pos rfl]
    exact ih

theorem constantToken_append (value : Json) (word rest : List Char) :
    constantToken value word (word ++ rest) = (.constant value, rest) := by
  rw [constantToken, dropWord_append]

/-- A constant that starts with `c`, when a token that starts so is read as that constant. -/
theorem Lexes.constant {c : Char} {word rest : List Char} {value : Json} {toks : List Token}
    (hblank : isBlank c = false)
    (hstart : ∀ more, tokenAt c more = constantToken value word more) (h : Lexes rest toks) :
    Lexes (c :: (word ++ rest)) (.constant value :: toks) := by
  refine Lexes.word hblank ?_ rfl ?_ h
  · rw [hstart, constantToken_append]
  · rw [List.length_append]
    omega

/-! ## 3. Strings -/

/-- The control characters below the space, and the two digits each is written with. -/
theorem hexFour_hexPair {n : Nat} (h : n < 0x20) (rest : List Char) :
    hexFour ('0' :: '0' :: (hexPair n ++ rest)) = .ok (n, rest) := by
  have hdigits : ∀ n < 0x20, ∃ a b, hexPair n = [a, b] ∧ hexDigit? a = some (n / 16) ∧
      hexDigit? b = some (n % 16) := by
    intro n hn
    refine ⟨(n / 16).digitChar, (n % 16).digitChar, ?_, ?_⟩
    · rw [hexPair, Nat.toDigits_of_lt_base (by omega), Nat.toDigits_of_lt_base (by omega)]
      rfl
    · revert n
      decide
  obtain ⟨a, b, hpair, ha, hb⟩ := hdigits n h
  have hzero : hexDigit? '0' = some 0 := by decide
  rw [hpair]
  simp only [List.cons_append, List.nil_append, hexFour, hzero, ha, hb]
  congr 2
  omega

/-- A draft without half a pair. -/
def Draft.of (content : List Char) : Draft := ⟨some content, none⟩

/-- One written character is one step of the reader. -/
theorem textToken_writeChar (content : List Char) (c : Char) (fuel : Nat) (rest : List Char) :
    textToken (.of content) (fuel + 1) (writeChar c ++ rest) =
      textToken (.of (c :: content)) fuel rest := by
  have hescape : ∀ letter, letter ≠ 'u' → escape? letter = some c →
      textToken (.of content) (fuel + 1) (['\\', letter] ++ rest) =
        textToken (.of (c :: content)) fuel rest := by
    intro letter hletter hstands
    simp only [List.cons_append, List.nil_append, textToken]
    rw [if_neg (by decide), if_pos trivial, hstands]
    rfl
  unfold writeChar
  split
  · next h => exact hescape '"' (by decide) (by rw [h]; rfl)
  split
  · next h => exact hescape '\\' (by decide) (by rw [h]; rfl)
  split
  · next h => exact hescape 'b' (by decide) (h ▸ rfl)
  split
  · next h => exact hescape 'f' (by decide) (h ▸ rfl)
  split
  · next h => exact hescape 'n' (by decide) (h ▸ rfl)
  split
  · next h => exact hescape 'r' (by decide) (h ▸ rfl)
  split
  · next h => exact hescape 't' (by decide) (h ▸ rfl)
  split
  · next hlow =>
    have hunit : (Draft.of content).pushUnit c.toNat = .of (c :: content) := by
      simp only [Draft.pushUnit, Draft.of]
      rw [if_neg (by omega), if_neg (by omega), Option.map_some, Char.ofNat_toNat]
    simp only [List.cons_append, List.nil_append, textToken]
    rw [if_neg (by decide), if_pos trivial, hexFour_hexPair hlow]
    simp only [hunit]
  · next hquote hbackslash _ _ _ _ _ hhigh =>
    simp only [List.cons_append, List.nil_append, textToken]
    rw [if_neg hquote, if_neg hbackslash]
    simp only [Draft.of, Option.isSome_none, Bool.false_eq_true, if_false, if_neg hhigh]
    rfl

/-- A written string up to its last quote, read on from what came before. -/
theorem textToken_flatMap_writeChar (content s : List Char) {fuel : Nat} (rest : List Char)
    (h : s.length < fuel) :
    textToken (.of content) fuel (s.flatMap writeChar ++ '"' :: rest) =
      (.text (some (String.ofList (content.reverse ++ s))), rest) := by
  induction s generalizing content fuel with
  | nil =>
    obtain ⟨fuel, rfl⟩ : ∃ less, fuel = less + 1 := Nat.exists_eq_add_one.mpr h
    rw [List.append_nil]
    rfl
  | cons c s ih =>
    obtain ⟨fuel, rfl⟩ : ∃ less, fuel = less + 1 :=
      Nat.exists_eq_add_one.mpr (Nat.lt_of_le_of_lt (Nat.zero_le _) h)
    rw [List.length_cons] at h
    rw [List.flatMap_cons, List.append_assoc, textToken_writeChar, ih (c :: content) (by omega),
      List.reverse_cons, List.append_assoc]
    rfl

theorem length_le_flatMap_writeChar (s : List Char) : s.length ≤ (s.flatMap writeChar).length := by
  induction s with
  | nil => exact (Nat.le_refl _)
  | cons c s ih =>
    have hchar : 0 < (writeChar c).length := by
      unfold writeChar
      grind
    rw [List.flatMap_cons, List.length_append, List.length_cons]
    omega

theorem toList_writeText (s : String) (rest : List Char) :
    (writeText s).toList ++ rest = '"' :: (s.toList.flatMap writeChar ++ '"' :: rest) := by
  rw [writeText, String.toList_ofList, List.append_assoc]
  rfl

theorem Lexes.text (s : String) {rest : List Char} {toks : List Token} (h : Lexes rest toks) :
    Lexes ((writeText s).toList ++ rest) (.text (some s) :: toks) := by
  have hlength := length_le_flatMap_writeChar s.toList
  rw [toList_writeText]
  refine Lexes.word rfl ?_ rfl ?_ h
  · show textToken (.of []) _ _ = _
    rw [textToken_flatMap_writeChar [] s.toList rest ?_]
    · rw [List.reverse_nil, List.nil_append, String.ofList_toList]
    · rw [List.length_append, List.length_cons]
      omega
  · rw [List.length_append, List.length_cons]
    omega

/-- The name of a field and its colon. -/
theorem Lexes.name (name : String) {rest : List Char} {toks : List Token} (h : Lexes rest toks) :
    Lexes ((writeText name).toList ++ (":".toList ++ rest)) (.text (some name) :: .colon :: toks) :=
  Lexes.text name (Lexes.mark _ rfl h)

/-! ## 4. Whole numbers -/

/-- What may stand behind a number: nothing, a comma or the end of a list or an object. -/
def EndsNumber (rest : List Char) : Prop :=
  ∀ c ∈ rest.head?, c = ',' ∨ c = ']' ∨ c = '\x7d'

theorem EndsNumber.comma (rest : List Char) : EndsNumber (",".toList ++ rest) := by
  rintro c ⟨⟩
  exact .inl rfl

theorem EndsNumber.closeList (rest : List Char) : EndsNumber ("]".toList ++ rest) := by
  rintro c ⟨⟩
  exact .inr (.inl rfl)

theorem EndsNumber.closeObject (rest : List Char) : EndsNumber ("\x7d".toList ++ rest) := by
  rintro c ⟨⟩
  exact .inr (.inr rfl)

theorem wholeDigits_of_le (digits : List Char) (significand : Nat)
    (h : Nat.ofDigitChars 10 digits significand ≤ maxWord 64) :
    wholeDigits significand digits = (Nat.ofDigitChars 10 digits significand, 0) := by
  induction digits generalizing significand with
  | nil => rfl
  | cons c digits ih =>
    have hnext : significand * 10 + digit c = 10 * significand + (c.toNat - '0'.toNat) := by
      rw [digit]
      omega
    rw [Nat.ofDigitChars_cons] at h ⊢
    have hgrows : Nat.ofDigitChars 10 digits (10 * significand + (c.toNat - '0'.toNat)) =
        10 ^ digits.length * (10 * significand + (c.toNat - '0'.toNat)) +
          Nat.ofDigitChars 10 digits 0 := Nat.ofDigitChars_eq_ofDigitChars_zero
    have hpower : 0 < 10 ^ digits.length := Nat.pow_pos (by decide)
    have hle : 10 * significand + (c.toNat - '0'.toNat) ≤
        10 ^ digits.length * (10 * significand + (c.toNat - '0'.toNat)) :=
      Nat.le_mul_of_pos_left _ hpower
    simp only [wholeDigits, hnext]
    rw [if_neg (by omega)]
    exact ih _ h

theorem head?_toDigits_ne_zero {n : Nat} (h : 0 < n) : (Nat.toDigits 10 n).head? ≠ some '0' := by
  induction n using Nat.strongRecOn with
  | ind n ih =>
    rw [Nat.toDigits_eq_if (by decide)]
    split
    · simp only [List.head?_cons, ne_eq, Option.some.injEq, Nat.digitChar_eq_zero]
      omega
    · rw [List.head?_append_of_ne_nil _ Nat.toDigits_ne_nil]
      exact ih (n / 10) (by omega) (by omega)

theorem takeWhile_digits {digits rest : List Char} (hdigits : ∀ c ∈ digits, c.isDigit = true)
    (hrest : EndsNumber rest) :
    (digits ++ rest).takeWhile Char.isDigit = digits ∧
      (digits ++ rest).dropWhile Char.isDigit = rest := by
  rw [List.takeWhile_append_of_pos hdigits, List.dropWhile_append_of_pos hdigits]
  cases rest with
  | nil => exact ⟨List.append_nil _, rfl⟩
  | cons c rest =>
    have hc : c.isDigit = false := by
      rcases hrest c rfl with rfl | rfl | rfl <;> rfl
    rw [List.takeWhile_cons_of_neg (by rw [hc]; decide),
      List.dropWhile_cons_of_neg (by rw [hc]; decide)]
    exact ⟨List.append_nil _, rfl⟩

theorem numberToken_toDigits {n : Nat} (hn : n ≤ maxWord 64) (negative : Bool) {rest : List Char}
    (hrest : EndsNumber rest) :
    numberToken negative (Nat.toDigits 10 n ++ rest) =
      (.number (some (wholeOf negative n)), rest) := by
  have hdigits : ∀ c ∈ Nat.toDigits 10 n, c.isDigit = true := fun c hc =>
    Nat.isDigit_of_mem_toDigits (by decide) (by decide) hc
  obtain ⟨htake, hdrop⟩ := takeWhile_digits hdigits hrest
  have hvalue : Nat.ofDigitChars 10 (Nat.toDigits 10 n) 0 = n :=
    Nat.ofDigitChars_toDigits (by decide) (by decide)
  have hwhole : wholeDigits 0 (Nat.toDigits 10 n) = (n, 0) := by
    rw [wholeDigits_of_le _ _ (by rw [hvalue]; exact hn), hvalue]
  unfold numberToken
  simp only [htake, hdrop]
  split
  · next hnil => exact absurd hnil Nat.toDigits_ne_nil
  · next c more hzero =>
    -- more than one digit and the first of them zero: neither zero nor a greater number
    rcases Nat.eq_zero_or_pos n with rfl | hpos
    · rw [Nat.toDigits_zero] at hzero
      cases hzero
    · exact absurd (congrArg List.head? hzero) (head?_toDigits_ne_zero hpos)
  · simp only [hwhole]
    cases rest with
    | nil => rfl
    | cons c rest => rcases hrest c rfl with rfl | rfl | rfl <;> rfl

/-- The whole numbers that are read back as whole numbers. -/
def Fits (n : Int) : Prop := -(wordSize 63 : Int) ≤ n ∧ n ≤ maxWord 64

instance : DecidablePred Fits := fun n =>
  inferInstanceAs (Decidable (-(wordSize 63 : Int) ≤ n ∧ n ≤ maxWord 64))

theorem tokenAt_digit {c : Char} (h : c.isDigit = true) (rest : List Char) :
    tokenAt c rest = numberToken false (c :: rest) := by
  have hnot : ∀ d : Char, d.isDigit = false → c ≠ d := by
    rintro d hd rfl
    rw [h] at hd
    cases hd
  unfold tokenAt
  rw [if_neg (hnot '[' rfl), if_neg (hnot ']' rfl), if_neg (hnot '\x7b' rfl),
    if_neg (hnot '\x7d' rfl), if_neg (hnot ',' rfl), if_neg (hnot ':' rfl), if_neg (hnot '"' rfl),
    if_neg (hnot 'n' rfl), if_neg (hnot 't' rfl), if_neg (hnot 'f' rfl), if_neg (hnot '-' rfl),
    if_pos h]

theorem isBlank_digit {c : Char} (h : c.isDigit = true) : isBlank c = false := by
  rw [isBlank, Bool.eq_false_iff]
  intro hblank
  simp only [Bool.or_eq_true, decide_eq_true_eq] at hblank
  obtain ((rfl | rfl) | rfl) | rfl := hblank <;> cases h

theorem Lexes.nat {n : Nat} (hn : n ≤ maxWord 64) {rest : List Char} {toks : List Token}
    (hrest : EndsNumber rest) (h : Lexes rest toks) :
    Lexes ((toString n).toList ++ rest) (.number (some (.int n)) :: toks) := by
  have htoken := numberToken_toDigits hn false hrest
  have hdigits : ∀ c ∈ Nat.toDigits 10 n, c.isDigit = true := fun c hc =>
    Nat.isDigit_of_mem_toDigits (by decide) (by decide) hc
  rw [Nat.toString_eq_repr, Nat.toList_repr]
  cases hall : Nat.toDigits 10 n with
  | nil => exact absurd hall Nat.toDigits_ne_nil
  | cons c digits =>
    have hc : c.isDigit = true := hdigits c (by rw [hall]; exact List.mem_cons_self)
    rw [hall, List.cons_append] at htoken
    refine Lexes.word (isBlank_digit hc) ?_ rfl ?_ h
    · rw [tokenAt_digit hc]
      exact htoken
    · rw [List.append_eq, List.length_append]
      omega

theorem Lexes.int {n : Int} (hn : Fits n) {rest : List Char} {toks : List Token}
    (hrest : EndsNumber rest) (h : Lexes rest toks) :
    Lexes ((toString n).toList ++ rest) (.number (some (.int n)) :: toks) := by
  obtain ⟨hleast, hgreatest⟩ := hn
  cases n with
  | ofNat n => exact Lexes.nat (Int.ofNat_le.mp hgreatest) hrest h
  | negSucc n =>
    have htext : (toString (Int.negSucc n)).toList = '-' :: Nat.toDigits 10 (n + 1) := by
      show ("-" ++ (n + 1).repr).toList = _
      rw [String.toList_append, Nat.toList_repr]
      rfl
    have hsmall : n + 1 ≤ wordSize 63 := by
      rw [Int.negSucc_eq] at hleast
      omega
    have hvalue : wholeOf true (n + 1) = .int (Int.negSucc n) := by
      rw [wholeOf, if_pos rfl, if_neg, Int.negSucc_eq]
      · rfl
      · simp only [Nat.add_eq_zero_iff, Nat.one_ne_zero, and_false, decide_false, Bool.false_or,
          decide_eq_true_eq]
        omega
    have hword : wordSize 63 ≤ maxWord 64 := by decide
    rw [htext, List.cons_append]
    refine Lexes.word rfl ?_ rfl ?_ h
    · show numberToken true _ = _
      rw [numberToken_toDigits (Nat.le_trans hsmall hword) true hrest, hvalue]
    · rw [List.length_append]
      omega

end Sequencer.Json
