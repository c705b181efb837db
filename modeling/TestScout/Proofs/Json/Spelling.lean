import TestScout.Json.Token

/-!
# The spelling of JSON tokens

A text holds tokens with white space before, between and behind them. Punctuation is spelled in one
way. A character of a text may stand for itself, be escaped by a letter, or be escaped by one or two
units of four hexadecimal digits. Main statements:

* `Spells`, `SpellsAll`, `Holds`: how characters, texts and tokens are spelled;
* `tokensFrom_of_spells`: the reader takes a spelled character for what it is;
* `tokens_eq_some_iff`: the reader finds tokens in a text exactly if the text holds them.
-/

namespace TestScout.Json

/-! ## 1. Spelling -/

/-- The ways to write a character between the quotes of a text. -/
inductive Spells : Char → List Char → Prop where
  | plain {c : Char} (hprinted : ¬ c.toNat < 0x20) (hquote : c ≠ '"') (hescape : c ≠ '\\') :
      Spells c [c]
  | letter {letter c : Char} (h : shortEscape? letter = some c) : Spells c ['\\', letter]
  | unit {a b c d : Char} {unit : Nat} (h : hexUnit? a b c d = some unit)
      (hwhole : ¬ (0xD800 ≤ unit ∧ unit ≤ 0xDFFF)) :
      Spells (Char.ofNat unit) ['\\', 'u', a, b, c, d]
  | pair {a b c d a' b' c' d' : Char} {first second : Nat} (h : hexUnit? a b c d = some first)
      (hfirst : 0xD800 ≤ first ∧ first ≤ 0xDBFF) (h' : hexUnit? a' b' c' d' = some second)
      (hsecond : 0xDC00 ≤ second ∧ second ≤ 0xDFFF) :
      Spells (Char.ofNat (0x10000 + (first - 0xD800) * 0x400 + (second - 0xDC00)))
        ['\\', 'u', a, b, c, d, '\\', 'u', a', b', c', d']

/-- Characters one after the other. -/
inductive SpellsAll : List Char → List Char → Prop where
  | nil : SpellsAll [] []
  | cons {c : Char} {value written rest : List Char} (h : Spells c written)
      (hrest : SpellsAll value rest) : SpellsAll (c :: value) (written ++ rest)

/-- The text holds the tokens and nothing else but white space. -/
inductive Holds : List Token → List Char → Prop where
  | nil : Holds [] []
  | space {c : Char} {found : List Token} {rest : List Char} (h : isSpace c = true)
      (hrest : Holds found rest) : Holds found (c :: rest)
  | punctuation {c : Char} {token : Token} {found : List Token} {rest : List Char}
      (h : punctuation? c = some token) (hrest : Holds found rest) :
      Holds (token :: found) (c :: rest)
  | text {value written : List Char} {found : List Token} {rest : List Char}
      (h : SpellsAll value written) (hrest : Holds found rest) :
      Holds (.text (String.ofList value) :: found) ('"' :: (written ++ '"' :: rest))

/-! ## 2. What is spelled is read -/

/-- A whole unit is read as its character. -/
theorem readUnit_of_whole {unit : Nat} (h : ¬ (0xD800 ≤ unit ∧ unit ≤ 0xDFFF)) :
    readUnit none unit = some (.char (Char.ofNat unit)) := by
  unfold readUnit
  rw [if_neg (by omega), if_neg (by omega)]

/-- The first half of a character is kept. -/
theorem readUnit_of_first {unit : Nat} (h : 0xD800 ≤ unit ∧ unit ≤ 0xDBFF) :
    readUnit none unit = some (.firstHalf unit) := by
  unfold readUnit
  rw [if_neg (by omega), if_pos h]

/-- The second half of a character completes it. -/
theorem readUnit_of_second {first unit : Nat} (h : 0xDC00 ≤ unit ∧ unit ≤ 0xDFFF) :
    readUnit (some first) unit =
      some (.char (Char.ofNat (0x10000 + (first - 0xD800) * 0x400 + (unit - 0xDC00)))) :=
  if_pos h

/-- **A spelled character is read as what it is.** -/
theorem tokensFrom_of_spells {c : Char} {written : List Char} (h : Spells c written)
    (found : List Token) (reversed rest : List Char) :
    tokensFrom found (.inText reversed none) (written ++ rest) =
      tokensFrom found (.inText (c :: reversed) none) rest := by
  cases h with
  | plain hprinted hquote hescape =>
    simp [tokensFrom, hprinted, hquote, hescape]
  | @letter letter _ h =>
    -- no letter escape is taken for a unit
    have hunit : letter ≠ 'u' := by
      intro heq
      rw [heq] at h
      cases h
    simp [tokensFrom, h, hunit]
  | unit h hwhole =>
    simp only [List.cons_append, List.nil_append, tokensFrom, h, Option.bind_some,
      readUnit_of_whole hwhole]
  | pair h hfirst h' hsecond =>
    simp only [List.cons_append, List.nil_append, tokensFrom, h, h', Option.bind_some,
      readUnit_of_first hfirst, readUnit_of_second hsecond]

/-- A spelled text is read up to its quotes. -/
theorem tokensFrom_of_spellsAll {value written : List Char} (h : SpellsAll value written)
    (found : List Token) (reversed rest : List Char) :
    tokensFrom found (.inText reversed none) (written ++ '"' :: rest) =
      tokensFrom (.text (String.ofList (reversed.reverse ++ value)) :: found) .between rest := by
  induction h generalizing reversed with
  | nil => simp [tokensFrom]
  | cons h hrest ih => simp [tokensFrom_of_spells h, ih]

/-- Punctuation is neither white space nor a quote. -/
theorem not_space_of_punctuation {c : Char} {token : Token} (h : punctuation? c = some token) :
    isSpace c = false ∧ c ≠ '"' := by
  refine ⟨?_, ?_⟩
  · rw [Bool.eq_false_iff]
    intro hspace
    simp only [isSpace, Bool.or_eq_true, beq_iff_eq] at hspace
    rcases hspace with ((rfl | rfl) | rfl) | rfl <;> cases h
  · intro heq
    rw [heq] at h
    cases h

/-- Tokens that a text holds are found behind those already read. -/
theorem tokensFrom_of_holds {more : List Token} {text : List Char} (h : Holds more text)
    (found : List Token) : tokensFrom found .between text = some (found.reverse ++ more) := by
  induction h generalizing found with
  | nil => simp [tokensFrom]
  | space h hrest ih => simp [tokensFrom, h, ih]
  | punctuation h hrest ih =>
    obtain ⟨hspace, hquote⟩ := not_space_of_punctuation h
    simp [tokensFrom, hspace, hquote, h, ih]
  | text h hrest ih =>
    have hquote : isSpace '"' = false := by decide
    simp [tokensFrom, hquote, tokensFrom_of_spellsAll h, ih]

/-! ## 3. What is read was spelled -/

/-- What is written spells the characters, together with the first half of a character that stands
    before it. -/
def SpellsBehind : Option Nat → List Char → List Char → Prop
  | none, value, written => SpellsAll value written
  | some first, value, written => ∀ a b c d, hexUnit? a b c d = some first →
      0xD800 ≤ first ∧ first ≤ 0xDBFF → SpellsAll value ('\\' :: 'u' :: a :: b :: c :: d :: written)

/-- What a text holds from a place of the reader on. -/
def HoldsFrom (more : List Token) (text : List Char) : Place → Prop
  | .between => Holds more text
  | .inText reversed half => ∃ value written found rest, SpellsBehind half value written ∧
      Holds found rest ∧ more = .text (String.ofList (reversed.reverse ++ value)) :: found ∧
      text = written ++ '"' :: rest

/-- A first half is kept only where none waits. -/
theorem readUnit_eq_firstHalf {half : Option Nat} {unit first : Nat}
    (h : readUnit half unit = some (.firstHalf first)) :
    half = none ∧ unit = first ∧ 0xD800 ≤ first ∧ first ≤ 0xDBFF := by
  unfold readUnit at h
  split at h
  · split at h <;> cases h
  · split at h
    · cases h
    · split at h
      · cases h
        exact ⟨rfl, rfl, ‹_›⟩
      · cases h

/-- A character is a whole unit or the two halves together. -/
theorem readUnit_eq_char {half : Option Nat} {unit : Nat} {c : Char}
    (h : readUnit half unit = some (.char c)) :
    (half = none ∧ ¬ (0xD800 ≤ unit ∧ unit ≤ 0xDFFF) ∧ c = Char.ofNat unit) ∨
      ∃ first, half = some first ∧ (0xDC00 ≤ unit ∧ unit ≤ 0xDFFF) ∧
        c = Char.ofNat (0x10000 + (first - 0xD800) * 0x400 + (unit - 0xDC00)) := by
  unfold readUnit at h
  split at h
  · split at h
    · have hc := UnitRead.char.inj (Option.some.inj h)
      exact Or.inr ⟨_, rfl, ‹_›, hc.symm⟩
    · cases h
  · split at h
    · cases h
    · split at h
      · cases h
      · cases h
        exact Or.inl ⟨rfl, by omega, rfl⟩

section HoldsFrom

variable {more : List Token} {text : List Char} {reversed : List Char}

/-- A spelled character comes before what the text holds. -/
theorem HoldsFrom.char {c : Char} {written : List Char} (hc : Spells c written)
    (h : HoldsFrom more text (.inText (c :: reversed) none)) :
    HoldsFrom more (written ++ text) (.inText reversed none) := by
  obtain ⟨value, behind, found, rest, hvalue, hrest, rfl, rfl⟩ := h
  exact ⟨c :: value, written ++ behind, found, rest, .cons hc hvalue, hrest, by simp, by simp⟩

/-- A unit comes before what the text holds behind its character. -/
theorem HoldsFrom.unit {half : Option Nat} {a b c d : Char} {unit : Nat} {read : Char}
    (hhex : hexUnit? a b c d = some unit) (hread : readUnit half unit = some (.char read))
    (h : HoldsFrom more text (.inText (read :: reversed) none)) :
    HoldsFrom more ('\\' :: 'u' :: a :: b :: c :: d :: text) (.inText reversed half) := by
  rcases readUnit_eq_char hread with ⟨rfl, hwhole, hchar⟩ | ⟨first, rfl, hsecond, hchar⟩
  · rw [hchar] at h
    exact h.char (.unit hhex hwhole)
  · obtain ⟨value, written, found, rest, hvalue, hrest, rfl, rfl⟩ := h
    refine ⟨read :: value, '\\' :: 'u' :: a :: b :: c :: d :: written, found, rest, ?_, hrest,
      by simp, rfl⟩
    intro a' b' c' d' hhex' hfirst
    have hpair := Spells.pair hhex' hfirst hhex hsecond
    rw [← hchar] at hpair
    exact .cons hpair hvalue

/-- The first half of a character comes before what the text holds behind it. -/
theorem HoldsFrom.firstHalf {half : Option Nat} {a b c d : Char} {unit first : Nat}
    (hhex : hexUnit? a b c d = some unit) (hread : readUnit half unit = some (.firstHalf first))
    (h : HoldsFrom more text (.inText reversed (some first))) :
    HoldsFrom more ('\\' :: 'u' :: a :: b :: c :: d :: text) (.inText reversed half) := by
  obtain ⟨rfl, rfl, hfirst⟩ := readUnit_eq_firstHalf hread
  obtain ⟨value, written, found, rest, hvalue, hrest, rfl, rfl⟩ := h
  exact ⟨value, _, found, rest, hvalue a b c d hhex hfirst, hrest, rfl, rfl⟩

end HoldsFrom

/-- **Tokens that are found were spelled in the text**, from any place of the reader on. -/
theorem holdsFrom_of_tokensFrom {found all : List Token} {place : Place} {text : List Char}
    (h : tokensFrom found place text = some all) :
    ∃ more, all = found.reverse ++ more ∧ HoldsFrom more text place := by
  fun_induction tokensFrom found place text with
  | case1 found =>
    cases h
    exact ⟨[], by simp, .nil⟩
  | case3 found c rest hspace ih =>
    obtain ⟨more, rfl, hrest⟩ := ih h
    exact ⟨more, rfl, .space hspace hrest⟩
  | case4 found rest hspace ih =>
    obtain ⟨more, rfl, value, written, behind, last, hvalue, hrest, rfl, rfl⟩ := ih h
    exact ⟨_, rfl, .text hvalue hrest⟩
  | case5 found c rest hspace hquote token hpunctuation ih =>
    obtain ⟨more, rfl, hrest⟩ := ih h
    exact ⟨token :: more, by simp, .punctuation hpunctuation hrest⟩
  | case7 found reversed half a b c d rest read hunit ih =>
    obtain ⟨more, rfl, hrest⟩ := ih h
    obtain ⟨unit, hhex, hread⟩ := Option.bind_eq_some_iff.mp hunit
    exact ⟨more, rfl, hrest.unit hhex hread⟩
  | case8 found reversed half a b c d rest first hunit ih =>
    obtain ⟨more, rfl, hrest⟩ := ih h
    obtain ⟨unit, hhex, hread⟩ := Option.bind_eq_some_iff.mp hunit
    exact ⟨more, rfl, hrest.firstHalf hhex hread⟩
  | case11 found reversed letter rest hunit read hletter ih =>
    obtain ⟨more, rfl, hrest⟩ := ih h
    exact ⟨more, rfl, hrest.char (.letter hletter)⟩
  | case13 found reversed rest hunit hletter ih =>
    obtain ⟨more, rfl, hrest⟩ := ih h
    refine ⟨.text (String.ofList reversed.reverse) :: more, by simp, ?_⟩
    exact ⟨[], [], more, rest, .nil, hrest, by simp, rfl⟩
  | case15 found reversed c rest hunit hletter hquote hprinted ih =>
    obtain ⟨more, rfl, hrest⟩ := ih h
    obtain ⟨hprinted, hescape⟩ := not_or.mp hprinted
    exact ⟨more, rfl, hrest.char (.plain hprinted hquote hescape)⟩
  | case2 | case6 | case9 | case10 | case12 | case14 => cases h

/-- **The reader finds tokens in a text exactly if the text holds them.** -/
theorem tokens_eq_some_iff {text : List Char} {found : List Token} :
    tokens text = some found ↔ Holds found text := by
  constructor
  · intro h
    obtain ⟨more, rfl, hmore⟩ := holdsFrom_of_tokensFrom h
    exact hmore
  · exact fun h => tokensFrom_of_holds h []

end TestScout.Json
