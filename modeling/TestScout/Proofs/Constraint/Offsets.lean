import Mathlib.Data.List.DropRight
import TestScout.Proofs.Constraint.Grammar
import TestScout.Proofs.Text.ByteOrder
import TestScout.Text.Utf8

/-!
# Reading a constraint by offsets

A constraint can be read from the bytes of its text, with the offset of the next byte in hand. Such
a reader can do what a reader of characters cannot: look at a byte that is not there, or cut the
text inside a character. Here it may do so, and then it fails for good. Main statements:

* `Attempt`, `readAt`, `parse`: the reader by offsets, in which every access may fail;
* `agrees_readAt`: wherever it starts, it keeps step with the reader of characters, its offset
  being where a character starts;
* `read_iff_writes`: a text that writes a constraint is read as that constraint, any other text is
  refused, and the reader by offsets does the same on the bytes without failing.
-/

namespace TestScout.Constraint

/-! ## 1. Attempts -/

/-- What comes of reading bytes by offset. -/
inductive Attempt (α : Type) where
  | done (value : α)
  /-- The text is refused with a message. -/
  | refused (message : String)
  /-- A byte outside the text was asked for, or a cut not between two characters. -/
  | fault
deriving DecidableEq, Repr

/-- Goes on with the value, if there is one. -/
def Attempt.andThen {α β : Type} (attempt : Attempt α) (next : α → Attempt β) : Attempt β :=
  match attempt with
  | .done value => next value
  | .refused message => .refused message
  | .fault => .fault

@[simp] theorem Attempt.andThen_done {α β : Type} (value : α) (next : α → Attempt β) :
    (Attempt.done value).andThen next = next value := rfl

/-- The byte at an offset. -/
def byteAt (bytes : List UInt8) (offset : Nat) : Attempt UInt8 :=
  match bytes[offset]? with
  | some byte => .done byte
  | none => .fault

/-- The bytes from an offset on. -/
def bytesFrom (bytes : List UInt8) (offset : Nat) : Attempt (List UInt8) :=
  if offset ≤ bytes.length then .done (bytes.drop offset) else .fault

/-- The bytes from one offset to another. -/
def bytesBetween (bytes : List UInt8) (first last : Nat) : Attempt (List UInt8) :=
  if first ≤ last ∧ last ≤ bytes.length then .done ((bytes.drop first).take (last - first))
  else .fault

/-- The text from an offset on, which has to be the offset of a character or the end. -/
def textFrom : List Char → Nat → Attempt (List Char)
  | text, 0 => .done text
  | [], _ + 1 => .fault
  | c :: rest, offset + 1 =>
    if c.utf8Size ≤ offset + 1 then textFrom rest (offset + 1 - c.utf8Size) else .fault

/-! ## 2. The reader by offsets -/

/-- The UTF-8 form of a text. -/
def utf8 (text : List Char) : List UInt8 :=
  text.flatMap String.utf8EncodeChar

/-- A space or a tab. -/
def isSpaceByte (byte : UInt8) : Bool :=
  byte == 0x20 || byte == 0x09

/-- A byte of a tag: an ASCII letter or digit, `_` or `.`. -/
def isTagByte (byte : UInt8) : Bool :=
  (0x30 ≤ byte && byte ≤ 0x39) || (0x41 ≤ byte && byte ≤ 0x5A) || (0x61 ≤ byte && byte ≤ 0x7A)
    || byte == 0x5F || byte == 0x2E

/-- The offset of the first byte outside a class, from an offset on. -/
def skip (inside : UInt8 → Bool) (bytes : List UInt8) (offset : Nat) : Attempt Nat :=
  if offset < bytes.length then
    (byteAt bytes offset).andThen fun byte =>
      if inside byte then skip inside bytes (offset + 1) else .done offset
  else .done offset
termination_by bytes.length - offset

/-- Whether a token is the next one, and the offset behind it, or behind the spaces before it. -/
def eatAt (token : List Char) (bytes : List UInt8) (offset : Nat) : Attempt (Bool × Nat) :=
  (skip isSpaceByte bytes offset).andThen fun offset =>
    (bytesFrom bytes offset).andThen fun rest =>
      .done (if (utf8 token).isPrefixOf rest then (true, offset + (utf8 token).length)
        else (false, offset))

/-- The tag at an offset. -/
def tagAt (bytes : List UInt8) (offset : Nat) : Attempt (Constraint × Nat) :=
  (skip isSpaceByte bytes offset).andThen fun first =>
    (skip isTagByte bytes first).andThen fun last =>
      if first = last then
        if last = bytes.length then .refused ConstraintError.endOfText.message
        else (byteAt bytes last).andThen fun byte =>
          .refused ("unexpected " ++ Quoted.char (Char.ofNat byte.toNat))
      else (bytesBetween bytes first last).andThen fun name =>
        .done (.tag (Utf8.decodeLossy ⟨name.toArray⟩), last)

/-- Reads what the goal asks for and gives it with the offset behind it. -/
def readAt (bytes : List UInt8) : Nat → Goal → Nat → Attempt (Constraint × Nat)
  | 0, _, _ => .refused ConstraintError.tooDeep.message
  | n + 1, .disjunction, offset =>
    (readAt bytes n .conjunction offset).andThen fun read =>
      readAt bytes n (.moreDisjuncts read.1) read.2
  | n + 1, .moreDisjuncts x, offset =>
    (eatAt ['|', '|'] bytes offset).andThen fun eaten =>
      if eaten.1 then
        (readAt bytes n .conjunction eaten.2).andThen fun read =>
          readAt bytes n (.moreDisjuncts (.or x read.1)) read.2
      else .done (x, eaten.2)
  | n + 1, .conjunction, offset =>
    (readAt bytes n .negation offset).andThen fun read =>
      readAt bytes n (.moreConjuncts read.1) read.2
  | n + 1, .moreConjuncts x, offset =>
    (eatAt ['&', '&'] bytes offset).andThen fun eaten =>
      if eaten.1 then
        (readAt bytes n .negation eaten.2).andThen fun read =>
          readAt bytes n (.moreConjuncts (.and x read.1)) read.2
      else .done (x, eaten.2)
  | n + 1, .negation, offset =>
    (eatAt ['!'] bytes offset).andThen fun eaten =>
      if eaten.1 then
        (readAt bytes n .negation eaten.2).andThen fun read => .done (.not read.1, read.2)
      else readAt bytes n .atom eaten.2
  | n + 1, .atom, offset =>
    (eatAt ['('] bytes offset).andThen fun eaten =>
      if eaten.1 then
        (readAt bytes n .disjunction eaten.2).andThen fun read =>
          (eatAt [')'] bytes read.2).andThen fun closed =>
            if closed.1 then .done (read.1, closed.2)
            else .refused ConstraintError.missingClose.message
      else tagAt bytes eaten.2

/-- The constraint that a text writes, read from its bytes. -/
def parse (text : List Char) : Attempt Constraint :=
  (readAt (utf8 text) (stepsFor text) .disjunction 0).andThen fun read =>
    (skip isSpaceByte (utf8 text) read.2).andThen fun offset =>
      if offset ≠ (utf8 text).length then
        (textFrom text offset).andThen fun rest => .refused ("unexpected " ++ Quoted.text rest)
      else .done read.1

/-! ## 3. Bytes of characters -/

theorem utf8_append (front back : List Char) : utf8 (front ++ back) = utf8 front ++ utf8 back :=
  List.flatMap_append

theorem utf8_cons (c : Char) (rest : List Char) :
    utf8 (c :: rest) = String.utf8EncodeChar c ++ utf8 rest :=
  List.flatMap_cons

theorem toNat_ofNat_of_lt {n : Nat} (h : n < 256) : (UInt8.ofNat n).toNat = n := by
  rw [UInt8.toNat_ofNat', Nat.mod_eq_of_lt h]

theorem encode_of_ascii {c : Char} (h : c.toNat < 128) :
    String.utf8EncodeChar c = [UInt8.ofNat c.toNat] := by
  have hsmall : c.val.toNat ≤ 0x7f := Nat.lt_succ_iff.mp h
  unfold String.utf8EncodeChar
  simp only [hsmall, if_true]
  rfl

/-- The first byte of a character is the one that is shown for it. -/
theorem exists_first_byte (c : Char) :
    ∃ byte more, String.utf8EncodeChar c = byte :: more ∧
      Char.ofNat byte.toNat = ConstraintError.leadingByte c := by
  have hval : c.val.toNat = c.toNat := rfl
  have hmax : c.toNat < 0x110000 := by
    have hvalid := c.valid
    unfold UInt32.isValidChar Nat.isValidChar at hvalid
    omega
  unfold String.utf8EncodeChar ConstraintError.leadingByte
  simp only [hval, ← Nat.lt_succ_iff, Nat.succ_eq_add_one, Nat.reduceAdd]
  split
  · refine ⟨_, _, rfl, ?_⟩
    rw [toNat_ofNat_of_lt (by omega), Char.ofNat_toNat]
  · split
    · refine ⟨_, _, rfl, ?_⟩
      rw [toNat_ofNat_of_lt (by omega)]
      congr 1
      omega
    · split
      · refine ⟨_, _, rfl, ?_⟩
        rw [toNat_ofNat_of_lt (by omega)]
        congr 1
        omega
      · refine ⟨_, _, rfl, ?_⟩
        rw [toNat_ofNat_of_lt (by omega)]
        congr 1
        omega

/-- The first byte of a character outside ASCII is outside ASCII. -/
theorem first_byte_of_not_ascii {c : Char} {byte : UInt8} {more : List UInt8}
    (h : String.utf8EncodeChar c = byte :: more) (hc : 128 ≤ c.toNat) : 128 ≤ byte.toNat := by
  have hval : c.val.toNat = c.toNat := rfl
  have hmax : c.toNat < 0x110000 := by
    have hvalid := c.valid
    unfold UInt32.isValidChar Nat.isValidChar at hvalid
    omega
  unfold String.utf8EncodeChar at h
  simp only [hval] at h
  split at h
  · omega
  · split at h
    · obtain ⟨rfl, -⟩ := List.cons.inj h
      rw [toNat_ofNat_of_lt (by omega)]
      omega
    · split at h
      · obtain ⟨rfl, -⟩ := List.cons.inj h
        rw [toNat_ofNat_of_lt (by omega)]
        omega
      · obtain ⟨rfl, -⟩ := List.cons.inj h
        rw [toNat_ofNat_of_lt (by omega)]
        omega

/-- A class of bytes that stands for a class of ASCII characters. -/
structure StandsFor (inside : UInt8 → Bool) (member : Char → Bool) : Prop where
  ascii : ∀ n < 128, inside (UInt8.ofNat n) = member (Char.ofNat n)
  noByte : ∀ byte : UInt8, 128 ≤ byte.toNat → inside byte = false
  noChar : ∀ c : Char, 128 ≤ c.toNat → member c = false

theorem isSpaceByte_standsFor : StandsFor isSpaceByte isSpaceOrTab where
  ascii := by decide
  noByte byte h := by
    cases hb : isSpaceByte byte with
    | false => rfl
    | true =>
      simp only [isSpaceByte, Bool.or_eq_true, beq_iff_eq] at hb
      rcases hb with rfl | rfl <;> exact absurd h (by decide)
  noChar c h := by
    cases hc : isSpaceOrTab c with
    | false => rfl
    | true =>
      simp only [isSpaceOrTab, Bool.or_eq_true, beq_iff_eq] at hc
      rcases hc with rfl | rfl <;> exact absurd h (by decide)

/-- The letters and digits of tags are ASCII, and `z` is the last of them. -/
theorem toNat_le_of_isAlphanum {c : Char} (h : c.isAlphanum = true) : c.toNat ≤ 122 := by
  have hupper : c.isUpper = true → c.toNat ≤ 90 := by
    intro h
    unfold Char.isUpper at h
    exact (of_decide_eq_true h).2
  have hlower : c.isLower = true → c.toNat ≤ 122 := by
    intro h
    unfold Char.isLower at h
    rw [Bool.and_eq_true] at h
    exact of_decide_eq_true h.2
  have hdigit : c.isDigit = true → c.toNat ≤ 57 := by
    intro h
    unfold Char.isDigit at h
    rw [Bool.and_eq_true] at h
    exact of_decide_eq_true h.2
  unfold Char.isAlphanum Char.isAlpha at h
  rw [Bool.or_eq_true, Bool.or_eq_true] at h
  rcases h with (h | h) | h
  · exact Nat.le_trans (hupper h) (by decide)
  · exact hlower h
  · exact Nat.le_trans (hdigit h) (by decide)

theorem isTagByte_standsFor : StandsFor isTagByte isTagChar where
  ascii := by decide
  noByte byte h := by
    cases hb : isTagByte byte with
    | false => rfl
    | true =>
      simp only [isTagByte, Bool.or_eq_true, Bool.and_eq_true, decide_eq_true_eq, beq_iff_eq,
        UInt8.le_iff_toNat_le, ← UInt8.toNat_inj] at hb
      simp only [UInt8.reduceToNat] at hb
      omega
  noChar c h := by
    cases hc : isTagChar c with
    | false => rfl
    | true =>
      unfold isTagChar at hc
      rw [Bool.or_eq_true, Bool.or_eq_true] at hc
      rcases hc with (hletter | hline) | hdot
      · have hle := toNat_le_of_isAlphanum hletter
        omega
      · rw [beq_iff_eq.mp hline] at h
        exact absurd h (by decide)
      · rw [beq_iff_eq.mp hdot] at h
        exact absurd h (by decide)

/-- The first byte of a character tells whether the character is in the class, which then has no
    other byte. -/
theorem StandsFor.first_byte {inside : UInt8 → Bool} {member : Char → Bool}
    (h : StandsFor inside member) {c : Char} {byte : UInt8} {more : List UInt8}
    (hc : String.utf8EncodeChar c = byte :: more) :
    inside byte = member c ∧ (member c = true → more = []) := by
  rcases Nat.lt_or_ge c.toNat 128 with hlt | hge
  · rw [encode_of_ascii hlt] at hc
    obtain ⟨rfl, rfl⟩ := List.cons.inj hc
    have hsame := h.ascii c.toNat hlt
    rw [Char.ofNat_toNat] at hsame
    exact ⟨hsame, fun _ => rfl⟩
  · have hnot := h.noChar c hge
    refine ⟨?_, fun hyes => ?_⟩
    · rw [hnot]
      exact h.noByte byte (first_byte_of_not_ascii hc hge)
    · rw [hnot] at hyes
      exact absurd hyes (by decide)

/-! ## 4. Offsets of characters -/

/-- The offset behind a text. -/
def width (text : List Char) : Nat :=
  (utf8 text).length

theorem width_append (front back : List Char) :
    width (front ++ back) = width front + width back := by
  unfold width
  rw [utf8_append, List.length_append]

theorem width_eq_zero_iff {text : List Char} : width text = 0 ↔ text = [] := by
  constructor
  · intro h
    cases text with
    | nil => rfl
    | cons c rest =>
      obtain ⟨byte, more, hc, -⟩ := exists_first_byte c
      unfold width at h
      rw [utf8_cons, hc] at h
      simp at h
  · rintro rfl
    rfl

/-- Behind a front of the text the text is not over while something follows. -/
theorem width_ne_width_append (front : List Char) {back : List Char} (h : back ≠ []) :
    width front ≠ width (front ++ back) := by
  intro heq
  rw [width_append] at heq
  have hzero : width back = 0 := by omega
  exact h (width_eq_zero_iff.mp hzero)

/-- The byte behind a front of the text is the first one of the next character. -/
theorem byteAt_width (front : List Char) {c : Char} (rest : List Char) {byte : UInt8}
    {more : List UInt8} (hc : String.utf8EncodeChar c = byte :: more) :
    byteAt (utf8 (front ++ c :: rest)) (width front) = .done byte := by
  have hget : (utf8 (front ++ c :: rest))[width front]? = some byte := by
    rw [utf8_append, utf8_cons, hc]
    unfold width
    rw [List.getElem?_append_right (Nat.le_refl _), Nat.sub_self]
    rfl
  unfold byteAt
  rw [hget]

theorem bytesFrom_width (front back : List Char) :
    bytesFrom (utf8 (front ++ back)) (width front) = .done (utf8 back) := by
  have hle : width front ≤ (utf8 (front ++ back)).length := by
    rw [utf8_append, List.length_append]
    exact Nat.le_add_right _ _
  unfold bytesFrom
  rw [if_pos hle, utf8_append]
  unfold width
  rw [List.drop_left]

theorem bytesBetween_width (front name back : List Char) :
    bytesBetween (utf8 (front ++ (name ++ back))) (width front) (width (front ++ name)) =
      .done (utf8 name) := by
  have hbound : width front ≤ width (front ++ name) ∧
      width (front ++ name) ≤ (utf8 (front ++ (name ++ back))).length := by
    have hall : (utf8 (front ++ (name ++ back))).length = width (front ++ (name ++ back)) := rfl
    rw [hall]
    simp only [width_append]
    omega
  unfold bytesBetween
  rw [if_pos hbound, width_append, Nat.add_sub_cancel_left, utf8_append, utf8_append]
  unfold width
  rw [List.drop_left, List.take_left]

/-- **The text can be cut where a character starts.** -/
theorem textFrom_width (front back : List Char) :
    textFrom (front ++ back) (width front) = .done back := by
  induction front with
  | nil =>
    have hzero : width [] = 0 := rfl
    rw [hzero, List.nil_append]
    cases back <;> rfl
  | cons c rest ih =>
    have hwidth : width (c :: rest) = c.utf8Size + width rest := by
      unfold width
      rw [utf8_cons, List.length_append, String.length_utf8EncodeChar]
    have hpos : 0 < c.utf8Size := c.utf8Size_pos
    obtain ⟨n, hn⟩ := Nat.exists_eq_succ_of_ne_zero (Nat.ne_of_gt hpos)
    have hsucc : width (c :: rest) = (n + width rest) + 1 := by omega
    rw [hsucc, List.cons_append, textFrom, if_pos (by omega)]
    have hback : n + width rest + 1 - c.utf8Size = width rest := by omega
    rw [hback]
    exact ih

/-- **Skipping a class of bytes skips the characters of the class.** The induction is on the text
    behind the offset. -/
theorem skip_width {inside : UInt8 → Bool} {member : Char → Bool} (h : StandsFor inside member)
    (front back : List Char) :
    skip inside (utf8 (front ++ back)) (width front) =
      .done (width (front ++ back.takeWhile member)) := by
  induction back generalizing front with
  | nil =>
    rw [skip, if_neg (by rw [List.append_nil]; exact Nat.lt_irrefl _), List.takeWhile_nil,
      List.append_nil]
  | cons c rest ih =>
    obtain ⟨byte, more, hc, -⟩ := exists_first_byte c
    obtain ⟨hinside, hmore⟩ := h.first_byte hc
    have hlt : width front < (utf8 (front ++ c :: rest)).length := by
      rw [utf8_append, List.length_append, utf8_cons, hc]
      simp only [width, List.cons_append, List.length_cons]
      omega
    rw [skip, if_pos hlt, byteAt_width front rest hc, Attempt.andThen_done, hinside]
    cases hmember : member c with
    | false =>
      rw [if_neg (by decide), List.takeWhile_cons_of_neg (by simp [hmember]), List.append_nil]
    | true =>
      have hone : width (front ++ [c]) = width front + 1 := by
        rw [width_append]
        congr 1
        unfold width
        rw [utf8_cons, hc, hmore hmember]
        rfl
      have hrest := ih (front ++ [c])
      rw [hone, List.append_assoc, List.singleton_append] at hrest
      rw [if_pos rfl, hrest, List.takeWhile_cons_of_pos hmember, List.append_assoc,
        List.singleton_append]

/-- The byte of an ASCII character is the first byte of no other character. -/
theorem first_byte_eq_iff {c d : Char} {byte : UInt8} {more : List UInt8} (hd : d.toNat < 128)
    (hc : String.utf8EncodeChar c = byte :: more) : UInt8.ofNat d.toNat = byte ↔ d = c := by
  constructor
  · intro h
    rcases Nat.lt_or_ge c.toNat 128 with hlt | hge
    · rw [encode_of_ascii hlt] at hc
      obtain ⟨rfl, -⟩ := List.cons.inj hc
      have hnat := (ByteOrder.ofNat_inj_iff (by omega) (by omega)).mp h
      rw [← Char.ofNat_toNat d, hnat, Char.ofNat_toNat]
    · have hbyte := first_byte_of_not_ascii hc hge
      rw [← h, toNat_ofNat_of_lt (by omega)] at hbyte
      omega
  · rintro rfl
    rw [encode_of_ascii hd] at hc
    exact (List.cons.inj hc).1

/-- An ASCII text begins another one exactly if its bytes begin the bytes of the other one. -/
theorem isPrefixOf_utf8 {token : List Char} (htoken : ∀ c ∈ token, c.toNat < 128)
    (text : List Char) : (utf8 token).isPrefixOf (utf8 text) = token.isPrefixOf text := by
  induction token generalizing text with
  | nil => rfl
  | cons d more ih =>
    have hd := htoken d List.mem_cons_self
    have hmore := fun c hc => htoken c (List.mem_cons_of_mem d hc)
    cases text with
    | nil =>
      rw [utf8_cons, encode_of_ascii hd]
      rfl
    | cons c rest =>
      obtain ⟨byte, others, hc, -⟩ := exists_first_byte c
      have hsame := first_byte_eq_iff hd hc
      rw [utf8_cons, encode_of_ascii hd, utf8_cons, hc, List.singleton_append, List.cons_append,
        List.isPrefixOf, List.isPrefixOf]
      by_cases hdc : d = c
      · subst hdc
        rw [encode_of_ascii hd] at hc
        obtain ⟨-, rfl⟩ := List.cons.inj hc
        rw [hsame.mpr rfl, List.nil_append, ih hmore]
        simp
      · have hbyte : (UInt8.ofNat d.toNat == byte) = false := by simpa using mt hsame.mp hdc
        have hchar : (d == c) = false := by simpa using hdc
        rw [hbyte, hchar, Bool.false_and, Bool.false_and]

/-- A tag's bytes are read back as the tag. -/
theorem decodeLossy_utf8 (text : List Char) :
    Utf8.decodeLossy ⟨(utf8 text).toArray⟩ = String.ofList text := by
  have hbytes : (⟨(utf8 text).toArray⟩ : ByteArray) = (String.ofList text).toUTF8 := by
    have hlist := ByteOrder.bytes_eq (String.ofList text)
    rw [String.toList_ofList] at hlist
    unfold utf8
    rw [← hlist]
    rfl
  unfold Utf8.decodeLossy Utf8.lossy
  rw [hbytes, Utf8.fromUTF8?_toUTF8]

/-! ## 5. In step with the reader of characters -/

/-- The offset stands where a character starts, and the rest of the text is the given one, spaces
    and tabs in front apart. -/
def StandsAt (text : List Char) (offset : Nat) (rest : List Char) : Prop :=
  ∃ front back, text = front ++ back ∧ offset = width front ∧ skipSpace back = skipSpace rest

/-- What the two readers say of a text is the same. -/
inductive Agrees (text : List Char) :
    Attempt (Constraint × Nat) → Except ConstraintError (Constraint × List Char) → Prop where
  | refused (e : ConstraintError) : Agrees text (.refused e.message) (.error e)
  | done (x : Constraint) (offset : Nat) (rest : List Char) (h : StandsAt text offset rest) :
      Agrees text (.done (x, offset)) (.ok (x, rest))

/-- Skipping spaces leads to where the rest of the text starts behind its spaces. -/
theorem skip_of_standsAt {text rest : List Char} {offset : Nat} (h : StandsAt text offset rest) :
    ∃ front, text = front ++ skipSpace rest ∧
      skip isSpaceByte (utf8 text) offset = .done (width front) := by
  obtain ⟨front, back, rfl, rfl, hback⟩ := h
  refine ⟨front ++ back.takeWhile isSpaceOrTab, ?_, skip_width isSpaceByte_standsFor front back⟩
  rw [← hback, List.append_assoc]
  unfold skipSpace
  rw [List.takeWhile_append_dropWhile]

/-- A token is eaten by offset as it is eaten from the text. -/
theorem eatAt_of_standsAt (token : List Char) {text rest : List Char} {offset : Nat}
    (htoken : ∀ c ∈ token, c.toNat < 128) (h : StandsAt text offset rest) :
    (∃ behind next, eat token rest = some behind ∧ StandsAt text next behind ∧
        eatAt token (utf8 text) offset = .done (true, next)) ∨
      (∃ next, eat token rest = none ∧ StandsAt text next rest ∧
        eatAt token (utf8 text) offset = .done (false, next)) := by
  obtain ⟨front, htext, hskip⟩ := skip_of_standsAt h
  have hrest := bytesFrom_width front (skipSpace rest)
  rw [← htext] at hrest
  unfold eatAt
  rw [hskip, Attempt.andThen_done, hrest, Attempt.andThen_done, isPrefixOf_utf8 htoken]
  cases hprefix : token.isPrefixOf (skipSpace rest) with
  | true =>
    obtain ⟨behind, hbehind⟩ := List.isPrefixOf_iff_prefix.mp hprefix
    refine Or.inl ⟨behind, width (front ++ token),
      List.isPrefixOf?_eq_some_iff_append_eq.mpr hbehind,
      ⟨front ++ token, behind, ?_, rfl, rfl⟩, ?_⟩
    · rw [List.append_assoc, hbehind]
      exact htext
    · rw [if_pos rfl, width_append]
      rfl
  | false =>
    refine Or.inr ⟨width front, ?_, ⟨front, skipSpace rest, htext, rfl, ?_⟩, ?_⟩
    · cases heat : eat token rest with
      | none => rfl
      | some behind =>
        have hfront := List.isPrefixOf?_eq_some_iff_append_eq.mp heat
        rw [List.isPrefixOf_iff_prefix.mpr ⟨behind, hfront⟩] at hprefix
        exact absurd hprefix (by decide)
    · unfold skipSpace
      rw [List.dropWhile_idempotent]
    · rw [if_neg (by decide)]

/-- The two readers go on in step. -/
theorem Agrees.andThen {text : List Char} {attempt : Attempt (Constraint × Nat)}
    {result : Except ConstraintError (Constraint × List Char)}
    {next : Constraint × Nat → Attempt (Constraint × Nat)}
    {more : Constraint → List Char → Except ConstraintError (Constraint × List Char)} :
    Agrees text attempt result →
    (∀ x offset rest, StandsAt text offset rest →
      Agrees text (next (x, offset)) (more x rest)) →
    Agrees text (attempt.andThen next)
      (match result with
        | .error e => .error e
        | .ok (x, rest) => more x rest) := by
  intro h hnext
  cases h with
  | refused e => exact .refused e
  | done x offset rest h => exact hnext x offset rest h

/-- A tag is read by offset as it is read from the text. -/
theorem agrees_tagAt {text rest : List Char} {offset : Nat} (h : StandsAt text offset rest) :
    Agrees text (tagAt (utf8 text) offset)
      (match (skipSpace rest).takeWhile isTagChar, skipSpace rest with
        | [], [] => .error .endOfText
        | [], c :: _ => .error (.unexpected c)
        | name, _ => .ok (.tag (String.ofList name), (skipSpace rest).dropWhile isTagChar)) := by
  obtain ⟨front, htext, hskip⟩ := skip_of_standsAt h
  have htag := skip_width isTagByte_standsFor front (skipSpace rest)
  rw [← htext] at htag
  unfold tagAt
  rw [hskip, Attempt.andThen_done, htag, Attempt.andThen_done]
  cases hname : (skipSpace rest).takeWhile isTagChar with
  | nil =>
    rw [List.append_nil, if_pos rfl]
    cases hrest : skipSpace rest with
    | nil =>
      rw [hrest, List.append_nil] at htext
      rw [if_pos (by rw [htext]; rfl)]
      exact .refused .endOfText
    | cons c more =>
      rw [hrest] at htext
      obtain ⟨byte, others, hc, hshown⟩ := exists_first_byte c
      have hinside : width front ≠ (utf8 text).length := by
        rw [htext]
        exact width_ne_width_append front (List.cons_ne_nil _ _)
      have hbyte := byteAt_width front more hc
      rw [← htext] at hbyte
      rw [if_neg hinside, hbyte, Attempt.andThen_done, hshown]
      exact .refused (.unexpected c)
  | cons c more =>
    have hsplit : skipSpace rest = (c :: more) ++ (skipSpace rest).dropWhile isTagChar := by
      rw [← hname, List.takeWhile_append_dropWhile]
    have hlater : width front ≠ width (front ++ c :: more) :=
      width_ne_width_append front (List.cons_ne_nil _ _)
    have hbytes := bytesBetween_width front (c :: more) ((skipSpace rest).dropWhile isTagChar)
    rw [← hsplit, ← htext] at hbytes
    rw [if_neg hlater, hbytes, Attempt.andThen_done, decodeLossy_utf8]
    refine .done _ _ _ ⟨front ++ c :: more, (skipSpace rest).dropWhile isTagChar, ?_, rfl, rfl⟩
    rw [List.append_assoc, ← hsplit]
    exact htext

/-- **From wherever a character starts, the two readers keep step.** The induction is on the
    steps. -/
theorem agrees_readAt {text : List Char} (n : Nat) (goal : Goal) {offset : Nat} {rest : List Char}
    (h : StandsAt text offset rest) :
    Agrees text (readAt (utf8 text) n goal offset) (readGoal n goal rest) := by
  induction n generalizing goal offset rest with
  | zero => exact .refused .tooDeep
  | succ n ih =>
    cases goal with
    | disjunction =>
      rw [readAt, readGoal]
      refine (ih .conjunction h).andThen ?_
      intro x next behind hnext
      exact ih (.moreDisjuncts x) hnext
    | moreDisjuncts x =>
      rw [readAt, readGoal]
      rcases eatAt_of_standsAt ['|', '|'] (by simp) h with
        ⟨behind, next, heat, hnext, hat⟩ | ⟨next, heat, hnext, hat⟩
      · rw [hat, heat]
        refine (ih .conjunction hnext).andThen ?_
        intro y next behind hnext
        exact ih (.moreDisjuncts (.or x y)) hnext
      · rw [hat, heat]
        exact .done x next rest hnext
    | conjunction =>
      rw [readAt, readGoal]
      refine (ih .negation h).andThen ?_
      intro x next behind hnext
      exact ih (.moreConjuncts x) hnext
    | moreConjuncts x =>
      rw [readAt, readGoal]
      rcases eatAt_of_standsAt ['&', '&'] (by simp) h with
        ⟨behind, next, heat, hnext, hat⟩ | ⟨next, heat, hnext, hat⟩
      · rw [hat, heat]
        refine (ih .negation hnext).andThen ?_
        intro y next behind hnext
        exact ih (.moreConjuncts (.and x y)) hnext
      · rw [hat, heat]
        exact .done x next rest hnext
    | negation =>
      rw [readAt, readGoal]
      rcases eatAt_of_standsAt ['!'] (by simp) h with
        ⟨behind, next, heat, hnext, hat⟩ | ⟨next, heat, hnext, hat⟩
      · rw [hat, heat]
        refine (ih .negation hnext).andThen ?_
        intro x next behind hnext
        exact .done (.not x) next behind hnext
      · rw [hat, heat]
        exact ih .atom hnext
    | atom =>
      rw [readAt, readGoal]
      rcases eatAt_of_standsAt ['('] (by simp) h with
        ⟨behind, next, heat, hnext, hat⟩ | ⟨next, heat, hnext, hat⟩
      · rw [hat, heat]
        refine (ih .disjunction hnext).andThen ?_
        intro x next behind hnext
        rcases eatAt_of_standsAt [')'] (by simp) hnext with
          ⟨last, place, hlast, hplace, hat'⟩ | ⟨place, hlast, hplace, hat'⟩
        · rw [hat', hlast]
          exact .done x place last hplace
        · rw [hat', hlast]
          exact .refused .missingClose
      · rw [hat, heat]
        exact agrees_tagAt hnext

/-! ## 6. Whole texts -/

/-- What a reader says that needs no offsets. -/
def Attempt.ofResult : Except ConstraintError Constraint → Attempt Constraint
  | .ok x => .done x
  | .error e => .refused e.message

/-- The reader by offsets says of a text what the reader of characters says, and does not fail. -/
theorem parse_eq (text : List Char) : parse text = .ofResult (read text) := by
  have hstart : StandsAt text 0 text := ⟨[], text, rfl, rfl, rfl⟩
  have hagrees := agrees_readAt (stepsFor text) .disjunction hstart
  unfold parse read
  generalize readAt (utf8 text) (stepsFor text) .disjunction 0 = attempt at hagrees
  generalize readGoal (stepsFor text) .disjunction text = result at hagrees
  cases hagrees with
  | refused e => rfl
  | done x offset rest h =>
    obtain ⟨front, htext, hskip⟩ := skip_of_standsAt h
    simp only [Attempt.andThen_done, hskip]
    cases hrest : skipSpace rest with
    | nil =>
      rw [hrest, List.append_nil] at htext
      rw [htext, if_neg (fun h => h rfl)]
      rfl
    | cons c more =>
      rw [hrest] at htext
      have hinside : width front ≠ (utf8 text).length := by
        rw [htext]
        exact width_ne_width_append front (List.cons_ne_nil _ _)
      have hcut := textFrom_width front (c :: more)
      rw [← htext] at hcut
      rw [if_pos hinside, hcut]
      rfl

/-- **A text that writes a constraint is read as that constraint, and any other text is refused.**
    From the bytes of the text, the reader by offsets reads the same, and never looks outside the
    bytes or cuts a character. -/
theorem read_iff_writes (text : List Char) :
    (∀ x, read text = .ok x ↔ Writes text x) ∧
      ((∃ e, read text = .error e ∧ e ≠ .tooDeep) ↔ ¬ ∃ x, Writes text x) ∧
      parse text = .ofResult (read text) ∧ parse text ≠ .fault := by
  refine ⟨fun x => read_eq_ok_iff, ?_, parse_eq text, ?_⟩
  · constructor
    · rintro ⟨e, he, -⟩ ⟨x, hx⟩
      rw [read_eq_ok_iff.mpr hx] at he
      exact absurd he (by simp)
    · intro hnone
      cases hread : read text with
      | error e =>
        refine ⟨e, rfl, fun htoo => ?_⟩
        rw [htoo] at hread
        exact read_ne_tooDeep text hread
      | ok x => exact absurd ⟨x, read_eq_ok_iff.mp hread⟩ hnone
  · rw [parse_eq]
    cases read text with
    | error e => exact fun h => absurd h (by simp [Attempt.ofResult])
    | ok x => exact fun h => absurd h (by simp [Attempt.ofResult])

end TestScout.Constraint
