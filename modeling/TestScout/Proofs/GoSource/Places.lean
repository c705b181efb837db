import TestScout.GoSource.Reader
import TestScout.Proofs.GoSource.Placed

/-!
# Where the reader places functions

The tokens of a source stand one behind the other, each at a place of the source with something
behind it. What a rule of the grammar takes is tokens, so what it has passed is where one of them
ends. From both follows where the functions of an outline stand, for well-formed sources and for
broken ones, and that the reader is a parser as the program counts on. Main statements:

* `tokenOf_of_mem_codeTokens`: a token covers characters of the source, or is a line end marked
  behind one that does;
* `inOrder_codeTokens`: no token starts before the end of an earlier one;
* `follows_matchTokens`: what a rule leaves is the rest of the tokens, behind the last one taken;
* `standsIn_of_mem_outline`: a function of an outline starts where a token does and ends within the
  source;
* `placesDeclarations_tree`, `alwaysParses_reader`: the reader gives every source a tree, whose
  declarations stand in it.
-/

namespace TestScout.GoSource

/-! ## 1. Tokens -/

/-- The token covers characters of the source. -/
def Token.CoversIn (source : List Char) (token : Token) : Prop :=
  ∃ before covered rest, source = before ++ covered ++ rest ∧ covered ≠ [] ∧
    token.first = Position.start.behind before ∧
    token.last = Position.start.behind (before ++ covered)

/-- The token covers characters of the source, or is a line end behind one that does. -/
def Token.TokenOf (source : List Char) (token : Token) : Prop :=
  token.CoversIn source ∨ ∃ earlier : Token, earlier.CoversIn source ∧
    token = earlier.lineEndBehind

theorem Token.CoversIn.wide {source : List Char} {token : Token} (h : token.CoversIn source) :
    token.first.offset < token.last.offset := by
  obtain ⟨before, covered, rest, -, hcovered, hfirst, hlast⟩ := h
  have hpos := byteLength_pos hcovered
  rw [hfirst, hlast, Position.offset_behind_start, Position.offset_behind_start, byteLength_append]
  omega

/-- No token ends behind the end of the source. -/
theorem Token.TokenOf.last_le {source : List Char} {token : Token} (h : token.TokenOf source) :
    token.last.offset ≤ (Position.start.behind source).offset := by
  have hcovers {token : Token} (h : token.CoversIn source) :
      token.last.offset ≤ (Position.start.behind source).offset := by
    obtain ⟨before, covered, rest, hsource, -, -, hlast⟩ := h
    rw [hlast, hsource, Position.behind_append _ (before ++ covered)]
    exact Position.offset_le_behind _ _
  rcases h with h | ⟨earlier, hearlier, rfl⟩
  · exact hcovers h
  · show earlier.last.offset ≤ _
    exact hcovers hearlier

/-- A token that is no line end covers characters. -/
theorem Token.TokenOf.coversIn {source : List Char} {token : Token} (h : token.TokenOf source)
    (hend : token.isLineEnd = false) : token.CoversIn source := by
  rcases h with h | ⟨earlier, -, rfl⟩
  · exact h
  · rw [earlier.isLineEnd_lineEndBehind] at hend
    cases hend

/-- Tokens that stand one behind the other. -/
structure InOrder (tokens : List Token) : Prop where
  /-- No token ends before it starts. -/
  wide : ∀ token ∈ tokens, token.first.offset ≤ token.last.offset
  /-- No token starts before an earlier one ends. -/
  apart : tokens.Pairwise fun earlier later => earlier.last.offset ≤ later.first.offset

theorem inOrder_nil : InOrder [] :=
  ⟨fun _ h => absurd h List.not_mem_nil, .nil⟩

theorem InOrder.sublist {some all : List Token} (h : InOrder all) (hsub : some.Sublist all) :
    InOrder some :=
  ⟨fun token htoken => h.wide token (hsub.subset htoken), h.apart.sublist hsub⟩

/-- One more token behind the others. -/
theorem InOrder.concat {tokens : List Token} {token : Token} (h : InOrder tokens)
    (hwide : token.first.offset ≤ token.last.offset)
    (hapart : ∀ earlier ∈ tokens, earlier.last.offset ≤ token.first.offset) :
    InOrder (tokens ++ [token]) where
  wide := by
    intro found hfound
    rcases List.mem_append.mp hfound with hfound | hfound
    · exact h.wide found hfound
    · obtain rfl := List.mem_singleton.mp hfound
      exact hwide
  apart := by
    refine List.pairwise_append.mpr ⟨h.apart, List.pairwise_singleton _ _, ?_⟩
    intro earlier hearlier later hlater
    obtain rfl := List.mem_singleton.mp hlater
    exact hapart earlier hearlier

/-- The line end behind a token stands in order. -/
theorem InOrder.insert_lineEnd {front rest : List Token} {token : Token}
    (h : InOrder (front ++ token :: rest)) :
    InOrder (front ++ token :: token.lineEndBehind :: rest) where
  wide := by
    intro found hfound
    simp only [List.mem_append, List.mem_cons] at hfound
    rcases hfound with hfront | rfl | rfl | hrest
    · exact h.wide found (by simp [hfront])
    · exact h.wide found (by simp)
    · exact Nat.le_refl _
    · exact h.wide found (by simp [hrest])
  apart := by
    obtain ⟨hfront, hbehind, hacross⟩ := List.pairwise_append.mp h.apart
    obtain ⟨htoken, hrest⟩ := List.pairwise_cons.mp hbehind
    have hwide : token.first.offset ≤ token.last.offset := h.wide token (by simp)
    refine List.pairwise_append.mpr ⟨hfront, ?_, ?_⟩
    · refine List.pairwise_cons.mpr ⟨?_, List.pairwise_cons.mpr ⟨htoken, hrest⟩⟩
      intro later hlater
      rcases List.mem_cons.mp hlater with rfl | hlater
      · exact Nat.le_refl _
      · exact htoken later hlater
    · intro earlier hearlier later hlater
      have htoken : earlier.last.offset ≤ token.first.offset :=
        hacross earlier hearlier token List.mem_cons_self
      simp only [List.mem_cons] at hlater
      rcases hlater with rfl | rfl | hlater
      · exact htoken
      · exact Nat.le_trans htoken hwide
      · exact hacross earlier hearlier later (List.mem_cons_of_mem _ hlater)

/-- The first token ends before all of them do. -/
theorem InOrder.last_le_last {token found : Token} {rest : List Token}
    (h : InOrder (token :: rest)) (hfound : found ∈ token :: rest) :
    token.last.offset ≤ found.last.offset := by
  rcases List.mem_cons.mp hfound with rfl | hrest
  · exact Nat.le_refl _
  · exact Nat.le_trans ((List.pairwise_cons.mp h.apart).1 found hrest) (h.wide found hfound)

/-! ## 2. The tokens of a source -/

/-- The token at the start of a text that starts with a character. -/
def tokenAt (place : Position) (c : Char) (rest : List Char) : Token :=
  makeToken (Spelling.token c rest).1 (c :: rest.take (Spelling.token c rest).2) place

/-- What stands behind the token at the start of a text. -/
def behindToken (c : Char) (rest : List Char) : List Char :=
  rest.drop (Spelling.token c rest).2

theorem tokensFrom_gap {place : Position} {c : Char} (h : isGap place c = true)
    (found : List Token) (rest : List Char) :
    tokensFrom found place (c :: rest) = tokensFrom found (place.advance c) rest := by
  rw [tokensFrom, if_pos h]

theorem tokensFrom_token {place : Position} {c : Char} (h : ¬isGap place c = true)
    (found : List Token) (rest : List Char) :
    tokensFrom found place (c :: rest) =
      tokensFrom (tokenAt place c rest :: found) (tokenAt place c rest).last
        (behindToken c rest) := by
  rw [tokensFrom, if_neg h]
  rfl

/-- **Every token found is the one at a place of the text.** -/
theorem exists_of_mem_tokensFrom {token : Token} (found : List Token) (place : Position)
    (text : List Char) (h : token ∈ tokensFrom found place text) :
    token ∈ found ∨ ∃ before c rest, text = before ++ c :: rest ∧
      token = tokenAt (place.behind before) c rest := by
  induction found, place, text using tokensFrom.induct with
  | case1 found place =>
    rw [tokensFrom_nil] at h
    exact Or.inl (List.mem_reverse.mp h)
  | case2 found place c rest hgap ih =>
    rw [tokensFrom_gap hgap] at h
    refine (ih h).imp_right ?_
    rintro ⟨before, first, more, rfl, rfl⟩
    exact ⟨c :: before, first, more, rfl, rfl⟩
  | case3 found place c rest hgap spelled made ih =>
    rw [tokensFrom_token hgap] at h
    rcases ih h with hmade | ⟨before, first, more, hrest, rfl⟩
    · rcases List.mem_cons.mp hmade with rfl | hfound
      · exact Or.inr ⟨[], c, rest, rfl, rfl⟩
      · exact Or.inl hfound
    · refine Or.inr ⟨c :: rest.take spelled.2 ++ before, first, more, ?_, ?_⟩
      · rw [List.append_assoc, ← hrest, List.cons_append, List.take_append_drop]
      · rw [Position.behind_append]
        rfl

/-- Tokens are found in order. -/
theorem inOrder_tokensFrom (found : List Token) (place : Position) (text : List Char)
    (hfound : InOrder found.reverse)
    (hplace : ∀ earlier ∈ found, earlier.last.offset ≤ place.offset) :
    InOrder (tokensFrom found place text) := by
  induction found, place, text using tokensFrom.induct with
  | case1 found place =>
    rw [tokensFrom_nil]
    exact hfound
  | case2 found place c rest hgap ih =>
    rw [tokensFrom_gap hgap]
    refine ih hfound fun earlier hearlier => ?_
    exact Nat.le_trans (hplace earlier hearlier) (place.offset_le_behind [c])
  | case3 found place c rest hgap spelled made ih =>
    rw [tokensFrom_token hgap]
    have hwide : place.offset ≤ made.last.offset := place.offset_le_behind _
    refine ih ?_ fun earlier hearlier => ?_
    · rw [List.reverse_cons]
      exact hfound.concat hwide fun earlier hearlier =>
        hplace earlier (List.mem_reverse.mp hearlier)
    · rcases List.mem_cons.mp hearlier with rfl | hearlier
      · exact Nat.le_refl _
      · exact Nat.le_trans (hplace earlier hearlier) hwide

/-- Marking line ends adds nothing else. -/
theorem mem_of_mem_markLineEnds {token : Token} (finished rest : List Token)
    (h : token ∈ markLineEnds finished rest) :
    token ∈ finished ∨ token ∈ rest ∨ ∃ earlier ∈ rest, token = earlier.lineEndBehind := by
  induction rest generalizing finished with
  | nil => exact Or.inl (List.mem_reverse.mp h)
  | cons next rest ih =>
    have hnext : token = next.lineEndBehind ∨ token ∈ next :: finished ∨ token ∈ rest ∨
        ∃ earlier ∈ rest, token = earlier.lineEndBehind := by
      unfold markLineEnds at h
      split at h
      · rcases ih _ h with hfinished | hrest
        · exact (List.mem_cons.mp hfinished).imp_right Or.inl
        · exact Or.inr (Or.inr hrest)
      · exact Or.inr (ih _ h)
    rcases hnext with hmade | hfinished | hrest | ⟨earlier, hearlier, hend⟩
    · exact Or.inr (Or.inr ⟨next, List.mem_cons_self, hmade⟩)
    · rcases List.mem_cons.mp hfinished with rfl | hfinished
      · exact Or.inr (Or.inl List.mem_cons_self)
      · exact Or.inl hfinished
    · exact Or.inr (Or.inl (List.mem_cons_of_mem _ hrest))
    · exact Or.inr (Or.inr ⟨earlier, List.mem_cons_of_mem _ hearlier, hend⟩)

/-- Marking line ends keeps the order. -/
theorem inOrder_markLineEnds (finished rest : List Token)
    (h : InOrder (finished.reverse ++ rest)) : InOrder (markLineEnds finished rest) := by
  induction rest generalizing finished with
  | nil => rwa [List.append_nil] at h
  | cons token rest ih =>
    unfold markLineEnds
    split
    · refine ih _ ?_
      have hinsert := h.insert_lineEnd
      simpa using hinsert
    · refine ih _ ?_
      simpa using h

/-- **No token starts before the end of an earlier one.** -/
theorem inOrder_codeTokens (source : List Char) : InOrder (codeTokens source) := by
  have hfound : InOrder (tokensFrom [] .start source) :=
    inOrder_tokensFrom [] .start source inOrder_nil fun _ h => absurd h List.not_mem_nil
  exact (inOrder_markLineEnds [] _ hfound).sublist List.filter_sublist

/-- **A token covers characters of its source, or is a line end behind one that does.** -/
theorem tokenOf_of_mem_tokens {source : List Char} {token : Token} (h : token ∈ tokens source) :
    token.TokenOf source := by
  have hcovers {token : Token} (h : token ∈ tokensFrom [] .start source) :
      token.CoversIn source := by
    rcases exists_of_mem_tokensFrom [] .start source h with hnil | ⟨before, c, rest, hsource, rfl⟩
    · exact absurd hnil List.not_mem_nil
    · refine ⟨before, c :: rest.take (Spelling.token c rest).2, behindToken c rest, ?_,
        List.cons_ne_nil _ _, rfl, ?_⟩
      · rw [hsource, List.append_assoc, List.cons_append, behindToken, List.take_append_drop]
      · exact (Position.behind_append _ _ _).symm
  rcases mem_of_mem_markLineEnds [] _ h with hnil | hfound | ⟨earlier, hearlier, hend⟩
  · exact absurd hnil List.not_mem_nil
  · exact Or.inl (hcovers hfound)
  · exact Or.inr ⟨earlier, hcovers hearlier, hend⟩

theorem tokenOf_of_mem_codeTokens {source : List Char} {token : Token}
    (h : token ∈ codeTokens source) : token.TokenOf source :=
  tokenOf_of_mem_tokens (List.mem_filter.mp h).1

/-! ## 3. What a rule takes -/

/-- A cursor that is the other one, or stands behind a token of it. -/
structure Cursor.Follows (later earlier : Cursor) : Prop where
  rest : later.rest <:+ earlier.rest
  passed : later.passed = earlier.passed ∨ ∃ token ∈ earlier.rest, later.passed = token.last

namespace Cursor

theorem follows_self (cursor : Cursor) : cursor.Follows cursor :=
  ⟨List.suffix_refl _, Or.inl rfl⟩

theorem Follows.trans {last middle first : Cursor} (h : last.Follows middle)
    (h' : middle.Follows first) : last.Follows first where
  rest := h.rest.trans h'.rest
  passed := by
    rcases h.passed with heq | ⟨token, htoken, hpassed⟩
    · rw [heq]
      exact h'.passed
    · exact Or.inr ⟨token, h'.rest.subset htoken, hpassed⟩

/-- **Taking a token ends behind it.** -/
theorem take_eq_some {pattern : Pattern} {cursor next : Cursor}
    (h : cursor.take pattern = some next) :
    ∃ token, cursor.rest = token :: next.rest ∧ next.passed = token.last := by
  unfold take at h
  split at h
  · rename_i token rest hrest
    split at h
    · obtain rfl := Option.some.inj h
      exact ⟨token, hrest, rfl⟩
    · exact absurd h (by simp)
  · exact absurd h (by simp)

theorem follows_take {pattern : Pattern} {cursor next : Cursor}
    (h : cursor.take pattern = some next) : next.Follows cursor := by
  obtain ⟨token, hrest, hpassed⟩ := take_eq_some h
  refine ⟨?_, Or.inr ⟨token, ?_, hpassed⟩⟩
  · rw [hrest]
    exact List.suffix_cons _ _
  · rw [hrest]
    exact List.mem_cons_self

end Cursor

/-- A step whose cursors follow the ones it is given. -/
def GoesOn (step : Cursor → Option Cursor) : Prop :=
  ∀ ⦃cursor next⦄, step cursor = some next → next.Follows cursor

theorem follows_repeatStep {step : Cursor → Option Cursor} (h : GoesOn step) (limit : Nat)
    (cursor : Cursor) : (repeatStep step limit cursor).Follows cursor := by
  induction limit generalizing cursor with
  | zero => exact cursor.follows_self
  | succ limit ih =>
    unfold repeatStep
    split
    · rename_i next hnext
      exact (ih next).trans (h hnext)
    · exact cursor.follows_self

section Grammar

variable {Label : Type}

/-- One case for each form of a rule. -/
theorem goesOn_run {enter : Label → Cursor → Option Cursor} (h : ∀ name, GoesOn (enter name))
    (limit : Nat) (rule : Rule Label) : GoesOn (rule.run enter limit) := by
  intro cursor next hrun
  induction rule generalizing cursor next with
  | nothing =>
    obtain rfl := Option.some.inj hrun
    exact cursor.follows_self
  | one pattern => exact Cursor.follows_take hrun
  | sequence first second ihfirst ihsecond =>
    unfold Rule.run at hrun
    split at hrun
    · rename_i middle hfirst
      exact (ihsecond hrun).trans (ihfirst hfirst)
    · exact absurd hrun (by simp)
  | choice first second ihfirst ihsecond =>
    unfold Rule.run at hrun
    split at hrun
    · rename_i taken hfirst
      obtain rfl := Option.some.inj hrun
      exact ihfirst hfirst
    · exact ihsecond hrun
  | many rule ih =>
    obtain rfl := Option.some.inj hrun
    exact follows_repeatStep (fun _ _ hstep => ih hstep) limit cursor
  | label name => exact h name hrun

/-- A rule that begins with a token goes on behind that token. -/
theorem take_of_run_sequence {enter : Label → Cursor → Option Cursor}
    (h : ∀ name, GoesOn (enter name)) {limit : Nat} {pattern : Pattern} {rule : Rule Label}
    {cursor behind : Cursor}
    (hrun : (Rule.sequence (.one pattern) rule).run enter limit cursor = some behind) :
    ∃ next, cursor.take pattern = some next ∧ behind.Follows next := by
  unfold Rule.run at hrun
  split at hrun
  · rename_i next hnext
    exact ⟨next, hnext, goesOn_run h limit rule hrun⟩
  · exact absurd hrun (by simp)

theorem goesOn_matchLabel (grammar : Label → Rule Label) (limit depth : Nat) (name : Label) :
    GoesOn (matchLabel grammar limit depth name) := by
  induction depth generalizing name with
  | zero =>
    intro cursor next h
    exact absurd h (by simp [matchLabel])
  | succ depth ih => exact goesOn_run ih limit (grammar name)

/-- **What a rule leaves is the rest of the tokens, behind the last one taken.** -/
theorem follows_matchTokens {grammar : Label → Rule Label} {name : Label} {tokens : List Token}
    {behind : Cursor} (h : matchTokens grammar name tokens = some behind) :
    behind.Follows ⟨tokens, .start⟩ :=
  goesOn_matchLabel grammar _ _ name h

end Grammar

/-! ## 4. Functions of an outline -/

/-- **The header of a function ends behind one of its tokens.** -/
theorem passed_of_functionHeader {code : List Token} {header : Cursor}
    (h : functionHeader? code = some header) : ∃ token ∈ code, header.passed = token.last := by
  -- Both forms of a header begin with the keyword, so at least one token is taken.
  have hfirst : ∃ next, Cursor.take (.exactly "func") ⟨code, .start⟩ = some next ∧
      header.Follows next := by
    have henter (name : Label) : GoesOn
        (matchLabel grammar (code.length + 1) (nestingLimit * code.length + 31) name) :=
      goesOn_matchLabel grammar _ _ name
    have hrun : headerRule.run
        (matchLabel grammar (code.length + 1) (nestingLimit * code.length + 31))
        (code.length + 1) ⟨code, .start⟩ = some header := h
    unfold headerRule Rule.run at hrun
    split at hrun
    · rename_i found hfunction
      obtain rfl := Option.some.inj hrun
      exact take_of_run_sequence henter hfunction
    · exact take_of_run_sequence henter hrun
  obtain ⟨next, htake, hfollows⟩ := hfirst
  obtain ⟨token, hcode, hpassed⟩ := Cursor.take_eq_some htake
  have hcode : code = token :: next.rest := hcode
  rcases hfollows.passed with heq | ⟨found, hfound, heq⟩
  · exact ⟨token, by rw [hcode]; exact List.mem_cons_self, heq.trans hpassed⟩
  · exact ⟨found, by rw [hcode]; exact List.mem_cons_of_mem _ hfound, heq⟩

/-- What the closing brace leaves is the rest of the tokens, behind that brace. -/
theorem passed_of_closeBraces {depth : Nat} {code : List Token} {behind : Cursor}
    (h : closeBraces depth code = some behind) :
    behind.rest <:+ code ∧ ∃ token ∈ code, behind.passed = token.last := by
  induction code generalizing depth with
  | nil => exact absurd h (by simp [closeBraces])
  | cons token rest ih =>
    have hmore {depth : Nat} (hrest : closeBraces depth rest = some behind) :
        behind.rest <:+ token :: rest ∧ ∃ found ∈ token :: rest, behind.passed = found.last := by
      obtain ⟨hsuffix, found, hfound, hpassed⟩ := ih hrest
      exact ⟨hsuffix.trans (List.suffix_cons _ _), found, List.mem_cons_of_mem _ hfound, hpassed⟩
    unfold closeBraces at h
    split at h
    · exact hmore h
    · split at h
      · split at h
        · obtain rfl := Option.some.inj h
          exact ⟨List.suffix_cons _ _, token, List.mem_cons_self, rfl⟩
        · exact hmore h
      · exact hmore h

/-- **What stands behind a function is the rest of the tokens; the function ends where one of its
    tokens does or where the source ends.** -/
theorem passed_of_behindBody (sourceEnd : Position) {code : List Token} {header : Cursor}
    (hrest : header.rest <:+ code) (hpassed : ∃ token ∈ code, header.passed = token.last) :
    (behindBody sourceEnd header).rest <:+ code ∧
      ((behindBody sourceEnd header).passed = sourceEnd ∨
        ∃ token ∈ code, (behindBody sourceEnd header).passed = token.last) := by
  unfold behindBody
  split
  · rename_i token rest hheader
    have hsuffix : rest <:+ code := by
      rw [hheader] at hrest
      exact (List.suffix_cons _ _).trans hrest
    split
    · cases hclose : closeBraces 1 rest with
      | none => exact ⟨List.nil_suffix, Or.inl rfl⟩
      | some behind =>
        obtain ⟨hbehind, found, hfound, heq⟩ := passed_of_closeBraces hclose
        exact ⟨hbehind.trans hsuffix, Or.inr ⟨found, hsuffix.subset hfound, heq⟩⟩
    · exact ⟨hrest, Or.inr hpassed⟩
  · exact ⟨hrest, Or.inr hpassed⟩

/-- Whether the part is a function. -/
def Part.IsFunction : Part → Prop
  | .function .. => True
  | _ => False

section Outline

variable {sourceEnd : Position}

/-- A function is read off its header: the name is there, and the place behind the body. -/
theorem functionAt?_eq_some {token : Token} {rest : List Token} {found : Part × Cursor}
    (h : functionAt? sourceEnd (token :: rest) = some found) :
    ∃ header name, functionHeader? (token :: rest) = some header ∧ headerName 0 rest = some name ∧
      found = (.function name token.first (behindBody sourceEnd header).passed,
        behindBody sourceEnd header) := by
  unfold functionAt? at h
  split at h
  · exact absurd h (by simp)
  · rename_i first more hcode
    obtain ⟨rfl, rfl⟩ := List.cons.inj hcode
    split at h
    · rename_i header name hheader hname
      exact ⟨header, name, hheader, hname, (Option.some.inj h).symm⟩
    · exact absurd h (by simp)

theorem passed_of_functionAt {token : Token} {rest : List Token} {found : Part × Cursor}
    (h : functionAt? sourceEnd (token :: rest) = some found) :
    found.2.rest <:+ token :: rest ∧ (found.2.passed = sourceEnd ∨
      ∃ last ∈ token :: rest, found.2.passed = last.last) := by
  obtain ⟨header, name, hheader, -, rfl⟩ := functionAt?_eq_some h
  exact passed_of_behindBody sourceEnd (follows_matchTokens hheader).rest
    (passed_of_functionHeader hheader)

/-- **One part: what is left is the rest, and a function is one that starts with the first
    token.** -/
theorem functionAt_of_partAt (sourceEnd : Position) (token : Token) (rest : List Token) :
    (partAt sourceEnd token rest).2.rest <:+ token :: rest ∧
      ((partAt sourceEnd token rest).1.IsFunction →
        functionAt? sourceEnd (token :: rest) = some (partAt sourceEnd token rest)) := by
  unfold partAt
  split
  · exact ⟨List.suffix_cons _ _, False.elim⟩
  · split
    · rename_i found hfound
      exact ⟨(passed_of_functionAt hfound).1, fun _ => hfound⟩
    · split
      · rename_i behind hitem
        have hmatch := (Option.filter_eq_some_iff.mp hitem).1
        exact ⟨(follows_matchTokens hmatch).rest, False.elim⟩
      · exact ⟨List.suffix_cons _ _, False.elim⟩

/-- **All parts: the functions among them start with tokens that are no line ends.** -/
theorem functionAt_of_codeParts (found : List Part) (limit : Nat) (code : List Token) {part : Part}
    (hpart : part ∈ codeParts sourceEnd found limit code) (hfunction : part.IsFunction) :
    part ∈ found ∨ ∃ token rest behind, token :: rest <:+ code ∧ token.isLineEnd = false ∧
      functionAt? sourceEnd (token :: rest) = some (part, behind) := by
  induction limit generalizing found code with
  | zero => exact Or.inl (List.mem_reverse.mp hpart)
  | succ limit ih =>
    cases code with
    | nil => exact Or.inl (List.mem_reverse.mp hpart)
    | cons first more =>
      unfold codeParts at hpart
      split at hpart
      · refine (ih found more hpart).imp_right ?_
        rintro ⟨token, rest, behind, hsuffix, hfound⟩
        exact ⟨token, rest, behind, hsuffix.trans (List.suffix_cons _ _), hfound⟩
      · rename_i hend
        obtain ⟨hleft, hfirst⟩ := functionAt_of_partAt sourceEnd first more
        rcases ih _ _ hpart with hmem | ⟨token, rest, behind, hsuffix, hfound⟩
        · rcases List.mem_cons.mp hmem with rfl | hmem
          · exact Or.inr ⟨first, more, _, List.suffix_refl _, Bool.eq_false_iff.mpr hend,
              hfirst hfunction⟩
          · exact Or.inl hmem
        · exact Or.inr ⟨token, rest, behind, hsuffix.trans hleft, hfound⟩

end Outline

/-- Weaving comments in adds no other part. -/
theorem mem_of_mem_weave {part : Part} (found parts : List Part) (comments : List Token)
    (h : part ∈ weave found parts comments) :
    part ∈ found ∨ part ∈ parts ∨ part.isComment = true := by
  have hcomments (comments : List Token) (hmem : part ∈ comments.map weave.ofComment) :
      part.isComment = true := by
    obtain ⟨comment, -, rfl⟩ := List.mem_map.mp hmem
    rfl
  induction found, parts, comments using weave.induct with
  | case1 found comments =>
    rw [weave] at h
    rcases List.mem_append.mp h with hfound | hcomment
    · exact Or.inl (List.mem_reverse.mp hfound)
    · exact Or.inr (Or.inr (hcomments comments hcomment))
  | case2 found next parts =>
    rw [weave] at h
    rcases List.mem_append.mp h with hfound | hnext
    · exact Or.inl (List.mem_reverse.mp hfound)
    · exact Or.inr (Or.inl hnext)
  | case3 found next parts comment comments hbefore ih =>
    rw [weave, if_pos hbefore] at h
    rcases ih h with hmem | hrest
    · rcases List.mem_cons.mp hmem with rfl | hfound
      · exact Or.inr (Or.inr rfl)
      · exact Or.inl hfound
    · exact Or.inr hrest
  | case4 found next parts comment comments hbefore hinside ih =>
    rw [weave, if_neg hbefore, if_pos hinside] at h
    exact ih h
  | case5 found next parts comment comments hbefore hinside ih =>
    rw [weave, if_neg hbefore, if_neg hinside] at h
    rcases ih h with hmem | hparts | hcomment
    · rcases List.mem_cons.mp hmem with rfl | hfound
      · exact Or.inr (Or.inl List.mem_cons_self)
      · exact Or.inl hfound
    · exact Or.inr (Or.inl (List.mem_cons_of_mem _ hparts))
    · exact Or.inr (Or.inr hcomment)

/-- **A function of an outline is one that starts with a token of the source.** -/
theorem functionAt_of_mem_outline {source : List Char} {part : Part}
    (h : part ∈ outline (Position.start.behind source) (tokens source))
    (hfunction : part.IsFunction) :
    ∃ token rest behind, token :: rest <:+ codeTokens source ∧ token.isLineEnd = false ∧
      functionAt? (Position.start.behind source) (token :: rest) = some (part, behind) := by
  rcases mem_of_mem_weave [] _ _ h with hnil | hcode | hcomment
  · exact absurd hnil List.not_mem_nil
  · rcases functionAt_of_codeParts [] _ _ hcode hfunction with hnil | hfound
    · exact absurd hnil List.not_mem_nil
    · exact hfound
  · cases part with
    | comment text first last => exact absurd hfunction id
    | function name first last => exact absurd hcomment (by simp [Part.isComment])
    | other first last => exact absurd hfunction id

/-- **A function of an outline starts where a token does that covers something, and it ends no
    earlier than this token, and within the source.** -/
theorem standsIn_of_mem_outline {source : List Char} {part : Part}
    (h : part ∈ outline (Position.start.behind source) (tokens source))
    (hfunction : part.IsFunction) :
    ∃ token : Token, token.CoversIn source ∧ part.first = token.first ∧
      token.last.offset ≤ part.last.offset ∧
      part.last.offset ≤ (Position.start.behind source).offset := by
  obtain ⟨token, rest, behind, hsuffix, hend, hfound⟩ := functionAt_of_mem_outline h hfunction
  have htokenOf {found : Token} (hmem : found ∈ token :: rest) : found.TokenOf source :=
    tokenOf_of_mem_codeTokens (hsuffix.subset hmem)
  have hpassed := (passed_of_functionAt hfound).2
  obtain ⟨header, name, hheader, -, hpart⟩ := functionAt?_eq_some hfound
  obtain ⟨rfl, rfl⟩ := Prod.mk.inj hpart
  refine ⟨token, (htokenOf List.mem_cons_self).coversIn hend, rfl, ?_⟩
  show token.last.offset ≤ (behindBody _ header).passed.offset ∧
    (behindBody _ header).passed.offset ≤ _
  rcases hpassed with heq | ⟨last, hlast, heq⟩
  · rw [heq]
    exact ⟨(htokenOf List.mem_cons_self).last_le, Nat.le_refl _⟩
  · rw [heq]
    exact ⟨((inOrder_codeTokens source).sublist hsuffix.sublist).last_le_last hlast,
      (htokenOf hlast).last_le⟩

/-! ## 5. The reader as a parser -/

namespace Reader

/-- Of the nodes that the reader makes of parts, those of functions are declarations. -/
theorem isFunction_of_isDeclaration {scene : Scene} {part : Part}
    (h : (scene.nodeOf part).IsDeclaration) : part.IsFunction := by
  cases part with
  | function name first last => exact trivial
  | comment text first last =>
    have hnot : ¬"comment" ∈ Node.declarationKinds := by decide
    exact absurd h hnot
  | other first last =>
    have hnot : ¬"item" ∈ Node.declarationKinds := by decide
    exact absurd h hnot

/-- A function that stands in a source does so as a node. -/
theorem placedIn_nodeOf {scene : Scene} {source : String} {part : Part}
    (hpart : part ∈ outline (Position.start.behind source.toList) (tokens source.toList))
    (hfunction : part.IsFunction) : (scene.nodeOf part).PlacedIn source := by
  obtain ⟨token, hcovers, hfirst, hlast, hend⟩ := standsIn_of_mem_outline hpart hfunction
  have hwide := hcovers.wide
  obtain ⟨before, covered, rest, hsource, -, hplace, -⟩ := hcovers
  rw [hplace] at hfirst hwide
  cases part with
  | comment text first last => exact absurd hfunction id
  | other first last => exact absurd hfunction id
  | function name first last =>
    obtain rfl : first = Position.start.behind before := hfirst
    have hlast : token.last.offset ≤ last.offset := hlast
    have hend : last.offset ≤ _ := hend
    refine ⟨?_, fun _ => Nat.lt_of_lt_of_le hwide hlast, ?_⟩
    · rw [List.append_assoc] at hsource
      exact Position.row_behind hsource
    · rw [Position.offset_behind_start, ← length_toUTF8] at hend
      exact hend

/-- **The declarations in the tree of a source stand in it.** -/
theorem placesDeclarations_tree (source : String) : (tree source).PlacesDeclarations source := by
  intro child hchild hdeclaration
  rcases List.mem_append.mp hchild with hmem | hmem
  · obtain ⟨part, hpart, rfl⟩ := List.mem_map.mp hmem
    exact placedIn_nodeOf hpart (isFunction_of_isDeclaration hdeclaration)
  · obtain ⟨first, -, rfl⟩ := List.mem_map.mp hmem
    have hnot : ¬"ERROR" ∈ Node.declarationKinds := by decide
    exact absurd hdeclaration hnot

end Reader

/-- **The reader gives every source a tree.** -/
theorem alwaysParses_reader : reader.AlwaysParses :=
  ⟨rfl, fun _ => rfl⟩

end TestScout.GoSource
